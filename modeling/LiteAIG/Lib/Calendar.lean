/-
Dates and the RFC 3339 text of a point in time.

A point in time is a number of nanoseconds and the zone it is told in.  Its text is
the one of Go's `RFC3339Nano`: a fraction without trailing zeros, `Z` where the
offset is zero, and no text at all for a year of more than four digits or a zone a
day away.  The text determines the time; what has to be shown for it is that a date
determines its day.
-/
import LiteAIG.Lib.Text

namespace Lib

open List

/-! ### Dates -/

/-- The year that starts on 1 March and the day of it, from the days since 1 March of year 0. -/
def marchYear (z : Int) : Int × Int :=
  -- a leap day is the last day of its year, its four years and its four centuries
  let ofEra := z % 146097
  let century := min (ofEra / 36524) 3
  let ofCentury := ofEra - 36524 * century
  let four := ofCentury / 1461
  let ofFour := ofCentury - 1461 * four
  let year := min (ofFour / 365) 3
  (400 * (z / 146097) + 100 * century + 4 * four + year, ofFour - 365 * year)

/-- Year, month and day, from the days since 1 January of year 1. -/
def civil (days : Int) : Int × Int × Int :=
  let march := marchYear (days + 306)
  let month := (5 * march.2 + 2) / 153
  let day := march.2 - (153 * month + 2) / 5 + 1
  if month < 10 then (march.1, month + 3, day) else (march.1 + 1, month - 9, day)

example : civil 738944 = (2024, 2, 29) := by decide +kernel

/-- The days before 1 March of a year, since that of year 0. -/
def daysBefore (year : Int) : Int :=
  146097 * (year / 400) + 36524 * (year % 400 / 100) + 1461 * (year % 100 / 4) + 365 * (year % 4)

theorem daysBefore_eq {era century four year : Int} (hc : 0 ≤ century ∧ century ≤ 3)
    (hf : 0 ≤ four ∧ four ≤ 24) (hy : 0 ≤ year ∧ year ≤ 3) :
    daysBefore (400 * era + 100 * century + 4 * four + year)
      = 146097 * era + 36524 * century + 1461 * four + 365 * year := by
  have h40 : (400 * era + 100 * century + 4 * four + year) / 400 = era := by omega
  have h10 : (400 * era + 100 * century + 4 * four + year) % 400 / 100 = century := by omega
  have h4 : (400 * era + 100 * century + 4 * four + year) % 100 / 4 = four := by omega
  have h1 : (400 * era + 100 * century + 4 * four + year) % 4 = year := by omega
  unfold daysBefore
  rw [h40, h10, h4, h1]

theorem marchYear_spec (z : Int) :
    daysBefore (marchYear z).1 + (marchYear z).2 = z ∧
      0 ≤ (marchYear z).2 ∧ (marchYear z).2 ≤ 365 := by
  unfold marchYear
  extract_lets ofEra century ofCentury four ofFour year
  have he : 0 ≤ ofEra ∧ ofEra < 146097 := by omega
  have hc : 0 ≤ century ∧ century ≤ 3 ∧ 0 ≤ ofCentury ∧ ofCentury ≤ 36524 := by omega
  have hf : 0 ≤ four ∧ four ≤ 24 ∧ 0 ≤ ofFour ∧ ofFour < 1461 := by omega
  have hy : 0 ≤ year ∧ year ≤ 3 ∧ 0 ≤ ofFour - 365 * year ∧ ofFour - 365 * year ≤ 365 := by omega
  refine ⟨?_, hy.2.2⟩
  rw [daysBefore_eq ⟨hc.1, hc.2.1⟩ ⟨hf.1, hf.2.1⟩ ⟨hy.1, hy.2.1⟩]
  omega

theorem civil_injective : Function.Injective civil := by
  intro a b h
  obtain ⟨ha, ha0, ha1⟩ := marchYear_spec (a + 306)
  obtain ⟨hb, hb0, hb1⟩ := marchYear_spec (b + 306)
  unfold civil at h
  dsimp only at h
  -- the month tells which of the two years is meant
  have hm : (marchYear (a + 306)).1 = (marchYear (b + 306)).1 ∧
      (marchYear (a + 306)).2 = (marchYear (b + 306)).2 := by
    split at h <;> split at h <;> rw [Prod.mk.injEq, Prod.mk.injEq] at h <;> omega
  rw [hm.1, hm.2] at ha
  omega

theorem civil_bounds (days : Int) :
    1 ≤ (civil days).2.1 ∧ (civil days).2.1 ≤ 12 ∧ 1 ≤ (civil days).2.2 ∧
      (civil days).2.2 ≤ 31 := by
  obtain ⟨-, h0, h1⟩ := marchYear_spec (days + 306)
  unfold civil
  dsimp only
  split <;> dsimp only <;> omega

/-! ### RFC 3339 -/

structure Time where
  /-- Nanoseconds since 1 January of year 1, 00:00 UTC. -/
  nanos : Int
  /-- Minutes east of UTC. -/
  offset : Int
  deriving DecidableEq

/-- A date, for a year of at most four digits. -/
def dateText (date : Int × Int × Int) : List Char :=
  fixedDigits 10 4 date.1.toNat ++ '-' :: fixedDigits 10 2 date.2.1.toNat ++
    '-' :: fixedDigits 10 2 date.2.2.toNat

/-- The time of day. -/
def clockText (ofDay : Nat) : List Char :=
  fixedDigits 10 2 (ofDay / 3600) ++ ':' :: fixedDigits 10 2 (ofDay / 60 % 60) ++
    ':' :: fixedDigits 10 2 (ofDay % 60)

/-- The nanoseconds of a second, without trailing zeros. -/
def fractionText (nano : Nat) : List Char :=
  let digits := (fixedDigits 10 9 nano).rdropWhile (· = '0')
  if digits = [] then [] else '.' :: digits

def zoneText (offset : Int) : List Char :=
  if offset = 0 then ['Z']
  else (if offset < 0 then '-' else '+') :: fixedDigits 10 2 (offset.natAbs / 60) ++
    ':' :: fixedDigits 10 2 (offset.natAbs % 60)

variable (t : Time)

/-- What a clock in the zone shows, in nanoseconds. -/
def Time.wall : Int := t.nanos + t.offset * 60000000000

def Time.day : Int := t.wall / 1000000000 / 86400

/-- The second of the day. -/
def Time.second : Nat := (t.wall / 1000000000 % 86400).toNat

def Time.nano : Nat := (t.wall % 1000000000).toNat

def Time.rfc3339 : Except String (List Char) :=
  if (civil t.day).1 < 0 ∨ 9999 < (civil t.day).1 then .error "year outside of range [0,9999]"
  else if 24 * 60 ≤ t.offset.natAbs then .error "timezone hour outside of range [0,23]"
  else
    .ok (dateText (civil t.day) ++ 'T' :: clockText t.second ++ fractionText t.nano ++
      zoneText t.offset)

example : (⟨63844847999500000000, -90⟩ : Time).rfc3339
    = .ok "2024-02-29T22:29:59.5-01:30".toList := by decide +kernel

section

variable {r s : List Char}

theorem dateText_inj {a b : Int × Int × Int} (ha : 0 ≤ a.1 ∧ a.1 ≤ 9999) (hb : 0 ≤ b.1 ∧ b.1 ≤ 9999)
    (ha' : 1 ≤ a.2.1 ∧ a.2.1 ≤ 12 ∧ 1 ≤ a.2.2 ∧ a.2.2 ≤ 31)
    (hb' : 1 ≤ b.2.1 ∧ b.2.1 ≤ 12 ∧ 1 ≤ b.2.2 ∧ b.2.2 ≤ 31)
    (h : dateText a ++ r = dateText b ++ s) : a = b ∧ r = s := by
  obtain ⟨year, month, day⟩ := a
  obtain ⟨year', month', day'⟩ := b
  unfold dateText at h
  simp only [append_assoc, cons_append] at h ha hb ha' hb'
  obtain ⟨hy, h⟩ := fixedDigits_append_inj (by decide) (by decide) (by omega) (by omega) h
  obtain ⟨hm, h⟩ := fixedDigits_append_inj (by decide) (by decide) (by omega) (by omega)
    (List.cons.inj h).2
  obtain ⟨hd, hr⟩ := fixedDigits_append_inj (by decide) (by decide) (by omega) (by omega)
    (List.cons.inj h).2
  refine ⟨?_, hr⟩
  rw [Prod.mk.injEq, Prod.mk.injEq]
  omega

theorem clockText_inj {a b : Nat} (ha : a < 86400) (hb : b < 86400)
    (h : clockText a ++ r = clockText b ++ s) : a = b ∧ r = s := by
  unfold clockText at h
  simp only [append_assoc, cons_append] at h
  obtain ⟨hh, h⟩ := fixedDigits_append_inj (by decide) (by decide) (by omega) (by omega) h
  obtain ⟨hm, h⟩ := fixedDigits_append_inj (by decide) (by decide) (by omega) (by omega)
    (List.cons.inj h).2
  obtain ⟨hs, h⟩ := fixedDigits_append_inj (by decide) (by decide) (by omega) (by omega)
    (List.cons.inj h).2
  exact ⟨by omega, h⟩

theorem zoneText_inj {a b : Int} (ha : a.natAbs < 24 * 60) (hb : b.natAbs < 24 * 60)
    (h : zoneText a = zoneText b) : a = b := by
  -- both are signed and at least one is not zero
  have hs : ∀ {a b : Int}, a.natAbs < 24 * 60 → b.natAbs < 24 * 60 → a ≠ 0 → b ≠ 0 →
      zoneText a = zoneText b → a = b := by
    intro a b ha hb ha0 hb0 h
    unfold zoneText at h
    rw [if_neg ha0, if_neg hb0, cons_append, cons_append] at h
    obtain ⟨hsi, h⟩ := List.cons.inj h
    obtain ⟨hh, h⟩ := fixedDigits_append_inj (by decide) (by decide) (by omega) (by omega) h
    have hm := fixedDigits_inj (by decide) (by decide) (by omega) (by omega)
      (List.cons.inj h).2
    have hn : a < 0 ↔ b < 0 := by
      by_cases h₁ : a < 0 <;> by_cases h₂ : b < 0 <;> simp [h₁, h₂] at hsi ⊢
    omega
  have hz : ∀ {a : Int}, a ≠ 0 → zoneText 0 ≠ zoneText a := by
    intro a ha h
    unfold zoneText at h
    rw [if_pos rfl, if_neg ha, cons_append] at h
    have := (List.cons.inj h).1
    split at this <;> exact absurd this (by decide)
  by_cases ha0 : a = 0
  · subst ha0
    by_contra hne
    exact hz (Ne.symm hne) h
  · by_cases hb0 : b = 0
    · subst hb0
      exact absurd h.symm (hz ha0)
    · exact hs ha hb ha0 hb0 h

theorem rdropWhile_inj {α : Type*} [DecidableEq α] {a : α} {xs ys : List α}
    (hle : xs.length = ys.length) (h : xs.rdropWhile (· = a) = ys.rdropWhile (· = a)) :
    xs = ys := by
  have hr : ∀ zs : List α, zs.rtakeWhile (· = a)
      = List.replicate (zs.rtakeWhile (· = a)).length a := by
    intro zs
    refine eq_replicate_iff.mpr ⟨rfl, fun b hb => ?_⟩
    simpa using mem_rtakeWhile_imp hb
  have hl : (xs.rtakeWhile (· = a)).length = (ys.rtakeWhile (· = a)).length := by
    rw [← rdropWhile_append_rtakeWhile (p := (· = a)) (l := xs),
      ← rdropWhile_append_rtakeWhile (p := (· = a)) (l := ys), length_append,
      length_append, h] at hle
    omega
  rw [← rdropWhile_append_rtakeWhile (p := (· = a)) (l := xs),
    ← rdropWhile_append_rtakeWhile (p := (· = a)) (l := ys), h, hr xs, hr ys, hl]

/-- The characters of a fraction. -/
def fractionChar (c : Char) : Bool := c.isDigit || c = '.'

theorem fractionChar_of_mem {nano : Nat} {c : Char} (h : c ∈ fractionText nano) :
    fractionChar c = true := by
  unfold fractionText at h
  dsimp only at h
  split at h
  · cases h
  · rcases mem_cons.mp h with rfl | h
    · rfl
    · have := isDigit_of_mem_fixedDigits (by decide) (by decide) (( rdropWhile_prefix _ _).subset h)
      simp [fractionChar, this]

theorem stops_zoneText (offset : Int) : Stops fractionChar (zoneText offset) := by
  unfold zoneText
  split
  · exact stops_cons rfl
  · apply stops_cons
    split <;> rfl

theorem fractionText_inj {a b : Nat} (ha : a < 10 ^ 9) (hb : b < 10 ^ 9)
    (h : fractionText a = fractionText b) : a = b := by
  have hd : (fixedDigits 10 9 a).rdropWhile (· = '0')
      = (fixedDigits 10 9 b).rdropWhile (· = '0') := by
    unfold fractionText at h
    dsimp only at h
    split at h <;> split at h
    · rename_i h₁ h₂
      rw [h₁, h₂]
    · cases h
    · cases h
    · exact (List.cons.inj h).2
  exact fixedDigits_inj (by decide) (by decide) ha hb
    (rdropWhile_inj (by rw [length_fixedDigits, length_fixedDigits]) hd)

theorem Time.second_lt : t.second < 86400 := by
  unfold Time.second
  omega

theorem Time.nano_lt : t.nano < 10 ^ 9 := by
  unfold Time.nano
  omega

theorem Time.wall_eq : t.wall = (t.day * 86400 + t.second) * 1000000000 + t.nano := by
  unfold Time.day Time.second Time.nano
  omega

theorem Time.rfc3339_inj {t u : Time} {text : List Char} (ht : t.rfc3339 = .ok text)
    (hu : u.rfc3339 = .ok text) : t = u := by
  unfold Time.rfc3339 at ht hu
  split_ifs at ht with hye hzon
  split_ifs at hu with hy hzo
  have heq := (Except.ok.inj ht).trans (Except.ok.inj hu).symm
  simp only [append_assoc, cons_append] at heq
  obtain ⟨hd, heq⟩ := dateText_inj (by omega) (by omega) (civil_bounds _) (civil_bounds _) heq
  obtain ⟨hs, heq⟩ := clockText_inj t.second_lt u.second_lt (List.cons.inj heq).2
  obtain ⟨hf, hz⟩ := piece_inj (fun _ => fractionChar_of_mem)
    (fun _ => fractionChar_of_mem) (stops_zoneText _) (stops_zoneText _) heq
  have hda : t.day = u.day := civil_injective hd
  have hn : t.nano = u.nano := fractionText_inj t.nano_lt u.nano_lt hf
  have ho : t.offset = u.offset := zoneText_inj (by omega) (by omega) hz
  have hw : t.wall = u.wall := by
    rw [t.wall_eq, u.wall_eq, hda, hs, hn]
  unfold Time.wall at hw
  obtain ⟨nanos, offset⟩ := t
  obtain ⟨nanos', offset'⟩ := u
  rw [Time.mk.injEq]
  exact ⟨by simp only at ho hw; omega, ho⟩

end

end Lib
