/-
Texts that can be read back in one way.

A text is put together from pieces, and whoever reads it has to find out where one
piece ends.  Three kinds of pieces are enough here: those of a fixed width, those made
of characters of one kind that are followed by a character of another, and those that
a mark follows, which can be read wrongly if they hold the mark themselves.  Numbers
of a fixed width serve for hexadecimal bytes, escapes and the parts of a date alike.
-/
import Mathlib

namespace Lib

open List

/-! ### Pieces of one kind -/

/-- The text does not go on with a character of the kind. -/
def Stops (kind : Char → Bool) (text : List Char) : Prop :=
  ∀ c, text.head? = some c → kind c = false

variable {kind : Char → Bool}

theorem stops_nil : Stops kind [] := nofun

theorem stops_cons {c : Char} {text : List Char} (h : kind c = false) :
    Stops kind (c :: text) := by
  intro d hd
  obtain rfl : c = d := Option.some.inj hd
  exact h

theorem takeWhile_piece {xs r : List Char} (hx : ∀ c ∈ xs, kind c = true) (hr : Stops kind r) :
    (xs ++ r).takeWhile kind = xs := by
  rw [takeWhile_append_of_pos hx]
  cases r with
  | nil => simp
  | cons c r => simp [hr c rfl]

/-- A piece of one kind ends where the kind does. -/
theorem piece_inj {xs ys r s : List Char} (hx : ∀ c ∈ xs, kind c = true)
    (hy : ∀ c ∈ ys, kind c = true) (hr : Stops kind r) (hs : Stops kind s) (h : xs ++ r = ys ++ s) :
    xs = ys ∧ r = s := by
  have ht := congrArg (List.takeWhile kind) h
  rw [takeWhile_piece hx hr, takeWhile_piece hy hs] at ht
  subst ht
  exact ⟨rfl, append_cancel_left h⟩

/-! ### Pieces that are followed by a mark -/

section

variable {α : Type*} {mark : α}

/-- A mark that an ending lacks lies before the ending. -/
theorem append_eq_mark_iff {front ending left right : List α} (h : mark ∉ ending) :
    front ++ ending = left ++ mark :: right ↔
      ∃ rest, front = left ++ mark :: rest ∧ right = rest ++ ending := by
  constructor
  · intro heq
    rcases append_eq_append_iff.mp heq with ⟨gap, -, he⟩ | ⟨gap, hf, hr⟩
    · exact absurd (he ▸ mem_append_right gap mem_cons_self) h
    · cases gap with
      | nil =>
        rw [nil_append] at hr
        exact absurd (hr ▸ mem_cons_self) h
      | cons c rest =>
        obtain ⟨rfl, rfl⟩ := List.cons.inj hr
        exact ⟨rest, hf, rfl⟩
  · rintro ⟨rest, rfl, rfl⟩
    simp

/-- A text with a mark in it can be read in another way only if the one or the other piece before
the mark has a mark too. -/
theorem exists_append_mark_iff {a b x : List α} :
    (∃ y, a ++ mark :: x = b ++ mark :: y) ↔
      a = b ∨ (∃ rest, a = b ++ mark :: rest) ∨
        ∃ rest y, b = a ++ mark :: rest ∧ x = rest ++ mark :: y := by
  constructor
  · rintro ⟨y, heq⟩
    rcases append_eq_append_iff.mp heq with ⟨gap, hb, hx⟩ | ⟨gap, ha, hy⟩
    · cases gap with
      | nil => exact Or.inl (by simpa using hb.symm)
      | cons c rest =>
        obtain ⟨rfl, rfl⟩ := List.cons.inj hx
        exact Or.inr (Or.inr ⟨rest, y, hb, rfl⟩)
    · cases gap with
      | nil => exact Or.inl (by simpa using ha)
      | cons c rest =>
        obtain ⟨rfl, -⟩ := List.cons.inj hy
        exact Or.inr (Or.inl ⟨rest, ha⟩)
  · rintro (rfl | ⟨rest, rfl⟩ | ⟨rest, y, rfl, rfl⟩)
    · exact ⟨x, rfl⟩
    · exact ⟨rest ++ mark :: x, by simp⟩
    · exact ⟨y, by simp⟩

/-- The last mark of a text is in one place. -/
theorem append_last_mark_inj {a b x y : List α} (hx : mark ∉ x) (hy : mark ∉ y)
    (h : a ++ mark :: x = b ++ mark :: y) : a = b ∧ x = y := by
  rcases exists_append_mark_iff.mp ⟨y, h⟩ with rfl | ⟨rest, rfl⟩ | ⟨rest, z, -, rfl⟩
  · exact ⟨rfl, by simpa using h⟩
  · obtain rfl : rest ++ mark :: x = y := by simpa using h
    exact absurd (by simp) hy
  · exact absurd (by simp) hx

/-- A piece that two texts begin with, before different marks. -/
theorem eq_of_two_marks {mark' : α} {a b x y x' y' : List α} (hne : mark ≠ mark')
    (h : a ++ mark :: x = b ++ mark :: y) (h' : a ++ mark' :: x' = b ++ mark' :: y') : a = b := by
  rcases exists_append_mark_iff.mp ⟨y, h⟩ with rfl | ⟨rest, rfl⟩ | ⟨rest, z, rfl, -⟩
  · rfl
  · simp [hne] at h'
  · simp [hne.symm] at h'

end

/-! ### Numbers of a fixed width -/

theorem digitChar_inj : ∀ a < 16, ∀ b < 16, Nat.digitChar a = Nat.digitChar b → a = b := by
  decide

/-- The last `width` digits of a number. -/
def fixedDigits (base : Nat) : Nat → Nat → List Char
  | 0, _ => []
  | width + 1, n => fixedDigits base width (n / base) ++ [Nat.digitChar (n % base)]

section

variable {base : Nat}

@[simp] theorem length_fixedDigits (base : Nat) : ∀ width n : Nat,
    (fixedDigits base width n).length = width := by
  intro width
  induction width with
  | zero => intro n; rfl
  | succ width ih => intro n; simp [fixedDigits, ih]

theorem fixedDigits_inj (hb : 0 < base) (h16 : base ≤ 16) : ∀ {width n m : Nat},
    n < base ^ width → m < base ^ width → fixedDigits base width n = fixedDigits base width m →
    n = m := by
  intro width
  induction width with
  | zero => intro n m hn hm _; rw [pow_zero] at hn hm; omega
  | succ width ih =>
    intro n m hn hm h
    obtain ⟨hi, hl⟩ := append_inj h (by simp)
    have hd : n / base = m / base := by
      apply ih _ _ hi
      · exact Nat.div_lt_of_lt_mul (by rwa [mul_comm, ← pow_succ])
      · exact Nat.div_lt_of_lt_mul (by rwa [mul_comm, ← pow_succ])
    have hmo : n % base = m % base :=
      digitChar_inj _ ((Nat.mod_lt _ hb).trans_le h16) _ ((Nat.mod_lt _ hb).trans_le h16)
        (List.cons.inj hl).1
    rw [← Nat.div_add_mod n base, ← Nat.div_add_mod m base, hd, hmo]

/-- A number of a fixed width at the front of a text. -/
theorem fixedDigits_append_inj (hb : 0 < base) (h16 : base ≤ 16) {width n m : Nat}
    {r s : List Char} (hn : n < base ^ width) (hm : m < base ^ width)
    (h : fixedDigits base width n ++ r = fixedDigits base width m ++ s) : n = m ∧ r = s := by
  obtain ⟨hd, hrs⟩ := append_inj h (by simp)
  exact ⟨fixedDigits_inj hb h16 hn hm hd, hrs⟩

/-- The digits of a base up to ten are decimal digits. -/
theorem isDigit_of_mem_fixedDigits (hb : 0 < base) (h10 : base ≤ 10) {c : Char} :
    ∀ {width n : Nat}, c ∈ fixedDigits base width n → c.isDigit = true := by
  have hd : ∀ d < 10, (Nat.digitChar d).isDigit = true := by decide
  intro width
  induction width with
  | zero => intro n h; cases h
  | succ width ih =>
    intro n h
    rcases mem_append.mp h with h | h
    · exact ih h
    · rw [mem_singleton.mp h]
      exact hd _ ((Nat.mod_lt _ hb).trans_le h10)

end

/-! ### Hexadecimal bytes -/

variable (bytes : List UInt8)

/-- Two lower-case digits a byte. -/
def hexEncode : List Char :=
  bytes.flatMap fun b => fixedDigits 16 2 b.toNat

theorem hexEncode_cons (b : UInt8) (bytes : List UInt8) :
    hexEncode (b :: bytes) = fixedDigits 16 2 b.toNat ++ hexEncode bytes := rfl

theorem length_hexEncode : (hexEncode bytes).length = 2 * bytes.length := by
  simp [hexEncode, length_flatMap, mul_comm]

/-- The value of a digit in either case. -/
def hexValue (c : Char) : Option Nat :=
  if c.isDigit then some (c.toNat - 48)
  else if 'a' ≤ c ∧ c ≤ 'f' then some (c.toNat - 87)
  else if 'A' ≤ c ∧ c ≤ 'F' then some (c.toNat - 55)
  else none

def hexDecode : List Char → Option (List UInt8)
  | [] => some []
  | [_] => none
  | hi :: lo :: rest => do
    return UInt8.ofNat (16 * (← hexValue hi) + (← hexValue lo)) :: (← hexDecode rest)

theorem hexValue_digitChar : ∀ d < 16, hexValue (Nat.digitChar d) = some d := by
  decide

theorem hexDecode_hexEncode : hexDecode (hexEncode bytes) = some bytes := by
  induction bytes with
  | nil => rfl
  | cons b bytes ih =>
    have hb : UInt8.ofNat (16 * (b.toNat / 16 % 16) + b.toNat % 16) = b := by
      have hlt := b.toNat_lt
      rw [show 16 * (b.toNat / 16 % 16) + b.toNat % 16 = b.toNat by omega, UInt8.ofNat_toNat]
    simpa [hexEncode_cons, fixedDigits, hexDecode, ih,
      hexValue_digitChar _ (Nat.mod_lt _ (by decide))] using hb

theorem hexEncode_injective : Function.Injective hexEncode := by
  intro a b h
  have ha := hexDecode_hexEncode a
  rw [h, hexDecode_hexEncode] at ha
  exact (Option.some.inj ha).symm

/-! ### Bytes of a text -/

def utf8 (text : String) : List UInt8 := text.toByteArray.data.toList

theorem utf8_injective : Function.Injective utf8 := by
  intro a b h
  apply String.toByteArray_inj.mp
  apply ByteArray.ext
  exact Array.toList_inj.mp h

end Lib
