/-
Failed writes and crashes.

A write that fails may leave a piece of its line in the file.  If nothing of it was
stored, nothing has happened.  If something was, a spool that goes on appending writes
the next event behind the piece, on the same line, and neither can be read again; a
crash is better, since the next `New` cuts the piece off.  It does so unless the piece
is the whole line but for its newline: that is a record, it stays, and the next append
goes on on its line.  A line whose sync failed is a record too, and a spool that is
opened again has it among its events.

Without commits no segment is ever deleted, so the segments are numbered from one on
and no name is given out twice.
-/
import LiteAIG.Proofs.Spool.Runs

namespace LiteAIG.Spool

open Lib List

open FileSpool (known)

variable {φ : Type} {codec : Codec φ}

/-! ### Numbered segments -/

theorem ofDigitChars_zeros (k : Nat) : Nat.ofDigitChars 10 (List.replicate k '0') 0 = 0 := by
  induction k with
  | zero => rfl
  | succ k ih => exact ih

theorem ofDigitChars_padded (k n : Nat) :
    Nat.ofDigitChars 10 (List.replicate k '0' ++ Nat.toDigits 10 n) 0 = n := by
  rw [Nat.ofDigitChars_append, ofDigitChars_zeros, Nat.ofDigitChars_ten_toDigits]

theorem segmentName_injective {n m : Nat} (h : segmentName n = segmentName m) : n = m := by
  unfold segmentName at h
  have hl := String.ofList_injective h
  have hd := append_cancel_left (append_cancel_right hl)
  rw [← ofDigitChars_padded _ n, hd, ofDigitChars_padded]

/-- The names count from one. -/
def Numbered (segments : List Segment) : Prop :=
  segments.map (·.name) = (List.range segments.length).map fun i => segmentName (i + 1)

theorem Numbered.fresh {segs : List Segment} (h : Numbered segs) :
    segmentName (segs.length + 1) ∉ segs.map (·.name) := by
  rw [h]
  intro hm
  obtain ⟨i, hi, hn⟩ := mem_map.mp hm
  have := segmentName_injective hn
  have := mem_range.mp hi
  omega

variable {s : FileSpool} {bs : List (Batch φ)}

section

variable (h : Numbered s.segments) (out : WriteOutcome) (ev : SpoolRecord φ) (line : Bytes)
  (dir : Dir)
include h

theorem Numbered.rotate_if {c : Prop} [Decidable c] :
    Numbered (if c then s.rotate dir else (s, dir)).1.segments ∧
      (if c then s.rotate dir else (s, dir)).2.committedLog = dir.committedLog := by
  by_cases hc : c
  · simp only [if_pos hc]
    refine ⟨?_, rfl⟩
    unfold Numbered at h ⊢
    simp only [FileSpool.rotate, map_append, map_singleton, length_append,
      length_singleton, range_succ, h]
    rfl
  · simp only [if_neg hc]
    exact ⟨h, trivial⟩

theorem Numbered.write :
    Numbered (FileSpool.append.write s out ev line dir).2.1.segments ∧
      (FileSpool.append.write s out ev line dir).2.2.committedLog = dir.committedLog := by
  unfold FileSpool.append.write
  cases hl : s.segments.getLast? with
  | none => exact ⟨h, rfl⟩
  | some current =>
    have hs : s.segments = s.segments.dropLast ++ [current] :=
      (dropLast_append_getLast? current hl).symm
    have hp : Numbered (s.segments.dropLast ++
        [current.push ev.eventID ev.tenantID line.length]) := by
      unfold Numbered at h ⊢
      rw [hs] at h
      simpa [Segment.push] using h
    cases out with
    | short stored => exact ⟨h, rfl⟩
    | done | syncFails =>
      simp only
      split
      · exact ⟨h, rfl⟩
      · exact ⟨hp, rfl⟩

theorem Numbered.append (hs : s.closed = false) (codec : Codec φ)
    (out : WriteOutcome) (ev : SpoolRecord φ) (dir : Dir) :
    Numbered (s.append codec out ev dir).2.1.segments ∧
      (s.append codec out ev dir).2.2.committedLog = dir.committedLog := by
  obtain ⟨h₁, hl⟩ := h.rotate_if dir (c := s.segments = [])
  change Numbered (s.withSegment dir).1.segments at h₁
  cases hli : serialize codec ev with
  | error e =>
    rw [append_error hs hli]
    exact ⟨h₁, hl⟩
  | ok line =>
    obtain ⟨h₂, hlo⟩ := h₁.rotate_if (s.withSegment dir).2
      (c := (s.withSegment dir).1.needsRoom line = true)
    rw [append_line hs hli]
    obtain ⟨h₃, hlog⟩ := Numbered.write h₂ out ev line
      ((s.withSegment dir).1.withRoom line (s.withSegment dir).2).2
    exact ⟨h₃, hlog.trans (hlo.trans hl)⟩

end

/-! ### Runs without commits -/

/-- The line is one the scanner can take. -/
def ShortLine (codec : Codec φ) (event : SpoolRecord φ) : Prop :=
  match serialize codec event with
  | .error _ => True
  | .ok line => line.length ≤ maxTokenSize

/-- Events have short lines, and a spool is reopened only while its segments' names are in
order. -/
def World.Orderly (codec : Codec φ) (w : World φ) : Op φ → Prop
  | .append _ event => ShortLine codec event
  | .reopen => (w.segments.map (·.name)).Pairwise (· < ·)
  | _ => True

instance (event : SpoolRecord φ) : Decidable (ShortLine codec event) :=
  match h : serialize codec event with
  | .error _ => isTrue (by rw [ShortLine, h]; trivial)
  | .ok line => decidable_of_iff (line.length ≤ maxTokenSize) (by rw [ShortLine, h])

instance (w : World φ) : ∀ op : Op φ, Decidable (w.Orderly codec op)
  | .append _ event => inferInstanceAs (Decidable (ShortLine codec event))
  | .reopen => inferInstanceAs (Decidable (List.Pairwise _ _))
  | .commit _ | .pending _ => isTrue trivial

/-- No write fails and nothing is committed. -/
def Op.Adds : Op φ → Prop
  | .append outcome _ => outcome = .done
  | .commit _ => False
  | .pending _ | .reopen => True

theorem Op.Adds.harmless : ∀ {op : Op φ}, op.Adds → op.Harmless := by
  intro op h
  cases op with
  | append out ev => exact Or.inl h
  | _ => trivial

instance : ∀ op : Op φ, Decidable op.Adds
  | .append outcome _ => inferInstanceAs (Decidable (outcome = .done))
  | .commit _ => isFalse id
  | .pending _ | .reopen => isTrue trivial

theorem ShortLine.hasRoom {event : SpoolRecord φ} (h : ShortLine codec event)
    (hn : Numbered s.segments) : s.HasRoom codec event := by
  unfold ShortLine at h
  unfold FileSpool.HasRoom
  cases hl : serialize codec event with
  | error e => trivial
  | ok line =>
    rw [hl] at h
    exact ⟨h, fun _ _ => hn.fresh⟩

/-- With no log nothing is full, and every batch stays. -/
theorem prune_unlogged :
    prune (known none) (bs.map (·.reset)) = bs.map (·.reset) := by
  have ha : ∀ b : Batch φ, b.reset.advance (known none) = b.reset := by
    intro b
    have hn : (b.reset.pending.takeWhile fun e => known none e.eventID) = [] := by
      cases b.reset.pending with
      | nil => rfl
      | cons e rest => rfl
    simp only [Batch.advance, hn]
    rfl
  have hf : ∀ b : Batch φ, (!b.reset.full) = true := by
    intro b
    have hz : b.reset.count = 0 := rfl
    simp only [Batch.full, hz]
    grind
  unfold prune
  rw [map_map, filter_eq_self.mpr]
  · exact map_congr_left fun b _ => ha b
  · intro b hb
    obtain ⟨c, _, rfl⟩ := mem_map.mp hb
    show (!(c.reset.advance (known none)).full) = true
    rw [ha]
    exact hf c

theorem Left.numbered {kept : List (SpoolRecord φ)} {named : List String} {s' : FileSpool}
    {dir dir' : Dir} {cfg : Config} (h : Left codec kept named s dir bs)
    (hlo : dir.committedLog = none) (hso : (s.segments.map (·.name)).Pairwise (· < ·))
    (hn : Numbered s.segments) (hne : FileSpool.new codec cfg dir = (.ok s', dir')) :
    Numbered s'.segments ∧ dir'.committedLog = none := by
  obtain ⟨s₂, dir₂, batches', heq, hi, _, hl, _, hba⟩ :=
    new_intact cfg (h.names ▸ hso) h.only h.onDisk
  rw [hne] at heq
  obtain ⟨hs, rfl⟩ := Prod.mk.inj heq
  cases hs
  refine ⟨?_, hl.trans hlo⟩
  rw [hlo, prune_unlogged] at hba
  have hle : s.segments.length = bs.length := by
    simpa using congrArg List.length h.names
  unfold Numbered at hn ⊢
  rcases hba with rfl | ⟨_, b, _, hb, rfl⟩
  · rw [hi.index]
    simp only [map_map, length_map, ← hle]
    rw [← hn, h.names]
    rfl
  · rw [hi.index]
    simp only [map_singleton]
    rw [Batch.index, hb]
    rfl

namespace World

/-- A spool to which nothing was ever committed. -/
structure Growing (codec : Codec φ) (kept : List (SpoolRecord φ)) (w : World φ) : Prop where
  holds : w.Holds codec kept
  named : w.named = []
  log : w.dir.committedLog = none
  numbered : Numbered w.segments

variable {kept : List (SpoolRecord φ)} {w : World φ} {op : Op φ}

theorem Growing.regular (h : w.Growing codec kept) (ha : op.Adds) (ho : w.Orderly codec op) :
    w.Regular codec op := by
  have hn := h.numbered
  unfold Regular
  unfold segments at hn
  cases hs : w.spool with
  | error e => trivial
  | ok s =>
    rw [hs] at hn
    cases op with
    | append out ev => exact ShortLine.hasRoom ho hn
    | commit ids => exact ha.elim
    | pending limit => trivial
    | reopen =>
      unfold Orderly segments at ho
      rw [hs] at ho
      exact ho

theorem start_growing (cfg : Config) :
    (start codec cfg).Growing codec [] := by
  obtain ⟨s, dir, batches, hne, hs, ht, _⟩ := start_tracks
  have he : Left codec [] [] ⟨cfg, [], [], Counters.zero, 0, false⟩ Dir.empty [] :=
    Left.empty codec rfl
  obtain ⟨hn, hl⟩ := he.numbered rfl List.Pairwise.nil rfl hne
  rw [hs]
  exact ⟨⟨s, batches, rfl, ht⟩, rfl, hl, hn⟩

variable (cfg : Config)

theorem growing_of_left {s : FileSpool} (hs : w.spool = .ok s)
    (hle : Left codec kept w.named s w.dir bs) (hna : w.named = [])
    (hlo : w.dir.committedLog = none) (hnu : Numbered s.segments)
    (hso : (s.segments.map (·.name)).Pairwise (· < ·)) :
    (w.step codec cfg .reopen).accepted = w.accepted ∧
      (w.step codec cfg .reopen).Growing codec kept := by
  obtain ⟨s', dir', batches', hne, ht, _⟩ := hle.reopen cfg hso
  obtain ⟨hn, hl⟩ := hle.numbered hlo hso hnu hne
  rw [step_reopen hs hne]
  exact ⟨rfl, ⟨s', batches', rfl, ht⟩, hna, hl, hn⟩

theorem step_growing (h : w.Growing codec kept) (had : op.Adds) (ho : w.Orderly codec op) :
    ∃ added, (w.step codec cfg op).accepted = w.accepted ++ added ∧
      (w.step codec cfg op).Growing codec (kept ++ added) := by
  obtain ⟨s, batches, hs, ht⟩ := h.holds
  have hse : w.segments = s.segments := by rw [segments, hs]
  have hnu : Numbered s.segments := hse ▸ h.numbered
  cases op with
  | append out ev =>
    obtain ⟨added, ha, hh⟩ :=
      step_holds cfg h.holds had.harmless (h.regular had ho)
    obtain ⟨hn, hl⟩ := hnu.append ht.opened codec out ev w.dir
    refine ⟨added, ha, ?_⟩
    rw [step_append hs rfl] at hh ⊢
    exact ⟨hh, h.named, hl.trans h.log, hn⟩
  | commit ids => exact had.elim
  | pending limit =>
    rw [step_pending]
    refine ⟨[], (append_nil _).symm, ?_⟩
    rwa [append_nil]
  | reopen =>
    have hso : (s.segments.map (·.name)).Pairwise (· < ·) := hse ▸ ho
    obtain ⟨ha, hg⟩ :=
      growing_of_left cfg hs ht.left h.named h.log hnu hso
    exact ⟨[], by rw [ha, append_nil], (append_nil kept).symm ▸ hg⟩

theorem run_growing {ops : List (Op φ)} (h : w.Growing codec kept) (hadd : ∀ op ∈ ops, op.Adds)
    (ho : Allowed (step codec cfg) (Orderly codec) w ops) :
    ∃ added, (run (step codec cfg) w ops).accepted = w.accepted ++ added ∧
      (run (step codec cfg) w ops).Growing codec (kept ++ added) := by
  have had : Allowed (step codec cfg) (fun _ op => op.Adds) w ops :=
    allowed_of_mem _ _ fun op hop _ => hadd op hop
  refine (allowed_and.mpr ⟨had, ho⟩).invariant
    (I := fun w' => ∃ added, w'.accepted = w.accepted ++ added ∧ w'.Growing codec (kept ++ added))
    ?_ ops w ⟨[], (append_nil _).symm, (append_nil kept).symm ▸ h⟩
  rintro w' op ⟨added, ha, hg⟩ hop
  obtain ⟨more, hm, hs⟩ := step_growing cfg hg hop.1 hop.2
  refine ⟨added ++ more, ?_, ?_⟩
  · rw [hm, ha, append_assoc]
  · rwa [append_assoc] at hs

/-- Nothing is lost of a spool to which nothing was committed. -/
theorem Growing.pending (h : w.Growing codec kept) {limit : Int}
    (hl : 2 * (kept.length : Int) ≤ limit) : w.pending codec limit = .ok (kept.map (·.bare)) := by
  obtain ⟨out, ho, hf⟩ := h.holds.pending hl
  have ha : ∀ l : List (SpoolRecord φ), l.filter (unnamed w.named) = l := by
    intro l
    rw [filter_eq_self, h.named]
    intro e _
    rfl
  rw [ha, ha] at hf
  rw [ho, hf]

/-! ### A crash -/

/-- The world after a crash at the `k`-th byte of an event's line, and the next `New`. -/
def recovered (codec : Codec φ) (config : Config) (before : List (Op φ)) (event : SpoolRecord φ)
    (k : Nat) : World φ :=
  run (step codec config) (start codec config) (before ++ [.append (.short k) event, .reopen])

/-- The spool opens again, with the interrupted event or without it, and whatever is appended
then and however often it is reopened, `Pending` returns what was accepted before, that event,
and what was accepted since. -/
def Survives (codec : Codec φ) (config : Config) (before : List (Op φ)) (event : SpoolRecord φ)
    (k : Nat) : Prop :=
  ∃ extra, (extra = [] ∨ extra = [event]) ∧
    ∀ further, (∀ op ∈ further, op.Adds) →
      Allowed (step codec config) (Orderly codec) (recovered codec config before event k) further →
      ∃ since,
        (run (step codec config) (recovered codec config before event k) further).accepted
          = (run (step codec config) (start codec config) before).accepted ++ since ∧
        ∀ limit : Int,
          2 * ((run (step codec config) (start codec config) before).accepted ++ extra ++
            since).length ≤ limit →
          (run (step codec config) (recovered codec config before event k) further).pending
              codec limit
            = .ok (((run (step codec config) (start codec config) before).accepted ++ extra ++
              since).map (·.bare))

theorem recovered_growing {config : Config} {before : List (Op φ)} {ev : SpoolRecord φ} {k : Nat}
    (hbe : ∀ op ∈ before, op.Adds)
    (ho : Allowed (step codec config) (Orderly codec) (start codec config)
      (before ++ [.append (.short k) ev, .reopen]))
    (hc : ¬ (WriteOutcome.short k).CutsNewline codec ev) :
    ∃ extra, (extra = [] ∨ extra = [ev]) ∧ (recovered codec config before ev k).accepted
        = (run (step codec config) (start codec config) before).accepted ∧
      (recovered codec config before ev k).Growing codec
        ((run (step codec config) (start codec config) before).accepted ++ extra) := by
  obtain ⟨hf, hsh, hso, _⟩ := (allowed_append _ _ _).mp ho
  obtain ⟨added, ha, hg⟩ :=
    run_growing config (start_growing config) hbe hf
  rw [(start_holds).2, nil_append] at ha
  rw [nil_append, ← ha] at hg
  unfold recovered
  rw [run_append, run_cons, run_cons, run_nil]
  generalize run (step codec config) (start codec config) before = w at *
  obtain ⟨s, batches, hs, ht⟩ := hg.holds
  have hnu : Numbered s.segments := by
    have := hg.numbered
    rwa [segments, hs] at this
  obtain ⟨hn, hl⟩ := hnu.append ht.opened codec (.short k) ev w.dir
  have hle : ∃ e s' dir' batches' extra,
      s.append codec (.short k) ev w.dir = (.error e, s', dir') ∧
      (extra = [] ∨ extra = [ev]) ∧
      Left codec (w.accepted ++ extra) w.named s' dir' batches' := by
    rcases ht.append_cases hc (ShortLine.hasRoom hsh hnu) with
      ⟨hno, _⟩ | ⟨e, s', dir', b, heq, hb, _⟩ | ⟨_, e, s', dir', b, extra, heq, he, hb, _⟩
    · exact absurd rfl (hno k)
    · exact ⟨e, s', dir', b, [], heq, Or.inl rfl, (append_nil w.accepted).symm ▸ hb.left⟩
    · exact ⟨e, s', dir', b, extra, heq, he, hb⟩
  obtain ⟨e, s', dir', batches', extra, heq, he, hle⟩ := hle
  rw [heq] at hn hl
  rw [step_append hs heq] at hso ⊢
  exact ⟨extra, he, growing_of_left config rfl hle hg.named (hl.trans hg.log) hn hso⟩

/-- **A crash at any byte loses nothing that was accepted**, unless it leaves all of a line
but its newline. -/
theorem crash_survived (codec : Codec φ) (config : Config) (before : List (Op φ))
    (event : SpoolRecord φ) (k : Nat) (hbefore : ∀ op ∈ before, op.Adds)
    (horderly : Allowed (step codec config) (Orderly codec) (start codec config)
      (before ++ [.append (.short k) event, .reopen]))
    (hcut : ¬ (WriteOutcome.short k).CutsNewline codec event) :
    Survives codec config before event k := by
  obtain ⟨extra, he, ha, hg⟩ := recovered_growing hbefore horderly hcut
  refine ⟨extra, he, ?_⟩
  intro further hf ho
  obtain ⟨since, hs, hr⟩ := run_growing config hg hf ho
  exact ⟨since, ha ▸ hs, fun limit hl => hr.pending hl⟩

end World

theorem crash_in_second_event :
    World.Survives letters ⟨100, 1⟩ [.append .done (letter "a")] (letter "b") 2 :=
  World.crash_survived letters ⟨100, 1⟩ [.append .done (letter "a")] (letter "b") 2
    (by decide) (by decide +kernel) (by decide +kernel)

/-- The crash comes just before the newline.  The line is taken up as it is, the next event
is written behind it, and then neither `Pending` nor the next `New` can read it. -/
theorem line_without_newline :
    ¬ World.Survives letters ⟨100, 1⟩ [.append .done (letter "a")] (letter "b") 3 := by
  rintro ⟨extra, _, h⟩
  obtain ⟨since, _, hp⟩ :=
    h [.append .done (letter "c"), .reopen] (by decide) (by decide +kernel)
  have hd : (run (World.step letters ⟨100, 1⟩)
      (World.recovered letters ⟨100, 1⟩ [.append .done (letter "a")] (letter "b") 3)
      [.append .done (letter "c"), .reopen]).spool.isOk = false := by decide +kernel
  exact World.pending_ne_ok hd (hp _ le_rfl)

end LiteAIG.Spool
