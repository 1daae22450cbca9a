/-
No event is lost and none is returned twice, in runs where no name is given out twice.

The condition on a run is `World.Regular`, and it is not idle.  A new segment is named
after the number of live ones, so once a segment in front has been deleted the next name
can be one that is in use, or one that sorts before it.
-/
import LiteAIG.Proofs.Spool.Tracks

namespace LiteAIG.Spool

open Lib List

variable {φ : Type} {codec : Codec φ}

/-! ### Regular runs -/

/-- Appends have room, committed ids are on one line, and a spool is reopened only while
its segments' names are in order. -/
def FileSpool.Regular (codec : Codec φ) (s : FileSpool) : Op φ → Prop
  | .append _ event => s.HasRoom codec event
  | .commit ids => ∀ id ∈ ids, newline ∉ utf8 id
  | .pending _ => True
  | .reopen => (s.segments.map (·.name)).Pairwise (· < ·)

def World.Regular (codec : Codec φ) (w : World φ) (op : Op φ) : Prop :=
  match w.spool with
  | .error _ => True
  | .ok s => s.Regular codec op

instance (s : FileSpool) : ∀ op : Op φ, Decidable (s.Regular codec op)
  | .append _ event => inferInstanceAs (Decidable (s.HasRoom codec event))
  | .commit ids => inferInstanceAs (Decidable (∀ id ∈ ids, newline ∉ utf8 id))
  | .pending _ => isTrue trivial
  | .reopen => inferInstanceAs (Decidable (List.Pairwise _ _))

instance (w : World φ) (op : Op φ) : Decidable (w.Regular codec op) :=
  match h : w.spool with
  | .error _ => isTrue (by rw [World.Regular, h]; trivial)
  | .ok s => decidable_of_iff (s.Regular codec op) (by rw [World.Regular, h])

/-- No write fails. -/
def Op.Clean : Op φ → Prop
  | .append outcome _ => outcome = .done
  | _ => True

/-- A write that fails has stored nothing. -/
def Op.Harmless : Op φ → Prop
  | .append outcome _ => outcome = .done ∨ outcome = .short 0
  | _ => True

theorem Op.Clean.harmless : ∀ {op : Op φ}, op.Clean → op.Harmless := by
  intro op h
  cases op with
  | append out ev => exact Or.inl h
  | _ => trivial

instance : ∀ op : Op φ, Decidable op.Clean
  | .append outcome _ => inferInstanceAs (Decidable (outcome = .done))
  | .commit _ | .pending _ | .reopen => isTrue trivial

instance : ∀ op : Op φ, Decidable op.Harmless
  | .append .. => inferInstanceAs (Decidable (_ ∨ _))
  | .commit _ | .pending _ | .reopen => isTrue trivial

/-! ### Whole runs -/

namespace World

/-- The events that were accepted and that no commit named, as they are read back. -/
def backlog (w : World φ) : List (SpoolRecord φ) :=
  (w.accepted.filter (unnamed w.named)).map (·.bare)

/-- The live segments have distinct names and files, and `Pending`, with a limit that is
large enough, returns each event of the backlog once and in order. -/
def Returns (codec : Codec φ) (w : World φ) : Prop :=
  (w.segments.map (·.name)).Nodup ∧ (w.segments.map (·.file)).Nodup ∧
    ∀ limit : Int, 2 * (w.accepted.length : Int) ≤ limit →
      ∃ out, w.pending codec limit = .ok out ∧ out.filter (unnamed w.named) = w.backlog

variable {w : World φ} {limit : Int} {cfg : Config} {s : FileSpool} {dir' : Dir}
  {kept : List (SpoolRecord φ)} {b : Batch φ}

theorem pending_ne_ok (h : w.spool.isOk = false) {out : List (SpoolRecord φ)} :
    w.pending codec limit ≠ .ok out := by
  intro ho
  unfold pending at ho
  split at ho
  · cases ho
  next s hs =>
      rw [hs] at h
      cases h

/-- The spool is open and its batches hold these events. -/
def Holds (codec : Codec φ) (kept : List (SpoolRecord φ)) (w : World φ) : Prop :=
  ∃ s batches, w.spool = .ok s ∧ Tracks codec kept w.named s w.dir batches

theorem start_tracks :
    ∃ s dir batches, FileSpool.new codec cfg Dir.empty = (.ok s, dir) ∧
      start codec cfg = ⟨.ok s, dir, [], []⟩ ∧ Tracks codec [] [] s dir batches ∧
      Grown [] batches [] ∧ dir.committedLog = none := by
  have he : Left codec [] [] ⟨cfg, [], [], Counters.zero, 0, false⟩ Dir.empty [] :=
    Left.empty codec rfl
  obtain ⟨s, dir, batches, hn, ht, hg, hl⟩ := he.reopen cfg List.Pairwise.nil
  refine ⟨s, dir, batches, hn, ?_, ht, hg, hl⟩
  unfold start
  rw [hn]

theorem start_holds :
    (start codec cfg).Holds codec [] ∧ (start codec cfg).accepted = [] := by
  obtain ⟨s, dir, batches, _, hs, ht, _⟩ := start_tracks
  rw [hs]
  exact ⟨⟨s, batches, rfl, ht⟩, rfl⟩

theorem step_append {s' : FileSpool} {out : WriteOutcome} {ev : SpoolRecord φ}
    {r : Except SpoolError Unit} (hs : w.spool = .ok s)
    (h : s.append codec out ev w.dir = (r, s', dir')) :
    w.step codec cfg (.append out ev) = { w with
          spool := .ok s'
          dir := dir'
          accepted := if r.isOk then w.accepted ++ [ev] else w.accepted } := by
  unfold step
  rw [hs]
  cases r with
  | ok _ => simp only [h]; rfl
  | error e => simp only [h]; rfl

theorem step_reopen {spool : Except SpoolError FileSpool} (hs : w.spool = .ok s)
    (h : FileSpool.new codec cfg w.dir = (spool, dir')) :
    w.step codec cfg .reopen = { w with spool := spool, dir := dir' } := by
  unfold step
  rw [hs]
  simp only [h]

theorem step_commit (hs : w.spool = .ok s) (ids : List String) :
    w.step codec cfg (.commit ids) = { w with
          spool := .ok (s.commit ids w.dir).1
          dir := (s.commit ids w.dir).2
          named := w.named ++ ids } := by
  unfold step
  rw [hs]

theorem step_pending :
    w.step codec cfg (.pending limit) = w := by
  unfold step
  split <;> rfl

/-- What a step accepts is what the batches get. -/
theorem step_holds (cfg : Config) {op : Op φ} (h : w.Holds codec kept) (hop : op.Harmless)
    (hr : w.Regular codec op) :
    ∃ added, (w.step codec cfg op).accepted = w.accepted ++ added ∧
      (w.step codec cfg op).Holds codec (kept ++ added) := by
  obtain ⟨s, batches, hs, ht⟩ := h
  unfold Regular at hr
  rw [hs] at hr
  cases op with
  | append out ev =>
    rcases ht.append hop hr with
      ⟨s', dir', b, heq, hb, _⟩ | ⟨e, s', dir', b, heq, hb, _⟩
    · rw [step_append hs heq]
      exact ⟨[ev], rfl, s', b, rfl, hb⟩
    · rw [step_append hs heq]
      refine ⟨[], (append_nil _).symm, s', b, rfl, ?_⟩
      rwa [append_nil]
  | commit ids =>
    obtain ⟨b, hb⟩ := ht.commit_any hr
    rw [step_commit hs]
    refine ⟨[], (append_nil _).symm, _, b, rfl, ?_⟩
    rwa [append_nil]
  | pending limit =>
    rw [step_pending]
    refine ⟨[], (append_nil _).symm, s, batches, hs, ?_⟩
    rwa [append_nil]
  | reopen =>
    obtain ⟨s', dir', b, heq, hb, _⟩ := ht.left.reopen cfg hr
    rw [step_reopen hs heq]
    refine ⟨[], (append_nil _).symm, s', b, rfl, ?_⟩
    rwa [append_nil]

/-- What a batch has counted was named, so what was not is pending. -/
theorem filter_events {named : List String} (hc : ∀ e ∈ b.events.take b.count, e.eventID ∈ named) :
    b.events.filter (unnamed named) = b.pending.filter (unnamed named) := by
  have hf : (b.events.take b.count).filter (unnamed named) = [] := by
    rw [filter_eq_nil_iff]
    intro e he
    simpa [unnamed] using hc e he
  rw [← take_append_drop b.count b.events, filter_append, hf]
  rfl

/-- What a batch has to give, without the events that were named. -/
theorem todo_filter {named committed : List String} (hc : ∀ id ∈ committed, id ∈ named)
    (hco : ∀ e ∈ b.events.take b.count, e.eventID ∈ named) :
    (todo committed b).filter (unnamed named) = (b.events.filter (unnamed named)).map (·.bare) := by
  have hk : (b.pending.filter fun e => e.eventID ∉ committed).filter (unnamed named)
      = b.pending.filter (unnamed named) := by
    rw [filter_filter]
    apply filter_congr
    intro e _
    have := hc e.eventID
    simp only [unnamed]
    grind
  unfold todo
  rw [filter_map, filter_events hco, ← hk]
  rfl

theorem Holds.nodup (h : w.Holds codec kept) :
    (w.segments.map (·.name)).Nodup ∧ (w.segments.map (·.file)).Nodup := by
  obtain ⟨s, batches, hs, ht⟩ := h
  have hse : w.segments = batches.map (·.index codec) := by
    rw [segments, hs]
    exact ht.intact.index
  have hn := ht.intact.nodup
  rw [hse, map_map, map_map]
  refine ⟨hn, List.Nodup.map_on ?_ (List.Nodup.of_map _ hn)⟩
  intro a ha b hb hab
  have hf : a.file = b.file := hab
  have hl := (ht.intact.onDisk a ha).lookup
  rw [hf] at hl
  have hna := w.dir.files.injective hl (ht.intact.onDisk b hb).lookup
  exact inj_on_of_nodup_map hn ha hb hna

/-- With a limit that is large enough, `Pending` returns what is kept and was never named;
what else it returns was named. -/
theorem Holds.pending (h : w.Holds codec kept) (hli : 2 * (kept.length : Int) ≤ limit) :
    ∃ out, w.pending codec limit = .ok out ∧
      out.filter (unnamed w.named) = (kept.filter (unnamed w.named)).map (·.bare) := by
  obtain ⟨s, batches, hs, ht⟩ := h
  have hto : (batches.map (todo s.committed)).flatten
      = (batches.flatMap fun b => b.pending.filter fun e => e.eventID ∉ s.committed).map
        (·.bare) := by
    rw [map_flatMap, flatMap_def]
    rfl
  have hl : (batches.map (todo s.committed)).flatten.length ≤ kept.length := by
    rw [hto, length_map]
    have hsu := List.Sublist.flatMap_right batches
      (f := fun b => b.pending.filter fun e => e.eventID ∉ s.committed) (g := (·.events))
      fun b _ => filter_sublist.trans (drop_sublist _ _)
    exact (hsu.trans ht.kept.sublist).length_le
  refine ⟨(batches.map (todo s.committed)).flatten, ?_, ?_⟩
  · rw [World.pending, hs]
    show s.pending codec w.dir limit = _
    rw [ht.intact.pending_eq ht.opened, gather_all]
    · rfl
    · simp only [length_nil]
      omega
  · rw [← flatMap_def, filter_flatMap, ← ht.kept.kept, filter_flatMap,
      map_flatMap]
    apply flatMap_congr
    intro b hb
    apply todo_filter ht.committed
    intro e he
    exact ht.counted _ (mem_counted.mpr ⟨b, hb, e, he, rfl⟩)

/-- **No event is lost or returned twice** in a run without failed writes, if each append
has room, committed ids are on one line and the spool is reopened only while its
segments' names are in order. -/
theorem backlog_returned (codec : Codec φ) (config : Config) (ops : List (Op φ))
    (hclean : ∀ op ∈ ops, op.Clean)
    (hregular : Allowed (step codec config) (Regular codec) (start codec config) ops) :
    (run (step codec config) (start codec config) ops).Returns codec := by
  have hc : Allowed (step codec config) (fun _ op => op.Clean) (start codec config) ops :=
    allowed_of_mem _ _ fun op hop _ => hclean op hop
  have hs : (start codec config).Holds codec (start codec config).accepted := by
    obtain ⟨hh, ha⟩ := start_holds
    rwa [ha]
  have hh := (allowed_and.mpr ⟨hc, hregular⟩).invariant
    (I := fun w => w.Holds codec w.accepted) ?_ ops _ hs
  · exact ⟨hh.nodup.1, hh.nodup.2, fun limit hl => hh.pending hl⟩
  · intro w op hw hop
    obtain ⟨added, ha, hst⟩ := step_holds config hw hop.1.harmless hop.2
    rwa [ha]

end World

/-- Three segments, each with one event, and the first of them is committed. -/
def threeSegments : List (Op Unit) :=
  [.append .done (letter "a"), .append .done (letter "b"), .append .done (letter "c"),
    .commit ["a"], .reopen]

theorem threeSegments_returned :
    (run (World.step letters ⟨1, 1⟩) (World.start letters ⟨1, 1⟩) threeSegments).Returns letters :=
  World.backlog_returned letters ⟨1, 1⟩ threeSegments (by decide) (by decide +kernel)

/-- The segment of the first event is gone, so the third event's segment takes the name of
the second's, and both are read twice. -/
theorem segment_name_reused :
    ¬ (run (World.step letters ⟨1, 1⟩) (World.start letters ⟨1, 1⟩)
      [.append .done (letter "a"), .append .done (letter "b"), .commit ["a"],
        .append .done (letter "c")]).Returns letters := by
  intro h
  obtain ⟨_, _, h⟩ := h
  obtain ⟨out, ho, hf⟩ := h 6 (by decide +kernel)
  have hp : (run (World.step letters ⟨1, 1⟩) (World.start letters ⟨1, 1⟩)
      [.append .done (letter "a"), .append .done (letter "b"), .commit ["a"],
        .append .done (letter "c")]).pending letters 6
      = .ok [letter "b", letter "c", letter "b", letter "c"] := by decide +kernel
  rw [hp] at ho
  cases ho
  revert hf
  decide +kernel

end LiteAIG.Spool
