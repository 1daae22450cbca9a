/-
Appends that fail.

A failed append does no harm while nothing of its line is in the file, and none if the
spool is closed and opened again before it is used: `New` then cuts a piece of a line off
and takes a whole one in.  So a spool can hold more than was accepted, namely events whose
line was stored and whose append failed all the same.  `Covers` says that, these apart, it
holds what was accepted; for that, no event may be appended under an id the spool has.
-/
import LiteAIG.Proofs.Spool.Runs

namespace LiteAIG.Spool

open Lib List

variable {φ : Type} {codec : Codec φ} {kept : List (SpoolRecord φ)}

/-! ### Careful runs -/

/-- The spool is used only while its newest file has nothing that is not in the index, and is
closed and opened again otherwise; no write stores just all of a line but its newline; and no
event has the id of one in the spool. -/
def FileSpool.Careful (codec : Codec φ) (s : FileSpool) (dir : Dir) : Op φ → Prop
  | .append outcome event => s.HasRoom codec event ∧ s.Settled dir ∧
      ¬ outcome.CutsNewline codec event ∧ event.eventID ∉ s.segments.flatMap (·.ids)
  | .commit ids => s.Settled dir ∧ ∀ id ∈ ids, newline ∉ utf8 id
  | .pending _ => s.Settled dir
  | .reopen => (s.segments.map (·.name)).Pairwise (· < ·)

def World.Careful (codec : Codec φ) (w : World φ) (op : Op φ) : Prop :=
  match w.spool with
  | .error _ => True
  | .ok s => s.Careful codec w.dir op

instance (s : FileSpool) (dir : Dir) : ∀ op : Op φ, Decidable (s.Careful codec dir op)
  | .append .. => inferInstanceAs (Decidable (_ ∧ _ ∧ ¬ _ ∧ _ ∉ _))
  | .commit _ => inferInstanceAs (Decidable (_ ∧ ∀ _ ∈ _, _ ∉ _))
  | .pending _ => inferInstanceAs (Decidable (s.Settled dir))
  | .reopen => inferInstanceAs (Decidable (List.Pairwise _ _))

instance (w : World φ) (op : Op φ) : Decidable (w.Careful codec op) :=
  match h : w.spool with
  | .error _ => isTrue (by rw [World.Careful, h]; trivial)
  | .ok s => decidable_of_iff (s.Careful codec w.dir op) (by rw [World.Careful, h])

/-! ### Events that were kept though they failed -/

/-- The event is one of those with an accepted id that no commit named. -/
def due (accepted : List (SpoolRecord φ)) (named : List String) (event : SpoolRecord φ) : Bool :=
  unnamed named event && decide (event.eventID ∈ accepted.map (·.eventID))

/-- Of the events that are due, those kept are those accepted. -/
def Covers (kept accepted : List (SpoolRecord φ)) (named : List String) : Prop :=
  kept.filter (due accepted named) = accepted.filter (unnamed named)

namespace Covers

variable {acc : List (SpoolRecord φ)} {named : List String} {event : SpoolRecord φ}

section

variable (h : Covers kept acc named)
  (hf : ∀ e ∈ kept, unnamed named e = true → e.eventID ≠ event.eventID)
include h hf

theorem accept :
    Covers (kept ++ [event]) (acc ++ [event]) named := by
  have hold : kept.filter (due (acc ++ [event]) named) = kept.filter (due acc named) := by
    apply filter_congr
    intro e he
    have := hf e he
    unfold due
    cases hu : unnamed named e with
    | false => rfl
    | true => simp [this hu]
  have hn : [event].filter (due (acc ++ [event]) named) = [event].filter (unnamed named) := by
    apply filter_congr
    intro e he
    rw [mem_singleton.mp he]
    simp [due]
  unfold Covers at h ⊢
  rw [filter_append, filter_append, hold, hn, h]

theorem leave {extra : List (SpoolRecord φ)} (hex : extra = [] ∨ extra = [event]) :
    Covers (kept ++ extra) acc named := by
  have hn : extra.filter (due acc named) = [] := by
    rw [filter_eq_nil_iff]
    intro e he hd
    have hev : e = event := by
      rcases hex with rfl | rfl
      · cases he
      · exact mem_singleton.mp he
    subst hev
    unfold due at hd
    obtain ⟨hu, hid⟩ := Bool.and_eq_true_iff.mp hd
    obtain ⟨a, ha, hai⟩ := mem_map.mp (of_decide_eq_true hid)
    have hau : unnamed named a = true := by
      unfold unnamed at hu ⊢
      rwa [hai]
    have hm : a ∈ kept.filter (due acc named) := by
      rw [h]
      exact mem_filter.mpr ⟨ha, hau⟩
    exact hf a (mem_filter.mp hm).1 hau hai
  unfold Covers at h ⊢
  rw [filter_append, hn, append_nil, h]

end

theorem name (h : Covers kept acc named) (ids : List String) :
    Covers kept acc (named ++ ids) := by
  have hu : ∀ e : SpoolRecord φ,
      unnamed (named ++ ids) e = (unnamed (named ++ ids) e && unnamed named e) := by
    intro e
    simp only [unnamed, mem_append]
    grind
  have hk : kept.filter (due acc (named ++ ids))
      = (kept.filter (due acc named)).filter (unnamed (named ++ ids)) := by
    rw [filter_filter]
    apply filter_congr
    intro e _
    unfold due
    rw [hu e, Bool.and_assoc, Bool.and_assoc, Bool.and_self_left]
  unfold Covers at h ⊢
  rw [hk, h, filter_filter]
  apply filter_congr
  intro e _
  exact (hu e).symm

end Covers

/-- An event that was kept and never named is in the index. -/
theorem Tracks.mem_ids {named : List String} {s : FileSpool} {dir : Dir} {bs : List (Batch φ)}
    (h : Tracks codec kept named s dir bs) {e : SpoolRecord φ} (he : e ∈ kept)
    (hu : unnamed named e) :
    e.eventID ∈ s.segments.flatMap (·.ids) := by
  have hm : e ∈ kept.filter (unnamed named) := mem_filter.mpr ⟨he, hu⟩
  rw [← h.kept.kept] at hm
  obtain ⟨b, hb, heb⟩ := mem_flatMap.mp (mem_filter.mp hm).1
  rw [h.intact.index, mem_flatMap]
  exact ⟨b.index codec, mem_map_of_mem hb, mem_map_of_mem heb⟩

/-! ### Whole runs -/

namespace World

/-- `Pending`, with a limit that is large enough, returns each event of the backlog once and
in order; what else it returns was never accepted, or was named. -/
def Accounts (codec : Codec φ) (w : World φ) : Prop :=
  ∃ bound : Int, ∀ limit, bound ≤ limit →
    ∃ out, w.pending codec limit = .ok out ∧ out.filter (due w.accepted w.named) = w.backlog

/-- The directory holds what was accepted, and so does the spool while nothing of a failed
append is left over. -/
def Accountable (codec : Codec φ) (w : World φ) : Prop :=
  ∃ kept s batches, Covers kept w.accepted w.named ∧ w.spool = .ok s ∧
    Left codec kept w.named s w.dir batches ∧
      (s.Settled w.dir → Tracks codec kept w.named s w.dir batches)

theorem Holds.accounts {w : World φ} (h : w.Holds codec kept)
    (hc : Covers kept w.accepted w.named) :
    w.Accounts codec := by
  refine ⟨2 * (kept.length : Int), ?_⟩
  intro limit hl
  obtain ⟨out, ho, hf⟩ := h.pending hl
  refine ⟨out, ho, ?_⟩
  have hd : ∀ l : List (SpoolRecord φ), l.filter (due w.accepted w.named)
      = (l.filter (unnamed w.named)).filter (due w.accepted w.named) := by
    intro l
    rw [filter_filter]
    apply filter_congr
    intro e _
    unfold due
    rw [Bool.and_right_comm, Bool.and_self]
  rw [hd, hf, filter_map, backlog, ← hc, hd kept]
  rfl

theorem step_accountable (cfg : Config) (w : World φ) (op : Op φ) (h : w.Accountable codec)
    (hop : w.Careful codec op) : (w.step codec cfg op).Accountable codec := by
  obtain ⟨kept, s, batches, hc, hs, hl, ht⟩ := h
  unfold Careful at hop
  rw [hs] at hop
  cases op with
  | append out event =>
    obtain ⟨hr, hse, hcu, hfr⟩ := hop
    have ht := ht hse
    have hf : ∀ e ∈ kept, unnamed w.named e = true → e.eventID ≠ event.eventID :=
      fun e he hu hid => hfr (hid ▸ ht.mem_ids he hu)
    rcases ht.append_cases hcu hr with
      ⟨_, s', dir', b, heq, hb, _⟩ | ⟨e, s', dir', b, heq, hb, _⟩ |
      ⟨_, e, s', dir', b, extra, heq, hex, hb, hun⟩
    · rw [step_append hs heq]
      exact ⟨kept ++ [event], s', b, hc.accept hf, rfl, hb.left, fun _ => hb⟩
    · rw [step_append hs heq]
      exact ⟨kept, s', b, hc, rfl, hb.left, fun _ => hb⟩
    · rw [step_append hs heq]
      exact ⟨kept ++ extra, s', b, hc.leave hf hex, rfl, hb, fun hse => absurd hse hun⟩
  | commit ids =>
    obtain ⟨b, hb⟩ := (ht hop.1).commit_any hop.2
    rw [step_commit hs]
    exact ⟨kept, _, b, hc.name ids, rfl, hb.left, fun _ => hb⟩
  | pending limit =>
    rw [step_pending]
    exact ⟨kept, s, batches, hc, hs, hl, ht⟩
  | reopen =>
    obtain ⟨s', dir', b, heq, hb, _⟩ := hl.reopen cfg hop
    rw [step_reopen hs heq]
    exact ⟨kept, s', b, hc, rfl, hb.left, fun _ => hb⟩

/-- **Failed appends do no harm** in a run in which the spool is closed and opened again
whenever a failed append has left something in its file: at every `Pending` and after every
`New` the spool returns every accepted event once. -/
theorem failed_appends_harmless (codec : Codec φ) (config : Config) (ops : List (Op φ)) (op : Op φ)
    (hlast : op = .reopen ∨ ∃ limit, op = .pending limit)
    (hcareful : Allowed (step codec config) (Careful codec) (start codec config) (ops ++ [op])) :
    (run (step codec config) (start codec config) (ops ++ [op])).Accounts codec := by
  have hsta : (start codec config).Accountable codec := by
    obtain ⟨⟨s, b, hs, ht⟩, ha⟩ := start_holds
    refine ⟨[], s, b, ?_, hs, ht.left, fun _ => ht⟩
    rw [ha]
    rfl
  obtain ⟨hops, hop, -⟩ := (allowed_append ops [op] _).mp hcareful
  have hr := hops.invariant (step_accountable config) ops _ hsta
  rw [run_append, run_cons, run_nil]
  generalize run (step codec config) (start codec config) ops = w at *
  obtain ⟨kept, s, batches, hc, hs, hl, ht⟩ := hr
  unfold Careful at hop
  rw [hs] at hop
  rcases hlast with rfl | ⟨limit, rfl⟩
  · obtain ⟨s', dir', b, heq, hb, _⟩ := hl.reopen config hop
    rw [step_reopen hs heq]
    exact Holds.accounts ⟨s', b, rfl, hb⟩ hc
  · rw [step_pending]
    exact Holds.accounts ⟨s, batches, hs, ht hop⟩ hc

end World

/-- The second event's sync fails and the third's write stores two bytes.  The spool is opened
again after each. -/
def failures : List (Op Unit) :=
  [.append .done (letter "a"), .append .syncFails (letter "b"), .reopen,
    .append (.short 2) (letter "c"), .reopen, .append .done (letter "d"), .commit ["a"]]

theorem failures_accounted :
    (run (World.step letters ⟨100, 1⟩) (World.start letters ⟨100, 1⟩)
        (failures ++ [.pending 6])).Accounts letters ∧
      (run (World.step letters ⟨100, 1⟩) (World.start letters ⟨100, 1⟩)
        (failures ++ [.reopen])).Accounts letters :=
  ⟨World.failed_appends_harmless letters ⟨100, 1⟩ failures (.pending 6) (.inr ⟨6, rfl⟩)
      (by decide +kernel),
    World.failed_appends_harmless letters ⟨100, 1⟩ failures .reopen (.inl rfl) (by decide +kernel)⟩

/-- One byte of the second event is in the file when its write fails.  The third is accepted
and stands behind that byte, so that neither `Pending` nor the next `New` can read it. -/
theorem piece_corrupts_segment :
    (run (World.step letters ⟨100, 1⟩) (World.start letters ⟨100, 1⟩)
        [.append .done (letter "a"), .append (.short 1) (letter "b"),
          .append .done (letter "c")]).pending letters 6
        = .error (.corrupt "segment-000001.wal" "unexpected end of JSON input") ∧
      ¬ (run (World.step letters ⟨100, 1⟩) (World.start letters ⟨100, 1⟩)
        [.append .done (letter "a"), .append (.short 1) (letter "b"),
          .append .done (letter "c"), .reopen]).Accounts letters := by
  refine ⟨by decide +kernel, ?_⟩
  rintro ⟨bound, h⟩
  obtain ⟨out, ho, _⟩ := h bound le_rfl
  have hd : (run (World.step letters ⟨100, 1⟩) (World.start letters ⟨100, 1⟩)
      [.append .done (letter "a"), .append (.short 1) (letter "b"),
        .append .done (letter "c"), .reopen]).spool.isOk = false := by decide +kernel
  exact World.pending_ne_ok hd ho

end LiteAIG.Spool
