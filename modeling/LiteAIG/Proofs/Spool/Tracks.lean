/-
What a spool holds of a run.

`Tracks` ties an intact spool to the history of a run: the events whose `Append` was
accepted and the ids that a `Commit` named.  What the batches hold of the events that
were never named is all of them, in order, and whatever is counted, marked or logged as
committed was named.  Each operation keeps it, provided that an append finds room, that
committed ids are on one line, and that `New` finds the names in the order in which the
segments were made.

A write that fails can leave a directory that no spool tracks any more.  What it still
holds is `Left`, and the next `New` gets it back.
-/
import LiteAIG.Lib.Lists
import LiteAIG.Proofs.Spool.Backlog

namespace LiteAIG.Spool

open Lib FileSpool List WriteOutcome

open FileSpool (known)

variable {φ : Type} {codec : Codec φ} {s : FileSpool} {dir : Dir} {batches : List (Batch φ)}

/-! ### What a spool holds of a run -/

/-- No commit named the event. -/
def unnamed (named : List String) (event : SpoolRecord φ) : Bool :=
  decide (event.eventID ∉ named)

/-- What a directory has to hold, whoever opens it. -/
structure Kept (accepted : List (SpoolRecord φ)) (named : List String) (log : Option Bytes)
    (events : List (SpoolRecord φ)) : Prop where
  sublist : events.Sublist accepted
  kept : events.filter (unnamed named) = accepted.filter (unnamed named)
  plain : ∀ id ∈ named, newline ∉ utf8 id
  log : ∃ ids, log.getD [] = logLines ids ∧ ∀ id ∈ ids, id ∈ named

structure Tracks (codec : Codec φ) (accepted : List (SpoolRecord φ)) (named : List String)
    (s : FileSpool) (dir : Dir) (batches : List (Batch φ)) : Prop where
  intact : Intact codec s.segments dir.files batches
  opened : s.closed = false
  kept : Kept accepted named dir.committedLog (batches.flatMap (·.events))
  counted : ∀ id ∈ counted batches, id ∈ named
  committed : ∀ id ∈ s.committed, id ∈ named

variable {id : String} {empties init : List (Batch φ)} {event : SpoolRecord φ} {line : Bytes}
  {last : Batch φ} {out : WriteOutcome} {named : List String} {acc : List (SpoolRecord φ)}
  {ids : List String} {log : Option Bytes}

theorem mem_counted :
    id ∈ counted batches ↔ ∃ b ∈ batches, ∃ e ∈ b.events.take b.count, e.eventID = id := by
  simp only [counted, mem_flatMap, mem_map]

theorem flatMap_empties {α : Type*} (f : Batch φ → List α) (hf : ∀ b, b.events = [] → f b = [])
    (h : ∀ b ∈ empties, b.events = []) : empties.flatMap f = [] :=
  flatMap_eq_nil_iff.mpr fun b hb => hf b (h b hb)

theorem counted_empties (h : ∀ b ∈ empties, b.events = []) :
    counted (batches ++ empties) = counted batches := by
  unfold counted
  rw [flatMap_append, flatMap_empties _ (fun b hb => by simp [hb]) h, append_nil]

theorem events_empties (h : ∀ b ∈ empties, b.events = []) :
    (batches ++ empties).flatMap (·.events) = batches.flatMap (·.events) := by
  rw [flatMap_append, flatMap_empties _ (fun b hb => hb) h, append_nil]

/-! ### Append -/

/-- The line is one the scanner can take, and if it needs a new segment, the name of that
segment is not in use. -/
def FileSpool.HasRoom (codec : Codec φ) (s : FileSpool) (event : SpoolRecord φ) : Prop :=
  match serialize codec event with
  | .error _ => True
  | .ok line => line.length ≤ maxTokenSize ∧ (s.segments ≠ [] → s.needsRoom line = true →
      segmentName (s.segments.length + 1) ∉ s.segments.map (·.name))

instance (s : FileSpool) (event : SpoolRecord φ) : Decidable (s.HasRoom codec event) :=
  match h : serialize codec event with
  | .error _ => isTrue (by rw [FileSpool.HasRoom, h]; trivial)
  | .ok line => decidable_of_iff (line.length ≤ maxTokenSize ∧
      (s.segments ≠ [] → s.needsRoom line = true →
        segmentName (s.segments.length + 1) ∉ s.segments.map (·.name)))
      (by rw [FileSpool.HasRoom, h])

theorem Intact.rotate_if (h : Intact codec s.segments dir.files batches) {c : Prop} [Decidable c]
    (hn : c → segmentName (s.segments.length + 1) ∉ s.segments.map (·.name)) :
    ∃ empties, Intact codec (if c then s.rotate dir else (s, dir)).1.segments
        (if c then s.rotate dir else (s, dir)).2.files (batches ++ empties) ∧
      (∀ b ∈ empties, b.events = []) ∧
      (if c then s.rotate dir else (s, dir)).1.closed = s.closed ∧
      (if c then s.rotate dir else (s, dir)).1.committed = s.committed ∧
      (if c then s.rotate dir else (s, dir)).2.committedLog = dir.committedLog := by
  by_cases hc : c
  · obtain ⟨b, hb, _, hr⟩ := h.rotate (hn hc)
    simp only [if_pos hc]
    refine ⟨[b], hr, ?_, rfl, rfl, rfl⟩
    intro x hx
    rw [mem_singleton.mp hx, hb]
  · simp only [if_neg hc]
    exact ⟨[], by rwa [append_nil], nofun, trivial, trivial, trivial⟩

theorem HasRoom.fits (h : s.HasRoom codec event) (hl : serialize codec event = .ok line) :
    Fits codec event ∧ (s.segments ≠ [] → s.needsRoom line = true →
      segmentName (s.segments.length + 1) ∉ s.segments.map (·.name)) := by
  rw [HasRoom, hl] at h
  obtain ⟨hw, hle⟩ := writes_of_ok hl
  refine ⟨⟨hw, ?_⟩, h.2⟩
  have hm := h.1
  rw [hle, size] at hm
  omega

theorem segments_withSegment (s : FileSpool) (dir : Dir) :
    s.segments ≠ [] ∧ s.withSegment dir = (s, dir) ∨
      (s.withSegment dir).1.segments.map (·.name) = [segmentName 1] := by
  unfold withSegment
  by_cases hn : s.segments = []
  · right
    rw [if_pos hn, FileSpool.rotate, hn]
    rfl
  · exact .inl ⟨hn, if_neg hn⟩

/-- The room an append finds is not taken by the segment it may have to make first. -/
theorem fresh_withSegment
    (h : s.segments ≠ [] → s.needsRoom line = true →
      segmentName (s.segments.length + 1) ∉ s.segments.map (·.name))
    (hr : (s.withSegment dir).1.needsRoom line) :
    segmentName ((s.withSegment dir).1.segments.length + 1)
      ∉ (s.withSegment dir).1.segments.map (·.name) := by
  rcases segments_withSegment s dir with ⟨hne, hs⟩ | ho
  · rw [hs] at hr ⊢
    exact h hne hr
  · have hl : (s.withSegment dir).1.segments.length = 1 := by
      rw [← length_map (·.name), ho]
      rfl
    rw [ho, hl]
    decide +kernel

theorem append_error (hs : s.closed = false) {e : String} (hl : serialize codec event = .error e)
    :
    s.append codec out event dir = (.error (.marshal e), s.withSegment dir) := by
  unfold append
  rw [hs, hl]
  rfl

theorem append_line (hs : s.closed = false) (hl : serialize codec event = .ok line)
    :
    s.append codec out event dir = append.write
          ((s.withSegment dir).1.withRoom line (s.withSegment dir).2).1 out event line
          ((s.withSegment dir).1.withRoom line (s.withSegment dir).2).2 := by
  unfold append
  rw [hs, hl]
  rfl

/-- What an append does up to its write: it may add empty segments.  It then fails, since
the event has no line, or goes on to write it. -/
theorem append_prepare (h : Intact codec s.segments dir.files batches) (hs : s.closed = false)
    (hr : s.HasRoom codec event) :
    ∃ s' dir' empties, Intact codec s'.segments dir'.files (batches ++ empties) ∧
      (∀ b ∈ empties, b.events = []) ∧ s'.closed = false ∧ s'.committed = s.committed ∧
      dir'.committedLog = dir.committedLog ∧
      ((∀ out, ∃ e, s.append codec out event dir = (.error e, s', dir')) ∨
        Fits codec event ∧ batches ++ empties ≠ [] ∧ ∀ out, s.append codec out event dir
            = append.write s' out event (text codec event ++ [newline]) dir') := by
  obtain ⟨first, h₁, hf, hcl, hc, hlo⟩ :=
    h.rotate_if (c := s.segments = []) fun hni => by rw [hni]; exact not_mem_nil
  change Intact codec (s.withSegment dir).1.segments (s.withSegment dir).2.files _ at h₁
  cases hl : serialize codec event with
  | error e =>
    refine ⟨_, _, first, h₁, hf, hcl.trans hs, hc, hlo, .inl ?_⟩
    exact fun out => ⟨_, append_error hs hl⟩
  | ok line =>
    obtain ⟨hfi, hfr⟩ := HasRoom.fits hr hl
    obtain ⟨second, h₂, hse, hclo, hco, hlog⟩ :=
      h₁.rotate_if (c := (s.withSegment dir).1.needsRoom line = true) (fresh_withSegment hfr)
    refine ⟨_, _, first ++ second, by rw [← append_assoc]; exact h₂, ?_,
      hclo.trans (hcl.trans hs), hco.trans hc, hlog.trans hlo,
      .inr ⟨hfi, ?_, ?_⟩⟩
    · intro b hb
      exact (mem_append.mp hb).elim (hf b) (hse b)
    · rw [← append_assoc]
      intro hni
      have hn : (s.withSegment dir).1.segments = [] := by
        rw [h₁.index, (append_eq_nil_iff.mp hni).1, map_nil]
      rcases segments_withSegment s dir with ⟨hne, hsa⟩ | ho
      · rw [hsa] at hn
        exact hne hn
      · rw [hn] at ho
        cases ho
    · intro out
      obtain ⟨_, _, _, rfl⟩ := serialize_ok hl
      exact append_line hs hl

theorem Intact.getLast {segs : List Segment} {files : Files}
    (h : Intact codec segs files (init ++ [last])) :
    segs.getLast? = some (last.index codec) ∧ segs.dropLast = init.map (·.index codec) := by
  rw [h.index, map_append, map_singleton]
  exact ⟨List.getLast?_concat .., dropLast_concat⟩

/-- What is in the file of a line whose write went this way. -/
def WriteOutcome.stored (line : Bytes) : WriteOutcome → Bytes
  | .short k => line.take k
  | .done | .syncFails => line

theorem WriteOutcome.stored_ne_done (h : out = .done ∨ out = .short 0)
    (hne : out ≠ .done) : out.stored line = [] := by
  rcases h with rfl | rfl
  · exact absurd rfl hne
  · rfl

/-- A write leaves the last batch with one more event, or it leaves the index as it is, with
some of the line in the file. -/
theorem write_cases (h : Intact codec s.segments dir.files (init ++ [last])) (hf : Fits codec event)
    (hl : line = text codec event ++ [newline]) :
    ((∀ k, out ≠ .short k) ∧ ∃ s' dir',
        append.write s out event line dir = (.ok (), s', dir') ∧
        Intact codec s'.segments dir'.files (init ++ [last.add event]) ∧
        s'.closed = s.closed ∧ s'.committed = s.committed ∧ dir'.committedLog = dir.committedLog) ∨
      (out ≠ .done ∧ ∃ s', append.write s out event line dir = (.error .unavailable, s',
              { dir with files := dir.files.append last.file (out.stored line) }) ∧
        s'.segments = s.segments ∧ s'.closed = s.closed ∧ s'.committed = s.committed) := by
  obtain ⟨hla, hi⟩ := h.getLast
  have had := h.add hf
  rw [← hl, map_append, map_singleton] at had
  have hle : line.length = size codec event := by
    rw [hl]
    simp [size]
  have hp : ∀ s' : FileSpool, s'.segments = s.segments → Intact codec (s'.segments.dropLast ++
          [(last.index codec).push event.eventID event.tenantID line.length])
        (dir.files.append last.file line) (init ++ [last.add event]) := by
    intro s' hs'
    rw [hs', hi, hle, Batch.index_add]
    exact had
  unfold append.write
  rw [hla]
  cases out with
  | short k => exact .inr ⟨WriteOutcome.noConfusion, s, rfl, rfl, rfl, rfl⟩
  | done =>
    refine .inl ⟨fun k => WriteOutcome.noConfusion, ?_⟩
    simp only [reduceCtorEq, and_false, if_false]
    exact ⟨_, _, rfl, hp { s with appends := s.appends + 1 } rfl, rfl, rfl, rfl⟩
  | syncFails =>
    simp only
    split
    · exact .inr ⟨WriteOutcome.noConfusion, _, rfl, rfl, rfl, rfl⟩
    · exact .inl ⟨fun k => WriteOutcome.noConfusion, _, _, rfl,
        hp { s with appends := s.appends + 1 } rfl, rfl, rfl,
        rfl⟩

theorem counted_add :
    counted (init ++ [last.add event]) = counted (init ++ [last]) := by
  have ht : (last.add event).events.take (last.add event).count = last.events.take last.count :=
    take_append_of_le_length last.le
  simp only [counted, flatMap_append, flatMap_singleton, ht]

theorem Kept.add {acc evs : List (SpoolRecord φ)} (h : Kept acc named log evs)
    (event : SpoolRecord φ) :
    Kept (acc ++ [event]) named log (evs ++ [event]) where
  sublist := h.sublist.append (List.Sublist.refl _)
  kept := by rw [filter_append, filter_append, h.kept]
  plain := h.plain
  log := h.log

/-- What a directory holds for whoever opens it next: a torn line may stand behind the
events of a batch. -/
structure Left (codec : Codec φ) (accepted : List (SpoolRecord φ)) (named : List String)
    (s : FileSpool) (dir : Dir) (batches : List (Batch φ)) : Prop where
  names : s.segments.map (·.name) = batches.map (·.name)
  only : ∀ name, (dir.files.names.lookup name).isSome → name ∈ batches.map (·.name)
  onDisk : ∀ b ∈ batches, ∃ torn, b.OnDisk codec dir.files torn
  kept : Kept accepted named dir.committedLog (batches.flatMap (·.events))

theorem Left.empty (codec : Codec φ) (hs : s.segments = []) :
    Left codec [] [] s Dir.empty [] where
  names := by rw [hs]; rfl
  only := nofun
  onDisk := nofun
  kept := ⟨List.Sublist.refl _, rfl, nofun, [], rfl, nofun⟩

/-- There is no more in the newest segment's file than its index says. -/
def FileSpool.Settled (s : FileSpool) (dir : Dir) : Prop :=
  ∀ seg, s.segments.getLast? = some seg → (dir.files.content seg.file).length = seg.bytes

/-- All of the line is in the file but its newline. -/
def WriteOutcome.CutsNewline (codec : Codec φ) (event : SpoolRecord φ)
    (outcome : WriteOutcome) : Prop :=
  ∃ line, serialize codec event = .ok line ∧ (outcome.stored line).length + 1 = line.length

instance (s : FileSpool) (dir : Dir) : Decidable (s.Settled dir) :=
  match h : s.segments.getLast? with
  | none => isTrue (by rw [FileSpool.Settled, h]; nofun)
  | some seg => decidable_of_iff ((dir.files.content seg.file).length = seg.bytes) (by
      simp [FileSpool.Settled, h])

instance (event : SpoolRecord φ) (outcome : WriteOutcome) :
    Decidable (outcome.CutsNewline codec event) :=
  match h : serialize codec event with
  | .error _ => isFalse (by rw [WriteOutcome.CutsNewline, h]; rintro ⟨_, hline, _⟩; cases hline)
  | .ok line => decidable_of_iff ((outcome.stored line).length + 1 = line.length) (by
      simp [WriteOutcome.CutsNewline, h])

theorem not_cutsNewline_of_harmless (h : out = .done ∨ out = .short 0) :
    ¬ out.CutsNewline codec event := by
  rintro ⟨line, hl, hc⟩
  obtain ⟨hw, hle⟩ := writes_of_ok hl
  have hp := length_pos_of_ne_nil hw.text_ne
  rw [hle, size] at hc
  rcases h with rfl | rfl
  · simp only [stored, hle, size] at hc
    omega
  · simp only [stored, take_zero, length_nil] at hc
    omega

theorem Tracks.left (h : Tracks codec acc named s dir batches) :
    Left codec acc named s dir batches where
  names := by
    rw [h.intact.index, map_map]
    rfl
  only := h.intact.only
  onDisk b hb := ⟨[], h.intact.onDisk b hb⟩
  kept := h.kept

/-- A failed write that stored something, but not just all of the line but its newline,
leaves what was there before, or that and the event; and more than the index says. -/
theorem left_of_stored {stored : Bytes} (hi : Intact codec s.segments dir.files (init ++ [last]))
    (hke : Kept acc named dir.committedLog ((init ++ [last]).flatMap (·.events)))
    (hf : Fits codec event) (hne : stored ≠ [])
    (hst : (∃ k < (text codec event).length, stored = (text codec event).take k) ∨
      stored = text codec event ++ [newline]) :
    ∃ batches' extra, (extra = [] ∨ extra = [event]) ∧ Left codec (acc ++ extra) named s
        { dir with files := dir.files.append last.file stored } batches' ∧
      ¬ s.Settled { dir with files := dir.files.append last.file stored } := by
  obtain ⟨hin, hl⟩ := hi.append_last stored
  have hld := hi.onDisk last (mem_append_right _ (mem_singleton_self _))
  have hn : s.segments.map (·.name) = (init ++ [last]).map (·.name) := by
    rw [hi.index, map_map]
    rfl
  have hu : ¬ s.Settled { dir with files := dir.files.append last.file stored } := by
    intro hs
    have hle := hs _ hi.getLast.1
    have hby : (last.index codec).bytes = (last.data codec).length :=
      (Batch.length_data _).symm
    have hp := length_pos_of_ne_nil hne
    rw [hby] at hle
    simp only [Batch.index, hl, length_append] at hle
    omega
  rcases hst with ⟨k, hk, rfl⟩ | rfl
  · refine ⟨init ++ [last], [], .inl rfl, ⟨hn, hi.only, ?_, ?_⟩, hu⟩
    · intro b hb
      rcases mem_append.mp hb with hb | hb
      · exact ⟨[], hin b hb⟩
      · rw [mem_singleton.mp hb]
        refine ⟨_, hld.lookup, hl, ⟨?_, .inr (hf.1.decode_take hk)⟩, hld.fits⟩
        exact fun hme => hf.1.newline_notMem (mem_of_mem_take hme)
    · rw [append_nil]
      exact hke
  · have had := hi.add hf
    refine ⟨init ++ [last.add event], [event], .inr rfl,
      ⟨?_, had.only, fun b hb => ⟨[], had.onDisk b hb⟩, ?_⟩, hu⟩
    · rw [hn]
      simp [Batch.add]
    · have hm := hke.add event
      simpa [Batch.add] using hm

theorem stored_cases (hf : Fits codec event) (hc : ¬ out.CutsNewline codec event) :
    (∃ k < (text codec event).length,
        out.stored (text codec event ++ [newline]) = (text codec event).take k) ∨
      out.stored (text codec event ++ [newline]) = text codec event ++ [newline] := by
  cases out with
  | done => exact .inr rfl
  | syncFails => exact .inr rfl
  | short k =>
    by_cases hk : k < (text codec event).length
    · exact .inl ⟨k, hk, take_append_of_le_length hk.le⟩
    · refine .inr (take_of_length_le ?_)
      by_contra hl
      apply hc
      refine ⟨_, hf.1, ?_⟩
      simp only [stored, length_take, length_append,
        length_singleton] at hl ⊢
      omega

/-- The batches have these more events pending, and count the same. -/
def Grown (batches batches' : List (Batch φ)) (added : List (SpoolRecord φ)) : Prop :=
  batches'.flatMap (·.pending) = batches.flatMap (·.pending) ++ added ∧
    counted batches' = counted batches

theorem pending_empties (h : ∀ b ∈ empties, b.events = []) :
    (batches ++ empties).flatMap (·.pending) = batches.flatMap (·.pending) := by
  have hp : ∀ b : Batch φ, b.events = [] → b.pending = [] := by
    intro b hb
    rw [Batch.pending, hb, drop_nil]
  rw [flatMap_append, flatMap_empties _ hp h, append_nil]

theorem pending_add :
    (init ++ [last.add event]).flatMap (·.pending)
      = (init ++ [last]).flatMap (·.pending) ++ [event] := by
  have ha : (last.add event).pending = last.pending ++ [event] :=
    drop_append_of_le_length last.le
  simp only [flatMap_append, flatMap_singleton, ha, append_assoc]

namespace Tracks

/-- An append is accepted, or it fails and has left nothing in the files, or it has left
something there. -/
theorem append_cases (h : Tracks codec acc named s dir batches)
    (hcu : ¬ out.CutsNewline codec event) (hr : s.HasRoom codec event) :
    ((∀ k, out ≠ .short k) ∧ ∃ s' dir' batches',
        s.append codec out event dir = (.ok (), s', dir') ∧
        Tracks codec (acc ++ [event]) named s' dir' batches' ∧
        Grown batches batches' [event] ∧ dir'.committedLog = dir.committedLog) ∨
      (∃ e s' dir' batches', s.append codec out event dir = (.error e, s', dir') ∧
        Tracks codec acc named s' dir' batches' ∧
        Grown batches batches' [] ∧ dir'.committedLog = dir.committedLog) ∨
      ¬ (out = .done ∨ out = .short 0) ∧ ∃ e s' dir' batches' extra,
        s.append codec out event dir = (.error e, s', dir') ∧
        (extra = [] ∨ extra = [event]) ∧ Left codec (acc ++ extra) named s' dir' batches' ∧
        ¬ s'.Settled dir' := by
  obtain ⟨s', dir', empties, hi, hem, hs', hc', hl', hw⟩ :=
    append_prepare h.intact h.opened hr
  have hk : Kept acc named dir'.committedLog ((batches ++ empties).flatMap (·.events)) := by
    rw [events_empties hem, hl']
    exact h.kept
  have hc : ∀ id ∈ Spool.counted (batches ++ empties), id ∈ named := by
    rw [counted_empties hem]
    exact h.counted
  have hco : ∀ id ∈ s'.committed, id ∈ named := hc' ▸ h.committed
  have hs : Grown batches (batches ++ empties) [] :=
    ⟨by rw [pending_empties hem, append_nil], counted_empties hem⟩
  rcases hw with hf | ⟨hfi, hne, hw⟩
  · obtain ⟨e, he⟩ := hf out
    exact .inr (.inl ⟨e, s', dir', _, he, ⟨hi, hs', hk, hc, hco⟩, hs, hl'⟩)
  obtain ⟨init, last, hsp⟩ := (eq_nil_or_concat' _).resolve_left hne
  rw [hsp] at hi hk hc hs
  rcases write_cases hi hfi rfl with
    ⟨hsh, s₂, dir₂, heq, hi₂, hs₂, hc₂, hl₂⟩ | ⟨hd, s₂, heq, hseg, hs₂, hc₂⟩
  · refine .inl ⟨hsh, s₂, dir₂, init ++ [last.add event], (hw _).trans heq,
      ⟨hi₂, hs₂.trans hs', ?_, ?_, hc₂ ▸ hco⟩, ⟨?_, ?_⟩, hl₂.trans hl'⟩
    · have had := hk.add event
      rw [hl₂]
      simpa [Batch.add] using had
    · rw [counted_add]
      exact hc
    · rw [pending_add, hs.1, append_nil]
    · rw [counted_add, hs.2]
  · refine .inr ?_
    rw [← hseg] at hi
    by_cases hn : out.stored (text codec event ++ [newline]) = []
    · refine .inl ⟨_, _, _, init ++ [last], (hw _).trans heq,
        ⟨?_, hs₂.trans hs', hk, hc, hc₂ ▸ hco⟩, hs, hl'⟩
      rw [hn]
      exact hi.append_nothing _
    · obtain ⟨batches', extra, hex, hl, hse⟩ :=
        left_of_stored hi hk hfi hn (stored_cases hfi hcu)
      exact .inr ⟨fun hh => hn (stored_ne_done hh hd), _, _, _,
        batches', extra, (hw _).trans heq, hex, hl, hse⟩

theorem append (h : Tracks codec acc named s dir batches)
    (ho : out = .done ∨ out = .short 0) (hr : s.HasRoom codec event) :
    (∃ s' dir' batches', s.append codec out event dir = (.ok (), s', dir') ∧
        Tracks codec (acc ++ [event]) named s' dir' batches' ∧
        Grown batches batches' [event] ∧ dir'.committedLog = dir.committedLog) ∨
      ∃ e s' dir' batches', s.append codec out event dir = (.error e, s', dir') ∧
        Tracks codec acc named s' dir' batches' ∧
        Grown batches batches' [] ∧ dir'.committedLog = dir.committedLog := by
  rcases h.append_cases (not_cutsNewline_of_harmless ho) hr with
    ⟨_, hok⟩ | hf | ⟨hh, _⟩
  · exact .inl hok
  · exact .inr hf
  · exact absurd ho hh

end Tracks

/-! ### Commit and New -/

theorem Batch.take_advance (known : String → Bool) (b : Batch φ) :
    (b.advance known).events.take (b.advance known).count
      = b.events.take b.count ++ b.pending.takeWhile fun e => known e.eventID := by
  show b.events.take (b.count + _) = _
  rw [take_add]
  congr 1
  exact (prefix_iff_eq_take.mp ( takeWhile_prefix _)).symm

/-- What is counted after moving on was counted before, or was pending and is known. -/
theorem counted_advance {known : String → Bool} (h : id ∈ counted (batches.map (·.advance known))) :
    id ∈ counted batches ∨ known id = true ∧ ∃ e ∈ batches.flatMap (·.pending), e.eventID = id := by
  obtain ⟨b', hb', e, he, rfl⟩ := mem_counted.mp h
  obtain ⟨b, hb, rfl⟩ := mem_map.mp hb'
  rw [Batch.take_advance] at he
  rcases mem_append.mp he with he | he
  · exact .inl (mem_counted.mpr ⟨b, hb, e, he, rfl⟩)
  · refine .inr ⟨mem_takeWhile_imp (p := fun e : SpoolRecord φ => known e.eventID) he, e, ?_, rfl⟩
    exact mem_flatMap.mpr ⟨b, hb, (takeWhile_sublist _).subset he⟩

theorem counted_filter {p : Batch φ → Bool} (h : id ∈ counted (batches.filter p)) :
    id ∈ counted batches := by
  obtain ⟨b, hb, he⟩ := mem_counted.mp h
  exact mem_counted.mpr ⟨b, (mem_filter.mp hb).1, he⟩

theorem counted_reset : counted (batches.map (·.reset)) = [] := by
  unfold counted
  rw [flatMap_map]
  exact flatMap_eq_nil_iff.mpr fun b _ => rfl

/-- Batches that are full have no event that was not named. -/
theorem filter_notFull {batches : List (Batch φ)} (h : ∀ id ∈ counted batches, id ∈ named) :
    ((batches.filter (!·.full)).flatMap (·.events)).filter (unnamed named)
      = (batches.flatMap (·.events)).filter (unnamed named) := by
  rw [filter_flatMap, filter_flatMap]
  refine flatMap_filter fun b hb hf => filter_eq_nil_iff.mpr fun e he => ?_
  have hco : b.count = b.events.length := by
    simpa using (Bool.and_eq_true_iff.mp (show b.full = true by simpa using hf)).2
  have hm : e.eventID ∈ counted batches :=
    mem_counted.mpr ⟨b, hb, e, by rwa [hco, take_length], rfl⟩
  simpa [unnamed] using h _ hm

theorem known_logLines (hlo : log.getD [] = logLines ids) (hp : ∀ id ∈ ids, newline ∉ utf8 id)
    (id : String) :
    known log id = true ↔ id ∈ ids ∧ utf8 id ≠ [] := by
  have hc : cutLines newline (log.getD []) = (ids.map utf8, []) := by
    have hl : ∀ line ∈ ids.map utf8, newline ∉ line := by
      intro line hli
      obtain ⟨x, hx, rfl⟩ := mem_map.mp hli
      exact hp x hx
    rw [hlo, logLines, ← cutLines_joinLines not_mem_nil hl, append_nil]
  unfold known knownIDs
  rw [hc]
  simp only [decide_eq_true_eq, mem_filter, mem_append, mem_singleton, mem_map,
    utf8_injective.eq_iff, exists_eq_right]
  grind

namespace Kept

variable {evs : List (SpoolRecord φ)}

theorem known (h : Kept acc named log evs) {id : String} (hid : known log id) :
    id ∈ named := by
  obtain ⟨ids, hl, hi⟩ := h.log
  exact hi id ((known_logLines hl (fun id hid => h.plain id (hi id hid)) id).mp hid).1

/-- What is dropped because it is full need not be kept. -/
theorem notFull (h : Kept acc named log (batches.flatMap (·.events)))
    (hc : ∀ id ∈ counted batches, id ∈ named) :
    Kept acc named log ((batches.filter (!·.full)).flatMap (·.events)) where
  sublist := (filter_sublist.flatMap _).trans h.sublist
  kept := (filter_notFull hc).trans h.kept
  plain := h.plain
  log := h.log

/-- A commit names more, and what it adds to the log it names. -/
theorem name (h : Kept acc named log evs) (hp : ∀ id ∈ ids, newline ∉ utf8 id) {log' : Option Bytes}
    (hl : ∃ logged, log'.getD [] = logLines logged ∧ ∀ id ∈ logged, id ∈ named ++ ids) :
    Kept acc (named ++ ids) log' evs where
  sublist := h.sublist
  kept := by
    have hm : ∀ l : List (SpoolRecord φ), l.filter (unnamed (named ++ ids))
        = (l.filter (unnamed named)).filter (unnamed (named ++ ids)) := by
      intro l
      rw [filter_filter]
      apply filter_congr
      intro e _
      simp [unnamed]
      tauto
    rw [hm, h.kept, ← hm]
  plain := by
    intro id hid
    exact (mem_append.mp hid).elim (h.plain id) (hp id)
  log := hl

end Kept

theorem events_advance (known : String → Bool) :
    (batches.map (·.advance known)).flatMap (·.events) = batches.flatMap (·.events) := by
  rw [flatMap_map]
  rfl

namespace Tracks

theorem commit (h : Tracks codec acc named s dir batches) (hids : ids ≠ [])
    (hp : ∀ id ∈ ids, newline ∉ utf8 id) :
    Tracks codec acc (named ++ ids) (s.commit ids dir).1 (s.commit ids dir).2
      (prune (fun id => decide (id ∈ (mark ids s.committed).1)) batches) := by
  cases hma : mark ids s.committed with
  | mk marked added =>
    simp only
    obtain ⟨hi, hs', hc', hl'⟩ := h.intact.commit hids hma
    have hs := fun id => mark_spec id ids s.committed
    rw [hma] at hs
    have hm : ∀ id ∈ marked, id ∈ named ++ ids := by
      intro id hid
      rcases (hs id).1.mp hid with hid | hid
      · exact mem_append_left _ (h.committed id hid)
      · exact mem_append_right _ hid
    have had : ∀ id ∈ Spool.counted (batches.map (·.advance fun id => decide (id ∈ marked))),
        id ∈ named ++ ids := by
      intro id hid
      rcases counted_advance hid with hid | ⟨hid, _⟩
      · exact mem_append_left _ (h.counted id hid)
      · exact hm id (of_decide_eq_true hid)
    have hc : ∀ id ∈ Spool.counted (prune (fun id => decide (id ∈ marked)) batches),
        id ∈ named ++ ids := fun id hid => had id (counted_filter hid)
    have hl : ∃ logged, (s.commit ids dir).2.committedLog.getD [] = logLines logged ∧
        ∀ id ∈ logged, id ∈ named ++ ids := by
      obtain ⟨old, hold, hn⟩ := h.kept.log
      rcases hl' with hl' | hl'
      · refine ⟨old ++ added, ?_, ?_⟩
        · rw [hl', Option.getD_some, hold, logLines, logLines, logLines, map_append,
            joinLines_append]
        · intro id hid
          rcases mem_append.mp hid with hid | hid
          · exact mem_append_left _ (hn id hid)
          · exact mem_append_right _ ((hs id).2.mp hid).1
      · exact ⟨_, by rw [hl', Option.getD_some], hc⟩
    have hk := h.kept.name hp hl
    rw [← events_advance fun id => decide (id ∈ marked)] at hk
    exact ⟨hi, hs'.trans h.opened, hk.notFull had, hc, fun id hid => hm id (hc' id hid)⟩

theorem commit_any (h : Tracks codec acc named s dir batches) (hp : ∀ id ∈ ids, newline ∉ utf8 id) :
    ∃ batches', Tracks codec acc (named ++ ids) (s.commit ids dir).1 (s.commit ids dir).2
      batches' := by
  by_cases hi : ids = []
  · subst hi
    rw [append_nil]
    exact ⟨batches, h⟩
  · exact ⟨_, h.commit hi hp⟩

/-- Whatever holds the events can be opened, and is then tracked.  What was counted is counted
again, as far as the log knows it. -/
theorem new (cfg : Config) (batches : List (Batch φ))
    (hs : (batches.map (·.name)).Pairwise (· < ·))
    (ho : ∀ name, (dir.files.names.lookup name).isSome → name ∈ batches.map (·.name))
    (hd : ∀ b ∈ batches, ∃ torn, b.OnDisk codec dir.files torn)
    (hk : Kept acc named dir.committedLog (batches.flatMap (·.events))) :
    ∃ s' dir' batches', new codec cfg dir = (.ok s', dir') ∧
      Tracks codec acc named s' dir' batches' ∧
      Grown (prune (known dir.committedLog) (batches.map (·.reset))) batches' [] ∧
      dir'.committedLog = dir.committedLog := by
  obtain ⟨s', dir', batches', hn, hi, hs', hl', hc', hba⟩ :=
    new_intact cfg hs ho hd
  have hr : (batches.map (·.reset)).flatMap (·.events) = batches.flatMap (·.events) := by
    rw [flatMap_map]
    rfl
  have had : ∀ id ∈ Spool.counted
    ((batches.map (·.reset)).map (·.advance (known dir.committedLog))),
      id ∈ named := by
    intro id hid
    rcases counted_advance hid with hid | ⟨hid, _⟩
    · rw [counted_reset] at hid
      cases hid
    · exact hk.known hid
  have hc : ∀ id ∈ Spool.counted (prune (known dir.committedLog) (batches.map (·.reset))),
      id ∈ named := fun id hid => had id (counted_filter hid)
  rw [← hr, ← events_advance (known dir.committedLog)] at hk
  have hp := hk.notFull had
  have hem : ∃ empties, batches'
      = prune (known dir.committedLog) (batches.map (·.reset)) ++ empties ∧
      ∀ b ∈ empties, b.events = [] := by
    rcases hba with rfl | ⟨hni, b, hb, _, rfl⟩
    · exact ⟨[], (append_nil _).symm, nofun⟩
    · refine ⟨[b], by rw [hni]; rfl, ?_⟩
      intro x hx
      rw [mem_singleton.mp hx, hb]
  obtain ⟨empties, rfl, he⟩ := hem
  refine ⟨s', dir', _, hn, ⟨hi, hs', ?_, ?_, hc' ▸ hc⟩, ⟨?_, ?_⟩, hl'⟩
  · rw [hl', events_empties he]
    exact hp
  · rw [counted_empties he]
    exact hc
  · rw [pending_empties he, append_nil]
  · exact counted_empties he

end Tracks

/-- Whatever is left can be opened while the names are in order. -/
theorem Left.reopen (cfg : Config) (h : Left codec acc named s dir batches)
    (hs : (s.segments.map (·.name)).Pairwise (· < ·)) :
    ∃ s' dir' batches', new codec cfg dir = (.ok s', dir') ∧
      Tracks codec acc named s' dir' batches' ∧
      Grown (prune (known dir.committedLog) (batches.map (·.reset))) batches' [] ∧
      dir'.committedLog = dir.committedLog :=
  Tracks.new cfg batches (h.names ▸ hs) h.only h.onDisk h.kept

end LiteAIG.Spool
