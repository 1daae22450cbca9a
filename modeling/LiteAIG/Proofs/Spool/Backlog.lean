/-
A spool whose segments and files agree.

`Intact` says that the segments are the indexes of some batches and that each batch's
file holds the batch.  As long as no name is given out twice, every operation keeps it,
and what it does to the batches is easy to say: an append adds an event to the last
batch, or starts a new one; a commit moves the batches' counts on and drops those that
are full; reopening counts again, from `committed.log`.  `Pending` reads the batches in
order, and `gather` is all that is left of it.
-/
import LiteAIG.Proofs.Spool.Segments

namespace LiteAIG.Spool

open Lib Files List

open FileSpool (known)

variable {φ : Type} {codec : Codec φ} {s : FileSpool} {dir : Dir} {batches : List (Batch φ)}

/-- The segments are the batches' indexes, and there is a file for each batch and no other. -/
structure Intact (codec : Codec φ) (segments : List Segment) (files : Files)
    (batches : List (Batch φ)) : Prop where
  index : segments = batches.map (·.index codec)
  nodup : (batches.map (·.name)).Nodup
  only : ∀ name, (files.names.lookup name).isSome → name ∈ batches.map (·.name)
  onDisk : ∀ b ∈ batches, b.OnDisk codec files []

/-- Move the counts on, and drop what is full. -/
def prune (known : String → Bool) (batches : List (Batch φ)) : List (Batch φ) :=
  (batches.map (·.advance known)).filter (!·.full)

/-! ### Pending -/

/-- What the loop over the segments collects, from what each has to give: at least one
event of each, and of the limit only what is left after all that was collected so far
has been taken off twice. -/
def gather {α : Type*} (limit : Int) : List (List α) → List α → List α
  | [], out => out
  | todo :: rest, out =>
    if limit ≤ (out.length : Int) then out
    else gather limit rest (out ++ todo.take (max 1 (limit - out.length - out.length)).toNat)

/-- The events of a batch that `Pending` would return. -/
def todo (committed : List String) (b : Batch φ) : List (SpoolRecord φ) :=
  (b.pending.filter fun e => e.eventID ∉ committed).map (·.bare)

theorem collect_eq {s : FileSpool} (hs : s.closed = false) {files : Files} {limit : Int} :
    ∀ {batches : List (Batch φ)}, (∀ b ∈ batches, b.OnDisk codec files []) →
    ∀ out : List (SpoolRecord φ), s.collect codec files limit (batches.map (·.index codec)) out
      = .ok (gather limit (batches.map (todo s.committed)) out) := by
  intro batches
  induction batches with
  | nil => intro _ out; rfl
  | cons b rest ih =>
    intro h out
    have hb := h b mem_cons_self
    rw [map_cons, map_cons, FileSpool.collect, gather]
    by_cases hl : limit ≤ (out.length : Int)
    · rw [if_pos hl, if_pos hl]
    · rw [if_neg hl, if_neg hl, Batch.collectPending_data hs (by simpa using hb.content) hb.fits]
      exact ih (fun x hx => h x (mem_cons_of_mem _ hx)) _

theorem Intact.pending_eq
    (h : Intact codec s.segments dir.files batches) (hs : s.closed = false) (limit : Int) :
    s.pending codec dir limit = .ok (gather limit (batches.map (todo s.committed)) []) := by
  unfold FileSpool.pending
  by_cases hl : limit ≤ 0
  · rw [if_pos hl]
    cases batches with
    | nil => rfl
    | cons b rest => rw [map_cons, gather, if_pos (by simpa using hl)]
  · rw [if_neg hl, h.index]
    exact collect_eq hs h.onDisk []

/-- A limit of twice all there is to collect is never in the way. -/
theorem gather_all {α : Type*} {limit : Int} : ∀ (todos : List (List α)) (out : List α),
    2 * ((out.length + todos.flatten.length : Nat) : Int) ≤ limit →
    gather limit todos out = out ++ todos.flatten := by
  intro todos
  induction todos with
  | nil => intro out _; simp [gather]
  | cons todo rest ih =>
    intro out h
    simp only [flatten_cons, length_append] at h
    unfold gather
    by_cases hl : limit ≤ (out.length : Int)
    · have hn : (todo ++ rest.flatten) = [] := by
        rw [← length_eq_zero_iff, length_append]
        omega
      rw [if_pos hl, flatten_cons, hn, append_nil]
    · have hal : todo.take (max 1 (limit - out.length - out.length)).toNat = todo := by
        apply take_of_length_le
        omega
      rw [if_neg hl, hal, ih, flatten_cons, append_assoc]
      simp only [length_append]
      omega

/-! ### Append -/

namespace Intact

variable {segs : List Segment} {files : Files} {init : List (Batch φ)} {last : Batch φ}

theorem lookup_none (h : Intact codec segs files batches) {name : String}
    (hn : name ∉ segs.map (·.name)) : files.names.lookup name = none := by
  cases hl : files.names.lookup name with
  | none => rfl
  | some file =>
    have hm := h.only name (by rw [hl]; rfl)
    rw [h.index, map_map] at hn
    exact absurd hm hn

theorem rotate (h : Intact codec s.segments dir.files batches)
    (hna : segmentName (s.segments.length + 1) ∉ s.segments.map (·.name)) :
    ∃ b : Batch φ, b.events = [] ∧ b.name = segmentName (s.segments.length + 1) ∧
      Intact codec (s.rotate dir).1.segments (s.rotate dir).2.files (batches ++ [b]) := by
  obtain ⟨hne, hem, hot⟩ := create_new (h.lookup_none hna)
  generalize hn : segmentName (s.segments.length + 1) = name at *
  refine ⟨Batch.create name (dir.files.create name).1, rfl, rfl, ?_, ?_, ?_, ?_⟩
  · simp only [FileSpool.rotate, hn, map_append, map_singleton, Batch.index_create]
    rw [h.index]
  · rw [map_append, map_singleton, nodup_append]
    refine ⟨h.nodup, by simp, ?_⟩
    intro a ha b hb hab
    rw [h.index, map_map] at hna
    have hnam : a = name := hab.trans (mem_singleton.mp hb)
    exact hna (hnam ▸ ha)
  · intro other ho
    simp only [FileSpool.rotate, hn] at ho
    rw [map_append, mem_append, map_singleton, mem_singleton]
    rcases lookup_create ho with rfl | hold
    · exact .inr rfl
    · exact .inl (h.only other hold)
  · intro b hb
    simp only [FileSpool.rotate, hn]
    rcases mem_append.mp hb with hb | hb
    · obtain ⟨hl, hc⟩ := hot _ _ (h.onDisk b hb).lookup
      exact ⟨hl, hc.trans (h.onDisk b hb).content, (h.onDisk b hb).torn, (h.onDisk b hb).fits⟩
    · rw [mem_singleton.mp hb]
      exact ⟨hne, hem, ⟨not_mem_nil, .inl rfl⟩, fun e he => absurd he not_mem_nil⟩

section

variable (h : Intact codec segs files (init ++ [last]))
include h

theorem file_ne {b : Batch φ} (hb : b ∈ init) :
    b.file ≠ last.file := by
  intro hf
  have hbd := h.onDisk b (mem_append_left _ hb)
  have hld := h.onDisk last (mem_append_right _ (mem_singleton_self _))
  have hna : b.name = last.name := files.injective hbd.lookup (hf ▸ hld.lookup)
  have hn := h.nodup
  rw [map_append, nodup_append] at hn
  exact hn.2.2 _ (mem_map_of_mem hb) _ (by simp) hna

theorem append_last (bytes : Bytes) :
    (∀ b ∈ init, b.OnDisk codec (files.append last.file bytes) []) ∧
      (files.append last.file bytes).content last.file = last.data codec ++ bytes := by
  constructor
  · intro b hb
    have hbd := h.onDisk b (mem_append_left _ hb)
    refine ⟨hbd.lookup, ?_, hbd.torn, hbd.fits⟩
    rw [append, content_write_ne _ (h.file_ne hb)]
    exact hbd.content
  · have hld := h.onDisk last (mem_append_right _ (mem_singleton_self _))
    rw [append, content_write_self, hld.content, append_nil]

theorem add {ev : SpoolRecord φ} (hf : Fits codec ev) :
    Intact codec ((init ++ [last.add ev]).map (·.index codec))
      (files.append last.file (text codec ev ++ [newline])) (init ++ [last.add ev]) := by
  obtain ⟨hi, hl⟩ := h.append_last (text codec ev ++ [newline])
  have hld := h.onDisk last (mem_append_right _ (mem_singleton_self _))
  have hn : (init ++ [last.add ev]).map (·.name) = (init ++ [last]).map (·.name) := by
    simp [Batch.add]
  refine ⟨rfl, hn ▸ h.nodup, fun name hna => hn ▸ h.only name hna, ?_⟩
  intro b hb
  rcases mem_append.mp hb with hb | hb
  · exact hi b hb
  · rw [mem_singleton.mp hb]
    refine ⟨hld.lookup, ?_, hld.torn, ?_⟩
    · show (files.append last.file _).content last.file = _
      rw [hl]
      simp [Batch.data, Batch.add, joinLines]
    · intro e he
      rcases mem_append.mp he with he | he
      · exact hld.fits e he
      · rw [mem_singleton.mp he]
        exact hf

end

theorem append_nothing (h : Intact codec segs files batches) (file : Nat) :
    Intact codec segs (files.append file []) batches := by
  have hs : (files.append file []).content = files.content := by
    unfold append write
    rw [append_nil]
    exact Function.update_eq_self _ _
  refine ⟨h.index, h.nodup, h.only, ?_⟩
  intro b hb
  exact ⟨(h.onDisk b hb).lookup, hs ▸ (h.onDisk b hb).content, (h.onDisk b hb).torn,
    (h.onDisk b hb).fits⟩

/-! ### Commit and load -/

theorem advance (h : Intact codec segs files batches) (known : String → Bool) :
    Intact codec (segs.map fun seg =>
        { seg with committedCount := seg.committedCount + seg.advance known })
      files (batches.map (·.advance known)) := by
  have hn : (batches.map (·.advance known)).map (·.name) = batches.map (·.name) := by
    rw [map_map]
    rfl
  refine ⟨?_, hn ▸ h.nodup, fun name hna => hn ▸ h.only name hna, ?_⟩
  · rw [h.index, map_map, map_map]
    exact map_congr_left fun b _ => Batch.index_advance known b
  · intro b hb
    obtain ⟨c, hc, rfl⟩ := mem_map.mp hb
    exact ⟨(h.onDisk c hc).lookup, (h.onDisk c hc).content, (h.onDisk c hc).torn,
      (h.onDisk c hc).fits⟩

theorem filter_index {p : Segment → Bool} {q : Batch φ → Bool} (h : ∀ b, p (b.index codec) = q b) :
    (batches.map (·.index codec)).filter p = (batches.filter q).map (·.index codec) := by
  rw [filter_map]
  congr 2
  funext b
  exact h b

/-- Deleting the files of the segments that are full leaves the others as they were. -/
theorem removeFull (h : Intact codec segs files batches) :
    Intact codec (segs.filter (!·.full))
      ((segs.filter (·.full)).foldl (fun files seg => files.remove seg.name) files)
      (batches.filter (!·.full)) := by
  have hg : (segs.filter (·.full)).map (·.name) = (batches.filter (·.full)).map (·.name) := by
    rw [h.index, filter_index Batch.index_full, map_map]
    rfl
  have hs : ∀ b ∈ batches.filter (!·.full), b.name ∉ (segs.filter (·.full)).map (·.name) := by
    intro b hb hm
    rw [hg] at hm
    obtain ⟨c, hc, hn⟩ := mem_map.mp hm
    have hbc : c = b :=
      inj_on_of_nodup_map h.nodup (mem_filter.mp hc).1 (mem_filter.mp hb).1 hn
    have hf := (mem_filter.mp hc).2
    rw [hbc] at hf
    simpa [hf] using (mem_filter.mp hb).2
  refine ⟨?_, h.nodup.sublist (filter_sublist.map _), ?_, ?_⟩
  · rw [h.index]
    exact filter_index fun b => congrArg not (Batch.index_full b)
  · intro name hn
    rw [lookup_foldl_remove] at hn
    split at hn
    · cases hn
    next hno =>
        rw [hg] at hno
        obtain ⟨b, hb, rfl⟩ := mem_map.mp (h.only name hn)
        refine mem_map_of_mem (mem_filter.mpr ⟨hb, ?_⟩)
        by_contra hf
        exact hno (mem_map_of_mem (mem_filter.mpr ⟨hb, by simpa using hf⟩))
  · intro b hb
    have hbd := h.onDisk b (mem_filter.mp hb).1
    refine ⟨?_, ?_, hbd.torn, hbd.fits⟩
    · rw [lookup_foldl_remove, if_neg (hs b hb)]
      exact hbd.lookup
    · rw [content_foldl_remove]
      exact hbd.content

end Intact

/-- The ids of the batches' committed events. -/
def counted (batches : List (Batch φ)) : List String :=
  batches.flatMap fun b => (b.events.take b.count).map (·.eventID)

theorem committedIDs_index :
    FileSpool.committedIDs (batches.map (·.index codec)) = counted batches := by
  unfold FileSpool.committedIDs counted
  rw [flatMap_map]
  simp only [Batch.index, map_take]

theorem mark_spec (id : String) : ∀ ids committed : List String,
    (id ∈ (FileSpool.mark ids committed).1 ↔ id ∈ committed ∨ id ∈ ids) ∧
      (id ∈ (FileSpool.mark ids committed).2 ↔ id ∈ ids ∧ id ∉ committed) := by
  intro ids
  induction ids with
  | nil => intro committed; simp [FileSpool.mark]
  | cons x rest ih =>
    intro committed
    unfold FileSpool.mark
    by_cases hx : x ∈ committed
    · rw [if_pos hx]
      obtain ⟨h₁, h₂⟩ := ih committed
      rw [h₁, h₂]
      by_cases hid : id = x
      · simp [hid, hx]
      · simp [hid]
    · rw [if_neg hx]
      obtain ⟨h₁, h₂⟩ := ih (committed ++ [x])
      simp only [h₁, h₂, mem_cons, mem_append, not_mem_nil, or_false]
      by_cases hid : id = x
      · simp [hid, hx]
      · simp [hid]

theorem releaseAll_fst (known : String → Bool) : ∀ (segs : List Segment) (c : Counters),
    (FileSpool.releaseAll known segs c).1 = segs.map fun seg =>
      { seg with committedCount := seg.committedCount + seg.advance known } := by
  intro segs
  induction segs with
  | nil => intro c; rfl
  | cons seg rest ih =>
    intro c
    rw [map_cons, ← ih (FileSpool.release known seg c).2]
    rfl

theorem Intact.removeFullyCommitted (h : Intact codec s.segments dir.files batches) :
    Intact codec (s.removeFullyCommittedLocked dir).1.segments
        (s.removeFullyCommittedLocked dir).2.files (batches.filter (!·.full)) ∧
      (s.removeFullyCommittedLocked dir).1.closed = s.closed ∧
      (∀ id ∈ (s.removeFullyCommittedLocked dir).1.committed, id ∈ s.committed) ∧
      ((s.removeFullyCommittedLocked dir).2.committedLog = dir.committedLog ∨
        (s.removeFullyCommittedLocked dir).2.committedLog
          = some (logLines (counted (batches.filter (!·.full))))) := by
  have hk := h.removeFull
  unfold FileSpool.removeFullyCommittedLocked
  by_cases hn : s.segments.filter (·.full) = []
  · have hal : s.segments.filter (!·.full) = s.segments := by
      rw [filter_eq_self]
      intro seg hs
      simpa using filter_eq_nil_iff.mp hn seg hs
    rw [hn, hal] at hk
    simp only [if_pos hn]
    exact ⟨hk, trivial, fun id hid => hid, .inl trivial⟩
  · simp only [if_neg hn]
    refine ⟨hk, trivial, fun id hid => (mem_filter.mp hid).1, .inr ?_⟩
    rw [hk.index, committedIDs_index]

/-- What a commit that names something does: the counts move on to what is marked now,
what is full goes, and the log has the new ids at its end or is written anew. -/
theorem Intact.commit
    (h : Intact codec s.segments dir.files batches) {ids : List String} (hi : ids ≠ [])
    {marked added : List String} (hm : FileSpool.mark ids s.committed = (marked, added)) :
    Intact codec (s.commit ids dir).1.segments (s.commit ids dir).2.files
        (prune (fun id => decide (id ∈ marked)) batches) ∧
      (s.commit ids dir).1.closed = s.closed ∧
      (∀ id ∈ (s.commit ids dir).1.committed, id ∈ marked) ∧
      ((s.commit ids dir).2.committedLog = some (dir.committedLog.getD [] ++ logLines added) ∨
        (s.commit ids dir).2.committedLog
          = some (logLines (counted (prune (fun id => decide (id ∈ marked)) batches)))) := by
  have ha := h.advance fun id => decide (id ∈ marked)
  rw [← releaseAll_fst _ _ s.counters] at ha
  unfold FileSpool.commit
  rw [if_neg hi, hm]
  exact Intact.removeFullyCommitted ha

/-! ### New -/

theorem loadSegments_eq : ∀ {batches : List (Batch φ)} {files : Files},
    (batches.map (·.name)).Nodup → (∀ b ∈ batches, ∃ torn, b.OnDisk codec files torn) →
    ∃ files', FileSpool.loadSegments codec files (batches.map (·.name))
        = (.ok (batches.map (·.reset.index codec)), files') ∧
      files'.names = files.names ∧
      (∀ b ∈ batches, files'.content b.file = b.data codec) ∧
      ∀ file, (∀ b ∈ batches, b.file ≠ file) → files'.content file = files.content file := by
  intro batches
  induction batches with
  | nil => intro files _ _; exact ⟨files, rfl, rfl, nofun, fun _ _ => rfl⟩
  | cons b rest ih =>
    intro files hno hdisk
    rw [map_cons, nodup_cons] at hno
    obtain ⟨torn, hb⟩ := hdisk b mem_cons_self
    have hl := hb.loadSegment
    generalize hf : (if torn = [] then files else files.write b.file (b.data codec)) = repaired
      at hl
    have hna : repaired.names = files.names := by
      rw [← hf]
      split <;> rfl
    have hs : repaired.content b.file = b.data codec := by
      rw [← hf]
      split
      next hni => rw [hb.content, hni, append_nil]
      next => exact content_write_self ..
    have hot : ∀ file, file ≠ b.file → repaired.content file = files.content file := by
      intro file hne
      rw [← hf]
      split
      · rfl
      · exact content_write_ne _ hne _
    have hfi : ∀ c ∈ rest, c.file ≠ b.file := by
      intro c hc hcb
      obtain ⟨_, hcd⟩ := hdisk c (mem_cons_of_mem _ hc)
      have hnam : c.name = b.name := files.injective hcd.lookup (hcb ▸ hb.lookup)
      exact hno.1 (hnam ▸ mem_map_of_mem hc)
    have hr : ∀ c ∈ rest, ∃ torn, c.OnDisk codec repaired torn := by
      intro c hc
      obtain ⟨torn, hcd⟩ := hdisk c (mem_cons_of_mem _ hc)
      exact ⟨torn, hna ▸ hcd.lookup, (hot _ (hfi c hc)).trans hcd.content, hcd.torn, hcd.fits⟩
    obtain ⟨files', hse, hn, hc, ho⟩ := ih hno.2 hr
    refine ⟨files', ?_, hn.trans hna, ?_, ?_⟩
    · simp only [map_cons, FileSpool.loadSegments, hl, hse]
    · intro c hm
      rcases mem_cons.mp hm with rfl | hm
      · rw [ho _ hfi, hs]
      · exact hc c hm
    · intro file hne
      rw [ho file fun c hcr => hne c (mem_cons_of_mem _ hcr),
        hot file (Ne.symm (hne b mem_cons_self))]

section

variable {files : Files}
  (honly : ∀ name, (files.names.lookup name).isSome → name ∈ batches.map (·.name))
  (hdisk : ∀ b ∈ batches, ∃ torn, b.OnDisk codec files torn)

include honly hdisk

theorem list_batches (hs : (batches.map (·.name)).Pairwise (· < ·)) :
    files.list = batches.map (·.name) := by
  refine list_eq hs fun name => ⟨honly name, ?_⟩
  intro hn
  obtain ⟨b, hb, rfl⟩ := mem_map.mp hn
  obtain ⟨_, hbd⟩ := hdisk b hb
  rw [hbd.lookup]
  rfl

/-- Once what is torn is cut off, the files hold the batches with nothing counted yet. -/
theorem intact_reset {repaired : Files} (hno : (batches.map (·.name)).Nodup)
    (hn : repaired.names = files.names)
    (hco : ∀ b ∈ batches, repaired.content b.file = b.data codec) :
    Intact codec (batches.map (·.reset.index codec)) repaired (batches.map (·.reset)) := by
  have hr : (batches.map (·.reset)).map (·.name) = batches.map (·.name) := by
    rw [map_map]
    rfl
  refine ⟨by rw [map_map]; rfl, hr ▸ hno, ?_, ?_⟩
  · intro name hna
    rw [hr]
    exact honly name (hn ▸ hna)
  · intro b hb
    obtain ⟨c, hc, rfl⟩ := mem_map.mp hb
    obtain ⟨_, hcd⟩ := hdisk c hc
    exact ⟨hn ▸ hcd.lookup, by rw [append_nil]; exact hco c hc,
      ⟨not_mem_nil, .inl rfl⟩, hcd.fits⟩

end

/-- Files that hold batches, with torn lines behind them or without, are taken up again:
nothing is counted but what the log knows, and a spool with no batch left gets an empty
one. -/
theorem new_intact {dir : Dir} {batches : List (Batch φ)} (cfg : Config)
    (hso : (batches.map (·.name)).Pairwise (· < ·))
    (honly : ∀ name, (dir.files.names.lookup name).isSome → name ∈ batches.map (·.name))
    (hdisk : ∀ b ∈ batches, ∃ torn, b.OnDisk codec dir.files torn) :
    ∃ s dir' batches', FileSpool.new codec cfg dir = (.ok s, dir') ∧
      Intact codec s.segments dir'.files batches' ∧ s.closed = false ∧
      dir'.committedLog = dir.committedLog ∧
      s.committed = counted (prune (known dir.committedLog) (batches.map (·.reset))) ∧
      (batches' = prune (known dir.committedLog) (batches.map (·.reset)) ∨
        prune (known dir.committedLog) (batches.map (·.reset)) = [] ∧
          ∃ b : Batch φ, b.events = [] ∧ b.name = segmentName 1 ∧ batches' = [b]) := by
  have hno : (batches.map (·.name)).Nodup := hso.imp fun h => ne_of_lt h
  obtain ⟨files, hl, hnam, hco, _⟩ := loadSegments_eq hno hdisk
  have hi := intact_reset honly hdisk hno hnam hco
  have hp := (hi.advance (known dir.committedLog)).removeFull
  unfold FileSpool.new
  rw [list_batches honly hdisk hso, hl]
  simp only
  generalize ha : FileSpool.applyCommittedLog _ _ = r
  obtain ⟨s, dir'⟩ := r
  have hs : Intact codec s.segments dir'.files
    (prune (known dir.committedLog) (batches.map (·.reset)))
      ∧ s.closed = false ∧ dir'.committedLog = dir.committedLog ∧
      s.committed = counted (prune (known dir.committedLog) (batches.map (·.reset))) := by
    unfold FileSpool.applyCommittedLog FileSpool.rebuildStateLocked at ha
    obtain ⟨rfl, rfl⟩ := Prod.mk.inj ha
    refine ⟨hp, rfl, rfl, ?_⟩
    have hk := hp.index
    exact (congrArg FileSpool.committedIDs hk).trans committedIDs_index
  obtain ⟨hs, hcl, hlo, hc⟩ := hs
  by_cases hn : s.segments = []
  · have he : prune (known dir.committedLog) (batches.map (·.reset)) = [] := by
      simpa [hn] using hs.index
    obtain ⟨b, hb, hna, hr⟩ := hs.rotate (by rw [hn]; exact not_mem_nil)
    rw [he] at hr
    rw [hn] at hna
    simp only [if_pos hn]
    exact ⟨_, _, [b], rfl, hr, hcl, hlo, hc, .inr ⟨he, b, hb, hna, rfl⟩⟩
  · simp only [if_neg hn]
    exact ⟨s, dir', _, rfl, hs, hcl, hlo, hc, .inl rfl⟩

end LiteAIG.Spool
