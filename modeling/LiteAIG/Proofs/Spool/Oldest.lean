/-
The oldest events first.

`Pending` hands each segment what is left of the limit and compares that with all it has
collected, so what was collected is taken off twice.  A segment behind others is therefore
cut short while the limit still has room, and the loop goes on with the next one.  When
that happens is a matter of how the pending events are spread over the segments, and
`Spread` is the exact condition.

The rest shows that the pending events of the index are the uncommitted ones, if every
commit names the oldest of the backlog: then the counts of the segments say all there is
to say, and `committed.log` knows as much.
-/
import LiteAIG.Proofs.Spool.Runs

namespace LiteAIG.Spool

open Lib FileSpool List

open FileSpool (known)

variable {φ : Type} {codec : Codec φ}

/-! ### What the loop over the segments skips -/

/-- Each segment is cut short, if at all, where the limit is reached: `seen` events are
pending in the segments before. -/
def Spread (limit : Int) : Nat → List Nat → Prop
  | _, [] => True
  | seen, n :: rest =>
    ((seen : Int) < limit → min (n : Int) (limit - seen) ≤ max 1 (limit - 2 * seen)) ∧
      Spread limit (seen + n) rest

instance Spread.decidable (limit : Int) : ∀ (seen : Nat) (ns : List Nat),
    Decidable (Spread limit seen ns)
  | _, [] => isTrue trivial
  | seen, n :: rest => @instDecidableAnd _ _ _ (Spread.decidable limit (seen + n) rest)

theorem spread_of_le {limit : Int} :
    ∀ (ns : List Nat) {seen : Nat}, limit ≤ seen → Spread limit seen ns := by
  intro ns
  induction ns with
  | nil => intro seen _; trivial
  | cons n rest ih =>
    intro seen h
    exact ⟨fun hlt => absurd hlt (not_lt.mpr h), ih (by omega)⟩

section

variable {α : Type*} {limit : Int}

theorem gather_of_le {out : List α} (h : limit ≤ (out.length : Int)) :
    ∀ todos : List (List α), gather limit todos out = out := by
  intro todos
  cases todos with
  | nil => rfl
  | cons todo rest => rw [gather, if_pos h]

theorem gather_from (limit : Int) : ∀ (todos : List (List α)) (out : List α),
    ∃ more, gather limit todos out = out ++ more ∧ ∀ x ∈ more, x ∈ todos.flatten := by
  intro todos
  induction todos with
  | nil => intro out; exact ⟨[], (append_nil _).symm, nofun⟩
  | cons todo rest ih =>
    intro out
    by_cases hl : limit ≤ (out.length : Int)
    · exact ⟨[], by rw [gather_of_le hl, append_nil], nofun⟩
    · obtain ⟨more, hm, hme⟩ :=
        ih (out ++ todo.take (max 1 (limit - out.length - out.length)).toNat)
      rw [gather, if_neg hl, hm, append_assoc]
      refine ⟨_, rfl, ?_⟩
      intro x hx
      rw [flatten_cons, mem_append]
      exact (mem_append.mp hx).imp mem_of_mem_take (hme x)

/-- A segment that is cut short before the limit is reached is noticed. -/
theorem gather_short {todo : List α} {rest : List (List α)} {out : List α} {n m : Nat}
    (hno : (todo ++ rest.flatten).Nodup) (hl : n < todo.length) (hli : n < m) :
    gather limit rest (out ++ todo.take n) ≠ out ++ (todo ++ rest.flatten).take m := by
  intro heq
  obtain ⟨more, hm, hme⟩ := gather_from limit rest (out ++ todo.take n)
  rw [hm, append_assoc] at heq
  have hs := append_cancel_left heq
  have hget : more[0]? = some todo[n] := by
    have hn := congrArg (·[n]?) hs
    simp only [List.getElem?_take_of_lt hli, List.getElem?_append_left hl,
      List.getElem?_eq_getElem hl] at hn
    rw [← hn, List.getElem?_append_right (by simp)]
    simp [Nat.min_eq_left hl.le]
  have hx : todo[n] ∈ more := mem_of_getElem? hget
  exact (nodup_append.mp hno).2.2 _ (getElem_mem hl) _ (hme _ hx) rfl

/-- The loop collects the first of all there are, up to the limit, exactly if these are
spread so. -/
theorem gather_eq_take_iff (limit : Int) : ∀ {todos : List (List α)}, todos.flatten.Nodup →
    ∀ out : List α,
    (gather limit todos out = out ++ todos.flatten.take (limit - out.length).toNat ↔
      Spread limit out.length (todos.map List.length)) := by
  intro todos
  induction todos with
  | nil => intro _ out; simp [gather, Spread]
  | cons todo rest ih =>
    intro hno out
    rw [flatten_cons] at hno
    have hr := (nodup_append.mp hno).2.1
    by_cases hl : limit ≤ (out.length : Int)
    · have hz : (limit - out.length).toNat = 0 := by omega
      rw [gather_of_le hl, hz, take_zero, append_nil]
      exact iff_of_true rfl (spread_of_le _ hl)
    rw [gather, if_neg hl, flatten_cons, map_cons, Spread]
    generalize hn : (max 1 (limit - out.length - out.length)).toNat = n
    by_cases hal : todo.length ≤ n
    · -- The whole segment is taken, and the question is about the rest.
      have hf : min (todo.length : Int) (limit - out.length) ≤ max 1 (limit - 2 * out.length) := by
        omega
      have hs : (todo ++ rest.flatten).take (limit - out.length).toNat
          = todo ++ rest.flatten.take (limit - ((out ++ todo).length : Nat)).toNat := by
        have hle : todo.length ≤ (limit - out.length).toNat := by omega
        have hsu : (limit - ((out ++ todo).length : Nat)).toNat
            = (limit - out.length).toNat - todo.length := by
          rw [length_append]
          omega
        rw [take_append, take_of_length_le hle, hsu]
      rw [take_of_length_le hal, hs, ← append_assoc, ih hr, length_append]
      exact (and_iff_right fun _ => hf).symm
    · by_cases hre : (limit - out.length).toNat ≤ n
      · -- The limit is reached within the segment.
        have hsa : n = (limit - out.length).toNat := by omega
        have hlen : limit ≤ ((out ++ todo.take n).length : Int) := by
          rw [length_append, length_take]
          omega
        rw [gather_of_le hlen, hsa, take_append_of_le_length (by omega)]
        refine iff_of_true rfl ⟨fun _ => by omega, spread_of_le _ (by omega)⟩
      · refine iff_of_false (gather_short hno (by omega) (by omega)) ?_
        rintro ⟨hf, _⟩
        have := hf (by omega)
        omega

end

/-! ### What is pending is what was not named -/

section

variable (known : String → Bool) (batches : List (Batch φ))

theorem not_of_mem_dropWhile {α : Type*} {p : α → Bool} {l : List α}
    (hp : l.Pairwise (fun x y => p y = true → p x = true)) : ∀ e ∈ l.dropWhile p, p e = false := by
  have hd := hp.sublist (dropWhile_sublist p)
  cases hl : l.dropWhile p with
  | nil => simp
  | cons x rest =>
    have hx : p x = false := by
      simpa [hl] using head_dropWhile_not p (l := l) (by simp [hl])
    rw [hl, pairwise_cons] at hd
    intro e he
    rcases mem_cons.mp he with rfl | he
    · exact hx
    · by_contra hne
      exact absurd (hd.1 e he (by simpa using hne)) (by simp [hx])

theorem Batch.pending_advance (b : Batch φ) :
    (b.advance known).pending = b.pending.dropWhile fun e => known e.eventID := by
  show b.events.drop (b.count + _) = _
  rw [← drop_drop]
  show b.pending.drop _ = _
  nth_rewrite 2 [← takeWhile_append_dropWhile (l := b.pending) (p := fun e => known e.eventID)]
  exact drop_left' rfl

theorem pending_notFull :
    (batches.filter (!·.full)).flatMap (·.pending) = batches.flatMap (·.pending) := by
  refine flatMap_filter fun b _ hf => ?_
  have hc : b.count = b.events.length := by
    simpa using (Bool.and_eq_true_iff.mp (show b.full = true by simpa using hf)).2
  rw [Batch.pending, hc, drop_length]

theorem pending_prune :
    (prune known batches).flatMap (·.pending)
      = batches.flatMap fun b => b.pending.dropWhile fun e => known e.eventID := by
  unfold prune
  rw [pending_notFull, flatMap_map]
  exact flatMap_congr fun b _ => b.pending_advance known

end

/-- A tracked spool whose pending events are those that no commit named, and whose log knows
all that is counted. -/
structure Exact (codec : Codec φ) (accepted : List (SpoolRecord φ)) (named : List String)
    (s : FileSpool) (dir : Dir) (batches : List (Batch φ)) : Prop extends
    Tracks codec accepted named s dir batches where
  pending : ∀ e ∈ batches.flatMap (·.pending), e.eventID ∉ named
  logged : ∀ id ∈ Spool.counted batches, known dir.committedLog id = true
  distinct : (accepted.map (·.eventID)).Nodup
  appended : ∀ id ∈ named, id ∈ accepted.map (·.eventID)
  nonempty : "" ∉ named

namespace Exact

variable {acc : List (SpoolRecord φ)} {named : List String} {s : FileSpool} {dir : Dir}
  {batches : List (Batch φ)}

theorem pending_eq (h : Exact codec acc named s dir batches) :
    batches.flatMap (·.pending) = acc.filter (unnamed named) := by
  rw [← h.kept.kept, filter_flatMap]
  apply flatMap_congr
  intro b hb
  rw [World.filter_events fun e he => h.counted _ (mem_counted.mpr ⟨b, hb, e, he, rfl⟩)]
  symm
  rw [filter_eq_self]
  intro e he
  simpa [unnamed] using h.pending e (mem_flatMap.mpr ⟨b, hb, he⟩)

variable {s' : FileSpool} {dir' : Dir} {batches' : List (Batch φ)} {ids : List String}

section

variable (h : Exact codec acc named s dir batches)

include h

theorem append {ev : SpoolRecord φ} (hf : ev.eventID ∉ acc.map (·.eventID))
    (ht : Tracks codec (acc ++ [ev]) named s' dir' batches') (hg : Grown batches batches' [ev])
    (hl : dir'.committedLog = dir.committedLog) :
    Exact codec (acc ++ [ev]) named s' dir' batches' where
  toTracks := ht
  pending := by
    intro e he
    rw [hg.1] at he
    rcases mem_append.mp he with he | he
    · exact h.pending e he
    · rw [mem_singleton.mp he]
      exact fun hn => hf (h.appended _ hn)
  logged := by
    rw [hg.2, hl]
    exact h.logged
  distinct := by
    rw [map_append, map_singleton, nodup_append]
    refine ⟨h.distinct, by simp, ?_⟩
    intro a ha b hb hab
    rw [mem_singleton.mp hb] at hab
    exact hf (hab ▸ ha)
  appended := by
    intro id hid
    rw [map_append]
    exact mem_append_left _ (h.appended id hid)
  nonempty := h.nonempty

/-- Batches that hold the same, with nothing new pending or counted. -/
theorem same (ht : Tracks codec acc named s' dir' batches') (hg : Grown batches batches' [])
    (hl : dir'.committedLog = dir.committedLog) :
    Exact codec acc named s' dir' batches' where
  toTracks := ht
  pending := by
    rw [hg.1, append_nil]
    exact h.pending
  logged := by
    rw [hg.2, hl]
    exact h.logged
  distinct := h.distinct
  appended := h.appended
  nonempty := h.nonempty

/-- The oldest of the backlog come before the others, in each batch. -/
theorem pairwise_oldest (hi : ids <+: (acc.filter (unnamed named)).map (·.eventID)) :
    (batches.flatMap (·.pending)).Pairwise fun x y => y.eventID ∈ ids → x.eventID ∈ ids := by
  rw [h.pending_eq]
  generalize hb : acc.filter (unnamed named) = backlog at hi
  have hd : (backlog.map (·.eventID)).Nodup := by
    rw [← hb]
    exact h.distinct.sublist (filter_sublist.map _)
  obtain ⟨rest, hr⟩ := hi
  obtain ⟨front, back, rfl, rfl, rfl⟩ := map_eq_append_iff.mp hr.symm
  rw [map_append, nodup_append] at hd
  rw [pairwise_append]
  refine ⟨?_, ?_, ?_⟩
  · exact pairwise_of_forall_mem_list fun x hx y _ _ => mem_map_of_mem hx
  · refine pairwise_of_forall_mem_list fun x _ y hy hm => ?_
    exact absurd rfl (hd.2.2 _ hm _ (mem_map_of_mem hy))
  · intro x hx y _ _
    exact mem_map_of_mem hx

theorem logged_commit (hne : ids ≠ []) (hp : ∀ id ∈ named ++ ids, newline ∉ utf8 id)
    (hn : ∀ id ∈ named ++ ids, utf8 id ≠ []) {id : String}
    (hid : id ∈ Spool.counted (prune (fun id => decide (id ∈ (mark ids s.committed).1)) batches))
    (hna : ∀ id ∈ Spool.counted (prune (fun id => decide (id ∈ (mark ids s.committed).1)) batches),
      id ∈ named ++ ids) :
    known (s.commit ids dir).2.committedLog id = true := by
  obtain ⟨_, _, _, hlo⟩ := h.intact.commit hne rfl
  rcases hlo with hlo | hlo
  · obtain ⟨old, hold, ho⟩ := h.kept.log
    have hl : (s.commit ids dir).2.committedLog.getD []
        = logLines (old ++ (mark ids s.committed).2) := by
      rw [hlo, Option.getD_some, hold, logLines, logLines, logLines, map_append,
        joinLines_append]
    have hal : ∀ x ∈ old ++ (mark ids s.committed).2, x ∈ named ++ ids := by
      intro x hx
      rcases mem_append.mp hx with hx | hx
      · exact mem_append_left _ (ho x hx)
      · exact mem_append_right _ ((mark_spec x ids s.committed).2.mp hx).1
    rw [known_logLines hl fun x hx => hp x (hal x hx)]
    refine ⟨?_, hn id (hna id hid)⟩
    rcases counted_advance (counted_filter hid) with hco | ⟨hm, e, he, rfl⟩
    · have hk := h.logged id hco
      rw [known_logLines hold fun x hx => h.kept.plain x (ho x hx)] at hk
      exact mem_append_left _ hk.1
    · have hf : e.eventID ∉ s.committed := fun hc => h.pending e he (h.committed _ hc)
      have hme := ((mark_spec e.eventID ids s.committed).1.mp (of_decide_eq_true hm)).resolve_left
        hf
      exact mem_append_right _ ((mark_spec e.eventID ids s.committed).2.mpr ⟨hme, hf⟩)
  · have hl : (s.commit ids dir).2.committedLog.getD [] = logLines (Spool.counted
        (prune (fun id => decide (id ∈ (mark ids s.committed).1)) batches)) := by
      rw [hlo, Option.getD_some]
    rw [known_logLines hl fun x hx => hp x (hna x hx)]
    exact ⟨hid, hn id (hna id hid)⟩

theorem commit (hne : ids ≠ []) (hp : ∀ id ∈ ids, newline ∉ utf8 id) (hn : "" ∉ ids)
    (hi : ids <+: (acc.filter (unnamed named)).map (·.eventID)) :
    Exact codec acc (named ++ ids) (s.commit ids dir).1 (s.commit ids dir).2
      (prune (fun id => decide (id ∈ (mark ids s.committed).1)) batches) := by
  have ht := h.toTracks.commit hne hp
  have hs := fun id => mark_spec id ids s.committed
  -- Of the pending events, the marked ones are those that are named now.
  have hm : ∀ e ∈ batches.flatMap (·.pending),
      (e.eventID ∈ (mark ids s.committed).1 ↔ e.eventID ∈ ids) := by
    intro e he
    rw [(hs e.eventID).1]
    exact or_iff_right fun hc => h.pending e he (h.committed _ hc)
  refine ⟨ht, ?_, ?_, h.distinct, ?_, ?_⟩
  · intro e he
    rw [pending_prune] at he
    obtain ⟨b, hb, heb⟩ := mem_flatMap.mp he
    have hme : ∀ x ∈ b.pending, x ∈ batches.flatMap (·.pending) :=
      fun x hx => mem_flatMap.mpr ⟨b, hb, hx⟩
    have hep : e ∈ b.pending := (dropWhile_sublist _).subset heb
    have hpa : b.pending.Pairwise fun x y =>
        decide (y.eventID ∈ (mark ids s.committed).1) = true →
          decide (x.eventID ∈ (mark ids s.committed).1) = true := by
      have hb' := (pairwise_flatMap.mp (h.pairwise_oldest hi)).1 b hb
      refine hb'.imp_of_mem ?_
      intro x y hx hy hxy
      simp only [decide_eq_true_eq]
      rw [hm x (hme x hx), hm y (hme y hy)]
      exact hxy
    have hno := of_decide_eq_false (not_of_mem_dropWhile hpa e heb)
    rw [hm e (hme e hep)] at hno
    rw [mem_append, not_or]
    exact ⟨h.pending e (hme e hep), hno⟩
  · have hne' : ∀ id ∈ named ++ ids, utf8 id ≠ [] := by
      intro id hid hni
      have hem : id = "" := utf8_injective hni
      rcases mem_append.mp hid with hid | hid
      · exact h.nonempty (hem ▸ hid)
      · exact hn (hem ▸ hid)
    exact fun id hid => h.logged_commit hne ht.kept.plain hne' hid ht.counted
  · intro id hid
    rcases mem_append.mp hid with hid | hid
    · exact h.appended id hid
    · obtain ⟨e, he, rfl⟩ := mem_map.mp (hi.subset hid)
      exact mem_map_of_mem (mem_filter.mp he).1
  · rw [mem_append, not_or]
    exact ⟨h.nonempty, hn⟩

theorem dropWhile_known {b : Batch φ} (hb : b ∈ batches) :
    (b.events.dropWhile fun e => known dir.committedLog e.eventID) = b.pending := by
  have hf : ∀ e ∈ b.events.take b.count, known dir.committedLog e.eventID = true :=
    fun e he => h.logged _ (mem_counted.mpr ⟨b, hb, e, he, rfl⟩)
  have hba : ∀ e ∈ b.pending, ¬ known dir.committedLog e.eventID = true :=
    fun e he hk => h.pending e (mem_flatMap.mpr ⟨b, hb, he⟩) (h.kept.known hk)
  rw [← take_append_drop b.count b.events, dropWhile_append_of_pos hf]
  show b.pending.dropWhile _ = b.pending
  cases hp : b.pending with
  | nil => rfl
  | cons e rest =>
    rw [hp] at hba
    exact dropWhile_cons_of_neg (hba e mem_cons_self)

theorem reopen (ht : Tracks codec acc named s' dir' batches')
    (hg : Grown (prune (known dir.committedLog) (batches.map (·.reset))) batches' [])
    (hl : dir'.committedLog = dir.committedLog) :
    Exact codec acc named s' dir' batches' where
  toTracks := ht
  pending := by
    have hs : batches'.flatMap (·.pending) = batches.flatMap (·.pending) := by
      rw [hg.1, append_nil, pending_prune, flatMap_map]
      exact flatMap_congr fun b hb => h.dropWhile_known hb
    rw [hs]
    exact h.pending
  logged := by
    intro id hid
    rw [hg.2] at hid
    rcases counted_advance (counted_filter hid) with hc | ⟨hk, _⟩
    · rw [counted_reset] at hc
      cases hc
    · rwa [hl]
  distinct := h.distinct
  appended := h.appended
  nonempty := h.nonempty

end

end Exact

/-! ### Whole runs -/

/-- Event ids are distinct, and a commit names the oldest of the backlog.  An empty id is not
committed: `committed.log` cannot tell it from no id. -/
def World.Oldest (w : World φ) : Op φ → Prop
  | .append _ event => event.eventID ∉ w.accepted.map (·.eventID)
  | .commit ids => ids <+: w.backlog.map (·.eventID) ∧ "" ∉ ids
  | .pending _ | .reopen => True

instance (w : World φ) : ∀ op : Op φ, Decidable (w.Oldest op)
  | .append .. => inferInstanceAs (Decidable (_ ∉ _))
  | .commit _ => inferInstanceAs (Decidable (_ <+: _ ∧ _ ∉ _))
  | .pending _ | .reopen => isTrue trivial

namespace World

def IsExact (codec : Codec φ) (w : World φ) : Prop :=
  ∃ s batches, w.spool = .ok s ∧ Exact codec w.accepted w.named s w.dir batches

theorem start_exact (cfg : Config) : (start codec cfg).IsExact codec := by
  obtain ⟨s, dir, batches, _, hs, ht, ⟨hp, hc⟩, _⟩ := start_tracks
  rw [hs]
  refine ⟨s, batches, rfl, ht, ?_, ?_, nodup_nil, nofun, not_mem_nil⟩
  · rw [hp]
    nofun
  · rw [hc]
    nofun

theorem step_exact (cfg : Config) (w : World φ) (op : Op φ) (h : w.IsExact codec)
    (hop : (op.Clean ∧ w.Regular codec op) ∧ w.Oldest op) :
      (w.step codec cfg op).IsExact codec := by
  obtain ⟨s, batches, hs, he⟩ := h
  obtain ⟨⟨hc, hr⟩, ho⟩ := hop
  unfold Regular at hr
  rw [hs] at hr
  cases op with
  | append out ev =>
    rcases he.toTracks.append hc.harmless hr with
      ⟨s', dir', b, heq, hb, hg, hl⟩ | ⟨e, s', dir', b, heq, hb, hg, hl⟩
    · rw [step_append hs heq]
      exact ⟨s', b, rfl, he.append ho hb hg hl⟩
    · rw [step_append hs heq]
      exact ⟨s', b, rfl, he.same hb hg hl⟩
  | commit ids =>
    rw [step_commit hs]
    by_cases hne : ids = []
    · subst hne
      refine ⟨s, batches, rfl, ?_⟩
      rw [append_nil]
      exact he
    · have hi : ids <+: (w.accepted.filter (unnamed w.named)).map (·.eventID) := by
        have := ho.1
        rw [backlog, map_map] at this
        exact this
      exact ⟨_, _, rfl, he.commit hne hr ho.2 hi⟩
  | pending limit =>
    rw [step_pending]
    exact ⟨s, batches, hs, he⟩
  | reopen =>
    obtain ⟨s', dir', b, heq, hb, hg, hl⟩ := he.left.reopen cfg hr
    rw [step_reopen hs heq]
    exact ⟨s', b, rfl, he.reopen hb hg hl⟩

theorem IsExact.pending_iff {w : World φ} (h : w.IsExact codec) (limit : Int) :
    w.pending codec limit = .ok (w.backlog.take limit.toNat) ↔
      Spread limit 0 (w.segments.map fun seg => seg.ids.length - seg.committedCount) := by
  obtain ⟨s, batches, hs, hex⟩ := h
  have ht : batches.map (todo s.committed) = batches.map fun b => b.pending.map (·.bare) := by
    apply map_congr_left
    intro b hb
    unfold todo
    rw [filter_eq_self.mpr]
    intro e he
    have hno := hex.pending e (mem_flatMap.mpr ⟨b, hb, he⟩)
    simpa using fun hc => hno (hex.committed _ hc)
  have hf : (batches.map (todo s.committed)).flatten = w.backlog := by
    rw [ht, ← flatMap_def, ← map_flatMap, hex.pending_eq]
    rfl
  have hn : (batches.map (todo s.committed)).flatten.Nodup := by
    rw [hf, backlog]
    have hi := hex.distinct.sublist
      ((filter_sublist (p := unnamed w.named) (l := w.accepted)).map (·.eventID))
    refine List.Nodup.of_map (·.eventID) ?_
    rw [map_map]
    exact hi
  have hco : (w.segments.map fun seg => seg.ids.length - seg.committedCount)
      = (batches.map (todo s.committed)).map List.length := by
    rw [segments, hs]
    show s.segments.map _ = _
    rw [ht, hex.intact.index, map_map, map_map]
    apply map_congr_left
    intro b _
    simp [Batch.index, Batch.pending]
  have hp : w.pending codec limit = .ok (gather limit (batches.map (todo s.committed)) []) := by
    rw [pending, hs]
    exact hex.intact.pending_eq hex.opened limit
  have hif := gather_eq_take_iff limit hn []
  rw [hp, hco, ← hf, Except.ok.injEq]
  simpa using hif

/-- **`Pending` returns the oldest of the backlog, up to the limit, exactly if** no segment
has to give more than one event and more than the limit less twice what is pending in the
segments before it. -/
theorem oldest_first_iff (codec : Codec φ) (config : Config) (ops : List (Op φ))
    (hclean : ∀ op ∈ ops, op.Clean)
    (hregular : Allowed (step codec config) (Regular codec) (start codec config) ops)
    (holdest : Allowed (step codec config) Oldest (start codec config) ops) (limit : Int) :
    (run (step codec config) (start codec config) ops).pending codec limit
        = .ok ((run (step codec config) (start codec config) ops).backlog.take limit.toNat) ↔
      Spread limit 0 ((run (step codec config) (start codec config) ops).segments.map
        fun seg => seg.ids.length - seg.committedCount) := by
  have hc : Allowed (step codec config) (fun _ op => op.Clean) (start codec config) ops :=
    allowed_of_mem _ _ fun op hop _ => hclean op hop
  have hal := allowed_and.mpr ⟨allowed_and.mpr ⟨hc, hregular⟩, holdest⟩
  exact (hal.invariant (step_exact config) ops _ (start_exact config)).pending_iff limit

end World

/-- Six events in three segments. -/
def sixEvents : List (Op Unit) :=
  [.append .done (letter "a"), .append .done (letter "b"), .append .done (letter "c"),
    .append .done (letter "d"), .append .done (letter "e"), .append .done (letter "f")]

theorem oldest_three_of_six :
    (run (World.step letters ⟨8, 1⟩) (World.start letters ⟨8, 1⟩) sixEvents).pending letters 3
      = .ok ((run (World.step letters ⟨8, 1⟩) (World.start letters ⟨8, 1⟩)
        sixEvents).backlog.take (3 : Int).toNat) :=
  (World.oldest_first_iff letters ⟨8, 1⟩ sixEvents (by decide) (by decide +kernel)
    (by decide +kernel) 3).mpr (by decide +kernel)

/-- The second segment has two events and gives one, since two of the five asked for are taken
off twice.  The third segment's first event is returned and the second's last is not. -/
theorem fourth_event_skipped :
    (run (World.step letters ⟨8, 1⟩) (World.start letters ⟨8, 1⟩) sixEvents).pending letters 5
        = .ok [letter "a", letter "b", letter "c", letter "e"] ∧
      (run (World.step letters ⟨8, 1⟩) (World.start letters ⟨8, 1⟩) sixEvents).pending letters 5
        ≠ .ok ((run (World.step letters ⟨8, 1⟩) (World.start letters ⟨8, 1⟩)
          sixEvents).backlog.take (5 : Int).toNat) := by
  decide +kernel

end LiteAIG.Spool
