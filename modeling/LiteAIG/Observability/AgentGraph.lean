/-
The call graph of agents and tasks, from request records and from spans.

Both reconstructions take the root task of the first entry that has one, and make a hop of
each entry of that root whose key is new.  The key is the task; a record without a task
has its request as the key, a span without one has the empty task.
-/
import LiteAIG.Lib.Lists

namespace LiteAIG.Observability

structure RequestRecord where
  (requestID tenantID taskID rootTaskID parentTaskID agentID logicalModel outcome : String)
  providerCost : Option ℚ

structure SpanAttributes where
  (taskID rootTaskID parentTaskID agentID model : String)

/-- The attributes of the record's span, by which its root task is found. -/
def RequestRecord.span (r : RequestRecord) : SpanAttributes :=
  ⟨r.taskID, r.rootTaskID, r.parentTaskID, r.agentID, r.logicalModel⟩

structure Hop where
  order : Nat
  (agentID model : String)
  cost : ℚ
  outcome : String

structure Graph where
  (tenantID rootTask : String)
  hops : List Hop

/-- The loops' state: the graph and the keys of its hops. -/
structure Walk extends Graph where
  seen : List String

def Walk.start (tenantID : String) : Walk := ⟨⟨tenantID, "", []⟩, []⟩

def SpanAttributes.root (span : SpanAttributes) : String :=
  if span.rootTaskID = "" then span.taskID else span.rootTaskID

/-- What both loops do with an entry.  The hops are made in their order, so that sorting them
changes nothing. -/
def Walk.visit (w : Walk) (root key : String) (hop : Nat → Hop) : Walk :=
  if root = "" ∨ w.rootTask ≠ "" ∧ w.rootTask ≠ root then w
  else if key ∈ w.seen then { w with rootTask := root }
  else
    { w with
      rootTask := root
      hops := w.hops ++ [hop (w.hops.length + 1)]
      seen := key :: w.seen }

def costValue (request : RequestRecord) : ℚ := request.providerCost.getD 0

def RequestRecord.hopKey (request : RequestRecord) : String :=
  if request.taskID = "" then request.requestID else request.taskID

def Walk.record (tenantID : String) (w : Walk) (request : RequestRecord) : Walk :=
  if request.tenantID ≠ tenantID then w
  else w.visit request.span.root request.hopKey
    (⟨·, request.agentID, request.logicalModel, costValue request, request.outcome⟩)

def build (tenantID : String) (requests : List RequestRecord) : Graph :=
  (requests.foldl (Walk.record tenantID) (.start tenantID)).toGraph

def Walk.span (w : Walk) (span : SpanAttributes) : Walk :=
  w.visit span.root span.taskID (⟨·, span.agentID, span.model, 0, ""⟩)

/-- What `sameChain` compares of the hops. -/
def Graph.callers (g : Graph) : List (String × String) := g.hops.map fun h => (h.agentID, h.model)

/-- The record is of the graph's root task. -/
def Graph.Has (g : Graph) (r : RequestRecord) : Prop := r.span.root ≠ "" ∧ r.span.root = g.rootTask
  deriving Decidable

/-- The records of the graph that have no task. -/
def Graph.taskless (g : Graph) (requests : List RequestRecord) : Nat :=
  requests.countP fun r => g.Has r ∧ r.taskID = ""

/-- A request has an id of its own, which is no task's. -/
structure OwnIDs (requests : List RequestRecord) : Prop where
  unique : (requests.map (·.requestID)).Nodup
  apart : ∀ r ∈ requests, ∀ r' ∈ requests, r.requestID ≠ r'.taskID

/-- The two walks after the same records: of those without a task, the first has each as a hop
and the second the first one. -/
structure Walk.Alike (past : List RequestRecord) (w w' : Walk) : Prop where
  root : w.rootTask = w'.rootTask
  unrooted : w.rootTask = "" → ∀ r ∈ past, r.span.root = ""
  seen : ∀ key, key ∈ w.seen ↔ ∃ r ∈ past, w.Has r ∧ r.hopKey = key
  seen' : ∀ key, key ∈ w'.seen ↔ ∃ r ∈ past, w.Has r ∧ r.taskID = key
  hops : w.callers.length + min (w.taskless past) 1 = w'.callers.length + w.taskless past
  callers : w.taskless past ≤ 1 → w.callers = w'.callers

section

variable {tenantID : String} {past : List RequestRecord} {r : RequestRecord} {w w' : Walk}

/-- The key of a record is a past one's exactly if its task is, unless it has none. -/
theorem OwnIDs.hopKey_iff (h : OwnIDs (past ++ [r])) (hw : w.Alike past w') :
    r.hopKey ∈ w.seen ↔ r.taskID ≠ "" ∧ r.taskID ∈ w'.seen := by
  have hnodup := h.unique
  rw [List.map_append, List.nodup_append] at hnodup
  rw [hw.seen, hw.seen', ← exists_and_left]
  refine exists_congr fun r' => ?_
  constructor
  · rintro ⟨hr', hhas, hkey⟩
    have hown := hnodup.2.2 _ (List.mem_map_of_mem hr') r.requestID (by simp)
    have h₁ := h.apart r' (by simp [hr']) r (by simp)
    have h₂ := h.apart r (by simp) r' (by simp [hr'])
    unfold RequestRecord.hopKey at hkey
    split_ifs at hkey with h₃ h₄ h₄
    · exact absurd hkey hown
    · exact absurd hkey h₁
    · exact absurd hkey.symm h₂
    · exact ⟨h₄, hr', hhas, hkey⟩
  · rintro ⟨hn, hr', hhas, hkey⟩
    refine ⟨hr', hhas, ?_⟩
    rw [RequestRecord.hopKey, RequestRecord.hopKey, hkey, if_neg hn, if_neg hn]

/-- An entry of another root, or of none, is left out. -/
theorem Walk.Alike.skip (hw : w.Alike past w') (hr : ¬ w.Has r) (hroot : w.rootTask = "" →
    r.span.root = "") : w.Alike (past ++ [r]) w' := by
  have hcount : w.taskless (past ++ [r]) = w.taskless past := by simp [Graph.taskless, hr]
  refine ⟨hw.root, fun h r' hr' => ?_, ?_, ?_, hcount ▸ hw.hops, hcount ▸ hw.callers⟩
  · rcases List.mem_append.mp hr' with hold | hnew
    · exact hw.unrooted h r' hold
    · rw [List.mem_singleton.mp hnew]
      exact hroot h
  · simpa [or_and_right, exists_or, hr] using hw.seen
  · simpa [or_and_right, exists_or, hr] using hw.seen'

/-- What an entry of the root does: it is a hop unless its key was seen. -/
theorem Walk.visit_eq {root : String} (key : String) (hop : Nat → Hop) (caller : String × String)
    (hroot : ¬ (root = "" ∨ w.rootTask ≠ "" ∧ w.rootTask ≠ root))
    (hcaller : ∀ n, ((hop n).agentID, (hop n).model) = caller) :
    (w.visit root key hop).rootTask = root ∧
      (w.visit root key hop).callers = w.callers ++ (if key ∈ w.seen then [] else [caller]) ∧
      ∀ k, k ∈ (w.visit root key hop).seen ↔ k ∈ w.seen ∨ k = key := by
  unfold Walk.visit
  rw [if_neg hroot]
  by_cases hseen : key ∈ w.seen
  · simp only [if_pos hseen, List.append_nil]
    exact ⟨trivial, rfl, fun k => ⟨.inl, fun h => h.elim id fun h => h ▸ hseen⟩⟩
  · simp only [if_neg hseen]
    refine ⟨trivial, ?_, fun k => List.mem_cons.trans or_comm⟩
    simp [Graph.callers, hcaller]

/-- The records so far are of the root as before. -/
theorem Walk.Alike.has_iff (hw : w.Alike past w') {W : Walk}
    (hroot : ¬ (r.span.root = "" ∨ w.rootTask ≠ "" ∧ w.rootTask ≠ r.span.root))
    (hW : W.rootTask = r.span.root) : ∀ r' ∈ past, (W.Has r' ↔ w.Has r') := by
  intro r' hr'
  have hun := fun he => hw.unrooted he r' hr'
  unfold Graph.Has
  rw [hW]
  grind

theorem Walk.Alike.step (hw : w.Alike past w') (h : OwnIDs (past ++ [r]))
    (ht : r.tenantID = tenantID) :
    (w.record tenantID r).Alike (past ++ [r]) (w'.span r.span) := by
  unfold Walk.record Walk.span
  rw [if_neg (not_not.mpr ht)]
  by_cases hroot : r.span.root = "" ∨ w.rootTask ≠ "" ∧ w.rootTask ≠ r.span.root
  · rw [Walk.visit, Walk.visit, ← hw.root, if_pos hroot, if_pos hroot]
    refine hw.skip (fun hhas => ?_) fun he => hroot.resolve_right fun hn => hn.1 he
    exact hroot.elim hhas.1 fun hn => hn.2 hhas.2.symm
  · obtain ⟨hR, hcallers, hseen⟩ := w.visit_eq r.hopKey
      (⟨·, r.agentID, r.logicalModel, costValue r, r.outcome⟩) (r.agentID, r.logicalModel) hroot
      fun _ => rfl
    obtain ⟨hR', hcallers', hseen'⟩ := w'.visit_eq r.span.taskID
      (⟨·, r.span.agentID, r.span.model, 0, ""⟩) (r.agentID, r.logicalModel) (hw.root ▸ hroot)
      fun _ => rfl
    have hkey := h.hopKey_iff hw
    generalize w.visit r.span.root r.hopKey _ = W at *
    generalize w'.visit r.span.root r.span.taskID _ = W' at *
    have hpast := hw.has_iff hroot hR
    have hhas : W.Has r := ⟨fun he => hroot (.inl he), hR.symm⟩
    have hcount : W.taskless (past ++ [r]) = w.taskless past + if r.taskID = "" then 1 else 0 := by
      have hsame : W.taskless past = w.taskless past :=
        List.countP_congr fun r' hr' => by simp [hpast r' hr']
      rw [← hsame]
      simp [Graph.taskless, hhas, List.countP_singleton]
    have hempty : "" ∈ w'.seen ↔ 0 < w.taskless past := by
      rw [hw.seen', Graph.taskless, List.countP_pos_iff]
      simp
    have hmem : ∀ P : RequestRecord → Prop, (∃ r' ∈ past ++ [r], W.Has r' ∧ P r') ↔
        (∃ r' ∈ past, w.Has r' ∧ P r') ∨ P r := by
      intro P
      simp only [List.mem_append, List.mem_singleton, or_and_right, exists_or, exists_eq_left, hhas,
        true_and]
      exact or_congr_left (exists_congr fun r' => and_congr_right fun hr' => by rw [hpast r' hr'])
    have hhops := hw.hops
    refine ⟨hR.trans hR'.symm, fun he => absurd (hR.symm.trans he) hhas.1, fun key => ?_,
      fun key => ?_, ?_, fun hle => ?_⟩
    · rw [hseen, hw.seen, hmem, eq_comm]
    · rw [hseen', hw.seen', hmem, eq_comm]
      rfl
    · rw [hcallers, hcallers', hcount, List.length_append, List.length_append]
      simp only [RequestRecord.span] at *
      grind
    · rw [hcallers, hcallers', hw.callers (by omega)]
      simp only [RequestRecord.span] at *
      grind

end

end LiteAIG.Observability
