/-
Whether every budget level is kept.

A request is reserved under one policy, the most specific of those that apply to its
caller, and the others are not looked at.  Each policy therefore keeps its limit for
the requests that are reserved under it, and only for those: a tenant's limit does not
see what is spent under the limit of a project.  How far this can go is what the
limits of the policies selected beside it come to, and that is the exact bound.
-/
import LiteAIG.Pipeline.Request
import LiteAIG.Proofs.Budget.Calls
import LiteAIG.Proofs.Budget.Selection

namespace LiteAIG.Pipeline

open Lib Budget Ledger List

/-! ### Admissions -/

/-- A request that comes to `reserveBudget`. -/
structure Arrival where
  requestID : String
  caller : Caller
  request : UnifiedRequest
  (stream streamWriter : Bool)
  ticket : Ticket

def Arrival.context (a : Arrival) (items : List PolicyItem) : RequestContext :=
  .new a.requestID a.caller items a.request a.stream a.streamWriter

structure Admissions (σ : Type) where
  budget : BudgetEnforcer σ
  /-- The requests admitted so far, the last one first. -/
  admitted : List Arrival

/-- The budget policies of a snapshot, as the validator lets them through, all of them hard. -/
structure Levels where
  items : List PolicyItem
  distinct : items.Pairwise fun item item' => item.id ≠ item'.id
  hard : ∀ item ∈ items, item.mode = .hard
  windowHours_pos : ∀ item ∈ items, 0 < item.windowHours
  tokenLimit_nonneg : ∀ item ∈ items, 0 ≤ item.tokenLimit

variable {σ : Type} [BudgetLedger σ]

/-- A new request without a policy passes; one with a policy passes when its reservation does. -/
theorem reserveBudget_cases (estimateTokens : UnifiedRequest → Int) (ticket : Ticket)
    {request : RequestContext} (budget : BudgetEnforcer σ) (hn : request.reservationID = "") :
    (budgetPolicyFor request.policies request.caller ticket.policyAt = none ∧
      reserveBudget estimateTokens ticket request budget = (none, request, budget)) ∨
    ∃ p, budgetPolicyFor request.policies request.caller ticket.policyAt = some p ∧
      ((∃ err, ticket.id = .error err ∧
        reserveBudget estimateTokens ticket request budget = (some err, request, budget)) ∨
      ∃ id, ticket.id = .ok id ∧ (reserveBudget estimateTokens ticket request budget).2.2
          = (budget.reserve p id (estimateTokens request.request) ticket.reserveAt).2 ∧
        ((reserveBudget estimateTokens ticket request budget).1 = none ↔ ∃ reserved,
            (budget.reserve p id (estimateTokens request.request) ticket.reserveAt).1
              = .ok reserved)) := by
  unfold reserveBudget
  rw [if_neg (not_not.mpr hn)]
  cases budgetPolicyFor request.policies request.caller ticket.policyAt with
  | none => exact Or.inl ⟨rfl, rfl⟩
  | some p =>
    refine Or.inr ⟨p, rfl, ?_⟩
    cases ticket.id with
    | error err => exact Or.inl ⟨err, rfl, rfl⟩
    | ok id =>
      refine Or.inr ⟨id, rfl, ?_⟩
      dsimp only
      generalize budget.reserve p id (estimateTokens request.request) ticket.reserveAt = answer
      obtain ⟨err | reserved, budget'⟩ := answer
      · simp
      · simp

section

variable (estimateTokens : UnifiedRequest → Int) (items : List PolicyItem)
  (s : Admissions σ) (a : Arrival)

def Admissions.step : Admissions σ :=
  match reserveBudget estimateTokens a.ticket (a.context items) s.budget with
  | (none, _, budget) => ⟨budget, a :: s.admitted⟩
  | (some _, _, budget) => { s with budget }

/-- The sum of the estimates of the admitted requests that the policy applies to. -/
def Admissions.load (item : PolicyItem) : Int :=
  ((s.admitted.filter fun a => item.applies a.caller).map fun a => estimateTokens a.request).sum

/-- The sum of the estimates of the admitted requests that were reserved under the policy. -/
def Admissions.share (item : PolicyItem) : Int :=
  ((s.admitted.filter fun a => selected items a.caller = some item).map
    fun a => estimateTokens a.request).sum

theorem budget_step :
    (s.step estimateTokens items a).budget
      = (reserveBudget estimateTokens a.ticket (a.context items) s.budget).2.2 := by
  unfold Admissions.step
  split <;> rename_i h <;> rw [h]

theorem admitted_step :
    (s.step estimateTokens items a).admitted
      = if (reserveBudget estimateTokens a.ticket (a.context items) s.budget).1 = none then
          a :: s.admitted
        else s.admitted := by
  unfold Admissions.step
  split <;> rename_i h <;> simp [h]

end

/-! ### What each policy keeps -/

/-- Every policy's ledger of the window at `t` holds what was reserved under the policy, within its
limit, and knows none of the fresh ids. -/
structure Admissions.Kept (s : Admissions σ) (estimateTokens : UnifiedRequest → Int)
    (levels : Levels)
    (t : Int) (fresh : String → Prop) : Prop where
  nonneg : ∀ a ∈ s.admitted, (selected levels.items a.caller).isSome → 0 ≤ estimateTokens a.request
  reserved : ∀ item ∈ levels.items, (s.budget.manager.ledgerOf (item.at t)).reserved
    = s.share estimateTokens levels.items item
  consumed : ∀ item ∈ levels.items, (s.budget.manager.ledgerOf (item.at t)).consumed = 0
  within : ∀ item ∈ levels.items, s.share estimateTokens levels.items item ≤ item.limit
  fresh : ∀ item ∈ levels.items, ∀ id, fresh id →
    (s.budget.manager.ledgerOf (item.at t)).reservations.lookup id = none

/-- The requests come in one window of each policy, whose ledgers are new, and with new ids. -/
structure Levels.OneWindow (levels : Levels) (t : Int) (start : BudgetEnforcer σ)
    (arrivals : List Arrival) : Prop where
  opened : ∀ item ∈ levels.items,
    start.manager.ledgerOf (item.at t) = .open (item.at t).windowStart
  within : ∀ a ∈ arrivals, ∀ item ∈ levels.items,
    (item.at a.ticket.policyAt).windowStart = (item.at t).windowStart
  ids : arrivals.Pairwise fun a a' => ∀ id, a.ticket.id = .ok id → a'.ticket.id ≠ .ok id

section

variable {estimateTokens : UnifiedRequest → Int} {ls : Levels} {t : Int} {fresh : String → Prop}
  {s : Admissions σ} {a : Arrival} {item : PolicyItem}

/-- What the manager takes for a hard policy is no negative amount and fits into the limit. -/
theorem takes_hard {m : Manager} {id : String} {est now : Int} (hh : item.mode = .hard)
    (h : m.takes (item.at t) id est now) :
    0 ≤ est ∧ (m.ledgerOf (item.at t)).reserved + (m.ledgerOf (item.at t)).consumed + est
      ≤ item.limit := by
  have hm : (item.at t).mode = .hard := hh
  simp only [Manager.takes, Policy.admissible, hm, Bool.and_eq_true, Bool.not_eq_true',
    Bool.or_eq_false_iff, decide_eq_false_iff_not, decide_true, Bool.true_and, not_lt] at h
  exact ⟨h.1.1.1.1.1.2, h.2⟩

theorem at_of_windowStart {now : Int} (h : (item.at now).windowStart = (item.at t).windowStart) :
    item.at now = item.at t := by
  simp only [PolicyItem.at] at h ⊢
  rw [h]

section

omit [BudgetLedger σ]

theorem share_cons (estimateTokens : UnifiedRequest → Int) (ls : Levels) (item : PolicyItem)
    (a : Arrival) (budget : BudgetEnforcer σ) (admitted : List Arrival) :
    (Admissions.mk budget (a :: admitted)).share estimateTokens ls.items item
      = (Admissions.mk budget admitted).share estimateTokens ls.items item
        + if selected ls.items a.caller = some item then estimateTokens a.request else 0 := by
  split <;> simp [*, Admissions.share, add_comm]

theorem Levels.limit_nonneg (ls : Levels) (h : item ∈ ls.items) : 0 ≤ item.limit := by
  have hl := ls.tokenLimit_nonneg item h
  rw [PolicyItem.limit, truncToInt, if_pos hl]
  exact Int.floor_nonneg.mpr hl

theorem Levels.id_ne (ls : Levels) {item item' : PolicyItem} (h : item ∈ ls.items)
    (h' : item' ∈ ls.items) (hne : item ≠ item') : item.id ≠ item'.id :=
  fun hid => hne (eq_of_pairwise (fun _ _ h => h.symm) ls.distinct h h' hid)

theorem Admissions.Kept.mono {fresh' : String → Prop} (h : s.Kept estimateTokens ls t fresh)
    (hf : ∀ x, fresh' x → fresh x) : s.Kept estimateTokens ls t fresh' :=
  ⟨h.nonneg, h.reserved, h.consumed, h.within, fun item hi x hx => h.fresh item hi x (hf x hx)⟩

/-- A request that no policy applies to is not counted anywhere. -/
theorem Admissions.Kept.unlimited (h : s.Kept estimateTokens ls t fresh)
    (hs : selected ls.items a.caller = none) :
    (Admissions.mk s.budget (a :: s.admitted)).Kept estimateTokens ls t fresh := by
  have hsh : ∀ item, (Admissions.mk s.budget (a :: s.admitted)).share estimateTokens ls.items
      item = s.share estimateTokens ls.items item :=
    fun item => (share_cons estimateTokens ls item a s.budget s.admitted).trans (by simp [hs])
  constructor
  · intro a' ha' hso
    rcases mem_cons.mp ha' with rfl | hin
    · rw [hs] at hso
      cases hso
    · exact h.nonneg a' hin hso
  · intro item hi
    rw [hsh]
    exact h.reserved item hi
  · exact h.consumed
  · intro item hi
    rw [hsh]
    exact h.within item hi
  · exact h.fresh

/-- What the ledgers and the shares have to do in a step for the invariant to go on. -/
theorem Admissions.Kept.next {s' : Admissions σ} {id : String}
    (h : s.Kept estimateTokens ls t fresh)
    (ha : ∀ a' ∈ s'.admitted, a' ∈ s.admitted ∨ 0 ≤ estimateTokens a'.request)
    (hl : ∀ item ∈ ls.items, ∃ granted,
      (s.budget.manager.ledgerOf (item.at t)).Took
        (s'.budget.manager.ledgerOf (item.at t)) id granted ∧
      s'.share estimateTokens ls.items item
        = s.share estimateTokens ls.items item + granted ∧
      s'.share estimateTokens ls.items item ≤ item.limit) :
    s'.Kept estimateTokens ls t (fun x => fresh x ∧ x ≠ id) := by
  constructor
  · intro a' ha' hso
    rcases ha a' ha' with hin | hn
    · exact h.nonneg a' hin hso
    · exact hn
  · intro item hi
    obtain ⟨granted, ht, hs, -⟩ := hl item hi
    rw [ht.reserved, h.reserved item hi, hs]
  · intro item hi
    obtain ⟨granted, ht, -, -⟩ := hl item hi
    rw [ht.consumed, h.consumed item hi]
  · intro item hi
    exact (hl item hi).choose_spec.2.2
  · intro item hi x hx
    obtain ⟨granted, ht, -, -⟩ := hl item hi
    exact ht.unknown x hx.2 (h.fresh item hi x hx.1)

section

variable {budget' : BudgetEnforcer σ} {id : String}

theorem Admissions.Kept.admits (h : s.Kept estimateTokens ls t fresh)
    (hse : selected ls.items a.caller = some item) (hm : item ∈ ls.items)
    (hn : 0 ≤ estimateTokens a.request)
    (hr : (s.budget.manager.ledgerOf (item.at t)).reserved
      + (s.budget.manager.ledgerOf (item.at t)).consumed + estimateTokens a.request ≤ item.limit)
    (ht : (s.budget.manager.ledgerOf (item.at t)).Took (budget'.manager.ledgerOf (item.at t)) id
      (estimateTokens a.request))
    (ho : ∀ item' ∈ ls.items, item' ≠ item →
      (s.budget.manager.ledgerOf (item'.at t)).Took (budget'.manager.ledgerOf (item'.at t)) id 0) :
    (Admissions.mk budget' (a :: s.admitted)).Kept estimateTokens ls t
      (fun x => fresh x ∧ x ≠ id) := by
  refine h.next ?_ ?_
  · intro a' ha'
    rcases mem_cons.mp ha' with rfl | hin
    · exact Or.inr hn
    · exact Or.inl hin
  · intro item' hi
    by_cases hne : item' = item
    · subst hne
      have hs := share_cons estimateTokens ls item' a budget' s.admitted
      rw [if_pos hse] at hs
      refine ⟨_, ht, hs, ?_⟩
      rw [h.reserved item' hm, h.consumed item' hm, add_zero] at hr
      exact hs.trans_le hr
    · have hs := share_cons estimateTokens ls item' a budget' s.admitted
      rw [hse, if_neg fun hc => hne (Option.some.inj hc).symm] at hs
      exact ⟨0, ho item' hi hne, hs, (hs.trans (add_zero _)).trans_le (h.within item' hi)⟩

theorem Admissions.Kept.refuses (h : s.Kept estimateTokens ls t fresh)
    (ht : (s.budget.manager.ledgerOf (item.at t)).Took (budget'.manager.ledgerOf (item.at t)) id 0)
    (ho : ∀ item' ∈ ls.items, item' ≠ item →
      (s.budget.manager.ledgerOf (item'.at t)).Took (budget'.manager.ledgerOf (item'.at t)) id 0) :
    (Admissions.mk budget' s.admitted).Kept estimateTokens ls t (fun x => fresh x ∧ x ≠ id) := by
  refine h.next (fun a' ha' => Or.inl ha') ?_
  intro item' hi
  refine ⟨0, ?_, (add_zero _).symm, h.within item' hi⟩
  by_cases hne : item' = item
  · subst hne
    exact ht
  · exact ho item' hi hne

end

end

theorem Admissions.Kept.step (h : s.Kept estimateTokens ls t fresh)
    (hw : ∀ item ∈ ls.items, (item.at a.ticket.policyAt).windowStart = (item.at t).windowStart)
    (hid : ∀ id, a.ticket.id = .ok id → fresh id) :
    (s.step estimateTokens ls.items a).Kept estimateTokens ls t
      (fun x => fresh x ∧ a.ticket.id ≠ .ok x) := by
  have hp : budgetPolicyFor (a.context ls.items).policies (a.context ls.items).caller
      a.ticket.policyAt = (selected ls.items a.caller).map (·.at a.ticket.policyAt) :=
    budgetPolicyFor_eq ..
  have hb := budget_step estimateTokens ls.items s a
  have ha := admitted_step estimateTokens ls.items s a
  generalize s.step estimateTokens ls.items a = s' at hb ha ⊢
  obtain ⟨budget', admitted'⟩ := s'
  dsimp only at hb ha
  rcases reserveBudget_cases estimateTokens a.ticket s.budget
      (rfl : (a.context ls.items).reservationID = "") with
    ⟨hn, hres⟩ | ⟨p, hso, ⟨err, hti, hres⟩ | ⟨id, hti, haf, hok⟩⟩
  · rw [hres] at hb ha
    rw [hp, Option.map_eq_none_iff] at hn
    rw [hb, ha, if_pos rfl]
    exact (h.unlimited hn).mono fun x hx => hx.1
  · rw [hres] at hb ha
    rw [hb, ha, if_neg (by simp)]
    exact h.mono fun x hx => hx.1
  · rw [hp, Option.map_eq_some_iff] at hso
    obtain ⟨item, hs, rfl⟩ := hso
    obtain ⟨hm, hap⟩ := selected_spec hs
    rw [at_of_windowStart (hw item hm)] at haf hok
    rw [← hb] at haf
    have ho : ∀ item' ∈ ls.items, item' ≠ item →
        (s.budget.manager.ledgerOf (item'.at t)).Took
          (budget'.manager.ledgerOf (item'.at t)) id 0 := by
      intro item' hi hne
      rw [haf]
      exact enforcer_reserve_ne s.budget (ls.id_ne hi hm hne)
    have hf : ∀ x, fresh x ∧ a.ticket.id ≠ .ok x → fresh x ∧ x ≠ id := by
      rintro x ⟨hx, hne⟩
      refine ⟨hx, ?_⟩
      rintro rfl
      exact hne hti
    rcases enforcer_reserve_took s.budget (h.fresh item hm id (hid id hti)) with
      ⟨reserved, hres, hta, ht⟩ | ⟨⟨err, hres⟩, ht⟩
    · rw [← haf] at ht
      rw [if_pos (hok.mpr ⟨reserved, hres⟩)] at ha
      obtain ⟨hno, hro⟩ := takes_hard (ls.hard item hm) hta
      subst ha
      exact (h.admits hs hm hno hro ht ho).mono hf
    · rw [← haf] at ht
      have hr : (reserveBudget estimateTokens a.ticket (a.context ls.items) s.budget).1
          ≠ none := by
        intro hc
        obtain ⟨reserved, hre⟩ := hok.mp hc
        rw [hres] at hre
        cases hre
      rw [if_neg hr] at ha
      subst ha
      exact (h.refuses ht ho).mono hf

theorem kept_run : ∀ (arrivals : List Arrival) (s : Admissions σ) (fresh : String → Prop),
    s.Kept estimateTokens ls t fresh →
    (∀ a ∈ arrivals, ∀ item ∈ ls.items,
      (item.at a.ticket.policyAt).windowStart = (item.at t).windowStart) →
    (arrivals.Pairwise fun a a' => ∀ id, a.ticket.id = .ok id → a'.ticket.id ≠ .ok id) →
    (∀ a ∈ arrivals, ∀ id, a.ticket.id = .ok id → fresh id) →
    (run (Admissions.step estimateTokens ls.items) s arrivals).Kept estimateTokens ls t
      (fun _ => False) := by
  intro arrivals
  induction arrivals with
  | nil => exact fun s fresh h _ _ _ => h.mono fun _ hx => hx.elim
  | cons a rest ih =>
    intro s fresh h hw hi hf
    rw [pairwise_cons] at hi
    rw [run_cons]
    refine ih _ _ (h.step (hw a mem_cons_self) (hf a mem_cons_self))
      (fun a' ha' => hw a' (mem_cons_of_mem _ ha')) hi.2 ?_
    intro a' ha' id hid
    exact ⟨hf a' (mem_cons_of_mem _ ha') id hid, fun hc => hi.1 a' ha' id hc hid⟩

omit [BudgetLedger σ] in
theorem kept_start {start : BudgetEnforcer σ} {arrivals : List Arrival}
    (h : ls.OneWindow t start arrivals) :
    (Admissions.mk start []).Kept estimateTokens ls t (fun _ => True) := by
  constructor
  · intro a ha
    cases ha
  · intro item hi
    rw [h.opened item hi]
    rfl
  · intro item hi
    rw [h.opened item hi]
    rfl
  · intro item hi
    exact ls.limit_nonneg hi
  · intro item hi id _
    rw [h.opened item hi]
    rfl

/-! ### The bound -/

/-- The limits of the policies that are selected for callers a policy applies to add up to no more
than its own. -/
def Levels.Covers (levels : Levels) : Prop :=
  ∀ item ∈ levels.items, ∀ others : List PolicyItem, others.Nodup →
    (∀ other ∈ others, ∃ caller, selected levels.items caller = some other ∧
      item.applies caller = true) →
    (others.map PolicyItem.limit).sum ≤ item.limit

omit [BudgetLedger σ] in
/-- What a policy applies to is reserved under the policies selected beside it, each within its own
limit. -/
theorem load_le (h : s.Kept estimateTokens ls t fresh) (hc : ls.Covers)
    (hi : item ∈ ls.items) : s.load estimateTokens item ≤ item.limit := by
  let applied := s.admitted.filter fun a => item.applies a.caller
  let others := (applied.filterMap fun a => selected ls.items a.caller).dedup
  have hap : ∀ a ∈ applied, a ∈ s.admitted ∧ item.applies a.caller = true :=
    fun a ha => mem_filter.mp ha
  have hs : ∀ other ∈ others, ∃ caller, selected ls.items caller = some other ∧
      item.applies caller = true := by
    intro other ho
    obtain ⟨a, ha, hse⟩ := mem_filterMap.mp (mem_dedup.mp ho)
    exact ⟨a.caller, hse, (hap a ha).2⟩
  have hk : ∀ a ∈ applied, selected ls.items a.caller ∈ others.map some := by
    intro a ha
    obtain ⟨other, ho⟩ := exists_selected hi (hap a ha).2
    rw [ho]
    exact mem_map_of_mem (mem_dedup.mpr (mem_filterMap.mpr ⟨a, ha, ho⟩))
  have hn : (others.map some).Nodup := (nodup_dedup _).map (Option.some_injective _)
  calc s.load estimateTokens item = ((others.map some).map fun k => ((applied.filter fun a =>
          selected ls.items a.caller = k).map fun a => estimateTokens a.request).sum).sum :=
        (sum_by_key _ _ hn applied hk).symm
    _ = (others.map fun other => ((applied.filter fun a =>
          selected ls.items a.caller = some other).map fun a =>
            estimateTokens a.request).sum).sum := by
        rw [map_map]
        rfl
    _ ≤ (others.map PolicyItem.limit).sum := by
        refine sum_le_sum fun other ho => ?_
        obtain ⟨caller, hse, -⟩ := hs other ho
        refine le_trans ?_ (h.within other (selected_spec hse).1)
        -- Those reserved under the policy and applied to are some of those reserved under it.
        refine List.Sublist.sum_le_sum ((filter_sublist.filter _).map _) ?_
        intro est he
        obtain ⟨a, ha, rfl⟩ := mem_map.mp he
        obtain ⟨hin, ho⟩ := mem_filter.mp ha
        exact h.nonneg a hin (by simp [of_decide_eq_true ho])
    _ ≤ item.limit := hc item hi others (nodup_dedup _) hs

end

/-! ### Requests that exhaust a limit -/

/-- A chat without text that may be answered with all but one of `n` tokens. -/
def chatOf (n : Int) : UnifiedRequest := ⟨"", some ⟨[], some (n - 1), []⟩, none, none, none⟩

variable (marshal : List Tool → Option (List UInt8)) (registry : Option Registry)

/-- The estimate of a request in exact integers. -/
def exactEstimate (request : UnifiedRequest) : Int :=
  estimateTokensWith id marshal (some request) registry

theorem estimate_chatOf {n : Int} (hn : 1 ≤ n) :
    exactEstimate marshal registry (chatOf n) = n := by
  unfold exactEstimate estimateTokensWith chatOf
  simp only [Option.elim_some, Option.elim_none, addChat, ChatPayload.chars, foldl_nil,
    length_nil, lt_self_iff_false, if_false, id_eq]
  split
  · omega
  · omega

/-- The caller takes all of the policy's limit at once. -/
def exhausting (item : PolicyItem) (caller : Caller) : Arrival :=
  ⟨"", caller, chatOf item.limit, false, false, ⟨.ok ("r" ++ item.id), 0, 0⟩⟩

/-- Nothing is reserved under the policy, in the ledger or in a slice. -/
structure Untouched (e : BudgetEnforcer σ) (item : PolicyItem) : Prop where
  reserved : (e.manager.ledgerOf (item.at 0)).reserved = 0
  consumed : (e.manager.ledgerOf (item.at 0)).consumed = 0
  unknown : (e.manager.ledgerOf (item.at 0)).reservations.lookup ("r" ++ item.id) = none
  slices : e.slices.lookup item.id = none

section

variable {ls : Levels} {item : PolicyItem} {caller : Caller}
  (marshal : List Tool → Option (List UInt8)) (registry : Option Registry)

omit [BudgetLedger σ] in
theorem takes_exhausting {m : Manager} (hi : item ∈ ls.items) (hp : 0 < item.limit)
    (hr : (m.ledgerOf (item.at 0)).reserved = 0) (hc : (m.ledgerOf (item.at 0)).consumed = 0) :
    m.takes (item.at 0) ("r" ++ item.id) item.limit 0 = true := by
  have hid : "r" ++ item.id ≠ "" := by simp
  have hm : (item.at 0).mode = .hard := ls.hard item hi
  have hl : (item.at 0).tokenLimit = item.limit := rfl
  have hs : (item.at 0).windowStart = 0 := by simp [PolicyItem.at, truncate]
  have he : (item.at 0).windowEnd = item.windowHours * (3600 * 1000000000) := by
    simp [PolicyItem.at, truncate]
  simp [Manager.takes, Policy.admissible, hm, hl, hs, he, hr, hc, hid,
    hp.le, ls.windowHours_pos item hi]

/-- Such a request is admitted, and other policies stay untouched. -/
theorem step_exhausting {s : Admissions σ} (hd : s.budget.distributed = none)
    (hs : selected ls.items caller = some item) (hpo : 0 < item.limit)
    (hu : Untouched s.budget item) :
    (s.step (exactEstimate marshal registry) ls.items (exhausting item caller)).admitted =
      exhausting item caller :: s.admitted ∧
      (s.step (exactEstimate marshal registry) ls.items
        (exhausting item caller)).budget.distributed = none ∧
      ∀ other, other.id ≠ item.id → Untouched s.budget other →
        Untouched (s.step (exactEstimate marshal registry) ls.items
          (exhausting item caller)).budget other := by
  have hi := (selected_spec hs).1
  rw [admitted_step, budget_step]
  have hp : budgetPolicyFor ((exhausting item caller).context ls.items).policies
      ((exhausting item caller).context ls.items).caller (exhausting item caller).ticket.policyAt
      = some (item.at 0) := by
    refine (budgetPolicyFor_eq ls.items caller 0).trans ?_
    rw [hs]
    rfl
  have he : exactEstimate marshal registry ((exhausting item caller).context ls.items).request
      = item.limit := estimate_chatOf marshal registry hpo
  obtain ⟨⟨reserved, hok⟩, hdi, hsl⟩ := enforcer_reserve_fresh hd
    hu.slices (le_refl item.limit : item.limit ≤ (item.at 0).tokenLimit) hu.unknown
    (takes_exhausting hi hpo hu.reserved hu.consumed)
  rcases reserveBudget_cases (exactEstimate marshal registry)
    (exhausting item caller).ticket s.budget
      (rfl : ((exhausting item caller).context ls.items).reservationID = "") with
    ⟨hn, -⟩ | ⟨p, hso, ⟨err, ht, -⟩ | ⟨id, ht, ha, hif⟩⟩
  · rw [hp] at hn
    cases hn
  · cases ht
  · rw [hp] at hso
    cases hso
    cases ht
    rw [he, show (exhausting item caller).ticket.reserveAt = 0 from rfl] at ha hif
    rw [ha, if_pos (hif.mpr ⟨reserved, hok⟩)]
    refine ⟨rfl, hdi, fun other hne ho => ?_⟩
    have hto : (s.budget.manager.ledgerOf (other.at 0)).Took
        ((s.budget.reserve (item.at 0) ("r" ++ item.id) item.limit 0).2.manager.ledgerOf
          (other.at 0))
        ("r" ++ item.id) 0 := enforcer_reserve_ne s.budget hne
    constructor
    · rw [hto.reserved, ho.reserved, add_zero]
    · rw [hto.consumed, ho.consumed]
    · refine hto.unknown _ ?_ ho.unknown
      simpa using hne
    · rw [hsl other.id hne]
      exact ho.slices

/-- Requests that exhaust different policies are all admitted. -/
theorem run_exhausting (ls : Levels) (caller : PolicyItem → Caller) : ∀ (others : List PolicyItem)
    (s : Admissions σ),
    s.budget.distributed = none →
    others.Pairwise (fun item other => item.id ≠ other.id) →
    (∀ other ∈ others, selected ls.items (caller other) = some other ∧ 0 < other.limit ∧
      Untouched s.budget other) →
    (run (Admissions.step (exactEstimate marshal registry) ls.items) s
      (others.map fun other => exhausting other (caller other))).admitted
      = (others.map fun other => exhausting other (caller other)).reverse ++ s.admitted := by
  intro others
  induction others with
  | nil => exact fun s _ _ _ => rfl
  | cons item rest ih =>
    intro s hdi hd hal
    rw [pairwise_cons] at hd
    obtain ⟨hs, hpo, hu⟩ := hal item mem_cons_self
    obtain ⟨ha, hdis, ho⟩ := step_exhausting marshal registry hdi hs hpo hu
    rw [map_cons, run_cons, ih _ hdis hd.2 ?_, ha, reverse_cons, append_assoc]
    · rfl
    · intro other hin
      obtain ⟨hse, hp, hun⟩ := hal other (mem_cons_of_mem _ hin)
      exact ⟨hse, hp, ho other (hd.1 other hin).symm hun⟩

omit [BudgetLedger σ] in
theorem sum_limit_pos {others : List PolicyItem} (h : ∀ other ∈ others, 0 ≤ other.limit) :
    (others.map PolicyItem.limit).sum
      = ((others.filter fun other => 0 < other.limit).map PolicyItem.limit).sum :=
  (sum_map_filter fun other hm hp =>
    le_antisymm (not_lt.mp (of_decide_eq_false hp)) (h other hm)).symm

/-- **Every level is kept exactly when no policy is passed over for a limit that its own does not
cover.**  For every snapshot of hard policies: in every sequence of requests in one window of each
policy, what was admitted of the requests a policy applies to stays within its limit, if and only
if the limits of the policies that are selected for callers it applies to add up to no more. -/
theorem levels_kept_iff (levels : Levels) :
    (∀ (t : Int) (start : BudgetEnforcer σ) (arrivals : List Arrival),
      levels.OneWindow t start arrivals → ∀ item ∈ levels.items,
        (run (Admissions.step (exactEstimate marshal registry) levels.items)
          ⟨start, []⟩ arrivals).load
          (exactEstimate marshal registry) item ≤ item.limit) ↔
      levels.Covers := by
  constructor
  · intro h item hi others hn hse
    -- One request for each of the others that has a limit to exhaust.
    have hca : ∀ other, ∃ caller, other ∈ others →
        selected levels.items caller = some other ∧ item.applies caller = true := by
      intro other
      by_cases hin : other ∈ others
      · obtain ⟨caller, hc⟩ := hse other hin
        exact ⟨caller, fun _ => hc⟩
      · exact ⟨⟨"", "", ""⟩, fun hc => absurd hc hin⟩
    choose caller hca using hca
    let spent := others.filter fun other => 0 < other.limit
    let arrivals := spent.map fun other => exhausting other (caller other)
    have hs : ∀ other ∈ spent, other ∈ others ∧ 0 < other.limit :=
      fun other hin => (mem_filter.mp hin).imp_right of_decide_eq_true
    have hm : ∀ other ∈ spent, other ∈ levels.items :=
      fun other hin => (selected_spec (hca other (hs other hin).1).1).1
    have hd : spent.Pairwise fun other other' => other.id ≠ other'.id :=
      (hn.filter _).imp_of_mem fun ha hb hne => levels.id_ne (hm _ ha) (hm _ hb) hne
    have hw : levels.OneWindow 0 (.new (.new 0) : BudgetEnforcer σ) arrivals := by
      refine ⟨fun _ _ => rfl, ?_, ?_⟩
      · intro a ha other _
        obtain ⟨other', -, rfl⟩ := mem_map.mp ha
        rfl
      · refine pairwise_map.mpr (hd.imp fun {other other'} hne x hx hx' => hne ?_)
        have hid := (Except.ok.inj hx).trans (Except.ok.inj hx').symm
        simpa using hid
    have hl := h 0 (.new (.new 0)) arrivals hw item hi
    have had := run_exhausting (σ := σ) marshal registry levels caller spent
      ⟨.new (.new 0), []⟩ rfl hd fun other hin =>
        ⟨(hca other (hs other hin).1).1, (hs other hin).2, ⟨rfl, rfl, rfl, rfl⟩⟩
    have hf : (arrivals.reverse.filter fun a => item.applies a.caller) = arrivals.reverse := by
      refine filter_eq_self.mpr fun a ha => ?_
      obtain ⟨other, hin, rfl⟩ := mem_map.mp (mem_reverse.mp ha)
      exact (hca other (hs other hin).1).2
    have he : arrivals.map (fun a => exactEstimate marshal registry a.request)
        = spent.map PolicyItem.limit := by
      rw [map_map]
      exact map_congr_left fun other hin => estimate_chatOf marshal registry (hs other hin).2
    unfold Admissions.load at hl
    rw [had, append_nil, hf, map_reverse, sum_reverse, he] at hl
    refine le_of_eq_of_le (sum_limit_pos fun other hin => ?_) hl
    exact levels.limit_nonneg (selected_spec (hca other hin).1).1
  · intro hco t start arrivals hw item hi
    exact load_le (kept_run arrivals ⟨start, []⟩ (fun _ => True) (kept_start hw) hw.within
      hw.ids fun _ _ _ _ => trivial) hco hi

end

/-! ### A tenant's limit passed over -/

/-- Ten tokens for the tenant, and a hundred for one of its projects. -/
def tenantAndProject : Levels where
  items := [⟨"tenant", "acme", "", "", 24, 10, .hard, .none⟩,
    ⟨"project", "acme", "web", "", 24, 100, .hard, .none⟩]
  distinct := by decide
  hard := by decide
  windowHours_pos := by decide
  tokenLimit_nonneg := by decide +kernel

/-- A request of the project for fifty tokens. -/
def fiftyTokens : Arrival :=
  ⟨"q1", ⟨"acme", "web", "k1"⟩, chatOf 50, false, false, ⟨.ok "r1", 0, 0⟩⟩

/-- The request is admitted under the project's policy, and the tenant's limit is exceeded. -/
theorem tenant_limit_passed_over :
    tenantAndProject.OneWindow 0 (.new (.new 0) : BudgetEnforcer MemoryBudgetLedger) [fiftyTokens] ∧
      (tenantAndProject.items.map PolicyItem.limit = [10, 100]) ∧
      tenantAndProject.items.map
        ((run (Admissions.step (exactEstimate (fun _ => none) none) tenantAndProject.items)
          ⟨(.new (.new 0) : BudgetEnforcer MemoryBudgetLedger), []⟩ [fiftyTokens]).load
            (exactEstimate (fun _ => none) none)) = [50, 50] := by
  refine ⟨⟨fun _ _ => rfl, ?_, pairwise_singleton ..⟩, by decide +kernel, by decide +kernel⟩
  intro a ha item _
  cases mem_singleton.mp ha
  rfl

end LiteAIG.Pipeline
