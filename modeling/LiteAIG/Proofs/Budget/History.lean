/-
The budget manager's ledgers against the history of the calls.

A ledger is known by its policy and a number: each ledger that is opened for a policy
has the number after the one before it, and the manager keeps at most the last two.
Every reservation that was ever admitted has a record, which names its ledger and
lists the settlements that reached it; a sweep may take the reservation out of the
ledger, after which its id can be admitted there again, but the record stays.

What a ledger has reserved is what it still stores open, and what it has consumed is
what the first settlements of its records say.  Both hold in every state, whatever the
calls and whatever the clock showed.
-/
import LiteAIG.Lib.Lists
import LiteAIG.Lib.Run
import LiteAIG.Proofs.Budget.Ledger

namespace LiteAIG.Budget

open Lib Manager Assoc Function List Option

/-! ### The machine -/

/-- A `Reconcile`, with its tokens, or a `Release` that reached a reservation. -/
structure Settlement where
  tokens : Option Int
  (before after : Manager)
  deriving DecidableEq

/-- An admitted reservation, with the settlements that reached it in order. -/
structure Record where
  policyID : String
  (number start : Int)
  id : String
  estimate : Int
  settlements : List Settlement

def Record.names (ρ : Record) (p : String) (n : Int) (id : String) : Prop :=
  ρ.policyID = p ∧ ρ.number = n ∧ ρ.id = id
  deriving Decidable

/-- The tokens of the first settlement, if that was a `Reconcile`. -/
def Record.charge (ρ : Record) : Int :=
  match ρ.settlements with
  | [] => 0
  | s :: _ => s.tokens.getD 0

/-- The records are listed with the newest first. -/
@[ext] structure History where
  manager : Manager
  /-- How many ledgers were opened for a policy. -/
  opened : String → Int
  records : List Record

variable (clock : Int)

def History.new : History := ⟨.new clock, fun _ => 0, []⟩

variable (h : History)

/-- The number of the policy's ledger in a place. -/
def History.number (p : String) : Place → Int
  | .current => h.opened p
  | .retired => h.opened p - 1

def Manager.ledgerIn (m : Manager) (p : String) : Place → Option Window
  | .current => m.windows.lookup p
  | .retired => (m.retired.lookup p).map RetiredWindow.state

/-- What `Reserve` checks before it takes the lock; it reads the clock anew for each end of the
window. -/
def Policy.admissibleAt (policy : Policy) (id : String) (estimate ending starting : Int) : Bool :=
  !(id = "" || estimate < 0 || policy.tokenLimit < 0 || policy.mode = .other ||
    !(ending < policy.windowEnd) || starting < policy.windowStart)

def Manager.reserveAt (m : Manager) (policy : Policy) (id : String)
    (estimate ending starting now : Int) : Except BudgetError Reservation × Manager :=
  if policy.admissibleAt id estimate ending starting then m.reserveLocked policy id estimate now
  else (.error .invalidReservation, m)

/-- The policy has no ledger of its window start in place. -/
def Manager.opens (m : Manager) (policy : Policy) : Bool :=
  (m.windows.lookup policy.id).all fun w => w.start ≠ policy.windowStart

/-- The request succeeds and its id is not one the ledger has. -/
def Manager.admits (m : Manager) (policy : Policy) (id : String) (estimate now : Int) : Bool :=
  (((m.sweepLocked now).ledger policy now).1.reservations.lookup id).isNone &&
    (m.reserveLocked policy id estimate now).1.isOk

inductive Call
  | reserve (policy : Policy) (id : String) (estimate ending starting now : Int)
  | reconcile (policyID id : String) (actual : Int)
  | release (policyID id : String)
  | sweep (now : Int)
  deriving DecidableEq

/-- A settlement is listed with the newest record of its name. -/
def note (p : String) (n : Int) (id : String) (s : Settlement) : List Record → List Record
  | [] => []
  | ρ :: rest =>
    if ρ.names p n id then { ρ with settlements := ρ.settlements ++ [s] } :: rest
    else ρ :: note p n id s rest

/-- The records after a call that settled, with the ledger it reached. -/
def History.noted (p id : String) (tokens : Option Int) (after : Manager) :
    List Record :=
  match h.manager.ledgerFor p id with
  | none => h.records
  | some (place, _, _) => note p (h.number p place) id ⟨tokens, h.manager, after⟩ h.records

def History.step : Call → History
  | .reserve policy id estimate ending starting now =>
    let manager := (h.manager.reserveAt policy id estimate ending starting now).2
    if policy.admissibleAt id estimate ending starting then
      let opened :=
        if h.manager.opens policy then
          Function.update h.opened policy.id (h.opened policy.id + 1)
        else h.opened
      { manager
        opened
        records :=
          if h.manager.admits policy id estimate now then
            ⟨policy.id, opened policy.id, policy.windowStart, id, estimate, []⟩ :: h.records
          else h.records }
    else { h with manager }
  | .reconcile p id actual =>
    let (result, manager) := h.manager.reconcile p id actual
    { h with
      manager
      records := if result.isOk then h.noted p id (some actual) manager else h.records }
  | .release p id =>
    let manager := h.manager.release p id
    { h with manager, records := h.noted p id none manager }
  | .sweep now => { h with manager := h.manager.sweep now }

/-- What the first settlements of a ledger's records charge it. -/
def charged (records : List Record) (p : String) (n : Int) : Int :=
  (records.map fun ρ => if ρ.policyID = p ∧ ρ.number = n then ρ.charge else 0).sum

/-- The estimates of the reservations that are stored and not final. -/
def Window.held (w : Window) : Int :=
  w.reservations.sum fun r => if r.final then 0 else r.estimate

/-! ### Noting a settlement -/

section

variable {records : List Record} {p q id id' : String} {n k : Int} {s : Settlement} {ρ : Record}

/-- The settlement goes to the first record of its name, if there is one. -/
theorem note_split (p : String) (n : Int) (id : String) (s : Settlement) (records : List Record) :
    note p n id s records = records ∧ records.find? (·.names p n id) = none ∨
      ∃ newer ρ older, records = newer ++ ρ :: older ∧ ρ.names p n id ∧
        (∀ ρ' ∈ newer, ¬ ρ'.names p n id) ∧ records.find? (·.names p n id) = some ρ ∧
        note p n id s records
          = newer ++ { ρ with settlements := ρ.settlements ++ [s] } :: older := by
  induction records with
  | nil => exact .inl ⟨rfl, rfl⟩
  | cons ρ rest ih =>
    unfold note
    by_cases hn : ρ.names p n id
    · exact .inr ⟨[], ρ, rest, rfl, hn, by simp, by simp [hn], by simp [hn]⟩
    · rcases ih with ⟨heq, hno⟩ | ⟨newer, ρ₀, older, rfl, hna, hne, hf, heq⟩
      · exact .inl ⟨by simp [hn, heq], by simp [hn, hno]⟩
      · exact .inr ⟨ρ :: newer, ρ₀, older, rfl, hna, by simpa [hn] using hne,
          by simp [hn, hf], by simp [hn, heq]⟩

theorem mem_note (h : ρ ∈ note p n id s records) :
    ρ ∈ records ∨ ∃ ρ₀ ∈ records, records.find? (·.names p n id) = some ρ₀ ∧
      ρ = { ρ₀ with settlements := ρ₀.settlements ++ [s] } := by
  rcases note_split p n id s records with ⟨heq, -⟩ | ⟨newer, ρ₀, older, hr, -, -, hf, heq⟩
  · exact .inl (heq ▸ h)
  · rw [heq, mem_append, mem_cons] at h
    rcases h with h | rfl | h
    · exact .inl (by simp [hr, h])
    · exact .inr ⟨ρ₀, by simp [hr], hf, rfl⟩
    · exact .inl (by simp [hr, h])

/-- A record that is unsettled afterwards was so before. -/
theorem mem_note_unsettled (h : ρ ∈ note p n id s records) (hρ : ρ.settlements = []) :
    ρ ∈ records := by
  rcases mem_note h with h | ⟨ρ₀, -, -, rfl⟩
  · exact h
  · simp at hρ

theorem find?_note_self :
    (note p n id s records).find? (·.names p n id) = (records.find? (·.names p n id)).map fun ρ =>
        { ρ with settlements := ρ.settlements ++ [s] } := by
  rcases note_split p n id s records with ⟨heq, hn⟩ | ⟨newer, ρ, older, -, hnam, hne, hf, heq⟩
  · simp [heq, hn]
  · have hn : newer.find? (·.names p n id) = none := by simpa using hne
    have hna : ({ ρ with settlements := ρ.settlements ++ [s] } : Record).names p n id := hnam
    simp [heq, hf, hn, hna]

theorem find?_note_ne (hne : ¬ (q = p ∧ k = n ∧ id' = id)) :
    (note p n id s records).find? (·.names q k id') = records.find? (·.names q k id') := by
  rcases note_split p n id s records with ⟨heq, -⟩ | ⟨newer, ρ, older, hr, hn, -, -, heq⟩
  · rw [heq]
  · have hnot : ¬ ρ.names q k id' := fun hc =>
      hne ⟨hc.1.symm.trans hn.1, hc.2.1.symm.trans hn.2.1, hc.2.2.symm.trans hn.2.2⟩
    have hno : ¬ ({ ρ with settlements := ρ.settlements ++ [s] } : Record).names q k id' := hnot
    rw [heq, hr]
    simp [hnot, hno]

theorem charged_note_ne (hne : ¬ (q = p ∧ k = n)) :
    charged (note p n id s records) q k = charged records q k := by
  rcases note_split p n id s records with ⟨heq, -⟩ | ⟨newer, ρ, older, hr, hn, -, -, heq⟩
  · rw [heq]
  · have ho : ¬ (ρ.policyID = q ∧ ρ.number = k) := fun hc =>
      hne ⟨hc.1.symm.trans hn.1, hc.2.symm.trans hn.2.1⟩
    rw [heq, hr]
    simp [charged, ho]

/-- A settlement charges the ledger when it is the first of its record. -/
theorem charged_note_self (hf : records.find? (·.names p n id) = some ρ) :
    charged (note p n id s records) p n =
      charged records p n + if ρ.settlements = [] then s.tokens.getD 0 else 0 := by
  rcases note_split p n id s records with ⟨-, hno⟩ | ⟨newer, ρ₀, older, hr, hn, -, hfi, heq⟩
  · simp [hno] at hf
  · obtain rfl : ρ₀ = ρ := Option.some.inj (hfi.symm.trans hf)
    have hm : ρ₀.policyID = p ∧ ρ₀.number = n := ⟨hn.1, hn.2.1⟩
    rw [heq, hr]
    simp only [charged, map_append, map_cons, sum_append, sum_cons, if_pos hm]
    cases hs : ρ₀.settlements with
    | nil =>
      simp only [Record.charge, hs, nil_append, if_true]
      omega
    | cons first more => simp [Record.charge, hs]

/-- A record of the same name as a newer one is settled. -/
def OldSettled (records : List Record) : Prop :=
  records.Pairwise fun newer older =>
    newer.names older.policyID older.number older.id → older.settlements ≠ []

theorem OldSettled.note (h : OldSettled records) : OldSettled (note p n id s records) := by
  rcases note_split p n id s records with ⟨heq, -⟩ | ⟨newer, ρ, older, rfl, -, -, -, heq⟩
  · rwa [heq]
  · rw [heq]
    unfold OldSettled at h ⊢
    rw [pairwise_append, pairwise_cons] at h ⊢
    refine ⟨h.1, h.2.1, fun a ha b hb => ?_⟩
    rcases mem_cons.mp hb with rfl | hb
    · simp
    · exact h.2.2 a ha b (mem_cons_of_mem _ hb)

/-- After a settlement every record of its name is settled. -/
theorem OldSettled.settled (h : OldSettled records) (hρ : ρ ∈ Budget.note p n id s records)
    (hn : ρ.names p n id) : ρ.settlements ≠ [] := by
  rcases note_split p n id s records with ⟨heq, hno⟩ | ⟨newer, ρ₀, older, rfl, hna, hne, -, heq⟩
  · rw [heq] at hρ
    exact absurd hn (by simpa using List.find?_eq_none.mp hno ρ hρ)
  · rw [heq, mem_append, mem_cons] at hρ
    rcases hρ with hρ | rfl | hρ
    · exact absurd hn (hne ρ hρ)
    · simp
    · refine (pairwise_cons.mp (pairwise_append.mp h).2.1).1 ρ hρ ?_
      rw [hn.1, hn.2.1, hn.2.2]
      exact hna

end

/-! ### One ledger and its records -/

structure Told (records : List Record) (p : String) (n : Int) (w : Window) : Prop where
  reserved : w.reserved = w.held
  nonneg : ∀ id r, w.reservations.lookup id = some r → 0 ≤ r.estimate
  consumed : w.consumed = charged records p n
  /-- A stored reservation is that of the newest record of its name. -/
  stored : ∀ id r, w.reservations.lookup id = some r →
    ∃ ρ, records.find? (·.names p n id) = some ρ ∧ (ρ.settlements = [] ↔ r.final = false)
  /-- A record that was not settled is stored. -/
  unsettled : ∀ ρ ∈ records, ρ.policyID = p → ρ.number = n → ρ.settlements = [] →
    w.reservations.lookup ρ.id = some ⟨ρ.estimate, false⟩ ∧ w.start = ρ.start

section

variable {records : List Record} {p q id : String} {n k : Int} {w : Window} {s : Settlement}
  {estimate : Int}

theorem held_nonneg (h : ∀ id r, w.reservations.lookup id = some r → 0 ≤ r.estimate) :
    0 ≤ w.held := by
  refine sum_nonneg ?_
  intro x hx
  obtain ⟨e, he, rfl⟩ := mem_map.mp hx
  have := h e.1 e.2 (lookup_of_mem he)
  dsimp only
  split <;> omega

theorem told_open (start : Int) (hno : ∀ ρ ∈ records, ¬ (ρ.policyID = p ∧ ρ.number = n)) :
    Told records p n (Window.open start) where
  reserved := rfl
  nonneg id r h := by cases h
  consumed := by
    unfold charged
    rw [map_congr_left fun ρ hρ => if_neg (hno ρ hρ), map_const']
    simp [Window.open]
  stored id r h := by cases h
  unsettled ρ hρ hp hn _ := absurd ⟨hp, hn⟩ (hno ρ hρ)

theorem held_prune (w : Window) : w.prune.held = w.held := by
  refine sum_map_filter (p := fun e : String × ReservationState => !e.2.final) fun e _ he => ?_
  simpa using fun hf => absurd hf (by simpa using he)

theorem Told.prune (h : Told records p n w) : Told records p n w.prune where
  reserved := by
    rw [held_prune]
    exact h.reserved
  nonneg id r hr := by
    rw [Window.prune, lookup_filter, filter_eq_some_iff] at hr
    exact h.nonneg id r hr.1
  consumed := h.consumed
  stored id r hr := by
    rw [Window.prune, lookup_filter, filter_eq_some_iff] at hr
    exact h.stored id r hr.1
  unsettled ρ hρ hp hn hs := by
    rw [Window.prune, lookup_filter, (h.unsettled ρ hρ hp hn hs).1]
    exact ⟨rfl, (h.unsettled ρ hρ hp hn hs).2⟩

theorem Told.hold (h : Told records p n w) (hid : w.reservations.lookup id = none)
    (he : 0 ≤ estimate) :
    Told (⟨p, n, w.start, id, estimate, []⟩ :: records) p n (w.hold id estimate) where
  reserved := by
    show w.reserved + estimate = (w.reservations.insert id ⟨estimate, false⟩).sum _
    rw [sum_insert, sum_erase_none _ hid, h.reserved]
    rfl
  nonneg id' r hr := by
    rcases lookup_insert_some hr with ⟨-, rfl⟩ | ⟨-, hr⟩
    · exact he
    · exact h.nonneg id' r hr
  consumed := by
    rw [charged, map_cons, sum_cons, if_pos ⟨rfl, rfl⟩]
    show w.consumed = 0 + charged records p n
    rw [zero_add, h.consumed]
  stored id' r hr := by
    rcases lookup_insert_some hr with ⟨rfl, rfl⟩ | ⟨hne, hr⟩
    · exact ⟨⟨p, n, w.start, id', estimate, []⟩, by simp [Record.names], by simp⟩
    · rw [List.find?_cons_of_neg (by simpa [Record.names] using hne.symm)]
      exact h.stored id' r hr
  unsettled ρ hρ hp hn hs := by
    rcases mem_cons.mp hρ with rfl | hρ
    · exact ⟨lookup_insert_self, rfl⟩
    · obtain ⟨hl, hst⟩ := h.unsettled ρ hρ hp hn hs
      have hne : ρ.id ≠ id := by
        rintro rfl
        rw [hid] at hl
        cases hl
      exact ⟨(lookup_insert_ne hne).trans hl, hst⟩

theorem Told.cons_other (h : Told records q k w) (hne : ¬ (q = p ∧ k = n)) (start : Int) :
    Told (⟨p, n, start, id, estimate, []⟩ :: records) q k w where
  reserved := h.reserved
  nonneg := h.nonneg
  consumed := by
    rw [charged, map_cons, sum_cons, if_neg fun hc => hne ⟨hc.1.symm, hc.2.symm⟩, zero_add]
    exact h.consumed
  stored id' r hr := by
    have hna : ¬ (⟨p, n, start, id, estimate, []⟩ : Record).names q k id' :=
      fun hc => hne ⟨hc.1.symm, hc.2.1.symm⟩
    rw [List.find?_cons_of_neg (by simpa using hna)]
    exact h.stored id' r hr
  unsettled ρ hρ hp hn hs := by
    rcases mem_cons.mp hρ with rfl | hρ
    · exact absurd ⟨hp.symm, hn.symm⟩ hne
    · exact h.unsettled ρ hρ hp hn hs

theorem Told.note_other (h : Told records q k w) (hne : ¬ (q = p ∧ k = n)) :
    Told (note p n id s records) q k w where
  reserved := h.reserved
  nonneg := h.nonneg
  consumed := by rw [charged_note_ne hne, h.consumed]
  stored id' r hr := by
    rw [find?_note_ne fun hc => hne ⟨hc.1, hc.2.1⟩]
    exact h.stored id' r hr
  unsettled ρ hρ hp hn hs := h.unsettled ρ (mem_note_unsettled hρ hs) hp hn hs

theorem Told.note_final (h : Told records p n w)
    (hid : w.reservations.lookup id = some ⟨estimate, true⟩) :
    Told (note p n id s records) p n w := by
  obtain ⟨ρ, hf, hi⟩ := h.stored id _ hid
  have hse : ρ.settlements ≠ [] := fun hc => by simpa using hi.mp hc
  constructor
  case reserved => exact h.reserved
  case nonneg => exact h.nonneg
  case consumed => rw [charged_note_self hf, if_neg hse, add_zero, h.consumed]
  case stored =>
    intro id' r hr
    by_cases heq : id' = id
    · subst heq
      rw [hid, Option.some.injEq] at hr
      subst hr
      exact ⟨_, by rw [find?_note_self, hf]; rfl, by simp⟩
    · rw [find?_note_ne fun hc => heq hc.2.2]
      exact h.stored id' r hr
  case unsettled =>
    intro ρ' hρ' hp hn hs
    exact h.unsettled ρ' (mem_note_unsettled hρ' hs) hp hn hs

theorem Told.note_close (h : Told records p n w) (hold : OldSettled records)
    (hid : w.reservations.lookup id = some ⟨estimate, false⟩) :
    Told (note p n id s records) p n (w.close id ⟨estimate, false⟩ (s.tokens.getD 0)) := by
  obtain ⟨ρ, hf, hi⟩ := h.stored id _ hid
  constructor
  case reserved =>
    have hsu := sum_erase_some (fun r : ReservationState => if r.final then 0 else r.estimate) hid
    show w.reserved - estimate = (w.reservations.insert id ⟨estimate, true⟩).sum _
    rw [sum_insert]
    have hh : w.held = w.reservations.sum fun r => if r.final then 0 else r.estimate := rfl
    rw [← hh, ← h.reserved] at hsu
    simp only [Bool.false_eq_true, if_false] at hsu
    simp only [if_true, add_zero]
    omega
  case nonneg =>
    intro id' r hr
    rcases lookup_insert_some hr with ⟨-, rfl⟩ | ⟨-, hr⟩
    · exact h.nonneg id ⟨estimate, false⟩ hid
    · exact h.nonneg id' r hr
  case consumed =>
    rw [charged_note_self hf, if_pos (hi.mpr rfl), ← h.consumed]
    rfl
  case stored =>
    intro id' r hr
    rcases lookup_insert_some hr with ⟨rfl, rfl⟩ | ⟨hne, hr⟩
    · exact ⟨_, by rw [find?_note_self, hf]; rfl, by simp⟩
    · rw [find?_note_ne fun hc => hne hc.2.2]
      exact h.stored id' r hr
  case unsettled =>
    intro ρ' hρ' hp hn hs
    have hne : ρ'.id ≠ id := fun hc => hold.settled hρ' ⟨hp, hn, hc⟩ hs
    obtain ⟨hl, hst⟩ := h.unsettled ρ' (mem_note_unsettled hρ' hs) hp hn hs
    exact ⟨(lookup_insert_ne hne).trans hl, hst⟩

end

/-! ### Where the ledgers are -/

section

variable {m : Manager} {policy : Policy} {p q id : String} {w w' : Window} {place place' : Place}

/-- What a settlement finds: the current ledger is asked first. -/
theorem ledgerFor_some {r : ReservationState} (h : m.ledgerFor p id = some (place, w, r)) :
    m.ledgerIn p place = some w ∧ w.reservations.lookup id = some r := by
  unfold ledgerFor at h
  simp only [or_eq_some_iff, bind_eq_some_iff, map_eq_some_iff, Prod.mk.injEq]
    at h
  rcases h with ⟨_, hw, _, hid, rfl, rfl, rfl⟩ | ⟨-, retired, hr, _, hid, rfl, rfl, rfl⟩
  · exact ⟨hw, hid⟩
  · exact ⟨by simp [ledgerIn, hr], hid⟩

theorem ledgerIn_store_self (hw : m.ledgerIn p place = some w) :
    (m.store p w' place).ledgerIn p place = some w' := by
  cases place with
  | current => exact lookup_insert_self
  | retired =>
    obtain ⟨r, hr, rfl⟩ := map_eq_some_iff.mp hw
    simp [store, ledgerIn, hr]

theorem ledgerIn_store_ne (hne : ¬ (q = p ∧ place' = place)) :
    (m.store p w' place).ledgerIn q place' = m.ledgerIn q place' := by
  cases place with
  | current =>
    cases place' with
    | current => exact lookup_insert_ne (fun hc => hne ⟨hc, rfl⟩)
    | retired => rfl
  | retired =>
    cases hr : m.retired.lookup p with
    | none => simp only [store, hr]
    | some r =>
      simp only [store, hr]
      cases place' with
      | current => rfl
      | retired =>
        simp only [ledgerIn]
        rw [lookup_insert_ne fun hc => hne ⟨hc, rfl⟩]

theorem ledgerIn_sweepLocked {now : Int} (h : (m.sweepLocked now).ledgerIn p place = some w') :
    ∃ w, m.ledgerIn p place = some w ∧ (w' = w ∨ w' = w.prune) := by
  unfold sweepLocked at h
  by_cases hd : now - m.lastSweep < sweepInterval
  · rw [if_pos hd] at h
    exact ⟨w', h, .inl rfl⟩
  · rw [if_neg hd] at h
    cases place with
    | current =>
      simp only [ledgerIn, lookup_map, map_eq_some_iff] at h
      obtain ⟨w, hw, rfl⟩ := h
      exact ⟨w, hw, .inr rfl⟩
    | retired =>
      simp only [ledgerIn, lookup_filter, map_eq_some_iff, filter_eq_some_iff] at h
      obtain ⟨r, ⟨hr, -⟩, rfl⟩ := h
      exact ⟨r.state, by simp [ledgerIn, hr], .inl rfl⟩

theorem opens_sweepLocked (now : Int) : (m.sweepLocked now).opens policy = m.opens policy := by
  unfold opens
  rw [lookup_sweepLocked]
  cases m.windows.lookup policy.id with
  | none => rfl
  | some w =>
    simp only [map_some, all_some]
    split <;> rfl

/-- A ledger of the window start is in place: `Reserve` takes it. -/
theorem ledger_of_not_opens (h : m.opens policy = false) (now : Int) :
    (m.ledger policy now).2 = m := by
  unfold ledger
  unfold opens at h
  cases hw : m.windows.lookup policy.id with
  | none => simp [hw] at h
  | some w =>
    have hs : w.start = policy.windowStart := by simpa [hw] using h
    simp only [if_pos hs]

/-- Opening a ledger moves the one in place, if any, to the retired ones. -/
theorem ledger_of_opens (h : m.opens policy) (now : Int) :
    (m.ledger policy now).1 = Window.open policy.windowStart ∧
      (m.ledger policy now).2.ledgerIn policy.id .current = some (Window.open policy.windowStart) ∧
      (m.ledger policy now).2.ledgerIn policy.id .retired =
        (m.ledgerIn policy.id .current).or (m.ledgerIn policy.id .retired) ∧
      ∀ q place, q ≠ policy.id → (m.ledger policy now).2.ledgerIn q place = m.ledgerIn q place := by
  unfold ledger
  unfold opens at h
  cases hw : m.windows.lookup policy.id with
  | none =>
    refine ⟨rfl, lookup_insert_self, ?_, ?_⟩
    · simp [ledgerIn, hw]
    · intro q place hq
      cases place with
      | current => exact lookup_insert_ne hq
      | retired => rfl
  | some w =>
    have hs : w.start ≠ policy.windowStart := by simpa [hw] using h
    simp only [if_neg hs, true_and]
    refine ⟨lookup_insert_self, ?_, ?_⟩
    · simp [ledgerIn, hw]
    · intro q place hq
      cases place with
      | current => exact lookup_insert_ne hq
      | retired =>
        simp only [ledgerIn]
        rw [lookup_insert_ne hq]

/-- What `Reserve` leaves under the lock. -/
theorem reserveLocked_snd (m : Manager) (policy : Policy) (id : String) (estimate now : Int) :
    m.admits policy id estimate now = true ∧
        ((m.sweepLocked now).ledger policy now).1.reservations.lookup id = none ∧
        (m.reserveLocked policy id estimate now).2 =
          ((m.sweepLocked now).ledger policy now).2.store policy.id
            (((m.sweepLocked now).ledger policy now).1.hold id estimate) .current ∨
      m.admits policy id estimate now = false ∧
        (m.reserveLocked policy id estimate now).2 = ((m.sweepLocked now).ledger policy now).2 := by
  cases hid : ((m.sweepLocked now).ledger policy now).1.reservations.lookup id with
  | some r =>
    right
    refine ⟨by simp [admits, hid], ?_⟩
    simp only [reserveLocked, hid]
  | none =>
    simp only [admits, hid, reserveLocked_eq rfl hid, isNone_none, Bool.true_and]
    by_cases hf : (policy.mode = .hard && policy.tokenLimit <
        ((m.sweepLocked now).ledger policy now).1.reserved +
          ((m.sweepLocked now).ledger policy now).1.consumed + estimate) = true
    · rw [if_pos hf]
      exact .inr ⟨rfl, rfl⟩
    · rw [if_neg hf]
      exact .inl ⟨rfl, trivial, rfl⟩

end

/-! ### A call in its parts -/

/-- Only the sweep of a call. -/
def History.swept (now : Int) : History :=
  { h with manager := h.manager.sweepLocked now }

/-- Only the opening of a ledger, where one is needed. -/
def History.opening (policy : Policy) (now : Int) : History :=
  if h.manager.opens policy then
    { h with
      manager := (h.manager.ledger policy now).2
      opened := Function.update h.opened policy.id (h.opened policy.id + 1) }
  else h

/-- Only the admission of a reservation into the ledger in place. -/
def History.holding (p : String) (w : Window) (id : String) (estimate : Int) : History :=
  { h with
    manager := h.manager.store p (w.hold id estimate) .current
    records := ⟨p, h.opened p, w.start, id, estimate, []⟩ :: h.records }

/-- Only the settlement of a reservation. -/
def History.settling (p id : String) (tokens : Option Int) : History :=
  { h with
    manager := h.manager.settle p id (tokens.getD 0)
    records := h.noted p id tokens (h.manager.settle p id (tokens.getD 0)) }

section

variable {h : History} {policy : Policy} {p id : String} {estimate ending starting now : Int}

theorem opening_manager : (h.opening policy now).manager = (h.manager.ledger policy now).2 := by
  unfold History.opening
  by_cases ho : h.manager.opens policy = true
  · rw [if_pos ho]
  · rw [if_neg ho, ledger_of_not_opens (Bool.eq_false_iff.mpr ho)]

theorem opening_records : (h.opening policy now).records = h.records := by
  unfold History.opening
  split <;> rfl

theorem opening_opened : (h.opening policy now).opened =
    if h.manager.opens policy then update h.opened policy.id (h.opened policy.id + 1)
    else h.opened := by
  unfold History.opening
  split <;> rfl

/-- A request that passes its check sweeps, opens its ledger and may be admitted there. -/
theorem step_reserve (now : Int) (had : policy.admissibleAt id estimate ending starting) :
    ∃ w, ((h.swept now).opening policy now).manager.ledgerIn policy.id .current = some w ∧
      (h.manager.admits policy id estimate now = true ∧ w.reservations.lookup id = none ∧
        h.step (.reserve policy id estimate ending starting now) =
          ((h.swept now).opening policy now).holding policy.id w id estimate ∨
      h.manager.admits policy id estimate now = false ∧
        h.step (.reserve policy id estimate ending starting now) =
          (h.swept now).opening policy now) := by
  obtain ⟨hf, hl⟩ := ledger_spec (h.manager.sweepLocked now) policy now
  have ho : ((h.swept now).opening policy now).opened =
      if h.manager.opens policy then update h.opened policy.id (h.opened policy.id + 1)
      else h.opened := by
    simp only [opening_opened, History.swept, opens_sweepLocked]
  have hs := ledgerOf_start (h.manager.sweepLocked now) policy
  refine ⟨(h.manager.sweepLocked now).ledgerOf policy, ?_, ?_⟩
  · rw [opening_manager]
    exact hl
  · simp only [History.step, reserveAt, if_pos had]
    rcases reserveLocked_snd h.manager policy id estimate now with ⟨ha, hid, hsn⟩ | ⟨ha, hsn⟩
    · rw [hf] at hid hsn
      refine .inl ⟨ha, hid, ?_⟩
      simp only [History.holding, ha, if_true, opening_manager, opening_records, ho, hsn, hs]
      rfl
    · refine .inr ⟨ha, ?_⟩
      simp only [ha, Bool.false_eq_true, if_false, hsn, ← ho]
      refine History.ext ?_ rfl ?_
      · rw [opening_manager]
        rfl
      · rw [opening_records]
        rfl

theorem step_reserve_inadmissible (ha : policy.admissibleAt id estimate ending starting = false) :
    h.step (.reserve policy id estimate ending starting now) = h := by
  simp [History.step, reserveAt, ha]

theorem step_reconcile {actual : Int} (hn : ¬ actual < 0) :
    h.step (.reconcile p id actual) = h.settling p id (some actual) := by
  simp only [History.step, reconcile, if_neg hn, History.settling, getD_some]
  cases hf : h.manager.ledgerFor p id with
  | none => simp [History.noted, settle, hf, Except.isOk, Except.toBool]
  | some found => rfl

theorem step_reconcile_negative {actual : Int} (hn : actual < 0) :
    h.step (.reconcile p id actual) = h := by
  simp [History.step, reconcile, hn, Except.isOk, Except.toBool]

/-- A settlement finds nothing, finds a final reservation, or closes an open one. -/
theorem settling_cases (h : History) (p id : String) (tokens : Option Int) :
    h.settling p id tokens = h ∨ ∃ place w estimate, h.manager.ledgerIn p place = some w ∧
        (w.reservations.lookup id = some ⟨estimate, true⟩ ∧ h.settling p id tokens = { h with
              records := note p (h.number p place) id ⟨tokens, h.manager, h.manager⟩ h.records } ∨
        w.reservations.lookup id = some ⟨estimate, false⟩ ∧ h.settling p id tokens = { h with
              manager := h.manager.store p (w.close id ⟨estimate, false⟩ (tokens.getD 0)) place
              records := note p (h.number p place) id ⟨tokens, h.manager,
                  h.manager.store p (w.close id ⟨estimate, false⟩ (tokens.getD 0)) place⟩
                h.records }) := by
  cases hf : h.manager.ledgerFor p id with
  | none =>
    left
    simp only [History.settling, History.noted, settle, hf]
  | some found =>
    right
    obtain ⟨place, w, estimate, final⟩ := found
    obtain ⟨hw, hid⟩ := ledgerFor_some hf
    refine ⟨place, w, estimate, hw, ?_⟩
    simp only [History.settling, History.noted, settle, hf]
    cases final with
    | true => exact .inl ⟨hid, rfl⟩
    | false => exact .inr ⟨hid, rfl⟩

end

/-! ### Every call keeps the books -/

structure Tracked (h : History) : Prop where
  told : ∀ p place w, h.manager.ledgerIn p place = some w → Told h.records p (h.number p place) w
  old : OldSettled h.records
  /-- No record is of a ledger that was not opened. -/
  known : ∀ ρ ∈ h.records, ρ.number ≤ h.opened ρ.policyID
  /-- A retired ledger has a successor. -/
  succeeded : ∀ p, h.manager.windows.lookup p = none → h.manager.retired.lookup p = none
  /-- Only the first settlement of a record changed anything. -/
  once : ∀ ρ ∈ h.records, ∀ s ∈ ρ.settlements.tail, s.after = s.before

section

variable {h : History} {p : String}

theorem tracked_new : Tracked (History.new clock) where
  told p place w hw := by cases place <;> simp [History.new, new, ledgerIn] at hw
  old := List.Pairwise.nil
  known ρ hρ := by cases hρ
  succeeded p _ := rfl
  once ρ hρ := by cases hρ

theorem Tracked.swept (ht : Tracked h) (now : Int) : Tracked (h.swept now) where
  told p place w hw := by
    obtain ⟨w₀, hw₀, rfl | rfl⟩ := ledgerIn_sweepLocked hw
    · exact ht.told p place _ hw₀
    · exact (ht.told p place _ hw₀).prune
  old := ht.old
  known := ht.known
  succeeded p hp := by
    have hn : h.manager.windows.lookup p = none := by
      simpa [History.swept, lookup_sweepLocked] using hp
    show (h.manager.sweepLocked now).retired.lookup p = none
    unfold sweepLocked
    split
    · exact ht.succeeded p hn
    · rw [lookup_filter, ht.succeeded p hn]
      rfl
  once := ht.once

/-- No record has the number of a ledger that is yet to be opened. -/
theorem Tracked.told_next (ht : Tracked h) (p : String) (start : Int) :
    Told h.records p (h.opened p + 1) (.open start) := by
  refine told_open _ ?_
  rintro ρ hρ ⟨rfl, hn⟩
  have hle := ht.known ρ hρ
  omega

/-- The ledger that is displaced is the one in place, if there is any. -/
theorem Tracked.told_displaced (ht : Tracked h) {w : Window}
    (hw : (h.manager.ledgerIn p .current).or (h.manager.ledgerIn p .retired) = some w) :
    Told h.records p (h.number p .current) w := by
  cases hin : h.manager.ledgerIn p .current with
  | some v =>
    rw [hin] at hw
    obtain rfl := Option.some.inj hw
    exact ht.told p .current v hin
  | none =>
    rw [hin, none_or] at hw
    simp [ledgerIn, ht.succeeded p hin] at hw

/-- The new ledger has the next number, so the ledger it displaces keeps its own. -/
theorem Tracked.opening (ht : Tracked h) (policy : Policy) (now : Int) :
    Tracked (h.opening policy now) := by
  unfold History.opening
  by_cases ho : h.manager.opens policy = true
  swap
  · rw [if_neg ho]
    exact ht
  rw [if_pos ho]
  obtain ⟨-, hc, hre, hot⟩ := ledger_of_opens ho now
  constructor
  case told =>
    intro p place w hw
    by_cases hp : p = policy.id
    · subst hp
      cases place with
      | current =>
        rw [hc, Option.some.injEq] at hw
        subst hw
        show Told h.records policy.id
          (update h.opened policy.id (h.opened policy.id + 1) policy.id) _
        rw [update_self]
        exact ht.told_next policy.id policy.windowStart
      | retired =>
        have hn : update h.opened policy.id (h.opened policy.id + 1) policy.id - 1
            = h.number policy.id .current := by
          rw [update_self]
          exact add_sub_cancel_right _ _
        show Told h.records policy.id
          (update h.opened policy.id (h.opened policy.id + 1) policy.id - 1) w
        rw [hn]
        exact ht.told_displaced (hre.symm.trans hw)
    · rw [hot p place hp] at hw
      have hn : History.number { h with
            manager := (h.manager.ledger policy now).2
            opened := update h.opened policy.id (h.opened policy.id + 1) } p place
          = h.number p place := by
        cases place <;> simp [History.number, update_of_ne hp]
      rw [hn]
      exact ht.told p place w hw
  case old => exact ht.old
  case known =>
    intro ρ hρ
    have hle := ht.known ρ hρ
    show ρ.number ≤ update h.opened policy.id (h.opened policy.id + 1) ρ.policyID
    by_cases hp : ρ.policyID = policy.id
    · rw [hp, update_self]
      rw [hp] at hle
      omega
    · rw [update_of_ne hp]
      exact hle
  case succeeded =>
    intro p hno
    by_cases hp : p = policy.id
    · subst hp
      have hs : (h.manager.ledger policy now).2.windows.lookup policy.id = _ := hc
      rw [hs] at hno
      cases hno
    · have hwi : (h.manager.ledger policy now).2.windows.lookup p = _ := hot p .current hp
      have hr := hot p .retired hp
      rw [hwi] at hno
      simpa [ledgerIn, ht.succeeded p hno] using hr
  case once => exact ht.once

theorem number_inj {p q : String} (place : Place) {place' : Place}
    (hne : ¬ (q = p ∧ place' = place)) : ¬ (q = p ∧ h.number q place' = h.number p place) := by
  rintro ⟨rfl, hn⟩
  refine hne ⟨rfl, ?_⟩
  cases place <;> cases place' <;> simp only [History.number] at hn <;> first | rfl | omega

variable {id : String} {records : List Record} {n : Int} {s : Settlement}

theorem succeeded_store {m : Manager} {place : Place} {w w' : Window}
    (h : ∀ q, m.windows.lookup q = none → m.retired.lookup q = none)
    (hw : m.ledgerIn p place = some w) (q : String)
    (hq : (m.store p w' place).windows.lookup q = none) :
    (m.store p w' place).retired.lookup q = none := by
  cases place with
  | current =>
    refine h q ?_
    by_cases hqp : q = p
    · subst hqp
      rw [store, lookup_insert_self] at hq
      cases hq
    · exact (lookup_insert_ne hqp).symm.trans hq
  | retired =>
    obtain ⟨r, hr, rfl⟩ := map_eq_some_iff.mp hw
    simp only [store, hr] at hq ⊢
    have hqp : q ≠ p := by
      rintro rfl
      rw [h q hq] at hr
      cases hr
    rw [lookup_insert_ne hqp]
    exact h q hq

theorem Tracked.holding (ht : Tracked h) {w : Window} (hw : h.manager.ledgerIn p .current = some w)
    (hid : w.reservations.lookup id = none) {estimate : Int} (he : 0 ≤ estimate) :
    Tracked (h.holding p w id estimate) where
  told q place v hv := by
    show Told _ q (h.number q place) v
    by_cases hsa : q = p ∧ place = .current
    · obtain ⟨rfl, rfl⟩ := hsa
      obtain rfl : w.hold id estimate = v :=
        Option.some.inj ((ledgerIn_store_self hw).symm.trans hv)
      exact (ht.told q .current w hw).hold hid he
    · have hv' : h.manager.ledgerIn q place = some v := (ledgerIn_store_ne hsa).symm.trans hv
      exact (ht.told q place v hv').cons_other (number_inj .current hsa) ..
  old := by
    refine pairwise_cons.mpr ⟨?_, ht.old⟩
    intro ρ hρ hn ho
    have hs := (ht.told p .current w hw).unsettled ρ hρ hn.1.symm hn.2.1.symm ho
    rw [← hn.2.2, hid] at hs
    cases hs.1
  known ρ hρ := by
    rcases mem_cons.mp hρ with rfl | hρ
    · exact le_rfl
    · exact ht.known ρ hρ
  succeeded := succeeded_store ht.succeeded hw
  once ρ hρ := by
    rcases mem_cons.mp hρ with rfl | hρ
    · simp
    · exact ht.once ρ hρ

theorem once_note (h : ∀ ρ ∈ records, ∀ s ∈ ρ.settlements.tail, s.after = s.before)
    (hs : ∀ ρ, records.find? (·.names p n id) = some ρ → ρ.settlements ≠ [] → s.after = s.before) :
    ∀ ρ ∈ note p n id s records, ∀ s ∈ ρ.settlements.tail, s.after = s.before := by
  intro ρ hρ
  rcases mem_note hρ with hρ | ⟨ρ₀, hm, hf, rfl⟩
  · exact h ρ hρ
  · intro s' hs'
    cases hl : ρ₀.settlements with
    | nil => simp [hl] at hs'
    | cons first more =>
      have hne : ρ₀.settlements ≠ [] := by simp [hl]
      simp only [hl, cons_append, tail_cons, mem_append, mem_singleton] at hs'
      rcases hs' with hs' | rfl
      · exact h ρ₀ hm s' (by simpa [hl] using hs')
      · exact hs ρ₀ hf hne

theorem known_note {opened : String → Int} (h : ∀ ρ ∈ records, ρ.number ≤ opened ρ.policyID) :
    ∀ ρ ∈ note p n id s records, ρ.number ≤ opened ρ.policyID := by
  intro ρ hρ
  rcases mem_note hρ with hρ | ⟨ρ₀, hm, -, rfl⟩
  · exact h ρ hρ
  · exact h ρ₀ hm

theorem Tracked.settling (ht : Tracked h) (p id : String) (tokens : Option Int) :
    Tracked (h.settling p id tokens) := by
  rcases settling_cases h p id tokens with heq | ⟨place, w, estimate, hw, ⟨hid, heq⟩ | ⟨hid, heq⟩⟩
  · rw [heq]
    exact ht
  · rw [heq]
    refine ⟨?_, ht.old.note, known_note ht.known, ht.succeeded, once_note ht.once fun _ _ _ => rfl⟩
    intro q place' v hv
    by_cases hs : q = p ∧ place' = place
    · obtain ⟨rfl, rfl⟩ := hs
      obtain rfl : w = v := Option.some.inj (hw.symm.trans hv)
      exact (ht.told q place' w hw).note_final hid
    · exact (ht.told q place' v hv).note_other (number_inj _ hs)
  · rw [heq]
    refine ⟨?_, ht.old.note, known_note ht.known, succeeded_store ht.succeeded hw,
      once_note ht.once ?_⟩
    · intro q place' v hv
      by_cases hs : q = p ∧ place' = place
      · obtain ⟨rfl, rfl⟩ := hs
        obtain rfl := Option.some.inj ((ledgerIn_store_self hw).symm.trans hv)
        exact (ht.told q place' w hw).note_close ht.old hid
      · have hv' : h.manager.ledgerIn q place' = some v := (ledgerIn_store_ne hs).symm.trans hv
        exact (ht.told q place' v hv').note_other (number_inj _ hs)
    · -- the record of an open reservation has no settlement yet
      intro ρ hfi hne
      obtain ⟨ρ₀, hf, hi⟩ := (ht.told p place w hw).stored id _ hid
      rw [hfi, Option.some.injEq] at hf
      exact absurd (hi.mpr rfl) (hf ▸ hne)

theorem Tracked.resetSweep (ht : Tracked h) :
    Tracked { h with manager := { h.manager with lastSweep := 0 } } := by
  refine ⟨?_, ht.old, ht.known, ht.succeeded, ht.once⟩
  intro p place w hw
  refine ht.told p place w ?_
  cases place <;> exact hw

theorem Tracked.step (ht : Tracked h) (c : Call) : Tracked (h.step c) := by
  cases c with
  | reserve policy id estimate ending starting now =>
    cases ha : policy.admissibleAt id estimate ending starting with
    | false =>
      rw [step_reserve_inadmissible ha]
      exact ht
    | true =>
      have he : 0 ≤ estimate := by
        simp only [Policy.admissibleAt, Bool.not_eq_true', Bool.or_eq_false_iff,
          decide_eq_false_iff_not, not_lt] at ha
        exact ha.1.1.1.1.2
      have ho := (ht.swept now).opening policy now
      obtain ⟨w, hw, ⟨-, hid, heq⟩ | ⟨-, heq⟩⟩ := step_reserve (h := h) now ha
      · rw [heq]
        exact ho.holding hw hid he
      · rw [heq]
        exact ho
  | reconcile p id actual =>
    by_cases hn : actual < 0
    · rw [step_reconcile_negative hn]
      exact ht
    · rw [step_reconcile hn]
      exact ht.settling p id _
  | release p id => exact ht.settling p id none
  | sweep now => exact ht.resetSweep.swept now

theorem tracked_run (calls : List Call) :
    Tracked (run History.step (History.new clock) calls) :=
  run_invariant (fun _ c ht => ht.step c) calls (tracked_new clock)

end

/-- **The ledgers add up.** After any calls, in each of a policy's ledgers, what is reserved
is what the stored open reservations were estimated at, and what is consumed is what the
`Reconcile`s among the first settlements of its reservations brought; and a settlement that
reached a reservation after the first changed nothing. -/
theorem ledgers_conserved (clock : Int) (calls : List Call) :
    (∀ p place w, (run History.step (History.new clock) calls).manager.ledgerIn p place = some w →
      w.reserved = w.held ∧ 0 ≤ w.reserved ∧
        w.consumed = charged (run History.step (History.new clock) calls).records p
          ((run History.step (History.new clock) calls).number p place)) ∧
      ∀ ρ ∈ (run History.step (History.new clock) calls).records,
        ∀ s ∈ ρ.settlements.tail, s.after = s.before := by
  have ht := tracked_run clock calls
  refine ⟨?_, ht.once⟩
  intro p place w hw
  have hto := ht.told p place w hw
  refine ⟨hto.reserved, ?_, hto.consumed⟩
  rw [hto.reserved]
  exact held_nonneg hto.nonneg

end LiteAIG.Budget
