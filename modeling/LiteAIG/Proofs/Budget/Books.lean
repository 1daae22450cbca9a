/-
The budget manager's ledgers against a log of what was admitted.

The log has an entry for every reservation that was ever admitted, and says what
became of it, whatever happened to the ledger it was entered in.  While requests
come in the order of their windows, the ledger in place counts exactly what the log
says of its window, and the open reservations of both ledgers of a policy are the
open entries of theirs.
-/
import LiteAIG.Lib.Lists
import LiteAIG.Budget.Manager

namespace LiteAIG.Budget

open Lib Assoc List Manager

/-! ### The log -/

inductive EntryState
  | held
  | reconciled (actual : Int)
  | released
  deriving DecidableEq

/-- An admitted reservation: under which policy and window, and what became of it. -/
structure Entry where
  policyID : String
  start : Int
  id : String
  estimate : Int
  state : EntryState

def Entry.amount (e : Entry) : Int :=
  match e.state with
  | .held => e.estimate
  | .reconciled actual => actual
  | .released => 0

/-- The state a reservation is left in when it is closed for `actual` tokens. -/
def EntryState.settles (actual : Int) (s : EntryState) : Prop :=
  s = .reconciled actual ∨ s = .released ∧ actual = 0

/-- What the window has taken: open estimates and reconciled actuals. -/
def total (log : List Entry) (policyID : String) (start : Int) : Int :=
  (log.map fun e => if e.policyID = policyID ∧ e.start = start then e.amount else 0).sum

/-- The entry is about this reservation. -/
def Entry.names (e : Entry) (policyID : String) (start : Int) (id : String) : Prop :=
  e.policyID = policyID ∧ e.start = start ∧ e.id = id
  deriving Decidable

def Entry.settle (policyID : String) (start : Int) (id : String) (state : EntryState) (e : Entry) :
    Entry :=
  if e.names policyID start id ∧ e.state = .held then { e with state } else e

/-- The log after a settlement reached the ledger that holds the reservation. -/
def settleLog (m : Manager) (policyID id : String) (state : EntryState) (log : List Entry) :
    List Entry :=
  match m.ledgerFor policyID id with
  | none => log
  | some (_, w, r) => if r.final then log else log.map (Entry.settle policyID w.start id state)

/-! ### Sums over the log -/

variable {m : Manager} {log : List Entry}
  {actual start st estimate : Int} {s : EntryState} {i id : String} {r : RetiredWindow}

theorem EntryState.settles.ne_held (h : s.settles actual) : s ≠ .held := by
  rcases h with rfl | ⟨rfl, -⟩ <;> simp

theorem EntryState.settles.amount (h : s.settles actual) (e : Entry) :
    ({ e with state := s } : Entry).amount = actual := by
  rcases h with rfl | ⟨rfl, rfl⟩ <;> rfl

theorem total_append (e : Entry) (pid : String) :
    total (log ++ [e]) pid start = total log pid start
        + if e.policyID = pid ∧ e.start = start then e.amount else 0 := by
  simp [total]

theorem total_eq_zero {pid : String}
    (h : ∀ e ∈ log, ¬ (e.policyID = pid ∧ e.start = start)) :
    total log pid start = 0 := by
  unfold total
  rw [map_congr_left fun e he => if_neg (h e he), map_const']
  simp

/-- Two open entries about one reservation. -/
def Entry.Clash (a b : Entry) : Prop :=
  a.names b.policyID b.start b.id ∧ a.state = .held ∧ b.state = .held

theorem Entry.Clash.symm {a b : Entry} (h : a.Clash b) : b.Clash a :=
  ⟨⟨h.1.1.symm, h.1.2.1.symm, h.1.2.2.symm⟩, h.2.2, h.2.1⟩

/-- No two open entries are about one reservation. -/
def Distinct (log : List Entry) : Prop :=
  log.Pairwise fun a b => ¬ a.Clash b

variable (p : String) {w : Window}

section

variable (st : Int) (i : String) (s : EntryState) (e : Entry)

@[simp] theorem Entry.settle_policyID :
    (e.settle p st i s).policyID = e.policyID := by
  unfold Entry.settle
  split <;> rfl

@[simp] theorem Entry.settle_start :
    (e.settle p st i s).start = e.start := by
  unfold Entry.settle
  split <;> rfl

end

theorem Entry.settle_of_ne {p : String} {e : Entry} (h : ¬ (e.names p st i ∧ e.state = .held)) :
    e.settle p st i s = e := if_neg h

/-- An entry that is open after a settlement was open before, and is not what was settled. -/
theorem Entry.settle_held {p : String} {e : Entry} (hs : s ≠ .held)
    (h : (e.settle p st i s).state = .held) : e.settle p st i s = e ∧ ¬ e.names p st i := by
  by_cases hc : e.names p st i ∧ e.state = .held
  · rw [Entry.settle, if_pos hc] at h
    exact absurd h hs
  · have heq : e.settle p st i s = e := Entry.settle_of_ne hc
    rw [heq] at h
    exact ⟨heq, fun hn => hc ⟨hn, h⟩⟩

theorem Distinct.settle (hd : Distinct log) (p : String) (st : Int) (i : String) (hs : s ≠ .held) :
    Distinct (log.map (Entry.settle p st i s)) := by
  unfold Distinct at hd ⊢
  rw [pairwise_map]
  refine hd.imp ?_
  intro a b hab hc
  rw [(Entry.settle_held hs hc.2.1).1, (Entry.settle_held hs hc.2.2).1] at hc
  exact hab hc

/-- Settling one held reservation moves its own window's total by the change of amount. -/
theorem total_settle (hd : Distinct log) {e : Entry} (hm : e ∈ log)
    (hh : e.state = .held) (pid : String) :
    total (log.map (Entry.settle e.policyID e.start e.id s)) pid start
      = total log pid start + if e.policyID = pid ∧ e.start = start then
            ({ e with state := s } : Entry).amount - e.estimate else 0 := by
  have hs : e.settle e.policyID e.start e.id s = { e with state := s } :=
    if_pos ⟨⟨rfl, rfl, rfl⟩, hh⟩
  have ha : e.amount = e.estimate := by
    unfold Entry.amount
    rw [hh]
  unfold total
  rw [sum_map_change _ (Entry.settle e.policyID e.start e.id s) hm (fun _ _ h => h.symm) hd
    fun a _ hne => Entry.settle_of_ne fun hc => hne ⟨hc.1, hc.2, hh⟩, hs, ha]
  by_cases h : e.policyID = pid ∧ e.start = start <;> simp [h]

theorem mem_settle {p : String} (hs : s ≠ .held) {e : Entry} (he : e.state = .held) :
    e ∈ log.map (Entry.settle p st i s) ↔ e ∈ log ∧ ¬ e.names p st i := by
  rw [mem_map]
  constructor
  · rintro ⟨x, hx, rfl⟩
    obtain ⟨heq, hn⟩ := Entry.settle_held hs he
    rw [heq]
    exact ⟨hx, hn⟩
  · intro h
    exact ⟨e, h.1, Entry.settle_of_ne fun hc => h.2 hc.1⟩

/-! ### What ties the ledgers to the log -/

/-- The open reservations of a ledger are the open entries of its window. -/
def Mirrors (log : List Entry) (policyID : String) (w : Window) : Prop :=
  ∀ id estimate, w.reservations.lookup id = some ⟨estimate, false⟩ ↔
    (⟨policyID, w.start, id, estimate, .held⟩ : Entry) ∈ log

structure Balanced (m : Manager) (log : List Entry) : Prop where
  distinct : Distinct log
  /-- The ledger in place counts what the log says of its window. -/
  counts : ∀ p w, m.windows.lookup p = some w → w.reserved + w.consumed = total log p w.start
  current : ∀ p w, m.windows.lookup p = some w → Mirrors log p w
  retired : ∀ p r, m.retired.lookup p = some r → Mirrors log p r.state
  /-- A retired ledger is of an older window than the one in place. -/
  older : ∀ p r, m.retired.lookup p = some r →
    ∃ w, m.windows.lookup p = some w ∧ r.state.start < w.start
  /-- Nothing was admitted for a window newer than the ledger in place. -/
  newest : ∀ e ∈ log, ∃ w, m.windows.lookup e.policyID = some w ∧ e.start ≤ w.start

theorem balanced_new (now : Int) : Balanced (new now) [] where
  distinct := List.Pairwise.nil
  counts p w h := by simp [new] at h
  current p w h := by simp [new] at h
  retired p r h := by simp [new] at h
  older p r h := by simp [new] at h
  newest e he := by simp at he

section

variable (hb : Balanced m log) {p : String} (hw : m.windows.lookup p = some w)
include hb hw

theorem Balanced.start_le {e : Entry} (he : e ∈ log) (hp : e.policyID = p) :
    e.start ≤ w.start := by
  obtain ⟨w', hw', hle⟩ := hb.newest e he
  rw [hp, hw, Option.some.injEq] at hw'
  rwa [hw']

theorem Balanced.retired_lt (hr : m.retired.lookup p = some r) :
    r.state.start < w.start := by
  obtain ⟨w', hw', hlt⟩ := hb.older p r hr
  rw [hw, Option.some.injEq] at hw'
  rwa [hw']

end

section

variable {p : String} (h : Mirrors log p w)
include h

theorem Mirrors.prune : Mirrors log p w.prune := by
  intro id estimate
  show (w.reservations.filter _).lookup id = _ ↔ ⟨p, w.start, id, estimate, .held⟩ ∈ log
  rw [← h id estimate]
  simp [lookup_filter, Option.filter_eq_some_iff]

theorem Mirrors.settle_other (hs : s ≠ .held)
    (hne : w.start ≠ st) : Mirrors (log.map (Entry.settle p st i s)) p w := by
  intro id estimate
  rw [mem_settle hs rfl, h id estimate]
  exact ⟨fun hm => ⟨hm, fun hn => hne hn.2.1⟩, fun hm => hm.1⟩

theorem Mirrors.close (id : String) (r : ReservationState) (actual : Int) (hs : s ≠ .held) :
    Mirrors (log.map (Entry.settle p w.start id s)) p (w.close id r actual) := by
  intro id' estimate
  show (w.reservations.insert id { r with final := true }).lookup id' = _ ↔
    (⟨p, w.start, id', estimate, .held⟩ : Entry) ∈ _
  rw [mem_settle hs rfl, ← h id' estimate]
  by_cases hid : id' = id
  · subst hid
    rw [lookup_insert_self]
    simp [Entry.names]
  · rw [lookup_insert_ne hid]
    exact ⟨fun hl => ⟨hl, fun hn => hid hn.2.2⟩, fun hl => hl.1⟩

theorem Mirrors.append_other (hne : w.start ≠ st) :
    Mirrors (log ++ [⟨p, st, i, estimate, .held⟩]) p w := by
  intro id est
  rw [mem_append, mem_singleton, h id est, Entry.mk.injEq]
  exact ⟨Or.inl, fun hc => hc.resolve_right fun heq => hne heq.2.1⟩

end

/-- Two logs that differ in the entries of one policy only. -/
def SameElsewhere (p : String) (log log' : List Entry) : Prop :=
  log'.filter (·.policyID ≠ p) = log.filter (·.policyID ≠ p)

theorem SameElsewhere.refl (log : List Entry) : SameElsewhere p log log := rfl

theorem sameElsewhere_append {p : String} {e : Entry} (he : e.policyID = p) :
    SameElsewhere p log (log ++ [e]) := by
  simp [SameElsewhere, he]

theorem sameElsewhere_settle :
    SameElsewhere p log (log.map (Entry.settle p st i s)) := by
  unfold SameElsewhere
  induction log with
  | nil => rfl
  | cons e rest ih =>
    rw [map_cons, filter_cons, filter_cons, Entry.settle_policyID, ih]
    by_cases he : e.policyID = p
    · simp [he]
    · rw [Entry.settle_of_ne fun hc => he hc.1.1]

section

variable {p q : String} {log' : List Entry}

section

variable (h : SameElsewhere p log log')

include h

theorem SameElsewhere.mem {e : Entry} (he : e.policyID ≠ p) :
    e ∈ log' ↔ e ∈ log := by
  have hm : e ∈ log'.filter (·.policyID ≠ p) ↔ e ∈ log.filter (·.policyID ≠ p) := by rw [h]
  simpa [he] using hm

theorem SameElsewhere.total (hq : q ≠ p) (st : Int) :
    Budget.total log' q st = Budget.total log q st := by
  have hf : ∀ l : List Entry,
      Budget.total (l.filter (·.policyID ≠ p)) q st = Budget.total l q st := by
    intro l
    refine sum_map_filter fun e _ he => ?_
    have hp : e.policyID = p := by simpa using he
    simp [hp, hq.symm]
  rw [← hf log', ← hf log, h]

theorem SameElsewhere.mirrors (hq : q ≠ p) (hm : Mirrors log q w) :
    Mirrors log' q w := by
  intro id estimate
  rw [h.mem hq]
  exact hm id estimate

end

end

/-! ### Every step keeps the books -/

section

variable (hb : Balanced m log)

include hb

/-- Pruning and forgetting old ledgers does not touch the books. -/
theorem Balanced.sweepLocked (now : Int) :
    Balanced (m.sweepLocked now) log := by
  unfold Manager.sweepLocked
  by_cases h : now - m.lastSweep < sweepInterval
  · rw [if_pos h]
    exact hb
  · rw [if_neg h]
    have hwi : ∀ p w, (m.windows.map Window.prune).lookup p = some w →
        ∃ w₀, m.windows.lookup p = some w₀ ∧ w = w₀.prune := by
      intro p w hw
      rw [lookup_map, Option.map_eq_some_iff] at hw
      obtain ⟨w₀, hw₀, rfl⟩ := hw
      exact ⟨w₀, hw₀, rfl⟩
    have hk : ∀ p w₀, m.windows.lookup p = some w₀ →
        (m.windows.map Window.prune).lookup p = some w₀.prune := by
      intro p w₀ hw₀
      rw [lookup_map, hw₀]
      rfl
    have hre : ∀ p r, (m.retired.filter fun r =>
      decide (¬ now - r.retiredAt > retireGrace)).lookup p
        = some r → m.retired.lookup p = some r := by
      intro p r hr
      rw [lookup_filter, Option.filter_eq_some_iff] at hr
      exact hr.1
    constructor
    case distinct => exact hb.distinct
    case counts =>
      intro p w hw
      obtain ⟨w₀, hw₀, rfl⟩ := hwi p w hw
      exact hb.counts p w₀ hw₀
    case current =>
      intro p w hw
      obtain ⟨w₀, hw₀, rfl⟩ := hwi p w hw
      exact (hb.current p w₀ hw₀).prune
    case retired =>
      intro p r hr
      exact hb.retired p r (hre p r hr)
    case older =>
      intro p r hr
      obtain ⟨w, hw, hlt⟩ := hb.older p r (hre p r hr)
      exact ⟨w.prune, hk p w hw, hlt⟩
    case newest =>
      intro e he
      obtain ⟨w, hw, hle⟩ := hb.newest e he
      exact ⟨w.prune, hk _ w hw, hle⟩

/-- A step on one policy leaves the other policies' books as they were, so only the policy's
own ledgers have to agree with the new log. -/
theorem Balanced.update {p : String} {m' : Manager} {log' : List Entry}
    (hwi : ∀ q, q ≠ p → m'.windows.lookup q = m.windows.lookup q)
    (ho : ∀ q, q ≠ p → m'.retired.lookup q = m.retired.lookup q) (hl : SameElsewhere p log log')
    (hd : Distinct log') (hw : m'.windows.lookup p = some w)
    (hc : w.reserved + w.consumed = total log' p w.start) (hm : Mirrors log' p w)
    (hre : ∀ r, m'.retired.lookup p = some r → Mirrors log' p r.state ∧ r.state.start < w.start)
    (hn : ∀ e ∈ log', e.policyID = p → e.start ≤ w.start) : Balanced m' log' := by
  constructor
  case distinct => exact hd
  case counts =>
    intro q w' hw'
    by_cases hq : q = p
    · subst hq
      rw [hw, Option.some.injEq] at hw'
      subst hw'
      exact hc
    · rw [hwi q hq] at hw'
      rw [hl.total hq]
      exact hb.counts q w' hw'
  case current =>
    intro q w' hw'
    by_cases hq : q = p
    · subst hq
      rw [hw, Option.some.injEq] at hw'
      subst hw'
      exact hm
    · rw [hwi q hq] at hw'
      exact hl.mirrors hq (hb.current q w' hw')
  case retired =>
    intro q r hr
    by_cases hq : q = p
    · subst hq
      exact (hre r hr).1
    · rw [ho q hq] at hr
      exact hl.mirrors hq (hb.retired q r hr)
  case older =>
    intro q r hr
    by_cases hq : q = p
    · subst hq
      exact ⟨w, hw, (hre r hr).2⟩
    · rw [ho q hq] at hr
      rw [hwi q hq]
      exact hb.older q r hr
  case newest =>
    intro e he
    by_cases hq : e.policyID = p
    · rw [hq]
      exact ⟨w, hw, hn e he hq⟩
    · rw [hwi _ hq]
      exact hb.newest e ((hl.mem hq).mp he)

/-- Opening a window newer than all that was admitted, with only older ledgers retired. -/
theorem Balanced.openWindow {p : String} (hn : ∀ e ∈ log, e.policyID = p → e.start < start)
    (retired : Assoc String RetiredWindow) (ho : ∀ q, q ≠ p → retired.lookup q = m.retired.lookup q)
    (hr : ∀ r, retired.lookup p = some r → Mirrors log p r.state ∧ r.state.start < start) :
    Balanced { m with windows := m.windows.insert p (Window.open start), retired } log := by
  refine hb.update (fun q hq => lookup_insert_ne hq) ho (.refl p log) hb.distinct
    lookup_insert_self ?_ ?_ hr fun e he hp => (hn e he hp).le
  · refine (total_eq_zero ?_).symm
    intro e he hc
    exact absurd hc.2 (hn e he hc.1).ne
  · intro id estimate
    refine ⟨fun h => by simp [Window.open] at h, fun h => ?_⟩
    exact absurd (hn _ h rfl) (lt_irrefl _)

/-- A request in order finds, or opens, the ledger of its own window. -/
theorem Balanced.ledger (p : Policy) (now : Int)
    (hin : ∀ state, m.windows.lookup p.id = some state → state.start ≤ p.windowStart) :
    Balanced (m.ledger p now).2 log ∧
      (m.ledger p now).2.windows.lookup p.id = some (m.ledger p now).1 ∧
      (m.ledger p now).1.start = p.windowStart := by
  unfold Manager.ledger
  cases hw : m.windows.lookup p.id with
  | none =>
    refine ⟨hb.openWindow ?_ m.retired (fun _ _ => rfl) ?_, lookup_insert_self, rfl⟩
    · intro e he hc
      obtain ⟨w, hw', -⟩ := hb.newest e he
      rw [hc, hw] at hw'
      cases hw'
    · intro r hr
      obtain ⟨w, hw', -⟩ := hb.older _ r hr
      rw [hw] at hw'
      cases hw'
  | some state =>
    have hle := hin state hw
    by_cases hs : state.start = p.windowStart
    · simp only [if_pos hs]
      exact ⟨hb, hw, hs⟩
    · simp only [if_neg hs]
      refine ⟨hb.openWindow ?_ _ (fun q hq => lookup_insert_ne hq) ?_,
        lookup_insert_self, rfl⟩
      · intro e he hc
        have := hb.start_le hw he hc
        omega
      · intro r hr
        rw [lookup_insert_self, Option.some.injEq] at hr
        subst hr
        refine ⟨hb.current _ state hw, ?_⟩
        show state.start < p.windowStart
        omega

section

variable {p : String} (hw : m.windows.lookup p = some w)
include hw

/-- A new reservation is counted in the ledger in place and entered in the log. -/
theorem Balanced.admits (hid : w.reservations.lookup id = none) (estimate : Int) :
    Balanced { m with windows := m.windows.insert p { w with
        reserved := w.reserved + estimate
        reservations := w.reservations.insert id ⟨estimate, false⟩ } }
      (log ++ [⟨p, w.start, id, estimate, .held⟩]) := by
  have hl : SameElsewhere p log (log ++ [⟨p, w.start, id, estimate, .held⟩]) :=
    sameElsewhere_append rfl
  refine hb.update (fun q hq => lookup_insert_ne hq) (fun _ _ => rfl) hl ?_
    lookup_insert_self ?_ ?_ ?_ ?_
  · unfold Distinct
    rw [pairwise_append]
    refine ⟨hb.distinct, pairwise_singleton _ _, ?_⟩
    intro a ha b hbm hc
    rw [mem_singleton] at hbm
    subst hbm
    -- an open entry about this reservation would be in the ledger
    obtain ⟨⟨rfl, hst, rfl⟩, hh, -⟩ := hc
    have hm : (⟨a.policyID, w.start, a.id, a.estimate, .held⟩ : Entry) ∈ log := by
      rw [← show a.start = w.start from hst, ← hh]
      exact ha
    rw [← hb.current _ w hw, hid] at hm
    cases hm
  · rw [total_append, if_pos ⟨rfl, rfl⟩, ← hb.counts p w hw]
    show w.reserved + estimate + w.consumed = w.reserved + w.consumed + estimate
    omega
  · intro id' estimate'
    show (w.reservations.insert id ⟨estimate, false⟩).lookup id' = _ ↔
      (⟨p, w.start, id', estimate', .held⟩ : Entry) ∈ _
    rw [mem_append, mem_singleton, ← hb.current p w hw id' estimate']
    by_cases hi : id' = id
    · subst hi
      simp [hid, eq_comm]
    · rw [lookup_insert_ne hi]
      simp [hi]
  · intro r hr
    have hlt := hb.retired_lt hw hr
    exact ⟨(hb.retired p r hr).append_other hlt.ne, hlt⟩
  · intro e he hp
    rw [mem_append, mem_singleton] at he
    rcases he with he | rfl
    · exact hb.start_le hw he hp
    · exact le_rfl

theorem Balanced.settled_start_le (st : Int) (i : String) (s : EntryState) :
    ∀ e ∈ log.map (Entry.settle p st i s), e.policyID = p → e.start ≤ w.start := by
  intro e he hp
  obtain ⟨x, hx, rfl⟩ := mem_map.mp he
  rw [Entry.settle_policyID] at hp
  rw [Entry.settle_start]
  exact hb.start_le hw hx hp

theorem Balanced.closeCurrent (hid : w.reservations.lookup id = some ⟨estimate, false⟩)
    (hs : s.settles actual) :
    Balanced (m.store p (w.close id ⟨estimate, false⟩ actual) .current)
      (log.map (Entry.settle p w.start id s)) := by
  have hm := (hb.current p w hw id estimate).mp hid
  refine hb.update (fun q hq => lookup_insert_ne hq) (fun _ _ => rfl)
    (sameElsewhere_settle ..) (hb.distinct.settle _ _ _ hs.ne_held) lookup_insert_self ?_
    ((hb.current p w hw).close id _ actual hs.ne_held) ?_ (hb.settled_start_le hw _ _ _)
  · rw [total_settle hb.distinct hm rfl, if_pos ⟨rfl, rfl⟩, hs.amount]
    show w.reserved - estimate + (w.consumed + actual) = total log p w.start + (actual - estimate)
    rw [← hb.counts p w hw]
    omega
  · intro r hr
    have hlt := hb.retired_lt hw hr
    exact ⟨(hb.retired p r hr).settle_other hs.ne_held hlt.ne, hlt⟩

end

theorem Balanced.closeRetired {p : String} (hr : m.retired.lookup p = some r)
    (hid : r.state.reservations.lookup id = some ⟨estimate, false⟩) (hs : s.settles actual) :
    Balanced (m.store p (r.state.close id ⟨estimate, false⟩ actual) .retired)
      (log.map (Entry.settle p r.state.start id s)) := by
  have hm := (hb.retired p r hr id estimate).mp hid
  obtain ⟨w, hw, hlt⟩ := hb.older p r hr
  have hst : m.store p (r.state.close id ⟨estimate, false⟩ actual) .retired = { m with
          retired := m.retired.insert p ⟨r.state.close id ⟨estimate, false⟩ actual,
            r.retiredAt⟩ } := by
    simp [store, hr]
  rw [hst]
  refine hb.update (fun _ _ => rfl) (fun q hq => lookup_insert_ne hq)
    (sameElsewhere_settle ..) (hb.distinct.settle _ _ _ hs.ne_held) hw ?_
    ((hb.current p w hw).settle_other hs.ne_held hlt.ne') ?_ (hb.settled_start_le hw _ _ _)
  · rw [total_settle hb.distinct hm rfl, if_neg fun hc => hlt.ne hc.2, add_zero]
    exact hb.counts p w hw
  · intro r' hr'
    rw [lookup_insert_self, Option.some.injEq] at hr'
    subst hr'
    exact ⟨(hb.retired p r hr).close id _ actual hs.ne_held, hlt⟩

theorem Balanced.settle {p : String} {place : Place} {r : ReservationState}
    (hf : m.ledgerFor p id = some (place, w, r)) (ho : r.final = false) (hs : s.settles actual) :
    Balanced (m.store p (w.close id r actual) place) (log.map (Entry.settle p w.start id s)) := by
  obtain ⟨estimate, final⟩ := r
  rw [show final = false from ho] at hf ⊢
  unfold ledgerFor at hf
  simp only [Option.or_eq_some_iff, Option.bind_eq_some_iff, Option.map_eq_some_iff, Prod.mk.injEq]
    at hf
  rcases hf with ⟨_, hw, _, hid, rfl, rfl, rfl⟩ | ⟨-, _, hr, _, hid, rfl, rfl, rfl⟩
  · exact hb.closeCurrent hw hid hs
  · exact hb.closeRetired hr hid hs

theorem Balanced.settleLog (p id : String) (hs : s.settles actual) :
    Balanced (m.settle p id actual) (Budget.settleLog m p id s log) := by
  unfold Budget.settleLog Manager.settle
  cases hfo : m.ledgerFor p id with
  | none => exact hb
  | some found =>
    obtain ⟨place, w, r⟩ := found
    by_cases hf : r.final = true
    · simp only [if_pos hf]
      exact hb
    · simp only [if_neg hf]
      exact hb.settle hfo (Bool.eq_false_iff.mpr hf) hs

end

end LiteAIG.Budget
