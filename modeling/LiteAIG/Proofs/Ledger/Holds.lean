/-
The log of admitted reservations, and what ties the keyspace to it.

A history is a run of ledger calls on one keyspace together with a log of the
reservations that were admitted.  The log says what every window ought to hold:
the estimate of each reservation that is still held, what a settled one settled
for, and nothing for one that a sweep found due.  `Kept` is the invariant that
makes the counters say the same.
-/
import LiteAIG.Lib.Lists
import LiteAIG.Proofs.Ledger.Scripts

namespace LiteAIG.Ledger

open Lib.Redis

/-! ### Holds -/

inductive HoldState
  | held
  | settled (actual : ℚ)
  | swept
  deriving DecidableEq

/-- An admitted reservation and what became of it. -/
structure Hold where
  (tenantID id : String)
  estimate : ℚ
  windows : List String
  madeAt : Int
  state : HoldState
  deriving DecidableEq

/-- What the reservation takes up in each window it names. -/
def Hold.amount (h : Hold) : ℚ :=
  match h.state with
  | .held => h.estimate
  | .settled actual => actual
  | .swept => 0

/-- What the admitted reservations take up in a window. -/
def owed (log : List Hold) (key : String) : ℚ :=
  (log.map fun h => (h.windows.count key : ℚ) * h.amount).sum

variable (r : RedisBudgetLedger) {h : Hold}

/-- The reservation's millisecond in the expiry order has come. -/
def Hold.due (t : Int) (h : Hold) : Prop :=
  unixMilli (h.madeAt + r.reservationTTL) ≤ unixMilli t
  deriving Decidable

theorem Hold.due_of_le {r : RedisBudgetLedger} {t : Int}
    (hle : h.madeAt + r.reservationTTL ≤ t) : h.due r t :=
  Int.ediv_le_ediv (by decide) hle

/-- The last millisecond the reservation's hash is there. -/
def Hold.deadline (h : Hold) : Int :=
  unixMilli h.madeAt + milliseconds r.reservationTTL

/-- Close this reservation if it is the one named and still held. -/
def Hold.close (tenantID id : String) (state : HoldState) (h : Hold) : Hold :=
  if h.tenantID = tenantID ∧ h.id = id ∧ h.state = .held then { h with state } else h

/-- A sweep of the tenant at `t` closes the reservation if it is due. -/
def Hold.sweep (t : Int) (tenantID : String) (h : Hold) : Hold :=
  if h.tenantID = tenantID ∧ h.state = .held ∧ h.due r t then { h with state := .swept } else h

/-- No two reservations share tenant and id. -/
def Distinct (log : List Hold) : Prop :=
  log.Pairwise fun a b => ¬ (a.tenantID = b.tenantID ∧ a.id = b.id)

variable (t i : String) (s : HoldState)

@[simp] theorem Hold.close_tenantID (h : Hold) :
    (h.close t i s).tenantID = h.tenantID := by
  unfold Hold.close
  split <;> rfl

@[simp] theorem Hold.close_id (h : Hold) :
    (h.close t i s).id = h.id := by
  unfold Hold.close
  split <;> rfl

@[simp] theorem Hold.close_windows (h : Hold) :
    (h.close t i s).windows = h.windows := by
  unfold Hold.close
  split <;> rfl

@[simp] theorem Hold.close_madeAt (h : Hold) :
    (h.close t i s).madeAt = h.madeAt := by
  unfold Hold.close
  split <;> rfl

variable {t key : String} {log : List Hold} {db : Db}

theorem Hold.close_of_ne {i : String} {s : HoldState}
    (hne : ¬ (h.tenantID = t ∧ h.id = i)) : h.close t i s = h := by
  unfold Hold.close
  exact if_neg fun hc => hne ⟨hc.1, hc.2.1⟩

theorem Distinct.eq (hd : Distinct log) {a b : Hold} (ha : a ∈ log) (hb : b ∈ log)
    (ht : a.tenantID = b.tenantID) (hi : a.id = b.id) : a = b :=
  Lib.eq_of_pairwise (R := fun a b : Hold => a.tenantID = b.tenantID ∧ a.id = b.id)
    (fun _ _ h => ⟨h.1.symm, h.2.symm⟩) hd ha hb ⟨ht, hi⟩

theorem Distinct.close (hd : Distinct log) (t i : String) (s : HoldState) :
    Distinct (log.map (Hold.close t i s)) := by
  unfold Distinct at hd ⊢
  rw [List.pairwise_map]
  simpa using hd

/-- Closing one reservation changes what is owed by its change of amount. -/
theorem owed_close (hd : Distinct log) (hm : h ∈ log) (hh : h.state = .held)
    (s : HoldState) (key : String) :
    owed (log.map (Hold.close h.tenantID h.id s)) key
      = owed log key + h.windows.count key *
        (({ h with state := s } : Hold).amount - h.estimate) := by
  have hs : h.close h.tenantID h.id s = { h with state := s } := if_pos ⟨rfl, rfl, hh⟩
  have ha : h.amount = h.estimate := by
    unfold Hold.amount
    rw [hh]
  unfold owed
  rw [Lib.sum_map_change (fun a : Hold => (a.windows.count key : ℚ) * a.amount)
    (Hold.close h.tenantID h.id s) hm (fun _ _ hab => ⟨hab.1.symm, hab.2.symm⟩) hd
    fun a _ hne => Hold.close_of_ne hne, hs, ha]
  ring

/-! ### Histories -/

inductive LedgerCall
  | reserve (req : ReserveRequest)
  | reconcile (tenantID reservationID : String) (actual : ℚ)
  | release (tenantID reservationID : String)
  | sweep (tenantID : String) (limit : Int)

/-- A call, and the time on the shared clock at which it is made. -/
structure Event where
  time : Int
  call : LedgerCall

structure History where
  db : Db
  log : List Hold
  now : Int

variable (now : Int)

def History.empty : History := ⟨fun _ => none, [], now⟩

def History.step (s : History) (e : Event) : History :=
  match e.call with
  | .reserve req =>
    let (result, db) := r.reserve e.time req s.db
    let hold : Hold := ⟨req.tenantID, req.reservationID, req.estimate,
      req.windows.map BudgetWindow.key, e.time, .held⟩
    ⟨db, if admitted result then s.log ++ [hold] else s.log, e.time⟩
  | .reconcile tenantID id actual =>
    let (result, db) := r.reconcile e.time tenantID id actual s.db
    ⟨db, if result.isOk then s.log.map (Hold.close tenantID id (.settled actual)) else s.log,
      e.time⟩
  | .release tenantID id =>
    let (result, db) := r.release e.time tenantID id s.db
    ⟨db, if result.isOk then s.log.map (Hold.close tenantID id (.settled 0)) else s.log, e.time⟩
  | .sweep tenantID limit =>
    ⟨(r.sweep e.time tenantID limit s.db).2, s.log.map (Hold.sweep r e.time tenantID), e.time⟩

def LedgerCall.tenantID : LedgerCall → String
  | .reserve req => req.tenantID
  | .reconcile tenantID _ _ => tenantID
  | .release tenantID _ => tenantID
  | .sweep tenantID _ => tenantID

/-- How many reservations one sweep may take. -/
def sweepLimit (limit : Int) : Nat := if limit ≤ 0 then 500 else limit.toNat

/-- The clock does not go back, tenants and window keys keep out of the ledger's own key
names, ids are fresh, windows have no time to live of their own, and a sweep's limit
covers what is due. -/
def Regular (s : History) (e : Event) : Prop :=
  s.now ≤ e.time ∧ CleanTenant e.call.tenantID ∧
    match e.call with
    | .reserve req =>
      (∀ h ∈ s.log, ¬ (h.tenantID = req.tenantID ∧ h.id = req.reservationID)) ∧
        ∀ w ∈ req.windows, PlainKey w.key ∧ milliseconds w.ttl ≤ 0
    | .sweep tenantID limit =>
      (s.log.filter fun h => h.tenantID = tenantID ∧ h.state = .held ∧ h.due r e.time).length
        ≤ sweepLimit limit
    | _ => True

/-- A sweep comes before the hash of any reservation it finds due is gone. -/
def InTime (s : History) (e : Event) : Prop :=
  match e.call with
  | .sweep tenantID _ =>
    ∀ h ∈ s.log, h.tenantID = tenantID → h.state = .held → h.due r e.time →
      unixMilli e.time ≤ h.deadline r
  | _ => True

instance (r : RedisBudgetLedger) (s : History) : ∀ e : Event, Decidable (Regular r s e)
  | ⟨_, .reserve _⟩ => inferInstanceAs (Decidable (_ ∧ _ ∧ (∀ _ ∈ _, _) ∧ ∀ _ ∈ _, _ ∧ _ ≤ _))
  | ⟨_, .reconcile _ _ _⟩ => inferInstanceAs (Decidable (_ ∧ _ ∧ True))
  | ⟨_, .release _ _⟩ => inferInstanceAs (Decidable (_ ∧ _ ∧ True))
  | ⟨_, .sweep _ _⟩ => inferInstanceAs (Decidable (_ ∧ _ ∧ _ ≤ _))

instance (r : RedisBudgetLedger) (s : History) : ∀ e : Event, Decidable (InTime r s e)
  | ⟨_, .reserve _⟩ => inferInstanceAs (Decidable True)
  | ⟨_, .reconcile _ _ _⟩ => inferInstanceAs (Decidable True)
  | ⟨_, .release _ _⟩ => inferInstanceAs (Decidable True)
  | ⟨_, .sweep _ _⟩ => inferInstanceAs (Decidable (∀ _ ∈ _, _ → _ → _ → _ ≤ _))

/-! ### What ties the keyspace to the log -/

/-- A counter that no deadline takes away. -/
def Permanent (db : Db) (key : String) : Prop :=
  db key = none ∨ ∃ q, db key = some ⟨.num q, none⟩

theorem Permanent.live (h : Permanent db key) (now : Int) : live now db key = db key := by
  unfold Lib.Redis.live
  rcases h with h | ⟨q, h⟩ <;> rw [h] <;> rfl

theorem Permanent.isNumber (h : Permanent db key) (now : Int) : IsNumber now db key := by
  unfold IsNumber
  rw [h.live]
  rcases h with h | ⟨q, h⟩
  · exact .inl h
  · exact .inr ⟨q, none, h⟩

theorem Permanent.counter (h : Permanent db key) (now now' : Int) :
    counter now db key = counter now' db key := by
  unfold Ledger.counter numberAt
  rw [h.live, h.live]

theorem Permanent.movedAll (delta : ℚ) (keys : List String) (db : Db) (h : Permanent db key) :
    Permanent (movedAll now delta keys db) key := by
  refine List.foldlRecOn (motive := (Permanent · key)) keys _ h fun db h k _ => ?_
  by_cases hk : key = k
  · subst hk
    refine .inr ⟨(numberAt now db key).getD 0 + delta, ?_⟩
    have hd : deadlineAt now db key = none := by
      unfold deadlineAt
      rw [h.live]
      rcases h with h | ⟨q, h⟩ <;> rw [h] <;> rfl
    rw [moved, Function.update_self, hd]
  · unfold Permanent
    rwa [moved, Function.update_of_ne hk]

theorem Permanent.charged (est : ℚ) (ws : List BudgetWindow) (db : Db)
    (ht : ∀ w ∈ ws, milliseconds w.ttl ≤ 0) (h : Permanent db key) :
    Permanent (charged now est ws db) key := by
  refine List.foldlRecOn (motive := (Permanent · key)) ws _ h fun db h w hm => ?_
  by_cases hk : key = w.key
  · subst hk
    refine .inr ⟨Ledger.counter now db w.key + est, ?_⟩
    have hw := ht w hm
    rw [chargedOne, Function.update_self, windowDeadline, if_neg (by omega)]
  · unfold Permanent
    rwa [chargedOne, Function.update_of_ne hk]

/-- What a tenant's expiry set holds: reservations that are held, under the time they
fall due, for at least as long as any of the tenant's hashes is there. -/
structure ExpirySet (r : RedisBudgetLedger) (log : List Hold) (tenantID : String)
    (members : List (String × Int)) (d : Int) : Prop where
  nodup : (members.map Prod.fst).Nodup
  held : ∀ m ∈ members, ∃ h ∈ log, h.tenantID = tenantID ∧ h.id = m.1 ∧ h.state = .held ∧
    m.2 = unixMilli (h.madeAt + r.reservationTTL)
  lasts : ∀ h ∈ log, h.tenantID = tenantID → h.deadline r ≤ d

structure Kept (r : RedisBudgetLedger) (s : History) : Prop where
  clean : ∀ h ∈ s.log, CleanTenant h.tenantID ∧ ∀ k ∈ h.windows, PlainKey k
  distinct : Distinct s.log
  past : ∀ h ∈ s.log, h.madeAt ≤ s.now
  permanent : ∀ k, PlainKey k → Permanent s.db k
  counters : ∀ k, PlainKey k → counter (unixMilli s.now) s.db k = owed s.log k
  hash : ∀ h ∈ s.log, ∃ status, s.db (reservationKey h.tenantID h.id)
      = some ⟨.hash { openHash h.estimate h.windows with status := some status },
          some (h.deadline r)⟩ ∧ (status = .reserved ↔ h.state = .held)
  absent : ∀ t id, CleanTenant t → (∀ h ∈ s.log, ¬ (h.tenantID = t ∧ h.id = id)) →
    s.db (reservationKey t id) = none
  expiry : ∀ t, CleanTenant t → s.db (expiryKey t) = none ∨
    ∃ ms d, s.db (expiryKey t) = some ⟨.zset ms, some d⟩ ∧ ExpirySet r s.log t ms d
  listed : ∀ h ∈ s.log, h.state = .held → unixMilli s.now ≤ h.deadline r →
    (h.id, unixMilli (h.madeAt + r.reservationTTL))
      ∈ membersAt (unixMilli s.now) s.db (expiryKey h.tenantID)

variable {r : RedisBudgetLedger} {s : History}

theorem kept_empty : Kept r (History.empty now) where
  clean := by intro h hh; simp [History.empty] at hh
  distinct := List.Pairwise.nil
  past := by intro h hh; simp [History.empty] at hh
  permanent k _ := .inl rfl
  counters k _ := rfl
  hash := by intro h hh; simp [History.empty] at hh
  absent t id _ _ := rfl
  expiry t _ := .inl rfl
  listed := by intro h hh; simp [History.empty] at hh

theorem unixMilli_mono {a b : Int} (h : a ≤ b) : unixMilli a ≤ unixMilli b :=
  Int.ediv_le_ediv (by decide) h

theorem Kept.isZset (hk : Kept r s) (ht : CleanTenant t) (now : Int) :
    IsZset now s.db (expiryKey t) := by
  unfold IsZset live
  rcases hk.expiry t ht with h | ⟨ms, d, h, -⟩
  · exact .inl (by rw [h]; rfl)
  · rw [h, Option.filter_some]
    split
    · exact .inr ⟨ms, some d, rfl⟩
    · exact .inl rfl

/-- Members that are there now are members of the set as it stands. -/
theorem Kept.member (hk : Kept r s) (ht : CleanTenant t) {now : Int} {m : String × Int}
    (hm : m ∈ membersAt now s.db (expiryKey t)) :
    ∃ h ∈ s.log, h.tenantID = t ∧ h.id = m.1 ∧ h.state = .held ∧
      m.2 = unixMilli (h.madeAt + r.reservationTTL) := by
  unfold membersAt live at hm
  rcases hk.expiry t ht with h | ⟨ms, d, h, hset⟩
  · rw [h] at hm
    simp at hm
  · rw [h, Option.filter_some] at hm
    split at hm
    · rename_i heq
      split at heq
      · cases heq
        exact hset.held m hm
      · simp at heq
    · simp at hm

theorem Kept.tick (hk : Kept r s) {t : Int} (ht : s.now ≤ t) : Kept r { s with now := t } where
  clean := hk.clean
  distinct := hk.distinct
  past h hh := (hk.past h hh).trans ht
  permanent := hk.permanent
  counters k hp := ((hk.permanent k hp).counter _ _).trans (hk.counters k hp)
  hash := hk.hash
  absent := hk.absent
  expiry := hk.expiry
  listed h hh hhe ha := by
    have hms : unixMilli s.now ≤ unixMilli t := unixMilli_mono ht
    change unixMilli t ≤ h.deadline r at ha
    have hold := hk.listed h hh hhe (hms.trans ha)
    have htc := (hk.clean h hh).1
    -- the set outlives the hash, so it is still there
    rcases hk.expiry h.tenantID htc with hn | ⟨ms, d, hset, he⟩
    · unfold membersAt live at hold
      rw [hn] at hold
      simp at hold
    · have hd := he.lasts h hh rfl
      have hl : ∀ now, now ≤ d → live now s.db (expiryKey h.tenantID)
          = some ⟨.zset ms, some d⟩ := by
        intro now hno
        exact live_eq_some.mpr ⟨hset, by simpa [Entry.alive] using hno⟩
      unfold membersAt at hold ⊢
      rw [hl _ (hms.trans (ha.trans hd))] at hold
      rw [hl _ (ha.trans hd)]
      exact hold

end LiteAIG.Ledger
