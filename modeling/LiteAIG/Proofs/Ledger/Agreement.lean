/-
When the two ledgers give the same answers.

Both ledgers are run side by side on the same requests.  `Related` says that the
keyspace holds what the process's maps hold: the same counters, present and
absent ones alike, and the same reservations, open and closed alike.

The two decide alike but for one case.  The Lua script looks at a window's limit
only if the window has a counter, so the first reservation of a window is admitted
whatever its size; in memory an absent counter is a zero and the limit is
checked.  `Covered` is the condition that this makes no difference.
-/
import LiteAIG.Lib.Run
import LiteAIG.Proofs.Ledger.Contract

namespace LiteAIG.Ledger

open Lib.Redis BudgetWindow Function List

inductive Request
  | reserve (req : ReserveRequest)
  | reconcile (reservationID : String) (actual : ℚ)
  | release (reservationID : String)

/-- Both ledgers of one tenant, and the time of the last request. -/
structure Pair where
  db : Db
  memory : MemoryBudgetLedger
  now : Int

def Pair.empty (now : Int) : Pair := ⟨fun _ => none, MemoryBudgetLedger.new, now⟩

/-- A request, and the time at which both ledgers get it. -/
structure Timed where
  time : Int
  request : Request

def Pair.step (r : RedisBudgetLedger) (tenantID : String) (s : Pair) (e : Timed) : Pair :=
  match e.request with
  | .reserve req => ⟨(r.reserve e.time req s.db).2, (s.memory.reserve req).2, e.time⟩
  | .reconcile id actual =>
    ⟨(r.reconcile e.time tenantID id actual s.db).2, (s.memory.reconcile tenantID id actual).2,
      e.time⟩
  | .release id =>
    ⟨(r.release e.time tenantID id s.db).2, (s.memory.release tenantID id).2, e.time⟩

/-- A request is for the one tenant, a new reservation has a fresh id and names windows
whose keys are not the ledger's own, and no key has expired. -/
def Admissible (tenantID : String) (s : Pair) (e : Timed) : Prop :=
  (∀ key entry, s.db key = some entry → entry.alive (unixMilli e.time) = true) ∧
    match e.request with
    | .reserve req =>
      req.tenantID = tenantID ∧ s.memory.reservations tenantID req.reservationID = none ∧
        req.windows ≠ [] ∧ ∀ w ∈ req.windows, PlainKey w.key
    | _ => True

/-- The two ledgers answer alike, and afterwards every window counts the same. -/
def Agree (r : RedisBudgetLedger) (tenantID : String) (s : Pair) (e : Timed) : Prop :=
  (match e.request with
    | .reserve req =>
      admitted (r.reserve e.time req s.db).1 = admitted (s.memory.reserve req).1
    | _ => True) ∧
  ∀ key, PlainKey key →
    counter (unixMilli e.time) (s.step r tenantID e).db key
      = ((s.step r tenantID e).memory.windows tenantID key).getD 0

/-- A reservation is malformed, or a window with a counter refuses it, or every window
without one has room for it. -/
def Covered (tenantID : String) (s : Pair) (e : Timed) : Prop :=
  match e.request with
  | .reserve req =>
    (req.reservationID = "" ∨ req.estimate < 0 ∨ req.windows.any BudgetWindow.invalid = true) ∨
    (∃ w ∈ req.windows, ∃ current, s.memory.windows tenantID w.key = some current ∧
      current + req.estimate > w.limit) ∨
    ∀ w ∈ req.windows, s.memory.windows tenantID w.key = none → req.estimate ≤ w.limit
  | _ => True

/-! ### The relation -/

/-- The hash of a reservation the process has as `m`. -/
def Recorded (db : Db) (key : String) : Option MemoryReservation → Prop
  | none => db key = none
  | some m => ∃ status d,
      db key = some ⟨.hash { openHash m.estimate m.windows with status := some status }, d⟩ ∧
        (status = .reserved ↔ m.final = false) ∧ ∀ k ∈ m.windows, PlainKey k

variable {db : Db} {now ttl : Int} {d : Option Int} {req : ReserveRequest}

theorem Recorded.congr {db' : Db} {key : String} {res : Option MemoryReservation}
    (h : Recorded db key res) (heq : db' key = db key) : Recorded db' key res := by
  cases res with
  | none => exact heq.trans h
  | some m =>
    obtain ⟨status, d, hdb, hr⟩ := h
    exact ⟨status, d, heq.trans hdb, hr⟩

structure Related (tenantID : String) (s : Pair) : Prop where
  alive : ∀ key entry, s.db key = some entry → entry.alive (unixMilli s.now) = true
  number : ∀ key, PlainKey key → IsNumber (unixMilli s.now) s.db key
  counters : ∀ key, PlainKey key →
    numberAt (unixMilli s.now) s.db key = s.memory.windows tenantID key
  recorded : ∀ id, Recorded s.db (reservationKey tenantID id) (s.memory.reservations tenantID id)
  zset : IsZset (unixMilli s.now) s.db (expiryKey tenantID)

variable {r : RedisBudgetLedger} {tid : String} {s : Pair}

theorem related_empty : Related tid (Pair.empty now) where
  alive key entry h := by simp [Pair.empty] at h
  number _ _ := .inl rfl
  counters _ _ := rfl
  recorded _ := rfl
  zset := .inl rfl

/-- While nothing expires, what is live is what is stored. -/
theorem live_of_alive (h : ∀ key entry, db key = some entry → entry.alive now = true)
    (key : String) :
    live now db key = db key := by
  unfold live
  cases hk : db key with
  | none => rfl
  | some entry => rw [Option.filter_some, if_pos (h key entry hk)]

theorem Related.tick (hr : Related tid s) {t : Int}
    (h : ∀ key entry, s.db key = some entry → entry.alive (unixMilli t) = true) :
    Related tid { s with now := t } := by
  have hl : ∀ key, live (unixMilli t) s.db key = live (unixMilli s.now) s.db key := fun key =>
    (live_of_alive h key).trans (live_of_alive hr.alive key).symm
  refine ⟨h, fun key hp => ?_, fun key hp => ?_, hr.recorded, ?_⟩
  · unfold IsNumber
    rw [hl]
    exact hr.number key hp
  · rw [← hr.counters key hp]
    unfold numberAt
    rw [hl]
  · unfold IsZset
    rw [hl]
    exact hr.zset

/-! ### Counters move alike -/

theorem counters_addTo {tenant : String → Option ℚ} (amount : ℚ) {key : String} (hke : PlainKey key)
    (hd : ∀ q, Entry.alive now (⟨.num q, d⟩ : Entry ReservationHash String) = true)
    (h : ∀ k, PlainKey k → numberAt now db k = tenant k) (k : String) (hk : PlainKey k) :
    numberAt now (update db key (some ⟨.num (counter now db key + amount), d⟩)) k
      = addTo amount tenant key k := by
  unfold addTo numberAt
  by_cases hkk : k = key
  · rw [hkk, live_update_self (hd _), update_self, ← h key hke]
    rfl
  · rw [live_update_ne hkk, update_of_ne hkk]
    exact h k hk

variable {tenant : String → Option ℚ}

theorem counters_charged (est : ℚ) (ws : List BudgetWindow) (db : Db)
    (hp : ∀ w ∈ ws, PlainKey w.key)
    (h : ∀ k, PlainKey k → numberAt now db k = tenant k) :
    ∀ k, PlainKey k →
      numberAt now (charged now est ws db) k = (ws.map key).foldl (addTo est) tenant k := by
  rw [foldl_map]
  exact foldl_rel (r := fun (db : Db) (tenant : String → Option ℚ) =>
    ∀ k, PlainKey k → numberAt now db k = tenant k) h fun w hw _ _ h =>
      counters_addTo est (hp w hw) (fun q => alive_windowDeadline q w) h

theorem counters_movedAll (delta : ℚ) (keys : List String) (db : Db) (hp : ∀ k ∈ keys, PlainKey k)
    (h : ∀ k, PlainKey k → numberAt now db k = tenant k) :
    ∀ k, PlainKey k →
      numberAt now (movedAll now delta keys db) k = keys.foldl (addTo delta) tenant k :=
  foldl_rel (r := fun (db : Db) (tenant : String → Option ℚ) =>
    ∀ k, PlainKey k → numberAt now db k = tenant k) h fun key hk _ _ h =>
      counters_addTo delta (hp key hk) (fun q => alive_deadlineAt q key) h

/-! ### Nothing that is written has expired -/

/-- Every entry is there at this time. -/
def AllAlive (now : Int) (db : Db) : Prop :=
  ∀ key entry, db key = some entry → entry.alive now = true

theorem AllAlive.update (h : AllAlive now db) (key : String)
    {e : Option (Entry ReservationHash String)}
    (he : ∀ entry, e = some entry → entry.alive now = true) :
    AllAlive now (update db key e) :=
  (forall_update_iff db fun _ e => ∀ entry, e = some entry → entry.alive now = true).mpr
    ⟨he, fun k _ => h k⟩

theorem AllAlive.update_some (h : AllAlive now db) (key : String)
    {entry : Entry ReservationHash String} (he : entry.alive now) :
    AllAlive now (Function.update db key (some entry)) :=
  h.update key fun _ heq => Option.some.inj heq ▸ he

theorem AllAlive.charged (est : ℚ) (ws : List BudgetWindow) (db : Db) (h : AllAlive now db) :
    AllAlive now (charged now est ws db) :=
  List.foldlRecOn (motive := AllAlive now) ws _ h fun _ h w _ =>
    h.update_some _ (alive_windowDeadline _ w)

theorem AllAlive.movedAll (delta : ℚ) (keys : List String) (db : Db) (h : AllAlive now db) :
    AllAlive now (movedAll now delta keys db) :=
  List.foldlRecOn (motive := AllAlive now) keys _ h fun _ h k _ =>
    h.update_some _ (alive_deadlineAt _ k)

theorem alive_extended (ht : 0 ≤ ttl) (v : Value ReservationHash String) :
    Entry.alive now (⟨v, some (now + ttl)⟩ : Entry ReservationHash String) = true := by
  simp only [Entry.alive, decide_eq_true_eq]
  omega

/-! ### Reserving -/

/-- The Redis side of an admitted request is the memory side of it. -/
theorem Related.opened (hr : Related tid s) (ht : req.tenantID = tid)
    (hp : ∀ w ∈ req.windows, PlainKey w.key) (expiresAt : Int) (htt : 0 ≤ ttl) :
    Related tid ⟨Ledger.opened (unixMilli s.now) (reservationKey tid req.reservationID)
          (expiryKey tid) req.reservationID req.estimate expiresAt ttl req.windows s.db,
        s.memory.opened req, s.now⟩ := by
  subst ht
  have hke : ∀ k ∈ req.windows.map key, PlainKey k := by
    intro k hk
    obtain ⟨w, hw, rfl⟩ := mem_map.mp hk
    exact hp w hw
  have ho : ∀ k, PlainKey k → Ledger.opened (unixMilli s.now)
      (reservationKey req.tenantID req.reservationID) (expiryKey req.tenantID) req.reservationID
      req.estimate expiresAt ttl req.windows s.db k
        = charged (unixMilli s.now) req.estimate req.windows s.db k := fun k hk =>
    opened_other (ne_reservationKey_of_plain hk) (ne_expiryKey_of_plain hk _)
  constructor
  case alive =>
    exact ((AllAlive.charged req.estimate req.windows s.db hr.alive).update_some _
      (alive_extended htt _)).update_some _ (alive_extended htt _)
  case number =>
    intro k hk
    exact isNumber_congr (ho k hk) (isNumber_charged _ _ _ _ (hr.number k hk))
  case counters =>
    intro k hk
    rw [numberAt_congr (ho k hk)]
    show _ = update s.memory.windows req.tenantID _ req.tenantID k
    rw [update_self]
    exact counters_charged _ _ _ hp hr.counters k hk
  case recorded =>
    intro id
    show Recorded _ _ (update s.memory.reservations req.tenantID _ req.tenantID id)
    rw [update_self]
    by_cases hid : id = req.reservationID
    · subst hid
      rw [update_self]
      exact ⟨.reserved, _, opened_reservation reservationKey_ne_own_expiry,
        iff_of_true rfl rfl, hke⟩
    · rw [update_of_ne hid]
      refine (hr.recorded id).congr ?_
      show Ledger.opened _ _ _ _ _ _ _ _ _ _ = _
      rw [opened_other (fun hc => hid (reservationKey_injective _ hc))
          reservationKey_ne_own_expiry,
        charged_other _ _ _ _ fun hc => ne_reservationKey_of_plain (hke _ hc) rfl]
  case zset =>
    refine .inr ⟨_, _, live_eq_some.mpr ⟨opened_expiry, alive_extended htt _⟩⟩

/-- A window with a counter is over its limit, as the process sees it. -/
theorem Related.exceeded_iff (hr : Related tid s) {ws : List BudgetWindow}
    (hp : ∀ w ∈ ws, PlainKey w.key) (est : ℚ) :
    exceededIn (unixMilli s.now) s.db est ws = true ↔
      ∃ w ∈ ws, ∃ current, s.memory.windows tid w.key = some current ∧
        current + est > w.limit := by
  unfold exceededIn
  rw [any_eq_true]
  refine exists_congr fun w => and_congr_right fun hw => ?_
  rw [hr.counters w.key (hp w hw)]
  cases s.memory.windows tid w.key with
  | none => simp
  | some current => simp

/-- What the Redis ledger does with a request of the tenant. -/
theorem Related.redis_reserve (hr : Related tid s) (ht : req.tenantID = tid)
    (hf : s.memory.reservations tid req.reservationID = none) (hne : req.windows ≠ [])
    (hp : ∀ w ∈ req.windows, PlainKey w.key) (hreq : ¬ (req.reservationID = "" ∨ req.estimate < 0))
    (hv : req.windows.any invalid = false) :
    r.reserve s.now req s.db = if exceededIn (unixMilli s.now) s.db req.estimate req.windows then
          (.ok ⟨false, false⟩, s.db)
        else (.ok ⟨true, false⟩, Ledger.opened (unixMilli s.now)
          (reservationKey tid req.reservationID) (expiryKey tid) req.reservationID
          req.estimate (unixMilli (s.now + r.reservationTTL)) (milliseconds r.reservationTTL)
          req.windows s.db) := by
  subst ht
  have hb : ¬ (req.reservationID = "" ∨ req.estimate < 0 ∨ req.windows = []) := fun hc =>
    hc.elim (fun h => hreq (.inl h)) fun hc => hc.elim (fun h => hreq (.inr h)) hne
  have hre := hr.recorded req.reservationID
  rw [hf] at hre
  have hl := (live_of_alive hr.alive _).trans hre
  exact redis_reserve_eq hb (by simp [hv]) hp (fun w hw => hr.number w.key (hp w hw)) hl hr.zset

section

variable (hreq : ¬ (req.reservationID = "" ∨ req.estimate < 0))
  (hpresent : ∀ w ∈ req.windows, ∀ current, s.memory.windows tid w.key = some current →
    current + req.estimate ≤ w.limit)

include hreq hpresent

/-- Where every counter has room, what is left are the windows that have none. -/
theorem covered_fitting (hv : ¬ req.windows.any invalid = true) :
    Covered tid s ⟨s.now, .reserve req⟩ ↔
      ∀ w ∈ req.windows, s.memory.windows tid w.key = none → req.estimate ≤ w.limit := by
  constructor
  · rintro ((hid | he | hi) | ⟨w, hw, current, hc, hl⟩ | ha)
    · exact absurd (.inl hid) hreq
    · exact absurd (.inr he) hreq
    · exact absurd hi hv
    · exact absurd (hpresent w hw current hc) (not_le.mpr hl)
    · exact ha
  · exact fun ha => .inr (.inr ha)

/-- Only memory looks at a window that has no counter yet. -/
theorem memory_reserve_fitting (ht : req.tenantID = tid)
    (hwe : ∀ w ∈ req.windows, w.invalid = false) :
    ((∀ w ∈ req.windows, s.memory.windows tid w.key = none → req.estimate ≤ w.limit) ∧
        s.memory.reserve req = (.ok ⟨true, false⟩, s.memory.opened req)) ∨
      (¬ (∀ w ∈ req.windows, s.memory.windows tid w.key = none → req.estimate ≤ w.limit) ∧
        admitted (s.memory.reserve req).1 = false) := by
  by_cases ha : ∀ w ∈ req.windows, s.memory.windows tid w.key = none → req.estimate ≤ w.limit
  · refine .inl ⟨ha, memory_admitted hreq fun w hw => ⟨hwe w hw, ?_⟩⟩
    rw [ht]
    cases hc : s.memory.windows tid w.key with
    | none => simpa using ha w hw hc
    | some current => exact hpresent w hw current hc
  · refine .inr ⟨ha, (memory_refused fun hal => ha fun w hw hn => ?_).1⟩
    have hf := (hal w hw).2
    rw [ht, hn] at hf
    simpa using hf

end

/-- **A reservation is answered alike exactly when it is covered**, and then the ledgers
stay related. -/
theorem Related.reserve (hr : Related tid s) (ht : req.tenantID = tid)
    (hf : s.memory.reservations tid req.reservationID = none) (hne : req.windows ≠ [])
    (hp : ∀ w ∈ req.windows, PlainKey w.key) :
    (admitted (r.reserve s.now req s.db).1 = admitted (s.memory.reserve req).1 ↔
        Covered tid s ⟨s.now, .reserve req⟩) ∧
      (Covered tid s ⟨s.now, .reserve req⟩ →
        Related tid ⟨(r.reserve s.now req s.db).2, (s.memory.reserve req).2, s.now⟩) := by
  by_cases hreq : req.reservationID = "" ∨ req.estimate < 0
  · -- both refuse the request before they look at anything
    have hre : r.reserve s.now req s.db = (.error .invalidReserveRequest, s.db) := by
      unfold RedisBudgetLedger.reserve
      rw [if_pos (hreq.imp_right .inl)]
    have hm : s.memory.reserve req = (.error .invalidReserveRequest, s.memory) := by
      unfold MemoryBudgetLedger.reserve
      rw [if_pos hreq]
    rw [hre, hm]
    exact ⟨iff_of_true rfl (.inl (hreq.imp_right .inl)), fun _ => hr⟩
  · by_cases hv : req.windows.any invalid = true
    · have hre : (r.reserve s.now req s.db) = (.error .invalidBudgetWindow, s.db) := by
        unfold RedisBudgetLedger.reserve
        rw [if_neg fun hc => hreq (hc.imp_right fun h => h.resolve_right hne), if_pos hv]
      obtain ⟨w, hw, hi⟩ := any_eq_true.mp hv
      obtain ⟨han, hs⟩ := memory_refused fun hal => by
        rw [(hal w hw).1] at hi
        simp at hi
      rw [hre, han, hs]
      exact ⟨iff_of_true rfl (.inl (.inr (.inr hv))), fun _ => hr⟩
    · have hva : req.windows.any invalid = false := Bool.eq_false_iff.mpr hv
      have hwe : ∀ w ∈ req.windows, w.invalid = false := by
        simpa [any_eq_false] using hva
      rw [hr.redis_reserve ht hf hne hp hreq hva]
      by_cases hex : exceededIn (unixMilli s.now) s.db req.estimate req.windows = true
      · -- a window with a counter is over its limit: both refuse
        have ho := (hr.exceeded_iff hp _).mp hex
        obtain ⟨w, hw, current, hcu, hl⟩ := ho
        obtain ⟨han, hs⟩ := memory_refused fun hal => by
          have hfi := (hal w hw).2
          rw [ht, hcu] at hfi
          exact absurd hfi (not_le.mpr hl)
        rw [if_pos hex, han, hs]
        exact ⟨iff_of_true rfl (.inr (.inl ⟨w, hw, current, hcu, hl⟩)), fun _ => hr⟩
      · rw [if_neg hex]
        have hpresent : ∀ w ∈ req.windows, ∀ current,
            s.memory.windows tid w.key = some current → current + req.estimate ≤ w.limit := by
          intro w hw current hcu
          by_contra hl
          exact hex ((hr.exceeded_iff hp _).mpr ⟨w, hw, current, hcu, not_le.mp hl⟩)
        rw [covered_fitting hreq hpresent hv]
        rcases memory_reserve_fitting hreq hpresent ht hwe with ⟨hab, hm⟩ | ⟨hab, han⟩
        · rw [hm]
          exact ⟨iff_of_true rfl hab, fun _ => hr.opened ht hp _ (milliseconds_nonneg r)⟩
        · rw [han]
          exact ⟨iff_of_false (by simp [admitted]) hab, fun hc => absurd hc hab⟩

/-! ### Settling -/

/-- The process after a reservation was closed. -/
def MemoryBudgetLedger.closed (m : MemoryBudgetLedger) (tenantID id : String)
    (res : MemoryReservation) (delta : ℚ) : MemoryBudgetLedger where
  windows := Function.update m.windows tenantID
    (res.windows.foldl (addTo delta) (m.windows tenantID))
  reservations := Function.update m.reservations tenantID
    (Function.update (m.reservations tenantID) id (some { res with final := true }))

/-- The Redis side of a settlement is the memory side of it. -/
theorem Related.closed (hr : Related tid s) {id : String} {res : MemoryReservation}
    (hop : Open (unixMilli s.now) (reservationKey tid id)
      (expiryKey tid) res.estimate res.windows d s.db)
    (hp : ∀ k ∈ res.windows, PlainKey k) (delta : ℚ) {status : Status} (hs : status ≠ .reserved) :
    Related tid
      ⟨Ledger.closed (unixMilli s.now) (reservationKey tid id) (expiryKey tid) id
          res.estimate delta res.windows status d s.db,
        s.memory.closed tid id res delta, s.now⟩ := by
  have ho : ∀ k, PlainKey k → Ledger.closed (unixMilli s.now) (reservationKey tid id)
      (expiryKey tid) id res.estimate delta res.windows status d s.db k
        = movedAll (unixMilli s.now) delta res.windows s.db k := fun k hk =>
    closed_other (ne_reservationKey_of_plain hk) (ne_expiryKey_of_plain hk _)
  have hex : Ledger.closed (unixMilli s.now) (reservationKey tid id) (expiryKey tid) id
      res.estimate delta res.windows status d s.db (expiryKey tid)
        = Function.update s.db (expiryKey tid)
            (remaining (unixMilli s.now) id s.db (expiryKey tid)) (expiryKey tid) := by
    rw [Function.update_self]
    exact closed_expiry
  constructor
  case alive =>
    refine ((AllAlive.movedAll delta res.windows s.db hr.alive).update_some _ ?_).update _ ?_
    · exact (live_eq_some.mp hop.hash).2
    · exact fun entry he => alive_remaining (hr.alive _) he
  case number =>
    intro k hk
    exact isNumber_congr (ho k hk) (isNumber_movedAll _ _ (hr.number k hk))
  case counters =>
    intro k hk
    rw [numberAt_congr (ho k hk)]
    show _ = Function.update s.memory.windows tid _ tid k
    rw [Function.update_self]
    exact counters_movedAll _ _ _ hp hr.counters k hk
  case recorded =>
    intro id'
    show Recorded _ _ (Function.update s.memory.reservations tid _ tid id')
    rw [Function.update_self]
    by_cases hid : id' = id
    · subst hid
      rw [Function.update_self]
      exact ⟨status, d, closed_reservation reservationKey_ne_own_expiry,
        iff_of_false hs (by simp), hp⟩
    · rw [Function.update_of_ne hid]
      refine (hr.recorded id').congr ?_
      show Ledger.closed _ _ _ _ _ _ _ _ _ _ _ = _
      rw [closed_other (fun hc => hid (reservationKey_injective _ hc))
          reservationKey_ne_own_expiry,
        movedAll_other _ _ _ _ fun hc => ne_reservationKey_of_plain (hp _ hc) rfl]
  case zset =>
    unfold IsZset
    rw [live_congr hex]
    exact isZset_remaining hop.zset id

theorem Related.settle (hr : Related tid s) (id : String) (delta : ℚ → ℚ) (status : Status)
    (hs : status ≠ .reserved) :
    Related tid
      ⟨(settleScript (unixMilli s.now) (reservationKey tid id) (expiryKey tid) id delta
          status s.db).2,
        (s.memory.settle tid id delta).2, s.now⟩ := by
  have hre := hr.recorded id
  unfold MemoryBudgetLedger.settle MemoryBudgetLedger.reservation
  cases hm : s.memory.reservations tid id with
  | none =>
    rw [hm] at hre
    have hou := runs_settleScript_shut (expiryKey tid) id delta status
      (.inl ((live_of_alive hr.alive _).trans hre))
    rw [hou]
    exact hr
  | some m =>
    rw [hm] at hre
    obtain ⟨st, d, hdb, hst, hp⟩ := hre
    have hl := (live_of_alive hr.alive (reservationKey tid id)).trans hdb
    by_cases hf : m.final = true
    · have hou := runs_settleScript_shut (expiryKey tid) id delta status
        (.inr ⟨_, _, hl, fun hc => by
          have := hst.mp (Option.some.inj hc)
          rw [hf] at this
          simp at this⟩)
      rw [hou]
      simp only [hf, if_true]
      exact hr
    · have hh : st = .reserved := hst.mpr (Bool.eq_false_iff.mpr hf)
      subst hh
      have ho : Open (unixMilli s.now) (reservationKey tid id) (expiryKey tid)
          m.estimate m.windows d s.db :=
        ⟨hl, fun k hk => hr.number k (hp k hk), hr.zset,
          fun hc => ne_reservationKey_of_plain (hp _ hc) rfl,
          fun hc => ne_expiryKey_of_plain (hp _ hc) _ rfl, reservationKey_ne_own_expiry⟩
      rw [runs_settleScript_open ho]
      simp only [hf, if_false, Bool.false_eq_true]
      exact hr.closed ho hp (delta m.estimate) hs

theorem Related.counter (hr : Related tid s) {key : String} (hp : PlainKey key) :
    counter (unixMilli s.now) s.db key = (s.memory.windows tid key).getD 0 := by
  unfold Ledger.counter
  rw [hr.counters key hp]

/-- One request: answers that agree are covered, and covered ones keep the relation. -/
theorem Related.step (hr : Related tid s) {e : Timed} (had : Admissible tid s e) :
    (Agree r tid s e → Covered tid s e) ∧ (Covered tid s e →
        Related tid (s.step r tid e) ∧ Agree r tid s e) := by
  obtain ⟨t, request⟩ := e
  obtain ⟨ha, hreq⟩ := had
  have hr' := hr.tick ha
  cases request with
  | reserve req =>
    obtain ⟨ht, hf, hne, hpl⟩ := hreq
    obtain ⟨hi, hre⟩ := hr'.reserve (r := r) ht hf hne hpl
    exact ⟨fun hag => hi.mp hag.1, fun hc =>
      ⟨hre hc, hi.mpr hc, fun key hp => (hre hc).counter hp⟩⟩
  | reconcile id actual =>
    have hre := hr'.settle id (fun est => actual - est) .reconciled (by decide)
    exact ⟨fun _ => trivial, fun _ => ⟨hre, trivial, fun key hp => hre.counter hp⟩⟩
  | release id =>
    have hre := hr'.settle id (fun est => -est) .released (by decide)
    exact ⟨fun _ => trivial, fun _ => ⟨hre, trivial, fun key hp => hre.counter hp⟩⟩

/--
**The two ledgers agree exactly on the covered runs.**
Take any sequence of requests of one tenant in which reservations have fresh ids and
name windows, the windows' keys are not the ledger's own, and no key expires.  Every
answer and every counter is the same on both ledgers, at every step, if and only if
every reservation that reaches a window without a counter fits its limit or is
refused anyway.
-/
theorem ledgers_agree_iff (r : RedisBudgetLedger) (tenantID : String) (start : Int)
    (requests : List Timed)
    (h : Lib.Allowed (Pair.step r tenantID) (Admissible tenantID) (Pair.empty start) requests) :
    Lib.Allowed (Pair.step r tenantID) (Agree r tenantID) (Pair.empty start) requests ↔
      Lib.Allowed (Pair.step r tenantID) (Covered tenantID) (Pair.empty start) requests := by
  have hs : ∀ s e, Related tenantID s → Admissible tenantID s e → Covered tenantID s e →
      Related tenantID (s.step r tenantID e) := fun s e hr had hc =>
    ((hr.step had).2 hc).1
  refine Lib.allowed_congr (fun s e hr had => ?_) hs requests _ related_empty h
  exact ⟨(hr.step had).1, fun hc => ((hr.step had).2 hc).2⟩

/-- A window of the tenant with a limit of 10. -/
def smallWindow : BudgetWindow := ⟨"\x7btenant:t\x7d:tenant:1d", 10, 0⟩

/-- The first reservation of a window: 50 against a limit of 10.  Redis admits it. -/
theorem first_reservation_over_limit :
    let large : Timed := ⟨0, .reserve ⟨"t", "r1", 50, [smallWindow]⟩⟩
    Admissible "t" (Pair.empty 0) large ∧
      admitted ((RedisBudgetLedger.new 0).reserve 0 ⟨"t", "r1", 50, [smallWindow]⟩
        (Pair.empty 0).db).1 = true ∧
      admitted ((Pair.empty 0).memory.reserve ⟨"t", "r1", 50, [smallWindow]⟩).1 = false ∧
      ¬ Agree (RedisBudgetLedger.new 0) "t" (Pair.empty 0) large := by
  have hr : admitted ((RedisBudgetLedger.new 0).reserve 0 ⟨"t", "r1", 50, [smallWindow]⟩
      (Pair.empty 0).db).1 = true := by decide +kernel
  have hm : admitted ((Pair.empty 0).memory.reserve ⟨"t", "r1", 50, [smallWindow]⟩).1
      = false := by decide +kernel
  refine ⟨⟨by simp [Pair.empty], rfl, rfl, by simp, by decide +kernel⟩, hr, hm, ?_⟩
  intro hag
  have hs : true = false := hr.symm.trans (Eq.trans hag.1 hm)
  simp at hs

/-- A reservation of 5 in that window, settled for 7, is the same to both. -/
theorem small_reservation_agrees :
    Lib.Allowed (Pair.step (RedisBudgetLedger.new 0) "t") (Agree (RedisBudgetLedger.new 0) "t")
      (Pair.empty 0) [⟨0, .reserve ⟨"t", "r1", 5, [smallWindow]⟩⟩, ⟨0, .reconcile "r1" 7⟩] := by
  have hf : Admissible "t" (Pair.empty 0) ⟨0, .reserve ⟨"t", "r1", 5, [smallWindow]⟩⟩ :=
    ⟨by simp [Pair.empty], rfl, rfl, by simp, by decide +kernel⟩
  have hc : Covered "t" (Pair.empty 0) ⟨0, .reserve ⟨"t", "r1", 5, [smallWindow]⟩⟩ :=
    Or.inr (Or.inr (by decide +kernel))
  have hs := related_empty.step (r := RedisBudgetLedger.new 0) hf
  have hr := (hs.2 hc).1
  refine (ledgers_agree_iff (RedisBudgetLedger.new 0) "t" 0 _ ?_).mpr ?_
  · exact ⟨hf, ⟨hr.alive, trivial⟩, trivial⟩
  · exact ⟨hc, trivial, trivial⟩

end LiteAIG.Ledger
