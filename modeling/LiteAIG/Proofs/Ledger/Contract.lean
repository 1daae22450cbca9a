/-
The ledger contract, and that both ledgers keep it.

`LawfulBudgetLedger` says what can be seen of a ledger and what `Reserve` may do to
it: refuse without a trace, or open the reservation.  It speaks of ledgers that are
`sound` for the request.  For the in-memory ledger that is any ledger; for Redis the
keys the request touches have to hold what the scripts expect, since a script that
fails half way keeps what it wrote.
-/
import LiteAIG.Proofs.Ledger.Scripts

namespace LiteAIG.Ledger

open Lib.Redis

class LawfulBudgetLedger (σ : Type) [BudgetLedger σ] where
  counter : σ → String → String → ℚ
  isOpen : σ → String → String → Prop
  sound : σ → ReserveRequest → Prop
  available : σ → Prop
  /-- The ledger lets the estimate into every window of the request. -/
  room : σ → ReserveRequest → Prop
  reserve_unavailable : ∀ {s : σ} {req : ReserveRequest}, sound s req → ¬ available s →
    BudgetLedger.reserve req s = (.error .ledgerUnavailable, s)
  reserve_full : ∀ {s : σ} {req : ReserveRequest}, sound s req → available s → ¬ room s req →
    BudgetLedger.reserve req s = (.ok ⟨false, false⟩, s)
  reserve_room : ∀ {s : σ} {req : ReserveRequest}, sound s req → available s → room s req →
    ∃ s', BudgetLedger.reserve req s = (.ok ⟨true, false⟩, s') ∧
      isOpen s' req.tenantID req.reservationID

/-! ### In memory -/

variable {tenant : String → Option ℚ} {est : ℚ} {m : MemoryBudgetLedger} {req : ReserveRequest}

theorem checkWindows_some :
    ∀ ws : List BudgetWindow,
      (∀ w ∈ ws, w.invalid = false ∧ (tenant w.key).getD 0 + est ≤ w.limit) →
      checkWindows tenant est ws = .ok (some (ws.map BudgetWindow.key)) := by
  intro ws
  induction ws with
  | nil => intro _; rfl
  | cons w rest ih =>
    intro h
    obtain ⟨hi, hf⟩ := h w List.mem_cons_self
    rw [checkWindows, if_neg (by simp [hi]), if_neg (by exact not_lt.mpr hf),
      ih fun v hv => h v (List.mem_cons_of_mem _ hv)]
    rfl

theorem checkWindows_only :
    ∀ (ws : List BudgetWindow) (keys : List String),
      checkWindows tenant est ws = .ok (some keys) →
      ∀ w ∈ ws, w.invalid = false ∧ (tenant w.key).getD 0 + est ≤ w.limit := by
  intro ws
  induction ws with
  | nil => intro keys _ w hw; simp at hw
  | cons v rest ih =>
    intro keys h w hw
    rw [checkWindows] at h
    by_cases hi : v.invalid = true
    · rw [if_pos hi] at h
      simp at h
    · rw [if_neg hi] at h
      by_cases ho : (tenant v.key).getD 0 + est > v.limit
      · rw [if_pos ho] at h
        simp at h
      · rw [if_neg ho] at h
        rcases List.mem_cons.mp hw with rfl | hw
        · exact ⟨by simpa using hi, not_lt.mp ho⟩
        · cases hr : checkWindows tenant est rest with
          | error err => rw [hr] at h; simp [Except.map] at h
          | ok o =>
            cases o with
            | none => rw [hr] at h; simp [Except.map] at h
            | some keys' => exact ih keys' hr w hw

/-- Memory refuses a request one of whose windows is invalid or would be exceeded. -/
theorem memory_refused
    (h : ¬ ∀ w ∈ req.windows, w.invalid = false ∧
      (m.windows req.tenantID w.key).getD 0 + req.estimate ≤ w.limit) :
    admitted (m.reserve req).1 = false ∧ (m.reserve req).2 = m := by
  unfold MemoryBudgetLedger.reserve
  split
  · exact ⟨rfl, rfl⟩
  · cases hc : checkWindows (m.windows req.tenantID) req.estimate req.windows with
    | error err => simp [hc, admitted]
    | ok o =>
      cases o with
      | none => simp [hc, admitted]
      | some keys => exact absurd (checkWindows_only _ keys hc) h

/-- The process after a request was admitted. -/
def MemoryBudgetLedger.opened (m : MemoryBudgetLedger) (req : ReserveRequest) :
    MemoryBudgetLedger :=
  let keys := req.windows.map BudgetWindow.key
  { windows := Function.update m.windows req.tenantID
      (keys.foldl (addTo req.estimate) (m.windows req.tenantID))
    reservations := Function.update m.reservations req.tenantID
      (Function.update (m.reservations req.tenantID) req.reservationID
        (some ⟨req.estimate, keys, false⟩)) }

theorem memory_admitted (hr : ¬ (req.reservationID = "" ∨ req.estimate < 0))
    (h : ∀ w ∈ req.windows, w.invalid = false ∧
      (m.windows req.tenantID w.key).getD 0 + req.estimate ≤ w.limit) :
    m.reserve req = (.ok ⟨true, false⟩, m.opened req) := by
  unfold MemoryBudgetLedger.reserve
  rw [if_neg hr]
  simp only [checkWindows_some _ h]
  rfl

theorem checkWindows_ok (tenant : String → Option ℚ) (est : ℚ) :
    ∀ ws : List BudgetWindow, (∀ w ∈ ws, w.invalid = false) →
      ∃ o, checkWindows tenant est ws = .ok o := by
  intro ws
  induction ws with
  | nil => intro _; exact ⟨_, rfl⟩
  | cons w rest ih =>
    intro h
    obtain ⟨o, ho⟩ := ih fun v hv => h v (List.mem_cons_of_mem _ hv)
    rw [checkWindows, if_neg (by simp [h w List.mem_cons_self]), ho]
    split
    · exact ⟨_, rfl⟩
    · exact ⟨_, rfl⟩

theorem memory_full (hr : ¬ (req.reservationID = "" ∨ req.estimate < 0))
    (hv : ∀ w ∈ req.windows, w.invalid = false)
    (h : ¬ ∀ w ∈ req.windows, (m.windows req.tenantID w.key).getD 0 + req.estimate ≤ w.limit) :
    m.reserve req = (.ok ⟨false, false⟩, m) := by
  obtain ⟨o, ho⟩ := checkWindows_ok (m.windows req.tenantID) req.estimate req.windows hv
  unfold MemoryBudgetLedger.reserve
  rw [if_neg hr]
  cases o with
  | none => simp only [ho]
  | some keys => exact absurd (fun w hw => (checkWindows_only _ keys ho w hw).2) h

instance : LawfulBudgetLedger MemoryBudgetLedger where
  counter m tenantID key := (m.windows tenantID key).getD 0
  isOpen m tenantID id := ∃ r, m.reservations tenantID id = some r ∧ r.final = false
  sound _ req :=
    ¬ (req.reservationID = "" ∨ req.estimate < 0) ∧ ∀ w ∈ req.windows, w.invalid = false
  available _ := True
  room m req := ∀ w ∈ req.windows, (m.windows req.tenantID w.key).getD 0 + req.estimate ≤ w.limit
  reserve_unavailable _ h := absurd trivial h
  reserve_full hs _ hroom := memory_full hs.1 hs.2 hroom
  reserve_room := by
    intro m req hs _ hroom
    refine ⟨_, memory_admitted hs.1 fun w hw => ⟨hs.2 w hw, hroom w hw⟩,
      ⟨req.estimate, req.windows.map BudgetWindow.key, false⟩, ?_, rfl⟩
    simp [MemoryBudgetLedger.opened]

/-! ### On Redis -/

/-- The keys of the request hold what the scripts expect, and none stands for two things. -/
structure RedisServer.Ready (s : RedisServer) (req : ReserveRequest) : Prop where
  formed : req.malformed = false
  plain : ∀ w ∈ req.windows, PlainKey w.key
  numbers : ∀ w ∈ req.windows, IsNumber (unixMilli s.now) s.db w.key
  fresh : live (unixMilli s.now) s.db (reservationKey req.tenantID req.reservationID) = none
  expiry : IsZset (unixMilli s.now) s.db (expiryKey req.tenantID)

theorem RedisServer.Ready.reserve_eq {s : RedisServer} (h : s.Ready req) (hup : s.reachable) :
    BudgetLedger.reserve req s
      = if exceededIn (unixMilli s.now) s.db req.estimate req.windows then (.ok ⟨false, false⟩, s)
        else (.ok ⟨true, false⟩, { s with
          db := opened (unixMilli s.now) (reservationKey req.tenantID req.reservationID)
            (expiryKey req.tenantID) req.reservationID req.estimate
            (unixMilli (s.now + s.ledger.reservationTTL)) (milliseconds s.ledger.reservationTTL)
            req.windows s.db }) := by
  have hf := h.formed
  simp only [ReserveRequest.malformed, Bool.or_eq_false_iff, decide_eq_false_iff_not,
    List.isEmpty_eq_false_iff] at hf
  obtain ⟨⟨⟨hid, he⟩, hne⟩, hv⟩ := hf
  show (if req.malformed then _ else s.call _ _) = _
  rw [if_neg (by simp [h.formed]), RedisServer.call, if_pos hup,
    redis_reserve_eq (by simp [hid, he, hne]) (by simp [hv]) h.plain h.numbers h.fresh h.expiry]
  by_cases hex : exceededIn (unixMilli s.now) s.db req.estimate req.windows = true
  · simp only [if_pos hex]
  · simp only [if_neg hex]

instance : LawfulBudgetLedger RedisServer where
  counter s _ key := Ledger.counter (unixMilli s.now) s.db key
  isOpen s tenantID id := ∃ h d,
    live (unixMilli s.now) s.db (reservationKey tenantID id) = some ⟨.hash h, d⟩ ∧
      h.status = some .reserved
  sound := RedisServer.Ready
  available s := s.reachable = true
  -- a window without a counter is let through whatever its limit
  room s req := exceededIn (unixMilli s.now) s.db req.estimate req.windows = false
  reserve_unavailable := by
    intro s req h hdown
    show (if req.malformed then _ else s.call _ _) = _
    rw [if_neg (by simp [h.formed]), RedisServer.call, if_neg hdown]
  reserve_full := by
    intro s req h hup hroom
    rw [h.reserve_eq hup, if_pos (Bool.not_eq_false _ ▸ hroom)]
  reserve_room := by
    intro s req h hup hroom
    have hne : reservationKey req.tenantID req.reservationID ≠ expiryKey req.tenantID :=
      reservationKey_ne_own_expiry
    rw [h.reserve_eq hup, if_neg (by simp [hroom])]
    refine ⟨_, rfl, openHash req.estimate (req.windows.map BudgetWindow.key),
      some (unixMilli s.now + milliseconds s.ledger.reservationTTL), ?_, rfl⟩
    refine live_eq_some.mpr ⟨opened_reservation hne, ?_⟩
    simp only [Entry.alive, decide_eq_true_eq]
    have := milliseconds_nonneg s.ledger
    omega

end LiteAIG.Ledger
