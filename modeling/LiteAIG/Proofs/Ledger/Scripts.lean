/-
What the ledger's scripts do, on a keyspace where every key has its type.

Each script is described once, by the keyspace it leaves: `charged` for the
counters a reservation adds to, `opened` for the whole of an admitted
reservation, `closed` for a settlement or an expiry.  Everything that is proved
about runs of the ledger reads these three and never a script.
-/
import LiteAIG.Ledger.Redis

namespace LiteAIG.Ledger

open Lib.Redis Function Runs List

variable {now : Int} {db : Db}

theorem milliseconds_nonneg (r : RedisBudgetLedger) : 0 ≤ milliseconds r.reservationTTL :=
  Int.tdiv_nonneg r.ttl_pos.le (by decide)

/-! ### Keys -/

/-- A window key that cannot be taken for one of the ledger's own keys. -/
def PlainKey (key : String) : Prop := ¬ "budget:\x7btenant:".toList <+: key.toList
  deriving Decidable

/-- A tenant id that does not close the hash tag early. -/
def CleanTenant (tenantID : String) : Prop := '\x7d' ∉ tenantID.toList
  deriving Decidable

theorem close_toList : "\x7d".toList = ['\x7d'] := rfl

theorem reservationKey_toList (t id : String) :
    (reservationKey t id).toList = "budget:\x7btenant:".toList
          ++ (t.toList ++ '\x7d' :: (":reservation:".toList ++ id.toList)) := by
  unfold reservationKey
  rw [String.toList_append, String.toList_append, String.toList_append, String.toList_append,
    close_toList, append_assoc, append_assoc, append_assoc, singleton_append]

theorem expiryKey_toList (t : String) :
    (expiryKey t).toList
      = "budget:\x7btenant:".toList ++ (t.toList ++ '\x7d' :: ":reservation_expiry".toList) := by
  unfold expiryKey
  rw [String.toList_append, String.toList_append, String.toList_append, close_toList,
    append_assoc, append_assoc, singleton_append]

variable {key id id' t t' : String} {db' : Db}

theorem ne_reservationKey_of_plain (h : PlainKey key) :
    key ≠ reservationKey t id := by
  rintro rfl
  exact h (by rw [reservationKey_toList]; exact prefix_append _ _)

theorem ne_expiryKey_of_plain (h : PlainKey key) (t : String) : key ≠ expiryKey t := by
  rintro rfl
  exact h (by rw [expiryKey_toList]; exact prefix_append _ _)

/-- Up to the first closing brace the text of the key is the tenant. -/
theorem tag_cancel {x y r s : List Char} (hx : '\x7d' ∉ x) (hy : '\x7d' ∉ y)
    (h : x ++ '\x7d' :: r = y ++ '\x7d' :: s) : x = y ∧ r = s := by
  have ht : ∀ (z q : List Char), '\x7d' ∉ z → (z ++ '\x7d' :: q).takeWhile (· ≠ '\x7d') = z := by
    intro z q hz
    rw [takeWhile_append_of_pos (fun c hc => by
      simp only [ne_eq, decide_eq_true_eq]
      rintro rfl
      exact hz hc)]
    simp
  have hxy : x = y := by rw [← ht x r hx, h, ht y s hy]
  subst hxy
  exact ⟨rfl, by simpa using h⟩

theorem reservationKey_injective (t : String) (h : reservationKey t id = reservationKey t id') :
    id = id' := by
  have hl := congrArg String.toList h
  rw [reservationKey_toList, reservationKey_toList, append_cancel_left_eq,
    append_cancel_left_eq, cons_eq_cons, append_cancel_left_eq] at hl
  exact String.toList_inj.mp hl.2

theorem reservationKey_ne_own_expiry : reservationKey t id ≠ expiryKey t := by
  intro h
  have hl := congrArg String.toList h
  rw [reservationKey_toList, expiryKey_toList, append_cancel_left_eq,
    append_cancel_left_eq] at hl
  -- the two names part after `:reservation`
  have hr := congrArg (fun l => l[13]?) hl
  exact absurd hr (by
    rw [List.getElem?_cons_succ, List.getElem?_append_left (by decide)]
    decide)

section

variable (ht : CleanTenant t) (ht' : CleanTenant t')
include ht ht'

theorem reservationKey_inj (h : reservationKey t id = reservationKey t' id') :
    t = t' ∧ id = id' := by
  have hl := congrArg String.toList h
  rw [reservationKey_toList, reservationKey_toList, append_cancel_left_eq] at hl
  have htt : t = t' := String.toList_inj.mp (tag_cancel ht ht' hl).1
  subst htt
  exact ⟨rfl, reservationKey_injective t h⟩

theorem expiryKey_inj (h : expiryKey t = expiryKey t') :
    t = t' := by
  have hl := congrArg String.toList h
  rw [expiryKey_toList, expiryKey_toList, append_cancel_left_eq] at hl
  exact String.toList_inj.mp (tag_cancel ht ht' hl).1

theorem reservationKey_ne_expiryKey :
    reservationKey t id ≠ expiryKey t' := by
  intro h
  have hl := congrArg String.toList h
  rw [reservationKey_toList, expiryKey_toList, append_cancel_left_eq] at hl
  have htt : t = t' := String.toList_inj.mp (tag_cancel ht ht' hl).1
  subst htt
  exact reservationKey_ne_own_expiry h

end

/-! ### Counters that move -/

/-- A counter, absent ones being zero. -/
def counter (now : Int) (db : Db) (key : String) : ℚ := (numberAt now db key).getD 0

theorem numberAt_congr {db : Db} (h : db key = db' key) :
    numberAt now db key = numberAt now db' key := by
  unfold numberAt
  rw [live_congr h]

theorem isNumber_congr {db : Db} (h : db key = db' key) (hn : IsNumber now db' key) :
    IsNumber now db key := by
  unfold IsNumber
  rwa [live_congr h]

section

variable (key key' : String) (q : ℚ) {d : Option Int}
  (hd : Entry.alive now (⟨.num q, d⟩ : Entry ReservationHash String) = true)
include hd

theorem counter_update :
    counter now (update db key (some ⟨.num q, d⟩)) key'
      = if key' = key then q else counter now db key' := by
  unfold counter numberAt
  by_cases h : key' = key
  · rw [if_pos h, h, live_update_self hd]
    rfl
  · rw [if_neg h, live_update_ne h]

theorem isNumber_update (hn : IsNumber now db key') :
    IsNumber now (update db key (some ⟨.num q, d⟩)) key' := by
  unfold IsNumber
  by_cases h : key' = key
  · rw [h, live_update_self hd]
    exact Or.inr ⟨q, d, rfl⟩
  · rwa [live_update_ne h]

end

/-- The deadline of a key that is there has not passed. -/
theorem alive_deadlineAt (q : ℚ) (key : String) :
    Entry.alive now (⟨.num q, deadlineAt now db key⟩ : Entry ReservationHash String) = true := by
  unfold deadlineAt
  cases hl : live now db key with
  | none => rfl
  | some e => exact (live_eq_some.mp hl).2

/-- The counters after an amount was added under each of these keys. -/
def movedAll (now : Int) (delta : ℚ) (keys : List String) (db : Db) : Db :=
  keys.foldl (moved now delta) db

variable (delta : ℚ)

section

variable (e : Option (Entry ReservationHash String)) (keys : List String)

theorem movedAll_other (db : Db) (key : String) (hk : key ∉ keys) :
    movedAll now delta keys db key = db key :=
  List.foldlRecOn (motive := fun db' : Db => db' key = db key) keys _ rfl fun _ h _ hm =>
    (update_of_ne (ne_of_mem_of_not_mem hm hk).symm _ _).trans h

/-- Moving counters and writing another key do not meet. -/
theorem movedAll_update (db : Db) (hk : key ∉ keys) : movedAll now delta keys (update db key e)
        = update (movedAll now delta keys db) key e := by
  refine foldl_rel (r := fun db' db : Db => db' = update db key e) rfl fun k hm db' db h => ?_
  have hne : key ≠ k := fun hc => hk (hc ▸ hm)
  have hs : update db key e k = db k := update_of_ne hne.symm _ _
  rw [h]
  unfold moved deadlineAt
  rw [numberAt_congr hs, live_congr hs, update_comm hne]

theorem isNumber_moved {key' : String} (h : IsNumber now db key') :
    IsNumber now (moved now delta db key) key' :=
  isNumber_update key key' _ (alive_deadlineAt _ _) h

theorem isNumber_movedAll (h : IsNumber now db key) :
    IsNumber now (movedAll now delta keys db) key :=
  List.foldlRecOn (motive := (IsNumber now · key)) keys _ h fun _ h _ _ => isNumber_moved delta h

/-- Counters that each step of a fold adds to are added to as often as their keys come up. -/
theorem counter_foldl {α : Type} {f : Db → α → Db} {g : α → String} {d : ℚ}
    (hs : ∀ db a k, counter now (f db a) k
      = if k = g a then counter now db (g a) + d else counter now db k)
    (l : List α) (db : Db) (k : String) :
    counter now (l.foldl f db) k = counter now db k + (l.map g).count k * d := by
  induction l generalizing db with
  | nil => simp
  | cons a rest ih =>
    rw [foldl_cons, ih, hs, map_cons, count_cons]
    by_cases h : k = g a
    · subst h
      simp only [if_true, beq_self_eq_true, Nat.cast_add, Nat.cast_one]
      ring
    · rw [if_neg h, if_neg (by simpa using Ne.symm h)]
      simp

theorem counter_movedAll :
    counter now (movedAll now delta keys db) key = counter now db key + keys.count key * delta := by
  have h := counter_foldl (f := moved now delta) (g := id)
    (fun db a k => counter_update a k _ (alive_deadlineAt _ _)) keys db key
  rwa [map_id] at h

end

/-! ### Reserving -/

/-- The deadline of a window's counter, set anew by every reservation. -/
def windowDeadline (now : Int) (w : BudgetWindow) : Option Int :=
  if milliseconds w.ttl > 0 then some (now + milliseconds w.ttl) else none

def chargedOne (now : Int) (estimate : ℚ) (db : Db) (w : BudgetWindow) : Db :=
  Function.update db w.key (some ⟨.num (counter now db w.key + estimate), windowDeadline now w⟩)

/-- The counters after a reservation charged its windows. -/
def charged (now : Int) (estimate : ℚ) (windows : List BudgetWindow) (db : Db) : Db :=
  windows.foldl (chargedOne now estimate) db

/-- Some window that has a counter would go over its limit. -/
def exceededIn (now : Int) (db : Db) (estimate : ℚ) (windows : List BudgetWindow) : Bool :=
  windows.any fun w =>
    match numberAt now db w.key with
    | some current => decide (current + estimate > w.limit)
    | none => false

variable (estimate : ℚ) {reservation expiry : String} {d : Option Int}

theorem runs_anyExceeded : ∀ ws : List BudgetWindow,
    (∀ w ∈ ws, IsNumber now db w.key) →
      Runs (anyExceeded now estimate ws) db (exceededIn now db estimate ws) db := by
  intro ws
  induction ws with
  | nil => intro _; exact runs_pure _ _
  | cons w rest ih =>
    intro h
    have hr := ih fun v hv => h v (mem_cons_of_mem _ hv)
    refine bind (runs_get (h w mem_cons_self)) ?_
    unfold exceededIn at hr ⊢
    rw [any_cons]
    cases hn : numberAt now db w.key with
    | none => simpa using hr
    | some current =>
      by_cases ho : current + estimate > w.limit
      · simp only [ho, if_true, decide_true, Bool.true_or]
        exact runs_pure _ _
      · simpa only [ho, if_false, decide_false, Bool.false_or] using hr

theorem alive_windowDeadline (q : ℚ) (w : BudgetWindow) :
    Entry.alive now (⟨.num q, windowDeadline now w⟩ : Entry ReservationHash String) = true := by
  unfold windowDeadline Entry.alive
  by_cases h : milliseconds w.ttl > 0
  · simp only [if_pos h, decide_eq_true_eq]
    omega
  · simp only [if_neg h]

theorem runs_chargeAll : ∀ (ws : List BudgetWindow) (db : Db),
    (∀ w ∈ ws, IsNumber now db w.key) →
      Runs (chargeAll now estimate ws) db () (charged now estimate ws db) := by
  intro ws
  induction ws with
  | nil => intro db _; exact runs_pure _ _
  | cons w rest ih =>
    intro db h
    refine bind (runs_get (h w mem_cons_self)) ?_
    refine bind (runs_set _ _) ?_
    have hdl : Option.map (now + ·)
        (if milliseconds w.ttl > 0 then some (milliseconds w.ttl) else none)
          = windowDeadline now w := by
      unfold windowDeadline
      split <;> rfl
    rw [hdl]
    refine ih _ fun v hv => ?_
    exact isNumber_update _ _ _ (alive_windowDeadline _ _) (h v (mem_cons_of_mem _ hv))

section

variable (ws : List BudgetWindow) (db : Db) (key : String)

theorem charged_other (hk : key ∉ ws.map BudgetWindow.key) :
    charged now estimate ws db key = db key :=
  List.foldlRecOn (motive := fun db' : Db => db' key = db key) ws _ rfl fun _ h w hw =>
    (update_of_ne (fun he => hk (mem_map.mpr ⟨w, hw, he.symm⟩)) _ _).trans h

theorem isNumber_charged (h : IsNumber now db key) :
    IsNumber now (charged now estimate ws db) key :=
  List.foldlRecOn (motive := (IsNumber now · key)) ws _ h fun _ h _ _ =>
    isNumber_update _ _ _ (alive_windowDeadline _ _) h

theorem counter_charged :
    counter now (charged now estimate ws db) key
      = counter now db key + (ws.map BudgetWindow.key).count key * estimate :=
  counter_foldl (fun _ w k => counter_update w.key k _ (alive_windowDeadline _ _)) ws db key

end

/-- The hash of a reservation that charged these windows. -/
def openHash (estimate : ℚ) (keys : List String) : ReservationHash :=
  ⟨some .reserved, some estimate, some keys.length, fun j => keys[j]?⟩

/-- The `w` fields after keys were listed from index `i` on. -/
def listed : Nat → List BudgetWindow → (Nat → Option String) → Nat → Option String
  | _, [], w => w
  | i, window :: rest, w => listed (i + 1) rest (Function.update w i (some window.key))

theorem listed_get : ∀ (ws : List BudgetWindow) (i : Nat) (w : Nat → Option String) (j : Nat),
    listed i ws w j
      = if i ≤ j ∧ j < i + ws.length then (ws.map BudgetWindow.key)[j - i]? else w j := by
  intro ws
  induction ws with
  | nil =>
    intro i w j
    rw [if_neg (by simp)]
    rfl
  | cons window rest ih =>
    intro i w j
    rw [listed, ih]
    by_cases hj : i + 1 ≤ j ∧ j < i + 1 + rest.length
    · rw [if_pos hj, if_pos (by simp only [length_cons]; omega), map_cons,
        show j - i = (j - (i + 1)) + 1 by omega, List.getElem?_cons_succ]
    · rw [if_neg hj]
      by_cases hi : j = i
      · subst hi
        rw [update_self, if_pos (by simp)]
        simp
      · rw [update_of_ne hi, if_neg (by simp only [length_cons]; omega)]

theorem listed_all (ws : List BudgetWindow) :
    listed 0 ws (fun _ => none) = fun j => (ws.map BudgetWindow.key)[j]? := by
  funext j
  rw [listed_get]
  by_cases hj : j < ws.length
  · rw [if_pos ⟨Nat.zero_le _, by omega⟩, Nat.sub_zero]
  · rw [if_neg (by omega), List.getElem?_eq_none (by simpa using hj)]

theorem runs_listWindows {reservation : String} :
    ∀ (ws : List BudgetWindow) (i : Nat) (h : ReservationHash) (db : Db),
      live now db reservation = some ⟨.hash h, d⟩ →
      Runs (listWindows now reservation i ws) db () (update db reservation
          (some ⟨.hash { h with w := listed i ws h.w }, d⟩)) := by
  intro ws
  induction ws with
  | nil =>
    intro i h db hl
    rw [update_eq_self_iff.mpr ((live_eq_some.mp hl).1.symm ▸ rfl)]
    exact runs_pure _ _
  | cons window rest ih =>
    intro i h db hl
    refine bind (runs_hset hl _ _) ?_
    have hn := ih (i + 1) { h with w := update h.w i (some window.key) }
      (update db reservation _) (live_update_self (live_eq_some.mp hl).2)
    rwa [update_idem] at hn

/-- The keyspace an admitted reservation leaves. -/
def opened (now : Int) (reservation expiry reservationID : String) (estimate : ℚ)
    (expiresAt ttl : Int) (windows : List BudgetWindow) (db : Db) : Db :=
  Function.update
    (Function.update (charged now estimate windows db) reservation
      (some ⟨.hash (openHash estimate (windows.map BudgetWindow.key)), some (now + ttl)⟩))
    expiry
    (some ⟨.zset (addMember (membersAt now db expiry) expiresAt reservationID), some (now + ttl)⟩)

section

variable {reservation expiry : String} {estimate : ℚ} {ws : List BudgetWindow}

theorem runs_reserveScript_refused (reservation expiry rid : String) (expiresAt ttl : Int)
    (hn : ∀ w ∈ ws, IsNumber now db w.key) (hex : exceededIn now db estimate ws) :
    Runs (reserveScript now reservation expiry rid estimate expiresAt ttl ws)
      db false db := by
  refine bind (runs_anyExceeded estimate ws hn) ?_
  rw [hex]
  exact runs_pure _ _

theorem runs_reserveScript_admitted (rid : String) (expiresAt ttl : Int)
    (hn : ∀ w ∈ ws, IsNumber now db w.key) (hex : exceededIn now db estimate ws = false)
    (hfr : live now db reservation = none) (hz : IsZset now db expiry)
    (hr : reservation ∉ ws.map BudgetWindow.key) (hexp : expiry ∉ ws.map BudgetWindow.key)
    (hne : reservation ≠ expiry) :
    Runs (reserveScript now reservation expiry rid estimate expiresAt ttl ws)
      db true (opened now reservation expiry rid estimate expiresAt ttl ws db) := by
  have hf : live now (charged now estimate ws db) reservation = none := by
    rw [live_congr (charged_other estimate ws db reservation hr), hfr]
  have he : ∀ e, live now (update (charged now estimate ws db) reservation e)
      expiry = live now db expiry := by
    intro e
    rw [live_update_ne hne.symm, live_congr (charged_other estimate ws db expiry hexp)]
  refine bind (runs_anyExceeded estimate ws hn) ?_
  rw [hex]
  refine bind (runs_chargeAll estimate ws db hn) ?_
  refine bind (runs_hset_absent hf _ _) ?_
  refine bind (runs_listWindows ws 0 _ _ (live_update_self rfl)) ?_
  have hh : ({ ReservationHash.empty with
        status := some .reserved, estimate := some estimate, wc := some ws.length
        w := listed 0 ws ReservationHash.empty.w } : ReservationHash)
      = openHash estimate (ws.map BudgetWindow.key) := by
    show (⟨_, _, _, listed 0 ws fun _ => none⟩ : ReservationHash) = _
    rw [listed_all, openHash, length_map]
  rw [update_idem, hh]
  set base := charged now estimate ws db
  set hash : Entry ReservationHash String :=
    ⟨.hash (openHash estimate (ws.map BudgetWindow.key)), none⟩
  have hz' : IsZset now (update base reservation (some hash)) expiry := by
    unfold IsZset
    rwa [he]
  have hm : membersAt now (update base reservation (some hash)) expiry
      = membersAt now db expiry := by
    unfold membersAt
    rw [he]
  refine bind (runs_zadd hz' expiresAt rid) ?_
  rw [hm]
  set dl := deadlineAt now (update base reservation (some hash)) expiry with hdl
  set zset : Entry ReservationHash String :=
    ⟨.zset (addMember (membersAt now db expiry) expiresAt rid), dl⟩
  have hli : live now (update (update base reservation (some hash)) expiry
      (some zset)) reservation = some hash := by
    rw [live_update_ne hne, live_update_self rfl]
  refine bind (runs_pexpire hli ttl) ?_
  have hza : zset.alive now = true := alive_deadlineAt 0 expiry
  have hl : live now (update (update (update base reservation
      (some hash)) expiry (some zset)) reservation
      (some { hash with deadline := some (now + ttl) })) expiry = some zset := by
    rw [live_update_ne hne.symm, live_update_self hza]
  refine bind (runs_pexpire hl ttl) ?_
  rw [update_comm hne.symm, update_idem, update_idem]
  exact runs_pure _ _

/-- What `Reserve` does with a well-formed request, if its keys hold what the script expects. -/
theorem redis_reserve_eq {r : RedisBudgetLedger} {t : Int} {req : ReserveRequest} {db : Db}
    (hr : ¬ (req.reservationID = "" ∨ req.estimate < 0 ∨ req.windows = []))
    (hv : ¬ req.windows.any BudgetWindow.invalid = true) (hp : ∀ w ∈ req.windows, PlainKey w.key)
    (hn : ∀ w ∈ req.windows, IsNumber (unixMilli t) db w.key)
    (hf : live (unixMilli t) db (reservationKey req.tenantID req.reservationID) = none)
    (hz : IsZset (unixMilli t) db (expiryKey req.tenantID)) :
    r.reserve t req db
      = if exceededIn (unixMilli t) db req.estimate req.windows then (.ok ⟨false, false⟩, db)
        else (.ok ⟨true, false⟩, opened (unixMilli t)
          (reservationKey req.tenantID req.reservationID) (expiryKey req.tenantID)
          req.reservationID req.estimate (unixMilli (t + r.reservationTTL))
          (milliseconds r.reservationTTL) req.windows db) := by
  have hno : ∀ key, ¬ PlainKey key → key ∉ req.windows.map BudgetWindow.key := by
    intro key hk hc
    obtain ⟨w, hw, rfl⟩ := mem_map.mp hc
    exact hk (hp w hw)
  unfold RedisBudgetLedger.reserve
  rw [if_neg hr, if_neg hv]
  by_cases hex : exceededIn (unixMilli t) db req.estimate req.windows = true
  · rw [if_pos hex, runs_reserveScript_refused _ _ _ _ _ hn hex]
    rfl
  · rw [if_neg hex, runs_reserveScript_admitted _ _ _ hn (Bool.eq_false_iff.mpr hex) hf hz
      (hno _ fun h => ne_reservationKey_of_plain h rfl)
      (hno _ fun h => ne_expiryKey_of_plain h _ rfl) reservationKey_ne_own_expiry]
    rfl

end

/-! ### Settling and expiring -/

theorem filterMap_getElem?_range {α : Type} (ks : List α) :
    (List.range ks.length).filterMap (fun j => ks[j]?) = ks := by
  induction ks with
  | nil => rfl
  | cons k ks ih =>
    rw [length_cons, range_succ_eq_map, filterMap_cons]
    simp [filterMap_map, ih]

/-- The walk over the listed windows moves each of them; the hash is not among them. -/
theorem runs_adjust {reservation : String} {h : ReservationHash} :
    ∀ (indices : List Nat) (db : Db), live now db reservation = some ⟨.hash h, d⟩ →
      (∀ k ∈ indices.filterMap h.w, IsNumber now db k ∧ k ≠ reservation) →
      Runs (adjust now reservation delta indices) db ()
        (movedAll now delta (indices.filterMap h.w) db) := by
  intro indices
  induction indices with
  | nil => intro db _ _; exact runs_pure _ _
  | cons i rest ih =>
    intro db hl hk
    refine bind (runs_hget hl _) ?_
    rw [filterMap_cons] at hk ⊢
    cases hw : h.w i with
    | none =>
      rw [hw] at hk
      exact bind (runs_pure _ _) (ih db hl hk)
    | some key =>
      rw [hw] at hk
      obtain ⟨hnu, hne⟩ := hk key mem_cons_self
      refine bind (runs_incrByFloat hnu delta) ?_
      refine ih _ ?_ fun k hm => ?_
      · rw [moved, live_update_ne hne.symm, hl]
      · obtain ⟨hn, hnek⟩ := hk k (mem_cons_of_mem _ hm)
        exact ⟨isNumber_moved delta hn, hnek⟩

/-- The keyspace after a reservation was closed and taken out of the expiry set. -/
def closed (now : Int) (reservation expiry reservationID : String) (estimate delta : ℚ)
    (keys : List String) (status : Status) (d : Option Int) (db : Db) : Db :=
  Function.update
    (Function.update (movedAll now delta keys db) reservation
      (some ⟨.hash { openHash estimate keys with status := some status }, d⟩))
    expiry (remaining now reservationID db expiry)

section

variable {rid : String} {estimate delta : ℚ} {keys : List String} {status : Status}
  {expiresAt ttl : Int} {ws : List BudgetWindow}

theorem closed_reservation (hne : reservation ≠ expiry) :
    closed now reservation expiry rid estimate delta keys status d db reservation
      = some ⟨.hash { openHash estimate keys with status := some status }, d⟩ := by
  unfold closed
  rw [update_of_ne hne, update_self]

theorem closed_expiry :
    closed now reservation expiry rid estimate delta keys status d db expiry
      = remaining now rid db expiry := by
  unfold closed
  rw [update_self]

theorem closed_other (hr : key ≠ reservation) (he : key ≠ expiry) :
    closed now reservation expiry rid estimate delta keys status d db key
      = movedAll now delta keys db key := by
  unfold closed
  rw [update_of_ne he, update_of_ne hr]

theorem opened_reservation (hne : reservation ≠ expiry) :
    opened now reservation expiry rid estimate expiresAt ttl ws db reservation
      = some ⟨.hash (openHash estimate (ws.map BudgetWindow.key)), some (now + ttl)⟩ := by
  unfold opened
  rw [update_of_ne hne, update_self]

theorem opened_expiry :
    opened now reservation expiry rid estimate expiresAt ttl ws db expiry
      = some ⟨.zset (addMember (membersAt now db expiry) expiresAt rid),
          some (now + ttl)⟩ := by
  unfold opened
  rw [update_self]

theorem opened_other (hr : key ≠ reservation) (he : key ≠ expiry) :
    opened now reservation expiry rid estimate expiresAt ttl ws db key
      = charged now estimate ws db key := by
  unfold opened
  rw [update_of_ne he, update_of_ne hr]

end

variable (reservation expiry rid : String)

section

variable {reservation expiry : String} {estimate : ℚ} {keys : List String} {d : Option Int}

/-- What a settlement finds for an open reservation. -/
structure Open (now : Int) (reservation expiry : String) (estimate : ℚ) (keys : List String)
    (d : Option Int) (db : Db) : Prop where
  hash : live now db reservation = some ⟨.hash (openHash estimate keys), d⟩
  number : ∀ k ∈ keys, IsNumber now db k
  zset : IsZset now db expiry
  reservation_key : reservation ∉ keys
  expiry_key : expiry ∉ keys
  keys_ne : reservation ≠ expiry

section

variable (h : Open now reservation expiry estimate keys d db)

include h

theorem Open.runs_adjust (delta : ℚ) :
    Runs (adjust now reservation delta (List.range keys.length)) db ()
      (movedAll now delta keys db) := by
  have hke : (List.range keys.length).filterMap (openHash estimate keys).w = keys :=
    filterMap_getElem?_range keys
  have hr := Ledger.runs_adjust delta (List.range keys.length) db h.hash (by
    rw [hke]
    intro k hk
    exact ⟨h.number k hk, fun heq => h.reservation_key (heq ▸ hk)⟩)
  rwa [hke] at hr

theorem Open.live_movedAll (delta : ℚ) :
    live now (movedAll now delta keys db) reservation
      = some ⟨.hash (openHash estimate keys), d⟩ := by
  rw [live_congr (movedAll_other delta keys db reservation h.reservation_key), h.hash]

/-- Taking a member out of the expiry set does not disturb the reservation. -/
theorem Open.remaining (rid : String) :
    Open now reservation expiry estimate keys d
      (update db expiry (remaining now rid db expiry)) where
  hash := by rw [live_update_ne h.keys_ne, h.hash]
  number k hk := by
    have hne : k ≠ expiry := fun he => h.expiry_key (he ▸ hk)
    exact isNumber_congr (update_of_ne hne _ _) (h.number k hk)
  zset := isZset_remaining h.zset rid
  reservation_key := h.reservation_key
  expiry_key := h.expiry_key
  keys_ne := h.keys_ne

theorem runs_settleScript_open (rid : String) (delta : ℚ → ℚ) (status : Status) :
    Runs (settleScript now reservation expiry rid delta status) db true
      (closed now reservation expiry rid estimate (delta estimate) keys status d db) := by
  refine bind (runs_hget h.hash _) ?_
  show Runs (if (some Status.reserved : Option Status) ≠ some .reserved then _ else _) _ _ _
  rw [if_neg (by simp)]
  refine bind (runs_hget h.hash _) ?_
  refine bind (runs_hget h.hash _) ?_
  refine bind (h.runs_adjust (delta estimate)) ?_
  refine bind (runs_hset (h.live_movedAll _) _ _) ?_
  have he : ∀ e, update (movedAll now (delta estimate) keys db) reservation e expiry
      = db expiry := by
    intro e
    rw [update_of_ne h.keys_ne.symm, movedAll_other _ _ _ _ h.expiry_key]
  refine bind (runs_zrem ?_ rid) ?_
  · unfold IsZset
    rw [live_congr (he _)]
    exact h.zset
  · have hr : ∀ e, remaining now rid
        (update (movedAll now (delta estimate) keys db) reservation e) expiry
          = remaining now rid db expiry := by
      intro e
      unfold remaining
      rw [live_congr (he e), he e]
    rw [hr]
    exact runs_pure _ _

end

theorem runs_settleScript_shut (expiry rid : String) (delta : ℚ → ℚ) (status : Status)
    (h : live now db reservation = none ∨ ∃ fields e, live now db reservation
      = some ⟨.hash fields, e⟩ ∧ fields.status ≠ some .reserved) :
    Runs (settleScript now reservation expiry rid delta status) db false db := by
  rcases h with h | ⟨fields, e, h, hst⟩
  · refine bind (runs_hget_absent h _) ?_
    exact runs_pure _ _
  · refine bind (runs_hget h _) ?_
    rw [if_pos hst]
    exact runs_pure _ _

theorem runs_expireScript_open (h : Open now reservation expiry estimate keys d db)
    (rid : String) :
    Runs (expireScript now reservation expiry rid) db true
      (closed now reservation expiry rid estimate (-estimate) keys .expired d db) := by
  have ho := h.remaining rid
  refine bind (runs_zrem h.zset rid) ?_
  refine bind (runs_hget ho.hash _) ?_
  show Runs (if Status.reserved = .reserved then _ else _) _ _ _
  rw [if_pos rfl]
  refine bind (runs_hget ho.hash _) ?_
  refine bind (runs_hget ho.hash _) ?_
  refine bind (ho.runs_adjust (-estimate)) ?_
  refine bind (runs_hset (ho.live_movedAll _) _ _) ?_
  rw [movedAll_update _ _ _ _ h.expiry_key, update_comm h.keys_ne.symm]
  exact runs_pure _ _

end

end LiteAIG.Ledger
