/-
Whether a sweep gives abandoned budget back.

Every call keeps the counters at what the log says they owe, as long as no sweep
comes too late.  Too late is soon.  The script that opens a reservation gives its
hash and its place in the expiry order the same time to live, so the hash is gone
one millisecond after the reservation falls due, and a sweep that comes then has
nothing left to read the estimate from.
-/
import LiteAIG.Lib.Run
import LiteAIG.Proofs.Ledger.Books

namespace LiteAIG.Ledger

open Lib.Redis History List Hold

variable {r : RedisBudgetLedger} {s : History} {t : String}

/-! ### One call -/

theorem Kept.reserve (hk : Kept r s) {req : ReserveRequest} (hp : Proper s req)
    {result : Except LedgerError ReserveResult} {db : Db}
    (hr : r.reserve s.now req s.db = (result, db)) :
    Kept r ⟨db, if admitted result then s.log ++ [req.hold s.now] else s.log, s.now⟩ := by
  by_cases hre : req.reservationID = "" ∨ req.estimate < 0 ∨ req.windows = []
  · rw [RedisBudgetLedger.reserve, if_pos hre] at hr
    cases hr
    exact hk
  · by_cases hwi : req.windows.any BudgetWindow.invalid = true
    · rw [RedisBudgetLedger.reserve, if_neg hre, if_pos hwi] at hr
      cases hr
      exact hk
    · have hpl : ∀ w ∈ req.windows, PlainKey w.key := fun w hw =>
        hp.plain _ (mem_map_of_mem hw)
      have hf : live (unixMilli s.now) s.db
          (reservationKey req.tenantID req.reservationID) = none := by
        unfold live
        rw [hk.absent _ _ hp.clean hp.fresh]
        rfl
      rw [redis_reserve_eq hre hwi hpl (fun w hw => (hk.permanent _ (hpl w hw)).isNumber _)
        hf (hk.isZset hp.clean _)] at hr
      split at hr
      · cases hr
        exact hk
      · cases hr
        exact hk.open hp

/-- Expiring held reservations one after the other, while their hashes are there. -/
theorem Kept.expireIds (ht : CleanTenant t) : ∀ (ids : List String) (swept : Nat)
    {s : History}, Kept r s → ids.Nodup →
      (∀ id ∈ ids, ∃ h ∈ s.log, h.tenantID = t ∧ h.id = id ∧ h.state = .held ∧
        unixMilli s.now ≤ h.deadline r) →
      ∃ db, expireIds (unixMilli s.now) t ids swept s.db = ((swept + ids.length, none), db) ∧
        Kept r ⟨db, ids.foldl (fun log id => log.map (Hold.close t id .swept)) s.log, s.now⟩ := by
  intro ids
  induction ids with
  | nil => intro swept s hk _ _; exact ⟨s.db, rfl, hk⟩
  | cons id rest ih =>
    intro swept s hk hnd hall
    obtain ⟨h, hm, rfl, rfl, hh, hal⟩ := hall id mem_cons_self
    have ho := runs_expireScript_open (hk.opens hm hh hal) h.id
    have hn : Kept r (s.closed r h (-h.estimate) .expired .swept) :=
      hk.close hm hh hal (by decide) (by decide) (by simp [amount])
    rw [nodup_cons] at hnd
    obtain ⟨db, hr, hke⟩ := ih (swept + 1) hn hnd.2 (by
      -- the others are not the one just closed
      intro id hid
      obtain ⟨a, ha, hat, hai, hah, haa⟩ := hall id (mem_cons_of_mem _ hid)
      have hne : ¬ (a.tenantID = h.tenantID ∧ a.id = h.id) := fun hc =>
        hnd.1 (by rw [← hc.2, hai]; exact hid)
      exact ⟨a, mem_map.mpr ⟨a, ha, close_of_ne hne⟩, hat, hai, hah, haa⟩)
    refine ⟨db, ?_, hke⟩
    rw [Ledger.expireIds]
    rw [ho]
    show Ledger.expireIds _ _ rest (swept + 1) _ = _
    rw [show swept + (h.id :: rest).length = swept + 1 + rest.length by simp; omega]
    exact hr

/-- Closing reservations one after the other closes those that are named and held. -/
theorem foldl_close (t : String) : ∀ (ids : List String) (log : List Hold),
    ids.foldl (fun log id => log.map (Hold.close t id .swept)) log = log.map fun h =>
          if h.tenantID = t ∧ h.id ∈ ids ∧ h.state = .held then { h with state := .swept }
            else h := by
  intro ids
  induction ids with
  | nil => intro log; simp
  | cons id rest ih =>
    intro log
    rw [foldl_cons, ih, map_map]
    refine map_congr_left fun h _ => ?_
    by_cases hid : h.tenantID = t ∧ h.id = id ∧ h.state = .held
    · have hcl : h.close t id .swept = { h with state := .swept } := if_pos hid
      simp [hcl, hid]
    · have hcl : h.close t id .swept = h := if_neg hid
      simp only [Function.comp_apply, hcl, mem_cons]
      refine if_congr ?_ rfl rfl
      constructor
      · intro hc
        exact ⟨hc.1, Or.inr hc.2.1, hc.2.2⟩
      · intro hc
        exact ⟨hc.1, hc.2.1.resolve_left fun he => hid ⟨hc.1, he, hc.2.2⟩, hc.2.2⟩

/-- The reservations of a tenant that a sweep at this time is there for. -/
def History.dueNow (r : RedisBudgetLedger) (s : History) (t : String) : List Hold :=
  s.log.filter fun h => h.tenantID = t ∧ h.state = .held ∧ h.due r s.now

theorem History.mem_dueNow {h : Hold} :
    h ∈ s.dueNow r t ↔ h ∈ s.log ∧ h.tenantID = t ∧ h.state = .held ∧ h.due r s.now := by
  unfold dueNow
  rw [mem_filter, decide_eq_true_eq]

section

variable (hk : Kept r s) (ht : CleanTenant t)
include hk ht

/-- The members of the set with a score that has come are held and due. -/
theorem Kept.due_member {m : String × Int}
    (hm : m ∈ (membersAt (unixMilli s.now) s.db (expiryKey t)).filter (·.2 ≤ unixMilli s.now)) :
    ∃ h ∈ s.dueNow r t, h.id = m.1 := by
  obtain ⟨hme, hs⟩ := mem_filter.mp hm
  obtain ⟨h, hh, hht, hid, hhe, hms⟩ := hk.member ht hme
  refine ⟨h, mem_dueNow.mpr ⟨hh, hht, hhe, ?_⟩, hid⟩
  rw [hms, decide_eq_true_eq] at hs
  exact hs

theorem Kept.sweepBatches_idle (hi : s.dueNow r t = []) (limit : Nat) : ∀ rounds swept,
    (sweepBatches (unixMilli s.now) t limit rounds swept s.db).2 = s.db := by
  intro rounds swept
  cases rounds with
  | zero => rfl
  | succ rounds =>
    rw [sweepBatches]
    by_cases hl : swept < limit
    · obtain ⟨sorted, hp, hr⟩ := runs_zrangeByScore (hk.isZset ht (unixMilli s.now))
        (fun a b => decide (a ≤ b)) (unixMilli s.now) (limit - swept)
      have hn : sorted = [] := by
        rw [eq_nil_iff_forall_not_mem]
        intro m hm
        obtain ⟨h, hh, -⟩ := hk.due_member ht (hp.mem_iff.mp hm)
        rw [hi] at hh
        simp at hh
      rw [hn, take_nil, map_nil] at hr
      rw [if_pos hl, hr]
      rfl
    · rw [if_neg hl]

/-- One batch that is large enough lists what is due: every due reservation is in the set,
since its hash is still there. -/
theorem Kept.listing {limit : Nat}
    (hli : (s.dueNow r t).length ≤ limit)
    (hti : ∀ h ∈ s.dueNow r t, unixMilli s.now ≤ h.deadline r) :
    ∃ ids, Runs (zrangeByScore (unixMilli s.now) (fun a b => decide (a ≤ b)) (expiryKey t)
        (unixMilli s.now) limit) s.db ids s.db ∧
      ids.Nodup ∧ ids.length ≤ limit ∧ ∀ id, id ∈ ids ↔ ∃ h ∈ s.dueNow r t, h.id = id := by
  obtain ⟨sorted, hp, hr⟩ := runs_zrangeByScore (hk.isZset ht (unixMilli s.now))
    (fun a b => decide (a ≤ b)) (unixMilli s.now) limit
  have hnd : (sorted.map Prod.fst).Nodup :=
    (hp.map Prod.fst).nodup_iff.mpr ((hk.members_nodup ht _).sublist (filter_sublist.map _))
  have hme : ∀ id, id ∈ sorted.map Prod.fst ↔ ∃ h ∈ s.dueNow r t, h.id = id := by
    intro id
    constructor
    · intro hid
      obtain ⟨m, hm, rfl⟩ := mem_map.mp hid
      exact hk.due_member ht (hp.mem_iff.mp hm)
    · rintro ⟨h, hh, rfl⟩
      obtain ⟨hlo, rfl, hhe, hd⟩ := mem_dueNow.mp hh
      have hl := hk.listed h hlo hhe (hti h hh)
      have hin : (h.id, unixMilli (h.madeAt + r.reservationTTL)) ∈ sorted :=
        hp.mem_iff.mpr (mem_filter.mpr ⟨hl, decide_eq_true hd⟩)
      exact mem_map.mpr ⟨_, hin, rfl⟩
  have hlen : sorted.length ≤ limit := by
    have hs : sorted.map Prod.fst ⊆ (s.dueNow r t).map Hold.id := fun id hid =>
      mem_map.mpr ((hme id).mp hid)
    have hle := (hnd.subperm hs).length_le
    rw [length_map, length_map] at hle
    exact hle.trans hli
  rw [take_of_length_le hlen] at hr
  exact ⟨_, hr, hnd, (length_map Prod.fst).trans_le hlen, hme⟩

end

/-- Closing what is listed is what a sweep does to the log. -/
theorem Kept.close_due (hk : Kept r s) {ids : List String}
    (hi : ∀ id, id ∈ ids ↔ ∃ h ∈ s.dueNow r t, h.id = id) :
    ids.foldl (fun log id => log.map (Hold.close t id .swept)) s.log
      = s.log.map (Hold.sweep r s.now t) := by
  rw [foldl_close]
  refine map_congr_left fun h hh => ?_
  unfold Hold.sweep
  refine if_congr ?_ rfl rfl
  constructor
  · intro hc
    obtain ⟨a, ha, hai⟩ := (hi h.id).mp hc.2.1
    obtain ⟨hal, hat, -, had⟩ := mem_dueNow.mp ha
    have hah : a = h := hk.distinct.eq hal hh (hat.trans hc.1.symm) hai
    exact ⟨hc.1, hc.2.2, hah ▸ had⟩
  · intro hc
    exact ⟨hc.1, (hi h.id).mpr ⟨h, mem_dueNow.mpr ⟨hh, hc⟩, rfl⟩, hc.2.1⟩

/-- What a sweep was there for is no longer held. -/
theorem not_held_of_sweep {t : Int} {tid : String} {log : List Hold} {h : Hold}
    (hh : h ∈ log.map (Hold.sweep r t tid)) (hht : h.tenantID = tid) (hd : h.due r t) :
    h.state ≠ .held := by
  intro hhe
  obtain ⟨a, -, rfl⟩ := mem_map.mp hh
  unfold Hold.sweep at hht hd hhe
  split at hhe
  · simp at hhe
  · rename_i hno
    rw [if_neg hno] at hht hd
    exact hno ⟨hht, hhe, hd⟩

/-- **A sweep in time keeps the books**: what is due is closed, and nothing else. -/
theorem Kept.sweep (hk : Kept r s) (ht : CleanTenant t) {limit : Nat}
    (hl : (s.dueNow r t).length ≤ limit)
    (hti : ∀ h ∈ s.dueNow r t, unixMilli s.now ≤ h.deadline r) :
    Kept r ⟨(sweepBatches (unixMilli s.now) t limit limit 0 s.db).2,
      s.log.map (Hold.sweep r s.now t), s.now⟩ := by
  obtain ⟨ids, hr, hnd, hle, hi⟩ := hk.listing ht hl hti
  obtain ⟨db, he, hke⟩ := hk.expireIds ht ids 0 hnd (by
    intro id hid
    obtain ⟨h, hh, rfl⟩ := (hi id).mp hid
    obtain ⟨hhl, hht, hhe, -⟩ := mem_dueNow.mp hh
    exact ⟨h, hhl, hht, rfl, hhe, hti h hh⟩)
  rw [hk.close_due hi] at hke
  have hdo : (⟨db, s.log.map (Hold.sweep r s.now t), s.now⟩ : History).dueNow r t = [] := by
    rw [eq_nil_iff_forall_not_mem]
    intro h hh
    obtain ⟨hm, hht, hhe, hd⟩ := mem_dueNow.mp hh
    exact not_held_of_sweep hm hht hd hhe
  have hdb : (sweepBatches (unixMilli s.now) t limit limit 0 s.db).2 = db := by
    cases limit with
    | zero =>
      have hn : ids = [] := length_eq_zero_iff.mp (Nat.le_zero.mp hle)
      rw [hn] at he
      exact congrArg Prod.snd he
    | succ n =>
      rw [sweepBatches, if_pos (Nat.succ_pos n), Nat.sub_zero, hr]
      show (if ids = [] then _ else _ : (Nat × Option LedgerError) × Db).2 = db
      by_cases hn : ids = []
      · rw [if_pos hn]
        rw [hn] at he
        exact congrArg Prod.snd he
      · rw [if_neg hn, he]
        show (if ids.length < n + 1 - (0 + ids.length) then _ else _ :
          (Nat × Option LedgerError) × Db).2 = db
        split
        · rfl
        · exact hke.sweepBatches_idle ht hdo _ _ _
  rw [hdb]
  exact hke

/-! ### Whole histories -/

/-- Every call keeps the books, a sweep if it comes in time. -/
theorem Kept.step (hk : Kept r s) {e : Event} (hr : Regular r s e) (ht : InTime r s e) :
    Kept r (s.step r e) := by
  obtain ⟨t, call⟩ := e
  obtain ⟨hn, hc, hca⟩ := hr
  have hk' := hk.tick hn
  cases call with
  | reserve req =>
    have hp : Proper { s with now := t } req :=
      ⟨hc, hca.1, fun k hke => by
        obtain ⟨w, hw, rfl⟩ := mem_map.mp hke
        exact (hca.2 w hw).1, fun w hw => (hca.2 w hw).2⟩
    exact hk'.reserve hp rfl
  | reconcile tid id actual =>
    exact hk'.settle hc (by decide) (by simp) (fun h => rfl) rfl
  | release tid id =>
    exact hk'.settle hc (by decide) (by simp) (fun h => by simp [amount]) rfl
  | sweep tid limit =>
    refine hk'.sweep hc hca fun h hh => ?_
    obtain ⟨hl, hht, hhe, hd⟩ := mem_dueNow.mp hh
    exact ht h hl hht hhe hd

/-- The books are in order after every history whose sweeps come in time. -/
theorem kept_run (start : Int) (evs : List Event)
    (h : Lib.Allowed (step r) (fun s e => Regular r s e ∧ InTime r s e) (empty start) evs) :
    Kept r (Lib.run (step r) (empty start) evs) :=
  Lib.Allowed.invariant (fun _ _ hk hok => hk.step hok.1 hok.2) evs _ (kept_empty start) h

/-- What a sweep takes off a window. -/
theorem owed_sweep (t : Int) (tid key : String) : ∀ log : List Hold,
    owed (log.map (Hold.sweep r t tid)) key
      = owed log key - ((log.filter fun h => h.tenantID = tid ∧ h.state = .held ∧ h.due r t).map
          fun h => (h.windows.count key : ℚ) * h.estimate).sum := by
  intro log
  induction log with
  | nil => simp [owed]
  | cons h log ih =>
    have hc : ∀ (a : Hold) (l : List Hold),
        owed (a :: l) key = a.windows.count key * a.amount + owed l key := fun a l => by
      simp [owed]
    rw [map_cons, hc, hc, ih]
    by_cases hd : h.tenantID = tid ∧ h.state = .held ∧ h.due r t
    · have hs : h.sweep r t tid = { h with state := .swept } := if_pos hd
      rw [filter_cons_of_pos (by simpa using hd), hs]
      simp only [map_cons, sum_cons, amount, hd.2.1]
      ring
    · have hs : h.sweep r t tid = h := if_neg hd
      rw [filter_cons_of_neg (by simpa using hd), hs]
      ring

/--
**A sweep that comes in time gives back what is due.**
Take any history whose sweeps all come before the hashes of the reservations they
find due are gone, ending in a sweep of one tenant at `t`.  Every window is then
down by the estimates of the tenant's reservations that were held and due, every
reservation made at least the time to live before `t` is among those, and none of
them is held any longer, so no later sweep takes them off again.
-/
theorem sweep_recovers (r : RedisBudgetLedger) (start : Int) (before : List Event) (t : Int)
    (tenantID : String) (limit : Int)
    (hrun : Lib.Allowed (History.step r) (fun s e => Regular r s e ∧ InTime r s e)
      (History.empty start) (before ++ [⟨t, .sweep tenantID limit⟩])) :
    let s := Lib.run (History.step r) (History.empty start) before
    let s' := s.step r ⟨t, .sweep tenantID limit⟩
    (∀ key, PlainKey key → counter (unixMilli s'.now) s'.db key = counter (unixMilli s.now) s.db key
        - ((s.log.filter fun h => h.tenantID = tenantID ∧ h.state = .held ∧ h.due r t).map
            fun h => (h.windows.count key : ℚ) * h.estimate).sum) ∧
      (∀ h ∈ s.log, h.madeAt + r.reservationTTL ≤ t → h.due r t) ∧
      ∀ h ∈ s'.log, h.tenantID = tenantID → h.due r t → h.state ≠ .held := by
  obtain ⟨hb, hok, -⟩ := (Lib.allowed_append before _ _).mp hrun
  have hk := kept_run start before hb
  have hk' := hk.step hok.1 hok.2
  intro s s'
  refine ⟨?_, fun h _ hle => Hold.due_of_le hle, ?_⟩
  · intro key hp
    rw [hk'.counters key hp, hk.counters key hp]
    exact owed_sweep t tenantID key _
  · exact fun h hh hht hd => not_held_of_sweep hh hht hd

/-- One second to live. -/
def secondLedger : RedisBudgetLedger := ⟨1000000000, by decide⟩

/-- A reservation of 40 that nobody settles. -/
def abandoned : Event :=
  ⟨0, .reserve ⟨"t", "abandoned", 40, [⟨"\x7btenant:t\x7d:tenant:1d", 100, 0⟩]⟩⟩

/-- A second after it fell due nothing of the reservation is left to sweep: the history is
regular, the reservation is held and due, and the window still counts its 40. -/
theorem sweep_after_expiry_recovers_nothing :
    let s := Lib.run (History.step secondLedger) (History.empty 0) [abandoned]
    let late : Event := ⟨2000000000, .sweep "t" 100⟩
    Lib.Allowed (History.step secondLedger) (Regular secondLedger) (History.empty 0)
        [abandoned, late] ∧
      (∃ h ∈ s.log, h.state = .held ∧ h.madeAt + secondLedger.reservationTTL ≤ 2000000000) ∧
      counter (unixMilli s.now) s.db "\x7btenant:t\x7d:tenant:1d" = 40 ∧
      counter (unixMilli (s.step secondLedger late).now) (s.step secondLedger late).db
        "\x7btenant:t\x7d:tenant:1d" = 40 := by
  decide +kernel

/-- A sweep in the very millisecond the reservation falls due brings the window back to 0. -/
theorem sweep_on_time_recovers :
    let s := Lib.run (History.step secondLedger) (History.empty 0) [abandoned]
    counter 1000 (s.step secondLedger ⟨1000000000, .sweep "t" 100⟩).db
      "\x7btenant:t\x7d:tenant:1d" = 0 := by
  intro s
  have h := (sweep_recovers secondLedger 0 [abandoned] 1000000000 "t" 100 (by decide +kernel)).1
    "\x7btenant:t\x7d:tenant:1d" (by decide +kernel)
  exact h.trans (by decide +kernel)

/-- **As long as no sweep comes late, a window counts what its reservations take up.** -/
theorem counters_balanced (r : RedisBudgetLedger) (start : Int) (evs : List Event)
    (h : Lib.Allowed (History.step r) (fun s e => Regular r s e ∧ InTime r s e)
      (History.empty start) evs) {key : String} (hp : PlainKey key) :
    let s := Lib.run (History.step r) (History.empty start) evs
    counter (unixMilli s.now) s.db key = owed s.log key :=
  (kept_run start evs h).counters key hp

theorem abandoned_balanced :
    let s := Lib.run (History.step secondLedger) (History.empty 0) [abandoned]
    counter (unixMilli s.now) s.db "\x7btenant:t\x7d:tenant:1d"
      = owed s.log "\x7btenant:t\x7d:tenant:1d" :=
  counters_balanced secondLedger 0 [abandoned] (by decide +kernel) (by decide +kernel)

end LiteAIG.Ledger
