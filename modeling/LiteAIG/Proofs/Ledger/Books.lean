/-
Opening and closing a reservation keeps the books.

The two ways a ledger call changes the keyspace are an admitted reservation and
a reservation that is closed, by a settlement or by an expiry.  Each is shown once
to keep every part of `Kept`; the calls themselves are then a matter of which of
the two they come to.
-/
import LiteAIG.Proofs.Ledger.Holds

namespace LiteAIG.Ledger

open Lib.Redis List Hold

variable {r : RedisBudgetLedger} {s : History}

/-! ### Closing a reservation -/

/-- A held reservation whose hash is still there is open to a settlement. -/
theorem Kept.opens (hk : Kept r s) {h : Hold} (hm : h ∈ s.log) (hh : h.state = .held)
    (ha : unixMilli s.now ≤ h.deadline r) :
    Open (unixMilli s.now) (reservationKey h.tenantID h.id) (expiryKey h.tenantID) h.estimate
      h.windows (some (h.deadline r)) s.db where
  hash := by
    obtain ⟨status, hdb, hst⟩ := hk.hash h hm
    rw [hst.mpr hh] at hdb
    exact live_eq_some.mpr ⟨hdb, by simpa [Entry.alive] using ha⟩
  number k hke := (hk.permanent k ((hk.clean h hm).2 k hke)).isNumber _
  zset := hk.isZset (hk.clean h hm).1 _
  reservation_key hc := ne_reservationKey_of_plain ((hk.clean h hm).2 _ hc) rfl
  expiry_key hc := ne_expiryKey_of_plain ((hk.clean h hm).2 _ hc) _ rfl
  keys_ne := reservationKey_ne_expiryKey (hk.clean h hm).1 (hk.clean h hm).1

theorem Permanent.congr {db db' : Db} {key : String} (h : db key = db' key)
    (hp : Permanent db' key) : Permanent db key := by
  unfold Permanent
  rwa [h]

@[simp] theorem Hold.close_deadline (t i : String) (st : HoldState) (h : Hold) :
    (h.close t i st).deadline r = h.deadline r := by
  unfold deadline
  rw [close_madeAt]

/-- Members that do not name the closed reservation go on naming what is held. -/
theorem ExpirySet.close {log : List Hold} {t t' id : String} {ms ms' : List (String × Int)}
    {d : Int} (h : ExpirySet r log t' ms d) (hsu : ms'.Sublist ms)
    (ho : ∀ m ∈ ms', ¬ (t' = t ∧ m.1 = id)) (state : HoldState) :
    ExpirySet r (log.map (Hold.close t id state)) t' ms' d where
  nodup := h.nodup.sublist (hsu.map _)
  held m hm := by
    obtain ⟨a, ha, hat, hai, hst, hs⟩ := h.held m (hsu.subset hm)
    have hsa : a.close t id state = a :=
      close_of_ne fun hc => ho m hm ⟨hat.symm.trans hc.1, hai.symm.trans hc.2⟩
    exact ⟨a, mem_map.mpr ⟨a, ha, hsa⟩, hat, hai, hst, hs⟩
  lasts a' ha' ht := by
    obtain ⟨a, ha, rfl⟩ := mem_map.mp ha'
    rw [close_tenantID] at ht
    rw [close_deadline]
    exact h.lasts a ha ht

section

variable {h : Hold} {status : Status} {delta : ℚ} {state : HoldState}

/-- The history after a held reservation was closed. -/
def History.closed (r : RedisBudgetLedger) (s : History) (h : Hold) (delta : ℚ) (status : Status)
    (state : HoldState) : History :=
  ⟨Ledger.closed (unixMilli s.now) (reservationKey h.tenantID h.id) (expiryKey h.tenantID) h.id
      h.estimate delta h.windows status (some (h.deadline r)) s.db,
    s.log.map (Hold.close h.tenantID h.id state), s.now⟩

variable {key t : String}

/-- Away from its own two keys and its windows nothing changes. -/
theorem History.closed_elsewhere (hr : key ≠ reservationKey h.tenantID h.id)
    (he : key ≠ expiryKey h.tenantID) (hw : key ∉ h.windows) :
    (s.closed r h delta status state).db key = s.db key := by
  show Ledger.closed _ _ _ _ _ _ _ _ _ _ key = _
  rw [closed_other hr he, movedAll_other _ _ _ _ hw]

/-- Nor at another reservation's key. -/
theorem Kept.closed_reservation (hk : Kept r s) (hm : h ∈ s.log) {id : String}
    (ht : CleanTenant t) (hne : ¬ (t = h.tenantID ∧ id = h.id)) :
    (s.closed r h delta status state).db (reservationKey t id) = s.db (reservationKey t id) := by
  have hcl := hk.clean h hm
  exact History.closed_elsewhere (fun hc => hne (reservationKey_inj ht hcl.1 hc))
    (reservationKey_ne_expiryKey ht hcl.1)
    (fun hc => ne_reservationKey_of_plain (hcl.2 _ hc) rfl)

/-- Nor at another tenant's expiry set. -/
theorem Kept.closed_expiry (hk : Kept r s) (hm : h ∈ s.log) (ht : CleanTenant t)
    (hne : t ≠ h.tenantID) :
    (s.closed r h delta status state).db (expiryKey t) = s.db (expiryKey t) := by
  have hcl := hk.clean h hm
  exact History.closed_elsewhere (reservationKey_ne_expiryKey hcl.1 ht).symm
    (fun hc => hne (expiryKey_inj ht hcl.1 hc))
    (fun hc => ne_expiryKey_of_plain (hcl.2 _ hc) t rfl)

/-- A plain key sees the settlement as counters that move. -/
theorem History.closed_plain (hp : PlainKey key) :
    (s.closed r h delta status state).db key =
      movedAll (unixMilli s.now) delta h.windows s.db key :=
  closed_other (ne_reservationKey_of_plain hp) (ne_expiryKey_of_plain hp _)

theorem Kept.close_expiry (hk : Kept r s) (hme : h ∈ s.log)
    (ha : unixMilli s.now ≤ h.deadline r) (ht : CleanTenant t) :
    (s.closed r h delta status state).db (expiryKey t) = none ∨
      ∃ ms d, (s.closed r h delta status state).db (expiryKey t) = some ⟨.zset ms, some d⟩ ∧
        ExpirySet r (s.closed r h delta status state).log t ms d := by
  by_cases hth : t = h.tenantID
  · subst hth
    have hdb : (s.closed r h delta status state).db (expiryKey h.tenantID)
        = remaining (unixMilli s.now) h.id s.db (expiryKey h.tenantID) :=
      Ledger.closed_expiry
    rw [hdb]
    unfold remaining
    rcases hk.expiry h.tenantID ht with hn | ⟨ms, d, hset, he⟩
    · exact .inl (by unfold live; rw [hn]; rfl)
    · -- the set outlives the hash, so it is there
      have hl : live (unixMilli s.now) s.db (expiryKey h.tenantID) = some ⟨.zset ms, some d⟩ :=
        live_eq_some.mpr ⟨hset, by
          simpa [Entry.alive] using ha.trans (he.lasts h hme rfl)⟩
      rw [hl]
      by_cases hr : ms.filter (·.1 ≠ h.id) = []
      · exact .inl (if_pos hr)
      · refine .inr ⟨_, d, if_neg hr, he.close filter_sublist ?_ state⟩
        intro m hm hc
        simpa [hc.2] using (mem_filter.mp hm).2
  · rw [hk.closed_expiry hme ht hth]
    rcases hk.expiry t ht with hn | ⟨ms, d, hset, he⟩
    · exact .inl hn
    · exact .inr ⟨ms, d, hset, he.close (List.Sublist.refl ms) (fun _ _ hc => hth hc.1) state⟩

theorem Kept.close_listed (hk : Kept r s) (hm : h ∈ s.log) {a : Hold} (ha : a ∈ s.log)
    (hne : a ≠ h) (hh : a.state = .held) (hal : unixMilli s.now ≤ a.deadline r) :
    (a.id, unixMilli (a.madeAt + r.reservationTTL))
      ∈ membersAt (unixMilli s.now) (s.closed r h delta status state).db
          (expiryKey a.tenantID) := by
  have hcl := (hk.clean a ha).1
  have hold := hk.listed a ha hh hal
  by_cases hth : a.tenantID = h.tenantID
  · have hid : a.id ≠ h.id := fun hc => hne (hk.distinct.eq ha hm hth hc)
    have hz := hk.isZset hcl (unixMilli s.now)
    have hdb : (s.closed r h delta status state).db (expiryKey a.tenantID)
        = Function.update s.db (expiryKey a.tenantID)
            (remaining (unixMilli s.now) h.id s.db (expiryKey a.tenantID))
            (expiryKey a.tenantID) := by
      rw [Function.update_self, hth]
      exact Ledger.closed_expiry
    unfold membersAt at hold ⊢
    rw [live_congr hdb]
    have hr := membersAt_remaining hz h.id
    unfold membersAt at hr
    rw [hr]
    exact mem_filter.mpr ⟨hold, by simpa using hid⟩
  · unfold membersAt at hold ⊢
    rwa [live_congr (hk.closed_expiry hm hcl hth)]

/-- **Closing a held reservation keeps the books**, if its counters moved by the change. -/
theorem Kept.close (hk : Kept r s) (hm : h ∈ s.log) (hh : h.state = .held)
    (hali : unixMilli s.now ≤ h.deadline r) (hsta : status ≠ .reserved)
    (hs : state ≠ .held) (hd : delta = ({ h with state } : Hold).amount - h.estimate) :
    Kept r (s.closed r h delta status state) := by
  have hse : h.close h.tenantID h.id state = { h with state } := if_pos ⟨rfl, rfl, hh⟩
  have ho : ∀ a ∈ s.log, a ≠ h → a.close h.tenantID h.id state = a := fun a ha hne =>
    close_of_ne fun hc => hne (hk.distinct.eq ha hm hc.1 hc.2)
  constructor
  case clean =>
    intro a' ha'
    obtain ⟨a, ha, rfl⟩ := mem_map.mp ha'
    simpa using hk.clean a ha
  case distinct => exact hk.distinct.close _ _ _
  case past =>
    intro a' ha'
    obtain ⟨a, ha, rfl⟩ := mem_map.mp ha'
    rw [close_madeAt]
    exact hk.past a ha
  case permanent =>
    intro k hp
    exact ((hk.permanent k hp).movedAll _ _ _ _).congr (History.closed_plain hp)
  case counters =>
    intro k hp
    have hpl : (s.closed r h delta status state).db k
        = movedAll (unixMilli s.now) delta h.windows s.db k := History.closed_plain hp
    calc counter (unixMilli s.now) (s.closed r h delta status state).db k
        = counter (unixMilli s.now) (movedAll (unixMilli s.now) delta h.windows s.db) k := by
          unfold counter
          rw [numberAt_congr hpl]
      _ = owed s.log k + h.windows.count k * delta := by
          rw [counter_movedAll, hk.counters k hp]
      _ = owed (s.log.map (Hold.close h.tenantID h.id state)) k := by
          rw [owed_close hk.distinct hm hh, hd]
  case hash =>
    intro a' ha'
    obtain ⟨a, ha, rfl⟩ := mem_map.mp ha'
    by_cases hah : a = h
    · subst hah
      rw [hse]
      exact ⟨status, Ledger.closed_reservation
        (reservationKey_ne_expiryKey (hk.clean a ha).1 (hk.clean a ha).1), iff_of_false hsta hs⟩
    · rw [ho a ha hah, hk.closed_reservation hm (hk.clean a ha).1
        fun hc => hah (hk.distinct.eq ha hm hc.1 hc.2)]
      exact hk.hash a ha
  case absent =>
    intro t id ht hn
    have hl : ∀ a ∈ s.log, ¬ (a.tenantID = t ∧ a.id = id) := by
      intro a ha
      simpa using hn _ (mem_map_of_mem ha)
    rw [hk.closed_reservation hm ht fun hc => hl h hm ⟨hc.1.symm, hc.2.symm⟩]
    exact hk.absent t id ht hl
  case expiry => exact fun t ht => hk.close_expiry hm hali ht
  case listed =>
    intro a' ha' hst hal
    obtain ⟨a, ha, rfl⟩ := mem_map.mp ha'
    by_cases hah : a = h
    · subst hah
      rw [hse] at hst
      exact absurd hst hs
    · rw [ho a ha hah] at hst hal ⊢
      exact hk.close_listed hm ha hah hst hal

end

/-- A settlement keeps the books, whether or not there was something open to settle. -/
theorem Kept.settle (hk : Kept r s) {t id : String} (ht : CleanTenant t) {delta : ℚ → ℚ}
    {status : Status} (hsta : status ≠ .reserved) {state : HoldState} (hstat : state ≠ .held)
    (hd : ∀ h : Hold, delta h.estimate = ({ h with state } : Hold).amount - h.estimate)
    {result : Except Error Bool} {db : Db}
    (hr : settleScript (unixMilli s.now) (reservationKey t id) (expiryKey t) id delta status s.db
      = (result, db)) :
    Kept r ⟨db, if (settled result).isOk then s.log.map (Hold.close t id state) else s.log,
      s.now⟩ := by
  -- a reservation that is gone or closed is answered with nothing to settle
  have hs : (live (unixMilli s.now) s.db (reservationKey t id) = none ∨
      ∃ fields e, live (unixMilli s.now) s.db (reservationKey t id) = some ⟨.hash fields, e⟩ ∧
        fields.status ≠ some .reserved) →
      Kept r ⟨db, if (settled result).isOk then s.log.map (Hold.close t id state) else s.log,
        s.now⟩ := by
    intro h
    have ho := runs_settleScript_shut (expiryKey t) id delta status h
    unfold Runs at ho
    rw [hr] at ho
    cases ho
    exact hk
  by_cases hex : ∃ h ∈ s.log, h.tenantID = t ∧ h.id = id
  · obtain ⟨h, hm, rfl, rfl⟩ := hex
    obtain ⟨st, hdb, hst⟩ := hk.hash h hm
    by_cases ha : unixMilli s.now ≤ h.deadline r
    · by_cases hh : h.state = .held
      · have ho := runs_settleScript_open (hk.opens hm hh ha) h.id delta status
        unfold Runs at ho
        rw [hr] at ho
        cases ho
        exact hk.close hm hh ha hsta hstat (hd h)
      · refine hs (.inr ⟨_, _, live_eq_some.mpr ⟨hdb, ?_⟩, ?_⟩)
        · simpa [Entry.alive] using ha
        · intro hc
          exact hh (hst.mp (Option.some.inj hc))
    · refine hs (.inl ?_)
      unfold live
      rw [hdb, Option.filter_some, if_neg (by simpa [Entry.alive] using ha)]
  · refine hs (.inl ?_)
    unfold live
    rw [hk.absent t id ht fun h hm hc => hex ⟨h, hm, hc⟩]
    rfl

/-! ### Opening a reservation -/

section

variable {req : ReserveRequest}

/-- The hold of a reservation admitted at `t`. -/
def ReserveRequest.hold (req : ReserveRequest) (t : Int) : Hold :=
  ⟨req.tenantID, req.reservationID, req.estimate, req.windows.map BudgetWindow.key, t, .held⟩

/-- The history after a request was admitted. -/
def History.opened (r : RedisBudgetLedger) (s : History) (req : ReserveRequest) : History :=
  ⟨Ledger.opened (unixMilli s.now) (reservationKey req.tenantID req.reservationID)
      (expiryKey req.tenantID) req.reservationID req.estimate
      (unixMilli (s.now + r.reservationTTL)) (milliseconds r.reservationTTL) req.windows s.db,
    s.log ++ [req.hold s.now], s.now⟩

/-- What a request must be for the books to stay in order. -/
structure Proper (s : History) (req : ReserveRequest) : Prop where
  clean : CleanTenant req.tenantID
  fresh : ∀ h ∈ s.log, ¬ (h.tenantID = req.tenantID ∧ h.id = req.reservationID)
  plain : ∀ k ∈ req.windows.map BudgetWindow.key, PlainKey k
  lasting : ∀ w ∈ req.windows, milliseconds w.ttl ≤ 0

theorem Proper.opened_reservation (hp : Proper s req) {t id : String} (ht : CleanTenant t)
    (hne : ¬ (t = req.tenantID ∧ id = req.reservationID)) :
    (s.opened r req).db (reservationKey t id) = s.db (reservationKey t id) := by
  show Ledger.opened _ _ _ _ _ _ _ _ _ _ = _
  rw [opened_other (fun hc => hne (reservationKey_inj ht hp.clean hc))
      (reservationKey_ne_expiryKey ht hp.clean),
    charged_other _ _ _ _ fun hc => ne_reservationKey_of_plain (hp.plain _ hc) rfl]

theorem Proper.opened_expiry (hp : Proper s req) {t : String} (ht : CleanTenant t)
    (hne : t ≠ req.tenantID) : (s.opened r req).db (expiryKey t) = s.db (expiryKey t) := by
  show Ledger.opened _ _ _ _ _ _ _ _ _ _ = _
  rw [opened_other (reservationKey_ne_expiryKey hp.clean ht).symm
      (fun hc => hne (expiryKey_inj ht hp.clean hc)),
    charged_other _ _ _ _ fun hc => ne_expiryKey_of_plain (hp.plain _ hc) t rfl]

theorem Kept.members_nodup (hk : Kept r s) {t : String} (ht : CleanTenant t) (now : Int) :
    ((membersAt now s.db (expiryKey t)).map Prod.fst).Nodup := by
  unfold membersAt live
  rcases hk.expiry t ht with h | ⟨ms, d, h, hset⟩
  · rw [h]
    exact nodup_nil
  · rw [h, Option.filter_some]
    split
    · rename_i heq
      split at heq
      · cases heq
        exact hset.nodup
      · simp at heq
    · exact nodup_nil

section

variable (hk : Kept r s) (hp : Proper s req)
include hk hp

/-- The tenant's expiry set with the new reservation in it. -/
theorem Kept.open_expirySet :
    ExpirySet r (s.log ++ [req.hold s.now]) req.tenantID
      (addMember (membersAt (unixMilli s.now) s.db (expiryKey req.tenantID))
        (unixMilli (s.now + r.reservationTTL)) req.reservationID)
      (unixMilli s.now + milliseconds r.reservationTTL) where
  nodup := by
    have hnd : ((membersAt (unixMilli s.now) s.db (expiryKey req.tenantID)).map Prod.fst).Nodup :=
      hk.members_nodup hp.clean _
    unfold addMember
    rw [map_append, nodup_append]
    refine ⟨hnd.sublist (filter_sublist.map _), by simp, ?_⟩
    intro a ha b hb
    obtain ⟨m, hm, rfl⟩ := mem_map.mp ha
    rw [mem_singleton.mp hb]
    simpa using (mem_filter.mp hm).2
  held m hm := by
    rcases mem_append.mp hm with hm | hm
    · obtain ⟨h, hh, hr⟩ := hk.member hp.clean (mem_filter.mp hm).1
      exact ⟨h, mem_append_left _ hh, hr⟩
    · rw [mem_singleton.mp hm]
      exact ⟨req.hold s.now, by simp, rfl, rfl, rfl, rfl⟩
  lasts h hh ht := by
    rcases mem_append.mp hh with hh | hh
    · have := unixMilli_mono (hk.past h hh)
      unfold deadline
      omega
    · rw [mem_singleton.mp hh]
      exact le_refl _

theorem Kept.open_listed {h : Hold} (hme : h ∈ s.log ++ [req.hold s.now]) (hh : h.state = .held)
    (ha : unixMilli s.now ≤ h.deadline r) :
    (h.id, unixMilli (h.madeAt + r.reservationTTL))
      ∈ membersAt (unixMilli s.now) (s.opened r req).db (expiryKey h.tenantID) := by
  have hset : membersAt (unixMilli s.now) (s.opened r req).db (expiryKey req.tenantID)
      = addMember (membersAt (unixMilli s.now) s.db (expiryKey req.tenantID))
          (unixMilli (s.now + r.reservationTTL)) req.reservationID := by
    have hnn := milliseconds_nonneg r
    have hl : live (unixMilli s.now) (s.opened r req).db (expiryKey req.tenantID) = _ :=
      live_eq_some.mpr ⟨Ledger.opened_expiry, by simpa [Entry.alive] using hnn⟩
    unfold membersAt
    rw [hl]
    rfl
  rcases mem_append.mp hme with hold | hn
  · have hm := hk.listed h hold hh ha
    by_cases ht : h.tenantID = req.tenantID
    · rw [ht] at hm ⊢
      rw [hset]
      refine mem_append_left _ (mem_filter.mpr ⟨hm, ?_⟩)
      simpa using fun hc => hp.fresh h hold ⟨ht, hc⟩
    · unfold membersAt at hm ⊢
      rwa [live_congr (hp.opened_expiry (hk.clean h hold).1 ht)]
  · rw [mem_singleton.mp hn]
    show _ ∈ membersAt _ _ (expiryKey req.tenantID)
    rw [hset]
    exact mem_append_right _ (mem_singleton_self _)

/-- **Admitting a proper request keeps the books.** -/
theorem Kept.open : Kept r (s.opened r req) := by
  have hpl : ∀ k, PlainKey k → (s.opened r req).db k
      = charged (unixMilli s.now) req.estimate req.windows s.db k := fun k hk' =>
    opened_other (ne_reservationKey_of_plain hk') (ne_expiryKey_of_plain hk' _)
  constructor
  case clean =>
    intro h hh
    rcases mem_append.mp hh with hh | hh
    · exact hk.clean h hh
    · rw [mem_singleton.mp hh]
      exact ⟨hp.clean, hp.plain⟩
  case distinct =>
    refine pairwise_append.mpr ⟨hk.distinct, pairwise_singleton _ _, ?_⟩
    intro h hh h' hh'
    rw [mem_singleton.mp hh']
    exact hp.fresh h hh
  case past =>
    intro h hh
    rcases mem_append.mp hh with hh | hh
    · exact hk.past h hh
    · rw [mem_singleton.mp hh]
      exact le_refl _
  case permanent =>
    intro k hk'
    exact ((hk.permanent k hk').charged _ _ _ _ hp.lasting).congr (hpl k hk')
  case counters =>
    intro k hk'
    calc counter (unixMilli s.now) (s.opened r req).db k
        = counter (unixMilli s.now)
          (charged (unixMilli s.now) req.estimate req.windows s.db) k := by
          unfold counter
          rw [numberAt_congr (hpl k hk')]
      _ = owed s.log k + (req.windows.map BudgetWindow.key).count k * req.estimate := by
          rw [counter_charged, hk.counters k hk']
      _ = owed (s.log ++ [req.hold s.now]) k := by
          simp [owed, ReserveRequest.hold, amount]
  case hash =>
    intro h hh
    rcases mem_append.mp hh with hh | hh
    · rw [hp.opened_reservation (hk.clean h hh).1 (hp.fresh h hh)]
      exact hk.hash h hh
    · rw [mem_singleton.mp hh]
      exact ⟨.reserved, Ledger.opened_reservation (reservationKey_ne_expiryKey hp.clean hp.clean),
        iff_of_true rfl rfl⟩
  case absent =>
    intro t id ht hn
    have hne : ¬ (t = req.tenantID ∧ id = req.reservationID) := fun hc =>
      hn (req.hold s.now) (mem_append_right _ (mem_singleton_self _))
        ⟨hc.1.symm, hc.2.symm⟩
    rw [hp.opened_reservation ht hne]
    exact hk.absent t id ht fun h hh => hn h (mem_append_left _ hh)
  case expiry =>
    intro t ht
    by_cases hth : t = req.tenantID
    · subst hth
      exact .inr ⟨_, _, Ledger.opened_expiry, hk.open_expirySet hp⟩
    · rw [hp.opened_expiry ht hth]
      rcases hk.expiry t ht with hn | ⟨ms, d, hdb, hset⟩
      · exact .inl hn
      · refine .inr ⟨ms, d, hdb, hset.nodup, ?_, ?_⟩
        · intro m hm
          obtain ⟨h, hh, hr⟩ := hset.held m hm
          exact ⟨h, mem_append_left _ hh, hr⟩
        · intro h hh hht
          rcases mem_append.mp hh with hh | hh
          · exact hset.lasts h hh hht
          · rw [mem_singleton.mp hh] at hht
            exact absurd hht.symm hth
  case listed => exact fun h hh hhe ha => hk.open_listed hp hh hhe ha

end

end

end LiteAIG.Ledger
