/-
Reservations that outlive their window.

A reservation is settled in the ledger it was admitted in, as long as the manager
still has that ledger and the id is not one of the newer ledger as well.  A rollover
keeps one older ledger and lets go of the one before, a sweep lets go of the older one
after its grace, and a request may bring an id that is still open in the older ledger.
Nothing else makes a reservation unreachable, so every admitted reservation can be
settled in its own window exactly in the runs in which none of the three happens to a
ledger with an open reservation.
-/
import LiteAIG.Proofs.Budget.History
import LiteAIG.Proofs.Budget.Admission

namespace LiteAIG.Budget

open Lib History Manager Option

/-! ### What it is to be settled in the own window -/

variable (h : History)

/-- A `Reconcile` of the reservation succeeds and charges the ledger it was admitted in. -/
def History.Settleable (ρ : Record) : Prop :=
  ∃ place w, h.number ρ.policyID place = ρ.number ∧
    h.manager.ledgerIn ρ.policyID place = some w ∧ w.start = ρ.start ∧
    ∀ actual, 0 ≤ actual →
      (h.manager.reconcile ρ.policyID ρ.id actual).1 = .ok () ∧
        ∃ w', (h.manager.reconcile ρ.policyID ρ.id actual).2.ledgerIn ρ.policyID place = some w' ∧
          w'.consumed = w.consumed + actual

/-- Whatever was admitted and not yet settled can be settled. -/
def History.AllSettleable : Prop :=
  ∀ ρ ∈ h.records, ρ.settlements = [] → h.Settleable ρ

/-- The ledger has an open reservation. -/
def Window.busy (w : Window) : Bool := w.reservations.entries.any fun e => !e.2.final

variable (m : Manager)

/-- A sweep lets go of no ledger with an open reservation. -/
def Manager.DropsNone (now : Int) : Prop :=
  ¬ now - m.lastSweep < sweepInterval →
    ∀ p r, m.retired.lookup p = some r → now - r.retiredAt > retireGrace → r.state.busy = false

/-- A rollover lets go of no ledger with an open reservation. -/
def Manager.DisplacesNone (policy : Policy) : Prop :=
  m.opens policy = true → ∀ r, m.retired.lookup policy.id = some r → r.state.busy = false

/-- The id is not that of an open reservation of the older ledger. -/
def Manager.ShadowsNone (p id : String) : Prop :=
  ∀ r, m.retired.lookup p = some r → ∀ s, r.state.reservations.lookup id = some s → s.final = true

/-- The call makes no open reservation unreachable. -/
def History.Keeps : Call → Prop
  | .reserve policy id estimate ending starting now =>
    policy.admissibleAt id estimate ending starting = true →
      h.manager.DropsNone now ∧ (h.manager.sweepLocked now).DisplacesNone policy ∧
        (h.manager.admits policy id estimate now = true →
          ((h.manager.sweepLocked now).ledger policy now).2.ShadowsNone policy.id id)
  | .sweep now => { h.manager with lastSweep := 0 }.DropsNone now
  | .reconcile .. | .release .. => True

/-! ### Finding a reservation -/

section

variable {h : History} {ρ : Record} {p id : String} {place : Place} {w : Window}

/-- The ledger of the reservation is there, and no newer one has the id. -/
def History.Finds (ρ : Record) : Prop :=
  ∃ place w, h.number ρ.policyID place = ρ.number ∧
    h.manager.ledgerIn ρ.policyID place = some w ∧
    (place = .retired → ∀ v, h.manager.ledgerIn ρ.policyID .current = some v →
      v.reservations.lookup ρ.id = none)

def History.FindsAll : Prop :=
  ∀ ρ ∈ h.records, ρ.settlements = [] → h.Finds ρ

theorem busy_iff :
    w.busy = true ↔ ∃ id estimate, w.reservations.lookup id = some ⟨estimate, false⟩ := by
  simp only [Window.busy, List.any_eq_true, Bool.not_eq_true']
  constructor
  · rintro ⟨⟨id, estimate, final⟩, hm, rfl⟩
    exact ⟨id, estimate, Assoc.lookup_of_mem hm⟩
  · rintro ⟨id, estimate, hid⟩
    exact ⟨_, Assoc.mem_of_lookup hid, rfl⟩

/-- An open reservation of a ledger has an unsettled record. -/
theorem Tracked.record_of_open (ht : Tracked h) (hw : h.manager.ledgerIn p place = some w)
    {est : Int} (hid : w.reservations.lookup id = some ⟨est, false⟩) :
    ∃ ρ ∈ h.records, ρ.names p (h.number p place) id ∧ ρ.settlements = [] := by
  obtain ⟨ρ, hf, hi⟩ := (ht.told p place w hw).stored id _ hid
  exact ⟨ρ, List.mem_of_find?_eq_some hf, by simpa using List.find?_some hf, hi.mpr rfl⟩

/-- The ledger of an unsettled record has its reservation open. -/
theorem Tracked.open_of_record (ht : Tracked h) (hρ : ρ ∈ h.records) (ho : ρ.settlements = [])
    (hn : h.number ρ.policyID place = ρ.number)
    (hw : h.manager.ledgerIn ρ.policyID place = some w) :
    w.reservations.lookup ρ.id = some ⟨ρ.estimate, false⟩ ∧ w.start = ρ.start :=
  (ht.told _ place w hw).unsettled ρ hρ rfl hn.symm ho

theorem ledgerFor_of_finds {r : ReservationState} (hw : h.manager.ledgerIn p place = some w)
    (hid : w.reservations.lookup id = some r)
    (hf : place = .retired → ∀ v, h.manager.ledgerIn p .current = some v →
      v.reservations.lookup id = none) :
    h.manager.ledgerFor p id = some (place, w, r) := by
  cases place with
  | current => exact ledgerFor_current hw hid
  | retired =>
    obtain ⟨r', hr, rfl⟩ := map_eq_some_iff.mp hw
    unfold ledgerFor
    cases hv : h.manager.windows.lookup p with
    | none => simp [hr, hid]
    | some v => simp [hr, hid, hf rfl v hv]

theorem settleable_iff_finds (ht : Tracked h) (hρ : ρ ∈ h.records) (ho : ρ.settlements = []) :
    h.Settleable ρ ↔ h.Finds ρ := by
  constructor
  · rintro ⟨place, w, hn, hw, -, hs⟩
    refine ⟨place, w, hn, hw, ?_⟩
    rintro rfl v hv
    -- were the id in the newer ledger, a `Reconcile` would leave the older one as it is
    by_contra hsh
    obtain ⟨r, hr⟩ := ne_none_iff_exists'.mp hsh
    have hfo : h.manager.ledgerFor ρ.policyID ρ.id = some (.current, v, r) :=
      ledgerFor_current hv hr
    obtain ⟨-, w', hw', hc⟩ := hs 1 (by decide)
    have hsa : (h.manager.reconcile ρ.policyID ρ.id 1).2.ledgerIn ρ.policyID .retired = some w := by
      simp only [reconcile, hfo, settle]
      by_cases hf : r.final = true
      · simp only [hf, if_true]
        exact hw
      · simp only [hf, Bool.false_eq_true, if_false]
        exact (ledgerIn_store_ne (by simp)).trans hw
    rw [hsa, Option.some.injEq] at hw'
    rw [hw'] at hc
    omega
  · rintro ⟨place, w, hn, hw, hfi⟩
    obtain ⟨hid, hst⟩ := ht.open_of_record hρ ho hn hw
    have hfo := ledgerFor_of_finds hw hid hfi
    refine ⟨place, w, hn, hw, hst, ?_⟩
    intro actual ha
    simp only [reconcile, hfo, settle, if_neg (not_lt.mpr ha)]
    exact ⟨trivial, w.close ρ.id ⟨ρ.estimate, false⟩ actual, ledgerIn_store_self hw, rfl⟩

theorem allSettleable_iff_findsAll (ht : Tracked h) : h.AllSettleable ↔ h.FindsAll :=
  forall₃_congr fun _ hρ ho => settleable_iff_finds ht hρ ho

/-- The place that has a ledger's number. -/
theorem place_of_number {place' : Place} (hn : h.number p place' = h.number p place) :
    place' = place := by
  by_contra hne
  exact number_inj _ (fun hc => hne hc.2) ⟨rfl, hn⟩

end

/-! ### The parts of a call -/

section

variable {h : History}

theorem retired_sweepLocked (now : Int) (p : String) :
    (m.sweepLocked now).retired.lookup p =
      if now - m.lastSweep < sweepInterval then m.retired.lookup p
      else (m.retired.lookup p).filter fun r => decide (¬ now - r.retiredAt > retireGrace) := by
  unfold sweepLocked
  split
  · rfl
  · exact Assoc.lookup_filter ..

/-- A sweep lets go of the older ledger or leaves it. -/
theorem swept_findsAll_iff (ht : Tracked h) (hal : h.FindsAll) (now : Int) :
    (h.swept now).FindsAll ↔ h.manager.DropsNone now := by
  constructor
  · intro ha hd p r hr hg
    by_contra hb
    obtain ⟨id, estimate, hid⟩ := busy_iff.mp (Bool.eq_true_of_not_eq_false hb)
    have hw : h.manager.ledgerIn p .retired = some r.state := by simp [ledgerIn, hr]
    obtain ⟨ρ, hρ, ⟨rfl, hnu, -⟩, ho⟩ := ht.record_of_open hw hid
    obtain ⟨place, w, hn, hw', -⟩ := ha ρ hρ ho
    obtain rfl : place = .retired :=
      place_of_number (h := h) (p := ρ.policyID) (hn.trans hnu)
    simp only [ledgerIn, swept, retired_sweepLocked, if_neg hd, hr,
      map_eq_some_iff, filter_eq_some_iff, decide_eq_true_eq] at hw'
    obtain ⟨r', ⟨hr', hk⟩, -⟩ := hw'
    obtain rfl := Option.some.inj hr'
    exact hk hg
  · intro hke ρ hρ ho
    obtain ⟨place, w, hnu, hw, hf⟩ := hal ρ hρ ho
    have hcu := lookup_sweepLocked h.manager now ρ.policyID
    cases place with
    | current =>
      have hw₀ : h.manager.windows.lookup ρ.policyID = some w := hw
      rw [hw₀] at hcu
      exact ⟨.current, _, hnu, hcu, fun hc => by cases hc⟩
    | retired =>
      obtain ⟨r, hr, rfl⟩ := map_eq_some_iff.mp hw
      have hb : r.state.busy = true :=
        busy_iff.mpr ⟨ρ.id, ρ.estimate, (ht.open_of_record hρ ho hnu hw).1⟩
      have hs : (h.manager.sweepLocked now).retired.lookup ρ.policyID = some r := by
        rw [retired_sweepLocked, hr]
        split
        · rfl
        · next hd =>
          have hg : ¬ now - r.retiredAt > retireGrace := fun hc => by
            simpa [hb] using hke hd ρ.policyID r hr hc
          exact filter_some_pos (by simpa using hg)
      refine ⟨.retired, r.state, hnu, by simp [ledgerIn, swept, hs], ?_⟩
      intro _ v hv
      obtain ⟨v₀, hv₀, rfl | rfl⟩ := ledgerIn_sweepLocked hv
      · exact hf rfl _ hv₀
      · rw [Window.prune, Assoc.lookup_filter, hf rfl _ hv₀]
        rfl

/-- A rollover makes the current ledger the older one, in place of the one before. -/
theorem opening_findsAll_iff (ht : Tracked h) (hal : h.FindsAll) (policy : Policy) (now : Int) :
    (h.opening policy now).FindsAll ↔ h.manager.DisplacesNone policy := by
  unfold opening
  by_cases ho : h.manager.opens policy = true
  swap
  · rw [if_neg ho]
    exact iff_of_true hal fun hc => absurd hc ho
  rw [if_pos ho]
  obtain ⟨-, hcu, hre, hot⟩ := ledger_of_opens ho now
  constructor
  · intro ha _ r hr
    by_contra hb
    obtain ⟨id, estimate, hid⟩ := busy_iff.mp (Bool.eq_true_of_not_eq_false hb)
    have hw : h.manager.ledgerIn policy.id .retired = some r.state := by simp [ledgerIn, hr]
    obtain ⟨ρ, hρ, ⟨hpo, hnu, -⟩, hop⟩ := ht.record_of_open hw hid
    obtain ⟨place, w, hn, -⟩ := ha ρ hρ hop
    rw [hpo, hnu] at hn
    cases place <;> simp only [number, Function.update_self] at hn <;> omega
  · intro hk ρ hρ hop
    obtain ⟨place, w, hnu, hw, hf⟩ := hal ρ hρ hop
    by_cases hpo : ρ.policyID = policy.id
    · cases place with
      | current =>
        refine ⟨.retired, w, ?_, ?_, ?_⟩
        · simp only [number] at hnu ⊢
          rw [hpo, Function.update_self, ← hnu, hpo]
          omega
        · rw [hpo] at hw ⊢
          rw [hre, hw]
          rfl
        · intro _ v hv
          rw [hpo, hcu, Option.some.injEq] at hv
          rw [← hv]
          rfl
      | retired =>
        obtain ⟨r, hr, rfl⟩ := map_eq_some_iff.mp hw
        have hb : r.state.busy = true :=
          busy_iff.mpr ⟨ρ.id, ρ.estimate, (ht.open_of_record hρ hop hnu hw).1⟩
        rw [hpo] at hr
        simp [hk ho r hr] at hb
    · refine ⟨place, w, ?_, (hot _ place hpo).trans hw, ?_⟩
      · cases place <;> simpa [number, Function.update_of_ne hpo] using hnu
      · intro hp v hv
        exact hf hp v ((hot _ .current hpo).symm.trans hv)

theorem findsAll_of_opening (ht : Tracked h) {p : Policy} {now : Int}
    (ha : (h.opening p now).FindsAll) : h.FindsAll := by
  unfold opening at ha
  by_cases ho : h.manager.opens p = true
  swap
  · rwa [if_neg ho] at ha
  rw [if_pos ho] at ha
  obtain ⟨-, hcu, hr, hot⟩ := ledger_of_opens ho now
  intro ρ hρ hop
  obtain ⟨place, w, hnu, hw, hf⟩ := ha ρ hρ hop
  have hk := ht.known ρ hρ
  by_cases hpo : ρ.policyID = p.id
  · simp only [hpo] at hnu hw hk ⊢
    cases place with
    | current =>
      simp only [number, Function.update_self] at hnu
      omega
    | retired =>
      have hn : h.opened p.id = ρ.number := by
        simp only [number, Function.update_self] at hnu
        omega
      cases hin : h.manager.ledgerIn p.id .current with
      | none =>
        rw [hr, hin] at hw
        simp [ledgerIn, ht.succeeded p.id hin] at hw
      | some v =>
        refine ⟨.current, v, ?_, ?_, fun hc => by cases hc⟩
        · rw [hpo]
          exact hn
        · rw [hpo]
          exact hin
  · refine ⟨place, w, ?_, (hot _ place hpo).symm.trans hw, ?_⟩
    · cases place <;> simpa [number, Function.update_of_ne hpo] using hnu
    · intro hp v hv
      exact hf hp v ((hot _ .current hpo).trans hv)

/-- An admission takes the older reservation of the same id out of reach. -/
theorem holding_findsAll_iff (ht : Tracked h) (hal : h.FindsAll) {p : String} (id : String)
    {w : Window} (hw : h.manager.ledgerIn p .current = some w) (est : Int) :
    (h.holding p w id est).FindsAll ↔ h.manager.ShadowsNone p id := by
  have hse : (h.holding p w id est).manager.ledgerIn p .current = some (w.hold id est) :=
    ledgerIn_store_self hw
  have hot : ∀ q place, ¬ (q = p ∧ place = .current) →
      (h.holding p w id est).manager.ledgerIn q place = h.manager.ledgerIn q place :=
    fun _ _ hne => ledgerIn_store_ne hne
  constructor
  · intro ha r hr s hs
    by_contra hfi
    obtain ⟨e, final⟩ := s
    obtain rfl : final = false := Bool.eq_false_iff.mpr hfi
    have hv : h.manager.ledgerIn p .retired = some r.state := by simp [ledgerIn, hr]
    obtain ⟨ρ, hρ, ⟨rfl, hnum, rfl⟩, ho⟩ := ht.record_of_open hv hs
    obtain ⟨place, v, hnu, -, hf⟩ := ha ρ (List.mem_cons_of_mem _ hρ) ho
    have hp : place = .retired :=
      place_of_number (h := h) (p := ρ.policyID) (hnu.trans hnum)
    have hn := hf hp _ hse
    rw [Window.hold, Assoc.lookup_insert_self] at hn
    cases hn
  · intro hk ρ hρ ho
    rcases List.mem_cons.mp hρ with rfl | hm
    · exact ⟨.current, _, rfl, hse, fun hc => by cases hc⟩
    · obtain ⟨place, v, hnum, hv, hf⟩ := hal ρ hm ho
      cases place with
      | current =>
        by_cases hpo : ρ.policyID = p
        · subst hpo
          exact ⟨.current, _, hnum, hse, fun hc => by cases hc⟩
        · exact ⟨.current, v, hnum, (hot _ .current fun hc => hpo hc.1).trans hv,
            fun hc => by cases hc⟩
      | retired =>
        refine ⟨.retired, v, hnum, (hot _ .retired (by simp)).trans hv, ?_⟩
        intro _ v' hv'
        by_cases hpo : ρ.policyID = p
        · subst hpo
          rw [hse, Option.some.injEq] at hv'
          subst hv'
          -- the older reservation is open, so the new one has another id
          have hne : ρ.id ≠ id := by
            rintro rfl
            obtain ⟨r, hr, rfl⟩ := map_eq_some_iff.mp hv
            have hfi := hk r hr _ (ht.open_of_record hm ho hnum hv).1
            cases hfi
          exact (Assoc.lookup_insert_ne hne).trans (hf rfl w hw)
        · exact hf rfl v' ((hot _ .current fun hc => hpo hc.1).symm.trans hv')

theorem findsAll_of_holding {p id : String} {w : Window} {est : Int}
    (hw : h.manager.ledgerIn p .current = some w)
    (ha : (h.holding p w id est).FindsAll) : h.FindsAll := by
  intro ρ hρ hop
  obtain ⟨place, v, hnu, hv, hf⟩ := ha ρ (List.mem_cons_of_mem _ hρ) hop
  by_cases hpo : ρ.policyID = p
  · subst hpo
    cases place with
    | current => exact ⟨.current, w, hnu, hw, fun hc => by cases hc⟩
    | retired =>
      refine ⟨.retired, v, hnu, (ledgerIn_store_ne (by simp)).symm.trans hv, ?_⟩
      intro _ v' hv'
      rw [hw, Option.some.injEq] at hv'
      subst hv'
      have hn := hf rfl _ (ledgerIn_store_self hw)
      by_cases hid : ρ.id = id
      · rw [hid, Window.hold, Assoc.lookup_insert_self] at hn
        cases hn
      · exact (Assoc.lookup_insert_ne hid).symm.trans hn
  · have ho : ∀ place, (h.holding p w id est).manager.ledgerIn ρ.policyID place =
        h.manager.ledgerIn ρ.policyID place := fun place => ledgerIn_store_ne fun hc => hpo hc.1
    refine ⟨place, v, hnu, (ho place).symm.trans hv, ?_⟩
    intro hp v' hv'
    exact hf hp v' ((ho .current).trans hv')

theorem settling_findsAll (ha : h.FindsAll) (p id : String) (tokens : Option Int) :
    (h.settling p id tokens).FindsAll := by
  rcases settling_cases h p id tokens with heq | ⟨place, w, estimate, hw, ⟨-, heq⟩ | ⟨hid, heq⟩⟩
  · rwa [heq]
  · rw [heq]
    intro ρ hρ ho
    exact ha ρ (mem_note_unsettled hρ ho) ho
  · rw [heq]
    intro ρ hρ ho
    obtain ⟨place', v, hnu, hv, hf⟩ := ha ρ (mem_note_unsettled hρ ho) ho
    have hp : ∀ {q place'' v''},
        (h.manager.store p (w.close id ⟨estimate, false⟩ (tokens.getD 0)) place).ledgerIn q place''
          = some v'' → ∃ v, h.manager.ledgerIn q place'' = some v ∧
            ∀ i, v.reservations.lookup i = none → v''.reservations.lookup i = none := by
      intro q place'' v'' hv''
      by_cases hs : q = p ∧ place'' = place
      · obtain ⟨rfl, rfl⟩ := hs
        rw [ledgerIn_store_self hw, Option.some.injEq] at hv''
        refine ⟨w, hw, fun i hi => ?_⟩
        have hne : i ≠ id := by
          rintro rfl
          rw [hid] at hi
          cases hi
        rw [← hv'']
        exact (Assoc.lookup_insert_ne hne).trans hi
      · rw [ledgerIn_store_ne hs] at hv''
        exact ⟨v'', hv'', fun _ hi => hi⟩
    have hst : ∃ v', (h.manager.store p (w.close id ⟨estimate, false⟩ (tokens.getD 0))
        place).ledgerIn ρ.policyID place' = some v' := by
      by_cases hs : ρ.policyID = p ∧ place' = place
      · obtain ⟨rfl, rfl⟩ := hs
        exact ⟨_, ledgerIn_store_self hw⟩
      · exact ⟨v, (ledgerIn_store_ne hs).trans hv⟩
    obtain ⟨v', hv'⟩ := hst
    refine ⟨place', v', hnu, hv', ?_⟩
    intro hpl c hc
    obtain ⟨c₀, hc₀, hn⟩ := hp hc
    exact hn _ (hf hpl c₀ hc₀)

end

/-! ### Whole runs -/

theorem findsAll_step_iff {h : History} (ht : Tracked h) (hall : h.FindsAll) (c : Call) :
    (h.step c).FindsAll ↔ h.Keeps c := by
  cases c with
  | reserve policy id est ending starting now =>
    cases hadm : policy.admissibleAt id est ending starting with
    | false =>
      rw [step_reserve_inadmissible hadm]
      exact iff_of_true hall fun hc => by simp [hadm] at hc
    | true =>
      have hs := swept_findsAll_iff ht hall now
      have ht₁ := ht.swept now
      have ho := fun hal => opening_findsAll_iff ht₁ hal policy now
      have hm : ((h.swept now).opening policy now).manager =
          ((h.manager.sweepLocked now).ledger policy now).2 := opening_manager
      obtain ⟨w, hw, ⟨had, -, heq⟩ | ⟨had, heq⟩⟩ := step_reserve (h := h) now hadm
      · have hh := fun ha => holding_findsAll_iff (ht₁.opening policy now) ha id hw est
        rw [heq]
        constructor
        · intro haf _
          have ha := findsAll_of_holding hw haf
          have hal := findsAll_of_opening ht₁ ha
          refine ⟨hs.mp hal, (ho hal).mp ha, fun _ => ?_⟩
          rw [← hm]
          exact (hh ha).mp haf
        · intro hk
          obtain ⟨hdr, hd, hsh⟩ := hk hadm
          have ha := (ho (hs.mpr hdr)).mpr hd
          refine (hh ha).mpr ?_
          rw [hm]
          exact hsh had
      · rw [heq]
        constructor
        · intro ha _
          have hal := findsAll_of_opening ht₁ ha
          exact ⟨hs.mp hal, (ho hal).mp ha, fun hc => by simp [had] at hc⟩
        · intro hk
          obtain ⟨hdr, hd, -⟩ := hk hadm
          exact (ho (hs.mpr hdr)).mpr hd
  | reconcile p id actual =>
    refine iff_of_true ?_ trivial
    by_cases hn : actual < 0
    · rwa [step_reconcile_negative hn]
    · rw [step_reconcile hn]
      exact settling_findsAll hall p id _
  | release p id => exact iff_of_true (settling_findsAll hall p id none) trivial
  | sweep now =>
    have ht₀ : Tracked { h with manager := { h.manager with lastSweep := 0 } } := ht.resetSweep
    exact swept_findsAll_iff ht₀ hall now

/-- **A reservation that straddles a rollover.** After every call of a run each admitted and
unsettled reservation can be settled in its own window, if and only if no call of the run lets go
of a ledger with an open reservation or admits an id that is still open in the older ledger. -/
theorem admitted_settleable_iff (clock : Int) (calls : List Call) :
    Allowed History.step (fun h c => (h.step c).AllSettleable) (History.new clock) calls ↔
      Allowed History.step History.Keeps (History.new clock) calls := by
  refine allowed_congr_of_invariant (I := fun h => Tracked h ∧ h.FindsAll) ?_ ?_ calls _
    ⟨tracked_new clock, fun ρ hρ => by cases hρ⟩
  · intro h c hI
    rw [allSettleable_iff_findsAll (hI.1.step c)]
    exact findsAll_step_iff hI.1 hI.2 c
  · intro h c hI hk
    exact ⟨hI.1.step c, (findsAll_step_iff hI.1 hI.2 c).mpr hk⟩

/-- The hours of a policy of ten tokens. -/
def tenInHour (n : Int) : Policy :=
  ⟨"tokens", "", "", "", .hard, .none, 10, n * hour, (n + 1) * hour⟩

/-- A call that takes a little over a minute, begun at the end of an hour. -/
def minuteLater : List Call :=
  [.reserve (tenInHour 0) "a" 1 (hour - 1) (hour - 1) (hour - 1),
   .reserve (tenInHour 1) "b" 1 hour hour hour,
   .reserve (tenInHour 1) "c" 1 (hour + 61 * 1000000000) (hour + 61 * 1000000000)
     (hour + 61 * 1000000000)]

/-- The first request is admitted, nobody settles it, and when it settles after a minute its
reservation is not found: another request of the new hour swept its ledger away. -/
theorem late_settlement_not_found :
    (run History.step (History.new (hour - 1)) minuteLater).records.map
        (fun ρ => (ρ.id, ρ.settlements)) = [("c", []), ("b", []), ("a", [])] ∧
      ((run History.step (History.new (hour - 1)) minuteLater).manager.reconcile "tokens" "a" 1).1
        = .error .reservationNotFound := by
  decide +kernel

end LiteAIG.Budget
