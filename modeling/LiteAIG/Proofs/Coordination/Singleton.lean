/-
One process in the job at a time, while leases last.

A row is overwritten by its own process, or by another one that has read a clock past
its time; lease ids are drawn at random, and the results are about the runs in which
none is drawn twice.  So a process that was granted a lease has its row as long as the
clock has not passed the time the lease ends, and two of them cannot both have it.
Nothing keeps a job from outliving its lease: that is the condition that is left.
-/
import LiteAIG.Coordination.Singleton

namespace LiteAIG.Coordination

open Lib Option

variable {task : SingletonTask} {s s' : Platform} {t t₂ : Progress} {a : Action} {row : LeaseRow}

theorem forall_mem_none {β : Type*} {P : β → Prop} : ∀ x ∈ (none : Option β), P x :=
  fun x h => absurd h (not_mem_none x)

/-! ### What a process knows -/

/-- The id a process has drawn and not given up. -/
def Progress.lease : Progress → Option String
  | .acquiring id _ | .granted id _ | .running id _ | .holding id | .renewing id _ => some id
  | .idle | .stopped => none

/-- The row a process was granted for the job that is next or under way. -/
def Progress.grant : Progress → Option LeaseRow
  | .granted id expiresAt | .running id expiresAt => some ⟨id, expiresAt⟩
  | _ => none

/-- The clock as a process has read it for the statement that is next. -/
def Progress.reading : Progress → Option Int
  | .acquiring _ now | .renewing _ now => some now
  | _ => none

def Progress.inJob : Progress → Bool
  | .running _ _ => true
  | _ => false

/-- The id an `Acquire` draws. -/
def Action.draw : Action → Option String
  | .acquire random => (coordinationLeaseID random).toOption
  | _ => none

/-! ### What a step does -/

/-- A statement puts a row in the place of none, of an old one, or of the process's own, or it
takes its own out. -/
inductive Writes (task : SingletonTask) (s : Platform) (id : String) (now : Int) : LeaseTable → Prop
  | acquires (hfree : ∀ row, s.rows.lookup task.scope = some row → row.expiresAt < now) :
      Writes task s id now (s.rows.insert task.scope ⟨id, now + task.ttl⟩)
  | renews (row : LeaseRow) (hrow : s.rows.lookup task.scope = some row) (hown : row.leaseID = id) :
      Writes task s id now (s.rows.insert task.scope ⟨id, now + task.ttl⟩)
  | releases (row : LeaseRow) (hrow : s.rows.lookup task.scope = some row)
    (hown : row.leaseID = id) :
      Writes task s id now (s.rows.erase task.scope)

/-- The ways a step can go. -/
inductive Did (task : SingletonTask) (s : Platform) (t : Progress) (a : Action) :
    Platform → Progress → Prop
  /-- The process goes on, with nothing it did not have. -/
  | moves (t₂ : Progress) (hlease : ∀ id ∈ t₂.lease, id ∈ t.lease)
      (hgrant : ∀ row ∈ t₂.grant, row ∈ t.grant)
      (hreading : ∀ now ∈ t₂.reading, now ∈ t.reading ∨ now = s.clock)
      (hjob : t₂.inJob = true → a = .start ∨ t.inJob = true) : Did task s t a s t₂
  | draws (id : String) (hid : id ∈ a.draw) :
      Did task s t a { s with drawn := id :: s.drawn } (.acquiring id s.clock)
  | ticks (elapsed : Nat) (ha : a = .tick elapsed) :
      Did task s t a { s with clock := s.clock + elapsed } t
  | writes (rows : LeaseTable) (id : String) (now : Int) (hid : id ∈ t.lease)
      (hnow : now ∈ t.reading ∨ now = s.clock) (hwrites : Writes task s id now rows) (t₂ : Progress)
      (hlease : ∀ id ∈ t₂.lease, id ∈ t.lease)
      (hgrant : ∀ row ∈ t₂.grant, rows.lookup task.scope = some row) (hreading : t₂.reading = none)
      (hjob : t₂.inJob = false) : Did task s t a { s with rows } t₂

theorem Did.stays : Did task s t a s t :=
  .moves t (fun _ h => h) (fun _ h => h) (fun _ h => .inl h) .inr

theorem Did.gives_up (h : t₂ = .idle ∨ t₂ = .stopped) : Did task s t a s t₂ := by
  rcases h with rfl | rfl <;>
    exact .moves _ forall_mem_none forall_mem_none forall_mem_none
      (fun h => absurd h Bool.false_ne_true)

/-- The process has its lease and waits. -/
theorem Did.waits {id : String} (h : t.lease = some id) : Did task s t a s (.holding id) :=
  .moves _ (fun _ hid => h ▸ hid) forall_mem_none forall_mem_none
    (fun hj => absurd hj Bool.false_ne_true)

section

variable (task : SingletonTask) (s : Platform) (id : String) (now : Int)

theorem acquire_cases :
    s.rows.acquire task.scope id task.ttl now = (false, s.rows) ∨
      ∃ rows, s.rows.acquire task.scope id task.ttl now = (true, rows) ∧ Writes task s id now rows ∧
        rows.lookup task.scope = some ⟨id, now + task.ttl⟩ := by
  unfold LeaseTable.acquire
  split
  · rename_i row hr
    by_cases hold : row.expiresAt < now
    · rw [if_pos hold]
      refine .inr ⟨_, rfl, .acquires fun row' h => ?_, Assoc.lookup_insert_self⟩
      obtain rfl : row = row' := Option.some.inj (hr.symm.trans h)
      exact hold
    · rw [if_neg hold]
      exact .inl rfl
  · rename_i hn
    refine .inr ⟨_, rfl, .acquires fun row' h => ?_, Assoc.lookup_insert_self⟩
    rw [hn] at h
    cases h

theorem renew_cases :
    s.rows.renew task.scope id task.ttl now = (false, s.rows) ∨
      ∃ rows, s.rows.renew task.scope id task.ttl now = (true, rows) ∧ Writes task s id now rows ∧
        rows.lookup task.scope = some ⟨id, now + task.ttl⟩ := by
  unfold LeaseTable.renew
  split
  · rename_i row hr
    by_cases ho : row.leaseID = id ∧ row.expiresAt > now
    · rw [if_pos ho]
      obtain ⟨rfl, -⟩ := ho
      exact .inr ⟨_, rfl, .renews row hr rfl, Assoc.lookup_insert_self⟩
    · rw [if_neg ho]
      exact .inl rfl
  · exact .inl rfl

theorem release_cases :
    s.rows.release task.scope id = s.rows ∨ Writes task s id now
      (s.rows.release task.scope id) := by
  unfold LeaseTable.release
  split
  · rename_i row hr
    by_cases ho : row.leaseID = id
    · rw [if_pos ho]
      exact .inr (.releases row hr ho)
    · rw [if_neg ho]
      exact .inl rfl
  · exact .inl rfl

/-- A statement takes effect or not, and its caller is told so or not. -/
theorem settle_cases (fault : Option Fault) (rows : LeaseTable) (done : Bool × LeaseTable) :
    settle fault rows done = (some done.1, done.2) ∨ settle fault rows done = (none, done.2) ∨
      settle fault rows done = (none, rows) := by
  unfold settle
  split
  · exact .inl rfl
  · exact .inr (.inl rfl)
  · exact .inr (.inr rfl)

theorem acquiring_did (fault : Option Fault) :
    Did task s (.acquiring id now) (.execute fault)
      (act task s (.acquiring id now) (.execute fault)).1
      (act task s (.acquiring id now) (.execute fault)).2 := by
  simp only [act]
  rcases acquire_cases task s id now with hb | ⟨rows, hd, hw, hr⟩
  · rw [hb]
    rcases settle_cases fault s.rows (false, s.rows) with h | h | h <;> rw [h] <;>
      exact .gives_up (.inl rfl)
  · rw [hd]
    rcases settle_cases fault s.rows (true, rows) with h | h | h <;> rw [h]
    · refine .writes rows id now rfl (.inl rfl) hw _ (fun _ h => h) ?_ rfl rfl
      exact fun row hm => Option.some.inj hm ▸ hr
    · exact .writes rows id now rfl (.inl rfl) hw _ forall_mem_none forall_mem_none rfl rfl
    · exact .gives_up (.inl rfl)

theorem renewing_did (fault : Option Fault) :
    Did task s (.renewing id now) (.execute fault)
      (act task s (.renewing id now) (.execute fault)).1
      (act task s (.renewing id now) (.execute fault)).2 := by
  simp only [act]
  rcases renew_cases task s id now with hl | ⟨rows, hd, hw, hr⟩
  · rw [hl]
    rcases settle_cases fault s.rows (false, s.rows) with h | h | h <;> rw [h]
    · exact .gives_up (.inl rfl)
    · exact .waits rfl
    · exact .waits rfl
  · rw [hd]
    rcases settle_cases fault s.rows (true, rows) with h | h | h <;> rw [h]
    · refine .writes rows id now rfl (.inl rfl) hw _ (fun _ h => h) ?_ rfl rfl
      exact fun row hm => Option.some.inj hm ▸ hr
    · exact .writes rows id now rfl (.inl rfl) hw _ (fun _ h => h) forall_mem_none rfl rfl
    · exact .waits rfl

theorem stopping_did (fault : Option Fault) :
    Did task s (.holding id) (.stop fault) (act task s (.holding id) (.stop fault)).1
      (act task s (.holding id) (.stop fault)).2 := by
  simp only [act]
  have hd : Did task s (.holding id) (.stop fault) { s with rows := s.rows.release task.scope id }
      .stopped := by
    rcases release_cases task s id s.clock with hs | hw
    · rw [hs]
      exact .gives_up (.inr rfl)
    · exact .writes _ id s.clock rfl (.inr rfl) hw _ forall_mem_none forall_mem_none rfl rfl
  rcases settle_cases fault s.rows (true, s.rows.release task.scope id) with h | h | h <;> rw [h]
  · exact hd
  · exact hd
  · exact .gives_up (.inr rfl)

theorem act_did (t : Progress) (a : Action) :
    Did task s t a (act task s t a).1 (act task s t a).2 := by
  cases t with
  | idle =>
    cases a with
    | acquire random =>
      simp only [act]
      split
      · exact .stays
      · cases hid : coordinationLeaseID random with
        | error e => exact .stays
        | ok id => exact .draws id (congrArg Except.toOption hid)
    | stop fault => exact .gives_up (.inr rfl)
    | tick el => exact .ticks el rfl
    | renew | execute | start | finish => exact .stays
  | acquiring id now =>
    cases a with
    | execute fault => exact acquiring_did task s id now fault
    | tick el => exact .ticks el rfl
    | acquire | renew | start | finish | stop => exact .stays
  | granted id expiresAt =>
    cases a with
    | start => exact .moves _ (fun _ h => h) (fun _ h => h) forall_mem_none (fun _ => .inl rfl)
    | tick el => exact .ticks el rfl
    | acquire | renew | execute | finish | stop => exact .stays
  | running id expiresAt =>
    cases a with
    | finish => exact .waits rfl
    | tick el => exact .ticks el rfl
    | acquire | renew | execute | start | stop => exact .stays
  | holding id =>
    cases a with
    | renew =>
      simp only [act]
      split
      · exact .gives_up (.inl rfl)
      · exact .moves _ (fun _ h => h) forall_mem_none
          (fun _ h => .inr (Option.some.inj h).symm) (fun h => absurd h Bool.false_ne_true)
    | stop fault => exact stopping_did task s id fault
    | tick el => exact .ticks el rfl
    | acquire | execute | start | finish => exact .stays
  | renewing id now =>
    cases a with
    | execute fault => exact renewing_did task s id now fault
    | tick el => exact .ticks el rfl
    | acquire | renew | start | finish | stop => exact .stays
  | stopped =>
    cases a with
    | tick el => exact .ticks el rfl
    | acquire | renew | execute | start | finish | stop => exact .stays

end

/-! ### Leases that are good -/

/-- What a process may rely on: its id was drawn, the clock is not behind what it has read, and the
row is its own up to the time it was granted to. -/
structure Progress.Owns (task : SingletonTask) (s : Platform) (t : Progress) : Prop where
  drawn : ∀ id ∈ t.lease, id ∈ s.drawn
  read : ∀ now ∈ t.reading, now ≤ s.clock
  row : ∀ row ∈ t.grant, s.clock ≤ row.expiresAt → s.rows.lookup task.scope = some row

/-- No two processes have the same id. -/
def Progress.Differs (t t' : Progress) : Prop := ∀ id ∈ t.lease, id ∉ t'.lease

/-- An id that is drawn was not drawn before. -/
def Fresh (s : Platform) (_ : Progress) (a : Action) : Prop := ∀ id ∈ a.draw, id ∉ s.drawn
  deriving Decidable

theorem lease_of_grant (h : row ∈ t.grant) : row.leaseID ∈ t.lease := by
  cases t with
  | granted | running => exact congrArg (Option.map LeaseRow.leaseID) h
  | idle | acquiring | holding | renewing | stopped => exact absurd h (not_mem_none _)

theorem grant_of_inJob (h : t.inJob) : ∃ row, row ∈ t.grant := by
  cases t with
  | running id expiresAt => exact ⟨_, rfl⟩
  | idle | acquiring | granted | holding | renewing | stopped => exact absurd h Bool.false_ne_true

/-- A statement spares the row of another process, up to the time it was granted to. -/
theorem Writes.spares {id : String} {now : Int} {rows : LeaseTable}
    (h : Writes task s id now rows) (hn : now ≤ s.clock) (hr : s.rows.lookup task.scope = some row)
    (hl : s.clock ≤ row.expiresAt) : row.leaseID = id := by
  cases h with
  | acquires hf =>
    have hold := hf row hr
    omega
  | renews own ho hid | releases own ho hid =>
    obtain rfl : row = own := Option.some.inj (hr.symm.trans ho)
    exact hid

theorem act_owns (task : SingletonTask) (s : Platform) (t : Progress) (a : Action)
    (_ : True) (ht : t.Owns task s) (hf : Fresh s t a) :
    True ∧ (act task s t a).2.Owns task (act task s t a).1 ∧
      ∀ t' : Progress, t'.Owns task s → t.Differs t' →
        t'.Owns task (act task s t a).1 ∧ (act task s t a).2.Differs t' := by
  have hdi := act_did task s t a
  generalize (act task s t a).1 = s' at hdi ⊢
  generalize (act task s t a).2 = t₂ at hdi ⊢
  refine ⟨trivial, ?_⟩
  cases hdi with
  | moves t₂ hl hg hr hj =>
    refine ⟨⟨fun id h => ht.drawn id (hl id h), fun now h => ?_,
      fun row h => ht.row row (hg row h)⟩, fun t' ht' hd => ⟨ht', fun id h => hd id (hl id h)⟩⟩
    rcases hr now h with hold | rfl
    · exact ht.read now hold
    · exact le_refl _
  | draws id hid =>
    refine ⟨⟨fun id' h => ?_, fun now h => (Option.some.inj h).symm.le, forall_mem_none⟩,
      fun t' ht' hd => ⟨⟨fun id' h => List.mem_cons_of_mem _ (ht'.drawn id' h), ht'.read, ht'.row⟩,
        fun id' h h' => ?_⟩⟩
    · obtain rfl : id = id' := Option.some.inj h
      exact List.mem_cons_self
    · obtain rfl : id = id' := Option.some.inj h
      exact hf id hid (ht'.drawn id h')
  | ticks elapsed ha =>
    have hti : ∀ t' : Progress, t'.Owns task s →
        t'.Owns task { s with clock := s.clock + elapsed } := by
      intro t' ht'
      refine ⟨ht'.drawn, fun now h => ?_, fun row h hli => ht'.row row h ?_⟩
      · have hre := ht'.read now h
        dsimp only
        omega
      · dsimp only at hli
        omega
    exact ⟨hti t ht, fun t' ht' hd => ⟨hti t' ht', hd⟩⟩
  | writes rows id now hid hn hw t₂ hl hg hr hj =>
    have hre : now ≤ s.clock := by
      rcases hn with hold | rfl
      · exact ht.read now hold
      · exact le_refl _
    refine ⟨⟨fun id' h => ht.drawn id' (hl id' h), ?_, fun row h _ => hg row h⟩,
      fun t' ht' hd => ⟨⟨ht'.drawn, ht'.read, fun row h hli => ?_⟩, fun id' h => hd id' (hl id' h)⟩⟩
    · rw [hr]
      exact forall_mem_none
    · have ho := hw.spares hre (ht'.row row h hli) hli
      exact absurd (ho ▸ lease_of_grant h) (hd id hid)

/-! ### Jobs that end in time -/

section

variable {κ : Type*} [DecidableEq κ] (w : Threads Platform κ Progress)

/-- A job is called while its lease lasts, and has ended when the clock passes the time the lease
was granted to. -/
def InTime (a : κ × Action) : Prop :=
  match a.2 with
  | .start => ∀ row ∈ (w.own a.1).grant, w.shared.clock ≤ row.expiresAt
  | .tick elapsed => ∀ k, (w.own k).inJob = true → ∀ row ∈ (w.own k).grant,
      w.shared.clock + elapsed ≤ row.expiresAt
  | _ => True

instance InTime.decidable [Fintype κ] (w : Threads Platform κ Progress) :
    ∀ a : κ × Action, Decidable (InTime w a)
  | (_, .start) => inferInstanceAs (Decidable (∀ _ ∈ _, _))
  | (_, .tick _) => inferInstanceAs (Decidable (∀ _, _ → ∀ _ ∈ _, _))
  | (_, .acquire _) | (_, .renew) | (_, .execute _) | (_, .finish) | (_, .stop _) => isTrue trivial

/-- Every process in its job has a lease that lasts. -/
def Lasting : Prop :=
  ∀ k, (w.own k).inJob = true → ∀ row ∈ (w.own k).grant, w.shared.clock ≤ row.expiresAt

section

variable (task : SingletonTask) (s : Platform) (t : Progress) (a : Action)

theorem act_clock :
    (act task s t a).1.clock = s.clock ∨
      ∃ elapsed, a = .tick elapsed ∧ (act task s t a).1.clock = s.clock + elapsed := by
  have hd := act_did task s t a
  generalize (act task s t a).1 = s' at hd ⊢
  generalize (act task s t a).2 = t₂ at hd
  cases hd with
  | ticks elapsed ha => exact .inr ⟨elapsed, ha, rfl⟩
  | moves | draws | writes => exact .inl rfl

/-- A process in its job was in it before, or has just called it. -/
theorem act_inJob (h : (act task s t a).2.inJob) :
    (a = .start ∨ t.inJob = true) ∧ ∀ row ∈ (act task s t a).2.grant, row ∈ t.grant := by
  have hd := act_did task s t a
  generalize (act task s t a).1 = s' at hd
  generalize (act task s t a).2 = t₂ at hd h ⊢
  cases hd with
  | moves t₂ hl hg hr hj => exact ⟨hj h, hg⟩
  | draws => exact absurd h Bool.false_ne_true
  | ticks => exact ⟨.inr h, fun _ hro => hro⟩
  | writes rows id now hid hn hw t₂ hl hg hr hj =>
    rw [hj] at h
    exact absurd h Bool.false_ne_true

end

theorem Lasting.step {w : Threads Platform κ Progress} {a : κ × Action} (h : Lasting w)
    (hok : InTime w a) : Lasting (w.step (act task) a) := by
  obtain ⟨k, a⟩ := a
  intro k' hj row hr
  -- whoever is in its job now was in it before the step, unless the step has called it
  have hb : (a = .start ∧ k' = k ∨ (w.own k').inJob = true) ∧ row ∈ (w.own k').grant := by
    by_cases hk : k' = k
    · subst hk
      rw [Threads.step_own_self] at hj hr
      obtain ⟨hs | hold, hg⟩ := act_inJob task _ _ _ hj
      · exact ⟨.inl ⟨hs, rfl⟩, hg row hr⟩
      · exact ⟨.inr hold, hg row hr⟩
    · rw [Threads.step_own_ne w hk] at hj hr
      exact ⟨.inr hj, hr⟩
  obtain ⟨⟨rfl, rfl⟩ | hold, hm⟩ := hb
  · rcases act_clock task w.shared (w.own k') .start with hc | ⟨el, ha, -⟩
    · exact hc.trans_le (hok row hm)
    · cases ha
  · rcases act_clock task w.shared (w.own k) a with hc | ⟨el, rfl, hc⟩
    · exact hc.trans_le (h k' hold row hm)
    · exact hc.trans_le (hok k' hold row hm)

/-- The processes at the start, whatever the table has. -/
def started (rows : LeaseTable) (clock : Int) : Threads Platform κ Progress :=
  ⟨⟨rows, clock, []⟩, fun _ => .idle⟩

/-- **At most one process is in its job**, in every run of any number of processes in which no
lease id is drawn twice and no job outlives the lease it was called with. -/
theorem job_exclusive (task : SingletonTask) (rows : LeaseTable) (clock : Int)
    (steps : List (κ × Action))
    (hok : Allowed (Threads.step (act task)) (fun w a => Threads.Meets Fresh w a ∧ InTime w a)
      (started rows clock) steps) (k k' : κ)
    (hk : ((run (Threads.step (act task)) (started rows clock) steps).own k).inJob = true)
    (hk' : ((run (Threads.step (act task)) (started rows clock) steps).own k').inJob = true) :
      k = k' := by
  obtain ⟨hf, ht⟩ := allowed_and.mp hok
  have hs : (started rows clock : Threads Platform κ Progress).Apart (fun _ => True)
      (fun s t => t.Owns task s) Progress.Differs :=
    ⟨⟨trivial, fun _ => ⟨forall_mem_none, forall_mem_none, forall_mem_none⟩⟩,
      fun _ _ _ => forall_mem_none⟩
  have he := hs.run (fun t t' h id hid hi => h id hi hid) (act_owns task) steps _ hf
  have hl : Lasting (run (Threads.step (act task)) (started rows clock) steps) :=
    Allowed.invariant (fun w a h hin => h.step hin) steps _
      (fun _ h => absurd h Bool.false_ne_true) ht
  by_contra hne
  obtain ⟨row, hro⟩ := grant_of_inJob hk
  obtain ⟨row', hr⟩ := grant_of_inJob hk'
  -- both leases last, so both processes have the row, and with it the same id
  have how := (he.own k).row row hro (hl k hk row hro)
  have ho := (he.own k').row row' hr (hl k' hk' row' hr)
  obtain rfl : row = row' := Option.some.inj (how.symm.trans ho)
  exact he.apart k k' hne _ (lease_of_grant hro) (lease_of_grant hr)

end

def sweeper : SingletonTask := ⟨platformSweeperScope, singletonLeaseTTL⟩

/-- The first process takes the lease and calls its job. -/
def sweeping : List (Fin 2 × Action) :=
  [(0, .acquire (.ok [1])), (0, .execute none), (0, .start)]

/-- After some time the second tries. -/
def following (elapsed : Nat) : List (Fin 2 × Action) :=
  [(1, .tick elapsed), (1, .acquire (.ok [2])), (1, .execute none), (1, .start)]

theorem sweep_exclusive :
    Allowed (Threads.step (act sweeper)) (fun w a => Threads.Meets Fresh w a ∧ InTime w a)
        (started .empty 0) (sweeping ++ following 10) ∧
      ∀ k, ((run (Threads.step (act sweeper)) (started .empty 0)
        (sweeping ++ following 10)).own k).inJob
        = true → k = 0 := by
  have hok : Allowed (Threads.step (act sweeper)) (fun w a => Threads.Meets Fresh w a ∧ InTime w a)
      (started .empty 0) (sweeping ++ following 10) := by
    decide
  exact ⟨hok, fun k hk => job_exclusive sweeper .empty 0 _ hok k 0 hk (by decide)⟩

/-- A sweep takes longer than its lease. -/
def overrun : Threads Platform (Fin 2) Progress :=
  run (Threads.step (act sweeper)) (started .empty 0) (sweeping ++ following (30 * 1000000000 + 1))

/-- The second process begins another sweep. -/
theorem sweeps_overlap : (overrun.own 0).inJob = true ∧ (overrun.own 1).inJob = true := by
  decide

end LiteAIG.Coordination
