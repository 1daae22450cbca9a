/-
Who decides a half-open circuit.

The calls on one tuple are numbered as they are admitted and report in any order.  An
entry becomes half open in the `Allow` that admits its probe, and admits nothing more
until something is recorded, so a half-open window has at most one call of its own.
But `Record` does not say whose call it reports: a call that was admitted before the
circuit opened and reports while it is half open decides it in the probe's place.
-/
import LiteAIG.Lib.Run
import LiteAIG.Execution.Circuit

namespace LiteAIG.Execution

open Lib Breaker

/-! ### One entry -/

section

variable {b : Breaker} {d c : String} {item : CircuitEntry}

@[simp] theorem get_put : (b.put d c item).get d c = item := by
  simp [Breaker.get, Breaker.put]

@[simp] theorem get_notifyLocked (source target : CircuitState) (reason : String) (now : Int) :
    (b.notifyLocked d c source target reason now).get d c = b.get d c := rfl

/-- `Allow` on a half-open entry: the probe goes to the first that asks. -/
theorem allow_halfOpen (now : Int) (hs : (b.get d c).state = .halfOpen) :
    (b.allow d c now).1 = !(b.get d c).probeTaken ∧
      ((b.allow d c now).2.get d c).state = .halfOpen ∧
      ((b.allow d c now).2.get d c).probeTaken = true := by
  unfold allow
  simp only [hs]
  cases hp : (b.get d c).probeTaken with
  | true => exact ⟨rfl, hs, hp⟩
  | false => simpa [CircuitEntry.takeProbe] using hs

variable {now : Int}

/-- An entry that `Allow` makes half open has just admitted its probe. -/
theorem allow_becomes_halfOpen (hst : (b.get d c).state ≠ .halfOpen)
    (ha : ((b.allow d c now).2.get d c).state = .halfOpen) :
    (b.allow d c now).1 = true ∧ ((b.allow d c now).2.get d c).probeTaken = true := by
  unfold allow at ha ⊢
  cases hs : (b.get d c).state with
  | halfOpen => exact absurd hs hst
  | closed =>
    simp only [hs] at ha
    cases ha
  | «open» =>
    simp only [hs] at ha ⊢
    by_cases hc : b.cooling (b.get d c) now = true
    · rw [if_pos hc] at ha
      exact absurd (hs.symm.trans ha) (by decide)
    · rw [if_neg hc]
      simp [CircuitEntry.takeProbe]
  | other =>
    simp only [hs] at ha
    by_cases hp : (b.get d c).probeTaken = true
    · rw [if_pos hp] at ha
      exact absurd (hs.symm.trans ha) (by decide)
    · rw [if_neg hp, get_put] at ha
      exact absurd (hs.symm.trans ha) (by decide)

theorem record_not_halfOpen {success : Bool} :
    ((b.record d c success now).get d c).state ≠ .halfOpen := by
  unfold record
  cases hs : (b.get d c).state with
  | halfOpen => cases success <;> simp [hs]
  | «open» => simp [hs]
  | closed | other =>
    have hsa : ((b.get d c).sampled success).state ≠ .halfOpen := by
      simp [CircuitEntry.sampled, hs]
    simp only [hs]
    split
    · simp
    · simpa using hsa

end

/-! ### Calls on one tuple -/

structure Calls where
  breaker : Breaker
  /-- The number of the next call that is admitted. -/
  next : Nat
  /-- The calls that were admitted and have not reported. -/
  out : List Nat
  /-- Of a half-open circuit, the calls admitted since it became half open. -/
  since : List Nat

inductive CallStep
  | allow (now : Int)
  | record (call : Nat) (success : Bool) (now : Int)
  | setConfig (config : CircuitConfig)

def Calls.state (s : Calls) (d c : String) : CircuitState := (s.breaker.get d c).state

/-- A call that was admitted reports once, at any later time. -/
def Calls.step (d c : String) (s : Calls) : CallStep → Calls
  | .allow now =>
    let (admitted, breaker) := s.breaker.allow d c now
    if admitted then
      { breaker
        next := s.next + 1
        out := s.next :: s.out
        since := if s.state d c = .halfOpen then s.next :: s.since else [s.next] }
    else { s with breaker }
  | .record call success now =>
    if call ∈ s.out then
      { s with breaker := s.breaker.record d c success now, out := s.out.erase call }
    else s
  | .setConfig config => { s with breaker := s.breaker.setConfig config }

/-- A breaker started on what its store holds. -/
def Calls.start (config : CircuitConfig) (facts : Assoc (String × String) Fact) : Calls :=
  ⟨Breaker.start ⟨config, .empty, facts, []⟩, 0, [], []⟩

/-- A half-open circuit has admitted at most one call since it became so, and the step leaves it
half open unless it is the `Record` of that call. -/
def Calls.Decides (d c : String) (s : Calls) (a : CallStep) : Prop :=
  s.state d c = .halfOpen →
    s.since.length ≤ 1 ∧
      ((s.step d c a).state d c ≠ .halfOpen →
        ∃ call success now, a = .record call success now ∧ s.since = [call])

/-- A call that reports to a half-open circuit was admitted since it became half open. -/
def Calls.Timely (d c : String) (s : Calls) : CallStep → Prop
  | .record call _ _ => call ∈ s.out → s.state d c = .halfOpen → call ∈ s.since
  | .allow _ | .setConfig _ => True

section

variable {d c : String} {s : Calls}

/-- A half-open circuit has its probe out, or nobody asked yet. -/
def Calls.Probed (d c : String) (s : Calls) : Prop :=
  s.state d c = .halfOpen →
    (s.breaker.get d c).probeTaken = false ∧ s.since = [] ∨
      (s.breaker.get d c).probeTaken = true ∧ ∃ call, s.since = [call]

theorem step_allow_admitted (h : (s.breaker.allow d c now).1) :
    s.step d c (.allow now) =
      { breaker := (s.breaker.allow d c now).2
        next := s.next + 1
        out := s.next :: s.out
        since := if s.state d c = .halfOpen then s.next :: s.since else [s.next] } := by
  simp [Calls.step, h]

theorem step_allow_refused (h : (s.breaker.allow d c now).1 = false) :
    s.step d c (.allow now) = { s with breaker := (s.breaker.allow d c now).2 } := by
  simp [Calls.step, h]

theorem step_allow_breaker (s : Calls) (now : Int) :
    (s.step d c (.allow now)).breaker = (s.breaker.allow d c now).2 := by
  cases h : (s.breaker.allow d c now).1 with
  | true => rw [step_allow_admitted h]
  | false => rw [step_allow_refused h]

theorem Calls.Probed.step (hp : s.Probed d c) (a : CallStep) : (s.step d c a).Probed d c := by
  cases a with
  | allow now =>
    intro ha
    rw [Calls.state, step_allow_breaker] at ha
    rw [step_allow_breaker]
    by_cases hs : (s.breaker.get d c).state = .halfOpen
    · obtain ⟨had, -, ht⟩ := allow_halfOpen now hs
      refine .inr ⟨ht, ?_⟩
      rcases hp hs with ⟨hpr, hsi⟩ | ⟨hpr, hsi⟩
      · rw [step_allow_admitted (by rw [had, hpr]; rfl)]
        exact ⟨s.next, by simp [Calls.state, hs, hsi]⟩
      · rw [step_allow_refused (by rw [had, hpr]; rfl)]
        exact hsi
    · obtain ⟨had, ht⟩ := allow_becomes_halfOpen hs ha
      refine .inr ⟨ht, s.next, ?_⟩
      rw [step_allow_admitted had]
      exact if_neg hs
  | record call success now =>
    by_cases ho : call ∈ s.out
    · intro ha
      rw [Calls.state, Calls.step, if_pos ho] at ha
      exact absurd ha record_not_halfOpen
    · rw [Calls.step, if_neg ho]
      exact hp
  | setConfig config => exact hp

/-- A `Record` decides a half-open circuit, whoever makes it. -/
theorem Calls.Probed.decides_iff (hp : s.Probed d c) (a : CallStep) :
    s.Decides d c a ↔ s.Timely d c a := by
  have ho : s.state d c = .halfOpen → s.since.length ≤ 1 := by
    intro hs
    rcases hp hs with ⟨-, hsi⟩ | ⟨-, call, hsi⟩ <;> simp [hsi]
  cases a with
  | allow now =>
    refine iff_of_true (fun hs => ⟨ho hs, fun hl => ?_⟩) trivial
    rw [Calls.state, step_allow_breaker] at hl
    exact absurd (allow_halfOpen _ hs).2.1 hl
  | setConfig config =>
    exact iff_of_true (fun hs => ⟨ho hs, fun hl => absurd hs hl⟩) trivial
  | record call success now =>
    by_cases hou : call ∈ s.out
    · have hl : (s.step d c (.record call success now)).state d c ≠ .halfOpen := by
        rw [Calls.state, Calls.step, if_pos hou]
        exact record_not_halfOpen
      constructor
      · intro hd _ hs
        obtain ⟨call', _, _, heq, hsi⟩ := (hd hs).2 hl
        obtain ⟨rfl, -, -⟩ := CallStep.record.inj heq
        simp [hsi]
      · intro ht hs
        refine ⟨ho hs, fun _ => ⟨call, success, now, rfl, ?_⟩⟩
        have hm := ht hou hs
        rcases hp hs with ⟨-, hsi⟩ | ⟨-, probe, hsi⟩
        · simp [hsi] at hm
        · rw [hsi, List.mem_singleton] at hm
          rw [hsi, hm]
    · refine iff_of_true (fun hs => ⟨ho hs, fun hl => ?_⟩) fun h => absurd h hou
      rw [Calls.step, if_neg hou] at hl
      exact absurd hs hl

theorem start_probeTaken (config : CircuitConfig) (facts : Assoc (String × String) Fact)
    (d c : String) :
    ((start ⟨config, .empty, facts, []⟩).get d c).probeTaken = false := by
  unfold start
  split
  · refine List.foldlRecOn (motive := fun b : Breaker => ∀ d c, (b.get d c).probeTaken = false)
      _ _ (fun _ _ => rfl) (fun b hb fact _ d' c' => ?_) d c
    by_cases hk : circuitKey d' c' = circuitKey fact.deploymentID fact.credentialID
    · simp only [Breaker.get, Breaker.put, hk, Assoc.lookup_insert_self, Option.getD_some]
      exact hb fact.deploymentID fact.credentialID
    · simp only [Breaker.get, Breaker.put, Assoc.lookup_insert_ne hk]
      exact hb d' c'
  · rfl

end

/-- **A half-open circuit is decided by its probe exactly in the runs in which no call from before
reports to it.**  That it admits one call at most holds in every run. -/
theorem probe_decides_iff (d c : String) (config : CircuitConfig)
    (facts : Assoc (String × String) Fact) (steps : List CallStep) :
    Allowed (Calls.step d c) (Calls.Decides d c) (.start config facts) steps ↔
      Allowed (Calls.step d c) (Calls.Timely d c) (.start config facts) steps := by
  refine allowed_congr_of_invariant (I := Calls.Probed d c) (fun _ a hp => hp.decides_iff a)
    (fun _ a hp _ => hp.step a) steps _ ?_
  exact fun _ => .inl ⟨start_probeTaken config facts d c, rfl⟩

/-- Two calls are admitted, the first fails and opens the circuit, and the third is the probe. -/
def lateSteps : List CallStep :=
  [.allow 0, .allow 0, .record 0 false 0, .allow 1]

/-- The second call was admitted while the circuit was closed.  It reports while the probe is out
and closes the circuit. -/
theorem late_record_closes_circuit :
    let s := run (Calls.step "d" "c") (.start ⟨1, 0, 1, 1, 0, false⟩ .empty) lateSteps
    s.state "d" "c" = .halfOpen ∧ s.since = [2] ∧ s.out = [2, 1] ∧
      (s.step "d" "c" (.record 1 true 1)).state "d" "c" = .closed := by
  decide +kernel

end LiteAIG.Execution
