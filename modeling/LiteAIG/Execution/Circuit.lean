/-
The circuit breaker, one state machine per deployment and credential.

A closed circuit admits calls and counts them; too many failures open it.  An open
circuit admits nothing until its cooldown is over, and the first call after that
makes it half open and is its probe.  While the probe is out nothing else is
admitted, and the next result that is recorded closes or reopens the circuit.
Times are nanoseconds since the Unix epoch; every call holds the entry's lock.
-/
import LiteAIG.Lib.Assoc
import LiteAIG.Lib.Float64
import LiteAIG.Lib.Int64

namespace LiteAIG.Execution

open Lib

/-- `other` is a text that a store may hold but the breaker never writes. -/
inductive CircuitState
  | closed | open | halfOpen | other
  deriving DecidableEq

structure CircuitConfig where
  minSamples : Int
  errorRate : ℚ
  cooldown : Int
  cooldownFactor : ℚ
  maxCooldown : Int
  /-- A store is configured. -/
  store : Bool
  deriving DecidableEq

def CircuitConfig.default : CircuitConfig :=
  ⟨20, 1 / 2, 30 * 1000000000, 2, 600 * 1000000000, false⟩

structure CircuitEntry where
  state : CircuitState
  (samples failures openedAt lastProbeAt : Int)
  probeTaken : Bool
  openCount : Int
  deriving DecidableEq

/-- The zero time, 1 January of year 1. -/
def zeroTime : Int := -62135596800 * 1000000000

def CircuitEntry.new : CircuitEntry := ⟨.closed, 0, 0, zeroTime, zeroTime, false, 0⟩

/-- What the observer is told; a reset has no target state. -/
structure Transition where
  (deploymentID credentialID : String)
  source : CircuitState
  target : Option CircuitState
  reason : String
  time : Int

/-- What the store keeps of an entry. -/
structure Fact where
  (deploymentID credentialID : String)
  state : CircuitState
  (openedAtMS lastProbeAtMS sampleCount failureCount openCount : Int)

structure Breaker where
  config : CircuitConfig
  entries : Assoc String CircuitEntry
  /-- The facts in the store, by key. -/
  facts : Assoc (String × String) Fact
  /-- What the observer was told, in order. -/
  transitions : List Transition

def Breaker.new (config : CircuitConfig) : Breaker := ⟨config, .empty, .empty, []⟩

def circuitKey (deploymentID credentialID : String) : String := deploymentID ++ ":" ++ credentialID

variable (b : Breaker)

/-- An entry that was never touched is a closed one. -/
def Breaker.get (deploymentID credentialID : String) : CircuitEntry :=
  (b.entries.lookup (circuitKey deploymentID credentialID)).getD .new

def Breaker.put (deploymentID credentialID : String) (item : CircuitEntry) : Breaker :=
  { b with entries := b.entries.insert (circuitKey deploymentID credentialID) item }

def Breaker.setConfig (config : CircuitConfig) : Breaker := { b with config }

/-- `float64(cooldown) * factor` -/
def floatMul (cooldown : Int) (factor : ℚ) : ℚ := toFloat64 (toFloat64 cooldown * factor)

/-- `cooldown *= factor`, once per opening after the first. -/
def scaled (factor : ℚ) : Nat → Int → Int
  | 0, cooldown => cooldown
  | n + 1, cooldown => scaled factor n (toInt64 (floatMul cooldown factor))

def CircuitConfig.cooldownFor (cfg : CircuitConfig) (openCount : Int) : Int :=
  let openCount := if openCount ≤ 0 then 1 else openCount
  let cooldown :=
    if cfg.cooldownFactor > 1 then scaled cfg.cooldownFactor (openCount - 1).toNat cfg.cooldown
    else cfg.cooldown
  let cooldown := if cfg.maxCooldown > 0 ∧ cooldown > cfg.maxCooldown then cfg.maxCooldown
    else cooldown
  if cooldown ≤ 0 then cfg.cooldown else cooldown

/-- The cooldown of an open entry is not over. -/
def Breaker.cooling (item : CircuitEntry) (now : Int) : Bool :=
  now - item.openedAt < b.config.cooldownFor item.openCount

/-- The tuple is excluded from routing. -/
def Breaker.open (deploymentID credentialID : String) (now : Int) : Bool :=
  let item := b.get deploymentID credentialID
  item.state = .open && b.cooling item now

def CircuitEntry.fact (item : CircuitEntry) (deploymentID credentialID : String) : Fact :=
  ⟨deploymentID, credentialID, item.state, item.openedAt / 1000000, item.lastProbeAt / 1000000,
    item.samples, item.failures, item.openCount⟩

/-- Store an entry as it stands and tell the observer. -/
def Breaker.notifyLocked (deploymentID credentialID : String) (source target : CircuitState)
    (reason : String) (now : Int) : Breaker :=
  { b with
    facts :=
      if b.config.store then
        b.facts.insert (deploymentID, credentialID)
          ((b.get deploymentID credentialID).fact deploymentID credentialID)
      else b.facts
    transitions :=
      b.transitions ++ [⟨deploymentID, credentialID, source, some target, reason, now⟩] }

/-- `Start`: the entries as the store has them; a probe that was out is forgotten. -/
def Breaker.start : Breaker :=
  if b.config.store then
    (b.facts.entries.map Prod.snd).foldl
      (fun b fact =>
        b.put fact.deploymentID fact.credentialID
          { b.get fact.deploymentID fact.credentialID with
            state := fact.state
            samples := fact.sampleCount
            failures := fact.failureCount
            openCount := fact.openCount
            openedAt := fact.openedAtMS * 1000000
            lastProbeAt := fact.lastProbeAtMS * 1000000 })
      b
  else b

/-- The probe of a half-open entry is given out. -/
def CircuitEntry.takeProbe (item : CircuitEntry) (now : Int) : CircuitEntry :=
  { item with lastProbeAt := now, probeTaken := true }

def Breaker.allow (deploymentID credentialID : String) (now : Int) : Bool × Breaker :=
  let item := b.get deploymentID credentialID
  match item.state with
  | .closed => (true, b)
  | .open =>
    if b.cooling item now then (false, b)
    else
      let item := { item with state := .halfOpen }
      let b := (b.put deploymentID credentialID item).notifyLocked deploymentID credentialID
        .open .halfOpen "cooldown_elapsed" now
      (true, b.put deploymentID credentialID (item.takeProbe now))
  | .halfOpen | .other =>
    if item.probeTaken then (false, b)
    else (true, b.put deploymentID credentialID (item.takeProbe now))

/-- One more sample. -/
def CircuitEntry.sampled (item : CircuitEntry) (success : Bool) : CircuitEntry :=
  { item with
    samples := item.samples + 1
    failures := if success then item.failures else item.failures + 1 }

def Breaker.record (deploymentID credentialID : String) (success : Bool) (now : Int) : Breaker :=
  let item := b.get deploymentID credentialID
  match item.state with
  | .halfOpen =>
    if success then
      let item := { item with
        state := .closed, samples := 0, failures := 0, openCount := 0, probeTaken := false }
      (b.put deploymentID credentialID item).notifyLocked deploymentID credentialID
        .halfOpen .closed "" now
    else
      let item := { item with
        openCount := item.openCount + 1, openedAt := now, probeTaken := false, state := .open }
      (b.put deploymentID credentialID item).notifyLocked deploymentID credentialID
        .halfOpen .open "" now
  | .open => b
  | .closed | .other =>
    let item := item.sampled success
    if item.samples ≥ b.config.minSamples ∧
        toFloat64 (toFloat64 item.failures / toFloat64 item.samples) > b.config.errorRate then
      let item := { item with openCount := 1, openedAt := now, probeTaken := false, state := .open }
      (b.put deploymentID credentialID item).notifyLocked deploymentID credentialID
        .closed .open "" now
    else b.put deploymentID credentialID item

def Breaker.reset (deploymentID credentialID : String) (now : Int) : Breaker :=
  let item := b.get deploymentID credentialID
  { b with
    entries := b.entries.erase (circuitKey deploymentID credentialID)
    facts := if b.config.store then b.facts.erase (deploymentID, credentialID) else b.facts
    transitions :=
      if item.state = .closed then b.transitions
      else b.transitions ++ [⟨deploymentID, credentialID, item.state, none, "drift", now⟩] }

end LiteAIG.Execution
