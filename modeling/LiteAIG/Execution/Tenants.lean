/-
The one breaker of the gateway, as the requests of its tenants use it.

Every request begins by setting the breaker's parameters to those of its tenant's
snapshot, and goes on to ask and to report about the tuples of its own deployments.
The parameters are one field of the breaker: what a request finds there later is what
the last request of any tenant has set.
-/
import LiteAIG.Execution.Circuit
import LiteAIG.Runtime.Snapshot

namespace LiteAIG.Execution

open Lib

def breakerConfigFromSnapshot (cc : Runtime.CircuitConfig) : CircuitConfig :=
  if cc.minSamples = 0 then .default
  else
    let cooldown := wrap64 (cc.initialCooldownMS * 1000000)
    let maxCooldown := wrap64 (cc.maxCooldownMS * 1000000)
    let errorRate := if cc.errorRate ≤ 0 then CircuitConfig.default.errorRate else cc.errorRate
    let cooldown := if cooldown ≤ 0 then CircuitConfig.default.cooldown else cooldown
    let maxCooldown := if maxCooldown ≤ 0 then cooldown else maxCooldown
    ⟨cc.minSamples, errorRate, cooldown, cc.cooldownFactor, maxCooldown, false⟩

/-- What a request does with the breaker. -/
inductive CircuitUse
  /-- The request begins. -/
  | begin (cc : Runtime.CircuitConfig)
  | open (deploymentID credentialID : String) (now : Int)
  | allow (deploymentID credentialID : String) (now : Int)
  | record (deploymentID credentialID : String) (success : Bool) (now : Int)

structure TenantUse where
  tenantID : String
  use : CircuitUse

def Breaker.use (b : Breaker) : CircuitUse → Breaker
  | .begin cc => b.setConfig (breakerConfigFromSnapshot cc)
  | .open _ _ _ => b
  | .allow d c now => (b.allow d c now).2
  | .record d c success now => b.record d c success now

/-- What the request is told. -/
def Breaker.tells (b : Breaker) : CircuitUse → Option Bool
  | .begin _ | .record _ _ _ _ => none
  | .open d c now => some (b.open d c now)
  | .allow d c now => some (b.allow d c now).1

end LiteAIG.Execution
