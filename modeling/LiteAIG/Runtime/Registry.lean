/-
The snapshots that are live, by tenant reference.

Activating puts a snapshot under the reference it is given, whatever was there: the
registry compares neither tenants nor versions.
-/
import LiteAIG.Runtime.Snapshot

namespace LiteAIG.Runtime

open Lib

structure ActiveRegistry where
  tenants : Assoc String TenantRuntimeSnapshot

namespace ActiveRegistry

def new : ActiveRegistry := ⟨.empty⟩

variable (r : ActiveRegistry)

def tenant (ref : String) : Option TenantRuntimeSnapshot := r.tenants.lookup ref

def activateTenant (ref : String) (snapshot : TenantRuntimeSnapshot) :
    ActiveRegistry := ⟨r.tenants.insert ref snapshot⟩

/-- The snapshot of a tenant that a walk over the references comes to first.  The order of the walk
is the map's. -/
def tenantByID (order : List String) (tenantID : String) :
    Option TenantRuntimeSnapshot :=
  order.findSome? fun ref => (r.tenant ref).filter (·.tenantID = tenantID)

@[simp] theorem tenant_activateTenant_self (ref : String) (snapshot : TenantRuntimeSnapshot) :
    (r.activateTenant ref snapshot).tenant ref = some snapshot := Assoc.lookup_insert_self

end ActiveRegistry

end LiteAIG.Runtime
