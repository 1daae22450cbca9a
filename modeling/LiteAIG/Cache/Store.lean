/-
The stores behind the exact cache.

An entry is an encoded response with the time it was stored and how long it may be
served.  The store in memory keeps the entries in the order of their last use and
drops the last ones when it is full; the store on Redis leaves the end of an entry to
the server.  Beside each response stands the time its provider produced it, which no
operation reads.  Times are nanoseconds.
-/
import LiteAIG.Lib.Int64
import LiteAIG.Lib.Text

namespace LiteAIG.Cache

open Lib

structure Key where
  (tenantID projectID logicalModel : String)
  /-- The JSON of the request. -/
  normalizedRequest : String
  namespaceVersion : Int

/-- The negative of the smallest integer is the smallest integer, and has no digits. -/
def itoa (v : Int) : String := if v = -2 ^ 63 then "-" else toString v

def Key.string (sha256 : List UInt8 → List UInt8) (k : Key) : String :=
  let raw := k.tenantID ++ "\x00" ++ k.projectID ++ "\x00" ++ k.logicalModel ++ "\x00" ++
    k.normalizedRequest ++ "\x00" ++ itoa k.namespaceVersion
  "cache:" ++ k.tenantID ++ ":" ++ k.projectID ++ ":" ++
    String.ofList (hexEncode (sha256 (utf8 raw)))

structure Entry (β : Type) where
  response : β
  (storedAt ttl : Int)
  /-- When the provider produced the response. -/
  producedAt : Int

/-- A replaceable store: what it answers for a key at a time, and how it is changed. -/
class Store (σ : Type) (β : outParam Type) where
  get : σ → String → Int → Option (Entry β) × σ
  put : σ → String → Entry β → σ
  delete : σ → String → σ

/-! ### In memory -/

/-- The entries, the one used last in front. -/
structure MemoryStore (β : Type) where
  capacity : Nat
  items : List (String × Entry β)

namespace MemoryStore

variable {β : Type}

def new (capacity : Int) : MemoryStore β := ⟨if capacity ≤ 0 then 1024 else capacity.toNat, []⟩

variable (s : MemoryStore β) (key : String)

def find : Option (Entry β) :=
  (s.items.find? (·.1 = key)).map Prod.snd

def remove : MemoryStore β :=
  { s with items := s.items.filter (·.1 ≠ key) }

/-- An entry of a key goes to the front. -/
def front (entry : Entry β) : MemoryStore β :=
  { s with items := (key, entry) :: s.items.filter (·.1 ≠ key) }

def get (now : Int) : Option (Entry β) × MemoryStore β :=
  match s.find key with
  | none => (none, s)
  | some entry =>
    if entry.ttl > 0 ∧ now - entry.storedAt > entry.ttl then (none, s.remove key)
    else (some entry, s.front key entry)

def put (entry : Entry β) : MemoryStore β :=
  let s := s.front key entry
  { s with items := s.items.take s.capacity }

instance store : Store (MemoryStore β) β := ⟨get, put, remove⟩

end MemoryStore

/-! ### On Redis -/

structure RedisStore (β : Type) where
  /-- Used where an entry has no time of its own. -/
  ttl : Int
  items : List (String × Entry β)

namespace RedisStore

variable {β : Type}

def new (ttl : Int) : RedisStore β := ⟨if ttl ≤ 0 then 3600 * 1000000000 else ttl, []⟩

variable (s : RedisStore β)

/-- How long the server keeps an entry from the time it is set. -/
def kept (entry : Entry β) : Int := if entry.ttl ≤ 0 then s.ttl else entry.ttl

def get (key : String) (now : Int) : Option (Entry β) × RedisStore β :=
  match s.items.find? (·.1 = key) with
  | none => (none, s)
  | some (_, entry) => if now < entry.storedAt + s.kept entry then (some entry, s) else (none, s)

def delete (key : String) : RedisStore β :=
  { s with items := s.items.filter (·.1 ≠ key) }

def put (key : String) (entry : Entry β) : RedisStore β :=
  { s with items := (key, entry) :: s.items.filter (·.1 ≠ key) }

instance store : Store (RedisStore β) β := ⟨get, put, delete⟩

end RedisStore

end LiteAIG.Cache
