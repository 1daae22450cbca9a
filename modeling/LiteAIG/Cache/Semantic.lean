/-
The index behind the semantic cache.

The index in memory keeps vectors in collections.  A collection is named by a text
that is put together from the identifiers of its key, and one map holds the entries
of all collections, under the name of the collection and the source key.  The entries
are in the order of their last write, and the last ones go when there are too many.
Scores are double precision numbers, of which only that one is exact is used.  The
order in which a search walks over a Go map is an input, and so is the clock, read
once a call.
-/
import LiteAIG.Cache.Store
import LiteAIG.Lib.Assoc

namespace LiteAIG.Cache

open Lib

/-- Double precision numbers, with what the index does with them. -/
class Float64 (F : Type) where
  (zero one nan : F)
  add : F → F → F
  mul : F → F → F
  div : F → F → F
  sqrt : F → F
  isZero : F → Bool
  isNaN : F → Bool
  greater : F → F → Bool
  zero_add_one : add zero one = one
  one_mul_one : mul one one = one
  one_div_one : div one one = one
  sqrt_one : sqrt one = one
  isZero_one : isZero one = false
  isNaN_one : isNaN one = false
  isNaN_nan : isNaN nan = true

open Float64

structure SemanticKey where
  (tenantID projectID model : String)
  (dimension version : Int)
  /-- The exact cache key whose response the vector represents. -/
  sourceKey : String

/-- `Namespace`. -/
def SemanticKey.nameSpace (k : SemanticKey) : String :=
  "semantic:" ++ k.tenantID ++ ":" ++ k.projectID ++ ":" ++ k.model ++ ":dim:" ++
    itoa k.dimension ++
    ":ver:" ++ itoa k.version

def semanticMapKey (nameSpace sourceKey : String) : String := nameSpace ++ "\x00" ++ sourceKey

structure Candidate (F : Type) where
  sourceKey : String
  score : F

structure MemorySemanticConfig where
  (capacity ttl : Int)

structure SemanticEntry (F : Type) where
  (nameSpace sourceKey : String)
  vector : List F
  storedAt : Int

/-- The key of an entry in the map. -/
def SemanticEntry.mapKey {F : Type} (e : SemanticEntry F) : String :=
  semanticMapKey e.nameSpace e.sourceKey

/-- The entries, the one written last in front. -/
structure MemorySemanticStore (F : Type) where
  capacity : Nat
  ttl : Int
  entries : List (SemanticEntry F)

/-- The order in which a map is walked over. -/
structure MapOrder (α : Type) where
  walk : List α → List α
  perm : ∀ items, (walk items).Perm items

/-- The cosine of two vectors. -/
def cosine {F : Type} [Float64 F] (a b : List F) : F :=
  if a.length ≠ b.length ∨ a.length = 0 then nan
  else
    let dot := (a.zip b).foldl (fun s e => add s (mul e.1 e.2)) zero
    let normA := a.foldl (fun s x => add s (mul x x)) zero
    let normB := b.foldl (fun s y => add s (mul y y)) zero
    if isZero normA || isZero normB then nan else div dot (mul (sqrt normA) (sqrt normB))

/-- A candidate moves to the front past the lower ones.  The list is given from its end. -/
def insertBack {F : Type} [Float64 F] (c : Candidate F) : List (Candidate F) → List (Candidate F)
  | [] => [c]
  | d :: rest => if greater c.score d.score then d :: insertBack c rest else c :: d :: rest

namespace MemorySemanticStore

variable {F : Type}

def new (config : MemorySemanticConfig) : MemorySemanticStore F :=
  ⟨if config.capacity ≤ 0 then 1024 else config.capacity.toNat, config.ttl, []⟩

variable (s : MemorySemanticStore F)

/-- `Put`.  An entry that is there keeps its collection and its source key. -/
def put (key : SemanticKey) (vector : List F) (now : Int) :
    MemorySemanticStore F :=
  let mapKey := semanticMapKey key.nameSpace key.sourceKey
  match s.entries.find? (·.mapKey = mapKey) with
  | some entry =>
    { s with entries := { entry with vector, storedAt := now } ::
        s.entries.filter (·.mapKey ≠ mapKey) }
  | none =>
    { s with entries := (⟨key.nameSpace, key.sourceKey, vector, now⟩ :: s.entries).take s.capacity }

def expired (now : Int) (entry : SemanticEntry F) : Bool :=
  s.ttl > 0 && now - entry.storedAt > s.ttl

/-- The vectors of a collection, by source key. -/
def vectors (nameSpace : String) (now : Int) : Assoc String (List F) :=
  (s.entries.filter fun e => e.nameSpace = nameSpace && !s.expired now e).foldl
    (fun vectors e => vectors.insert e.sourceKey e.vector) .empty

/-- The vectors that can be compared with the query, the closest ones first. -/
def rank [Float64 F] (query : List F) (limit : Nat) (vectors : List (String × List F)) :
    List (Candidate F) :=
  let scored := vectors.filterMap fun e =>
    let score := cosine query e.2
    if isNaN score then none else some ⟨e.1, score⟩
  (scored.foldl (fun best c => insertBack c best) []).reverse.take limit

/-- `Search`. -/
def search [Float64 F] (s : MemorySemanticStore F) (order : MapOrder (String × List F))
    (key : SemanticKey) (query : List F) (limit now : Int) :
    Except String (List (Candidate F)) × MemorySemanticStore F :=
  if limit ≤ 0 then (.error "search limit must be positive", s)
  else
    (.ok (rank query limit.toNat (order.walk (s.vectors key.nameSpace now).entries)),
      { s with entries := s.entries.filter fun e =>
          !(e.nameSpace = key.nameSpace && s.expired now e) })

end MemorySemanticStore

/-- One call. -/
inductive SemanticCall (F : Type)
  | put (key : SemanticKey) (vector : List F) (now : Int)
  | search (order : MapOrder (String × List F)) (key : SemanticKey) (query : List F)
    (limit now : Int)

def MemorySemanticStore.step {F : Type} [Float64 F] (s : MemorySemanticStore F) :
    SemanticCall F → MemorySemanticStore F
  | .put key vector now => s.put key vector now
  | .search order key query limit now => (s.search order key query limit now).2

end LiteAIG.Cache
