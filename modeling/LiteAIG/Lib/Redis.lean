/-
A keyspace with deadlines, and the commands scripts are made of.

A key holds a number, a hash or a sorted set, and may carry a deadline: it is
there up to and including that server time, and gone after it.  Every command
looks at a key through `live`, so an entry past its deadline is an absent one and
writing to it starts afresh.  A hash is a record of type `ν` whose fields are
options; reading a field is a projection and writing fields is an update.

A script runs at one server time.  A command on a key of another type fails the
script, and what was written before stays written: that is why a script returns
the keyspace with the error and not instead of it.  `Runs` says that a script
goes through, and the rules about it take a script apart command by command.
-/
import Mathlib

namespace Lib.Redis

open Function

inductive Value (ν μ : Type)
  | num (q : ℚ)
  | hash (fields : ν)
  | zset (members : List (μ × Int))

structure Entry (ν μ : Type) where
  value : Value ν μ
  deadline : Option Int

variable {κ ν μ α β : Type} {e : Entry ν μ} {d : Option Int}

/-- An entry is there up to its deadline, that moment included. -/
def Entry.alive (now : Int) (e : Entry ν μ) : Bool :=
  match e.deadline with
  | none => true
  | some d => decide (now ≤ d)

abbrev Keyspace (κ ν μ : Type) := κ → Option (Entry ν μ)

/-- What a command finds under a key. -/
def live (now : Int) (db : Keyspace κ ν μ) (k : κ) : Option (Entry ν μ) :=
  (db k).filter (Entry.alive now)

/-- A command was used on a key of another type. -/
inductive Error
  | wrongType
  deriving DecidableEq

def Script (κ ν μ α : Type) := Keyspace κ ν μ → Except Error α × Keyspace κ ν μ

instance : Monad (Script κ ν μ) where
  pure a := fun db => (.ok a, db)
  bind x f := fun db =>
    match x db with
    | (.ok a, db') => f a db'
    | (.error e, db') => (.error e, db')

section

variable (now : Int)

/-- `GET`, read as a number. -/
def get (k : κ) : Script κ ν μ (Option ℚ) := fun db =>
  match live now db k with
  | none => (.ok none, db)
  | some ⟨.num q, _⟩ => (.ok (some q), db)
  | some _ => (.error .wrongType, db)

/-- `HGET` of the field `proj` picks. -/
def hget (k : κ) (proj : ν → Option α) : Script κ ν μ (Option α) := fun db =>
  match live now db k with
  | none => (.ok none, db)
  | some ⟨.hash fields, _⟩ => (.ok (proj fields), db)
  | some _ => (.error .wrongType, db)

/-- `ZRANGEBYSCORE k -inf max LIMIT 0 count`: by score, members of one score in their order. -/
def zrangeByScore (le : μ → μ → Bool) (k : κ) (max : Int) (count : Nat) :
    Script κ ν μ (List μ) := fun db =>
  match live now db k with
  | none => (.ok [], db)
  | some ⟨.zset members, _⟩ =>
    let due := members.filter (·.2 ≤ max)
    let sorted := due.mergeSort fun a b => decide (a.2 < b.2) || (decide (a.2 = b.2) && le a.1 b.1)
    (.ok ((sorted.take count).map Prod.fst), db)
  | some _ => (.error .wrongType, db)

variable [DecidableEq κ]

/-- `SET`, with `PX` when a time to live is given; without one the key keeps none. -/
def set (k : κ) (q : ℚ) (ttl : Option Int) : Script κ ν μ Unit := fun db =>
  (.ok (), Function.update db k (some ⟨.num q, ttl.map (now + ·)⟩))

/-- `INCRBYFLOAT`: an absent key counts from zero, a present one keeps its deadline. -/
def incrByFloat (k : κ) (delta : ℚ) : Script κ ν μ Unit := fun db =>
  match live now db k with
  | none => (.ok (), Function.update db k (some ⟨.num delta, none⟩))
  | some ⟨.num q, d⟩ => (.ok (), Function.update db k (some ⟨.num (q + delta), d⟩))
  | some _ => (.error .wrongType, db)

/-- `HSET` of the fields `upd` writes; an absent key starts as the `empty` hash. -/
def hset (empty : ν) (k : κ) (upd : ν → ν) : Script κ ν μ Unit := fun db =>
  match live now db k with
  | none => (.ok (), Function.update db k (some ⟨.hash (upd empty), none⟩))
  | some ⟨.hash fields, d⟩ => (.ok (), Function.update db k (some ⟨.hash (upd fields), d⟩))
  | some _ => (.error .wrongType, db)

/-- `PEXPIRE`: the key has this long to live from now on. -/
def pexpire (k : κ) (ttl : Int) : Script κ ν μ Unit := fun db =>
  match live now db k with
  | none => (.ok (), db)
  | some e => (.ok (), Function.update db k (some { e with deadline := some (now + ttl) }))

variable [DecidableEq μ]

/-- A sorted set with the score of one member set. -/
def addMember (members : List (μ × Int)) (score : Int) (m : μ) : List (μ × Int) :=
  members.filter (·.1 ≠ m) ++ [(m, score)]

def zadd (k : κ) (score : Int) (m : μ) : Script κ ν μ Unit := fun db =>
  match live now db k with
  | none => (.ok (), Function.update db k (some ⟨.zset [(m, score)], none⟩))
  | some ⟨.zset members, d⟩ =>
    (.ok (), Function.update db k (some ⟨.zset (addMember members score m), d⟩))
  | some _ => (.error .wrongType, db)

/-- `ZREM`; a set that loses its last member is no longer there. -/
def zrem (k : κ) (m : μ) : Script κ ν μ Unit := fun db =>
  match live now db k with
  | none => (.ok (), db)
  | some ⟨.zset members, d⟩ =>
    let rest := members.filter (·.1 ≠ m)
    (.ok (), Function.update db k (if rest = [] then none else some ⟨.zset rest, d⟩))
  | some _ => (.error .wrongType, db)

end

/-! ### Scripts that go through -/

/-- From `db` the script returns `a` and leaves `db'`. -/
def Runs (s : Script κ ν μ α) (db : Keyspace κ ν μ) (a : α) (db' : Keyspace κ ν μ) : Prop :=
  s db = (.ok a, db')

theorem runs_pure (a : α) (db : Keyspace κ ν μ) : Runs (pure a : Script κ ν μ α) db a db := rfl

theorem Runs.bind {s : Script κ ν μ α} {f : α → Script κ ν μ β} {db db' db'' : Keyspace κ ν μ}
    {a : α} {b : β} (hs : Runs s db a db') (hf : Runs (f a) db' b db'') :
    Runs (s >>= f) db b db'' := by
  show (match s db with
    | (.ok a, db') => f a db'
    | (.error e, db') => (.error e, db')) = _
  rw [hs]
  exact hf

section

variable {now : Int} {db : Keyspace κ ν μ} {k : κ}

/-- The number under a key, if there is one. -/
def numberAt (now : Int) (db : Keyspace κ ν μ) (k : κ) : Option ℚ :=
  match live now db k with
  | some ⟨.num q, _⟩ => some q
  | _ => none

/-- The key is absent or holds a number. -/
def IsNumber (now : Int) (db : Keyspace κ ν μ) (k : κ) : Prop :=
  live now db k = none ∨ ∃ q d, live now db k = some ⟨.num q, d⟩

theorem runs_get (h : IsNumber now db k) : Runs (get now k) db (numberAt now db k) db := by
  unfold Runs get numberAt
  rcases h with h | ⟨q, d, h⟩ <;> simp [h]

theorem runs_hget {fields : ν} (h : live now db k = some ⟨.hash fields, d⟩)
    (proj : ν → Option α) : Runs (hget now k proj) db (proj fields) db := by
  unfold Runs hget
  rw [h]

theorem runs_hget_absent (h : live now db k = none) (proj : ν → Option α) :
    Runs (hget now k proj) db none db := by
  unfold Runs hget
  rw [h]

/-- The members of a sorted set; an absent key has none. -/
def membersAt (now : Int) (db : Keyspace κ ν μ) (k : κ) : List (μ × Int) :=
  match live now db k with
  | some ⟨.zset members, _⟩ => members
  | _ => []

/-- The key is absent or holds a sorted set. -/
def IsZset (now : Int) (db : Keyspace κ ν μ) (k : κ) : Prop :=
  live now db k = none ∨ ∃ ms d, live now db k = some ⟨.zset ms, d⟩

/-- What is returned are members whose score is not above `max`, in some order. -/
theorem runs_zrangeByScore (h : IsZset now db k) (le : μ → μ → Bool) (max : Int) (count : Nat) :
    ∃ sorted : List (μ × Int), sorted.Perm ((membersAt now db k).filter (·.2 ≤ max)) ∧
      Runs (zrangeByScore now le k max count) db ((sorted.take count).map Prod.fst) db := by
  unfold Runs zrangeByScore membersAt
  rcases h with h | ⟨ms, d, h⟩
  · exact ⟨[], by simp [h], by simp [h]⟩
  · simp only [h]
    exact ⟨_, List.mergeSort_perm _ _, rfl⟩

end

/-! ### What an update leaves alone -/

section

variable {now : Int} {db : Keyspace κ ν μ} {k k' : κ}

theorem live_eq_some :
    live now db k = some e ↔ db k = some e ∧ e.alive now = true :=
  Option.filter_eq_some_iff

theorem live_congr {db' : Keyspace κ ν μ} (h : db k = db' k) : live now db k = live now db' k := by
  unfold live
  rw [h]

variable [DecidableEq κ]

theorem live_update_ne (h : k' ≠ k) (e : Option (Entry ν μ)) :
    live now (update db k e) k' = live now db k' :=
  live_congr (update_of_ne h e db)

theorem live_update_self (h : e.alive now) :
    live now (update db k (some e)) k = some e := by
  unfold live
  rw [update_self, Option.filter_some, if_pos h]

end

/-! ### Commands that write -/

section

variable [DecidableEq κ] {now : Int} {db : Keyspace κ ν μ} {k : κ}

theorem runs_set (q : ℚ) (ttl : Option Int) :
    Runs (set now k q ttl) db () (update db k (some ⟨.num q, ttl.map (now + ·)⟩)) := rfl

/-- The deadline a key has now. -/
def deadlineAt (now : Int) (db : Keyspace κ ν μ) (k : κ) : Option Int :=
  (live now db k).bind Entry.deadline

/-- The keyspace after a counter was moved. -/
def moved (now : Int) (delta : ℚ) (db : Keyspace κ ν μ) (k : κ) : Keyspace κ ν μ :=
  Function.update db k
    (some ⟨.num ((numberAt now db k).getD 0 + delta), deadlineAt now db k⟩)

theorem runs_incrByFloat (h : IsNumber now db k) (delta : ℚ) :
    Runs (incrByFloat now k delta) db () (moved now delta db k) := by
  unfold Runs incrByFloat moved numberAt deadlineAt
  rcases h with h | ⟨q, d, h⟩ <;> simp [h]

theorem runs_hset {fields : ν} (h : live now db k = some ⟨.hash fields, d⟩)
    (empty : ν) (upd : ν → ν) :
    Runs (hset now empty k upd) db ()
      (update db k (some ⟨.hash (upd fields), d⟩)) := by
  unfold Runs hset
  rw [h]

theorem runs_hset_absent (h : live now db k = none) (empty : ν) (upd : ν → ν) :
    Runs (hset now empty k upd) db ()
      (update db k (some ⟨.hash (upd empty), none⟩)) := by
  unfold Runs hset
  rw [h]

theorem runs_pexpire (h : live now db k = some e) (ttl : Int) :
    Runs (pexpire now k ttl) db ()
      (update db k (some { e with deadline := some (now + ttl) })) := by
  unfold Runs pexpire
  rw [h]

variable [DecidableEq μ]

theorem runs_zadd (h : IsZset now db k) (score : Int) (m : μ) :
    Runs (zadd now k score m) db ()
      (update db k
        (some ⟨.zset (addMember (membersAt now db k) score m), deadlineAt now db k⟩)) := by
  unfold Runs zadd membersAt deadlineAt
  rcases h with h | ⟨ms, d, h⟩ <;> simp [h, addMember]

/-- What is under a key once a member was taken out of its sorted set. -/
def remaining (now : Int) (m : μ) (db : Keyspace κ ν μ) (k : κ) : Option (Entry ν μ) :=
  match live now db k with
  | some ⟨.zset members, d⟩ =>
    let rest := members.filter (·.1 ≠ m)
    if rest = [] then none else some ⟨.zset rest, d⟩
  | _ => db k

theorem runs_zrem (h : IsZset now db k) (m : μ) :
    Runs (zrem now k m) db () (update db k (remaining now m db k)) := by
  unfold Runs zrem remaining
  rcases h with h | ⟨ms, d, h⟩ <;> simp [h]

theorem live_remaining (h : IsZset now db k) (m : μ) :
    live now (update db k (remaining now m db k)) k
      = if (membersAt now db k).filter (·.1 ≠ m) = [] then none
        else some ⟨.zset ((membersAt now db k).filter (·.1 ≠ m)), deadlineAt now db k⟩ := by
  unfold remaining membersAt deadlineAt
  rcases h with h | ⟨ms, d, h⟩
  · simp only [h, update_eq_self]
    rfl
  · have ha := (live_eq_some.mp h).2
    simp only [h]
    split
    · unfold live
      rw [update_self]
      rfl
    · exact live_update_self ha

omit [DecidableEq κ] in
theorem alive_remaining {m : μ} (h : ∀ e, db k = some e → e.alive now = true)
    (he : remaining now m db k = some e) : e.alive now = true := by
  unfold remaining at he
  split at he
  · rename_i members d hl
    change (if members.filter (·.1 ≠ m) = [] then none else _) = some e at he
    split at he
    · simp at he
    · cases he
      exact (live_eq_some.mp hl).2
  · exact h e he

theorem isZset_remaining (h : IsZset now db k) (m : μ) :
    IsZset now (update db k (remaining now m db k)) k := by
  unfold IsZset
  rw [live_remaining h]
  split
  · exact Or.inl rfl
  · exact Or.inr ⟨_, _, rfl⟩

theorem membersAt_remaining (h : IsZset now db k) (m : μ) :
    membersAt now (update db k (remaining now m db k)) k
      = (membersAt now db k).filter (·.1 ≠ m) := by
  rw [membersAt, live_remaining h]
  by_cases hr : (membersAt now db k).filter (·.1 ≠ m) = []
  · rw [if_pos hr, hr]
  · rw [if_neg hr]

end

end Lib.Redis
