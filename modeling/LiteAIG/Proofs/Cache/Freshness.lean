/-
How old an answer from a cache can be.

A store serves an entry until its TTL is over, counted from the time it was stored.
The provider produced the answer before that, and how long before is the lag of the
write-back.  For an answer of the provider that is the time the rest of the pipeline
takes.  An answer of the semantic cache is written back too, and brings its whole age
with it.
-/
import LiteAIG.Cache.Handler

namespace LiteAIG.Cache

open Lib LiteAIG.Runtime List

/-! ### What a store serves -/

/-- What a store may answer for a key comes from the entries it was given, and is not older than
its TTL. -/
class LawfulStore (σ : Type) (β : outParam Type) [Store σ β] where
  Holds : σ → String → Entry β → Prop
  get_some : ∀ (s : σ) key now e, (Store.get s key now).1 = some e →
    Holds s key e ∧ (0 < e.ttl → now - e.storedAt ≤ e.ttl)
  holds_get : ∀ (s : σ) key now k e, Holds (Store.get s key now).2 k e → Holds s k e
  holds_put : ∀ (s : σ) key entry k e, Holds (Store.put s key entry) k e →
    Holds s k e ∨ e = entry
  holds_delete : ∀ (s : σ) key k e, Holds (Store.delete s key) k e → Holds s k e

theorem mem_of_find {β : Type} {items : List (String × Entry β)} {key : String}
    {item : String × Entry β} (h : items.find? (·.1 = key) = some item) :
      (key, item.2) ∈ items := by
  have hk : item.1 = key := by simpa using List.find?_some h
  rw [← hk]
  exact mem_of_find?_eq_some h

namespace MemoryStore

variable {β : Type} {s : MemoryStore β} {key k : String} {entry e : Entry β} {now : Int}

theorem mem_of_find_some (h : s.find key = some e) : (key, e) ∈ s.items := by
  obtain ⟨item, hi, rfl⟩ := Option.map_eq_some_iff.mp h
  exact mem_of_find hi

theorem mem_remove (h : (k, e) ∈ (s.remove key).items) : (k, e) ∈ s.items :=
  (mem_filter.mp h).1

theorem mem_front (h : (k, e) ∈ (s.front key entry).items) :
    (k, e) ∈ s.items ∨ k = key ∧ e = entry := by
  rcases mem_cons.mp h with heq | hr
  · exact .inr (Prod.mk.inj heq)
  · exact .inl (mem_filter.mp hr).1

theorem get_cases (s : MemoryStore β) (key : String) (now : Int) :
    s.get key now = (none, s) ∨ s.get key now = (none, s.remove key) ∨
      ∃ e, (key, e) ∈ s.items ∧ ¬ (e.ttl > 0 ∧ now - e.storedAt > e.ttl) ∧
        s.get key now = (some e, s.front key e) := by
  unfold get
  split
  · exact .inl rfl
  · rename_i e hf
    by_cases hold : e.ttl > 0 ∧ now - e.storedAt > e.ttl
    · rw [if_pos hold]
      exact .inr (.inl rfl)
    · rw [if_neg hold]
      exact .inr (.inr ⟨e, mem_of_find_some hf, hold, rfl⟩)

instance lawful : LawfulStore (MemoryStore β) β where
  Holds s key e := (key, e) ∈ s.items
  get_some s key now e h := by
    rcases get_cases s key now with hget | hget | ⟨found, hmem, hlive, hget⟩
    · exact absurd (h.symm.trans (congrArg Prod.fst hget)) (by simp)
    · exact absurd (h.symm.trans (congrArg Prod.fst hget)) (by simp)
    · obtain rfl : e = found := Option.some.inj (h.symm.trans (congrArg Prod.fst hget))
      exact ⟨hmem, fun hpos => not_lt.mp fun hlt => hlive ⟨hpos, hlt⟩⟩
  holds_get s key now k e h := by
    change (k, e) ∈ (s.get key now).2.items at h
    rcases get_cases s key now with hget | hget | ⟨found, hmem, -, hget⟩
    · rwa [hget] at h
    · rw [hget] at h
      exact mem_remove h
    · rw [hget] at h
      rcases mem_front h with hold | ⟨rfl, rfl⟩
      · exact hold
      · exact hmem
  holds_put s key entry k e h := by
    rcases mem_front (List.mem_of_mem_take h) with hold | ⟨-, hnew⟩
    · exact .inl hold
    · exact .inr hnew
  holds_delete s key k e h := mem_remove h

end MemoryStore

namespace RedisStore

variable {β : Type}

theorem get_cases (s : RedisStore β) (key : String) (now : Int) :
    s.get key now = (none, s) ∨
      ∃ e, (key, e) ∈ s.items ∧ now < e.storedAt + s.kept e ∧ s.get key now = (some e, s) := by
  unfold get
  split
  · exact .inl rfl
  · rename_i k e hf
    by_cases hl : now < e.storedAt + s.kept e
    · rw [if_pos hl]
      exact .inr ⟨e, mem_of_find hf, hl, rfl⟩
    · rw [if_neg hl]
      exact .inl rfl

instance lawful : LawfulStore (RedisStore β) β where
  Holds s key e := (key, e) ∈ s.items
  get_some s key now e h := by
    rcases get_cases s key now with hget | ⟨found, hmem, hlive, hget⟩
    · exact absurd (h.symm.trans (congrArg Prod.fst hget)) (by simp)
    · obtain rfl : e = found := Option.some.inj (h.symm.trans (congrArg Prod.fst hget))
      refine ⟨hmem, fun hpos => ?_⟩
      rw [kept, if_neg (not_le.mpr hpos)] at hlive
      omega
  holds_get s key now k e h := by
    change (k, e) ∈ (s.get key now).2.items at h
    rcases get_cases s key now with hget | ⟨found, -, -, hget⟩
    · rwa [hget] at h
    · rwa [hget] at h
  holds_put s key entry k e h := by
    rcases List.mem_cons.mp h with heq | hrest
    · exact .inr (Prod.mk.inj heq).2
    · exact .inl (List.mem_filter.mp hrest).1
  holds_delete s key k e h := (List.mem_filter.mp h).1

end RedisStore

/-! ### What a stage does -/

section

variable {σ ρ β : Type} [Store σ β] [LawfulStore σ β] {cd : Codec ρ β}
  {sha256 : List UInt8 → List UInt8} {policy : CachePolicy} {req : CacheRequest}

/-- Nothing comes into the store. -/
def Drains (s s' : σ) : Prop := ∀ k e, LawfulStore.Holds s' k e → LawfulStore.Holds s k e

/-- A stage adds nothing to the store, and an answer it gives is an entry that was still good. -/
structure StageSpec (store : σ) (now : Int) (ctx : CacheContext ρ) (stage : CacheContext ρ × σ) :
    Prop where
  drains : Drains store stage.2
  answer : ∀ answer ∈ stage.1.response, answer ∈ ctx.response ∨
    ∃ key entry, LawfulStore.Holds store key entry ∧ answer.producedAt = entry.producedAt ∧
      (0 < entry.ttl → now - entry.storedAt ≤ entry.ttl)

theorem StageSpec.same (store : σ) (now : Int) (ctx : CacheContext ρ) :
    StageSpec store now ctx (ctx, store) := ⟨fun _ _ h => h, fun _ h => .inl h⟩

variable {store store' : σ} {now : Int} {ctx : CacheContext ρ}

/-- The two ways a lookup can go, with what the stage then does to the store. -/
theorem StageSpec.lookup {key : String} {found : Option (Entry β)} {stage : CacheContext ρ × σ}
    (hget : Store.get store key now = (found, store')) (hd : Drains store' stage.2)
    (ha : stage.1.response = ctx.response ∨ ∃ entry response, found = some entry ∧
      stage.1.response = some ⟨response, entry.producedAt⟩) :
    StageSpec store now ctx stage := by
  refine ⟨fun k e h => ?_, fun answer hm => ?_⟩
  · refine LawfulStore.holds_get store key now k e ?_
    rw [hget]
    exact hd k e h
  · rcases ha with hs | ⟨entry, response, rfl, hhi⟩
    · exact .inl (hs ▸ hm)
    · obtain ⟨hh, hag⟩ := LawfulStore.get_some store key now entry (congrArg Prod.fst hget)
      obtain rfl : ⟨response, entry.producedAt⟩ = answer := Option.some.inj (hhi.symm.trans hm)
      exact .inr ⟨key, entry, hh, rfl, hag⟩

theorem exactHandle_spec :
    StageSpec store now ctx (exactHandle cd sha256 policy req now store ctx) := by
  unfold exactHandle
  split
  · exact .same _ _ _
  · dsimp only
    split
    · rename_i entry store' hget
      split
      · rename_i response _
        exact .lookup hget (fun _ _ h => h) (.inr ⟨entry, response, rfl, rfl⟩)
      · exact .lookup hget (fun k e h => LawfulStore.holds_delete _ _ k e h) (.inl rfl)
    · rename_i store' hget
      exact .lookup hget (fun _ _ h => h) (.inl rfl)

theorem semanticHandle_spec (lookup : SemanticLookup) :
    StageSpec store now ctx (semanticHandle cd sha256 policy req lookup now store ctx) := by
  unfold semanticHandle
  split
  · exact .same _ _ _
  · dsimp only
    split
    · split
      · split
        · rename_i entry store' hget
          split
          · rename_i response _
            exact .lookup hget (fun _ _ h => h) (.inr ⟨entry, response, rfl, rfl⟩)
          · exact .lookup hget (fun _ _ h => h) (.inl rfl)
        · rename_i store' hget
          exact .lookup hget (fun _ _ h => h) (.inl rfl)
      · exact ⟨fun _ _ h => h, fun _ h => .inl h⟩
    · exact ⟨fun _ _ h => h, fun _ h => .inl h⟩
    · exact .same _ _ _

/-- A write-back stores the answer of the request with the TTL and the time it is given. -/
theorem writeBack_holds {ttl : Int} (h : writeBack cd ttl now ctx store = .ok store')
    {k : String} {e : Entry β} (he : LawfulStore.Holds store' k e) :
    LawfulStore.Holds store k e ∨ ctx.cachePending = true ∧ ctx.cacheKey ≠ "" ∧
      ∃ answer ∈ ctx.response, e.producedAt = answer.producedAt ∧ e.storedAt = now ∧
        e.ttl = ttl := by
  unfold writeBack at h
  split at h
  · obtain rfl := Except.ok.inj h
    exact .inl he
  · rename_i answer ha
    split at h
    · obtain rfl := Except.ok.inj h
      exact .inl he
    · rename_i hstores
      simp only [Bool.or_eq_true, Bool.not_eq_true', beq_iff_eq, not_or,
        Bool.not_eq_false] at hstores
      split at h
      · cases h
      · obtain rfl := Except.ok.inj h
        rcases LawfulStore.holds_put _ _ _ k e he with hold | rfl
        · exact .inl hold
        · exact .inr ⟨hstores.1, hstores.2, answer, ha, rfl, rfl, rfl⟩

end

/-! ### Whole runs -/

section

variable {σ ρ β : Type} [Store σ β] [LawfulStore σ β] {cd : Codec ρ β}
  {sha256 : List UInt8 → List UInt8} {policy : CachePolicy} {lag : Int}

/-- Entries were stored within the lag, and no answer from a cache was older than the TTL and
the lag. -/
structure Caches.Fresh (ttl lag : Int) (s : Caches σ) : Prop where
  entries : ∀ key e, LawfulStore.Holds s.store key e → e.ttl = ttl ∧ e.storedAt - e.producedAt ≤ lag
  hits : ∀ hit ∈ s.hits, hit.servedAt - hit.producedAt ≤ ttl + lag

/-- An answer that is written back is so within the lag. -/
def Prompt (lag : Int) (s : Caches σ) (t : Progress ρ) (a : Action ρ) : Prop :=
  match t, a with
  | .answered ctx, .writeBack => ctx.cachePending = true → ctx.cacheKey ≠ "" →
      ∀ answer ∈ ctx.response, s.clock - answer.producedAt ≤ lag
  | _, _ => True

instance Prompt.decidable (lag : Int) (s : Caches σ) :
    ∀ (t : Progress ρ) (a : Action ρ), Decidable (Prompt lag s t a)
  | .answered _, .writeBack => inferInstanceAs (Decidable (_ → _ → ∀ _ ∈ _, _ ≤ lag))
  | .answered _, .exact _ | .answered _, .semantic _ | .answered _, .noSemantic
  | .answered _, .execute _ | .answered _, .guard _ | .answered _, .fail | .answered _, .tick _
  | .idle, _ | .preflight _ _, _ | .unanswered _, _ | .done, _ => isTrue trivial

/-- A request that is looked up has no answer yet. -/
def Progress.Open : Progress ρ → Prop
  | .preflight _ ctx => ctx.response = none
  | _ => True

variable {s : Caches σ} {stage : CacheContext ρ × σ} {next : CacheContext ρ → Progress ρ}
  {t : Progress ρ} {a : Action ρ}

theorem Caches.Fresh.after {ttl : Int} {ctx : CacheContext ρ} (h : s.Fresh ttl lag) (ht : 0 < ttl)
    (ho : ctx.response = none) (hs : StageSpec s.store s.clock ctx stage) :
    (s.after stage next).1.Fresh ttl lag := by
  unfold Caches.after
  split
  · rename_i answer ha
    refine ⟨fun key e he => h.entries key e (hs.drains key e he), fun hit hm => ?_⟩
    rcases mem_append.mp hm with hold | hn
    · exact h.hits hit hold
    · rw [mem_singleton.mp hn]
      rcases hs.answer answer ha with how | ⟨key, entry, hh, hp, hag⟩
      · rw [ho] at how
        cases how
      · obtain ⟨rfl, hl⟩ := h.entries key entry hh
        have hse := hag ht
        dsimp only
        omega
  · exact ⟨fun key e he => h.entries key e (hs.drains key e he), h.hits⟩

theorem after_open (hn : stage.1.response = none → (next stage.1).Open) :
    (s.after stage next).2.Open := by
  unfold Caches.after
  split
  · trivial
  · rename_i hno
    exact hn hno

theorem act_fresh (htt : 0 < exactTTL policy) (hs : s.Fresh (exactTTL policy) lag) (ht : t.Open)
    (hok : Prompt lag s t a) : (act cd sha256 policy s t a).1.Fresh (exactTTL policy) lag := by
  cases a with
  | tick el => cases t <;> exact ⟨hs.entries, hs.hits⟩
  | fail => cases t <;> exact hs
  | exact req =>
    cases t with
    | idle => exact hs.after htt rfl exactHandle_spec
    | preflight | unanswered | answered | done => exact hs
  | semantic lookup =>
    cases t with
    | preflight req ctx =>
      simp only [act]
      split
      · exact hs.after htt ht (semanticHandle_spec _)
      · exact hs
    | idle | unanswered | answered | done => exact hs
  | noSemantic => cases t <;> exact hs
  | execute resp => cases t <;> exact hs
  | guard resp => cases t <;> exact hs
  | writeBack =>
    cases t with
    | answered ctx =>
      simp only [act]
      split
      · split
        · rename_i store hw
          refine ⟨fun key e he => ?_, hs.hits⟩
          rcases writeBack_holds hw he with hold | ⟨hpending, hkey, answer, hm, hp, hst, hl⟩
          · exact hs.entries key e hold
          · have hpr := hok hpending hkey answer hm
            exact ⟨hl, by omega⟩
        · exact hs
      · exact hs
    | idle | preflight | unanswered | done => exact hs

omit [LawfulStore σ β] in
theorem act_open (ht : t.Open) : (act cd sha256 policy s t a).2.Open := by
  cases a with
  | exact req =>
    cases t with
    | idle => exact after_open id
    | preflight => exact ht
    | unanswered | answered | done => trivial
  | semantic lookup =>
    cases t with
    | preflight req ctx =>
      simp only [act]
      split
      · exact after_open fun _ => trivial
      · trivial
    | idle | unanswered | answered | done => trivial
  | writeBack =>
    cases t with
    | answered ctx =>
      simp only [act]
      split
      · split <;> trivial
      · trivial
    | preflight => exact ht
    | idle | unanswered | done => trivial
  | noSemantic | tick el | execute resp | guard resp | fail => cases t <;> trivial

/-- An empty store, and no request under way. -/
def cold {κ : Type*} (store : σ) (clock : Int) : Threads (Caches σ) κ (Progress ρ) :=
  ⟨⟨store, clock, []⟩, fun _ => .idle⟩

/-- An answer from a cache is no older than the TTL and the longest lag of a write-back. -/
theorem hits_within {κ : Type*} [DecidableEq κ] (htt : 0 < exactTTL policy) {store : σ}
    {clock : Int}
    (hem : ∀ key e, ¬ LawfulStore.Holds store key e) (steps : List (κ × Action ρ))
    (hok : Allowed (Threads.step (act cd sha256 policy)) (Threads.Meets (Prompt lag))
      (cold store clock) steps) :
    ∀ hit ∈ (run (Threads.step (act cd sha256 policy)) (cold store clock) steps).shared.hits,
      hit.servedAt - hit.producedAt ≤ exactTTL policy + lag := by
  have hst : (cold store clock : Threads (Caches σ) κ (Progress ρ)).Sound
      (Caches.Fresh (exactTTL policy) lag) fun _ t => t.Open :=
    ⟨⟨fun key e he => absurd he (hem key e), fun hit hm => absurd hm not_mem_nil⟩,
      fun _ => trivial⟩
  refine (hst.run (fun s t a hs ht hp => ?_) steps _ hok).shared.hits
  exact ⟨act_fresh htt hs ht hp, act_open ht, fun _ h => h⟩

/-- **An answer from a cache is served within its TTL from when the provider produced it**, in every
run in which answers are written back at the time they were produced. -/
theorem hits_fresh {κ : Type*} [DecidableEq κ] (codec : Codec ρ β)
    (sha256 : List UInt8 → List UInt8)
    (policy : CachePolicy) (httl : 0 < exactTTL policy) (store : σ) (clock : Int)
    (hempty : ∀ key e, ¬ LawfulStore.Holds store key e) (steps : List (κ × Action ρ))
    (hok : Allowed (Threads.step (act codec sha256 policy)) (Threads.Meets (Prompt 0))
      (cold store clock) steps) :
    ∀ hit ∈ (run (Threads.step (act codec sha256 policy)) (cold store clock) steps).shared.hits,
      hit.servedAt - hit.producedAt ≤ exactTTL policy := by
  intro hit hm
  have hag := hits_within httl hempty steps hok hit hm
  omega

end

/-- Texts that are stored as they are. -/
def plainCodec : Codec String String := ⟨.ok, some⟩

/-- Ten seconds, and a semantic cache with the default threshold. -/
def tenSeconds : CachePolicy := ⟨true, 10, 0, [], 0, ⟨true, "embedder", 0⟩⟩

def asks (text : String) : CacheRequest := ⟨"t", "p", "m", text, "chat", "", false, false, none⟩

/-- The provider answers a request, and the answer is stored. -/
def stored : List (Nat × Action String) :=
  [(0, .exact (asks "a")), (0, .semantic ⟨.ok [1], .ok []⟩), (0, .execute "x"), (0, .writeBack)]

/-- After nine seconds a request that is close to the first is answered with its answer. -/
def similar : List (Nat × Action String) :=
  [(1, .tick 9000000000), (1, .exact (asks "b")),
    (1, .semantic ⟨.ok [1], .ok [⟨keyOf id (asks "a") tenSeconds, 1⟩]⟩)]

theorem similar_hit_fresh :
    Allowed (Threads.step (act plainCodec id tenSeconds)) (Threads.Meets (Prompt 0))
        (cold (MemoryStore.new 0) 0) (stored ++ similar) ∧
      ⟨0, 9000000000⟩ ∈ (run (Threads.step (act plainCodec id tenSeconds))
        (cold (MemoryStore.new 0) 0) (stored ++ similar)).shared.hits ∧
      (9000000000 : Int) - 0 ≤ exactTTL tenSeconds := by
  have hok : Allowed (Threads.step (act plainCodec id tenSeconds)) (Threads.Meets (Prompt 0))
      (cold (MemoryStore.new 0) 0) (stored ++ similar) := by
    decide +kernel
  have hh : ⟨0, 9000000000⟩ ∈ (run (Threads.step (act plainCodec id tenSeconds))
      (cold (MemoryStore.new 0) 0) (stored ++ similar)).shared.hits := by
    decide +kernel
  exact ⟨hok, hh, hits_fresh plainCodec id tenSeconds (by decide) _ 0
    (fun _ _ h => absurd h List.not_mem_nil) _ hok _ hh⟩

/-- The answer is stored again, and after nine more seconds the first request is answered with
it. -/
theorem hit_outlives_ttl :
    (run (Threads.step (act plainCodec id tenSeconds)) (cold (MemoryStore.new 0) 0)
        (stored ++ similar ++
          [(1, .writeBack), (2, .tick 9000000000), (2, .exact (asks "a"))])).shared.hits
      = [⟨0, 9000000000⟩, ⟨0, 18000000000⟩] ∧
    ¬ ((18000000000 : Int) - 0 ≤ exactTTL tenSeconds) := by
  decide +kernel

end LiteAIG.Cache
