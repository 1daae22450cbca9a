/-
Which collections of the semantic index are kept apart.

A vector goes to the entry that the map has under the text of its key, and stays in
the collection that this entry was made in.  A search reads the entries of one
collection.  So a vector reaches a collection exactly if the text of its key can be
read as the name of that collection, a zero character and some source key.  Colons
in the identifiers give two keys one name; zero characters in them give a key of one
collection the text of a key of another.
-/
import LiteAIG.Cache.Semantic
import LiteAIG.Lib.Json
import LiteAIG.Lib.Run

namespace LiteAIG.Cache

open Lib Float64 SemanticKey MemorySemanticStore List String

/-! ### The text of a key -/

variable (k : SemanticKey)

/-- The identifiers of a collection, with colons between them. -/
def SemanticKey.path : List Char :=
  k.tenantID.toList ++ ':' :: (k.projectID.toList ++ ':' :: k.model.toList)

/-- What follows them: the dimension and the version. -/
def SemanticKey.ending : List Char :=
  ":dim:".toList ++ (itoa k.dimension).toList ++ ":ver:".toList ++ (itoa k.version).toList

theorem nameSpace_toList :
    k.nameSpace.toList = "semantic:".toList ++ (k.path ++ k.ending) := by
  simp [nameSpace, path, ending]

theorem notMem_itoa {c : Char} (h : numChar c = false) (v : Int) : c ∉ (itoa v).toList := by
  intro hc
  unfold itoa at hc
  split at hc
  · obtain rfl : c = '-' := by simpa using hc
    cases h
  · exact Bool.eq_false_iff.mp h (numChar_of_mem hc)

/-- The text of the smallest integer is not the text of another one. -/
theorem toString_ne_dash (v : Int) : toString v ≠ "-" := by
  intro h
  cases v with
  | ofNat m =>
    have h' : m.repr = "-" := h
    have hm : '-' ∈ Nat.toDigits 10 m := by
      rw [← toList_ofList (l := Nat.toDigits 10 m), ← Nat.repr_eq_ofList_toDigits, h']
      decide
    exact absurd (Nat.isDigit_of_mem_toDigits (by decide) (by decide) hm) (by decide)
  | negSucc m =>
    have h' : ("-" ++ m.succ.repr).toList = "-".toList := congrArg toList h
    rw [toList_append] at h'
    exact Nat.repr_ne_empty (String.toList_eq_nil_iff.mp (append_right_eq_self.mp h'))

theorem itoa_injective : Function.Injective itoa := by
  intro v w h
  unfold itoa at h
  split_ifs at h with hv hw hw
  · rw [hv, hw]
  · exact absurd h.symm (toString_ne_dash w)
  · exact absurd h (toString_ne_dash v)
  · exact Int.repr_inj.mp h

/-- A number at the end of a text, after a character that no number has. -/
theorem append_itoa_inj {v w : Int} {front front' : List Char}
    (h : front ++ ':' :: (itoa v).toList = front' ++ ':' :: (itoa w).toList) :
    front = front' ∧ v = w := by
  obtain ⟨hf, hd⟩ := append_last_mark_inj (notMem_itoa rfl v) (notMem_itoa rfl w) h
  exact ⟨hf, itoa_injective (String.toList_inj.mp hd)⟩

/-- The end of a name can be read in one way. -/
theorem path_append_ending_inj {k k' : SemanticKey} :
    k.path ++ k.ending = k'.path ++ k'.ending ↔
      k.path = k'.path ∧ k.dimension = k'.dimension ∧ k.version = k'.version := by
  have hs : ∀ k : SemanticKey, k.path ++ k.ending
      = ((k.path ++ ":dim".toList) ++ ':' :: (itoa k.dimension).toList ++ ":ver".toList) ++
        ':' :: (itoa k.version).toList := by
    intro k
    simp [ending]
  constructor
  · intro h
    rw [hs, hs] at h
    obtain ⟨hf, hv⟩ := append_itoa_inj h
    obtain ⟨hp, hd⟩ := append_itoa_inj (append_cancel_right hf)
    exact ⟨append_cancel_right hp, hd, hv⟩
  · rintro ⟨hp, hd, hv⟩
    simp only [ending, hp, hd, hv]

theorem zero_notMem_ending : '\x00' ∉ k.ending := by
  simp [ending, notMem_itoa (c := '\x00') rfl]

/-- Nothing stored under the first key is in the collection of the second. -/
structure Apart (k₁ k₂ : SemanticKey) : Prop where
  /-- The identifiers, read one after the other with colons between them, differ, or one of the
  numbers does. -/
  named : k₁.path = k₂.path → k₁.dimension = k₂.dimension → k₁.version ≠ k₂.version
  /-- The identifiers of the first do not begin with the whole name of the second and a zero. -/
  inside : ¬ k₂.path ++ k₂.ending ++ ['\x00'] <+: k₁.path
  /-- If those of the second begin with the whole name of the first and a zero, the source key
  does not go on as they do. -/
  around : ∀ rest, k₂.path = k₁.path ++ k₁.ending ++ '\x00' :: rest →
    ¬ rest ++ k₂.ending ++ ['\x00'] <+: k₁.sourceKey.toList

variable (k₁ k₂ : SemanticKey)

/-- The text of the first key is the text of some key of the collection of the second. -/
def Meets : Prop :=
  ∃ sourceKey, semanticMapKey k₁.nameSpace k₁.sourceKey = semanticMapKey k₂.nameSpace sourceKey

theorem meets_iff_toList :
    Meets k₁ k₂ ↔ ∃ source : List Char, (k₁.path ++ k₁.ending) ++ '\x00' :: k₁.sourceKey.toList
        = (k₂.path ++ k₂.ending) ++ '\x00' :: source := by
  have ht : ∀ (k : SemanticKey) (sourceKey : String), (semanticMapKey k.nameSpace sourceKey).toList
        = "semantic:".toList ++ ((k.path ++ k.ending) ++ '\x00' :: sourceKey.toList) := by
    intro k sourceKey
    simp [semanticMapKey, nameSpace_toList]
  constructor
  · rintro ⟨sourceKey, h⟩
    have h' := congrArg toList h
    rw [ht, ht] at h'
    exact ⟨sourceKey.toList, append_cancel_left h'⟩
  · rintro ⟨source, h⟩
    refine ⟨ofList source, String.toList_inj.mp ?_⟩
    rw [ht, ht, toList_ofList (l := source), h]

theorem apart_iff : Apart k₁ k₂ ↔ ¬ Meets k₁ k₂ := by
  rw [meets_iff_toList, exists_append_mark_iff, path_append_ending_inj, not_or, not_or]
  constructor
  · intro h
    refine ⟨fun ⟨hp, hd, hv⟩ => h.named hp hd hv, ?_, ?_⟩
    · rintro ⟨rest, heq⟩
      obtain ⟨rest', hpa, -⟩ := (append_eq_mark_iff (zero_notMem_ending k₁)).mp heq
      exact h.inside ⟨rest', by rw [hpa]; simp⟩
    · rintro ⟨rest, source, heq, hs⟩
      obtain ⟨rest', hpa, rfl⟩ := (append_eq_mark_iff (zero_notMem_ending k₂)).mp heq
      exact h.around rest' hpa ⟨source, by rw [hs]; simp⟩
  · rintro ⟨hn, hi, ha⟩
    refine ⟨fun hp hd hv => hn ⟨hp, hd, hv⟩, ?_, ?_⟩
    · rintro ⟨rest, hpa⟩
      exact hi ⟨rest ++ k₁.ending, by rw [← hpa]; simp⟩
    · rintro rest hpa ⟨source, hs⟩
      exact ha ⟨rest ++ k₂.ending, source, by rw [hpa]; simp, by rw [← hs]; simp⟩

variable {k₁ k₂ : SemanticKey}

/-! ### What an entry holds -/

variable {F : Type} {s : MemorySemanticStore F} {key : SemanticKey} {entry : SemanticEntry F}

/-- A key whose text is in the map has its entry written over. -/
theorem entries_put_found
    (h : s.entries.find? (·.mapKey = semanticMapKey key.nameSpace key.sourceKey) = some entry)
    (vector : List F) (now : Int) :
    (s.put key vector now).entries = { entry with vector, storedAt := now } ::
      s.entries.filter (·.mapKey ≠ semanticMapKey key.nameSpace key.sourceKey) := by
  simp only [put, h]

theorem entries_put_new
    (h : s.entries.find? (·.mapKey = semanticMapKey key.nameSpace key.sourceKey) = none)
    (vector : List F) (now : Int) :
    (s.put key vector now).entries
      = (⟨key.nameSpace, key.sourceKey, vector, now⟩ :: s.entries).take s.capacity := by
  simp only [put, h]

/-- Every entry holds a vector that was stored under a key with the text of the entry. -/
def Stored (history : List (SemanticCall F)) (s : MemorySemanticStore F) : Prop :=
  ∀ entry ∈ s.entries, ∃ key now, .put key entry.vector now ∈ history ∧
    semanticMapKey key.nameSpace key.sourceKey = entry.mapKey

variable {hi : List (SemanticCall F)}

theorem Stored.put (h : Stored hi s) (key : SemanticKey) (vector : List F) (now : Int) :
    Stored (hi ++ [.put key vector now]) (s.put key vector now) := by
  have hold : ∀ entry ∈ s.entries, ∃ key' now', .put key' entry.vector now' ∈
      hi ++ [.put key vector now] ∧ semanticMapKey key'.nameSpace key'.sourceKey =
        entry.mapKey := by
    intro entry he
    obtain ⟨key', now', hm, ht⟩ := h entry he
    exact ⟨key', now', mem_append_left _ hm, ht⟩
  have hn : SemanticCall.put key vector now ∈ hi ++ [.put key vector now] := by simp
  intro entry he
  cases hf : s.entries.find? (·.mapKey = semanticMapKey key.nameSpace key.sourceKey) with
  | some found =>
    rw [entries_put_found hf] at he
    rcases mem_cons.mp he with rfl | hr
    · have ht : found.mapKey = semanticMapKey key.nameSpace key.sourceKey := by
        simpa using List.find?_some hf
      exact ⟨key, now, hn, ht.symm⟩
    · exact hold entry (mem_of_mem_filter hr)
  | none =>
    rw [entries_put_new hf] at he
    rcases mem_cons.mp (mem_of_mem_take he) with rfl | hr
    · exact ⟨key, now, hn, rfl⟩
    · exact hold entry hr

theorem Stored.search [Float64 F] (h : Stored hi s) (order : MapOrder (String × List F))
    (key : SemanticKey) (query : List F) (limit now : Int) :
    Stored (hi ++ [.search order key query limit now]) (s.search order key query limit now).2 := by
  intro entry he
  have hm : entry ∈ s.entries := by
    unfold MemorySemanticStore.search at he
    split at he
    · exact he
    · exact mem_of_mem_filter he
  obtain ⟨key', now', hp, ht⟩ := h entry hm
  exact ⟨key', now', mem_append_left _ hp, ht⟩

theorem stored_run [Float64 F] (cfg : MemorySemanticConfig) :
    Stored hi (run step (.new cfg) hi) := by
  induction hi using List.reverseRecOn with
  | nil =>
    intro entry he
    cases he
  | append_singleton hi call ih =>
    rw [run_append, run_cons, run_nil]
    cases call with
    | put key vector now => exact ih.put key vector now
    | search order key query limit now => exact ih.search order key query limit now

/-! ### What a search returns -/

variable {nameSpace source : String} {vector : List F}

/-- The vectors of a collection are those of its entries. -/
theorem mem_of_lookup_vectors {now : Int}
    (h : (s.vectors nameSpace now).lookup source = some vector) :
    ∃ entry ∈ s.entries, entry.nameSpace = nameSpace ∧ entry.sourceKey = source ∧
      entry.vector = vector := by
  refine List.foldlRecOn (motive := fun m : Assoc String (List F) =>
    m.lookup source = some vector → ∃ entry ∈ s.entries, entry.nameSpace = nameSpace ∧
      entry.sourceKey = source ∧ entry.vector = vector) _ _ ?_ ?_ h
  · intro h
    rw [Assoc.lookup_empty] at h
    cases h
  · intro m ih e hm h
    rcases Assoc.lookup_insert_some h with ⟨hs, hv⟩ | ⟨-, h⟩
    · obtain ⟨he, hn⟩ := mem_filter.mp hm
      rw [Bool.and_eq_true, decide_eq_true_eq] at hn
      exact ⟨e, he, hn.1, hs.symm, hv.symm⟩
    · exact ih h

/-- A search under the key returns a candidate that stands for the vector. -/
def Returned [Float64 F] (s : MemorySemanticStore F) (order : MapOrder (String × List F))
    (key : SemanticKey) (query : List F) (limit now : Int) (vector : List F) : Prop :=
  ∃ candidates, (s.search order key query limit now).1 = .ok candidates ∧
    ∃ c ∈ candidates, (s.vectors key.nameSpace now).lookup c.sourceKey = some vector

/-- A vector that is stored under the first key only is never returned under the second. -/
def Isolated (F : Type) [Float64 F] (k₁ k₂ : SemanticKey) : Prop :=
  ∀ (config : MemorySemanticConfig) (history : List (SemanticCall F)) (vector : List F),
    (∀ key now, .put key vector now ∈ history → key = k₁) →
    ∀ order query limit now,
      ¬ Returned (run MemorySemanticStore.step
        (.new config) history) order k₂ query limit now vector

theorem isolated_of_apart [Float64 F] (h : ¬ Meets k₁ k₂) :
    Isolated F k₁ k₂ := by
  rintro cfg hi vector ho order query limit now ⟨candidates, -, c, -, hl⟩
  obtain ⟨entry, he, hn, hs, hv⟩ := mem_of_lookup_vectors hl
  obtain ⟨key, at_, hp, ht⟩ := stored_run cfg entry he
  obtain rfl := ho key at_ (hv ▸ hp)
  exact h ⟨entry.sourceKey, by rw [ht, SemanticEntry.mapKey, hn]⟩

theorem cosine_one [Float64 F] : cosine [(one : F)] [one] = one := by
  simp [cosine, one_mul_one, zero_add_one, isZero_one, sqrt_one, Float64.one_div_one]

theorem entries_put_over (hs : s.entries = [entry])
    (h : semanticMapKey key.nameSpace key.sourceKey = entry.mapKey) (now : Int) :
    (s.put key vector now).entries = [{ entry with vector, storedAt := now }] := by
  have hf : s.entries.find? (·.mapKey = semanticMapKey key.nameSpace key.sourceKey) =
    some entry := by
    simp [hs, h]
  rw [entries_put_found hf, hs]
  simp [h]

/-- An entry of the collection, and the key stored over it. -/
def overwriting [Float64 F] (k₁ k₂ : SemanticKey) (source : String) : List (SemanticCall F) :=
  [.put { k₂ with sourceKey := source } [] 0, .put k₁ [one] 0]

theorem entries_overwriting [Float64 F] {source : String}
    (h : semanticMapKey k₁.nameSpace k₁.sourceKey = semanticMapKey k₂.nameSpace source) :
    (run step (.new ⟨0, 0⟩) (overwriting k₁ k₂ source)).entries
      = [⟨k₂.nameSpace, source, [(one : F)], 0⟩] := by
  have hf : ((new ⟨0, 0⟩ : MemorySemanticStore F).put
      { k₂ with sourceKey := source } [] 0).entries = [⟨k₂.nameSpace, source, [], 0⟩] := by
    rw [entries_put_new rfl]
    simp [new, nameSpace]
  have ht : semanticMapKey k₁.nameSpace k₁.sourceKey
      = (⟨k₂.nameSpace, source, [], 0⟩ : SemanticEntry F).mapKey := h
  rw [overwriting, run_cons, run_cons, run_nil, step, step,
    entries_put_over hf ht]

theorem vectors_one (h : s.entries = [⟨nameSpace, source, vector, 0⟩]) :
    s.vectors nameSpace 0 = Assoc.empty.insert source vector := by
  have hf : s.expired 0 (⟨nameSpace, source, vector, 0⟩) = false := by
    simp only [expired, Bool.and_eq_false_iff, decide_eq_false_iff_not]
    omega
  simp [vectors, h, hf]

theorem search_one [Float64 F] {source : String}
    (h : s.entries = [⟨key.nameSpace, source, [(one : F)], 0⟩])
    (order : MapOrder (String × List F)) :
    (s.search order key [one] 1 0).1 = .ok [⟨source, one⟩] := by
  have hw : order.walk [(source, [(one : F)])] = [(source, [one])] :=
    perm_singleton.mp (order.perm _)
  show Except.ok (rank [one] 1 (order.walk (s.vectors _ _).entries)) = _
  rw [vectors_one h]
  show Except.ok (rank [one] 1 (order.walk [(source, [one])])) = _
  rw [hw]
  simp [rank, cosine_one, isNaN_one, insertBack]

theorem not_isolated_of_meets [Float64 F] (h : Meets k₁ k₂) :
    ¬ Isolated F k₁ k₂ := by
  obtain ⟨source, ht⟩ := h
  intro hi
  have he := entries_overwriting (F := F) ht
  refine hi ⟨0, 0⟩ (overwriting k₁ k₂ source) [one] ?_ ⟨id, fun _ => .rfl⟩ [one] 1 0
    ⟨_, search_one he _, ⟨source, one⟩, mem_singleton_self _, by simp [vectors_one he]⟩
  intro key now hp
  simp only [overwriting, mem_cons, not_mem_nil, or_false, SemanticCall.put.injEq] at hp
  rcases hp with ⟨-, hv, -⟩ | ⟨hk, -, -⟩
  · cases hv
  · exact hk

/--
**What keeps collections apart is what their keys look like.**  A vector stored under the one key
is never returned under the other exactly if the text of the first key cannot be read as a key of
the collection of the second.
-/
theorem collections_isolated_iff (F : Type) [Float64 F] (k₁ k₂ : SemanticKey) :
    Isolated F k₁ k₂ ↔ Apart k₁ k₂ := by
  rw [apart_iff]
  exact ⟨fun h hm => not_isolated_of_meets hm h, isolated_of_apart⟩

/-- Exact numbers, and what is not a number. -/
instance exactNumbers : Float64 (Option ℚ) where
  zero := some 0
  one := some 1
  nan := none
  add := Option.map₂ (· + ·)
  mul := Option.map₂ (· * ·)
  div := Option.map₂ (· / ·)
  sqrt := Option.map Rat.sqrt
  isZero x := x = some 0
  isNaN := Option.isNone
  greater x y := (Option.map₂ (fun x y => decide (x > y)) x y).getD false
  zero_add_one := by simp
  one_mul_one := by simp
  one_div_one := by simp
  sqrt_one := by simp [Rat.sqrt, Rat.mkRat_one]
  isZero_one := by simp
  isNaN_one := rfl
  isNaN_nan := rfl

/-- **Identifiers without a zero, and a tenant and a project without a colon, keep all collections
apart.** -/
theorem apart_of_plain (F : Type) [Float64 F] (hz : '\x00' ∉ k₁.path ∧ '\x00' ∉ k₂.path)
    (hte : ':' ∉ k₁.tenantID.toList ∧ ':' ∉ k₂.tenantID.toList)
    (hpr : ':' ∉ k₁.projectID.toList ∧ ':' ∉ k₂.projectID.toList)
    (hdi : ¬ (k₁.tenantID = k₂.tenantID ∧ k₁.projectID = k₂.projectID ∧ k₁.model = k₂.model ∧
      k₁.dimension = k₂.dimension ∧ k₁.version = k₂.version)) :
    Isolated F k₁ k₂ := by
  refine isolated_of_apart ((apart_iff k₁ k₂).mp ⟨fun hpa hd hv => ?_, ?_, ?_⟩)
  · have hco : ∀ {text : List Char}, ':' ∉ text → ∀ c ∈ text, (c != ':') = true := by
      intro text h c hc
      exact bne_iff_ne.mpr fun he => h (he ▸ hc)
    have hs : ∀ text : List Char, Stops (· != ':') (':' :: text) := fun _ => stops_cons (by decide)
    obtain ⟨ht, hr⟩ := piece_inj (hco hte.1) (hco hte.2) (hs _) (hs _) hpa
    obtain ⟨hp, hm⟩ := piece_inj (hco hpr.1) (hco hpr.2) (hs _) (hs _) (List.cons.inj hr).2
    exact hdi ⟨String.toList_inj.mp ht, String.toList_inj.mp hp,
      String.toList_inj.mp (List.cons.inj hm).2, hd, hv⟩
  · exact fun h => hz.1 (h.subset (by simp))
  · exact fun rest h => absurd (h ▸ mem_append_right _ mem_cons_self) hz.2

theorem models_apart :
    Isolated (Option ℚ) ⟨"t", "p", "a:b", 1, 1, "k"⟩ ⟨"t", "p", "b", 1, 1, "k"⟩ :=
  apart_of_plain _ (by decide) (by decide) (by decide) (by decide)

/-- A key of the project `p`. -/
def colonModelKey : SemanticKey := ⟨"t1", "p", "x:m", 1, 1, "k"⟩

/-- A key of the project `p:x`. -/
def colonProjectKey : SemanticKey := ⟨"t1", "p:x", "m", 1, 1, ""⟩

/-- A request of the one project is offered what a request of the other has stored. -/
theorem colon_collections_shared :
    colonModelKey.projectID ≠ colonProjectKey.projectID ∧
      ((run MemorySemanticStore.step (.new ⟨0, 0⟩)
          [.put colonModelKey [(one : Option ℚ)] 0]).search ⟨id, fun _ => .rfl⟩ colonProjectKey
          [one] 1 0).1 = .ok [⟨"k", one⟩] ∧
      ¬ Isolated (Option ℚ) colonModelKey colonProjectKey := by
  have hn : colonModelKey.nameSpace = colonProjectKey.nameSpace := by decide +kernel
  refine ⟨by decide, search_one ?_ _, not_isolated_of_meets
    ⟨"k", congrArg (semanticMapKey · "k") hn⟩⟩
  rw [run_cons, run_nil, step, entries_put_new rfl, hn]
  simp [new, colonModelKey]

end LiteAIG.Cache
