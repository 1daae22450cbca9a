/-
Tenants that share a breaker.

What a tenant is told depends on the entries of its own tuples and on the parameters.
The entries are its own as long as no other tenant's tuple has the same key.  The
parameters are not: another tenant's request sets them for all.  So a tenant is told
what it would be told alone in the runs where each of its operations that reads the
parameters finds those its own last request has set.
-/
import LiteAIG.Lib.Unwinding
import LiteAIG.Execution.Tenants

namespace LiteAIG.Execution

open Lib Breaker

variable {b b' : Breaker} {d c : String} {now : Int}

/-! ### What an operation reads and writes -/

def CircuitUse.key : CircuitUse → Option String
  | .begin _ => none
  | .open d c _ | .allow d c _ | .record d c _ _ => some (circuitKey d c)

/-- The operation reads the parameters: the cooldown of an open entry, or what makes a closed one
open. -/
def Breaker.readsConfig (b : Breaker) : CircuitUse → Bool
  | .begin _ => false
  | .open d c _ | .allow d c _ => (b.get d c).state = .open
  | .record d c _ _ => (b.get d c).state = .closed || (b.get d c).state = .other

/-- Two breakers have the same entry under a key. -/
def SameEntry (b b' : Breaker) (key : String) : Prop := b.entries.lookup key = b'.entries.lookup key

theorem SameEntry.get (h : SameEntry b b' (circuitKey d c)) : b.get d c = b'.get d c := by
  unfold Breaker.get
  rw [h]

variable {item : CircuitEntry} {key : String} {success : Bool}

theorem lookup_put_ne (h : key ≠ circuitKey d c) :
    (b.put d c item).entries.lookup key = b.entries.lookup key :=
  Assoc.lookup_insert_ne h

theorem lookup_put_self : (b.put d c item).entries.lookup (circuitKey d c) = some item :=
  Assoc.lookup_insert_self

theorem allow_config : (b.allow d c now).2.config = b.config := by
  unfold allow
  dsimp only
  split
  · rfl
  · split <;> rfl
  · split <;> rfl
  · split <;> rfl

theorem record_config : (b.record d c success now).config = b.config := by
  unfold record
  dsimp only
  split
  · split <;> rfl
  · rfl
  · split <;> rfl
  · split <;> rfl

theorem use_lookup_ne {use : CircuitUse} (h : key ∉ use.key) :
    (b.use use).entries.lookup key = b.entries.lookup key := by
  cases use with
  | «begin» cc => rfl
  | «open» d c now => rfl
  | allow d c now =>
    have hne : key ≠ circuitKey d c := fun heq => h (congrArg some heq.symm)
    simp only [use, allow]
    split
    · rfl
    · split
      · rfl
      · rw [lookup_put_ne hne]
        exact lookup_put_ne hne
    · split
      · rfl
      · exact lookup_put_ne hne
    · split
      · rfl
      · exact lookup_put_ne hne
  | record d c success now =>
    have hne : key ≠ circuitKey d c := fun heq => h (congrArg some heq.symm)
    simp only [use, record]
    split
    · split <;> exact lookup_put_ne hne
    · rfl
    · split <;> exact lookup_put_ne hne
    · split <;> exact lookup_put_ne hne

theorem cooling_congr (h : b.config = b'.config) (item : CircuitEntry) (now : Int) :
    b.cooling item now = b'.cooling item now := by
  unfold cooling
  rw [h]

/-- `Allow` is a function of the entry, and of the parameters where it reads them. -/
theorem allow_congr (hs : SameEntry b b' (circuitKey d c))
    (hc : b.readsConfig (.allow d c now) = true → b.config = b'.config) :
    (b.allow d c now).1 = (b'.allow d c now).1 ∧
      SameEntry (b.allow d c now).2 (b'.allow d c now).2 (circuitKey d c) := by
  have hget := hs.get
  unfold allow
  simp only [← hget]
  cases hst : (b.get d c).state with
  | closed => exact ⟨rfl, hs⟩
  | «open» =>
    have hco := cooling_congr (hc (by simp [Breaker.readsConfig, hst])) (b.get d c) now
    simp only [← hco]
    split
    · exact ⟨rfl, hs⟩
    · exact ⟨rfl, lookup_put_self.trans lookup_put_self.symm⟩
  | halfOpen | other =>
    dsimp only
    split
    · exact ⟨rfl, hs⟩
    · exact ⟨rfl, lookup_put_self.trans lookup_put_self.symm⟩

theorem open_congr (hsa : SameEntry b b' (circuitKey d c))
    (hc : b.readsConfig (.open d c now) = true → b.config = b'.config) :
    b.open d c now = b'.open d c now := by
  unfold Breaker.open
  simp only [← hsa.get]
  by_cases hs : (b.get d c).state = .open
  · rw [cooling_congr (hc (by simp [Breaker.readsConfig, hs]))]
  · simp [hs]

theorem record_congr (hs : SameEntry b b' (circuitKey d c))
    (hc : b.readsConfig (.record d c success now) = true → b.config = b'.config) :
    SameEntry (b.record d c success now) (b'.record d c success now) (circuitKey d c) := by
  have hget := hs.get
  unfold record
  simp only [← hget]
  cases hst : (b.get d c).state with
  | halfOpen =>
    dsimp only
    split <;> exact lookup_put_self.trans lookup_put_self.symm
  | «open» => exact hs
  | closed | other =>
    have hcf := hc (by simp [Breaker.readsConfig, hst])
    simp only [hcf]
    split <;> exact lookup_put_self.trans lookup_put_self.symm

/-! ### A tenant beside the others -/

/-- The breaker, and the parameters that one tenant's last request has set. -/
structure TenantView where
  breaker : Breaker
  configured : CircuitConfig

/-- A breaker before any request. -/
def TenantView.of (b : Breaker) : TenantView := ⟨b, b.config⟩

variable (tenantID : String)

def TenantView.step (s : TenantView) (a : TenantUse) : TenantView where
  breaker := s.breaker.use a.use
  configured :=
    match a.use with
    | .begin cc => if a.tenantID = tenantID then breakerConfigFromSnapshot cc else s.configured
    | _ => s.configured

def TenantView.tells (s : TenantView) (a : TenantUse) : Option Bool := s.breaker.tells a.use

def TenantUse.isOf (a : TenantUse) : Bool := a.tenantID = tenantID

/-- What a tenant is told in a run. -/
def toldTo (b : Breaker) (uses : List TenantUse) : List Bool :=
  answers (TenantView.step tenantID) TenantView.tells (TenantUse.isOf tenantID) (.of b) uses

/-- The keys of the tenant's tuples in a run. -/
def keysOf (uses : List TenantUse) : List String :=
  (uses.filter (TenantUse.isOf tenantID)).filterMap (·.use.key)

/-- An operation of the tenant that reads the parameters finds its own; the tuple of another
tenant has a key of its own. -/
def Undisturbed (keys : List String) (s : TenantView) (a : TenantUse) : Prop :=
  (a.tenantID = tenantID → s.breaker.readsConfig a.use = true → s.breaker.config = s.configured) ∧
    (a.tenantID ≠ tenantID → ∀ key ∈ a.use.key, key ∉ keys)
  deriving Decidable

/-- The breaker among all tenants looks to one of them as it would if it were alone. -/
structure Alike (keys : List String) (s s' : TenantView) : Prop where
  configured : s.configured = s'.configured
  own : s'.breaker.config = s'.configured
  entries : ∀ key ∈ keys, SameEntry s.breaker s'.breaker key

variable {tenantID : String} {keys : List String} {s s' : TenantView} {a : TenantUse}

theorem configured_begin (cc : Runtime.CircuitConfig) :
    (s.step tenantID ⟨tenantID, .begin cc⟩).configured = breakerConfigFromSnapshot cc := if_pos rfl

theorem Alike.other (h : Alike keys s s') (hok : Undisturbed tenantID keys s a)
    (ha : a.isOf tenantID = false) : Alike keys (s.step tenantID a) s' := by
  have hne : a.tenantID ≠ tenantID := of_decide_eq_false ha
  refine ⟨?_, h.own, fun key hk => ?_⟩
  · rw [← h.configured]
    unfold TenantView.step
    dsimp only
    split
    · exact if_neg hne
    · rfl
  · exact (use_lookup_ne fun hm => hok.2 hne key hm hk).trans (h.entries key hk)

theorem Alike.mine (h : Alike keys s s') (hok : Undisturbed tenantID keys s a)
    (ha : a.isOf tenantID) (hke : ∀ key ∈ a.use.key, key ∈ keys) :
    s.tells a = s'.tells a ∧ Alike keys (s.step tenantID a) (s'.step tenantID a) := by
  obtain ⟨id, use⟩ := a
  obtain rfl : id = tenantID := of_decide_eq_true ha
  have hc : s.breaker.readsConfig use = true → s.breaker.config = s'.breaker.config :=
    fun hre => (hok.1 rfl hre).trans (h.configured.trans h.own.symm)
  -- under the other keys of the tenant neither breaker changes
  have hr : ∀ key ∈ keys, key ∉ use.key →
      SameEntry (s.breaker.use use) (s'.breaker.use use) key := fun key hkey hne =>
    (use_lookup_ne hne).trans ((h.entries key hkey).trans (use_lookup_ne hne).symm)
  cases use with
  | «begin» cc =>
    refine ⟨rfl, (configured_begin cc).trans (configured_begin cc).symm, ?_, h.entries⟩
    exact (configured_begin cc).symm
  | «open» d c now =>
    have he := h.entries _ (hke _ rfl)
    exact ⟨congrArg some (open_congr he hc), h.configured, h.own, h.entries⟩
  | allow d c now =>
    obtain ⟨ht, he⟩ := allow_congr (h.entries _ (hke _ rfl)) hc
    refine ⟨congrArg some ht, h.configured, allow_config.trans h.own, fun key hkey => ?_⟩
    by_cases hk : key = circuitKey d c
    · subst hk
      exact he
    · exact hr key hkey fun hm => hk (Option.some.inj hm).symm
  | record d c success now =>
    have he := record_congr (h.entries _ (hke _ rfl)) hc
    refine ⟨rfl, h.configured, record_config.trans h.own, fun key hkey => ?_⟩
    by_cases hk : key = circuitKey d c
    · subst hk
      exact he
    · exact hr key hkey fun hm => hk (Option.some.inj hm).symm

/-- A tenant that is undisturbed is told what it would be told alone. -/
theorem toldTo_alone {b : Breaker} {uses : List TenantUse}
    (h : Allowed (TenantView.step tenantID) (Undisturbed tenantID (keysOf tenantID uses))
      (.of b) uses) :
    toldTo tenantID b uses = toldTo tenantID b (uses.filter (TenantUse.isOf tenantID)) := by
  have hk : Allowed (TenantView.step tenantID) (fun _ a => a.isOf tenantID = true →
      ∀ key ∈ a.use.key, key ∈ keysOf tenantID uses) (.of b) uses := by
    refine allowed_of_mem _ _ fun a ha _ hm key hke => ?_
    exact List.mem_filterMap.mpr ⟨a, List.mem_filter.mpr ⟨ha, hm⟩, hke⟩
  refine answers_purge (R := Alike (keysOf tenantID uses)) ?_ ?_ uses _ _ ⟨rfl, rfl, fun _ _ => rfl⟩
    (allowed_and.mpr ⟨h, hk⟩)
  · intro s s' a hR hok hm
    exact hR.mine hok.1 hm (hok.2 hm)
  · intro s s' a hR hok ho
    exact hR.other hok.1 ho

/-- **A tenant is told the same in two runs that differ only in the others**, if in both of them
its operations find its own parameters and its tuples' keys are its own. -/
theorem told_the_same (tenantID : String) (b : Breaker) (uses uses' : List TenantUse)
    (hsame : uses.filter (TenantUse.isOf tenantID) = uses'.filter (TenantUse.isOf tenantID))
    (h : Allowed (TenantView.step tenantID) (Undisturbed tenantID (keysOf tenantID uses))
      (.of b) uses)
    (h' : Allowed (TenantView.step tenantID) (Undisturbed tenantID (keysOf tenantID uses')) (.of b)
      uses') :
    toldTo tenantID b uses = toldTo tenantID b uses' := by
  rw [toldTo_alone h, toldTo_alone h', hsame]

/-- A request of a tenant with the built-in parameters, and its first call, which fails. -/
def patient : List TenantUse :=
  [⟨"a", .begin ⟨0, 0, 0, 0, 0⟩⟩, ⟨"a", .record "dep-a" "cred" false 1⟩]

/-- Its second call fails as well, and the next request asks for the same tuple. -/
def asking : List TenantUse :=
  [⟨"a", .record "dep-a" "cred" false 2⟩, ⟨"a", .begin ⟨0, 0, 0, 0, 0⟩⟩,
    ⟨"a", .open "dep-a" "cred" 3⟩, ⟨"a", .allow "dep-a" "cred" 3⟩]

/-- A request of another tenant, for which one failed call is enough. -/
def strict : List TenantUse :=
  [⟨"b", .begin ⟨1, 1 / 2, 1000, 1000, 1⟩⟩, ⟨"b", .allow "dep-b" "cred" 2⟩]

theorem undisturbed_told_the_same :
    toldTo "a" (.new .default) (patient ++ asking) = [false, true] ∧
      toldTo "a" (.new .default) (strict ++ patient ++ asking ++ strict)
        = toldTo "a" (.new .default) (patient ++ asking) :=
  ⟨by decide +kernel, told_the_same "a" _ _ _ (by rfl) (by decide +kernel) (by decide +kernel)⟩

/-- The other tenant's request comes between a call of the first tenant and its report. -/
theorem neighbour_opens_circuit :
    (patient ++ strict ++ asking).filter (TenantUse.isOf "a")
        = (patient ++ asking).filter (TenantUse.isOf "a") ∧
      toldTo "a" (.new .default) (patient ++ asking) = [false, true] ∧
      toldTo "a" (.new .default) (patient ++ strict ++ asking) = [true, false] :=
  ⟨rfl, by decide +kernel, by decide +kernel⟩

end LiteAIG.Execution
