/-
Who can reach a file or a batch.

The tables of the gateway say nothing about tenants and projects, so what separates
them is elsewhere: a caller reaches what the account holds that its own requests go
to, and a row is moved by whoever is handed out its id.  If every account serves one
tenant and project, and ids handed out to different ones differ, then everything an
account holds and every row belongs to one of them, and no request leaves its own.
-/
import LiteAIG.Files.Handlers
import LiteAIG.Lib.Run

namespace LiteAIG.Files

open Lib List Option

/-! ### What is asked of a request -/

/-- Every object that is shown was created by the caller's tenant and project, and no row that
another one has saved is moved. -/
structure Isolated (s : State) (c : Caller) (r : Request) : Prop where
  shown : ∀ objects, (handle s c r).1 = .ok objects → ∀ object ∈ objects, object.creator = c.scope
  batches : ∀ id row, s.mappings.batches.lookup id = some row → row.savedBy ≠ c.scope →
    (handle s c r).2.mappings.modelForBatch id = some row.logicalModel
  files : ∀ id row, s.mappings.files.lookup id = some row → row.savedBy ≠ c.scope →
    (handle s c r).2.mappings.modelForFile id = some row.logicalModel

/-- Every request of a history meets that when it is made. -/
def Isolating (s : State) : Event → Prop
  | .request c r => Isolated s c r
  | .finish _ _ _ _ => True
  | .purge _ => True

/-- To whom accounts and ids belong. -/
structure Owners where
  account : String → Scope
  file : String → Scope
  batch : String → Scope

variable {o : Owners} {fileID : String}

/-- An id that is handed out is one of the owner's; an empty one is none. -/
def Hands (owner : String → Scope) (scope : Scope) (id : String) : Prop :=
  id ≠ "" → owner id = scope

/-- The requests of a tenant and project go to accounts that serve no other, and the ids a
provider chooses are handed out to no other. -/
def Separate (o : Owners) : Event → Prop
  | .request c r =>
    (∀ model account, c.route model = some account → o.account account = c.scope) ∧
      match r with
      | .batchCreate _ id outputFileID errorFileID =>
        Hands o.batch c.scope id ∧ Hands o.file c.scope outputFileID ∧
          Hands o.file c.scope errorFileID
      | .fileUpload _ id => Hands o.file c.scope id
      | _ => True
  | .finish account _ outputFileID errorFileID =>
    Hands o.file (o.account account) outputFileID ∧ Hands o.file (o.account account) errorFileID
  | .purge _ => True

/-- What an account holds belongs to whom the account serves. -/
structure HeldBy (o : Owners) (h : Held) : Prop where
  creator : h.object.creator = o.account h.account
  file : h.object.kind = .file → Hands o.file h.object.creator h.object.id
  batch : h.object.kind = .batch → Hands o.batch h.object.creator h.object.id
  output : Hands o.file h.object.creator h.object.outputFileID
  error : Hands o.file h.object.creator h.object.errorFileID

/-- Everything belongs to somebody. -/
structure Owned (o : Owners) (s : State) : Prop where
  held : ∀ h ∈ s.upstream, HeldBy o h
  batches : ∀ id row, s.mappings.batches.lookup id = some row → o.batch id = row.savedBy
  files : ∀ id row, s.mappings.files.lookup id = some row → o.file id = row.savedBy

theorem owned_new (o : Owners) : Owned o .new where
  held := by
    intro h hh
    cases hh
  batches := by
    intro id row h
    cases h
  files := by
    intro id row h
    cases h

/-! ### The tables -/

/-- Rows are only changed for ids of the caller, and those that are then there are the caller's. -/
structure Wrote (o : Owners) (scope : Scope) (m m' : BatchMappingStore) : Prop where
  batches : ∀ id, m'.batches.lookup id = m.batches.lookup id ∨
    o.batch id = scope ∧ ∀ row, m'.batches.lookup id = some row → row.savedBy = scope
  files : ∀ id, m'.files.lookup id = m.files.lookup id ∨
    o.file id = scope ∧ ∀ row, m'.files.lookup id = some row → row.savedBy = scope

namespace Wrote

variable {scope : Scope} {m m' m'' : BatchMappingStore}

theorem refl (o : Owners) (scope : Scope) (m : BatchMappingStore) : Wrote o scope m m :=
  ⟨fun _ => .inl rfl, fun _ => .inl rfl⟩

theorem trans (h : Wrote o scope m m') (h' : Wrote o scope m' m'') : Wrote o scope m m'' where
  batches id := by
    rcases h'.batches id with hs | hn
    · rw [hs]
      exact h.batches id
    · exact .inr hn
  files id := by
    rcases h'.files id with hs | hn
    · rw [hs]
      exact h.files id
    · exact .inr hn

variable (m : BatchMappingStore)

theorem saveBatchMapping {batchID : String} (model : String) (hid : Hands o.batch scope batchID) :
    Wrote o scope m (m.saveBatchMapping scope batchID model) := by
  unfold BatchMappingStore.saveBatchMapping
  split_ifs with hem
  · exact refl o scope m
  · refine ⟨fun id => ?_, fun _ => .inl rfl⟩
    by_cases h : id = batchID
    · subst h
      refine .inr ⟨hid fun he => hem (.inl he), ?_⟩
      intro row hr
      rw [Assoc.lookup_insert_self, Option.some.injEq] at hr
      rw [← hr]
    · exact .inl (Assoc.lookup_insert_ne h)

theorem saveFileMapping (model source batchID : String) (hid : Hands o.file scope fileID) :
    Wrote o scope m (m.saveFileMapping scope fileID model source batchID) := by
  unfold BatchMappingStore.saveFileMapping
  split_ifs with hem
  · exact refl o scope m
  · exact refl o scope m
  · refine ⟨fun _ => .inl rfl, fun id => ?_⟩
    by_cases h : id = fileID
    · subst h
      refine .inr ⟨hid fun he => hem (.inl he), ?_⟩
      intro row hr
      rw [Assoc.lookup_insert_self, Option.some.injEq] at hr
      rw [← hr]
    · exact .inl (Assoc.lookup_insert_ne h)

theorem deleteFileMapping (hid : Hands o.file scope fileID) :
    Wrote o scope m (m.deleteFileMapping fileID) := by
  unfold BatchMappingStore.deleteFileMapping
  split_ifs with he
  · exact refl o scope m
  · refine ⟨fun _ => .inl rfl, fun id => ?_⟩
    by_cases h : id = fileID
    · subst h
      refine .inr ⟨hid he, fun row hr => ?_⟩
      rw [Assoc.lookup_erase_self] at hr
      cases hr
    · exact .inl (Assoc.lookup_erase_ne h)

theorem saveBatchMappings {c : Caller} {batch : Object} (model : String)
    (hid : Hands o.batch c.scope batch.id) (ho : Hands o.file c.scope batch.outputFileID)
    (he : Hands o.file c.scope batch.errorFileID) :
    Wrote o c.scope m (Files.saveBatchMappings m c batch model) := by
  have hf : ∀ (m : BatchMappingStore) {fileID : String}, Hands o.file c.scope fileID →
      Wrote o c.scope m (if c.writes fileID then
        m.saveBatchFileMapping c.scope batch.id fileID model else m) := by
    intro m fileID hid
    split
    · exact saveFileMapping m model _ _ hid
    · exact refl o _ m
  unfold Files.saveBatchMappings
  split
  · exact refl o _ m
  · refine trans ?_ ((hf _ ho).trans (hf _ he))
    split
    · exact saveBatchMapping m model hid
    · exact refl o _ m

end Wrote

/-! ### The providers -/

variable {u : Upstream} {kind : Kind} {account : String} {object : Object} {id : String}

theorem mem_of_find (h : u.find kind account id = some object) :
    ⟨account, object⟩ ∈ u ∧ object.kind = kind ∧ object.id = id := by
  obtain ⟨held, hf, rfl⟩ := map_eq_some_iff.mp h
  have hm : held.account = account ∧ held.object.kind = kind ∧ held.object.id = id := by
    simpa using List.find?_some hf
  obtain ⟨rfl, hk, hid⟩ := hm
  exact ⟨mem_of_find?_eq_some hf, hk, hid⟩

theorem mem_of_list (h : object ∈ u.list kind account) : ⟨account, object⟩ ∈ u := by
  obtain ⟨held, hh, rfl⟩ := mem_map.mp h
  obtain ⟨hme, hm⟩ := mem_filter.mp hh
  have ha : held.account = account := (of_decide_eq_true hm).1
  rw [← ha]
  exact hme

theorem heldBy_written {scope : Scope} {ids : List String} (ha : o.account account = scope)
    (hi : ∀ id ∈ ids, Hands o.file scope id) :
    ∀ h ∈ Upstream.written account scope ids, HeldBy o h := by
  intro h hh
  obtain ⟨id, hid, rfl⟩ := mem_map.mp hh
  exact
    { creator := ha.symm
      file := fun _ => hi id (mem_of_mem_filter hid)
      batch := fun hk => Kind.noConfusion hk
      output := fun hne => absurd rfl hne
      error := fun hne => absurd rfl hne }

theorem heldBy_finish {batchID outputFileID errorFileID : String} (hu : ∀ h ∈ u, HeldBy o h)
    (ho : Hands o.file (o.account account) outputFileID)
    (he : Hands o.file (o.account account) errorFileID) :
    ∀ h ∈ u.finish account batchID outputFileID errorFileID, HeldBy o h := by
  intro h hh
  unfold Upstream.finish at hh
  split at hh
  · exact hu h hh
  · rename_i batch hf
    obtain ⟨hme, -, -⟩ := mem_of_find hf
    have hb := hu _ hme
    have hc : batch.creator = o.account account := hb.creator
    rcases mem_append.mp hh with hh | hh
    · obtain ⟨held, hhe, rfl⟩ := mem_map.mp hh
      split
      · rename_i hm
        obtain ⟨rfl, -⟩ := hm
        exact ⟨hb.creator, hb.file, hb.batch, hc ▸ ho, hc ▸ he⟩
      · exact hu held hhe
    · refine heldBy_written hc.symm ?_ h hh
      simp only [mem_cons, not_mem_nil, or_false]
      rintro id (rfl | rfl)
      · exact hc ▸ ho
      · exact hc ▸ he

/-! ### The requests -/

/-- What a request of a caller does, given what belongs to whom. -/
structure Kept (o : Owners) (s : State) (c : Caller) (done : Answer × State) : Prop where
  shown : ∀ objects, done.1 = .ok objects → ∀ object ∈ objects, object.creator = c.scope
  wrote : Wrote o c.scope s.mappings done.2.mappings
  held : ∀ h ∈ done.2.upstream, HeldBy o h

/-- The caller's requests go to accounts of its own. -/
def RoutesOwn (o : Owners) (c : Caller) : Prop :=
  ∀ model account, c.route model = some account → o.account account = c.scope

section

variable {s : State} {c : Caller}

theorem kept_refused (ho : Owned o s) (refusal : Refusal) : Kept o s c (.error refusal, s) where
  shown _ h := by cases h
  wrote := Wrote.refl o _ _
  held := ho.held

variable {model : String} {r : Request}

theorem kept_shown (how : Owned o s) (ha : o.account account = c.scope)
    {objects : List Object} (ho : ∀ object ∈ objects, ⟨account, object⟩ ∈ s.upstream) :
    Kept o s c (.ok objects, s) where
  shown found h object hob := by
    obtain rfl := Except.ok.inj h
    exact (how.held _ (ho object hob)).creator.trans ha
  wrote := Wrote.refl o _ _
  held := how.held

theorem kept_batchCreate (hown : Owned o s) (hr : RoutesOwn o c)
    {id outputFileID errorFileID : String} (hid : Hands o.batch c.scope id)
    (ho : Hands o.file c.scope outputFileID) (he : Hands o.file c.scope errorFileID) :
    Kept o s c (batchCreate s c model id outputFileID errorFileID) := by
  unfold batchCreate
  split
  · exact kept_refused hown _
  · rename_i account ha
    have how := hr model account ha
    refine ⟨?_, Wrote.saveBatchMappings _ model hid ho he, ?_⟩
    · intro objects h object hob
      obtain rfl := Except.ok.inj h
      rw [mem_singleton.mp hob]
    · intro h hh
      rcases mem_append.mp hh with hh | hh
      · exact hown.held h hh
      · rcases mem_cons.mp hh with rfl | hh
        · exact ⟨how.symm, fun hk => Kind.noConfusion hk, fun _ => hid, ho, he⟩
        · refine heldBy_written how ?_ h hh
          simp only [mem_cons, not_mem_nil, or_false]
          rintro id (rfl | rfl)
          · exact ho
          · exact he

theorem batchAccount_owner (hr : RoutesOwn o c) (h : batchAccount s c id = .ok (model, account)) :
    o.account account = c.scope := by
  unfold batchAccount at h
  split at h
  · cases h
  · split at h
    · cases h
    · rename_i account' ha
      obtain ⟨-, rfl⟩ := Prod.mk.inj (Except.ok.inj h)
      exact hr _ _ ha

theorem fileAccount_owner (hr : RoutesOwn o c) (h : fileAccount s c id = .ok account) :
    o.account account = c.scope := by
  unfold fileAccount at h
  split at h
  · cases h
  · split at h
    · cases h
    · rename_i account' ha
      obtain rfl := Except.ok.inj h
      exact hr _ _ ha

theorem kept_batchRetrieve (how : Owned o s) (hr : RoutesOwn o c) (id : String) :
    Kept o s c (batchRetrieve s c id) := by
  unfold batchRetrieve
  split
  · exact kept_refused how _
  · rename_i model account ha
    split
    · exact kept_refused how _
    · rename_i batch hf
      obtain ⟨hm, hk, -⟩ := mem_of_find hf
      have ho := batchAccount_owner hr ha
      have hb := how.held _ hm
      have hc : batch.creator = c.scope := hb.creator.trans ho
      have hs : Kept o s c (.ok [batch], s) := kept_shown how ho (by simpa using hm)
      refine ⟨hs.shown, Wrote.saveBatchMappings _ model ?_ ?_ ?_, how.held⟩
      · exact hc ▸ hb.batch hk
      · exact hc ▸ hb.output
      · exact hc ▸ hb.error

theorem kept_batchCancel (ho : Owned o s) (hr : RoutesOwn o c) (id : String) :
    Kept o s c (batchCancel s c id) := by
  unfold batchCancel
  split
  · exact kept_refused ho _
  · rename_i model account ha
    split
    · exact kept_refused ho _
    · rename_i batch hf
      exact kept_shown ho (batchAccount_owner hr ha) (by simpa using (mem_of_find hf).1)

theorem kept_listed (how : Owned o s) (hr : RoutesOwn o c) (kind : Kind)
    (missing model : String) (shown : Object → Bool) :
    Kept o s c (listed s c kind missing model shown) := by
  unfold listed
  split
  · exact kept_refused how _
  · split
    · exact kept_refused how _
    · rename_i account ha
      exact kept_shown how (hr model account ha) fun object ho =>
        mem_of_list (mem_of_mem_filter ho)

theorem kept_fileUpload (how : Owned o s) (hr : RoutesOwn o c) (hid : Hands o.file c.scope id) :
    Kept o s c (fileUpload s c model id) := by
  unfold fileUpload
  split
  · exact kept_refused how _
  · rename_i account ha
    refine ⟨?_, ?_, ?_⟩
    · intro objects h object ho
      obtain rfl := Except.ok.inj h
      rw [mem_singleton.mp ho]
    · dsimp only
      split
      · exact Wrote.saveFileMapping _ model _ _ hid
      · exact Wrote.refl o _ _
    · intro h hh
      rcases mem_append.mp hh with hh | hh
      · exact how.held h hh
      · rw [mem_singleton.mp hh]
        exact ⟨(hr model account ha).symm, fun _ => hid, fun hk => Kind.noConfusion hk,
          fun hne => absurd rfl hne, fun hne => absurd rfl hne⟩

theorem kept_fileRead (ho : Owned o s) (hr : RoutesOwn o c) (id : String) :
    Kept o s c (fileRead s c id) := by
  unfold fileRead
  split
  · exact kept_refused ho _
  · rename_i account ha
    split
    · exact kept_refused ho _
    · rename_i file hf
      exact kept_shown ho (fileAccount_owner hr ha) (by simpa using (mem_of_find hf).1)

theorem kept_fileDelete (how : Owned o s) (hr : RoutesOwn o c) (id : String) (deleted : Bool) :
    Kept o s c (fileDelete s c id deleted) := by
  unfold fileDelete
  split
  · exact kept_refused how _
  · rename_i account ha
    split
    · exact kept_refused how _
    · rename_i file hfi
      obtain ⟨hm, hk, hid⟩ := mem_of_find hfi
      have ho := fileAccount_owner hr ha
      have hf := how.held _ hm
      have hc : file.creator = c.scope := hf.creator.trans ho
      have hha : Hands o.file c.scope id := by
        rw [← hid, ← hc]
        exact hf.file hk
      have hs : Kept o s c (.ok [file], s) := kept_shown how ho (by simpa using hm)
      refine ⟨hs.shown, ?_, ?_⟩
      · dsimp only
        split
        · exact Wrote.deleteFileMapping _ hha
        · exact Wrote.refl o _ _
      · intro h hh
        dsimp only at hh
        split at hh
        · exact how.held h (mem_of_mem_filter hh)
        · exact how.held h hh

theorem kept_handle (ho : Owned o s) (hs : Separate o (.request c r)) :
    Kept o s c (handle s c r) := by
  obtain ⟨hr, hi⟩ := hs
  cases r with
  | batchCreate model id outputFileID errorFileID =>
    exact kept_batchCreate ho hr hi.1 hi.2.1 hi.2.2
  | batchRetrieve id => exact kept_batchRetrieve ho hr id
  | batchCancel id => exact kept_batchCancel ho hr id
  | batchList model shown => exact kept_listed ho hr .batch _ model shown
  | fileUpload model id => exact kept_fileUpload ho hr hi
  | fileRetrieve id => exact kept_fileRead ho hr id
  | fileContent id => exact kept_fileRead ho hr id
  | fileDelete id deleted => exact kept_fileDelete ho hr id deleted
  | fileList model shown => exact kept_listed ho hr .file _ model shown

theorem Kept.isolated (hown : Owned o s) (h : Kept o s c (handle s c r)) :
    Isolated s c r where
  shown := h.shown
  batches id row hr ho := by
    rcases h.wrote.batches id with hs | ⟨how, -⟩
    · rw [BatchMappingStore.modelForBatch, hs, hr, map_some]
    · exact absurd ((hown.batches id row hr).symm.trans how) ho
  files id row hr ho := by
    rcases h.wrote.files id with hs | ⟨how, -⟩
    · rw [BatchMappingStore.modelForFile, hs, hr, map_some]
    · exact absurd ((hown.files id row hr).symm.trans how) ho

end

theorem Owned.wrote {s : State} {m : BatchMappingStore} {scope : Scope} (how : Owned o s)
    (hw : Wrote o scope s.mappings m) (hh : ∀ h ∈ u, HeldBy o h) :
    Owned o ⟨m, u⟩ where
  held := hh
  batches id row hr := by
    rcases hw.batches id with hsa | ⟨ho, hs⟩
    · exact how.batches id row (hsa ▸ hr)
    · rw [ho, hs row hr]
  files id row hr := by
    rcases hw.files id with hsa | ⟨ho, hs⟩
    · exact how.files id row (hsa ▸ hr)
    · rw [ho, hs row hr]

theorem owned_step {s : State} {e : Event} (ho : Owned o s) (hs : Separate o e) :
    Owned o (step s e) := by
  cases e with
  | request c r =>
    have hk := kept_handle ho hs
    exact ho.wrote hk.wrote hk.held
  | finish account batchID outputFileID errorFileID =>
    exact ho.wrote (Wrote.refl o (o.account account) _) (heldBy_finish ho.held hs.1 hs.2)
  | purge old =>
    refine ⟨ho.held, ho.batches, fun id row hr => ho.files id row ?_⟩
    have hf : (s.mappings.files.lookup id).filter (fun row => !old row) = some row := by
      rw [← Assoc.lookup_filter]
      exact hr
    exact (filter_eq_some_iff.mp hf).1

/--
**Files and batches stay with their tenant and project as long as the providers keep them
apart.**  In every history in which each account serves one tenant and project and ids handed out
to different ones differ, every request is isolated from the others'.
-/
theorem files_isolated_of_separate (o : Owners) (history : List Event)
    (hsep : Allowed step (fun _ e => Separate o e) .new history) :
    Allowed step Isolating .new history := by
  refine Allowed.mono (I := Owned o) (fun s e ho hok => owned_step ho hok) ?_ history .new
    (owned_new o) hsep
  intro s e ho hok
  cases e with
  | request c r => exact (kept_handle ho hok).isolated ho
  | finish | purge => trivial

/-- A caller of a project whose requests all go to one account. -/
def callerOf (tenantID projectID account : String) : Caller :=
  ⟨⟨tenantID, projectID⟩, fun _ => some account, true, fun _ => true⟩

/-- Two projects with an account each. -/
def ownAccounts : List Event :=
  [.request (callerOf "t1" "p1" "a1") (.fileUpload "gpt" "file-1"),
    .request (callerOf "t1" "p2" "a2") (.fileUpload "gpt" "file-2"),
    .request (callerOf "t1" "p2" "a2") (.fileContent "file-1")]

theorem own_accounts_isolated : Allowed step Isolating .new ownAccounts := by
  refine files_isolated_of_separate
    ⟨fun a => if a = "a1" then ⟨"t1", "p1"⟩ else ⟨"t1", "p2"⟩,
      fun id => if id = "file-1" then ⟨"t1", "p1"⟩
        else ⟨"t1", "p2"⟩, fun _ => ⟨"", ""⟩⟩ ownAccounts ?_
  simp [ownAccounts, Separate, Hands, callerOf]

/-- Projects that share an account read each other's files, and where a provider of another tenant
chooses an id that is in use, the row moves to the other tenant's model. -/
theorem shared_account_read :
    (handle (run step .new [.request (callerOf "t1" "p1" "a") (.fileUpload "gpt" "file-1")])
        (callerOf "t1" "p2" "a") (.fileContent "file-1")).1
        = .ok [⟨.file, "file-1", ⟨"t1", "p1"⟩, "", ""⟩] ∧
      ((run step .new [.request (callerOf "t1" "p1" "a")
        (.fileUpload "gpt" "file-1")]).mappings.modelForFile
          "file-1" = some "gpt" ∧
        (run step .new [.request (callerOf "t1" "p1" "a") (.fileUpload "gpt" "file-1"),
            .request (callerOf "t2" "p" "b") (.fileUpload "llama" "file-1")]).mappings.modelForFile
          "file-1" = some "llama") ∧
      ¬ Allowed step Isolating .new
        [.request (callerOf "t1" "p1" "a") (.fileUpload "gpt" "file-1"),
          .request (callerOf "t1" "p2" "a") (.fileContent "file-1")] := by
  refine ⟨by decide +kernel, ⟨by decide +kernel, by decide +kernel⟩, ?_⟩
  rintro ⟨-, hr, -⟩
  exact absurd (hr.shown [⟨.file, "file-1", ⟨"t1", "p1"⟩, "", ""⟩] (by decide +kernel) _
    mem_cons_self) (by decide +kernel)

end LiteAIG.Files
