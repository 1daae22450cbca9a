/-
Files and batches of the providers, through the gateway.

Files and batches live with the providers.  The gateway keeps, for the id of each one
it has seen created, the logical model it was created under, and sends a later request
for the id to where the caller's requests for that model go.  The two tables are keyed
by the id alone.

A provider is a set of accounts, and an account holds objects.  Which account a
caller's requests for a model reach, if they reach one, is an input of the request,
and so are the ids a provider chooses, whether the database answers, and which part of
a list is shown.  Beside each object and each row stands the tenant and project of the
request that made it, which no handler reads.  The contents of files, and the time
of a row, which only the purge reads, are left out.
-/
import LiteAIG.Lib.Assoc

namespace LiteAIG.Files

open Lib

structure Scope where
  (tenantID projectID : String)
  deriving DecidableEq

/-! ### The mapping store -/

structure BatchRow where
  logicalModel : String
  savedBy : Scope

structure FileRow where
  (logicalModel source sourceBatchID : String)
  savedBy : Scope

structure BatchMappingStore where
  batches : Assoc String BatchRow
  files : Assoc String FileRow

namespace BatchMappingStore

variable (s : BatchMappingStore)

def saveBatchMapping (savedBy : Scope) (batchID model : String) : BatchMappingStore :=
  if batchID = "" ∨ model = "" then s
  else { s with batches := s.batches.insert batchID ⟨model, savedBy⟩ }

def modelForBatch (batchID : String) : Option String :=
  (s.batches.lookup batchID).map (·.logicalModel)

def saveFileMapping (savedBy : Scope) (fileID model source sourceBatchID : String) :
    BatchMappingStore :=
  if fileID = "" ∨ model = "" ∨ source = "" then s
  else if source = "batch_result" ∧ sourceBatchID = "" then s
  else { s with files := s.files.insert fileID ⟨model, source, sourceBatchID, savedBy⟩ }

def saveBatchFileMapping (savedBy : Scope) (batchID fileID model : String) : BatchMappingStore :=
  s.saveFileMapping savedBy fileID model "batch_result" batchID

def modelForFile (fileID : String) : Option String :=
  (s.files.lookup fileID).map (·.logicalModel)

def deleteFileMapping (fileID : String) : BatchMappingStore :=
  if fileID = "" then s else { s with files := s.files.erase fileID }

/-- `PurgeFileMappingsOlderThan`; `old` tells the rows that are. -/
def purgeFileMappings (old : FileRow → Bool) : BatchMappingStore :=
  { s with files := s.files.filter fun row => !old row }

end BatchMappingStore

/-! ### The providers -/

inductive Kind
  | file | batch
  deriving DecidableEq

/-- A file or a batch.  The ids of the files that a batch has written are empty until it has. -/
structure Object where
  kind : Kind
  id : String
  creator : Scope
  (outputFileID errorFileID : String)
  deriving DecidableEq

structure Held where
  account : String
  object : Object

abbrev Upstream := List Held

namespace Upstream

def find (u : Upstream) (kind : Kind) (account id : String) : Option Object :=
  (u.find? fun h => h.account = account ∧ h.object.kind = kind ∧ h.object.id = id).map (·.object)

def list (u : Upstream) (kind : Kind) (account : String) : List Object :=
  (u.filter fun h => h.account = account ∧ h.object.kind = kind).map (·.object)

def delete (u : Upstream) (account id : String) : Upstream :=
  u.filter fun h => ¬ (h.account = account ∧ h.object.kind = .file ∧ h.object.id = id)

/-- The files that a batch has written. -/
def written (account : String) (creator : Scope) (ids : List String) : Upstream :=
  (ids.filter (· ≠ "")).map fun id => ⟨account, ⟨.file, id, creator, "", ""⟩⟩

/-- A batch is done and has written its files. -/
def finish (u : Upstream) (account batchID outputFileID errorFileID : String) : Upstream :=
  match u.find .batch account batchID with
  | none => u
  | some batch =>
    u.map (fun h => if h.account = account ∧ h.object = batch then
        { h with object := { batch with outputFileID, errorFileID } }
      else h) ++ written account batch.creator [outputFileID, errorFileID]

end Upstream

/-! ### The handlers -/

structure State where
  mappings : BatchMappingStore
  upstream : Upstream

/-- A caller, and what its request meets. -/
structure Caller where
  scope : Scope
  /-- The account that a request for a logical model reaches, if it is admitted and run. -/
  route : String → Option String
  /-- Whether the lookup in the database succeeds. -/
  reads : Bool
  /-- Whether the row for an id can be saved or deleted. -/
  writes : String → Bool

inductive Refusal
  | invalidRequest (message : String)
  | notFound (message : String)
  /-- The request is not admitted, fails on its way, or the provider refuses it. -/
  | failed
  deriving DecidableEq

/-- The objects that a request is answered with. -/
abbrev Answer := Except Refusal (List Object)

/-- `saveBatchMappings`. -/
def saveBatchMappings (s : BatchMappingStore) (c : Caller) (batch : Object) (model : String) :
    BatchMappingStore :=
  if batch.id = "" then s
  else
    let s := if c.writes batch.id then s.saveBatchMapping c.scope batch.id model else s
    [batch.outputFileID, batch.errorFileID].foldl
      (fun s fileID =>
        if c.writes fileID then s.saveBatchFileMapping c.scope batch.id fileID model else s) s

/-- `batchCreate`.  The provider chooses the ids. -/
def batchCreate (s : State) (c : Caller) (model id outputFileID errorFileID : String) :
    Answer × State :=
  match c.route model with
  | none => (.error .failed, s)
  | some account =>
    let batch : Object := ⟨.batch, id, c.scope, outputFileID, errorFileID⟩
    (.ok [batch],
      { mappings := saveBatchMappings s.mappings c batch model
        upstream := s.upstream ++ ⟨account, batch⟩ ::
          Upstream.written account c.scope [outputFileID, errorFileID] })

/-- Where requests for a batch go. -/
def batchAccount (s : State) (c : Caller) (id : String) : Except Refusal (String × String) :=
  match if c.reads then s.mappings.modelForBatch id else none with
  | none => .error (.notFound "batch mapping not found")
  | some model =>
    match c.route model with
    | none => .error .failed
    | some account => .ok (model, account)

def batchRetrieve (s : State) (c : Caller) (id : String) : Answer × State :=
  match batchAccount s c id with
  | .error refusal => (.error refusal, s)
  | .ok (model, account) =>
    match s.upstream.find .batch account id with
    | none => (.error .failed, s)
    | some batch => (.ok [batch], { s with mappings := saveBatchMappings s.mappings c batch model })

def batchCancel (s : State) (c : Caller) (id : String) : Answer × State :=
  match batchAccount s c id with
  | .error refusal => (.error refusal, s)
  | .ok (_, account) =>
    match s.upstream.find .batch account id with
    | none => (.error .failed, s)
    | some batch => (.ok [batch], s)

/-- A page of what an account holds. -/
def listed (s : State) (c : Caller) (kind : Kind) (missing model : String) (shown : Object → Bool) :
    Answer × State :=
  if model = "" then (.error (.invalidRequest missing), s)
  else
    match c.route model with
    | none => (.error .failed, s)
    | some account => (.ok ((s.upstream.list kind account).filter shown), s)

def batchList (s : State) (c : Caller) (model : String) (shown : Object → Bool) : Answer × State :=
  listed s c .batch "batch list requires model query parameter" model shown

def fileList (s : State) (c : Caller) (model : String) (shown : Object → Bool) : Answer × State :=
  listed s c .file "file list requires model query parameter" model shown

def fileUpload (s : State) (c : Caller) (model id : String) : Answer × State :=
  match c.route model with
  | none => (.error .failed, s)
  | some account =>
    let file : Object := ⟨.file, id, c.scope, "", ""⟩
    (.ok [file],
      { mappings :=
          if id ≠ "" ∧ c.writes id then s.mappings.saveFileMapping c.scope id model "upload" ""
          else s.mappings
        upstream := s.upstream ++ [⟨account, file⟩] })

/-- Where requests for a file go. -/
def fileAccount (s : State) (c : Caller) (id : String) : Except Refusal String :=
  match if c.reads then s.mappings.modelForFile id else none with
  | none => .error (.notFound "file mapping not found")
  | some model =>
    match c.route model with
    | none => .error .failed
    | some account => .ok account

/-- `fileRetrieve` and `fileContent`, which differ in what of the file they show. -/
def fileRead (s : State) (c : Caller) (id : String) : Answer × State :=
  match fileAccount s c id with
  | .error refusal => (.error refusal, s)
  | .ok account =>
    match s.upstream.find .file account id with
    | none => (.error .failed, s)
    | some file => (.ok [file], s)

/-- `fileDelete`; `deleted` is what the provider says. -/
def fileDelete (s : State) (c : Caller) (id : String) (deleted : Bool) : Answer × State :=
  match fileAccount s c id with
  | .error refusal => (.error refusal, s)
  | .ok account =>
    match s.upstream.find .file account id with
    | none => (.error .failed, s)
    | some file =>
      (.ok [file],
        { mappings :=
            if deleted ∧ c.writes id then s.mappings.deleteFileMapping id else s.mappings
          upstream := if deleted then s.upstream.delete account id else s.upstream })

/-! ### Histories -/

inductive Request
  | batchCreate (model id outputFileID errorFileID : String)
  | batchRetrieve (id : String)
  | batchCancel (id : String)
  | batchList (model : String) (shown : Object → Bool)
  | fileUpload (model id : String)
  | fileRetrieve (id : String)
  | fileContent (id : String)
  | fileDelete (id : String) (deleted : Bool)
  | fileList (model : String) (shown : Object → Bool)

inductive Event
  | request (caller : Caller) (request : Request)
  /-- A provider finishes a batch. -/
  | finish (account batchID outputFileID errorFileID : String)
  | purge (old : FileRow → Bool)

def handle (s : State) (c : Caller) : Request → Answer × State
  | .batchCreate model id outputFileID errorFileID =>
    batchCreate s c model id outputFileID errorFileID
  | .batchRetrieve id => batchRetrieve s c id
  | .batchCancel id => batchCancel s c id
  | .batchList model shown => batchList s c model shown
  | .fileUpload model id => fileUpload s c model id
  | .fileRetrieve id => fileRead s c id
  | .fileContent id => fileRead s c id
  | .fileDelete id deleted => fileDelete s c id deleted
  | .fileList model shown => fileList s c model shown

def step (s : State) : Event → State
  | .request c request => (handle s c request).2
  | .finish account batchID outputFileID errorFileID =>
    { s with upstream := s.upstream.finish account batchID outputFileID errorFileID }
  | .purge old => { s with mappings := s.mappings.purgeFileMappings old }

def State.new : State := ⟨⟨.empty, .empty⟩, []⟩

end LiteAIG.Files
