/-
The accounting spool: an append-only log of events in segment files.

An event is written as one line of JSON with a checksum, at the end of the newest
segment; a segment that would grow too large is followed by a new one.  Next to its
files a segment keeps an index in memory: the ids, the sizes and the offsets of its
lines, and how many of them, from the front, are committed.  Committed ids are also
listed in `committed.log`, which is what a reopened spool knows of them.  A segment
whose events are all committed is deleted.

The directory is modelled down to the bytes, and files apart from their names, since
a name can be given out twice.  A write may store only a part of its line and a sync
may fail; nothing else does.  Facts are of any type, and `encoding/json` and SHA-256
are given.
-/
import LiteAIG.Lib.Calendar
import LiteAIG.Lib.Files
import LiteAIG.Lib.Run

namespace LiteAIG.Spool

open Lib

abbrev Bytes := List UInt8

def newline : UInt8 := 10

/-! ### Records -/

/-- An event, as the caller has it and as it stands on disk. -/
structure SpoolRecord (φ : Type) where
  (eventID requestID tenantID projectID : String)
  eventTS : Time
  pricingVersion : String
  facts : φ
  checksum : String
  deriving DecidableEq

/-- `json.Marshal` and `json.Unmarshal` of a record, and SHA-256.  The text of a record
is an object on one line: it ends in a brace, and no shorter piece of it is an object. -/
structure Codec (φ : Type) where
  marshal : SpoolRecord φ → Except String Bytes
  unmarshal : Bytes → Except String (SpoolRecord φ)
  sha256 : Bytes → Bytes
  roundTrip : ∀ {rec data}, marshal rec = .ok data → unmarshal data = .ok rec
  oneLine : ∀ {rec data}, marshal rec = .ok data → newline ∉ data
  braced : ∀ {rec data}, marshal rec = .ok data → data.getLast? = some 125
  cut : ∀ {rec data}, marshal rec = .ok data → ∀ k < data.length,
    ∃ e, unmarshal (data.take k) = .error e
  sha256_length : ∀ data, (sha256 data).length = 32

inductive SpoolError
  /-- "accounting spool unavailable" -/
  | unavailable
  | marshal (reason : String)
  /-- "corrupt spool segment NAME: REASON" -/
  | corrupt (name reason : String)
  /-- "bufio.Scanner: token too long" -/
  | tooLong
  /-- "no such file or directory" -/
  | notFound (name : String)
  /-- "file already closed" -/
  | fileClosed (name : String)
  deriving DecidableEq

section

variable {φ : Type} (codec : Codec φ)

def checksumOf (payload : Bytes) : String := String.ofList (hexEncode (codec.sha256 payload))

def decodeRecord (line : Bytes) : Except String (SpoolRecord φ) :=
  match codec.unmarshal line with
  | .error e => .error e
  | .ok rec =>
    if rec.checksum = "" then .error "missing checksum"
    else
      match codec.marshal { rec with checksum := "" } with
      | .error e => .error e
      | .ok payload =>
        if checksumOf codec payload ≠ rec.checksum then
          .error ("checksum mismatch for event " ++ rec.eventID)
        else .ok { rec with checksum := "" }

def serialize (event : SpoolRecord φ) : Except String Bytes :=
  match codec.marshal { event with checksum := "" } with
  | .error e => .error e
  | .ok payload =>
    match codec.marshal { event with checksum := checksumOf codec payload } with
    | .error e => .error e
    | .ok text => .ok (text ++ [newline])

end

/-! ### State -/

structure Config where
  (segmentBytes fsyncEvery : Int)

structure Segment where
  name : String
  (file bytes : Nat)
  (ids tenants : List String)
  (sizes offsets : List Nat)
  committedCount : Nat

structure TenantUsage where
  (events bytes : Int)

/-- What is pending, in all and by tenant. -/
structure Counters where
  tenants : Assoc String TenantUsage
  (pendingEvents pendingBytes : Int)

structure FileSpool where
  config : Config
  segments : List Segment
  committed : List String
  counters : Counters
  appends : Nat
  closed : Bool

/-- The directory: the segment files, and `committed.log`. -/
structure Dir where
  files : Files
  committedLog : Option Bytes

def Dir.empty : Dir := ⟨Files.empty, none⟩

def Counters.zero : Counters := ⟨Assoc.empty, 0, 0⟩

def Counters.add (c : Counters) (tenantID : String) (size : Nat) : Counters where
  tenants :=
    match c.tenants.lookup tenantID with
    | none => c.tenants.insert tenantID ⟨1, size⟩
    | some u => c.tenants.insert tenantID ⟨u.events + 1, u.bytes + size⟩
  pendingEvents := c.pendingEvents + 1
  pendingBytes := c.pendingBytes + size

def Counters.sub (c : Counters) (tenantID : String) (size : Nat) : Counters where
  tenants :=
    match c.tenants.lookup tenantID with
    | none => c.tenants
    | some u => c.tenants.insert tenantID ⟨u.events - 1, u.bytes - size⟩
  pendingEvents := c.pendingEvents - 1
  pendingBytes := c.pendingBytes - size

def Segment.create (name : String) (file : Nat) : Segment :=
  ⟨name, file, 0, [], [], [], [], 0⟩

/-- One more line in the index. -/
def Segment.push (seg : Segment) (id tenantID : String) (size : Nat) : Segment :=
  { seg with
    bytes := seg.bytes + size
    ids := seg.ids ++ [id]
    tenants := seg.tenants ++ [tenantID]
    sizes := seg.sizes ++ [size]
    offsets := seg.offsets ++ [seg.bytes] }

/-- Every event of the segment is committed, and there is one. -/
def Segment.full (seg : Segment) : Bool :=
  decide (0 < seg.ids.length) && decide (seg.committedCount = seg.ids.length)

/-- How many more events, from the first that is not yet committed on, are known to be. -/
def Segment.advance (known : String → Bool) (seg : Segment) : Nat :=
  ((seg.ids.drop seg.committedCount).takeWhile known).length

/-- `fmt.Sprintf("segment-%06d.wal", n)`. -/
def segmentName (n : Nat) : String :=
  let digits := Nat.toDigits 10 n
  String.ofList
    ("segment-".toList ++ (List.replicate (6 - digits.length) '0' ++ digits) ++ ".wal".toList)

/-- The ids as `committed.log` lists them. -/
def logLines (ids : List String) : Bytes := joinLines newline (ids.map utf8)

/-! ### Append -/

/-- How a write goes: it is done, it fails after so many bytes are in the file, or it is
done and the sync after it fails. -/
inductive WriteOutcome
  | done
  | short (stored : Nat)
  | syncFails
  deriving DecidableEq

namespace FileSpool

variable (s : FileSpool)

def rotate (dir : Dir) : FileSpool × Dir :=
  let name := segmentName (s.segments.length + 1)
  match dir.files.create name with
  | (file, files) =>
    ({ s with segments := s.segments ++ [Segment.create name file] }, { dir with files := files })

/-- The newest segment has no room for the line, or there is none. -/
def needsRoom (line : Bytes) : Bool :=
  match s.segments.getLast? with
  | none => true
  | some current => decide (s.config.segmentBytes < ((current.bytes + line.length : Nat) : Int))

/-- There is a segment. -/
def withSegment (dir : Dir) : FileSpool × Dir :=
  if s.segments = [] then s.rotate dir else (s, dir)

/-- The newest segment has room for the line, or is a new one. -/
def withRoom (line : Bytes) (dir : Dir) : FileSpool × Dir :=
  if s.needsRoom line then s.rotate dir else (s, dir)

def append {φ : Type} (codec : Codec φ) (s : FileSpool) (outcome : WriteOutcome)
    (event : SpoolRecord φ) (dir : Dir) : Except SpoolError Unit × FileSpool × Dir :=
  if s.closed then (.error .unavailable, s, dir)
  else
    let opened := s.withSegment dir
    match serialize codec event with
    | .error e => (.error (.marshal e), opened)
    | .ok line =>
      let ready := opened.1.withRoom line opened.2
      write ready.1 outcome event line ready.2
where
  /-- Write the line to the newest segment, and index it. -/
  write (s : FileSpool) (outcome : WriteOutcome) (event : SpoolRecord φ) (line : Bytes)
      (dir : Dir) : Except SpoolError Unit × FileSpool × Dir :=
    match s.segments.getLast? with
    | none => (.error .unavailable, s, dir)
    | some current =>
      match outcome with
      | .short stored =>
        (.error .unavailable, s,
          { dir with files := dir.files.append current.file (line.take stored) })
      | outcome =>
        let dir := { dir with files := dir.files.append current.file line }
        let s := { s with appends := s.appends + 1 }
        if (s.appends : Int) % s.config.fsyncEvery = 0 ∧ outcome = .syncFails then
          (.error .unavailable, s, dir)
        else
          (.ok (),
            { s with
              segments := s.segments.dropLast ++
                [current.push event.eventID event.tenantID line.length]
              counters := s.counters.add event.tenantID line.length },
            dir)

/-! ### Pending -/

end FileSpool

/-- What `bufio.ScanLines` makes of the data: a last line needs no newline. -/
def scanLines (data : Bytes) : List Bytes :=
  match cutLines newline data with
  | (lines, tail) => if tail = [] then lines else lines ++ [tail]

/-- A carriage return before the newline is dropped. -/
def dropCR (line : Bytes) : Bytes := if line.getLast? = some 13 then line.dropLast else line

/-- The scanner's buffer: a line and its newline have to fit. -/
def maxTokenSize : Nat := 16 * 1024 * 1024

namespace FileSpool

variable {φ : Type} (codec : Codec φ)

/-- The loop over a segment's lines.  `limit` is compared with the length of all that
has been collected so far. -/
def scan (s : FileSpool) (name : String) (limit : Int) :
    List Bytes → List (SpoolRecord φ) → Except SpoolError (List (SpoolRecord φ))
  | [], out => .ok out
  | line :: rest, out =>
    if maxTokenSize ≤ line.length then .error .tooLong
    else if dropCR line = [] then s.scan name limit rest out
    else
      match decodeRecord codec (dropCR line) with
      | .error e => .error (.corrupt name e)
      | .ok rec =>
        if rec.eventID ∈ s.committed then s.scan name limit rest out
        else if limit ≤ ((out.length + 1 : Nat) : Int) then .ok (out ++ [rec])
        else s.scan name limit rest (out ++ [rec])

def collectPending (s : FileSpool) (files : Files) (seg : Segment) (limit : Int)
    (out : List (SpoolRecord φ)) : Except SpoolError (List (SpoolRecord φ)) :=
  if seg.ids.length ≤ seg.committedCount then .ok out
  else if s.closed then .error (.fileClosed seg.name)
  else
    s.scan codec seg.name limit
      (scanLines ((files.content seg.file).drop (seg.offsets.getD seg.committedCount 0))) out

/-- The loop over the segments. -/
def collect (s : FileSpool) (files : Files) (limit : Int) :
    List Segment → List (SpoolRecord φ) → Except SpoolError (List (SpoolRecord φ))
  | [], out => .ok out
  | seg :: rest, out =>
    if limit ≤ (out.length : Int) then .ok out
    else
      match s.collectPending codec files seg (limit - out.length) out with
      | .error e => .error e
      | .ok out => s.collect files limit rest out

def pending (s : FileSpool) (dir : Dir) (limit : Int) :
    Except SpoolError (List (SpoolRecord φ)) :=
  if limit ≤ 0 then .ok [] else s.collect codec dir.files limit s.segments []

/-! ### Commit -/

/-- Mark the ids; those that were not marked yet come back too. -/
def mark : List String → List String → List String × List String
  | [], committed => (committed, [])
  | id :: rest, committed =>
    if id ∈ committed then mark rest committed
    else
      match mark rest (committed ++ [id]) with
      | (committed, added) => (committed, id :: added)

/-- Move on past the events that are known to be committed, and take them off the counters. -/
def release (known : String → Bool) (seg : Segment) (c : Counters) : Segment × Counters :=
  let gone := ((seg.tenants.zip seg.sizes).drop seg.committedCount).take (seg.advance known)
  ({ seg with committedCount := seg.committedCount + seg.advance known },
    gone.foldl (fun c e => c.sub e.1 e.2) c)

def releaseAll (known : String → Bool) : List Segment → Counters → List Segment × Counters
  | [], c => ([], c)
  | seg :: rest, c =>
    match release known seg c with
    | (seg, c) =>
      match releaseAll known rest c with
      | (rest, c) => (seg :: rest, c)

/-- The ids of the segments' committed events. -/
def committedIDs (segments : List Segment) : List String :=
  segments.flatMap fun seg => seg.ids.take seg.committedCount

def removeFullyCommittedLocked (s : FileSpool) (dir : Dir) : FileSpool × Dir :=
  let removed := s.segments.filter (·.full)
  if removed = [] then (s, dir)
  else
    let keep := s.segments.filter (!·.full)
    ({ s with
      segments := keep
      committed := s.committed.filter fun id => decide (id ∉ removed.flatMap (·.ids)) },
      { files := removed.foldl (fun files seg => files.remove seg.name) dir.files
        committedLog := some (logLines (committedIDs keep)) })

def commit (s : FileSpool) (ids : List String) (dir : Dir) : FileSpool × Dir :=
  if ids = [] then (s, dir)
  else
    match mark ids s.committed with
    | (committed, added) =>
      match releaseAll (fun id => decide (id ∈ committed)) s.segments s.counters with
      | (segments, counters) =>
        removeFullyCommittedLocked
          { s with segments := segments, committed := committed, counters := counters }
          { dir with committedLog := some (dir.committedLog.getD [] ++ logLines added) }

/-! ### New -/

/-- The lines of a segment file, up to the last newline. -/
def loadLines : List Bytes → Segment → Except SpoolError Segment
  | [], seg => .ok seg
  | line :: rest, seg =>
    if line = [] then loadLines rest { seg with bytes := seg.bytes + 1 }
    else
      match decodeRecord codec line with
      | .error e => .error (.corrupt seg.name e)
      | .ok rec => loadLines rest (seg.push rec.eventID rec.tenantID (line.length + 1))

/-- What follows the last newline is cut off the file if it is no record, and is a line
of the segment if it is one. -/
def loadSegment (files : Files) (name : String) : Except SpoolError Segment × Files :=
  match files.names.lookup name with
  | none => (.error (.notFound name), files)
  | some file =>
    match cutLines newline (files.content file) with
    | (lines, tail) =>
      match loadLines codec lines (Segment.create name file) with
      | .error e => (.error e, files)
      | .ok seg =>
        if tail = [] then (.ok seg, files)
        else
          match decodeRecord codec tail with
          | .error _ => (.ok seg, files.write file ((files.content file).take seg.bytes))
          | .ok rec => (.ok (seg.push rec.eventID rec.tenantID tail.length), files)

def loadSegments (files : Files) : List String → Except SpoolError (List Segment) × Files
  | [] => (.ok [], files)
  | name :: rest =>
    match loadSegment codec files name with
    | (.error e, files) => (.error e, files)
    | (.ok seg, files) =>
      match loadSegments files rest with
      | (.error e, files) => (.error e, files)
      | (.ok segments, files) => (.ok (seg :: segments), files)

/-- The lines of `committed.log`. -/
def knownIDs (log : Option Bytes) : List Bytes :=
  match cutLines newline (log.getD []) with
  | (lines, tail) => (lines ++ [tail]).filter (· ≠ [])

/-- `committed.log` has the id. -/
def known (log : Option Bytes) (id : String) : Bool := decide (utf8 id ∈ knownIDs log)

/-- The counters of what is not committed. -/
def countPending (segments : List Segment) : Counters :=
  (segments.flatMap fun seg => (seg.tenants.zip seg.sizes).drop seg.committedCount).foldl
    (fun c e => c.add e.1 e.2) Counters.zero

def rebuildStateLocked (s : FileSpool) (dir : Dir) : FileSpool × Dir :=
  let keep := s.segments.filter (!·.full)
  ({ s with
    segments := keep
    committed := committedIDs keep
    counters := countPending s.segments },
    { dir with
      files := (s.segments.filter (·.full)).foldl (fun files seg => files.remove seg.name)
        dir.files })

def applyCommittedLog (s : FileSpool) (dir : Dir) : FileSpool × Dir :=
  let move := fun seg : Segment =>
    { seg with committedCount := seg.committedCount + seg.advance (known dir.committedLog) }
  rebuildStateLocked { s with segments := s.segments.map move } dir

def Config.defaults (config : Config) : Config where
  segmentBytes := if config.segmentBytes ≤ 0 then 16777216 else config.segmentBytes
  fsyncEvery := if config.fsyncEvery ≤ 0 then 1 else config.fsyncEvery

def new (config : Config) (dir : Dir) : Except SpoolError FileSpool × Dir :=
  match loadSegments codec dir.files dir.files.list with
  | (.error e, files) => (.error e, { dir with files := files })
  | (.ok segments, files) =>
    match applyCommittedLog ⟨Config.defaults config, segments, [], Counters.zero, 0, false⟩
        { dir with files := files } with
    | (s, dir) =>
      if s.segments = [] then
        match s.rotate dir with
        | (s, dir) => (.ok s, dir)
      else (.ok s, dir)

def close (s : FileSpool) : FileSpool := { s with closed := true }

end FileSpool

/-! ### Runs -/

/-- What a run does to the spool.  `reopen` is `Close` and then `New`. -/
inductive Op (φ : Type)
  | append (outcome : WriteOutcome) (event : SpoolRecord φ)
  | commit (ids : List String)
  | pending (limit : Int)
  | reopen

/-- A spool and its directory; and, for the specification, the events whose `Append`
returned no error, in order, and the ids that a `Commit` named. -/
structure World (φ : Type) where
  spool : Except SpoolError FileSpool
  dir : Dir
  accepted : List (SpoolRecord φ)
  named : List String

namespace World

variable {φ : Type} (codec : Codec φ) (config : Config)

/-- `New` on an empty directory. -/
def start : World φ :=
  match FileSpool.new codec config Dir.empty with
  | (spool, dir) => ⟨spool, dir, [], []⟩

/-- Nothing can be done with a spool that `New` did not return. -/
def step (w : World φ) (op : Op φ) : World φ :=
  match w.spool with
  | .error _ => w
  | .ok s =>
    match op with
    | .append outcome event =>
      match s.append codec outcome event w.dir with
      | (.ok (), s, dir) =>
        { w with spool := .ok s, dir := dir, accepted := w.accepted ++ [event] }
      | (.error _, s, dir) => { w with spool := .ok s, dir := dir }
    | .commit ids =>
      match s.commit ids w.dir with
      | (s, dir) => { w with spool := .ok s, dir := dir, named := w.named ++ ids }
    | .pending _ => w
    | .reopen =>
      match FileSpool.new codec config w.dir with
      | (spool, dir) => { w with spool := spool, dir := dir }

/-- The live segments; none if `New` failed. -/
def segments (w : World φ) : List Segment :=
  match w.spool with
  | .error _ => []
  | .ok s => s.segments

def pending (w : World φ) (limit : Int) : Except SpoolError (List (SpoolRecord φ)) :=
  match w.spool with
  | .error e => .error e
  | .ok s => s.pending codec w.dir limit

end World

end LiteAIG.Spool
