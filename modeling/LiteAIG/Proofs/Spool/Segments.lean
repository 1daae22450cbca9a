/-
What a segment file and its index say.

A batch is a segment seen from above: its name and file, the events in it and how many
of them are committed.  The index in memory is a function of the batch, `Batch.index`,
and so is what the file should hold, `Batch.data`.  Reading is what is proved here:
loading a file that holds a batch gives the batch's index, with a torn line behind it
or without, and scanning it from the first pending event gives the pending events.
-/
import LiteAIG.Spool.FileSpool

namespace LiteAIG.Spool

open Lib List FileSpool

variable {φ : Type}

/-! ### One line -/

/-- The event as it is read back. -/
def SpoolRecord.bare (event : SpoolRecord φ) : SpoolRecord φ := { event with checksum := "" }

variable (codec : Codec φ) (event : SpoolRecord φ)

/-- The event's line without its newline. -/
def text : Bytes :=
  match serialize codec event with
  | .ok line => line.dropLast
  | .error _ => []

/-- The event has a line. -/
def Writes : Prop :=
  serialize codec event = .ok (text codec event ++ [newline])

/-- The event has a line that the scanner can take. -/
def Fits : Prop :=
  Writes codec event ∧ (text codec event).length < maxTokenSize

def size : Nat := (text codec event).length + 1

variable {codec} {event : SpoolRecord φ}

theorem checksumOf_ne (payload : Bytes) : checksumOf codec payload ≠ "" := by
  intro h
  have hl : (hexEncode (codec.sha256 payload)).length = 64 := by
    rw [length_hexEncode, codec.sha256_length]
  have hn : hexEncode (codec.sha256 payload) = [] := by
    rw [← String.toList_ofList (l := hexEncode (codec.sha256 payload))]
    exact congrArg String.toList h
  rw [hn] at hl
  cases hl

theorem serialize_ok {line : Bytes} (h : serialize codec event = .ok line) :
    ∃ payload, codec.marshal event.bare = .ok payload ∧
      codec.marshal { event with checksum := checksumOf codec payload } = .ok (text codec event) ∧
      line = text codec event ++ [newline] := by
  have hl := h
  unfold serialize at h
  split at h
  · cases h
  next payload hp =>
      split at h
      · cases h
      next final hf =>
          have ht : text codec event = final := by
            rw [text, hl, ← Except.ok.inj h]
            exact dropLast_concat
          exact ⟨payload, hp, ht ▸ hf, ht ▸ (Except.ok.inj h).symm⟩

theorem writes_of_ok {line : Bytes} (h : serialize codec event = .ok line) :
    Writes codec event ∧ line.length = size codec event := by
  obtain ⟨_, _, _, rfl⟩ := serialize_ok h
  exact ⟨h, by simp [size]⟩

namespace Writes

variable (h : Writes codec event)
include h

theorem newline_notMem : newline ∉ text codec event := by
  obtain ⟨_, _, hm, _⟩ := serialize_ok h
  exact codec.oneLine hm

theorem getLast : (text codec event).getLast? = some 125 := by
  obtain ⟨_, _, hm, _⟩ := serialize_ok h
  exact codec.braced hm

theorem text_ne : text codec event ≠ [] := by
  intro hn
  have hl := h.getLast
  rw [hn] at hl
  cases hl

theorem dropCR_text : dropCR (text codec event) = text codec event := by
  unfold dropCR
  rw [h.getLast, if_neg (by decide)]

theorem decode : decodeRecord codec (text codec event) = .ok event.bare := by
  obtain ⟨payload, hp, hm, _⟩ := serialize_ok h
  have hp' : codec.marshal { event with checksum := "" } = .ok payload := hp
  unfold decodeRecord
  simp only [codec.roundTrip hm, checksumOf_ne, hp', ne_eq, not_true_eq_false, if_false]
  rfl

/-- A line that is cut short before its end is no record. -/
theorem decode_take {k : Nat} (hk : k < (text codec event).length) :
    ∃ e, decodeRecord codec ((text codec event).take k) = .error e := by
  obtain ⟨_, _, hm, _⟩ := serialize_ok h
  obtain ⟨e, he⟩ := codec.cut hm k hk
  exact ⟨e, by unfold decodeRecord; rw [he]⟩

end Writes

/-! ### Batches -/

/-- A segment: the events in it, and how many of them are committed. -/
structure Batch (φ : Type) where
  name : String
  file : Nat
  events : List (SpoolRecord φ)
  count : Nat
  le : count ≤ events.length

namespace Batch

/-- Where each line starts, from the sizes of the lines. -/
def offsetsFrom : Nat → List Nat → List Nat
  | _, [] => []
  | start, size :: rest => start :: offsetsFrom (start + size) rest

variable (codec) in
def data (b : Batch φ) : Bytes := joinLines newline (b.events.map (text codec))

variable (codec) in
def index (b : Batch φ) : Segment where
  name := b.name
  file := b.file
  bytes := (b.events.map (size codec)).sum
  ids := b.events.map (·.eventID)
  tenants := b.events.map (·.tenantID)
  sizes := b.events.map (size codec)
  offsets := offsetsFrom 0 (b.events.map (size codec))
  committedCount := b.count

def create (name : String) (file : Nat) : Batch φ := ⟨name, file, [], 0, le_rfl⟩

def add (b : Batch φ) (event : SpoolRecord φ) : Batch φ :=
  ⟨b.name, b.file, b.events ++ [event], b.count, by
    rw [length_append]
    exact le_trans b.le (Nat.le_add_right _ _)⟩

/-- The batch as it is loaded, before `committed.log` is read. -/
def reset (b : Batch φ) : Batch φ := ⟨b.name, b.file, b.events, 0, Nat.zero_le _⟩

def pending (b : Batch φ) : List (SpoolRecord φ) := b.events.drop b.count

/-- Move on past the events that are known to be committed. -/
def advance (known : String → Bool) (b : Batch φ) : Batch φ :=
  ⟨b.name, b.file, b.events, b.count + (b.pending.takeWhile fun e => known e.eventID).length, by
    have hwhile := (takeWhile_sublist (l := b.pending) fun e => known e.eventID).length_le
    have hle := b.le
    rw [pending, length_drop] at hwhile
    unfold pending
    omega⟩

def full (b : Batch φ) : Bool :=
  decide (0 < b.events.length) && decide (b.count = b.events.length)

theorem offsetsFrom_append (sizes : List Nat) (size : Nat) : ∀ start : Nat,
    offsetsFrom start (sizes ++ [size]) = offsetsFrom start sizes ++ [start + sizes.sum] := by
  induction sizes with
  | nil => intro start; simp [offsetsFrom]
  | cons x rest ih =>
    intro start
    simp [offsetsFrom, ih, Nat.add_assoc]

theorem getD_offsetsFrom : ∀ (sizes : List Nat) (start i : Nat), i < sizes.length →
    (offsetsFrom start sizes).getD i 0 = start + (sizes.take i).sum := by
  intro sizes
  induction sizes with
  | nil => intro start i hi; cases hi
  | cons x rest ih =>
    intro start i hi
    cases i with
    | zero => simp [offsetsFrom]
    | succ i =>
      simp only [offsetsFrom, getD_cons_succ, take_succ_cons, sum_cons]
      rw [ih _ _ (Nat.lt_of_succ_lt_succ hi), Nat.add_assoc]

theorem index_create (name : String) (file : Nat) :
    (create name file : Batch φ).index codec = Segment.create name file := rfl

theorem index_add (b : Batch φ) :
    (b.index codec).push event.eventID event.tenantID (size codec event)
      = (b.add event).index codec := by
  simp [index, add, Segment.push, offsetsFrom_append]

theorem index_full (b : Batch φ) : (b.index codec).full = b.full := by
  simp [index, Segment.full, full]

theorem index_advance (known : String → Bool) (b : Batch φ) :
    { b.index codec with
      committedCount := (b.index codec).committedCount + (b.index codec).advance known }
      = (b.advance known).index codec := by
  have hl : (b.index codec).advance known
      = (b.pending.takeWhile fun e => known e.eventID).length := by
    simp only [Segment.advance, index, pending, ← map_drop, takeWhile_map,
      length_map]
    rfl
  rw [hl]
  rfl

/-! ### Reading a batch's file -/

/-- From the `i`-th offset on, the file has the lines from the `i`-th on. -/
theorem drop_data (evs : List (SpoolRecord φ)) : ∀ i : Nat,
    (joinLines newline (evs.map (text codec))).drop ((evs.map (size codec)).take i).sum
      = joinLines newline ((evs.drop i).map (text codec)) := by
  induction evs with
  | nil => intro i; simp
  | cons e rest ih =>
    intro i
    cases i with
    | zero => simp
    | succ i =>
      have hs : (text codec e ++ newline :: joinLines newline (rest.map (text codec))).drop
          (size codec e + ((rest.map (size codec)).take i).sum)
          = (joinLines newline (rest.map (text codec))).drop
            ((rest.map (size codec)).take i).sum := by
        rw [← drop_drop, size, append_cons, drop_left']
        simp
      simpa using hs.trans (ih i)

theorem length_data (evs : List (SpoolRecord φ)) :
    (joinLines newline (evs.map (text codec))).length = (evs.map (size codec)).sum := by
  induction evs with
  | nil => rfl
  | cons e rest ih =>
    simp only [map_cons, joinLines_cons, length_append, length_cons, ih,
      sum_cons, size]
    omega

variable {evs : List (SpoolRecord φ)} {torn : Bytes} {s : FileSpool} {files : Files}
  {b : Batch φ}

theorem cutLines_data (h : ∀ e ∈ evs, Writes codec e) (ht : newline ∉ torn) :
    cutLines newline (joinLines newline (evs.map (text codec)) ++ torn)
      = (evs.map (text codec), torn) := by
  apply cutLines_joinLines ht
  intro line hl
  obtain ⟨e, he, rfl⟩ := mem_map.mp hl
  exact (h e he).newline_notMem

theorem scanLines_data (h : ∀ e ∈ evs, Writes codec e) :
    scanLines (joinLines newline (evs.map (text codec))) = evs.map (text codec) := by
  have hc : cutLines newline (joinLines newline (evs.map (text codec)))
      = (evs.map (text codec), []) := by
    rw [← cutLines_data h not_mem_nil, append_nil]
  unfold scanLines
  rw [hc]
  rfl

/-- Scanning adds the events that are not committed, but of those only so many: at least
one, and no more than the limit leaves beyond what has been collected before. -/
theorem scan_data {name : String} {limit : Int} :
    ∀ {evs : List (SpoolRecord φ)}, (∀ e ∈ evs, Fits codec e) →
    ∀ out : List (SpoolRecord φ), s.scan codec name limit (evs.map (text codec)) out
      = .ok (out ++ ((evs.filter fun e => e.eventID ∉ s.committed).map (·.bare)).take
          (max 1 (limit - out.length)).toNat) := by
  intro evs
  induction evs with
  | nil => intro _ out; simp [scan]
  | cons e rest ih =>
    intro h out
    have hf := h e mem_cons_self
    have ih := ih fun x hx => h x (mem_cons_of_mem _ hx)
    rw [map_cons, scan, if_neg (Nat.not_le.mpr hf.2), hf.1.dropCR_text,
      if_neg hf.1.text_ne, hf.1.decode]
    show (if e.eventID ∈ s.committed then _ else _) = _
    by_cases hc : e.eventID ∈ s.committed
    · rw [if_pos hc, ih out, filter_cons_of_neg (by simpa using hc)]
    · rw [if_neg hc, filter_cons_of_pos (by simpa using hc), map_cons]
      by_cases hl : limit ≤ ((out.length + 1 : Nat) : Int)
      · have ho : (max 1 (limit - out.length)).toNat = 0 + 1 := by omega
        rw [if_pos hl, ho, take_succ_cons, take_zero]
      · have hm : (max 1 (limit - out.length)).toNat
            = (max 1 (limit - ((out ++ [e.bare]).length : Nat))).toNat + 1 := by
          rw [length_append, length_singleton]
          omega
        rw [if_neg hl, ih, hm, take_succ_cons, append_assoc, singleton_append]

theorem collectPending_data (hs : s.closed = false) (hd : files.content b.file = b.data codec)
    (hfi : ∀ e ∈ b.events, Fits codec e) (limit : Int) (out : List (SpoolRecord φ)) :
    s.collectPending codec files (b.index codec) limit out
      = .ok (out ++ ((b.pending.filter fun e => e.eventID ∉ s.committed).map (·.bare)).take
          (max 1 (limit - out.length)).toNat) := by
  unfold collectPending
  have hi : (b.index codec).ids.length = b.events.length := length_map _
  by_cases hlt : b.count < b.events.length
  · have ho : (b.index codec).offsets.getD (b.index codec).committedCount 0
        = ((b.events.map (size codec)).take b.count).sum := by
      have := getD_offsetsFrom (b.events.map (size codec)) 0 b.count (by simpa using hlt)
      simpa [index] using this
    have hf : (b.index codec).file = b.file := rfl
    have hc : ¬ (b.index codec).ids.length ≤ (b.index codec).committedCount := by
      rw [hi]
      exact Nat.not_le.mpr hlt
    have hp : ∀ e ∈ b.pending, Fits codec e := fun e he => hfi e (mem_of_mem_drop he)
    have hl : scanLines (joinLines newline ((b.events.drop b.count).map (text codec)))
        = b.pending.map (text codec) := scanLines_data fun e he => (hp e he).1
    rw [if_neg hc, hs, if_neg (by decide), ho, hf, hd, data, drop_data, hl]
    exact scan_data hp out
  · have hn : b.pending = [] := drop_eq_nil_of_le (Nat.not_lt.mp hlt)
    have hc : (b.index codec).ids.length ≤ (b.index codec).committedCount := by
      rw [hi]
      exact Nat.not_lt.mp hlt
    rw [if_pos hc, hn]
    simp

/-! ### Loading a batch's file -/

theorem loadLines_data : ∀ {evs : List (SpoolRecord φ)}, (∀ e ∈ evs, Writes codec e) →
    ∀ b : Batch φ, loadLines codec (evs.map (text codec)) (b.index codec)
      = .ok ((evs.foldl add b).index codec) := by
  intro evs
  induction evs with
  | nil => intro _ b; rfl
  | cons e rest ih =>
    intro h b
    have hw := h e mem_cons_self
    rw [map_cons, loadLines, if_neg hw.text_ne, hw.decode]
    show loadLines codec _ ((b.index codec).push e.eventID e.tenantID (size codec e)) = _
    rw [index_add, ih fun x hx => h x (mem_cons_of_mem _ hx)]
    rfl

theorem foldl_add : ∀ b : Batch φ,
    (evs.foldl add b).name = b.name ∧ (evs.foldl add b).file = b.file ∧
      (evs.foldl add b).events = b.events ++ evs ∧ (evs.foldl add b).count = b.count := by
  induction evs with
  | nil => intro b; simp
  | cons e rest ih =>
    intro b
    obtain ⟨hn, hf, he, hc⟩ := ih (b.add e)
    exact ⟨hn, hf, by rw [foldl_cons, he]; simp [add], hc⟩

theorem foldl_add_create (b : Batch φ) : b.events.foldl add (create b.name b.file) = b.reset := by
  obtain ⟨hn, hf, he, hc⟩ := foldl_add (create b.name b.file)
  cases hb : b.events.foldl add (create b.name b.file) with
  | mk name file evs count le =>
    rw [hb] at hn hf he hc
    simp only [create, nil_append] at hn hf he hc
    subst hn hf he hc
    rfl

/-- What may stand behind the last newline: nothing, or a piece of a line. -/
def Torn (codec : Codec φ) (torn : Bytes) : Prop :=
  newline ∉ torn ∧ (torn = [] ∨ ∃ e, decodeRecord codec torn = .error e)

/-- The batch's file is there and holds the batch's lines, with `torn` behind them. -/
structure OnDisk (codec : Codec φ) (files : Files) (torn : Bytes) (b : Batch φ) : Prop where
  lookup : files.names.lookup b.name = some b.file
  content : files.content b.file = b.data codec ++ torn
  torn : Torn codec torn
  fits : ∀ e ∈ b.events, Fits codec e

/-- Loading a segment cuts off what is torn and gives the index back. -/
theorem OnDisk.loadSegment (h : OnDisk codec files torn b) :
    FileSpool.loadSegment codec files b.name = (.ok (b.reset.index codec),
          if torn = [] then files else files.write b.file (b.data codec)) := by
  have hl : loadLines codec (b.events.map (text codec)) (Segment.create b.name b.file)
      = .ok (b.reset.index codec) := by
    rw [← foldl_add_create, ← loadLines_data fun e he => (h.fits e he).1]
    rfl
  have hc := cutLines_data (fun e he => (h.fits e he).1) h.torn.1
  unfold FileSpool.loadSegment
  simp only [h.lookup, h.content, data, hc, hl]
  by_cases hn : torn = []
  · rw [if_pos hn, if_pos hn]
  · obtain ⟨e, he⟩ := h.torn.2.resolve_left hn
    have hb : (b.reset.index codec).bytes = (b.data codec).length := (length_data _).symm
    rw [if_neg hn, if_neg hn, he, hb]
    show (_, files.write b.file ((b.data codec ++ torn).take (b.data codec).length)) = _
    rw [take_left' rfl]
    rfl

end Batch

/-! ### A codec for six events -/

/-- The event with an id and nothing else to it. -/
def letter (id : String) : SpoolRecord Unit := ⟨id, "", "", "", ⟨0, 0⟩, "", (), ""⟩

/-- The checksum of a hash that is zero. -/
def zeros : String := String.ofList (List.replicate 64 '0')

def letterTable : List (SpoolRecord Unit × Bytes) :=
  [("a", 97), ("b", 98), ("c", 99), ("d", 100), ("e", 101), ("f", 102)].flatMap fun e =>
    [(letter e.1, [e.2, 48, 125]), ({ letter e.1 with checksum := zeros }, [e.2, 49, 125])]

theorem mem_letterTable {rec : SpoolRecord Unit} {data : Bytes}
    (h : (match letterTable.find? (·.1 = rec) with
      | some e => Except.ok e.2
      | none => .error "unsupported value") = .ok data) : (rec, data) ∈ letterTable := by
  split at h
  next e he =>
      have hr : e.1 = rec := by simpa using List.find?_some he
      rw [← hr, ← Except.ok.inj h]
      exact mem_of_find?_eq_some he
  next => cases h

/-- Lines of three bytes, and a newline. -/
def letters : Codec Unit where
  marshal rec :=
    match letterTable.find? (·.1 = rec) with
    | some e => .ok e.2
    | none => .error "unsupported value"
  unmarshal data :=
    match letterTable.find? (·.2 = data) with
    | some e => .ok e.1
    | none => .error "unexpected end of JSON input"
  sha256 _ := List.replicate 32 0
  roundTrip h := by
    have hall : ∀ e ∈ letterTable, (match letterTable.find? (·.2 = e.2) with
        | some x => Except.ok x.1
        | none => .error "unexpected end of JSON input") = .ok e.1 := by decide +kernel
    exact hall _ (mem_letterTable h)
  oneLine h := by
    have hall : ∀ e ∈ letterTable, newline ∉ e.2 := by decide +kernel
    exact hall _ (mem_letterTable h)
  braced h := by
    have hall : ∀ e ∈ letterTable, e.2.getLast? = some 125 := by decide +kernel
    exact hall _ (mem_letterTable h)
  cut h k hk := by
    have hall : ∀ e ∈ letterTable, ∀ k < e.2.length,
        letterTable.find? (·.2 = e.2.take k) = none := by decide +kernel
    rw [hall _ (mem_letterTable h) k hk]
    exact ⟨_, rfl⟩
  sha256_length _ := rfl

end LiteAIG.Spool
