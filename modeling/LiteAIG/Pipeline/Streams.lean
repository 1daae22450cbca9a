/-
The registry of long streams, which a drain waits for.

A stream is kept under the time of day and one of 26 letters.  Two streams that get one
id are one entry, and the first of them to end takes it away from the other.
-/
import LiteAIG.Lib.Calendar
import LiteAIG.Lib.Run

namespace LiteAIG.App

open Lib List

structure StreamRegistry where
  streams : Finset String
  draining : Bool
  next : Nat

namespace StreamRegistry

/-- The time of day to the nanosecond, and a letter. -/
def streamID (now : Time) (next : Nat) : String :=
  let s := now.second
  String.ofList (fixedDigits 10 2 (s / 3600) ++ fixedDigits 10 2 (s / 60 % 60) ++
    fixedDigits 10 2 (s % 60) ++ '.' :: fixedDigits 10 9 now.nano ++
    ['-', Char.ofNat ('a'.toNat + next % 26)])

/-- Ids are equal for the same time of day and numbers that are equal modulo 26. -/
theorem streamID_eq_iff {t u : Time} {n m : Nat} :
    streamID t n = streamID u m ↔ t.second = u.second ∧ t.nano = u.nano ∧ n % 26 = m % 26 := by
  constructor
  · intro h
    have ht := t.second_lt
    have hu := u.second_lt
    simp only [streamID, String.ofList_inj, append_assoc, cons_append] at h
    obtain ⟨hhour, h⟩ := fixedDigits_append_inj (by decide) (by decide) (by omega) (by omega) h
    obtain ⟨hmin, h⟩ := fixedDigits_append_inj (by decide) (by decide) (by omega) (by omega) h
    obtain ⟨hsec, h⟩ := fixedDigits_append_inj (by decide) (by decide) (by omega) (by omega) h
    obtain ⟨hnano, h⟩ := fixedDigits_append_inj (by decide) (by decide) t.nano_lt u.nano_lt
      (List.cons.inj h).2
    have hchar : ∀ i < 26, ∀ j < 26,
        Char.ofNat ('a'.toNat + i) = Char.ofNat ('a'.toNat + j) → i = j := by
      decide +kernel
    have hletter := hchar _ (n.mod_lt (by omega)) _ (m.mod_lt (by omega))
      (List.cons.inj (List.cons.inj h).2).1
    exact ⟨by omega, hnano, hletter⟩
  · rintro ⟨hsec, hnano, hmod⟩
    simp only [streamID, hsec, hnano, hmod]

def new : StreamRegistry := ⟨∅, false, 0⟩

variable (r : StreamRegistry)

def register (now : Time) : Option String × StreamRegistry :=
  if r.draining then (none, r)
  else
    let id := streamID now (r.next + 1)
    (some id, ⟨insert id r.streams, false, r.next + 1⟩)

def unregister (id : String) : StreamRegistry := { r with streams := r.streams.erase id }

def count : Nat := r.streams.card

def beginDrain : StreamRegistry := { r with draining := true }

end StreamRegistry

inductive StreamCall
  | register (now : Time)
  /-- The `i`-th of the active streams ends. -/
  | unregister (i : Nat)
  | beginDrain

/-- A registration that is not yet unregistered: when it was made, and the how many-th it was. -/
structure ActiveStream where
  time : Time
  number : Nat

def ActiveStream.id (s : ActiveStream) : String := StreamRegistry.streamID s.time s.number

structure Streams where
  registry : StreamRegistry
  active : List ActiveStream

namespace Streams

def new : Streams := ⟨.new, []⟩

variable (w : Streams)

def step : StreamCall → Streams
  | .register now => ⟨(w.registry.register now).2,
      if w.registry.draining then w.active else ⟨now, w.registry.next + 1⟩ :: w.active⟩
  | .unregister i =>
    ⟨w.active[i]?.elim w.registry fun s => w.registry.unregister s.id, w.active.eraseIdx i⟩
  | .beginDrain => { w with registry := w.registry.beginDrain }

/-- The count is right, and `Wait`, which returns when it is zero, leaves no stream behind. -/
def Exact : Prop := w.registry.count = w.active.length ∧ (w.registry.count = 0 → w.active = [])

/-- No active stream was registered at the time of day at which one is registered now and
a multiple of 26 registrations ago. -/
def Fresh : StreamCall → Prop
  | .register now => w.registry.draining = true ∨ ∀ s ∈ w.active,
      ¬ (s.time.second = now.second ∧ s.time.nano = now.nano ∧
        s.number % 26 = (w.registry.next + 1) % 26)
  | _ => True

structure Kept : Prop where
  streams : w.registry.streams = (w.active.map (·.id)).toFinset
  nodup : (w.active.map (·.id)).Nodup

variable {w} {c : StreamCall}

theorem Kept.exact (h : w.Kept) : w.Exact := by
  have hc : w.registry.count = w.active.length := by
    rw [StreamRegistry.count, h.streams, toFinset_card_of_nodup h.nodup, length_map]
  exact ⟨hc, fun h0 => length_eq_zero_iff.mp (hc.symm.trans h0)⟩

/-- The condition says that the id of the registration is new. -/
theorem fresh_register_iff {now : Time} : w.Fresh (.register now) ↔ w.registry.draining = true ∨
    StreamRegistry.streamID now (w.registry.next + 1) ∉ w.active.map (·.id) := by
  simp only [Fresh, mem_map, not_exists, not_and, ActiveStream.id, StreamRegistry.streamID_eq_iff]

theorem Kept.step (h : w.Kept) (hf : w.Fresh c) : (w.step c).Kept := by
  cases c with
  | register now =>
    rw [fresh_register_iff] at hf
    simp only [Streams.step, StreamRegistry.register]
    split_ifs with hdraining
    · exact h
    · have hid := hf.resolve_left hdraining
      exact ⟨by simp [h.streams, ActiveStream.id], nodup_cons.mpr ⟨hid, h.nodup⟩⟩
  | unregister i =>
    have hmap : (w.active.eraseIdx i).map (·.id) = (w.active.map (·.id)).eraseIdx i :=
      (eraseIdx_map ..).symm
    refine ⟨?_, hmap ▸ h.nodup.sublist (eraseIdx_sublist ..)⟩
    simp only [Streams.step, hmap]
    by_cases hi : i < w.active.length
    · rw [List.getElem?_eq_getElem hi, ← h.nodup.erase_getElem _ (by simpa using hi)]
      ext id
      simp [StreamRegistry.unregister, h.streams, h.nodup.mem_erase_iff]
    · rw [List.getElem?_eq_none (by omega), eraseIdx_of_length_le (by simpa using hi)]
      exact h.streams
  | beginDrain => exact ⟨h.streams, h.nodup⟩

/-- A second stream under an id is one entry less than there are streams. -/
theorem Kept.fresh (h : w.Kept) (he : (w.step c).Exact) : w.Fresh c := by
  cases c with
  | register now =>
    rw [fresh_register_iff, or_iff_not_imp_left]
    intro hdraining hm
    have hc := he.1
    simp only [Streams.step, StreamRegistry.register, if_neg hdraining] at hc
    rw [StreamRegistry.count, h.streams, Finset.insert_eq_of_mem (mem_toFinset.mpr hm),
      toFinset_card_of_nodup h.nodup] at hc
    simp at hc
  | unregister | beginDrain => trivial

end Streams

/-- **The registry counts the active streams exactly if and only if no stream is registered at
an active one's time of day and a multiple of 26 registrations after it.** -/
theorem count_exact_iff (calls : List StreamCall) :
    Allowed Streams.step (fun w c => (w.step c).Exact) .new calls ↔
      Allowed Streams.step Streams.Fresh .new calls :=
  allowed_congr_of_invariant (I := Streams.Kept)
    (fun _ _ h => ⟨h.fresh, fun hf => (h.step hf).exact⟩) (fun _ _ h hf => h.step hf) calls _
    ⟨rfl, List.nodup_nil⟩

/-- 27 streams within one reading of the clock, of which all but the last end. -/
def crowd : List StreamCall :=
  List.replicate 27 (.register ⟨0, 0⟩) ++ List.replicate 26 (.unregister 1)

/-- The last stream has the first one's entry. -/
theorem crowded_count :
    (run Streams.step .new crowd).registry.count = 0 ∧
      (run Streams.step .new crowd).active ≠ [] := by
  decide +kernel

end LiteAIG.App
