/-
Files of bytes, and the lines in them.

A name points at a file, and a file that has been opened stays readable and writable
after its name is gone or points elsewhere.  That is why a directory maps names to
numbers and the numbers to contents: two names never point at one file, and a number
that was given out is never given out again.
-/
import LiteAIG.Lib.Assoc

namespace Lib

open Assoc List

/-! ### Lines -/

section

variable {α : Type*}

/-- Each line with the separator after it. -/
def joinLines (sep : α) (lines : List (List α)) : List α :=
  (lines.map (· ++ [sep])).flatten

variable {sep : α}

@[simp] theorem joinLines_cons (line : List α) (lines : List (List α)) :
    joinLines sep (line :: lines) = line ++ sep :: joinLines sep lines := by
  simp [joinLines]

@[simp] theorem joinLines_append (xs ys : List (List α)) :
    joinLines sep (xs ++ ys) = joinLines sep xs ++ joinLines sep ys := by
  simp [joinLines]

variable [DecidableEq α]

/-- The lines of a text that the separator ends, and what follows the last of them. -/
def cutLines (sep : α) : List α → List (List α) × List α
  | [] => ([], [])
  | b :: rest =>
    match cutLines sep rest with
    | (lines, tail) =>
      if b = sep then ([] :: lines, tail)
      else
        match lines with
        | [] => ([], b :: tail)
        | line :: lines => ((b :: line) :: lines, tail)

theorem cutLines_tail : ∀ {tail : List α}, sep ∉ tail → cutLines sep tail = ([], tail) := by
  intro tail
  induction tail with
  | nil => intro _; rfl
  | cons b rest ih =>
    intro h
    rw [mem_cons, not_or] at h
    simp only [cutLines, ih h.2, if_neg (Ne.symm h.1)]

theorem cutLines_line (rest : List α) : ∀ {line : List α}, sep ∉ line →
    cutLines sep (line ++ sep :: rest)
      = (line :: (cutLines sep rest).1, (cutLines sep rest).2) := by
  intro line
  induction line with
  | nil => intro _; simp [cutLines]
  | cons b line ih =>
    intro h
    rw [mem_cons, not_or] at h
    simp only [cons_append, cutLines, ih h.2, if_neg (Ne.symm h.1)]

/-- Cutting what was joined gives the lines back. -/
theorem cutLines_joinLines {tail : List α} (ht : sep ∉ tail) : ∀ {lines : List (List α)},
    (∀ line ∈ lines, sep ∉ line) → cutLines sep (joinLines sep lines ++ tail) = (lines, tail) := by
  intro lines
  induction lines with
  | nil => intro _; exact cutLines_tail ht
  | cons line rest ih =>
    intro h
    rw [joinLines_cons, append_assoc, cons_append,
      cutLines_line _ (h line mem_cons_self),
      ih fun l hl => h l (mem_cons_of_mem _ hl)]

end

/-! ### Files -/

structure Files where
  names : Assoc String Nat
  content : Nat → List UInt8
  /-- Files from here on have never been opened. -/
  next : Nat
  bound : ∀ {name file}, names.lookup name = some file → file < next
  injective : ∀ {a b file}, names.lookup a = some file → names.lookup b = some file → a = b

namespace Files

def empty : Files := ⟨Assoc.empty, fun _ => [], 0, nofun, nofun⟩

variable (fs : Files) (name : String)

/-- Open the file under a name, and create it if there is none. -/
def create : Nat × Files :=
  match hl : fs.names.lookup name with
  | some file => (file, fs)
  | none =>
    (fs.next,
      { names := fs.names.insert name fs.next
        content := Function.update fs.content fs.next []
        next := fs.next + 1
        bound := by
          intro n file h
          rcases lookup_insert_some h with ⟨_, rfl⟩ | ⟨_, h⟩
          · omega
          · have := fs.bound h
            omega
        injective := by
          intro a b file ha hb
          rcases lookup_insert_some ha with ⟨rfl, rfl⟩ | ⟨_, ha⟩
          · rcases lookup_insert_some hb with ⟨rfl, _⟩ | ⟨_, hb⟩
            · rfl
            · exact absurd (fs.bound hb) (lt_irrefl _)
          · rcases lookup_insert_some hb with ⟨_, rfl⟩ | ⟨_, hb⟩
            · exact absurd (fs.bound ha) (lt_irrefl _)
            · exact fs.injective ha hb })

variable (file : Nat) (data : List UInt8)

def write : Files :=
  { fs with content := Function.update fs.content file data }

/-- Write at the end of a file. -/
def append : Files :=
  fs.write file (fs.content file ++ data)

/-- Take the name away; the file is still there for those who have it open. -/
def remove : Files where
  names := fs.names.erase name
  content := fs.content
  next := fs.next
  bound h := fs.bound (lookup_erase_some h).2
  injective ha hb := fs.injective (lookup_erase_some ha).2 (lookup_erase_some hb).2

/-- The names, in order. -/
def list : List String := (fs.names.entries.map Prod.fst).insertionSort (· ≤ ·)

@[simp] theorem content_write_self :
    (fs.write file data).content file = data := by
  simp [write]

@[simp] theorem content_write_ne {file other : Nat} (h : other ≠ file) (data : List UInt8) :
    (fs.write file data).content other = fs.content other := by
  simp [write, h]

@[simp] theorem names_remove :
    (fs.remove name).names = fs.names.erase name := rfl

theorem content_foldl_remove {ι : Type*} (f : ι → String) (l : List ι) (fs : Files) :
    (l.foldl (fun fs x => fs.remove (f x)) fs).content = fs.content :=
  List.foldlRecOn (motive := fun fs' : Files => fs'.content = fs.content) l _ rfl
    fun _ h _ _ => h

theorem lookup_foldl_remove {ι : Type*} (f : ι → String) (name : String) :
    ∀ (l : List ι) (fs : Files), (l.foldl (fun fs x => fs.remove (f x)) fs).names.lookup name
      = if name ∈ l.map f then none else fs.names.lookup name := by
  intro l
  induction l with
  | nil => intro fs; rfl
  | cons x rest ih =>
    intro fs
    rw [foldl_cons, ih, map_cons, names_remove]
    by_cases hx : name = f x
    · rw [hx, lookup_erase_self, if_pos mem_cons_self]
      split <;> rfl
    · rw [lookup_erase_ne hx]
      simp [hx]

variable {fs : Files}

/-- Creating a file that is not there gives a new, empty one and leaves the others alone. -/
theorem create_new {name : String} (h : fs.names.lookup name = none) :
    (fs.create name).2.names.lookup name = some (fs.create name).1 ∧
      (fs.create name).2.content (fs.create name).1 = [] ∧
      ∀ other file, fs.names.lookup other = some file →
        (fs.create name).2.names.lookup other = some file ∧
          (fs.create name).2.content file = fs.content file := by
  unfold create
  split
  next file hl => rw [h] at hl; cases hl
  next hl =>
      refine ⟨lookup_insert_self, by simp, ?_⟩
      intro other file ho
      have hne : other ≠ name := by
        rintro rfl
        rw [h] at ho
        cases ho
      have hlt : file ≠ fs.next := Nat.ne_of_lt (fs.bound ho)
      exact ⟨by simp [hne, ho], by simp [hlt]⟩

theorem lookup_create {name other : String} (h : ((fs.create name).2.names.lookup other).isSome) :
    other = name ∨ (fs.names.lookup other).isSome := by
  unfold create at h
  split at h
  next => exact Or.inr h
  next =>
      obtain ⟨file, hf⟩ := Option.isSome_iff_exists.mp h
      rcases lookup_insert_some hf with ⟨hn, _⟩ | ⟨_, hf⟩
      · exact Or.inl hn
      · exact Or.inr (by rw [hf]; rfl)

theorem mem_list {name : String} : name ∈ fs.list ↔ (fs.names.lookup name).isSome := by
  unfold list
  rw [(perm_insertionSort _ _).mem_iff, mem_map]
  constructor
  · rintro ⟨e, he, rfl⟩
    rw [lookup_of_mem he]
    rfl
  · intro h
    obtain ⟨file, hf⟩ := Option.isSome_iff_exists.mp h
    exact ⟨_, mem_of_lookup hf, rfl⟩

/-- Names that are in order and are all there are is what the listing gives. -/
theorem list_eq {names : List String} (hs : names.Pairwise (· < ·))
    (hm : ∀ name, (fs.names.lookup name).isSome ↔ name ∈ names) : fs.list = names := by
  have hn : fs.list.Nodup :=
    (perm_insertionSort _ _).nodup_iff.mpr fs.names.nodup
  have hp : fs.list.Perm names := by
    rw [perm_ext_iff_of_nodup hn (hs.imp fun h => ne_of_lt h)]
    intro name
    rw [mem_list, hm]
  have ha : ∀ a b, a ∈ fs.list → b ∈ names → a ≤ b → b ≤ a → a = b :=
    fun a b _ _ hab hba => le_antisymm hab hba
  exact List.Perm.eq_of_pairwise ha (pairwise_insertionSort _ _)
    (hs.imp fun h => le_of_lt h) hp

end Files

end Lib
