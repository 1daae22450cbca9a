/-
Reading JSON values into the values of a program, as Go's `encoding/json` does it.

A value is read into a variable that holds something already: `null` leaves a string,
a flag or a record as it is, and empties a list or a pointer.  The members of an object
are taken in turn, so the last of a name counts, and a field takes every member whose
name differs from its own in case only.  A value that is read as whatever it is keeps
its strings; its objects come out sorted and with each name once, and its numbers as a
`float64` prints them.
-/
import LiteAIG.Lib.Assoc
import LiteAIG.Lib.Json

namespace Lib

variable (replace : List UInt8 → String)

/-- A Go string as a JSON string.  Bytes that are not UTF-8 are replaced when it is written. -/
def textOfBytes (bytes : List UInt8) : String :=
  (String.fromUTF8? ⟨bytes.toArray⟩).getD (replace bytes)

@[simp] theorem textOfBytes_utf8 (text : String) :
    textOfBytes replace (utf8 text) = text := by
  have hb : (⟨(utf8 text).toArray⟩ : ByteArray) = text.toByteArray := by simp [utf8]
  unfold textOfBytes String.fromUTF8?
  rw [hb, dif_pos text.isValidUTF8]
  rfl

namespace Json

/-! ### Looking into a value -/

variable (name : String)

/-- The member of a name, of an object that has each name once. -/
def get : Json → Option Json
  | .obj members => (members.find? (·.1 = name)).map Prod.snd
  | _ => none

def getStr (j : Json) : Option String :=
  match j.get name with
  | some (.str s) => some s
  | _ => none

/-- The items of an array, if it is one. -/
def itemsOf : Option Json → List Json
  | some (.arr items) => items
  | _ => []

def getItems (j : Json) : List Json := itemsOf (j.get name)

mutual

/-- Every string that is a value somewhere in it; names are not. -/
def strings : Json → List String
  | .str s => [s]
  | .arr items => stringsItems items
  | .obj members => stringsMembers members
  | _ => []

def stringsItems : List Json → List String
  | [] => []
  | j :: rest => j.strings ++ stringsItems rest

def stringsMembers : List (String × Json) → List String
  | [] => []
  | (_, j) :: rest => j.strings ++ stringsMembers rest

end

theorem get_entries (m : Assoc String Json) (name : String) :
    (Json.obj m.entries).get name = m.lookup name := rfl

/-! ### Values of a known type -/

section Known

variable {α σ : Type}

def unmarshalString : Json → String → Option String
  | .str s, _ => some s
  | .null, old => some old
  | _, _ => none

def unmarshalBool : Json → Bool → Option Bool
  | .bool b, _ => some b
  | .null, old => some old
  | _, _ => none

/-- An `int` is written without a fraction and without an exponent. -/
def unmarshalInt : Json → Int → Option Int
  | .num n, _ => if -2 ^ 63 ≤ n ∧ n < 2 ^ 63 then some n else none
  | .lit n, _ => if n.text = ['-', '0'] then some 0 else none
  | .null, old => some old
  | _, _ => none

variable (read : Json → Option α)

/-- The value that a pointer points to is fresh. -/
def unmarshalPointer : Json → Option (Option α)
  | .null => some none
  | j => (read j).map some

def unmarshalList : Json → Option (List α)
  | .arr items => items.mapM read
  | .null => some []
  | _ => none

/-- The least character of those that differ in case only, as far as one of them is ASCII: the
long s and the Kelvin sign are of the letters they look like. -/
def foldChar (c : Char) : Char :=
  if 'a' ≤ c ∧ c ≤ 'z' then c.toUpper
  else if c.toNat = 0x17f then 'S'
  else if c.toNat = 0x212a then 'K'
  else c

def sameField (field name : String) : Bool :=
  field.toList.map foldChar = name.toList.map foldChar

/-- How a record takes the value of one of its fields. -/
structure Field (σ : Type) where
  name : String
  read : Json → σ → Option σ

variable (fields : List (Field σ))

def unmarshalMember (record : σ) (member : String × Json) : Option σ :=
  match fields.find? (sameField ·.name member.1) with
  | some field => field.read member.2 record
  | none => some record

def unmarshalRecord : Json → σ → Option σ
  | .obj members, record => members.foldlM (unmarshalMember fields) record
  | .null, record => some record
  | _, _ => none

/-- The raw values of an object; the last of a name counts. -/
def unmarshalMap : Json → Option (Assoc String Json)
  | .obj members => some (members.foldl (fun m member => m.insert member.1 member.2) .empty)
  | .null => some .empty
  | _ => none

end Known

/-! ### Whatever the value is -/

/-- Put a member in its place by the order of the names. -/
def insertMember (name : String) (j : Json) : List (String × Json) → List (String × Json)
  | [] => [(name, j)]
  | member :: rest =>
    if name < member.1 then (name, j) :: member :: rest else member :: insertMember name j rest

section Any

/- A number, by its text, as a `float64` prints it; there is none for one that is too large. -/
variable (float : List Char → Option Json)

mutual

def unmarshalAny : Json → Option Json
  | .null => some .null
  | .bool b => some (.bool b)
  | .num n => float (Json.num n).render
  | .lit n => float n.text
  | .str s => some (.str s)
  | .arr items => (unmarshalItems items).map .arr
  | .obj members => (unmarshalMembers members).map .obj

def unmarshalItems : List Json → Option (List Json)
  | [] => some []
  | j :: rest => do
    let j ← unmarshalAny j
    let rest ← unmarshalItems rest
    some (j :: rest)

/-- A later member of the same name replaces this one. -/
def unmarshalMembers : List (String × Json) → Option (List (String × Json))
  | [] => some []
  | (name, j) :: rest => do
    let j ← unmarshalAny j
    let rest ← unmarshalMembers rest
    some (if name ∈ rest.map Prod.fst then rest else insertMember name j rest)

end

/-- A `float64`. -/
def unmarshalFloat : Json → Option Json
  | .num n => float (Json.num n).render
  | .lit n => float n.text
  | _ => none

end Any

end Json

end Lib
