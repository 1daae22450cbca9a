/-
JSON values and their compact text.

The text is the one of Go's `encoding/json`: no white space, members in the order
they are given, whole numbers in decimal, other numbers as they came, and strings in
which `<`, `>`, `&` and the two Unicode line separators are escaped along with what
JSON requires.  Whatever follows a value in a text, as long as it does not go on with
a character of a number, the value can be read off its front in one way; so a text
determines its value.
-/
import LiteAIG.Lib.Text

namespace Lib

open List

variable (c : Char)

/-- The characters of a number. -/
def numChar : Bool := c.isDigit || c = '-' || c = '+' || c = '.' || c = 'e' || c = 'E'

/-- A number that is not the decimal of a whole number: its text. -/
structure Literal where
  text : List Char
  text_ne : text ≠ []
  numeric : ∀ c ∈ text, numChar c = true
  not_whole : ∀ n : Int, text ≠ (toString n).toList

inductive Json
  | null
  | bool (b : Bool)
  | num (n : Int)
  | lit (n : Literal)
  | str (s : String)
  | arr (items : List Json)
  | obj (members : List (String × Json))

/-! ### Strings -/

/-- The characters with an escape of two characters, and its letter. -/
def shortEscapes : List (Char × Char) :=
  [('"', '"'), ('\\', '\\'), ('\x08', 'b'), ('\x0c', 'f'), ('\n', 'n'), ('\r', 'r'), ('\t', 't')]

def shortEscape : Option Char := shortEscapes.lookup c

/-- The characters that are written by their number. -/
def numbered : Bool :=
  c.toNat < 0x20 || c = '<' || c = '>' || c = '&' || c.toNat = 0x2028 || c.toNat = 0x2029

def escapeChar : List Char :=
  match shortEscape c with
  | some letter => ['\\', letter]
  | none => if numbered c then '\\' :: 'u' :: fixedDigits 16 4 c.toNat else [c]

def quoted (s : String) : List Char := '"' :: s.toList.flatMap escapeChar ++ ['"']

/-! ### Values -/

mutual

def Json.render : Json → List Char
  | .null => ['n', 'u', 'l', 'l']
  | .bool true => ['t', 'r', 'u', 'e']
  | .bool false => ['f', 'a', 'l', 's', 'e']
  | .num n => (toString n).toList
  | .lit n => n.text
  | .str s => quoted s
  | .arr [] => ['[', ']']
  | .arr (j :: rest) => '[' :: j.render ++ renderItems rest
  | .obj [] => ['{', '}']
  | .obj ((name, j) :: rest) => '{' :: quoted name ++ ':' :: j.render ++ renderMembers rest

/-- The items after the first. -/
def renderItems : List Json → List Char
  | [] => [']']
  | j :: rest => ',' :: j.render ++ renderItems rest

/-- The members after the first. -/
def renderMembers : List (String × Json) → List Char
  | [] => ['}']
  | (name, j) :: rest => ',' :: quoted name ++ ':' :: j.render ++ renderMembers rest

end

example : (Json.obj [("a", .num (-3)), ("b", .arr [.null, .bool true])]).render
    = "\x7b\"a\":-3,\"b\":[null,true]\x7d".toList := by decide +kernel

/-! ### Reading a string -/

theorem mem_of_shortEscape {c letter : Char} (h : shortEscape c = some letter) :
    (c, letter) ∈ shortEscapes := by
  obtain ⟨pre, post, heq, -⟩ := lookup_eq_some_iff.mp h
  rw [heq]
  simp

theorem shortEscape_inj {c d letter : Char} (hc : shortEscape c = some letter)
    (hd : shortEscape d = some letter) : c = d := by
  have hl : ∀ p ∈ shortEscapes, ∀ q ∈ shortEscapes, p.2 = q.2 → p.1 = q.1 := by decide
  exact hl _ (mem_of_shortEscape hc) _ (mem_of_shortEscape hd) rfl

theorem shortEscape_ne_u {c letter : Char} (h : shortEscape c = some letter) : letter ≠ 'u' := by
  have hl : ∀ p ∈ shortEscapes, p.2 ≠ 'u' := by decide
  exact hl _ (mem_of_shortEscape h)

variable {c : Char} {r s : List Char}

theorem toNat_lt_of_numbered (h : numbered c) : c.toNat < 16 ^ 4 := by
  simp only [numbered, Bool.or_eq_true, decide_eq_true_eq] at h
  rcases h with ((((h | rfl) | rfl) | rfl) | h) | h
  · omega
  · decide
  · decide
  · decide
  · omega
  · omega

/-- An escape starts with a backslash, and a character that is not escaped is itself. -/
theorem escapeChar_cases (c : Char) :
    (∃ letter, shortEscape c = some letter ∧ escapeChar c = ['\\', letter]) ∨
    (numbered c = true ∧ escapeChar c = '\\' :: 'u' :: fixedDigits 16 4 c.toNat) ∨
    (shortEscape c = none ∧ escapeChar c = [c]) := by
  unfold escapeChar
  cases h : shortEscape c with
  | some letter => exact .inl ⟨letter, rfl, rfl⟩
  | none =>
    by_cases hn : numbered c = true
    · exact .inr (.inl ⟨hn, if_pos hn⟩)
    · exact .inr (.inr ⟨rfl, if_neg hn⟩)

/-- A character that is written as itself is neither a backslash nor a quote. -/
theorem ne_of_shortEscape_none (h : shortEscape c = none) : c ≠ '\\' ∧ c ≠ '"' := by
  constructor <;> (rintro rfl; exact absurd h (by decide))

theorem escapeChar_append_inj {c d : Char}
    (h : escapeChar c ++ r = escapeChar d ++ s) : c = d ∧ r = s := by
  rcases escapeChar_cases c with ⟨x, hc, ec⟩ | ⟨hc, ec⟩ | ⟨hc, ec⟩ <;>
    rcases escapeChar_cases d with ⟨y, hd, ed⟩ | ⟨hd, ed⟩ | ⟨hd, ed⟩ <;>
    rw [ec, ed] at h
  · obtain ⟨rfl, hr⟩ := List.cons.inj (List.cons.inj h).2
    exact ⟨shortEscape_inj hc hd, hr⟩
  · exact absurd (List.cons.inj (List.cons.inj h).2).1 (shortEscape_ne_u hc)
  · exact absurd (List.cons.inj h).1.symm (ne_of_shortEscape_none hd).1
  · exact absurd (List.cons.inj (List.cons.inj h).2).1.symm (shortEscape_ne_u hd)
  · obtain ⟨hn, hr⟩ := fixedDigits_append_inj (by decide) (by decide)
      (toNat_lt_of_numbered hc) (toNat_lt_of_numbered hd) (List.cons.inj (List.cons.inj h).2).2
    exact ⟨Char.toNat_inj.mp hn, hr⟩
  · exact absurd (List.cons.inj h).1.symm (ne_of_shortEscape_none hd).1
  · exact absurd (List.cons.inj h).1 (ne_of_shortEscape_none hc).1
  · exact absurd (List.cons.inj h).1 (ne_of_shortEscape_none hc).1
  · exact List.cons.inj h

theorem escapeChar_ne_quote : escapeChar c ++ r ≠ '"' :: s := by
  intro h
  rcases escapeChar_cases c with ⟨x, hc, ec⟩ | ⟨hc, ec⟩ | ⟨hc, ec⟩ <;> rw [ec] at h
  · exact absurd (List.cons.inj h).1 (by decide)
  · exact absurd (List.cons.inj h).1 (by decide)
  · exact (ne_of_shortEscape_none hc).2 (List.cons.inj h).1

/-- The first quote that is not escaped ends a string. -/
theorem escaped_inj : ∀ {xs ys r s : List Char},
    xs.flatMap escapeChar ++ '"' :: r = ys.flatMap escapeChar ++ '"' :: s → xs = ys ∧ r = s := by
  intro xs
  induction xs with
  | nil =>
    intro ys r s h
    cases ys with
    | nil => exact ⟨rfl, (List.cons.inj h).2⟩
    | cons d ys =>
      rw [flatMap_cons, append_assoc] at h
      exact absurd h.symm escapeChar_ne_quote
  | cons c xs ih =>
    intro ys r s h
    cases ys with
    | nil =>
      rw [flatMap_cons, append_assoc] at h
      exact absurd h escapeChar_ne_quote
    | cons d ys =>
      rw [flatMap_cons, flatMap_cons, append_assoc, append_assoc] at h
      obtain ⟨rfl, h'⟩ := escapeChar_append_inj h
      obtain ⟨rfl, hrs⟩ := ih h'
      exact ⟨rfl, hrs⟩

theorem quoted_append_inj {a b : String} (h : quoted a ++ r = quoted b ++ s) :
    a = b ∧ r = s := by
  unfold quoted at h
  simp only [cons_append, append_assoc, nil_append] at h
  obtain ⟨hab, hrs⟩ := escaped_inj (List.cons.inj h).2
  exact ⟨String.toList_inj.mp hab, hrs⟩

/-! ### Reading a value -/

theorem numChar_of_mem {n : Int} (h : c ∈ (toString n).toList) : numChar c = true := by
  have hn : ∀ {m : Nat}, c ∈ m.repr.toList → numChar c = true := by
    intro m hm
    rw [Nat.repr, String.toList_ofList] at hm
    simp [numChar, Nat.isDigit_of_mem_toDigits (by decide) (by decide) hm]
  cases n with
  | ofNat m => exact hn h
  | negSucc m =>
    have h' : c ∈ ("-" ++ m.succ.repr).toList := h
    rw [String.toList_append] at h'
    rcases mem_append.mp h' with h' | h'
    · obtain rfl : c = '-' := by simpa using h'
      rfl
    · exact hn h'

theorem num_append_inj {n m : Int} (hr : Stops numChar r) (hs : Stops numChar s)
    (h : (toString n).toList ++ r = (toString m).toList ++ s) : n = m ∧ r = s := by
  obtain ⟨hn, hrs⟩ := piece_inj (fun _ => numChar_of_mem) (fun _ => numChar_of_mem) hr hs h
  exact ⟨Int.repr_inj.mp (String.toList_inj.mp hn), hrs⟩

theorem lit_append_inj {n m : Literal} (hr : Stops numChar r)
    (hs : Stops numChar s) (h : n.text ++ r = m.text ++ s) : n = m ∧ r = s := by
  obtain ⟨ht, hrs⟩ := piece_inj n.numeric m.numeric hr hs h
  cases n
  cases m
  exact ⟨by simpa using ht, hrs⟩

theorem lit_append_ne {n : Literal} {m : Int} (hr : Stops numChar r)
    (hs : Stops numChar s) : n.text ++ r ≠ (toString m).toList ++ s := by
  intro h
  exact n.not_whole m (piece_inj n.numeric (fun _ => numChar_of_mem) hr hs h).1

/-- The kinds of values. -/
def Json.kind : Json → Nat
  | .null => 0
  | .bool _ => 1
  | .num _ => 2
  | .lit _ => 2
  | .str _ => 3
  | .arr _ => 4
  | .obj _ => 5

/-- The kind of the value that a character starts; six is none. -/
def leadKind (c : Char) : Nat :=
  if numChar c then 2
  else if c = 'n' then 0
  else if c = 't' ∨ c = 'f' then 1
  else if c = '"' then 3
  else if c = '[' then 4
  else if c = '{' then 5
  else 6

theorem Json.render_lead (j : Json) : ∃ c rest, j.render = c :: rest ∧ leadKind c = j.kind := by
  cases j with
  | null => exact ⟨_, _, rfl, rfl⟩
  | bool b => cases b <;> exact ⟨_, _, rfl, rfl⟩
  | num n =>
    cases h : (toString n).toList with
    | nil =>
      have he : n.repr = "" := String.toList_inj.mp h
      cases n with
      | ofNat m => exact absurd (String.toList_inj.mpr he) (by
          rw [show (Int.ofNat m).repr = m.repr from rfl, Nat.repr, String.toList_ofList]
          exact Nat.toDigits_ne_nil)
      | negSucc m => exact absurd (String.toList_inj.mpr he) (by
          rw [show (Int.negSucc m).repr = "-" ++ m.succ.repr from rfl, String.toList_append]
          simp)
    | cons c rest =>
      refine ⟨c, rest, by rw [Json.render, h], ?_⟩
      have hc : numChar c = true := numChar_of_mem (by rw [h]; exact mem_cons_self)
      unfold leadKind
      rw [if_pos hc]
      rfl
  | lit n =>
    obtain ⟨c, rest, ht⟩ := exists_cons_of_ne_nil n.text_ne
    refine ⟨c, rest, by rw [Json.render, ht], ?_⟩
    have hc : numChar c = true := n.numeric c (by rw [ht]; exact mem_cons_self)
    unfold leadKind
    rw [if_pos hc]
    rfl
  | str s => exact ⟨_, _, rfl, rfl⟩
  | arr items => cases items <;> exact ⟨_, _, rfl, rfl⟩
  | obj members => rcases members with _ | ⟨⟨name, j⟩, rest⟩ <;> exact ⟨_, _, rfl, rfl⟩

theorem kind_eq_of_append {j k : Json} (h : j.render ++ r = k.render ++ s) :
    j.kind = k.kind := by
  obtain ⟨c, rest, hc, hj⟩ := j.render_lead
  obtain ⟨d, rest', hd, hk⟩ := k.render_lead
  rw [hc, hd] at h
  rw [← hj, ← hk, (List.cons.inj h).1]

theorem render_ne_of_leadKind {j : Json} (hc : leadKind c = 6) :
    j.render ++ r ≠ c :: s := by
  obtain ⟨d, rest, hd, hj⟩ := j.render_lead
  rw [hd]
  intro h
  rw [(List.cons.inj h).1, hc] at hj
  cases j <;> simp [Json.kind] at hj

theorem stops_renderItems (items : List Json) :
    Stops numChar (renderItems items ++ r) := by
  cases items <;> exact stops_cons rfl

theorem stops_renderMembers (members : List (String × Json)) :
    Stops numChar (renderMembers members ++ r) := by
  rcases members with _ | ⟨⟨name, j⟩, rest⟩ <;> exact stops_cons rfl

mutual

/-- A value is read off the front of a text in one way. -/
theorem Json.render_append_inj (j k : Json) {r s : List Char} (hr : Stops numChar r)
    (hs : Stops numChar s) (h : j.render ++ r = k.render ++ s) : j = k ∧ r = s := by
  -- the first character tells the kind
  have hk := kind_eq_of_append h
  cases j with
  | null =>
    cases k with
    | null => exact ⟨rfl, append_cancel_left h⟩
    | _ => simp [Json.kind] at hk
  | bool a =>
    cases k with
    | bool b =>
      cases a <;> cases b
      · exact ⟨rfl, append_cancel_left h⟩
      · exact absurd (List.cons.inj h).1 (by decide)
      · exact absurd (List.cons.inj h).1 (by decide)
      · exact ⟨rfl, append_cancel_left h⟩
    | _ => simp [Json.kind] at hk
  | num n =>
    cases k with
    | num m =>
      obtain ⟨rfl, hrs⟩ := num_append_inj hr hs h
      exact ⟨rfl, hrs⟩
    | lit m => exact absurd h.symm (lit_append_ne hs hr)
    | _ => simp [Json.kind] at hk
  | lit n =>
    cases k with
    | num m => exact absurd h (lit_append_ne hr hs)
    | lit m =>
      obtain ⟨rfl, hrs⟩ := lit_append_inj hr hs h
      exact ⟨rfl, hrs⟩
    | _ => simp [Json.kind] at hk
  | str a =>
    cases k with
    | str b =>
      obtain ⟨rfl, hrs⟩ := quoted_append_inj h
      exact ⟨rfl, hrs⟩
    | _ => simp [Json.kind] at hk
  | arr items =>
    cases k with
    | arr items' =>
      cases items with
      | nil =>
        cases items' with
        | nil => exact ⟨rfl, append_cancel_left h⟩
        | cons k rest' =>
          rw [Json.render, Json.render, cons_append, cons_append,
            append_assoc] at h
          exact absurd (List.cons.inj h).2.symm (render_ne_of_leadKind rfl)
      | cons j rest =>
        cases items' with
        | nil =>
          rw [Json.render, Json.render, cons_append, cons_append,
            append_assoc] at h
          exact absurd (List.cons.inj h).2 (render_ne_of_leadKind rfl)
        | cons k rest' =>
          rw [Json.render, Json.render, cons_append, cons_append,
            append_assoc, append_assoc] at h
          obtain ⟨rfl, hre⟩ := Json.render_append_inj j k (stops_renderItems _)
            (stops_renderItems _) (List.cons.inj h).2
          obtain ⟨rfl, hrs⟩ := renderItems_append_inj rest rest' hre
          exact ⟨rfl, hrs⟩
    | _ => simp [Json.kind] at hk
  | obj members =>
    cases k with
    | obj members' =>
      rcases members with _ | ⟨⟨name, j⟩, rest⟩
      · rcases members' with _ | ⟨⟨name', k⟩, rest'⟩
        · exact ⟨rfl, append_cancel_left h⟩
        · exact absurd (List.cons.inj (List.cons.inj h).2).1 (by decide)
      · rcases members' with _ | ⟨⟨name', k⟩, rest'⟩
        · exact absurd (List.cons.inj (List.cons.inj h).2).1 (by decide)
        · simp only [Json.render, cons_append, append_assoc] at h
          obtain ⟨rfl, hn⟩ := quoted_append_inj (List.cons.inj h).2
          obtain ⟨rfl, hre⟩ := Json.render_append_inj j k (stops_renderMembers _)
            (stops_renderMembers _) (List.cons.inj hn).2
          obtain ⟨rfl, hrs⟩ := renderMembers_append_inj rest rest' hre
          exact ⟨rfl, hrs⟩
    | _ => simp [Json.kind] at hk

theorem renderItems_append_inj (items items' : List Json) {r s : List Char}
    (h : renderItems items ++ r = renderItems items' ++ s) : items = items' ∧ r = s := by
  cases items with
  | nil =>
    cases items' with
    | nil => exact ⟨rfl, (List.cons.inj h).2⟩
    | cons k rest' => exact absurd (List.cons.inj h).1 (by decide)
  | cons j rest =>
    cases items' with
    | nil => exact absurd (List.cons.inj h).1 (by decide)
    | cons k rest' =>
      rw [renderItems, renderItems, cons_append, cons_append, append_assoc,
        append_assoc] at h
      obtain ⟨rfl, hr⟩ := Json.render_append_inj j k (stops_renderItems _)
        (stops_renderItems _) (List.cons.inj h).2
      obtain ⟨rfl, hrs⟩ := renderItems_append_inj rest rest' hr
      exact ⟨rfl, hrs⟩

theorem renderMembers_append_inj (members members' : List (String × Json)) {r s : List Char}
    (h : renderMembers members ++ r = renderMembers members' ++ s) :
    members = members' ∧ r = s := by
  rcases members with _ | ⟨⟨name, j⟩, rest⟩
  · rcases members' with _ | ⟨⟨name', k⟩, rest'⟩
    · exact ⟨rfl, (List.cons.inj h).2⟩
    · exact absurd (List.cons.inj h).1 (by decide)
  · rcases members' with _ | ⟨⟨name', k⟩, rest'⟩
    · exact absurd (List.cons.inj h).1 (by decide)
    · simp only [renderMembers, cons_append, append_assoc] at h
      obtain ⟨rfl, hn⟩ := quoted_append_inj (List.cons.inj h).2
      obtain ⟨rfl, hr⟩ := Json.render_append_inj j k (stops_renderMembers _)
        (stops_renderMembers _) (List.cons.inj hn).2
      obtain ⟨rfl, hrs⟩ := renderMembers_append_inj rest rest' hr
      exact ⟨rfl, hrs⟩

end

theorem Json.render_injective : Function.Injective Json.render := by
  intro j k h
  have ha : j.render ++ [] = k.render ++ [] := congrArg (· ++ []) h
  exact (Json.render_append_inj j k stops_nil stops_nil ha).1

end Lib
