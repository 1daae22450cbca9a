/-
What the inline layer sees of a keyword that comes in pieces.

The window holds the last bytes of all that was fed, as many as it may.  An
occurrence that a chunk completes ends in that chunk, so all of it but one byte at
most lies before the chunk; a keyword that is at most one byte longer than the
window is therefore whole in the window and the chunk together.  What stands there
stood in the text before, so nothing is reported that is not there.
-/
import LiteAIG.Guardrail.Stream

namespace LiteAIG.Guardrail

open List

variable {sum : Text → Text} {n : Nat}

/-- Every rule of the engine is a keyword that blocks. -/
def Engine.BlocksKeywords (e : Engine) : Prop :=
  ∀ rule ∈ e.rules, rule.matcher = .keyword ∧ rule.action = .block

/-- One of the engine's keywords occurs in the text. -/
def Engine.occurs (e : Engine) (text : Text) : Bool :=
  e.rules.any fun rule => rule.pattern <:+: text

theorem evaluateRules_blocked (hash : Text) {content : Text} {hi : List Match} :
    ∀ {rules : List CompiledRule},
      (∀ rule ∈ rules, rule.matcher = .keyword ∧ rule.action = .block) →
      (evaluateRules hash rules ⟨content, false, hi⟩).blocked
        = rules.any fun rule => rule.pattern <:+: content := by
  intro rules
  induction rules with
  | nil => intro _; rfl
  | cons rule rest ih =>
    intro h
    obtain ⟨hk, hb⟩ := h rule mem_cons_self
    have hf : rule.found content = decide (rule.pattern <:+: content) := by
      rw [CompiledRule.found, hk]
    rw [evaluateRules, any_cons, hf]
    by_cases hin : rule.pattern <:+: content
    · simp [hin, hb]
    · simp only [hin, decide_false, Bool.false_or, Bool.false_eq_true, if_false]
      exact ih fun r hr => h r (mem_cons_of_mem _ hr)

/-- Such an engine blocks the texts with one of its keywords. -/
theorem Engine.BlocksKeywords.blocked_evaluate {e : Engine} (h : e.BlocksKeywords) (text : Text) :
    (e.evaluate sum text).blocked = e.occurs text :=
  evaluateRules_blocked _ h

/-! ### The window -/

/-- The last bytes of a text do not depend on what is dropped before them. -/
theorem rtake_rtake_append (n : Nat) (before chunk : Text) :
    (before.rtake n ++ chunk).rtake n = (before ++ chunk).rtake n := by
  have hs : before.rtake n ++ chunk = (before ++ chunk).drop (before.length - n) := by
    rw [List.rtake, drop_append_of_le_length (Nat.sub_le _ _)]
  unfold List.rtake at hs ⊢
  rw [hs, drop_drop]
  congr 1
  simp only [length_drop, length_append]
  omega

theorem evaluate_window (g : InlineStreamGuard) (chunk : Text) :
    (g.evaluate sum chunk).2.window = (g.window ++ chunk).rtake g.windowBytes := by
  show (if _ then _ else _) = _
  unfold List.rtake
  split
  · rfl
  · rename_i hle
    rw [Nat.sub_eq_zero_of_le (not_lt.mp hle), drop_zero]

/-- A short word that is not in the text before is in what the window keeps of it together with
the chunk exactly if it is in the whole. -/
theorem infix_window_iff {word before chunk : Text} (hl : word.length ≤ n + 1)
    (hb : ¬ word <:+: before) : word <:+: before.rtake n ++ chunk ↔ word <:+: before ++ chunk := by
  have hw : before.rtake n ++ chunk = (before ++ chunk).drop (before.length - n) := by
    rw [List.rtake, drop_append_of_le_length (Nat.sub_le _ _)]
  rw [hw]
  constructor
  · exact fun h => h.trans (drop_suffix _ _).isInfix
  · rintro ⟨pre, post, hs⟩
    -- the occurrence ends in the chunk
    have he : before.length < (pre ++ word).length := by
      by_contra hle
      refine hb ?_
      have hp : pre ++ word <+: before := by
        refine prefix_of_prefix_length_le ?_ (prefix_append before chunk) (not_lt.mp hle)
        rw [← hs]
        exact prefix_append _ _
      exact (infix_append pre word []).trans (by simpa using hp.isInfix)
    -- so it begins where the window does, or later
    have hst : before.length - n ≤ pre.length := by
      rw [length_append] at he
      omega
    refine ⟨pre.drop (before.length - n), post, ?_⟩
    rw [← hs, append_assoc, append_assoc, drop_append_of_le_length hst]

/-! ### A whole stream of chunks -/

/-- What `Evaluate` answers for the chunks, one after the other. -/
def InlineStreamGuard.results (sum : Text → Text) : InlineStreamGuard → List Text → List Result
  | _, [] => []
  | g, chunk :: rest => (g.evaluate sum chunk).1 :: results sum (g.evaluate sum chunk).2 rest

/-- The text as it is after each of the chunks. -/
def textsAfter : Text → List Text → List Text
  | _, [] => []
  | before, chunk :: rest => (before ++ chunk) :: textsAfter (before ++ chunk) rest

/-- The window shows a keyword that has just become whole, and no other. -/
theorem occurs_window {e : Engine} {before : Text} (chunk : Text)
    (hl : ∀ rule ∈ e.rules, rule.pattern.length ≤ n + 1) (hb : e.occurs before = false) :
    e.occurs (before.rtake n ++ chunk) = e.occurs (before ++ chunk) := by
  unfold Engine.occurs at hb ⊢
  rw [any_eq_false] at hb
  rw [Bool.eq_iff_iff, any_eq_true, any_eq_true]
  refine exists_congr fun rule => and_congr_right fun hr => ?_
  simpa using infix_window_iff (hl rule hr) (by simpa using hb rule hr)

theorem occurs_nil (e : Engine) : e.occurs [] = false := by
  rw [Engine.occurs, any_eq_false]
  intro rule _
  simpa using rule.pattern_ne

/-- From a guard whose window is the end of a text without a keyword in it. -/
theorem findIdx_results : ∀ {chunks : List Text} {g : InlineStreamGuard} {before : Text},
    g.engine.BlocksKeywords → (∀ rule ∈ g.engine.rules, rule.pattern.length ≤ n + 1) →
    g.windowBytes = n → g.window = before.rtake n → g.engine.occurs before = false →
    (g.results sum chunks).findIdx? (·.blocked)
      = (textsAfter before chunks).findIdx? g.engine.occurs := by
  intro chunks
  induction chunks with
  | nil => intros; rfl
  | cons chunk rest ih =>
    intro g before hb hl hn hw hbe
    have hbl : (g.evaluate sum chunk).1.blocked = g.engine.occurs (before ++ chunk) := by
      rw [← occurs_window chunk hl hbe, ← hw]
      exact hb.blocked_evaluate _
    rw [InlineStreamGuard.results, textsAfter, List.findIdx?_cons, List.findIdx?_cons, hbl]
    by_cases hno : g.engine.occurs (before ++ chunk) = true
    · rw [if_pos hno, if_pos hno]
    · rw [if_neg hno, if_neg hno]
      have hne : (g.evaluate sum chunk).2.window = (before ++ chunk).rtake n := by
        rw [evaluate_window, hn, hw, rtake_rtake_append]
      rw [ih (g := (g.evaluate sum chunk).2) hb hl hn hne (Bool.eq_false_iff.mpr hno)]
      rfl

/--
**A keyword is caught where it becomes whole.**  The first chunk that the inline layer reports
as blocked is the first one after which some keyword occurs in the text.
-/
theorem inline_blocks_first_completion (sum : Text → Text) (engine : Engine) (windowBytes : Int)
    (chunks : List Text) (hblocks : engine.BlocksKeywords)
    (hlen : ∀ rule ∈ engine.rules,
      rule.pattern.length ≤ (InlineStreamGuard.new engine windowBytes).windowBytes + 1) :
    ((InlineStreamGuard.new engine windowBytes).results sum chunks).findIdx? (·.blocked)
      = (textsAfter [] chunks).findIdx? engine.occurs := by
  exact findIdx_results (g := InlineStreamGuard.new engine windowBytes) hblocks hlen rfl
    (by rw [rtake_nil]; rfl) (occurs_nil engine)

/-- An engine of one keyword, `secret`. -/
def secretEngine : Engine :=
  ⟨1, [{ id := ascii "s"
         matcher := .keyword
         pattern := ascii "secret"
         action := .block
         replacement := ascii "x"
         id_ne := by decide
         pattern_ne := by decide
         replacement_ne := by decide }]⟩

/-- A window of five bytes finds it in the fourth chunk. -/
theorem inline_blocks_split_secret :
    ((InlineStreamGuard.new secretEngine 5).results id
        [ascii "a se", ascii "cr", ascii "e", ascii "t b"]).findIdx? (·.blocked) = some 3 :=
  inline_blocks_first_completion id secretEngine 5
    [ascii "a se", ascii "cr", ascii "e", ascii "t b"]
    (by intro rule h; rw [mem_singleton.mp h]; exact ⟨rfl, rfl⟩) (by decide)

end LiteAIG.Guardrail
