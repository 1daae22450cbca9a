/-
What streaming redaction lets through.

The engine sees one window at a time.  On a window it does what it says: no
keyword is left.  What the client reads is the windows one after the other, and a
keyword that runs across a border between two of them was in neither.

To say exactly which ones survive, each window gets a mask that shows the
positions its rules have replaced.  Replacement texts share no character with a
keyword, so a keyword shows in the output exactly when it shows in the mask, and
there every occurrence inside one window has been struck.
-/
import LiteAIG.Proofs.Guardrail.Stream

namespace LiteAIG.Guardrail

open Lib List

variable {sum : Text → Text}

/-- Keyword rules that redact, whose replacements share no byte with a keyword. -/
structure KeywordRedaction (rules : List CompiledRule) : Prop where
  keyword : ∀ r ∈ rules, r.matcher = .keyword
  redact : ∀ r ∈ rules, r.action = .redact
  foreign : ∀ r ∈ rules, ∀ b ∈ r.replacement, ∀ k ∈ rules, b ∉ k.pattern

/-- A byte that no keyword has. -/
def Foreign (rules : List CompiledRule) (b : UInt8) : Prop :=
  ∀ k ∈ rules, b ∉ k.pattern

/-- The positions these rules replace, on top of the ones already replaced. -/
def maskRules (rules : List CompiledRule) (m : List (Option UInt8)) : List (Option UInt8) :=
  rules.foldl (fun m r => maskWord r.pattern m) m

/-- The positions the rules replace in one window. -/
def windowMask (rules : List CompiledRule) (w : Text) : List (Option UInt8) :=
  maskRules rules (w.map some)

/-! ### One window -/

theorem evaluateRules_not_blocked (hash : Text) : ∀ (rules : List CompiledRule) (r : Result),
    (∀ k ∈ rules, k.action = .redact) → (evaluateRules hash rules r).blocked = r.blocked := by
  intro rules
  induction rules with
  | nil => intro r _; rfl
  | cons rule rest ih =>
    intro r hre
    have hr : ∀ k ∈ rest, k.action = .redact := fun k hk => hre k (mem_cons_of_mem _ hk)
    rw [evaluateRules, hre rule mem_cons_self]
    by_cases hf : rule.found r.content = true
    · rw [if_pos hf]
      exact ih _ hr
    · rw [if_neg hf]
      exact ih r hr

theorem refines_maskRules (rules : List CompiledRule) (m : List (Option UInt8)) :
    Refines m (maskRules rules m) :=
  List.foldlRecOn (motive := Refines m) rules _ (Refines.refl m) fun m h rule _ =>
    h.trans (refines_maskWord rule.pattern_ne m)

variable {rules : List CompiledRule} {e : Engine}

/-- A keyword rule leaves its content redacted as its mask says, match or not. -/
theorem redacted_step (hk : KeywordRedaction rules) {rule : CompiledRule} (hm : rule ∈ rules)
    {m : List (Option UInt8)} {c : Text} (h : Redacted (Foreign rules) m c) :
    Redacted (Foreign rules) (maskWord rule.pattern m)
      (if rule.found c then rule.redacted c else c) := by
  have hr : Redacted (Foreign rules) (maskWord rule.pattern m)
      (replaceAll rule.pattern rule.replacement c) :=
    h.replace rule.pattern_ne (fun b hb hfo => hfo rule hm hb)
      rule.replacement_ne (fun b hb k hkm => hk.foreign rule hm b hb k hkm)
  unfold CompiledRule.found CompiledRule.redacted
  rw [hk.keyword rule hm]
  by_cases hf : rule.pattern <:+: c
  · simpa only [hf, decide_true, if_true] using hr
  · rw [replaceAll_of_absent c hf] at hr
    simpa only [hf, decide_false, Bool.false_eq_true, if_false] using hr

theorem evaluateRules_redacted {all : List CompiledRule} (hk : KeywordRedaction all) (hash : Text) :
    ∀ (rules : List CompiledRule) (m : List (Option UInt8)) (r : Result), rules ⊆ all →
      Redacted (Foreign all) m r.content →
      Redacted (Foreign all) (maskRules rules m) (evaluateRules hash rules r).content := by
  intro rules
  induction rules with
  | nil => intro m r _ h; exact h
  | cons rule rest ih =>
    intro m r hsu h
    have hm : rule ∈ all := hsu mem_cons_self
    have hr : rest ⊆ all := fun k hkm => hsu (mem_cons_of_mem _ hkm)
    have hs := redacted_step hk hm h
    rw [evaluateRules, hk.redact rule hm]
    by_cases hf : rule.found r.content = true
    · rw [if_pos hf] at hs ⊢
      exact ih _ _ hr hs
    · rw [if_neg hf] at hs ⊢
      exact ih _ _ hr hs

/-- What the engine makes of a window, position by position. -/
theorem evaluate_redacted (hk : KeywordRedaction e.rules) (w : Text) :
    Redacted (Foreign e.rules) (windowMask e.rules w) (e.evaluate sum w).content :=
  evaluateRules_redacted hk _ _ _ _ (fun _ h => h) (Redacted.refl w)

/-- No keyword shows in the mask once its rule has run. -/
theorem not_infix_maskRules : ∀ (rules : List CompiledRule) (m : List (Option UInt8)),
    ∀ k ∈ rules, ¬ k.pattern.map some <:+: maskRules rules m := by
  intro rules
  induction rules with
  | nil => intro m k hk; simp at hk
  | cons rule rest ih =>
    intro m k hk hin
    rcases mem_cons.mp hk with rfl | hk
    · -- the later rules only replace more
      exact not_infix_maskWord k.pattern_ne m ((refines_maskRules rest _).occurs hin)
    · exact ih _ k hk hin

/-- **On one window the engine leaves no keyword.** -/
theorem evaluate_clean (hk : KeywordRedaction e.rules) (w : Text) :
    ∀ k ∈ e.rules, ¬ k.pattern <:+: (e.evaluate sum w).content := by
  intro k hm hin
  rw [(evaluate_redacted hk w).infix_iff k.pattern_ne fun b hb hf => hf k hm hb] at hin
  exact not_infix_maskRules e.rules _ k hm hin

/-! ### The windows one after the other -/

theorem unhindered_of_redact {cfg : StreamGuardConfig}
    (hr : ∀ k ∈ cfg.engine.rules, k.action = .redact) : ∀ (calls : List Call) (last : Call)
    {h : Text} {g : StreamGuard}, Ready cfg h g → Unhindered sum g calls last := by
  have hb : ∀ {h : Text} {g : StreamGuard} (c : Call), Ready cfg h g → Unblocked sum g c := by
    intro h g c hg _ _
    show (g.inline.engine.evaluate sum (g.inline.window ++ c.delta)).blocked = false
    rw [hg.inlineEngine]
    exact evaluateRules_not_blocked _ _ _ hr
  intro calls
  induction calls with
  | nil => intro last h g hg; exact hb last hg
  | cons c rest ih =>
    intro last h g hg
    refine ⟨hb c hg, ?_⟩
    by_cases hc : Uncut cfg c
    · rw [write_passes hg hc (hb c hg)]
      exact ih last (deliver_held (hg.advance sum c.delta) c.delta).2
    · rw [write_cut hg hc]
      exact unhindered_stopped rfl rest last

theorem redacted_flatMap (hk : KeywordRedaction e.rules) : ∀ ws : List Text,
    Redacted (Foreign e.rules) (ws.flatMap (windowMask e.rules))
      (ws.flatMap fun w => (e.evaluate sum w).content) := by
  intro ws
  induction ws with
  | nil => exact .nil
  | cons w ws ih => exact (evaluate_redacted hk w).append ih

theorem refines_flatMap (rules : List CompiledRule) : ∀ ws : List Text,
    Refines (ws.flatten.map some) (ws.flatMap (windowMask rules)) := by
  intro ws
  induction ws with
  | nil => exact .nil
  | cons w ws ih =>
    rw [flatten_cons, map_append]
    exact (refines_maskRules rules _).append ih

theorem windowMask_length (rules : List CompiledRule) (w : Text) :
    (windowMask rules w).length = w.length := by
  have h := (refines_maskRules rules (w.map some)).length_eq
  rw [length_map] at h
  exact h.symm

/-- An occurrence that no rule struck runs across a border between windows. -/
theorem straddles_of_not_struck {k : CompiledRule} (hk : k ∈ rules) {ws : List Text}
    {pre post : Text} (ho : ws.flatten = pre ++ (k.pattern ++ post))
    (hs : ¬ Struck (ws.flatMap (windowMask rules)) pre.length k.pattern.length) :
    Straddles (ws.map List.length) pre.length k.pattern.length := by
  by_contra hno
  have hr := refines_flatMap rules ws
  rw [ho] at hr
  have hsh := hr.untouched hs
  have hl : pre.length ≤ (ws.flatMap (windowMask rules)).length := by
    rw [← hr.length_eq]; simp
  have hma : (ws.map (windowMask rules)).map List.length = ws.map List.length := by
    rw [map_map]
    exact map_congr_left fun w _ => windowMask_length rules w
  obtain ⟨m, hm, hin⟩ := infix_part_of_not_straddles (w := k.pattern.map some)
    (by simpa using k.pattern_ne) (ws.map (windowMask rules)) _ _ hsh
    (by rw [hma, length_take, Nat.min_eq_left hl, length_map]; exact hno)
  obtain ⟨w, -, rfl⟩ := mem_map.mp hm
  exact not_infix_maskRules rules _ k hk hin

/-- No keyword is in the text the stream delivers. -/
def StreamClean (sum : Text → Text) (cfg : StreamGuardConfig) (calls : List Call) (last : Call) :
    Prop :=
  ∀ k ∈ cfg.engine.rules,
    ¬ k.pattern <:+: ((StreamGuard.new cfg).stream sum calls last).flatMap delivered

/-- Every keyword that runs across a border between delivered windows has lost a byte
to a rule that matched inside one of them. -/
def BordersCovered (cfg : StreamGuardConfig) (calls : List Call) (last : Call) : Prop :=
  let ws := deliveredWindows cfg [] calls last
  ∀ k ∈ cfg.engine.rules, ∀ pre post, ws.flatten = pre ++ (k.pattern ++ post) →
    Straddles (ws.map List.length) pre.length k.pattern.length →
      Struck (ws.flatMap (windowMask cfg.engine.rules)) pre.length k.pattern.length

/--
**Streaming redaction is clean exactly when no release cuts a keyword.**
On the whole text the engine leaves no keyword.  The stream leaves none if and only
if every keyword across a border between two delivered windows is broken up by a
match inside one of them.
-/
theorem stream_clean_iff (sum : Text → Text) (cfg : StreamGuardConfig)
    (hk : KeywordRedaction cfg.engine.rules) (calls : List Call) (last : Call) :
    (∀ k ∈ cfg.engine.rules, ¬ k.pattern <:+:
          (cfg.engine.evaluate sum (calls.flatMap Call.delta ++ last.delta)).content) ∧
      (StreamClean sum cfg calls last ↔ BordersCovered cfg calls last) := by
  refine ⟨evaluate_clean hk _, ?_⟩
  have hg := ready_new cfg
  unfold StreamClean BordersCovered
  rw [stream_delivered calls last hg (unhindered_of_redact hk.redact calls last hg)]
  refine forall₂_congr fun k hm => ?_
  rw [(redacted_flatMap hk _).infix_iff k.pattern_ne fun b hb hf => hf k hm hb,
    (refines_flatMap cfg.engine.rules _).infix_iff]
  constructor
  · intro h pre post ho _
    by_contra hs
    exact h ⟨pre, post, ho, hs⟩
  · rintro h ⟨pre, post, ho, hs⟩
    exact hs (h pre post ho (straddles_of_not_struck hm ho hs))

theorem starsRule_redaction : KeywordRedaction starsConfig.engine.rules := by
  constructor
  · intro r hr
    rw [mem_singleton.mp hr]
    rfl
  · intro r hr
    rw [mem_singleton.mp hr]
    rfl
  · show ∀ r ∈ [starsRule], ∀ b ∈ r.replacement, ∀ k ∈ [starsRule], b ∉ k.pattern
    decide +kernel

/-- A chunk with a full stop is released to its last byte, so the word it breaks off in
the middle reaches the client in two halves. -/
theorem keyword_split_by_release :
    KeywordRedaction starsConfig.engine.rules ∧
      ((StreamGuard.new starsConfig).stream id [⟨ascii "x.sec", true⟩] ⟨ascii "ret", true⟩).flatMap
          delivered = ascii "x.secret" ∧
      ¬ StreamClean id starsConfig [⟨ascii "x.sec", true⟩] ⟨ascii "ret", true⟩ := by
  refine ⟨starsRule_redaction, by decide, ?_⟩
  intro h
  exact h starsRule mem_cons_self (by decide)

/-- The same text in one chunk before the final call comes out clean. -/
theorem stream_clean_one_chunk :
    StreamClean id starsConfig [⟨ascii "x.secret", true⟩] ⟨[], true⟩ := by
  refine ((stream_clean_iff id starsConfig starsRule_redaction _ _).2).mpr ?_
  -- one window of eight bytes has no inner border
  have hws : deliveredWindows starsConfig [] [⟨ascii "x.secret", true⟩] ⟨[], true⟩
      = [ascii "x.secret"] := by decide
  have h8 : (ascii "x.secret").length = 8 := by decide
  intro k _ pre post ho hst
  obtain ⟨l, r, hl, hlo, hhi⟩ := hst
  have hle := congrArg List.length ho
  rw [hws] at hl hle
  simp only [flatten_singleton, length_append] at hle
  rcases l with _ | ⟨n, l⟩
  · simp at hlo
  · have hn : n = 8 := (cons_eq_cons.mp hl).1.symm
    simp only [sum_cons] at hhi
    omega

end LiteAIG.Guardrail
