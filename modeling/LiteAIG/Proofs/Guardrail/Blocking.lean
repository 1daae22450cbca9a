/-
What becomes of a window that the buffered layer finds blocked.

`Write` looks at `Blocked` once, in the inline layer.  A call that gets past it is
answered with the content of whatever the buffered layer evaluates, on the release
path and on the final flush alike, and nothing stops the stream.  The inline layer
sees a bounded number of bytes and the buffered one a whole window, so there are
texts that only the second of them blocks.
-/
import LiteAIG.Proofs.Guardrail.Stream

namespace LiteAIG.Guardrail

open Lib StreamGuard

variable {sum : Text → Text}

/-- One call of `Write`, final or not. -/
structure WriteCall extends Call where
  final : Bool

def StreamGuard.answer (sum : Text → Text) (g : StreamGuard) (c : WriteCall) :
    Except BlockError Text :=
  (g.write sum c.allow c.delta c.final).1

def StreamGuard.after (sum : Text → Text) (g : StreamGuard) (c : WriteCall) : StreamGuard :=
  (g.write sum c.allow c.delta c.final).2

/-- Neither an earlier block, nor Layer 3, nor the inline layer ends the call. -/
def StreamGuard.ReachesBuffer (sum : Text → Text) (g : StreamGuard) (c : WriteCall) : Prop :=
  g.stopped = false ∧ (g.shadow && !c.allow) = false ∧
    (c.delta ≠ [] → (g.inline.evaluate sum c.delta).1.blocked = false)

/-- The evaluations that the buffered layer makes in a call that reaches it: of a window that
is released, and of what a final call flushes. -/
def StreamGuard.bufferedResults (sum : Text → Text) (g : StreamGuard) (c : WriteCall) :
    List Result :=
  let ((pushed, release), buffered) := g.buffered.push sum c.delta
  (if release then [pushed] else []) ++ (if c.final then [(buffered.flush sum).1] else [])

/-- One of them reports a block. -/
def StreamGuard.BlockedInBuffer (sum : Text → Text) (g : StreamGuard) (c : WriteCall) : Prop :=
  g.ReachesBuffer sum c ∧ ∃ r ∈ g.bufferedResults sum c, r.blocked = true

/-- The window that a call completes: all that is held and the delta, if the call releases it
or is final. -/
def StreamGuard.windowOf (g : StreamGuard) (c : WriteCall) : Option Text :=
  let value := g.buffered.buffer ++ c.delta
  if releases g.buffered.maxTokens c.delta value ∨ c.final ∧ value ≠ [] then some value else none

/-- The buffered layer reports a block exactly if the engine blocks that window. -/
theorem blocked_iff_windowOf (g : StreamGuard) (c : WriteCall) :
    (∃ r ∈ g.bufferedResults sum c, r.blocked = true) ↔ ∃ window, g.windowOf c = some window ∧
        (g.buffered.engine.evaluate sum window).blocked = true := by
  unfold bufferedResults windowOf BufferedStreamGuard.push
  by_cases hr : releases g.buffered.maxTokens c.delta (g.buffered.buffer ++ c.delta) = true
  · -- a released window leaves nothing to flush
    cases c.final <;> simp [hr, BufferedStreamGuard.flush, Result.empty]
  · cases hf : c.final with
    | false => simp [hr]
    | true =>
      simp only [hr]
      by_cases hn : g.buffered.buffer ++ c.delta = []
      · simp [hn, BufferedStreamGuard.flush, Result.empty]
      · simp [hn, BufferedStreamGuard.flush]

/-- Every window that the buffered layer finds blocked is refused, with every call after it. -/
def BlockedRefused (sum : Text → Text) : StreamGuard → List WriteCall → Prop
  | _, [] => True
  | g, c :: rest =>
    (g.BlockedInBuffer sum c →
      (∃ err, g.answer sum c = .error err) ∧ delivered (g.answer sum c) = [] ∧
        ∀ pre c' post, rest = pre ++ c' :: post →
          ∃ err, (run (StreamGuard.after sum) (g.after sum c) pre).answer sum c' = .error err) ∧
    BlockedRefused sum (g.after sum c) rest

/-- A call that reaches the buffered layer is answered with text. -/
theorem answer_of_reaches {g : StreamGuard} {c : WriteCall} (h : g.ReachesBuffer sum c) :
    ∃ text, g.answer sum c = .ok text := by
  obtain ⟨hr, hc, hi⟩ := h
  unfold answer write
  rw [if_neg (by simp [hr]), if_neg (by simp [hc])]
  by_cases hd : c.delta = []
  · rw [if_pos hd]
    exact ⟨_, rfl⟩
  · rw [if_neg hd]
    simp only [hi hd]
    exact ⟨_, rfl⟩

/--
**The buffered layer's blocks are never acted on.**  A run keeps the rule exactly if, in every
call that the inline layer lets pass, the engine does not block what is held and evaluated.
-/
theorem blocked_refused_iff (sum : Text → Text) (cfg : StreamGuardConfig) (calls : List WriteCall) :
    BlockedRefused sum (StreamGuard.new cfg) calls ↔ Allowed (StreamGuard.after sum)
        (fun g c => g.ReachesBuffer sum c → ∀ window, g.windowOf c = some window →
          (g.buffered.engine.evaluate sum window).blocked = false)
        (StreamGuard.new cfg) calls := by
  generalize new cfg = g
  induction calls generalizing g with
  | nil => simp [BlockedRefused]
  | cons c rest ih =>
    rw [BlockedRefused, allowed_cons, ih]
    refine and_congr_left fun _ => ⟨?_, ?_⟩
    · intro hre hr window hw
      by_contra hb
      -- the call would have to be an error, and it is answered with text
      obtain ⟨⟨err, he⟩, -⟩ := hre
        ⟨hr, (blocked_iff_windowOf g c).mpr ⟨window, hw, by simpa using hb⟩⟩
      obtain ⟨text, ht⟩ := answer_of_reaches hr
      rw [he] at ht
      cases ht
    · rintro hp ⟨hr, hres⟩
      obtain ⟨window, hw, hb⟩ := (blocked_iff_windowOf g c).mp hres
      rw [hp hr window hw] at hb
      cases hb

/-- A policy of one rule: a text with the word `abc` is blocked. -/
def stopRule : CompiledRule where
  id := ascii "stop"
  matcher := .keyword
  pattern := ascii "abc"
  action := .block
  replacement := ascii "[redacted]"
  id_ne := by decide
  pattern_ne := by decide
  replacement_ne := by decide

/-- Its guard, with an inline window of one byte. -/
def narrowConfig : StreamGuardConfig where
  engine := ⟨1, [stopRule]⟩
  windowBytes := 1
  bufferTokens := 0
  external := false

/-- The word in three deltas: the inline layer sees two letters of it at a time. -/
def spelledOut : List WriteCall :=
  [⟨⟨ascii "a", true⟩, false⟩, ⟨⟨ascii "b", true⟩, false⟩, ⟨⟨ascii "c.", true⟩, false⟩]

/-- The window `abc.` is blocked by the buffered layer and delivered by the same call. -/
theorem blocked_window_delivered :
    (run (StreamGuard.after id) (StreamGuard.new narrowConfig)
      (spelledOut.take 2)).BlockedInBuffer id
        ⟨⟨ascii "c.", true⟩, false⟩ ∧
      (run (StreamGuard.after id) (StreamGuard.new narrowConfig) (spelledOut.take 2)).answer id
        ⟨⟨ascii "c.", true⟩, false⟩ = .ok (ascii "abc.") ∧
      ¬ BlockedRefused id (StreamGuard.new narrowConfig) spelledOut := by
  have hb : (run (after id) (new narrowConfig)
      (spelledOut.take 2)).BlockedInBuffer id ⟨⟨ascii "c.", true⟩, false⟩ :=
    ⟨⟨by decide, by decide, by decide⟩,
      (blocked_iff_windowOf _ _).mpr ⟨ascii "abc.", by decide, by decide⟩⟩
  have ha : (run (after id) (new narrowConfig)
      (spelledOut.take 2)).answer id ⟨⟨ascii "c.", true⟩, false⟩ = .ok (ascii "abc.") := by
    decide
  refine ⟨hb, ha, ?_⟩
  rintro ⟨-, -, hl, -⟩
  obtain ⟨⟨err, he⟩, -⟩ := hl hb
  rw [show (after id (after id (new narrowConfig)
    ⟨⟨ascii "a", true⟩, false⟩) ⟨⟨ascii "b", true⟩, false⟩).answer id ⟨⟨ascii "c.", true⟩, false⟩
      = .ok (ascii "abc.") from ha] at he
  cases he

end LiteAIG.Guardrail
