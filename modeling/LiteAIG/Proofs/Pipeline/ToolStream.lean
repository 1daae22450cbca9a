/-
What a stream delivers of a tool call that the output guardrail stops.

The guardrail looks at the arguments of every tool call of a response.  In a stream
only the text is looked at, so whether the client gets the arguments is decided by
the text and not by them: it gets all of them unless the stream is cut before their
last piece.  `Refuses` says where that is, by the rules and the chunks.
-/
import LiteAIG.Pipeline.ToolStream
import LiteAIG.Proofs.Pipeline.Consumed

namespace LiteAIG.Pipeline

open Guardrail

/-! ### The response as a whole -/

section

variable (sum : Text → Text) (engine : Engine) (requestID : String)

/-- The guardrail gets to the arguments of a tool call, after these choices and these calls, and
finds something there. -/
structure StopsAt (response : UnifiedResponse) (before : List Choice) (choice : Choice)
    (passed : List Text) (arguments : Text) : Prop where
  choices : ∃ after, response.choices = before ++ choice :: after
  calls : ∃ rest, choice.toolArguments = passed ++ arguments :: rest
  result : (response.toolResult.map (engine.evaluate sum)).bind (handleMatches requestID) = none
  choices_pass : ∀ other ∈ before, handleMatches requestID
    (engine.evaluate sum other.content) = none ∧
    guardArguments sum engine requestID other.toolArguments = none
  content_passes : handleMatches requestID (engine.evaluate sum choice.content) = none
  calls_pass : guardArguments sum engine requestID passed = none
  nonempty : arguments ≠ []
  found : (engine.evaluate sum arguments).hits ≠ []

/-- Why the arguments are refused. -/
def refusal (arguments : Text) : Failure :=
  (handleMatches requestID (engine.evaluate sum arguments)).getD
    (.kernel "OUTPUT_GUARDRAIL_BLOCKED" "tool call arguments blocked by policy" requestID false)

variable {sum engine requestID} {arguments : Text} {passed : List Text} {before : List Choice}

theorem guardArguments_stops (hne : arguments ≠ [])
    (hf : (engine.evaluate sum arguments).hits ≠ []) (rest : List Text) :
    guardArguments sum engine requestID (arguments :: rest)
      = some (refusal sum engine requestID arguments) := by
  simp only [guardArguments, hne, hf, or_self, if_false, refusal]
  cases handleMatches requestID (engine.evaluate sum arguments) <;> rfl

theorem guardArguments_append (h : guardArguments sum engine requestID passed = none)
    (rest : List Text) :
    guardArguments sum engine requestID (passed ++ rest) =
      guardArguments sum engine requestID rest := by
  induction passed with
  | nil => rfl
  | cons arguments passed ih =>
    simp only [guardArguments, List.cons_append] at h ⊢
    split at h
    · rename_i hs
      rw [if_pos hs]
      exact ih h
    · cases hm : handleMatches requestID (engine.evaluate sum arguments) with
      | none =>
        rw [hm] at h
        cases h
      | some err =>
        rw [hm] at h
        cases h

theorem guardChoices_append
    (h : ∀ other ∈ before, handleMatches requestID (engine.evaluate sum other.content) = none ∧
      guardArguments sum engine requestID other.toolArguments = none)
    (rest : List Choice) :
    (guardChoices sum engine requestID (before ++ rest)).1
      = (guardChoices sum engine requestID rest).1 := by
  induction before with
  | nil => rfl
  | cons other before ih =>
    obtain ⟨hc, hca⟩ := h other List.mem_cons_self
    simp only [List.cons_append, guardChoices, hc, hca, Option.or_none]
    exact ih fun other ho => h other (List.mem_cons_of_mem _ ho)

/-- The response is refused, and for the arguments. -/
theorem StopsAt.refused {resp : UnifiedResponse} {choice : Choice}
    (h : StopsAt sum engine requestID resp before choice passed arguments) :
    (guardResponse sum engine requestID resp).1 =
      some (refusal sum engine requestID arguments) := by
  obtain ⟨after, hc⟩ := h.choices
  obtain ⟨rest, hca⟩ := h.calls
  have hs : guardArguments sum engine requestID choice.toolArguments
      = some (refusal sum engine requestID arguments) := by
    rw [hca, guardArguments_append h.calls_pass]
    exact guardArguments_stops h.nonempty h.found rest
  unfold guardResponse
  simp only [h.result, hc, guardChoices_append h.choices_pass]
  simp only [guardChoices, h.content_passes, hs, Option.none_or]

end

/-! ### The same response in a stream -/

/-- The chunks bring the response: the text of each choice, and the arguments of each tool call at
an index of its own. -/
structure Streamed (response : UnifiedResponse) (chunks : List StreamChunk)
    (index : Nat → Nat → Int) : Prop where
  content : ∀ k choice, response.choices[k]? = some choice →
    (chunks.filter fun chunk => chunk.index = k).flatMap (fun chunk => chunk.event.delta)
      = choice.content
  arguments : ∀ k choice, response.choices[k]? = some choice → ∀ j arguments,
    choice.toolArguments[j]? = some arguments →
      argumentsOf k (index k j) (chunks.flatMap StreamChunk.pieces) = arguments
  distinct : ∀ k j j', index k j = index k j' → j = j'

/-- The last bytes of the text so far, which the guard looks at again with every delta. -/
def recent (past : List StreamChunk) : Text :=
  (past.flatMap fun chunk => chunk.event.delta).rtake 256

/-- A policy with rules stops the stream at a chunk after these ones: it was over already, Layer 3
says so, or a rule blocks the text. -/
def Refuses (sum : Text → Text) (engine : Engine) (external : Bool) (past : List StreamChunk)
    (chunk : StreamChunk) : Prop :=
  engine.rules ≠ [] ∧ (past.any (fun chunk => chunk.event.final) = true ∨
    external = true ∧ chunk.event.allow = false ∨ chunk.event.delta ≠ [] ∧
      (engine.evaluate sum (recent past ++ chunk.event.delta)).blocked = true)
  deriving Decidable

/-- The chunks from the first one on that is refused. -/
def cutOff (sum : Text → Text) (engine : Engine) (external : Bool) :
    List StreamChunk → List StreamChunk → List StreamChunk
  | _, [] => []
  | past, chunk :: rest =>
    if Refuses sum engine external past chunk then chunk :: rest
    else cutOff sum engine external (past ++ [chunk]) rest

/-- The policy's guard has seen these chunks. -/
def Watches (engine : Engine) (external : Bool) (past : List StreamChunk) :
    Option StreamGuard → Prop
  | none => engine.rules = []
  | some guard => engine.rules ≠ [] ∧ guard.inline = ⟨engine, recent past, 256⟩ ∧
      guard.shadow = external ∧ guard.stopped = past.any fun chunk => chunk.event.final

theorem argumentsOf_append (choice : Nat) (index : Int) (xs ys : List (Nat × ToolCallDelta)) :
    argumentsOf choice index (xs ++ ys) = argumentsOf choice index xs ++
      argumentsOf choice index ys := by
  simp [argumentsOf]

/-- The last bytes can be taken from the last bytes of what came before. -/
theorem rtake_rtake_append (k : Nat) (text delta : Text) :
    (text.rtake k ++ delta).rtake k = (text ++ delta).rtake k := by
  have hsplit : text ++ delta
      = text.take (text.length - k) ++ (text.drop (text.length - k) ++ delta) := by
    rw [← List.append_assoc, List.take_append_drop]
  have hlen : (text ++ delta).length - k = (text.take (text.length - k)).length
      + ((text.drop (text.length - k) ++ delta).length - k) := by
    simp only [List.length_append, List.length_take, List.length_drop]
    omega
  rw [List.rtake, List.rtake, List.rtake, hlen, hsplit]
  exact (List.drop_length_add_append ..).symm

variable (sum : Text → Text) {engine : Engine} {external : Bool} {past : List StreamChunk}
  (chunk : StreamChunk)

theorem deliver_keeps (guard : StreamGuard) (delta : Text) (final : Bool) :
    (guard.deliver sum delta final).2.inline = guard.inline ∧
      (guard.deliver sum delta final).2.shadow = guard.shadow ∧
      (guard.deliver sum delta final).2.stopped = guard.stopped := by
  unfold StreamGuard.deliver StreamGuard.submitReleased StreamGuard.emitMatches
  dsimp only
  split_ifs <;> exact ⟨rfl, rfl, rfl⟩

theorem recent_snoc :
    recent (past ++ [chunk]) = (recent past ++ chunk.event.delta).rtake 256 := by
  rw [recent, recent, List.flatMap_append, List.flatMap_singleton, rtake_rtake_append]

/-- The inline guard looks at the last bytes with the delta, and keeps the last bytes of these. -/
theorem evaluate_recent :
    (⟨engine, recent past, 256⟩ : InlineStreamGuard).evaluate sum chunk.event.delta
      = (engine.evaluate sum (recent past ++ chunk.event.delta),
        ⟨engine, recent (past ++ [chunk]), 256⟩) := by
  rw [recent_snoc, InlineStreamGuard.evaluate, List.rtake]
  dsimp only
  split_ifs with hlong
  · rfl
  · have hshort : (recent past ++ chunk.event.delta).length - 256 = 0 := by omega
    rw [hshort, List.drop_zero]

/-- A guard that has let a chunk pass; the last one stops it. -/
theorem watches_snoc {guard guard' : StreamGuard} (h : Watches engine external past (some guard))
    (hrun : guard.stopped = false)
    (hinline : guard'.inline = ⟨engine, recent (past ++ [chunk]), 256⟩)
    (hshadow : guard'.shadow = external) (hstopped : guard'.stopped = false) :
    Watches engine external (past ++ [chunk])
      (some (if chunk.event.final && true then guard'.stop else guard')) := by
  obtain ⟨hrules, -, -, hpast⟩ := h
  rw [hrun] at hpast
  rw [Bool.and_true, Watches, List.any_append, ← hpast]
  cases hfinal : chunk.event.final <;>
    simp [StreamGuard.stop, hrules, hinline, hshadow, hstopped, hfinal]

/-- A guard refuses a chunk exactly where the policy does. -/
theorem write_watches {guard : StreamGuard} (h : Watches engine external past (some guard)) :
    let written := guard.write sum chunk.event.allow chunk.event.delta chunk.event.final
    (Refuses sum engine external past chunk → written.1.isOk = false) ∧
      (¬ Refuses sum engine external past chunk → written.1.isOk = true ∧
        Watches engine external (past ++ [chunk])
          (some (if chunk.event.final && written.1.isOk then written.2.stop else written.2))) := by
  have hkeeps := fun guard' => deliver_keeps sum guard' chunk.event.delta chunk.event.final
  have hnext := fun guard' => @watches_snoc _ _ _ chunk _ guard' h
  obtain ⟨hrules, hinline, hshadow, hstopped⟩ := h
  unfold Refuses StreamGuard.write
  rw [← hstopped, hshadow]
  by_cases hrun : guard.stopped = true
  · simp [hrun, hrules, Except.isOk, Except.toBool]
  · have hrun := Bool.eq_false_iff.mpr hrun
    by_cases hcut : external = true ∧ chunk.event.allow = false
    · simp [hrun, hcut, hrules, Except.isOk, Except.toBool]
    · have hgo : (external && !chunk.event.allow) = false := by
        cases external <;> cases hallow : chunk.event.allow <;> simp_all
      by_cases hempty : chunk.event.delta = []
      · simp only [hrun, hgo, hempty, hcut, Bool.false_eq_true, if_false, if_true, false_or, ne_eq,
          not_true, false_and, and_false, false_imp_iff, true_and, not_false_eq_true, true_imp_iff]
        rw [hempty] at hkeeps
        obtain ⟨hin, hsh, hst⟩ := hkeeps guard
        refine ⟨rfl, hnext _ hrun ?_ (hsh.trans hshadow) (hst.trans hrun)⟩
        rw [hin, hinline, recent, recent, List.flatMap_append, List.flatMap_singleton, hempty,
          List.append_nil]
      · simp only [hrun, hgo, hempty, hcut, hrules, hinline, evaluate_recent, Bool.false_eq_true,
          if_false, false_or, ne_eq, not_false_eq_true, true_and]
        by_cases hblocked : (engine.evaluate sum (recent past ++ chunk.event.delta)).blocked = true
        · simp [hblocked, Except.isOk, Except.toBool]
        · simp only [Bool.eq_false_iff.mpr hblocked, Bool.false_eq_true, if_false, false_imp_iff,
            not_false_eq_true, true_imp_iff, true_and]
          exact ⟨rfl, hnext _ hrun (hkeeps _).1 (hkeeps _).2.1 (hkeeps _).2.2⟩

theorem release_watches {c : StreamCollector} (h : Watches engine external past c.guard) :
    (Refuses sum engine external past chunk → (c.release sum chunk.event).1.isOk = false) ∧
      (¬ Refuses sum engine external past chunk → (c.release sum chunk.event).1.isOk = true ∧
        Watches engine external (past ++ [chunk]) (c.release sum chunk.event).2.guard) := by
  unfold StreamCollector.release
  cases hg : c.guard with
  | none =>
    rw [hg] at h
    refine ⟨fun hr => absurd h hr.1, fun _ => ⟨rfl, ?_⟩⟩
    show Watches engine external _ c.guard
    rw [hg]
    exact h
  | some guard =>
    rw [hg] at h
    exact write_watches sum chunk h

/-- A chunk that is refused writes nothing; any other is written with its pieces. -/
theorem writeChunk_watches {c : ToolCollector} (h : Watches engine external past c.collector.guard)
    (hclient : chunk.event.clientErr = none) :
    (Refuses sum engine external past chunk → (c.writeChunk sum chunk).1.isSome = true ∧
        (c.writeChunk sum chunk).2.written = c.written) ∧
      (¬ Refuses sum engine external past chunk → (c.writeChunk sum chunk).1 = none ∧
        (c.writeChunk sum chunk).2.written = c.written ++ chunk.pieces ∧
        Watches engine external (past ++ [chunk]) (c.writeChunk sum chunk).2.collector.guard) := by
  have hrelease := release_watches sum chunk
    (c := { c.collector with usage := chunk.event.usage.or c.collector.usage }) h
  unfold ToolCollector.writeChunk StreamCollector.writeChunk
  dsimp only at hrelease ⊢
  generalize StreamCollector.release sum _ chunk.event = released at hrelease ⊢
  obtain ⟨err | text, collector⟩ := released
  · refine ⟨fun _ => ⟨rfl, rfl⟩, fun hn => ?_⟩
    cases (hrelease.2 hn).1
  · refine ⟨fun hr => ?_, fun hn => ?_⟩
    · cases hrelease.1 hr
    · have hw := (hrelease.2 hn).2
      simp only [hclient]
      split_ifs <;> exact ⟨rfl, rfl, hw⟩

/-- What is written and what is cut off make up all the pieces. -/
theorem written_append_cutOff {chunks : List StreamChunk}
    (hclient : ∀ chunk ∈ chunks, chunk.event.clientErr = none) {c : ToolCollector}
    (h : Watches engine external past c.collector.guard) :
    (c.stream sum chunks).2.written ++
        (cutOff sum engine external past chunks).flatMap StreamChunk.pieces
      = c.written ++ chunks.flatMap StreamChunk.pieces := by
  induction chunks generalizing c past with
  | nil => rfl
  | cons chunk rest ih =>
    obtain ⟨hrefused, hpasses⟩ :=
      writeChunk_watches sum chunk h (hclient chunk List.mem_cons_self)
    have hrest := fun chunk hc => hclient chunk (List.mem_cons_of_mem _ hc)
    unfold ToolCollector.stream cutOff
    generalize c.writeChunk sum chunk = written at hrefused hpasses ⊢
    obtain ⟨err, c'⟩ := written
    split_ifs with hr
    · obtain ⟨hs, hw⟩ := hrefused hr
      obtain ⟨failure, rfl⟩ := Option.isSome_iff_exists.mp hs
      dsimp only at hw ⊢
      rw [hw]
    · obtain ⟨rfl, hw, hg⟩ := hpasses hr
      dsimp only at hw ⊢
      rw [ih hrest hg, hw, List.flatMap_cons, List.append_assoc]

theorem streamGuardFor_watches : Watches engine external []
    (streamGuardFor (.ok engine) external) := by
  unfold streamGuardFor
  cases hrules : engine.rules with
  | nil => simp [hrules, Watches]
  | cons rule rules =>
    simp only [hrules, List.isEmpty_cons, Bool.false_eq_true, if_false]
    exact ⟨by simp [hrules], rfl, rfl, rfl⟩

/-- **Of a tool call for which the guardrail refuses the response as a whole, a stream withholds
something exactly when some of the arguments come with or after a chunk at which the policy stops
the stream for its text, by Layer 3 or because it was over.** -/
theorem tool_arguments_withheld_iff (sum : Text → Text) (engine : Engine) (external : Bool)
    (requestID : String) (response : UnifiedResponse) (before : List Choice) (choice : Choice)
    (passed : List Text) (arguments : Text)
    (hstops : StopsAt sum engine requestID response before choice passed arguments)
    (chunks : List StreamChunk) (index : Nat → Nat → Int)
    (hstreamed : Streamed response chunks index)
    (hclient : ∀ chunk ∈ chunks, chunk.event.clientErr = none) :
    (guardResponse sum engine requestID response).1 =
      some (refusal sum engine requestID arguments) ∧
      (argumentsOf before.length (index before.length passed.length)
          ((ToolCollector.new (streamGuardFor (.ok engine) external)).stream sum chunks).2.written
            ≠ arguments ↔
        argumentsOf before.length (index before.length passed.length)
          ((cutOff sum engine external [] chunks).flatMap StreamChunk.pieces) ≠ []) := by
  refine ⟨hstops.refused, not_congr ?_⟩
  obtain ⟨after, hc⟩ := hstops.choices
  obtain ⟨rest, hca⟩ := hstops.calls
  have hal := hstreamed.arguments before.length choice (by simp [hc]) passed.length arguments
    (by simp [hca])
  have hs := congrArg (argumentsOf before.length (index before.length passed.length))
    (written_append_cutOff sum hclient
      (c := .new (streamGuardFor (.ok engine) external)) streamGuardFor_watches)
  rw [argumentsOf_append, argumentsOf_append] at hs
  change _ = [] ++ _ at hs
  rw [List.nil_append, hal] at hs
  rw [← hs]
  exact List.self_eq_append_right

/-! ### A tool call with a forbidden word -/

/-- The arguments have the word in them, and there is no text. -/
def forbiddenCall : UnifiedResponse := ⟨none, [⟨[], [ascii "abc"]⟩], .zero⟩

/-- A chunk with a piece of the call's arguments; `allow` is what Layer 3 says by then. -/
def callChunk (arguments : String) (allow : Bool) : StreamChunk where
  event := ⟨[], true, "", none, false, allow, none⟩
  index := 0
  toolCallDeltas := [⟨0, "call-1", "function", "run", ascii arguments⟩]
  toolCallDeltas_eq := rfl

/-- The arguments in two pieces, the word split between them. -/
def splitCall (allow : Bool) : List StreamChunk := [callChunk "ab" true, callChunk "c" allow]

def policyEngine : Engine := ⟨1, [blockingRule]⟩

theorem forbiddenCall_stops :
    StopsAt id policyEngine "q1" forbiddenCall [] ⟨[], [ascii "abc"]⟩ [] (ascii "abc") where
  choices := ⟨[], rfl⟩
  calls := ⟨[], rfl⟩
  result := rfl
  choices_pass := by simp
  content_passes := by decide +kernel
  calls_pass := rfl
  nonempty := by decide
  found := by decide +kernel

theorem forbiddenCall_choice {k : Nat} {choice : Choice}
    (h : forbiddenCall.choices[k]? = some choice) : k = 0 ∧ choice = ⟨[], [ascii "abc"]⟩ := by
  cases k with
  | zero => exact ⟨rfl, (Option.some.inj h).symm⟩
  | succ k => cases h

theorem splitCall_streamed (allow : Bool) :
    Streamed forbiddenCall (splitCall allow) fun _ j => (j : Int) where
  content k choice hc := by
    obtain ⟨rfl, rfl⟩ := forbiddenCall_choice hc
    rfl
  arguments k choice hc j arguments ha := by
    obtain ⟨rfl, rfl⟩ := forbiddenCall_choice hc
    cases j with
    | zero => exact Option.some.inj ha
    | succ j => cases ha
  distinct k j j' h := by omega

/-- What a stream gives the client of the call. -/
def receivedCall (external allow : Bool) : Text :=
  argumentsOf 0 0 ((ToolCollector.new (streamGuardFor (.ok policyEngine) external)).stream id
    (splitCall allow)).2.written

/-- Layer 3 stops the stream between the pieces, for whatever reason. -/
theorem stopped_stream_withholds : receivedCall true false ≠ ascii "abc" :=
  (tool_arguments_withheld_iff id policyEngine true "q1" forbiddenCall [] ⟨[], [ascii "abc"]⟩ []
    (ascii "abc") forbiddenCall_stops (splitCall false) _ (splitCall_streamed false)
    (by simp [splitCall, callChunk])).2.mpr (by decide +kernel)

/-- The response as a whole is refused, and the stream delivers all of it. -/
theorem streamed_call_delivered :
    (guardResponse id policyEngine "q1" forbiddenCall).1
        = some (.kernel "GUARDRAIL_BLOCKED" "content blocked by policy" "q1" false) ∧
      ((ToolCollector.new (streamGuardFor (.ok policyEngine) false)).stream id (splitCall true)).1 =
        none ∧
      receivedCall false true = ascii "abc" := by
  decide +kernel

end LiteAIG.Pipeline
