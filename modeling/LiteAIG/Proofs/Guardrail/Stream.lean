/-
What a streaming guard delivers.

The bytes a stream delivers are decided by two things that do not depend on each
other: where the buffered layer releases, which is a function of the deltas alone,
and what the engine makes of each released window.  `deliveredWindows` is the
first; `stream_delivered` says the delivered text is the engine's content of those
windows, one after the other, whenever the inline layer lets the deltas pass.

The last call is the odd one.  `Write` pushes the final delta and then flushes,
and a push that releases has already emptied the buffer, so the flush finds
nothing and what the push released is dropped.  That is why the final case of
`deliveredWindows` is empty exactly when the release condition holds.
-/
import LiteAIG.Guardrail.Stream

namespace LiteAIG.Guardrail

open List StreamGuard

variable {sum : Text → Text}

/-! ### An evaluation without a match changes nothing -/

theorem evaluateRules_hits_le (hash : Text) : ∀ (rules : List CompiledRule) (r : Result),
    r.hits.length ≤ (evaluateRules hash rules r).hits.length := by
  intro rules
  induction rules with
  | nil => intro r; exact Nat.le_refl _
  | cons rule rest ih =>
    intro r
    rw [evaluateRules]
    split
    · cases rule.action with
      | block => simp
      | redact => exact Nat.le_trans (by simp) (ih _)
    · exact ih r

/-- A match adds a hit, and no later rule takes one away. -/
theorem evaluateRules_hits_lt (hash : Text) {rule : CompiledRule} {r : Result}
    (hf : rule.found r.content) (rest : List CompiledRule) :
    r.hits.length < (evaluateRules hash (rule :: rest) r).hits.length := by
  rw [evaluateRules, if_pos hf]
  cases rule.action with
  | block => simp
  | redact => exact Nat.lt_of_lt_of_le (by simp) (evaluateRules_hits_le hash rest _)

theorem evaluateRules_quiet (hash : Text) : ∀ (rules : List CompiledRule) (r : Result),
    (evaluateRules hash rules r).hits.length = r.hits.length →
      evaluateRules hash rules r = r ∧ ∀ rule ∈ rules, rule.found r.content = false := by
  intro rules
  induction rules with
  | nil => intro r _; exact ⟨rfl, by simp⟩
  | cons rule rest ih =>
    intro r h
    by_cases hf : rule.found r.content = true
    · exact absurd h (Nat.ne_of_gt (evaluateRules_hits_lt hash hf rest))
    · rw [evaluateRules, if_neg hf] at h ⊢
      obtain ⟨hs, hn⟩ := ih r h
      exact ⟨hs, forall_mem_cons.mpr ⟨by simpa using hf, hn⟩⟩

variable {e : Engine} {w h : Text} {cfg : StreamGuardConfig} {call : Call} {g : StreamGuard}

/-- No match means the content comes back as it went in, and nothing is blocked. -/
theorem evaluate_quiet (h : (e.evaluate sum w).hits = []) :
    e.evaluate sum w = ⟨w, false, []⟩ := by
  unfold Engine.evaluate at h ⊢
  exact (evaluateRules_quiet _ _ _ (by rw [h])).1

theorem found_of_quiet (h : (e.evaluate sum w).hits = []) :
    ∀ rule ∈ e.rules, rule.found w = false := by
  unfold Engine.evaluate at h
  exact (evaluateRules_quiet (sum w) e.rules ⟨w, false, []⟩ (by rw [h])).2

/-! ### One call -/

/-- The guard is running with this engine and bounds and holds `h` back. -/
structure Ready (cfg : StreamGuardConfig) (h : Text) (g : StreamGuard) : Prop where
  running : g.stopped = false
  shadow : g.shadow = cfg.external
  inlineEngine : g.inline.engine = cfg.engine
  bufferedEngine : g.buffered.engine = cfg.engine
  maxTokens : g.buffered.maxTokens = (BufferedStreamGuard.new cfg.engine cfg.bufferTokens).maxTokens
  buffer : g.buffered.buffer = h

theorem ready_new (cfg : StreamGuardConfig) : Ready cfg [] (new cfg) :=
  ⟨rfl, rfl, rfl, rfl, rfl, rfl⟩

theorem maxTokens_pos (cfg : StreamGuardConfig) :
    0 < (BufferedStreamGuard.new cfg.engine cfg.bufferTokens).maxTokens := by
  show 0 < if cfg.bufferTokens ≤ 0 then 64 else cfg.bufferTokens.toNat
  split <;> omega

/-- The release condition of a guard built from this configuration. -/
def releasesFor (cfg : StreamGuardConfig) (chunk value : Text) : Bool :=
  releases (BufferedStreamGuard.new cfg.engine cfg.bufferTokens).maxTokens chunk value

/-- Nothing is ever released from an empty buffer by an empty delta. -/
theorem releasesFor_ne_nil {h d : Text} (hr : releasesFor cfg d (h ++ d) = true) : h ++ d ≠ [] := by
  intro hn
  obtain ⟨rfl, rfl⟩ := append_eq_nil_iff.mp hn
  have := maxTokens_pos cfg
  simp only [releasesFor, releases, any_nil, Bool.false_or, decide_eq_true_eq] at hr
  have hz : fields ([] ++ []) = 0 := rfl
  omega

/-- Layer 3 has not cut the stream when this call is made. -/
def Uncut (cfg : StreamGuardConfig) (call : Call) : Prop :=
  cfg.external = false ∨ call.allow = true
  deriving Decidable

/-- The inline layer does not block this call, if the call reaches it. -/
def Unblocked (sum : Text → Text) (g : StreamGuard) (call : Call) : Prop :=
  (g.stopped || (g.shadow && !call.allow)) = false → call.delta ≠ [] →
    (g.inline.evaluate sum call.delta).1.blocked = false

theorem Ready.reaches_iff (hg : Ready cfg h g) (call : Call) :
    (g.stopped || (g.shadow && !call.allow)) = false ↔ Uncut cfg call := by
  rw [hg.running, hg.shadow]
  unfold Uncut
  cases cfg.external <;> cases call.allow <;> simp

theorem unblocked_of_cut (hg : Ready cfg h g) (hc : ¬ Uncut cfg call) :
    Unblocked sum g call :=
  fun hr => absurd ((hg.reaches_iff call).mp hr) hc

/-- The guard with the rolling window moved on by the delta. -/
def StreamGuard.advance (sum : Text → Text) (g : StreamGuard) (delta : Text) : StreamGuard :=
  if delta = [] then g else { g with inline := (g.inline.evaluate sum delta).2 }

theorem Ready.advance (hg : Ready cfg h g) (sum : Text → Text)
    (delta : Text) :
    Ready cfg h (g.advance sum delta) := by
  unfold StreamGuard.advance
  split
  · exact hg
  · exact ⟨hg.running, hg.shadow, hg.inlineEngine, hg.bufferedEngine, hg.maxTokens, hg.buffer⟩

/-- A call that is neither cut nor blocked is the buffered layer's. -/
theorem write_passes (hg : Ready cfg h g) (hc : Uncut cfg call)
    (hb : Unblocked sum g call) (final : Bool) :
    g.write sum call.allow call.delta final
      = (.ok ((g.advance sum call.delta).deliver sum call.delta final).1,
          ((g.advance sum call.delta).deliver sum call.delta final).2) := by
  have hr := (hg.reaches_iff call).mpr hc
  obtain ⟨hru, hsh⟩ := Bool.or_eq_false_iff.mp hr
  unfold write StreamGuard.advance
  rw [if_neg (by simp [hru]), if_neg (by simp [hsh])]
  by_cases hd : call.delta = []
  · rw [if_pos hd, if_pos hd]
  · simp only [if_neg hd, hb hr hd]
    rfl

theorem write_cut (hg : Ready cfg h g) (hc : ¬ Uncut cfg call)
    (final : Bool) :
    g.write sum call.allow call.delta final
      = (.error ⟨"stream cut by retroactive guardrail"⟩, { g with stopped := true }) := by
  have hsh : (g.shadow && !call.allow) = true := by
    rw [← hg.reaches_iff, hg.running] at hc
    simpa using hc
  unfold write
  rw [if_neg (by simp [hg.running]), if_pos hsh]

theorem write_stopped (hg : g.stopped) (allow : Bool) (delta : Text) (final : Bool) :
    g.write sum allow delta final = (.error ⟨"stream stopped"⟩, g) := by
  unfold write
  rw [if_pos hg]

/-- What the buffered layer hands out before the last call, and what it then holds. -/
theorem deliver_held (hg : Ready cfg h g) (delta : Text) :
    (g.deliver sum delta false).1
        = (if releasesFor cfg delta (h ++ delta) then
            (cfg.engine.evaluate sum (h ++ delta)).content else []) ∧
      Ready cfg (if releasesFor cfg delta (h ++ delta) then [] else h ++ delta)
        (g.deliver sum delta false).2 := by
  have hre : releases g.buffered.maxTokens delta (g.buffered.buffer ++ delta)
      = releasesFor cfg delta (h ++ delta) := by rw [hg.maxTokens, hg.buffer]; rfl
  unfold deliver BufferedStreamGuard.push
  simp only [hre]
  cases hr : releasesFor cfg delta (h ++ delta) with
  | true =>
    simp only [if_true, Bool.false_eq_true, if_false, hg.bufferedEngine, hg.buffer]
    refine ⟨trivial, ?_⟩
    unfold submitReleased emitMatches
    split <;> exact ⟨hg.running, hg.shadow, hg.inlineEngine, rfl, hg.maxTokens, rfl⟩
  | false =>
    simp only [Bool.false_eq_true, if_false, hg.buffer]
    exact ⟨trivial, hg.running, hg.shadow, hg.inlineEngine, hg.bufferedEngine, hg.maxTokens, rfl⟩

/-- What the last call hands out: nothing when its own push releases. -/
theorem deliver_final (hg : Ready cfg h g) (delta : Text) :
    (g.deliver sum delta true).1
      = if releasesFor cfg delta (h ++ delta) ∨ h ++ delta = [] then []
        else (cfg.engine.evaluate sum (h ++ delta)).content := by
  have hre : releases g.buffered.maxTokens delta (g.buffered.buffer ++ delta)
      = releasesFor cfg delta (h ++ delta) := by rw [hg.maxTokens, hg.buffer]; rfl
  unfold deliver BufferedStreamGuard.push BufferedStreamGuard.flush
  simp only [hre]
  cases hr : releasesFor cfg delta (h ++ delta) with
  | true => simp [Result.empty]
  | false =>
    by_cases hn : h ++ delta = []
    · simp [hg.buffer, hn, Result.empty]
    · simp [hg.buffer, hg.bufferedEngine, hn]

/-! ### The whole stream -/

/-- The text held back after these deltas. -/
def heldAfter (cfg : StreamGuardConfig) : Text → List Call → Text
  | h, [] => h
  | h, c :: rest =>
    heldAfter cfg (if releasesFor cfg c.delta (h ++ c.delta) then [] else h ++ c.delta) rest

/-- The windows whose content reaches the client, up to the first cut. -/
def deliveredWindows (cfg : StreamGuardConfig) : Text → List Call → Call → List Text
  | h, [], last =>
    if Uncut cfg last then
      if releasesFor cfg last.delta (h ++ last.delta) ∨ h ++ last.delta = [] then []
      else [h ++ last.delta]
    else []
  | h, c :: rest, last =>
    if Uncut cfg c then
      if releasesFor cfg c.delta (h ++ c.delta) then
        (h ++ c.delta) :: deliveredWindows cfg [] rest last
      else deliveredWindows cfg (h ++ c.delta) rest last
    else []

/-- The inline layer blocks none of the calls of the stream. -/
def Unhindered (sum : Text → Text) : StreamGuard → List Call → Call → Prop
  | g, [], last => Unblocked sum g last
  | g, c :: rest, last =>
    Unblocked sum g c ∧ Unhindered sum (g.write sum c.allow c.delta false).2 rest last

theorem unhindered_stopped (hg : g.stopped) : ∀ (calls : List Call)
    (last : Call), Unhindered sum g calls last := by
  intro calls
  have hb : ∀ c, Unblocked sum g c := fun c hr => by simp [hg] at hr
  induction calls with
  | nil => intro last; exact hb last
  | cons c rest ih =>
    intro last
    refine ⟨hb c, ?_⟩
    rw [write_stopped hg]
    exact ih last

theorem stream_nil (last : Call) :
    g.stream sum [] last = [(g.write sum last.allow last.delta true).1] := rfl

theorem stream_cons (c : Call) (rest : List Call) (last : Call) :
    g.stream sum (c :: rest) last
      = (g.write sum c.allow c.delta false).1
          :: (g.write sum c.allow c.delta false).2.stream sum rest last := rfl

theorem stream_stopped (hg : g.stopped) : ∀ (calls : List Call)
    (last : Call), ∀ r ∈ g.stream sum calls last, r = .error ⟨"stream stopped"⟩ := by
  intro calls
  induction calls with
  | nil =>
    intro last r hr
    rw [stream_nil, mem_singleton, write_stopped hg] at hr
    exact hr
  | cons c rest ih =>
    intro last r hr
    rw [stream_cons, mem_cons, write_stopped hg] at hr
    rcases hr with hr | hr
    · exact hr
    · exact ih last r hr

theorem delivered_of_all_error {rs : List (Except BlockError Text)} {err : BlockError}
    (h : ∀ r ∈ rs, r = .error err) : rs.flatMap delivered = [] := by
  rw [flatMap_eq_nil_iff]
  intro r hr
  rw [h r hr]
  rfl

/-- **The delivered text is the engine's content of the delivered windows.** -/
theorem stream_delivered : ∀ (calls : List Call) (last : Call)
    {h : Text} {g : StreamGuard}, Ready cfg h g → Unhindered sum g calls last →
      (g.stream sum calls last).flatMap delivered
        = (deliveredWindows cfg h calls last).flatMap
            fun w => (cfg.engine.evaluate sum w).content := by
  intro calls
  induction calls with
  | nil =>
    intro last h g hg hun
    rw [stream_nil, deliveredWindows]
    by_cases hc : Uncut cfg last
    · rw [write_passes hg hc hun, if_pos hc, flatMap_singleton]
      show ((g.advance sum last.delta).deliver sum last.delta true).1 = _
      rw [deliver_final (hg.advance _ _)]
      split
      · rfl
      · rw [flatMap_singleton]
    · rw [write_cut hg hc, if_neg hc]
      rfl
  | cons c rest ih =>
    intro last h g hg hun
    rw [stream_cons, deliveredWindows, flatMap_cons]
    by_cases hc : Uncut cfg c
    · obtain ⟨hb, hre⟩ := hun
      rw [write_passes hg hc hb] at hre ⊢
      obtain ⟨ht, hn⟩ := deliver_held (hg.advance sum c.delta) c.delta
      rw [if_pos hc, ih last hn hre]
      show ((g.advance sum c.delta).deliver sum c.delta false).1 ++ _ = _
      rw [ht]
      by_cases hr : releasesFor cfg c.delta (h ++ c.delta) = true
      · simp only [hr, if_true, flatMap_cons]
      · simp only [hr, if_false, nil_append, Bool.false_eq_true]
    · rw [write_cut hg hc, if_neg hc,
        delivered_of_all_error (stream_stopped rfl rest last)]
      rfl

/-- No call errors exactly when Layer 3 cuts none of them. -/
theorem stream_ok_iff : ∀ (calls : List Call) (last : Call)
    {h : Text} {g : StreamGuard}, Ready cfg h g → Unhindered sum g calls last →
      ((∀ r ∈ g.stream sum calls last, ∃ text, r = .ok text) ↔
        ∀ c ∈ calls ++ [last], Uncut cfg c) := by
  intro calls
  induction calls with
  | nil =>
    intro last h g hg hun
    rw [stream_nil]
    by_cases hc : Uncut cfg last
    · simp [write_passes hg hc hun, hc]
    · simp [write_cut hg hc, hc]
  | cons c rest ih =>
    intro last h g hg hun
    rw [stream_cons, cons_append, forall_mem_cons, forall_mem_cons]
    by_cases hc : Uncut cfg c
    · obtain ⟨hb, hr⟩ := hun
      rw [write_passes hg hc hb] at hr ⊢
      obtain ⟨-, hn⟩ := deliver_held (hg.advance sum c.delta) c.delta
      rw [ih last hn hr]
      simp [hc]
    · simp [write_cut hg hc, hc]

/-- The delivered windows make up the deltas, less what the last call drops. -/
theorem deliveredWindows_flatten : ∀ (calls : List Call) (last : Call)
    (h : Text), (∀ c ∈ calls ++ [last], Uncut cfg c) →
      (deliveredWindows cfg h calls last).flatten
          ++ (if releasesFor cfg last.delta (heldAfter cfg h calls ++ last.delta) then
                heldAfter cfg h calls ++ last.delta else [])
        = h ++ (calls.flatMap Call.delta ++ last.delta) := by
  intro calls
  induction calls with
  | nil =>
    intro last h hc
    rw [deliveredWindows, if_pos (hc last (by simp)), heldAfter]
    by_cases hr : releasesFor cfg last.delta (h ++ last.delta) = true
    · simp [hr]
    · by_cases hn : h ++ last.delta = []
      · simp [hn]
      · simp only [hr, hn, Bool.false_eq_true, or_self, if_false, flatten_singleton,
          append_nil, flatMap_nil, nil_append]
  | cons c rest ih =>
    intro last h hc
    have hre : ∀ d ∈ rest ++ [last], Uncut cfg d := fun d hd => hc d (by simp_all)
    rw [deliveredWindows, if_pos (hc c (by simp)), heldAfter]
    by_cases hr : releasesFor cfg c.delta (h ++ c.delta) = true
    · simp only [hr, if_true, flatten_cons]
      rw [append_assoc, ih last [] hre]
      simp
    · simp only [hr, if_false, Bool.false_eq_true]
      rw [ih last _ hre]
      simp

/-! ### Nothing matches

The windows a stream evaluates are those of its two local layers: the rolling
window of every call with a delta, and each buffer that is released or flushed.
When the engine matches none of them, the delivered windows come back unchanged,
and all that can be missing is what the last call's own release throws away.
-/

/-- The windows one call hands to the engine. -/
def StreamGuard.evaluatedBy (sum : Text → Text) (g : StreamGuard) (call : Call) (final : Bool) :
    List Text :=
  let value := g.buffered.buffer ++ call.delta
  let released := releases g.buffered.maxTokens call.delta value
  let buffered := if released || (final && decide (value ≠ [])) then [value] else []
  if g.stopped || (g.shadow && !call.allow) then []
  else if call.delta = [] then buffered
  else
    (g.inline.window ++ call.delta)
      :: if (g.inline.evaluate sum call.delta).1.blocked then [] else buffered

/-- The windows a whole stream hands to the engine. -/
def StreamGuard.evaluatedWindows (sum : Text → Text) : StreamGuard → List Call → Call → List Text
  | g, [], last => g.evaluatedBy sum last true
  | g, c :: rest, last =>
    g.evaluatedBy sum c false
      ++ (g.write sum c.allow c.delta false).2.evaluatedWindows sum rest last

/-- The engine matches no rule on any of these windows. -/
def Quiet (sum : Text → Text) (e : Engine) (ws : List Text) : Prop :=
  ∀ w ∈ ws, (e.evaluate sum w).hits = []

/-- A call whose windows are all quiet is not blocked. -/
theorem unblocked_of_quiet (hg : Ready cfg h g) (final : Bool)
    (hq : Quiet sum cfg.engine (g.evaluatedBy sum call final)) : Unblocked sum g call := by
  intro hr hd
  have hm : g.inline.window ++ call.delta ∈ g.evaluatedBy sum call final := by
    simp only [evaluatedBy, hr, Bool.false_eq_true, hd, if_neg, not_false_eq_true]
    exact mem_cons_self
  show (g.inline.engine.evaluate sum (g.inline.window ++ call.delta)).blocked = false
  rw [hg.inlineEngine, evaluate_quiet (hq _ hm)]

theorem buffer_mem_evaluatedBy (hg : Ready cfg h g)
    (hcu : Uncut cfg call) (hb : Unblocked sum g call) (final : Bool)
    (hev : releasesFor cfg call.delta (h ++ call.delta) = true ∨ final = true ∧
      h ++ call.delta ≠ []) :
    h ++ call.delta ∈ g.evaluatedBy sum call final := by
  have hre := (hg.reaches_iff call).mpr hcu
  have hrel : releases g.buffered.maxTokens call.delta (g.buffered.buffer ++ call.delta)
      = releasesFor cfg call.delta (h ++ call.delta) := by rw [hg.maxTokens, hg.buffer]; rfl
  have hc : (releases g.buffered.maxTokens call.delta (g.buffered.buffer ++ call.delta)
      || (final && decide (g.buffered.buffer ++ call.delta ≠ []))) = true := by
    rw [hrel, hg.buffer]
    rcases hev with hr | ⟨hf, hne⟩
    · simp [hr]
    · simp only [hf, hne, ne_eq, not_false_eq_true, decide_true, Bool.and_self, Bool.or_true]
  simp only [evaluatedBy, hre, Bool.false_eq_true, if_false, hc, if_true]
  rw [← hg.buffer]
  split
  · exact mem_singleton_self _
  · rename_i hd
    simp [hb hre hd]

/-- Quiet windows: no call is blocked, and what is delivered was among the windows. -/
theorem quiet_stream : ∀ (calls : List Call) (last : Call)
    {h : Text} {g : StreamGuard}, Ready cfg h g →
      Quiet sum cfg.engine (g.evaluatedWindows sum calls last) →
      Unhindered sum g calls last ∧ Quiet sum cfg.engine (deliveredWindows cfg h calls last) := by
  intro calls
  induction calls with
  | nil =>
    intro last h g hg hq
    rw [deliveredWindows]
    by_cases hc : Uncut cfg last
    · have hb : Unblocked sum g last := unblocked_of_quiet hg true hq
      refine ⟨hb, ?_⟩
      rw [if_pos hc]
      intro w hw
      split at hw
      · simp at hw
      · rename_i hno
        push Not at hno
        rw [mem_singleton.mp hw]
        exact hq _ (buffer_mem_evaluatedBy hg hc hb true (Or.inr ⟨rfl, hno.2⟩))
    · rw [if_neg hc]
      exact ⟨unblocked_of_cut hg hc, fun w hw => by simp at hw⟩
  | cons c rest ih =>
    intro last h g hg hq
    rw [deliveredWindows]
    by_cases hc : Uncut cfg c
    · have hqc : Quiet sum cfg.engine (g.evaluatedBy sum c false) :=
        fun w hw => hq w (mem_append_left _ hw)
      have hb : Unblocked sum g c := unblocked_of_quiet hg false hqc
      have hre : Quiet sum cfg.engine
          ((g.write sum c.allow c.delta false).2.evaluatedWindows sum rest last) :=
        fun w hw => hq w (mem_append_right _ hw)
      obtain ⟨-, hn⟩ := deliver_held (hg.advance sum c.delta) c.delta
      rw [Unhindered, if_pos hc]
      rw [write_passes hg hc hb] at hre ⊢
      obtain ⟨hun, hd⟩ := ih last hn hre
      refine ⟨⟨hb, hun⟩, ?_⟩
      by_cases hr : releasesFor cfg c.delta (h ++ c.delta) = true
      · simp only [hr, if_true] at hd ⊢
        intro w hw
        rcases mem_cons.mp hw with hw | hw
        · rw [hw]
          exact hqc _ (buffer_mem_evaluatedBy hg hc hb false (Or.inl hr))
        · exact hd w hw
      · simpa only [hr, if_false, Bool.false_eq_true] using hd
    · rw [Unhindered, if_neg hc, write_cut hg hc]
      exact ⟨⟨unblocked_of_cut hg hc, unhindered_stopped rfl rest last⟩,
        fun w hw => by simp at hw⟩

/-- Quiet windows come back from the engine as they are. -/
theorem flatMap_content_of_quiet {ws : List Text} (hq : Quiet sum e ws) :
    ws.flatMap (fun w => (e.evaluate sum w).content) = ws.flatten := by
  rw [← flatMap_id']
  refine flatMap_congr fun w hw => ?_
  rw [evaluate_quiet (hq w hw)]

/-- No call errors, and the returned strings make up the deltas. -/
def DeliversAll (sum : Text → Text) (g : StreamGuard) (calls : List Call) (last : Call) : Prop :=
  (∀ r ∈ g.stream sum calls last, ∃ text, r = .ok text) ∧
    (g.stream sum calls last).flatMap delivered = calls.flatMap Call.delta ++ last.delta

/--
**Every byte is delivered exactly when the last delta does not release on its own.**
For a stream on which the engine matches nothing, no call errors and the returned
strings make up the deltas if and only if Layer 3 cuts no call and the final delta,
pushed onto what is held by then, does not meet the release condition.
-/
theorem delivers_all_iff (sum : Text → Text) (cfg : StreamGuardConfig) (calls : List Call)
    (last : Call)
    (hquiet : Quiet sum cfg.engine
      ((StreamGuard.new cfg).evaluatedWindows sum calls last)) :
    DeliversAll sum (StreamGuard.new cfg) calls last ↔
      (∀ c ∈ calls ++ [last], Uncut cfg c) ∧
        releasesFor cfg last.delta (heldAfter cfg [] calls ++ last.delta) = false := by
  have hg := ready_new cfg
  obtain ⟨hun, hd⟩ := quiet_stream calls last hg hquiet
  unfold DeliversAll
  rw [stream_ok_iff calls last hg hun, stream_delivered calls last hg hun,
    flatMap_content_of_quiet hd]
  refine and_congr_right fun hc => ?_
  have hf := deliveredWindows_flatten calls last [] hc
  by_cases hr : releasesFor cfg last.delta (heldAfter cfg [] calls ++ last.delta) = true
  · -- the dropped window is not empty, so the text is short of it
    have hne := releasesFor_ne_nil hr
    rw [if_pos hr] at hf
    simp only [hr, Bool.true_eq_false, iff_false]
    intro heq
    rw [heq] at hf
    simp only [nil_append] at hf
    exact hne (append_right_eq_self.mp hf)
  · rw [if_neg hr, append_nil] at hf
    rw [hf]
    simpa using hr

/-- A policy of one rule: the word `secret` is replaced by three stars. -/
def starsRule : CompiledRule where
  id := ascii "r1"
  matcher := .keyword
  pattern := ascii "secret"
  action := .redact
  replacement := ascii "***"
  id_ne := cons_ne_nil _ _
  pattern_ne := cons_ne_nil _ _
  replacement_ne := cons_ne_nil _ _

/-- The guard of that policy with the default bounds and no Layer 3. -/
def starsConfig : StreamGuardConfig where
  engine := ⟨1, [starsRule]⟩
  windowBytes := 0
  bufferTokens := 0
  external := false

/-- A final delta that ends a sentence is lost whole: nothing matches, no call errors,
and `"Hi."` comes back as the empty string. -/
theorem final_sentence_dropped :
    Quiet id starsConfig.engine
        ((StreamGuard.new starsConfig).evaluatedWindows id [] ⟨ascii "Hi.", true⟩) ∧
      (StreamGuard.new starsConfig).stream id [] ⟨ascii "Hi.", true⟩ = [.ok []] ∧
      ¬ DeliversAll id (StreamGuard.new starsConfig) [] ⟨ascii "Hi.", true⟩ := by
  refine ⟨?_, by decide, ?_⟩
  · unfold Quiet
    decide
  · intro h
    exact absurd h.2 (by decide)

/-- The same text is delivered when the sentence ends before the final call. -/
theorem delivers_all_closed_sentence :
    DeliversAll id (StreamGuard.new starsConfig) [⟨ascii "Hi.", true⟩] ⟨ascii " Bye", true⟩ := by
  refine (delivers_all_iff id starsConfig [⟨ascii "Hi.", true⟩] ⟨ascii " Bye", true⟩ ?_).mpr ?_
  · unfold Quiet
    decide
  · decide

end LiteAIG.Guardrail
