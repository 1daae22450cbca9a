/-
Request sizes and hard limits, with the machine's integers.

Sums of 64-bit integers wrap around.  Wrapping commutes with adding, so the machine's
estimate is the estimate that is meant, wrapped once (`estimate_eq_wrap64`), and the
total it is compared by is the total that is meant, wrapped once.  A limit holds as
long as that total is below 2^63.  Past it the total is negative and passes for small;
an estimate that is itself past it is refused by the budget, as invalid, and let
through by the meter.
-/
import LiteAIG.Budget.Manager
import LiteAIG.Pipeline.Estimate
import LiteAIG.Rate.Meter

namespace LiteAIG.Pipeline

open Lib Budget Rate Int64 List

/-! ### The estimate -/

section

variable {marshal : List Tool → Option (List UInt8)} {registry : Option Registry}

/-- The numbers of runes that tokens are estimated for. -/
def UnifiedRequest.sizes (marshal : List Tool → Option (List UInt8)) (request : UnifiedRequest) :
    List Int :=
  (request.chat.map (·.chars id marshal)).toList ++ (request.embedding.getD []).map len ++
    (request.audio.map (·.size id)).toList ++ (request.tool.map (·.size id)).toList

/-- The texts of the request are not longer than the machine can count. -/
def Sized (marshal : List Tool → Option (List UInt8)) (request : UnifiedRequest) : Prop :=
  ∀ n ∈ request.sizes marshal, n + 3 < 2 ^ 63

theorem len_nonneg (s : String) : 0 ≤ len s := Int.natCast_nonneg _

theorem message_chars_wrap64 (chars : Int) (msg : Message) :
    msg.chars wrap64 (wrap64 chars) = wrap64 (msg.chars id chars) := by
  unfold Message.chars
  simp only [id_eq, wrap64_add_wrap64, wrap64_wrap64_add]
  refine foldl_hom wrap64 ?_
  intro chars call
  exact wrap64_wrap64_add _ _

theorem chat_chars_wrap64 (chat : ChatPayload) :
    chat.chars wrap64 marshal = wrap64 (chat.chars id marshal) := by
  have hm : chat.messages.foldl (Message.chars wrap64) 0
      = wrap64 (chat.messages.foldl (Message.chars id) 0) := by
    have hz : wrap64 0 = 0 := rfl
    rw [← foldl_hom wrap64 message_chars_wrap64, hz]
  unfold ChatPayload.chars
  simp only [hm]
  split
  · cases marshal chat.tools with
    | none => rfl
    | some bytes => exact wrap64_wrap64_add _ _
  · rfl

theorem message_chars_ge (chars : Int) (msg : Message) : chars ≤ msg.chars id chars := by
  have hca : ∀ (calls : List ToolCall) (n : Int),
      n ≤ calls.foldl (fun chars call => chars + (len call.name + len call.arguments)) n := by
    intro calls n
    refine List.foldlRecOn (motive := (n ≤ ·)) calls _ le_rfl fun chars h call _ => ?_
    have hn := len_nonneg call.name
    have ha := len_nonneg call.arguments
    omega
  have hr := len_nonneg msg.role
  have hc := len_nonneg msg.content
  have ht := len_nonneg msg.toolCallID
  exact le_trans (by simp only [id_eq]; omega) (hca msg.toolCalls _)

theorem chat_chars_nonneg (marshal : List Tool → Option (List UInt8)) (chat : ChatPayload) :
    0 ≤ chat.chars id marshal := by
  have hs : 0 ≤ chat.messages.foldl (Message.chars id) 0 :=
    List.foldlRecOn (motive := (0 ≤ ·)) _ _ le_rfl fun n h msg _ => h.trans (message_chars_ge n msg)
  unfold ChatPayload.chars
  simp only [id_eq]
  split
  · split <;> omega
  · exact hs

theorem audio_size_nonneg (audio : AudioPayload) : 0 ≤ audio.size id := by
  have h₁ := len_nonneg audio.input
  have h₂ := len_nonneg audio.prompt
  have h₃ := len_nonneg audio.language
  simp only [AudioPayload.size, id_eq]
  omega

theorem tool_size_nonneg (tool : ToolPayload) : 0 ≤ tool.size id := by
  have h₁ := len_nonneg tool.name
  have h₂ := len_nonneg (trimSpace tool.arguments)
  simp only [ToolPayload.size, id_eq]
  omega

/-! A number of runes that can be counted is estimated for what it is. -/

variable {model : String} {runes : Int}

theorem estimateFor_wrap64 (h0 : 0 ≤ runes) (h : runes + 3 < 2 ^ 63) :
    estimateFor wrap64 registry model runes = estimateFor id registry model runes := by
  unfold estimateFor
  cases registry with
  | some registry => rfl
  | none => rw [wrap64_eq_self (by omega) h, id_eq]

theorem estimateFor_nonneg (registry : Option Registry) (model : String) (h0 : 0 ≤ runes) :
    0 ≤ estimateFor id registry model runes := by
  unfold estimateFor
  cases registry with
  | some registry => exact le_trans (by omega) (registry.one_le model runes)
  | none => exact Int.tdiv_nonneg (by simp only [id_eq]; omega) (by omega)

theorem addTokens_wrap64 (h0 : 0 ≤ runes) (h : runes + 3 < 2 ^ 63) (estimate : Int) :
    addTokens wrap64 registry model (wrap64 estimate) runes
      = wrap64 (addTokens id registry model estimate runes) := by
  unfold addTokens
  rw [estimateFor_wrap64 h0 h, wrap64_wrap64_add, id_eq]

theorem addTokens_ge (h0 : 0 ≤ runes) (estimate : Int) :
    estimate ≤ addTokens id registry model estimate runes := by
  have := estimateFor_nonneg registry model h0
  simp only [addTokens, id_eq]
  omega

theorem addChat_wrap64 {chat : ChatPayload} (h : chat.chars id marshal + 3 < 2 ^ 63)
    (estimate : Int) :
    addChat wrap64 marshal registry model (wrap64 estimate) chat
      = wrap64 (addChat id marshal registry model estimate chat) := by
  have h0 := chat_chars_nonneg marshal chat
  have hc : chat.chars wrap64 marshal = chat.chars id marshal := by
    rw [chat_chars_wrap64, wrap64_eq_self (by omega) (by omega)]
  have ht : (if 0 < chat.chars id marshal then
        addTokens wrap64 registry model (wrap64 estimate) (chat.chars id marshal)
      else wrap64 estimate)
      = wrap64 (if 0 < chat.chars id marshal then
          addTokens id registry model estimate (chat.chars id marshal)
        else estimate) := by
    split
    · exact addTokens_wrap64 h0 h estimate
    · rfl
  unfold addChat
  simp only [hc, ht]
  split
  · split
    · exact wrap64_wrap64_add _ _
    · rfl
  · rfl

theorem addChat_ge (model : String) (chat : ChatPayload) (estimate : Int) :
    estimate ≤ addChat id marshal registry model estimate chat := by
  have h0 := chat_chars_nonneg marshal chat
  have ht : estimate ≤ if 0 < chat.chars id marshal then
      addTokens id registry model estimate (chat.chars id marshal) else estimate := by
    split
    · exact addTokens_ge h0 estimate
    · exact le_rfl
  unfold addChat
  simp only [id_eq]
  split
  · split <;> omega
  · exact ht

theorem addInputs_wrap64 {inputs : List String} (h : ∀ input ∈ inputs, len input + 3 < 2 ^ 63)
    (estimate : Int) :
    addInputs wrap64 registry model (wrap64 estimate) inputs
      = wrap64 (addInputs id registry model estimate inputs) := by
  refine foldl_rel (r := fun e e' => e = wrap64 e') rfl fun input hi e e' he => ?_
  rw [he]
  exact addTokens_wrap64 (len_nonneg input) (h input hi) e'

theorem addInputs_ge (inputs : List String) (estimate : Int) :
    estimate ≤ addInputs id registry model estimate inputs :=
  List.foldlRecOn (motive := (estimate ≤ ·)) inputs _ le_rfl fun e h input _ =>
    h.trans (addTokens_ge (len_nonneg input) e)

theorem elim_wrap64 {α : Type} {o : Option α} {f g : Int → α → Int}
    (h : ∀ a ∈ o, ∀ e, f (wrap64 e) a = wrap64 (g e a)) (e : Int) :
    o.elim (wrap64 e) (f (wrap64 e)) = wrap64 (o.elim e (g e)) := by
  cases o with
  | none => rfl
  | some a => exact h a rfl e

/-- **The machine's estimate is the one that is meant, wrapped around.** -/
theorem estimate_eq_wrap64 {req : UnifiedRequest} (hs : Sized marshal req) :
    estimateTokensWith wrap64 marshal (some req) registry
      = wrap64 (estimateTokensWith id marshal (some req) registry) := by
  obtain ⟨model, chat, embedding, audio, tool⟩ := req
  have ho : (1 : Int) = wrap64 1 := rfl
  have hc := elim_wrap64 (o := chat) (f := addChat wrap64 marshal registry model)
    (g := addChat id marshal registry model) (by
      rintro chat rfl
      exact addChat_wrap64 (hs _ (by simp [UnifiedRequest.sizes])))
  have he := elim_wrap64 (o := embedding) (f := addInputs wrap64 registry model)
    (g := addInputs id registry model) (by
      rintro inputs rfl
      refine addInputs_wrap64 fun input hi => hs _ ?_
      simp only [UnifiedRequest.sizes, Option.getD_some, mem_append, mem_map]
      exact Or.inl (Or.inl (Or.inr ⟨input, hi, rfl⟩)))
  have ha := elim_wrap64 (o := audio)
    (f := fun e audio => addTokens wrap64 registry model e (audio.size wrap64))
    (g := fun e audio => addTokens id registry model e (audio.size id)) (by
      rintro audio rfl e
      have h : audio.size id + 3 < 2 ^ 63 := hs _ (by simp [UnifiedRequest.sizes])
      have h0 := audio_size_nonneg audio
      have hsi : audio.size wrap64 = audio.size id := by
        simpa [AudioPayload.size] using wrap64_eq_self (n := audio.size id) (by omega) (by omega)
      rw [hsi]
      exact addTokens_wrap64 h0 h e)
  have ht := elim_wrap64 (o := tool)
    (f := fun e tool => addTokens wrap64 registry model e (tool.size wrap64))
    (g := fun e tool => addTokens id registry model e (tool.size id)) (by
      rintro tool rfl e
      have h : tool.size id + 3 < 2 ^ 63 := hs _ (by simp [UnifiedRequest.sizes])
      have h0 := tool_size_nonneg tool
      have hsi : tool.size wrap64 = tool.size id :=
        wrap64_eq_self (n := tool.size id) (by omega) (by omega)
      rw [hsi]
      exact addTokens_wrap64 h0 h e)
  unfold estimateTokensWith
  simp only
  rw [← ht, ← ha, ← he, ← hc]
  rfl

theorem one_le_estimate (marshal : List Tool → Option (List UInt8)) (registry : Option Registry)
    (req : UnifiedRequest) : 1 ≤ estimateTokensWith id marshal (some req) registry := by
  obtain ⟨model, chat, embedding, audio, tool⟩ := req
  have hc : ∀ e, e ≤ chat.elim e (addChat id marshal registry model e) := by
    intro e
    cases chat with
    | none => exact le_rfl
    | some chat => exact addChat_ge model chat e
  have he : ∀ e, e ≤ embedding.elim e (addInputs id registry model e) := by
    intro e
    cases embedding with
    | none => exact le_rfl
    | some inputs => exact addInputs_ge inputs e
  have ha : ∀ e, e ≤ audio.elim e fun audio => addTokens id registry model e (audio.size id) := by
    intro e
    cases audio with
    | none => exact le_rfl
    | some audio => exact addTokens_ge (audio_size_nonneg audio) e
  have ht : ∀ e, e ≤ tool.elim e fun tool => addTokens id registry model e (tool.size id) := by
    intro e
    cases tool with
    | none => exact le_rfl
    | some tool => exact addTokens_ge (tool_size_nonneg tool) e
  exact (hc 1).trans ((he _).trans ((ha _).trans (ht _)))

end

/-! ### The budget -/

section

variable {m : Manager} {p : Policy} {id : String} {estimate now : Int}

/-- The ledger a reservation under the policy is compared with. -/
def Manager.ledgerAt (m : Manager) (policy : Policy) (now : Int) : Window :=
  ((m.sweepLocked now).ledger policy now).1

/-- A new reservation in hard mode is refused when the machine's estimate is negative, or when
the machine's total is above the limit. -/
theorem reserveWith_refused (hh : p.mode = .hard)
    (hne : (Manager.ledgerAt m p now).reservations.lookup id = none)
    (h : estimate < 0 ∨ p.tokenLimit < wrap64 ((Manager.ledgerAt m p now).reserved +
      (Manager.ledgerAt m p now).consumed + estimate)) :
    (m.reserveWith wrap64 p id estimate now).1.isOk = false := by
  unfold Manager.reserveWith
  by_cases ha : p.admissible id estimate now = true
  · rw [if_pos ha]
    have hn : ¬ estimate < 0 := by
      intro hc
      simp [Policy.admissible, hc] at ha
    have ho := h.resolve_left hn
    simp only [Manager.ledgerAt] at hne ho
    simp only [Manager.reserveLockedWith, hne, wrap64_wrap64_add, hh, ho, decide_true,
      Bool.and_self, if_true]
    rfl
  · rw [if_neg ha]
    rfl

/-- The machine can count what the request is meant to bring the ledger to; or the estimate is
past the largest integer, but not around once more. -/
def FitsBudget (state : Window) (meant : Int) : Prop :=
  (-2 ^ 63 ≤ state.reserved + state.consumed ∧ meant < 2 ^ 63 ∧
      state.reserved + state.consumed + meant < 2 ^ 63) ∨
    (2 ^ 63 ≤ meant ∧ meant < 2 ^ 64)

theorem refused_of_fits {meant : Int} (hon : 1 ≤ meant) (hh : p.mode = .hard)
    (hn : (Manager.ledgerAt m p now).reservations.lookup id = none)
    (hf : FitsBudget (Manager.ledgerAt m p now) meant)
    (ho : p.tokenLimit < (Manager.ledgerAt m p now).reserved +
      (Manager.ledgerAt m p now).consumed + meant) :
    (m.reserveWith wrap64 p id (wrap64 meant) now).1.isOk = false := by
  refine reserveWith_refused hh hn ?_
  rcases hf with ⟨hlo, hm, hs⟩ | ⟨hlo, hhi⟩
  · right
    rw [wrap64_add_wrap64, wrap64_eq_self (by omega) hs]
    exact ho
  · left
    rw [wrap64_eq_sub hlo hhi]
    omega

end

/-! ### The meter -/

section

/-- What the meter holds for the current minute. -/
def meterUsed (m : Meter Int64) (tenantID projectID : String) (now : Nat) : Int64 :=
  ((m.current tenantID projectID now).getD ⟨now, 0⟩).used

theorem meter_refused {m : Meter Int64} {limit : Int64} {tid pid : String} {now : Nat}
    {meant : Int} (hon : 1 ≤ meant) (hl : 0 < limit) (hm : meant < 2 ^ 63)
    (hs : (meterUsed m tid pid now).toInt + meant < 2 ^ 63)
    (ho : limit.toInt < (meterUsed m tid pid now).toInt + meant) :
    (m.reserve limit tid pid (ofInt (wrap64 meant)) now).1.1.allowed = false := by
  have he : (ofInt (wrap64 meant)).toInt = meant := by
    rw [wrap64_eq_self (by omega) hm, toInt_ofInt]
    exact wrap64_eq_self (by omega) hm
  have hp : ¬ (limit ≤ 0 ∨ ofInt (wrap64 meant) ≤ 0) := by
    rw [le_iff_toInt_le, le_iff_toInt_le, he]
    rw [lt_iff_toInt_lt] at hl
    simp only [toInt_zero] at hl ⊢
    omega
  have ht : limit < meterUsed m tid pid now + ofInt (wrap64 meant) := by
    rw [lt_iff_toInt_lt, toInt_add, he]
    have hlo := le_toInt (meterUsed m tid pid now)
    have hw := wrap64_eq_self (n := (meterUsed m tid pid now).toInt + meant)
      (by omega) hs
    unfold wrap64 at hw
    rw [hw]
    exact ho
  unfold Meter.reserve
  rw [if_neg hp]
  unfold meterUsed at ht
  simp only [ht, if_true]

end

/-- **No request size defeats a hard limit, in any state of the budget manager and of the meter,
as long as the machine can count what it is meant to.** -/
theorem limit_holds_of_fits (marshal : List Tool → Option (List UInt8)) (registry : Option Registry)
    (request : UnifiedRequest) :
    let machine := estimateTokensWith wrap64 marshal (some request) registry
    let meant := estimateTokensWith id marshal (some request) registry
    (∀ (m : Manager) (policy : Policy) (id : String) (now : Int),
      Sized marshal request → FitsBudget (Manager.ledgerAt m policy now) meant →
      policy.mode = .hard → (Manager.ledgerAt m policy now).reservations.lookup id = none →
      policy.tokenLimit < (Manager.ledgerAt m policy now).reserved +
        (Manager.ledgerAt m policy now).consumed + meant →
      (m.reserveWith wrap64 policy id machine now).1.isOk = false) ∧
    (∀ (m : Meter Int64) (limit : Int64) (tenantID projectID : String) (now : Nat),
      Sized marshal request →
      meant < 2 ^ 63 ∧ (meterUsed m tenantID projectID now).toInt + meant < 2 ^ 63 →
      0 < limit → limit.toInt < (meterUsed m tenantID projectID now).toInt + meant →
      (m.reserve limit tenantID projectID (Int64.ofInt machine) now).1.1.allowed = false) := by
  intro machine meant
  have hon := one_le_estimate marshal registry request
  refine ⟨?_, ?_⟩
  · intro m policy id now hs hf hh hn ho
    rw [show machine = wrap64 meant from estimate_eq_wrap64 hs]
    exact refused_of_fits hon hh hn hf ho
  · intro m limit tenantID projectID now hs hf hl ho
    rw [show machine = wrap64 meant from estimate_eq_wrap64 hs]
    exact meter_refused hon hl hf.1 hf.2 ho

/-- A chat without a word that may be answered with `most` tokens. -/
def openEnded (most : Int) : UnifiedRequest where
  model := ""
  chat := some ⟨[], some most, []⟩
  embedding := none
  audio := none
  tool := none

def hardTen : Policy := ⟨"tokens", "t", "", "", .hard, .none, 10, 0, 100⟩

/-- The manager once two tokens are reserved. -/
def twoReserved : Manager :=
  ((Manager.new 0).reserveWith wrap64 hardTen "first"
    (estimateTokensWith wrap64 (fun _ => none) (some (openEnded 1)) none) 0).2

/-- Twenty tokens against a limit of ten, and of ten a minute. -/
theorem twenty_tokens_refused :
    (twoReserved.reserveWith wrap64 hardTen "second"
      (estimateTokensWith wrap64 (fun _ => none) (some (openEnded 19)) none) 0).1.isOk = false ∧
    ((Meter.new : Meter Int64).reserve 10 "t" "p" (Int64.ofInt
      (estimateTokensWith wrap64 (fun _ => none) (some (openEnded 19)) none)) 0).1.1.allowed =
        false := by
  have hs : Sized (fun _ => none) (openEnded 19) := by
    intro n hn
    have hz : n = 0 := by simpa [UnifiedRequest.sizes, openEnded, ChatPayload.chars] using hn
    omega
  refine ⟨(limit_holds_of_fits (fun _ => none) none (openEnded 19)).1 twoReserved hardTen "second" 0
      hs (Or.inl (by decide +kernel)) rfl (by decide +kernel) (by decide +kernel),
    (limit_holds_of_fits (fun _ => none) none (openEnded 19)).2 .new 10 "t" "p" 0 hs
      (by decide +kernel) (by decide +kernel) (by decide +kernel)⟩

/-- The total of the budget wraps around and passes for small; for the meter the estimate itself
is negative and nothing is metered. -/
theorem huge_answer_passes :
    (10 < (Manager.ledgerAt twoReserved hardTen 0).reserved +
        (Manager.ledgerAt twoReserved hardTen 0).consumed +
        estimateTokensWith id (fun _ => none) (some (openEnded (2 ^ 63 - 2))) none ∧
      (twoReserved.reserveWith wrap64 hardTen "second"
        (estimateTokensWith wrap64 (fun _ => none) (some (openEnded (2 ^ 63 - 2))) none) 0).1.isOk
        = true) ∧
    (10 < (meterUsed .new "t" "p" 0).toInt +
        estimateTokensWith id (fun _ => none) (some (openEnded (2 ^ 63 - 1))) none ∧
      ((Meter.new : Meter Int64).reserve 10 "t" "p" (Int64.ofInt (estimateTokensWith wrap64
        (fun _ => none) (some (openEnded (2 ^ 63 - 1))) none)) 0).1.1.allowed = true) := by
  decide +kernel

end LiteAIG.Pipeline
