/-
One code, one reset.

An entry that is taken out of the map never comes back, and a wrong code is counted
against an entry only while the map has it.  So a call that has taken its entry out is
the only one that may still reset with it, and the count of wrong codes stays where it
was.  Both rest on the entry having been there to take out, which `Confirm` does not
look at: the results are about the runs in which it was.
-/
import LiteAIG.Identity.PasswordReset

namespace LiteAIG.Identity

open Lib ResetProgress List

variable {s : PasswordResets} {t t' : ResetProgress} {a : ResetAction} {i : Nat}
  {username u : String} {e : ResetCodeEntry}

/-! ### What a step does -/

/-- The ways a step can go. -/
inductive Did (s : PasswordResets) (t : ResetProgress) (a : ResetAction) :
    PasswordResets → ResetProgress → Prop
  | stays : Did s t a s t
  | answers (error : Option String) : Did s t a s (.answered error)
  | issues (username : String) (hash : List UInt8) (now : Int) (mail : Mail) :
      Did s t a (s.issue username hash now) (.mailing username mail)
  | drops (username : String) (error : Option String) :
      Did s t a (s.drop username) (.answered error)
  | agrees (username : String) (entry : ResetCodeEntry) :
      Did s t a s (.matched username entry.issue)
  | misses (username : String) (entry : ResetCodeEntry) (error : Option String)
      (hentry : s.codes.lookup username = some entry) :
      Did s t a (s.miss username entry) (.answered error)
  | consumes (username : String) (issue : Nat) (ht : t = .matched username issue)
      (ha : a = .consume) : Did s t a (s.consume username issue) (.consumed username issue)
  | resets (username : String) (issue : Nat) (error : Option String)
      (ht : t = .consumed username issue) :
      Did s t a { s with resets := s.resets ++ [issue] } (.answered error)

variable (sha256 : List UInt8 → List UInt8)

theorem resetAct_did (s : PasswordResets) (t : ResetProgress) (a : ResetAction) :
    Did s t a (resetAct sha256 s t a).1 (resetAct sha256 s t a).2 := by
  cases t with
  | idle =>
    cases a with
    | forgot username credential drawn now =>
      simp only [resetAct]
      split
      · exact .answers _
      · split
        · exact .answers _
        · split
          · exact .answers _
          · exact .issues _ _ _ _
    | compare username code now =>
      simp only [resetAct, PasswordResets.compare]
      cases he : s.codes.lookup username with
      | none => exact .answers _
      | some entry =>
        by_cases hl : now < entry.expiresAt
        · by_cases hm : sha256 (utf8 code) = entry.hash
          · simp only [if_pos hl, if_pos hm]
            exact .agrees _ _
          · simp only [if_pos hl, if_neg hm]
            exact .misses _ _ _ he
        · simp only [if_neg hl]
          exact .drops _ _
    | mailed | consume | reset => exact .stays
  | mailing username mail =>
    cases a with
    | mailed error =>
      cases error with
      | none => exact .answers _
      | some error => exact .drops _ _
    | forgot | compare | consume | reset => exact .stays
  | matched username issue =>
    cases a with
    | consume => exact .consumes _ _ rfl rfl
    | forgot | mailed | compare | reset => exact .stays
  | consumed username issue =>
    cases a with
    | reset credential ha stored =>
      simp only [resetAct]
      split
      · exact .resets _ _ _ rfl
      · exact .resets _ _ _ rfl
      · exact .answers _
      · exact .answers _
    | forgot | mailed | compare | consume => exact .stays
  | answered error => cases a <;> exact .stays

/-! ### Entries that are gone -/

/-- An entry was allocated, and the map has it no more. -/
structure PasswordResets.Gone (s : PasswordResets) (i : Nat) : Prop where
  old : i < s.issued
  out : ∀ username entry, s.codes.lookup username = some entry → entry.issue ≠ i

/-- Each entry in the map is accounted for, and so is each reset. -/
structure PasswordResets.Tracked (s : PasswordResets) : Prop where
  issued : ∀ username entry, s.codes.lookup username = some entry → entry.issue < s.issued
  single : ∀ u u' e e', s.codes.lookup u = some e → s.codes.lookup u' = some e' →
    e.issue = e'.issue → u = u'
  tries : ∀ username entry, s.codes.lookup username = some entry →
    s.wrong.count entry.issue = entry.tries ∧ entry.tries < resetCodeMaxTries
  counted : ∀ i ∈ s.wrong, i < s.issued
  once : s.resets.Nodup
  gone : ∀ i ∈ s.resets, s.Gone i ∧ s.wrong.count i < resetCodeMaxTries

/-- What is in the map after a wrong code. -/
theorem lookup_miss {entry e : ResetCodeEntry}
    (h : (s.miss username entry).codes.lookup u = some e) :
    u = username ∧ e = { entry with tries := entry.tries + 1 } ∧ e.tries < resetCodeMaxTries ∨
      u ≠ username ∧ s.codes.lookup u = some e := by
  unfold PasswordResets.miss at h
  dsimp only at h
  split at h
  · exact .inr (Assoc.lookup_erase_some h)
  · rename_i ht
    rcases Assoc.lookup_insert_some h with ⟨hu, rfl⟩ | hold
    · exact .inl ⟨hu, rfl, not_le.mp ht⟩
    · exact .inr hold

theorem lookup_drop (h : (s.drop username).codes.lookup u = some e) :
    u ≠ username ∧ s.codes.lookup u = some e :=
  Assoc.lookup_erase_some h

theorem lookup_issue {hash : List UInt8} {now : Int}
    (h : (s.issue username hash now).codes.lookup u = some e) :
    u = username ∧ e = ⟨s.issued, hash, now + resetCodeTTL, 0⟩ ∨
      u ≠ username ∧ s.codes.lookup u = some e :=
  Assoc.lookup_insert_some h

namespace PasswordResets.Gone

theorem issue (h : s.Gone i) (username : String) (hash : List UInt8) (now : Int) :
    (s.issue username hash now).Gone i := by
  refine ⟨Nat.lt_succ_of_lt h.old, fun u e he => ?_⟩
  rcases lookup_issue he with ⟨-, rfl⟩ | ⟨-, hold⟩
  · exact (Nat.ne_of_lt h.old).symm
  · exact h.out u e hold

theorem drop (h : s.Gone i) (username : String) : (s.drop username).Gone i :=
  ⟨h.old, fun u e he => h.out u e (lookup_drop he).2⟩

variable {entry : ResetCodeEntry}

theorem miss (h : s.Gone i) (hen : s.codes.lookup username = some entry) :
    (s.miss username entry).Gone i := by
  refine ⟨h.old, fun u e he => ?_⟩
  rcases lookup_miss he with ⟨-, rfl, -⟩ | ⟨-, hold⟩
  · exact h.out username entry hen
  · exact h.out u e hold

/-- No wrong code is counted against an entry that is gone. -/
theorem count_miss (h : s.Gone i) (he : s.codes.lookup username = some entry) :
    (s.miss username entry).wrong.count i = s.wrong.count i := by
  have hne : entry.issue ≠ i := h.out username entry he
  show (s.wrong ++ [entry.issue]).count i = _
  simp [count_append, hne]

theorem reset (h : s.Gone i) (issue : Nat) :
    PasswordResets.Gone { s with resets := s.resets ++ [issue] } i := ⟨h.old, h.out⟩

end PasswordResets.Gone

namespace PasswordResets.Tracked

theorem issue (h : s.Tracked) (username : String) (hash : List UInt8) (now : Int) :
    (s.issue username hash now).Tracked := by
  have hn : s.wrong.count s.issued = 0 :=
    count_eq_zero.mpr fun hm => Nat.lt_irrefl _ (h.counted _ hm)
  refine ⟨fun u e he => ?_, fun u u' e e' he he' hs => ?_, fun u e he => ?_,
    fun i hi => Nat.lt_succ_of_lt (h.counted i hi), h.once,
    fun i hi => ⟨(h.gone i hi).1.issue _ _ _, (h.gone i hi).2⟩⟩
  · rcases lookup_issue he with ⟨-, rfl⟩ | ⟨-, hold⟩
    · exact Nat.lt_succ_self _
    · exact Nat.lt_succ_of_lt (h.issued u e hold)
  · rcases lookup_issue he with ⟨hu, rfl⟩ | ⟨-, hold⟩ <;>
      rcases lookup_issue he' with ⟨hu', rfl⟩ | ⟨-, ho⟩
    · rw [hu, hu']
    · exact absurd hs.symm (Nat.ne_of_lt (h.issued u' e' ho))
    · exact absurd hs (Nat.ne_of_lt (h.issued u e hold))
    · exact h.single u u' e e' hold ho hs
  · rcases lookup_issue he with ⟨-, rfl⟩ | ⟨-, hold⟩
    · exact ⟨hn, Nat.zero_lt_succ _⟩
    · exact h.tries u e hold

theorem drop (h : s.Tracked) (username : String) : (s.drop username).Tracked :=
  ⟨fun u e he => h.issued u e (lookup_drop he).2,
    fun u u' e e' he he' => h.single u u' e e' (lookup_drop he).2 (lookup_drop he').2,
    fun u e he => h.tries u e (lookup_drop he).2, h.counted, h.once,
    fun i hi => ⟨(h.gone i hi).1.drop _, (h.gone i hi).2⟩⟩

variable {entry : ResetCodeEntry}

/-- An entry that is taken out is gone: no other account has it. -/
theorem gone_drop (h : s.Tracked) (hen : s.codes.lookup username = some entry) :
    (s.drop username).Gone entry.issue := by
  refine ⟨h.issued username entry hen, fun u e he hs => ?_⟩
  obtain ⟨hu, hold⟩ := lookup_drop he
  exact hu (h.single u username e entry hold hen hs)

/-- The entry that a lookup after a wrong code finds was there before, under the same name. -/
theorem lookup_before {u : String} (hen : s.codes.lookup username = some entry)
    (he : (s.miss username entry).codes.lookup u = some e) :
    ∃ e₀, s.codes.lookup u = some e₀ ∧ e₀.issue = e.issue := by
  rcases lookup_miss he with ⟨rfl, rfl, -⟩ | ⟨-, hold⟩
  · exact ⟨entry, hen, rfl⟩
  · exact ⟨e, hold, rfl⟩

theorem miss (h : s.Tracked) (hen : s.codes.lookup username = some entry) :
    (s.miss username entry).Tracked := by
  have hc : ∀ j, (s.miss username entry).wrong.count j
      = s.wrong.count j + if entry.issue = j then 1 else 0 := by
    intro j
    show (s.wrong ++ [entry.issue]).count j = _
    simp [count_append, count_singleton]
  refine ⟨fun u e he => ?_, fun u u' e e' he he' hs => ?_, fun u e he => ?_, fun i hi => ?_,
    h.once, fun i hi => ?_⟩
  · obtain ⟨e₀, he₀, his⟩ := lookup_before hen he
    exact his ▸ h.issued u e₀ he₀
  · obtain ⟨e₀, he₀, his⟩ := lookup_before hen he
    obtain ⟨e₀', he₀', hiss⟩ := lookup_before hen he'
    exact h.single u u' e₀ e₀' he₀ he₀' (his.trans (hs.trans hiss.symm))
  · rw [hc]
    rcases lookup_miss he with ⟨rfl, rfl, hl⟩ | ⟨hu, hold⟩
    · refine ⟨?_, hl⟩
      rw [if_pos rfl, (h.tries u entry hen).1]
    · have hne : entry.issue ≠ e.issue :=
        fun hs => hu (h.single u username e entry hold hen hs.symm)
      rw [if_neg hne]
      exact h.tries u e hold
  · rcases mem_append.mp hi with hold | hn
    · exact h.counted i hold
    · rw [mem_singleton.mp hn]
      exact h.issued username entry hen
  · obtain ⟨hg, hl⟩ := h.gone i hi
    exact ⟨hg.miss hen, hg.count_miss hen ▸ hl⟩

theorem reset (h : s.Tracked) (hg : s.Gone i) (hl : s.wrong.count i < resetCodeMaxTries)
    (hn : i ∉ s.resets) : PasswordResets.Tracked { s with resets := s.resets ++ [i] } := by
  refine ⟨h.issued, h.single, h.tries, h.counted, ?_, fun j hj => ?_⟩
  · exact nodup_append.mpr ⟨h.once, nodup_singleton i, fun x hx y hy hxy =>
      hn (mem_singleton.mp hy ▸ hxy ▸ hx)⟩
  · rcases mem_append.mp hj with hold | hj
    · exact ⟨(h.gone j hold).1.reset i, (h.gone j hold).2⟩
    · rw [mem_singleton.mp hj]
      exact ⟨hg.reset i, hl⟩

end PasswordResets.Tracked

/-! ### Calls that have taken their entry out -/

/-- A call past its locked sections may reset with its entry: nobody has. -/
structure PasswordResets.Spendable (s : PasswordResets) (i : Nat) : Prop where
  gone : s.Gone i
  limited : s.wrong.count i < resetCodeMaxTries
  unused : i ∉ s.resets

namespace PasswordResets.Spendable

theorem issue (h : s.Spendable i) (username : String) (hash : List UInt8) (now : Int) :
    (s.issue username hash now).Spendable i := ⟨h.gone.issue _ _ _, h.limited, h.unused⟩

theorem drop (h : s.Spendable i) (username : String) : (s.drop username).Spendable i :=
  ⟨h.gone.drop _, h.limited, h.unused⟩

theorem miss (h : s.Spendable i) {username : String} {entry : ResetCodeEntry}
    (he : s.codes.lookup username = some entry) : (s.miss username entry).Spendable i :=
  ⟨h.gone.miss he, h.gone.count_miss he ▸ h.limited, h.unused⟩

theorem reset (h : s.Spendable i) {issue : Nat} (hne : i ≠ issue) :
    PasswordResets.Spendable { s with resets := s.resets ++ [issue] } i := by
  refine ⟨h.gone.reset _, h.limited, fun hm => ?_⟩
  rcases mem_append.mp hm with hold | hn
  · exact h.unused hold
  · exact hne (mem_singleton.mp hn)

end PasswordResets.Spendable

/-- The entry a call is past taking out. -/
def ResetProgress.spent : ResetProgress → Option Nat
  | .consumed _ issue => some issue
  | _ => none

/-- The second locked section finds the entry that matched in the first. -/
def inPlace (s : PasswordResets) : ResetProgress → ResetAction → Bool
  | .matched username issue, .consume => s.holds username issue
  | _, _ => true

theorem entry_of_holds {username : String} (h : s.holds username i) :
    ∃ entry, s.codes.lookup username = some entry ∧ entry.issue = i := by
  unfold PasswordResets.holds at h
  cases he : s.codes.lookup username with
  | none => simp [he] at h
  | some entry => exact ⟨entry, rfl, by simpa [he] using h⟩

/-- What a step does to the entries that calls are past taking out: those of the others stay
theirs, and one that its own call takes out was in nobody's hands. -/
theorem Did.spends {s' : PasswordResets} {t₂ : ResetProgress} (h : Did s t a s' t₂) (hs : s.Tracked)
    (ht : ∀ j ∈ t.spent, s.Spendable j) (hok : inPlace s t a) :
    s'.Tracked ∧ (∀ j, s.Spendable j → j ∉ t.spent → s'.Spendable j) ∧
      ∀ j ∈ t₂.spent, s'.Spendable j ∧ (j ∈ t.spent ∨ ¬ s.Spendable j) := by
  cases h with
  | stays => exact ⟨hs, fun j hj _ => hj, fun j hj => ⟨ht j hj, .inl hj⟩⟩
  | answers error => exact ⟨hs, fun j hj _ => hj, fun j hj => absurd hj (by simp [spent])⟩
  | issues username hash now mail =>
    exact ⟨hs.issue _ _ _, fun j hj _ => hj.issue _ _ _, fun j hj => absurd hj (by simp [spent])⟩
  | drops username error =>
    exact ⟨hs.drop _, fun j hj _ => hj.drop _, fun j hj => absurd hj (by simp [spent])⟩
  | agrees username entry =>
    exact ⟨hs, fun j hj _ => hj, fun j hj => absurd hj (by simp [spent])⟩
  | misses username entry error he =>
    exact ⟨hs.miss he, fun j hj _ => hj.miss he, fun j hj => absurd hj (by simp [spent])⟩
  | consumes username issue ht' ha =>
    subst ht' ha
    obtain ⟨entry, he, rfl⟩ := entry_of_holds hok
    have hd : s.consume username entry.issue = s.drop username := if_pos hok
    rw [hd]
    refine ⟨hs.drop _, fun j hj _ => hj.drop _, fun j hj => ?_⟩
    obtain rfl : entry.issue = j := Option.some.inj hj
    obtain ⟨hc, hl⟩ := hs.tries username entry he
    refine ⟨⟨hs.gone_drop he, hc ▸ hl, fun hm => ?_⟩,
      .inr fun hsp => hsp.gone.out username entry he rfl⟩
    exact (hs.gone _ hm).1.out username entry he rfl
  | resets username issue error ht' =>
    subst ht'
    have hsp : s.Spendable issue := ht issue rfl
    refine ⟨hs.reset hsp.gone hsp.limited hsp.unused, fun j hj hne => hj.reset ?_,
      fun j hj => absurd hj (by simp [spent])⟩
    rintro rfl
    exact hne rfl

theorem resetAct_spends (s : PasswordResets) (t : ResetProgress) (a : ResetAction) (hs : s.Tracked)
    (ht : ∀ j ∈ t.spent, s.Spendable j) (hok : inPlace s t a) :
    (resetAct sha256 s t a).1.Tracked ∧
      (∀ j ∈ (resetAct sha256 s t a).2.spent, (resetAct sha256 s t a).1.Spendable j) ∧
      ∀ t' : ResetProgress, (∀ j ∈ t'.spent, s.Spendable j) → (∀ j ∈ t.spent, j ∉ t'.spent) →
        (∀ j ∈ t'.spent, (resetAct sha256 s t a).1.Spendable j) ∧
          ∀ j ∈ (resetAct sha256 s t a).2.spent, j ∉ t'.spent := by
  obtain ⟨htr, ho, how⟩ := (resetAct_did sha256 s t a).spends hs ht hok
  refine ⟨htr, fun j hj => (how j hj).1, fun t' ht' hd => ⟨fun j hj => ?_, fun j hj hj' => ?_⟩⟩
  · exact ho j (ht' j hj) fun hm => hd j hm hj
  · rcases (how j hj).2 with hm | hn
    · exact hd j hm hj'
    · exact hn (ht' j hj')

/-- **A code resets a password at most once, and not after five wrong ones**, in every run whose
confirmations all find their entry in place when they take it out. -/
theorem code_single_use {κ : Type*} [DecidableEq κ] (sha256 : List UInt8 → List UInt8)
    (steps : List (κ × ResetAction))
    (hok : Allowed (Threads.step (resetAct sha256))
      (Threads.Meets fun s t a => inPlace s t a = true)
      ⟨.new, fun _ => .idle⟩ steps) (issue : Nat) :
    (run (Threads.step (resetAct sha256)) ⟨.new, fun _ => .idle⟩ steps).shared.resets.count issue ≤
      1 ∧
    (resetCodeMaxTries ≤
        (run (Threads.step (resetAct sha256))
          ⟨.new, fun _ => .idle⟩ steps).shared.wrong.count issue →
      issue ∉ (run (Threads.step (resetAct sha256))
        ⟨.new, fun _ => .idle⟩ steps).shared.resets) := by
  have hn : PasswordResets.new.Tracked := by
    refine ⟨?_, ?_, ?_, ?_, nodup_nil, ?_⟩ <;> simp [PasswordResets.new]
  have hs : (⟨.new, fun _ => .idle⟩ : Threads PasswordResets κ ResetProgress).Apart
      PasswordResets.Tracked (fun s t => ∀ j ∈ t.spent, s.Spendable j)
      fun t t' => ∀ j ∈ t.spent, j ∉ t'.spent :=
    ⟨⟨hn, fun _ _ h => absurd h (by simp [spent])⟩, fun _ _ _ _ h => absurd h (by simp [spent])⟩
  have he := hs.run (fun t t' h j hj hj' => h j hj' hj) (resetAct_spends sha256) steps _ hok
  refine ⟨nodup_iff_count_le_one.mp he.shared.once issue, fun hm hme => ?_⟩
  exact absurd (he.shared.gone issue hme).2 (not_lt.mpr hm)

/-- What a list of steps leaves of a fresh service. -/
def resetsAfter (steps : List (Nat × ResetAction)) : PasswordResets :=
  (run (Threads.step (resetAct id)) ⟨.new, fun _ => .idle⟩ steps).shared

/-- A code is issued and sent, and a first confirmation has compared the right one. -/
def confirming : List (Nat × ResetAction) :=
  [(0, .forgot "ann" (some ⟨true, "ann@example"⟩) (.ok 7) 0), (0, .mailed none),
    (1, .compare "ann" "000007" 1)]

/-- The rest of a confirmation. -/
def concluding (call : Nat) : List (Nat × ResetAction) :=
  [(call, .consume), (call, .reset (some ⟨true, "ann@example"⟩) (.ok ()) (.ok ()))]

theorem confirmation_single_use :
    Allowed (Threads.step (resetAct id)) (Threads.Meets fun s t a => inPlace s t a = true)
        ⟨.new, fun _ => .idle⟩ (confirming ++ concluding 1) ∧
      (resetsAfter (confirming ++ concluding 1)).resets = [0] ∧
      (resetsAfter (confirming ++ concluding 1)).resets.count 0 ≤ 1 := by
  have hok : Allowed (Threads.step (resetAct id)) (Threads.Meets fun s t a => inPlace s t a = true)
      ⟨.new, fun _ => .idle⟩ (confirming ++ concluding 1) := by
    decide
  exact ⟨hok, by decide, (code_single_use id _ hok 0).1⟩

/-- Two confirmations compare before either takes the code out, and both reset; or five wrong codes
come between the sections of one, and it resets all the same. -/
theorem code_used_again :
    (resetsAfter (confirming ++ [(2, .compare "ann" "000007" 1)] ++ concluding 1 ++
      concluding 2)).resets
        = [0, 0] ∧
    (resetsAfter (confirming ++ (List.range' 2 5).map fun k =>
      (k, .compare "ann" "1" 2))).wrong.count 0
        = resetCodeMaxTries ∧
    (resetsAfter (confirming ++ ((List.range' 2 5).map fun k => (k, .compare "ann" "1" 2)) ++
        concluding 1)).resets = [0] := by
  decide

end LiteAIG.Identity
