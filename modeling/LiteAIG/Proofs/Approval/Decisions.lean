/-
Decisions under concurrent reviewers.

A call writes the row it worked out from the one it read, whatever the table holds by
then.  `Did` says what a step can do: it writes one row, or it changes nothing and
the call may have come to a write.  Two things follow.  What a single call worked
out respects the separation of duties, so no order of the writes can break it: the
requester and the dual approval of a row never change, and they are all that the rules
depend on beside the row itself.  What was decided, on the other hand, stays decided
only where every write finds the row as its call has read it.
-/
import LiteAIG.Lib.Except
import LiteAIG.Approval.Service

namespace LiteAIG.Approval

open Lib List

variable {s s' : ApprovalStore} {tid : String}

/-! ### What a call works out -/

/-- What a call has come to write, and the row it read. -/
structure Decides (approver : Option String) (read next : Request) : Prop where
  pending : read.status = .pending
  id : next.id = read.id
  requester : next.requester = read.requester
  dual : next.dualApproval = read.dualApproval
  approvedBy : next.approvedBy = read.approvedBy ++ approver.toList
  fresh : ∀ a ∈ approver, a ≠ read.requester ∧ a ∉ read.approvedBy
  approved : next.status = .approved →
    approver.isSome ∧ (next.dualApproval = true → 2 ≤ next.approvedBy.length)
  rejected : next.status = .rejected → next.rejectedBy ≠ next.requester

variable {row r : Request} {verified : Except ApprovalError Unit} {now : Int} {a : Action}
  {read next : Request}

theorem lookup_of_get {id : String} (h : s.get tid id = .ok row) :
    s.rows.lookup row.id = some row := by
  unfold ApprovalStore.get at h
  split at h
  · rename_i found hf
    split at h
    · obtain rfl := Except.ok.inj h
      rw [s.keyed id found hf]
      exact hf
    · cases h
  · cases h

theorem approve_decides {id approver : String} (hr : s.get tid id = .ok read)
    (h : Service.approve s tid id approver verified now = .ok next) :
    Decides (some approver) read next := by
  simp only [Service.approve, throw_bind, bind_eq_ok, ite_throw_eq_ok, hr, Except.ok.injEq,
    exists_eq_left'] at h
  obtain ⟨_, -, hp, _, -, hse, hn, h⟩ := h
  have hs : read.status = .pending := not_not.mp hp
  by_cases hdu : read.dualApproval = true ∧ (read.approvedBy ++ [approver]).length < 2
  · rw [if_pos hdu, pure_eq_ok] at h
    subst h
    exact ⟨hs, rfl, rfl, rfl, rfl, by simpa using ⟨hse, hn⟩, by simp [hs], by simp [hs]⟩
  · rw [if_neg hdu, pure_eq_ok] at h
    subst h
    refine ⟨hs, rfl, rfl, rfl, rfl, by simpa using ⟨hse, hn⟩, fun _ => ⟨rfl, ?_⟩, by simp⟩
    exact fun hd => not_lt.mp fun hlt => hdu ⟨hd, hlt⟩

theorem reject_decides {id reviewer : String} (hr : s.get tid id = .ok read)
    (h : Service.reject s tid id reviewer verified now = .ok next) :
    Decides none read next := by
  simp only [Service.reject, throw_bind, bind_eq_ok, ite_throw_eq_ok, hr, Except.ok.injEq,
    exists_eq_left', pure_eq_ok] at h
  obtain ⟨_, -, hp, _, -, hs, rfl⟩ := h
  exact ⟨not_not.mp hp, rfl, rfl, rfl, by simp, by simp, by simp, fun _ => hs⟩

variable {req : Request} {t : Progress}

theorem create_opens {opened : Request} (h : Service.create tid req now = .ok opened) :
    opened.status = .pending ∧ opened.approvedBy = req.approvedBy := by
  simp only [Service.create, throw_bind, bind_eq_ok, ite_throw_eq_ok, pure_eq_ok] at h
  obtain ⟨_, -, -, rfl⟩ := h
  exact ⟨rfl, rfl⟩

theorem gateCheck_opens {sha256 : List UInt8 → List UInt8} {caller target : String}
    {request : Request} (h : gateCheck sha256 s tid caller target now = .creates request) :
    request.status = .pending ∧ request.approvedBy = [] := by
  unfold gateCheck at h
  split at h
  · cases h
  · dsimp only at h
    split at h
    · rename_i opened ho
      obtain rfl : opened = request := GateStep.creates.inj h
      exact create_opens ho
    · cases h
  · cases h

/-! ### What a step does -/

/-- A write of the table puts one row, and keeps of an old one who asked for what. -/
structure Puts (s s' : ApprovalStore) (request row' : Request) : Prop where
  rows : s'.rows = s.rows.insert request.id row'
  status : row'.status = request.status
  approvedBy : row'.approvedBy = request.approvedBy
  rejectedBy : row'.rejectedBy = request.rejectedBy
  old : ∀ row, s.rows.lookup request.id = some row →
    row'.requester = row.requester ∧ row'.dualApproval = row.dualApproval
  new : s.rows.lookup request.id = none →
    row'.requester = request.requester ∧ row'.dualApproval = request.dualApproval

theorem puts_overwrite (h : s.rows.lookup req.id = some row) :
    Puts s (s.put (ApprovalStore.overwrite row req)) req
      (ApprovalStore.overwrite row req) := by
  have hid : row.id = req.id := s.keyed _ _ h
  refine ⟨by rw [← hid]; rfl, rfl, rfl, rfl, fun row₂ h₂ => ?_, fun hn => ?_⟩
  · obtain rfl : row = row₂ := Option.some.inj (h.symm.trans h₂)
    exact ⟨rfl, rfl⟩
  · rw [hn] at h
    cases h

theorem update_puts (h : s.update tid req = .ok s') :
    ∃ row', Puts s s' req row' := by
  unfold ApprovalStore.update at h
  split at h
  · cases h
  · split at h
    · rename_i row hr
      split at h
      · obtain rfl := Except.ok.inj h
        exact ⟨_, puts_overwrite hr⟩
      · cases h
    · cases h

theorem create_puts (h : s.create tid req = .ok s') :
    ∃ row', Puts s s' req row' := by
  unfold ApprovalStore.create at h
  split at h
  · cases h
  · split at h
    · rename_i row hr
      obtain rfl := Except.ok.inj h
      exact ⟨_, puts_overwrite hr⟩
    · rename_i hr
      obtain rfl := Except.ok.inj h
      refine ⟨req, rfl, rfl, rfl, rfl, fun row h₂ => ?_, fun _ => ⟨rfl, rfl⟩⟩
      rw [hr] at h₂
      cases h₂

/-- The write a call has come to, with its approval if it is one. -/
inductive Progress.Writes : Progress → Request → Option String → Prop
  | update (tenantID : String) (approver : Option String) (read next : Request) :
      Writes (.updating tenantID approver read next) next approver
  | create (tenantID : String) (request : Request) :
    Writes (.creating tenantID request) request none

/-- What a step can do: nothing but bring its call to a write, or the write. -/
inductive Did (s : Approvals) (t : Progress) (a : Action) : Approvals → Progress → Prop
  | nothing (t' : Progress) (hown : t' = t ∨ t' = .idle) : Did s t a s t'
  | decides (tenantID : String) (approver : Option String) (read next : Request)
      (hread : s.store.rows.lookup read.id = some read) (hdecides : Decides approver read next) :
      Did s t a s (.updating tenantID approver read next)
  | opens (tenantID : String) (request : Request) (hpending : request.status = .pending)
      (happroved : request.approvedBy = [] ∨ ∃ opened now, a = .create tenantID opened now ∧
        request.approvedBy = opened.approvedBy) :
      Did s t a s (.creating tenantID request)
  | writes (s' : Approvals) (fault : Option Fault) (request row' : Request)
    (approver : Option String)
      (ha : a = .write fault) (hwrites : t.Writes request approver)
      (hputs : Puts s.store s'.store request row') (hgrows : s.recorded ⊆ s'.recorded)
      (hrecorded : s'.recorded ⊆ s.recorded ++ approver.toList.map fun a => (request.id, a)) :
      Did s t a s' .idle

theorem Did.stays {s : Approvals} : Did s t a s t := .nothing t (.inl rfl)

variable (sha256 : List UInt8 → List UInt8) {row' : Request} {approver : Option String}

theorem idle_did (s : Approvals) (a : Action) :
    Did s .idle a (act sha256 s .idle a).1 (act sha256 s .idle a).2 := by
  cases a with
  | approve tid id approver verified now =>
    simp only [act]
    split
    · rename_i read next hre hn
      exact .decides _ _ _ _ (lookup_of_get hre) (approve_decides hre hn)
    · exact .stays
  | reject tid id reviewer verified now =>
    simp only [act]
    split
    · rename_i read next hre hn
      exact .decides _ _ _ _ (lookup_of_get hre) (reject_decides hre hn)
    · exact .stays
  | check tid caller target now =>
    simp only [act]
    split
    · rename_i request hr
      obtain ⟨hp, hno⟩ := gateCheck_opens hr
      exact .opens _ _ hp (.inl hno)
    · exact .stays
    · exact .stays
  | create tid opened now =>
    simp only [act]
    split
    · rename_i request hr
      obtain ⟨hp, hs⟩ := create_opens hr
      exact .opens _ _ hp (.inr ⟨_, _, rfl, hs⟩)
    · exact .stays
  | write fault => exact .stays

/-- A write has no effect, or it puts its row; what it records, it has put. -/
theorem Did.write {s : Approvals} {written : Except ApprovalError ApprovalStore}
    (hw : t.Writes req approver)
    (hp : ∀ store, written = .ok store → ∃ row', Puts s.store store req row')
    (fault : Option Fault) :
    Did s t (.write fault)
      (s.put fault written (approver.toList.map fun a => (req.id, a))) .idle := by
  unfold Approvals.put
  split
  · obtain ⟨row', hp⟩ := hp _ rfl
    exact .writes _ _ req row' approver rfl hw hp (subset_append_left _ _) (List.Subset.refl _)
  · obtain ⟨row', hp⟩ := hp _ rfl
    exact .writes _ _ req row' approver rfl hw hp (List.Subset.refl _) (subset_append_left _ _)
  · exact .nothing _ (.inr rfl)
  · exact .nothing _ (.inr rfl)

theorem act_did (s : Approvals) (t : Progress) (a : Action) :
    Did s t a (act sha256 s t a).1 (act sha256 s t a).2 := by
  cases t with
  | idle => exact idle_did sha256 s a
  | updating tid approver read next =>
    cases a with
    | write fault => exact .write (.update _ _ _ _) (fun _ => update_puts) fault
    | approve | reject | check | create => exact .stays
  | creating tid req =>
    cases a with
    | write fault => exact .write (.create _ _) (fun _ => create_puts) fault
    | approve | reject | check | create => exact .stays

section

variable (h : Puts s s' req row') {id : String}
include h

theorem Puts.lookup_self :
    s'.rows.lookup req.id = some row' := by
  rw [h.rows, Assoc.lookup_insert_self]

theorem Puts.lookup_ne (hid : id ≠ req.id) :
    s'.rows.lookup id = s.rows.lookup id := by
  rw [h.rows, Assoc.lookup_insert_ne hid]

/-- A row is for the same requester, and under the same rule, ever after. -/
theorem Puts.asked (hr : s.rows.lookup id = some row) :
    ∃ found, s'.rows.lookup id = some found ∧ found.requester = row.requester ∧
      found.dualApproval = row.dualApproval := by
  by_cases hid : id = req.id
  · subst hid
    exact ⟨row', h.lookup_self, h.old row hr⟩
  · exact ⟨row, (h.lookup_ne hid).trans hr, rfl, rfl⟩

end

/-- No call is under way. -/
def idle {κ : Type*} (store : ApprovalStore) : Threads Approvals κ Progress :=
  ⟨⟨store, []⟩, fun _ => .idle⟩

/-! ### The separation of duties -/

/-- Who may have decided a request. -/
structure Request.Separated (r : Request) : Prop where
  distinct : r.status = .approved → r.approvedBy.Nodup
  others : r.status = .approved → r.requester ∉ r.approvedBy
  approved : r.status = .approved → 1 ≤ r.approvedBy.length
  dual : r.status = .approved → r.dualApproval = true → 2 ≤ r.approvedBy.length
  rejected : r.status = .rejected → r.rejectedBy ≠ r.requester

/-- The approvals given so far may become a decision. -/
structure Request.Clean (r : Request) : Prop where
  separated : r.Separated
  distinct : r.approvedBy.Nodup
  others : r.requester ∉ r.approvedBy

theorem clean_of_open (hs : r.status = .pending) (hn : r.approvedBy = []) : r.Clean := by
  refine ⟨⟨?_, ?_, ?_, ?_, ?_⟩, by simp [hn], by simp [hn]⟩ <;> simp [hs]

/-- Cleanness is a matter of the requester, the rule and the decision. -/
theorem Request.Clean.congr {r' : Request} (h : r.Clean) (hr : r'.requester = r.requester)
    (hdu : r'.dualApproval = r.dualApproval) (hs : r'.status = r.status)
    (ha : r'.approvedBy = r.approvedBy) (hre : r'.rejectedBy = r.rejectedBy) : r'.Clean := by
  obtain ⟨⟨h₁, h₂, h₃, h₄, h₅⟩, hd, ho⟩ := h
  rw [← hs, ← ha] at h₁ h₂ h₃ h₄
  rw [← hr] at h₂ h₅ ho
  rw [← hdu] at h₄
  rw [← hs, ← hre] at h₅
  rw [← ha] at hd ho
  exact ⟨⟨h₁, h₂, h₃, h₄, h₅⟩, hd, ho⟩

/-- What is worked out from a clean row is clean. -/
theorem Decides.clean (h : Decides approver read next) (hr : read.Clean) :
    next.Clean := by
  have hd : next.approvedBy.Nodup := by
    rw [h.approvedBy]
    refine nodup_append.mpr ⟨hr.distinct, by cases approver <;> simp, ?_⟩
    intro a ha b hb hab
    exact (h.fresh b (Option.mem_toList.mp hb)).2 (hab ▸ ha)
  have ho : next.requester ∉ next.approvedBy := by
    rw [h.approvedBy, h.requester]
    intro hm
    rcases mem_append.mp hm with hold | hn
    · exact hr.others hold
    · exact (h.fresh _ (Option.mem_toList.mp hn)).1 rfl
  refine ⟨⟨fun _ => hd, fun _ => ho, fun hs => ?_, fun hs => (h.approved hs).2, h.rejected⟩, hd, ho⟩
  obtain ⟨a, rfl⟩ := Option.isSome_iff_exists.mp (h.approved hs).1
  simp [h.approvedBy]

/-- What a call relies on: the row it is going to overwrite is of the same requester and under
the same rule as the one it read. -/
def Progress.Separating (s : Approvals) : Progress → Prop
  | .idle => True
  | .updating _ _ _ next => next.Clean ∧ ∃ row, s.store.rows.lookup next.id = some row ∧
      row.requester = next.requester ∧ row.dualApproval = next.dualApproval
  | .creating _ request => request.status = .pending ∧ request.approvedBy = []

def Approvals.Clean (s : Approvals) : Prop :=
  ∀ id row, s.store.rows.lookup id = some row → row.Clean

/-- A request is opened with no approvals. -/
def Action.OpensEmpty (a : Action) : Prop :=
  ∀ tenantID request now, a = .create tenantID request now → request.approvedBy = []

theorem Progress.Separating.puts {s s' : Approvals} (h : t.Separating s)
    (hp : Puts s.store s'.store req row') : t.Separating s' := by
  cases t with
  | idle => trivial
  | creating => exact h
  | updating tid approver read next =>
    obtain ⟨hc, row, hro, hre, hdu⟩ := h
    obtain ⟨found, hf, hr, hd⟩ := hp.asked hro
    exact ⟨hc, found, hf, hr.trans hre, hd.trans hdu⟩

theorem Progress.Separating.written {s s' : Approvals} (h : t.Separating s)
    (hw : t.Writes req approver) (hp : Puts s.store s'.store req row') :
    row'.Clean := by
  cases hw with
  | update =>
    obtain ⟨hc, row, hro, hre, hdu⟩ := h
    obtain ⟨hr, hd⟩ := hp.old row hro
    exact hc.congr (hr.trans hre) (hd.trans hdu) hp.status hp.approvedBy hp.rejectedBy
  | create =>
    exact clean_of_open (hp.status.trans h.1) (hp.approvedBy.trans h.2)

theorem act_separating (s : Approvals) (t : Progress) (a : Action) (hc : s.Clean)
    (ht : t.Separating s) (ho : a.OpensEmpty) :
    (act sha256 s t a).1.Clean ∧ (act sha256 s t a).2.Separating (act sha256 s t a).1 ∧
      ∀ t' : Progress, t'.Separating s → t'.Separating (act sha256 s t a).1 := by
  have hdi := act_did sha256 s t a
  generalize (act sha256 s t a).1 = s', (act sha256 s t a).2 = t₂ at hdi ⊢
  cases hdi with
  | nothing t₂ how =>
    refine ⟨hc, ?_, fun _ h => h⟩
    rcases how with rfl | rfl
    · exact ht
    · trivial
  | decides tid approver read next hr hd =>
    exact ⟨hc, ⟨hd.clean (hc _ _ hr), read, hd.id ▸ hr,
      hd.requester.symm, hd.dual.symm⟩, fun _ h => h⟩
  | opens tid req hpe hap =>
    refine ⟨hc, ⟨hpe, ?_⟩, fun _ h => h⟩
    rcases hap with hn | ⟨opened, now, rfl, hs⟩
    · exact hn
    · exact hs.trans (ho _ _ _ rfl)
  | writes s' fault req row' approver ha hw hp hg hre =>
    refine ⟨fun id row hro => ?_, trivial, fun t' h => h.puts hp⟩
    rw [hp.rows] at hro
    rcases Assoc.lookup_insert_some hro with ⟨-, rfl⟩ | ⟨-, hold⟩
    · exact ht.written hw hp
    · exact hc id row hold

/-- **Whoever decided a request was entitled to.**  Requests are opened without approvals, by the
gate or by anybody else; calls of any actors interleave in any order, and any write may fail. -/
theorem duties_separated {κ : Type*} [DecidableEq κ] (sha256 : List UInt8 → List UInt8)
    (steps : List (κ × Action)) (hopens : ∀ a ∈ steps, a.2.OpensEmpty) (id : String) (row : Request)
    (hrow : (run (Threads.step (act sha256)) (idle .empty) steps).shared.store.rows.lookup id
      = some row) : row.Separated := by
  have hs : (idle .empty : Threads Approvals κ Progress).Sound Approvals.Clean
      fun s t => t.Separating s := by
    refine ⟨fun id row h => ?_, fun _ => trivial⟩
    rw [idle, ApprovalStore.empty, Assoc.lookup_empty] at h
    cases h
  have hok : Allowed (Threads.step (act sha256)) (Threads.Meets fun _ _ a => a.OpensEmpty)
      (idle .empty) steps := allowed_of_mem _ _ fun a ha _ => hopens a ha
  exact ((hs.run (act_separating sha256) steps _ hok).shared id row hrow).separated

/-- A request of an agent, before it is opened. -/
def sampleRequest (dualApproval : Bool) : Request :=
  ⟨"r1", "", "agent", "deploy", "prod", dualApproval, .pending, [], "", 0, 0⟩

/-- Two reviewers of a request that needs both; the second reads after the first wrote. -/
def dualReview : List (Nat × Action) :=
  [(0, .create "t" (sampleRequest true) 1), (0, .write none),
    (1, .approve "t" "r1" "ann" (.ok ()) 2), (1, .write none),
    (2, .approve "t" "r1" "bob" (.ok ()) 3), (2, .write none)]

theorem dual_review_separated :
    ∃ row, (run (Threads.step (act id)) (idle .empty) dualReview).shared.store.rows.lookup "r1"
        = some row ∧ row.status = .approved ∧ row.approvedBy = ["ann", "bob"] ∧ row.Separated := by
  have ho : ∀ a ∈ dualReview, a.2.OpensEmpty := by
    intro a ha tid req now h
    simp only [dualReview, mem_cons, not_mem_nil, or_false] at ha
    rcases ha with rfl | rfl | rfl | rfl | rfl | rfl <;> cases h
    rfl
  obtain ⟨row, hr, hs, hap⟩ :
      ∃ row, (run (Threads.step (act id)) (idle .empty) dualReview).shared.store.rows.lookup "r1"
        = some row ∧ row.status = .approved ∧ row.approvedBy = ["ann", "bob"] :=
    ⟨_, rfl, by decide, by decide⟩
  exact ⟨row, hr, hs, hap, duties_separated id dualReview ho "r1" row hr⟩

/-! ### Decisions that stay -/

/-- What a call has read of the row it is going to write: its id and its approvers. -/
def Progress.basis : Progress → Option (String × List String)
  | .idle => none
  | .updating _ _ read next => some (next.id, read.approvedBy)
  | .creating _ request => some (request.id, [])

def Action.isWrite : Action → Bool
  | .write _ => true
  | _ => false

/-- A write finds its row waiting for a decision, with the approvers that its call has read; to
open a request is to have read none. -/
def Unchanged (s : Approvals) (t : Progress) (a : Action) : Prop :=
  a.isWrite = true → ∀ basis ∈ t.basis, ∀ row ∈ s.store.rows.lookup basis.1,
    row.status = .pending ∧ row.approvedBy = basis.2
  deriving Decidable

/-- Every approval that was answered without an error is in the row. -/
def Approvals.Kept (s : Approvals) : Prop :=
  ∀ id approver, (id, approver) ∈ s.recorded →
    ∃ row, s.store.rows.lookup id = some row ∧ approver ∈ row.approvedBy

def Progress.Decided : Progress → Prop
  | .updating _ approver read next => Decides approver read next
  | _ => True

/-- A write that finds its row unchanged adds to it. -/
theorem Unchanged.adds {s : Approvals} {fault : Option Fault} (h : Unchanged s t (.write fault))
    (hw : t.Writes req approver) (hd : t.Decided) (hr : s.store.rows.lookup req.id = some row) :
    row.status = .pending ∧ row.approvedBy ⊆ req.approvedBy := by
  cases hw with
  | update tid approver read next =>
    obtain ⟨hs, ha⟩ := h rfl _ rfl row hr
    refine ⟨hs, ?_⟩
    rw [ha, hd.approvedBy]
    exact subset_append_left _ _
  | create tid req =>
    obtain ⟨hs, ha⟩ := h rfl _ rfl row hr
    refine ⟨hs, ?_⟩
    rw [ha]
    exact nil_subset _

theorem Progress.Decided.approver_mem (h : t.Decided) (hw : t.Writes req approver) :
    approver.toList ⊆ req.approvedBy := by
  cases hw with
  | update =>
    rw [h.approvedBy]
    exact subset_append_right _ _
  | create => exact nil_subset _

/-- A decided row is not the one that is written. -/
theorem act_keeps_status {s : Approvals} (hd : t.Decided) (hok : Unchanged s t a) {id : String}
    (hro : s.store.rows.lookup id = some row) (hdo : row.status ≠ .pending) :
    (act sha256 s t a).1.store.rows.lookup id = some row := by
  have hdi := act_did sha256 s t a
  generalize (act sha256 s t a).1 = s', (act sha256 s t a).2 = t₂ at hdi ⊢
  cases hdi with
  | nothing | decides | opens => exact hro
  | writes s' fault req row' approver ha hw hp hg hr =>
    subst ha
    by_cases hid : id = req.id
    · subst hid
      exact absurd (hok.adds hw hd hro).1 hdo
    · rwa [hp.lookup_ne hid]

theorem act_decided {s : Approvals} (a : Action) (hd : t.Decided) :
    (act sha256 s t a).2.Decided := by
  have hdi := act_did sha256 s t a
  generalize (act sha256 s t a).1 = s', (act sha256 s t a).2 = t₂ at hdi ⊢
  cases hdi with
  | nothing t₂ ho =>
    rcases ho with rfl | rfl
    · exact hd
    · trivial
  | decides tid approver read next hr hde => exact hde
  | opens | writes => trivial

theorem act_kept {s : Approvals} (hk : s.Kept) (hd : t.Decided) (hok : Unchanged s t a) :
    (act sha256 s t a).1.Kept := by
  have hdi := act_did sha256 s t a
  generalize (act sha256 s t a).1 = s', (act sha256 s t a).2 = t₂ at hdi ⊢
  cases hdi with
  | nothing | decides | opens => exact hk
  | writes s' fault req row' approver ha hw hp hg hr =>
    subst ha
    intro id b hb
    rcases mem_append.mp (hr hb) with hold | hn
    · obtain ⟨row, hro, hm⟩ := hk id b hold
      by_cases hid : id = req.id
      · subst hid
        have had := (hok.adds hw hd hro).2
        exact ⟨row', hp.lookup_self, hp.approvedBy ▸ had hm⟩
      · exact ⟨row, (hp.lookup_ne hid).trans hro, hm⟩
    · obtain ⟨b', hb', hpa⟩ := mem_map.mp hn
      obtain ⟨rfl, rfl⟩ := Prod.mk.inj hpa
      exact ⟨row', hp.lookup_self, hp.approvedBy ▸ hd.approver_mem hw hb'⟩

theorem act_recorded (s : Approvals) (t : Progress) (a : Action) :
    s.recorded ⊆ (act sha256 s t a).1.recorded := by
  have hd := act_did sha256 s t a
  generalize (act sha256 s t a).1 = s', (act sha256 s t a).2 = t₂ at hd ⊢
  cases hd with
  | nothing | decides | opens => exact List.Subset.refl _
  | writes s' fault req row' approver ha hw hp hg hr => exact hg

/-- **A decided request stays decided, and an approval stays recorded**, in every run whose writes
all find their row as it was read. -/
theorem decisions_kept {κ : Type*} [DecidableEq κ] (sha256 : List UInt8 → List UInt8)
    (store : ApprovalStore) (earlier later : List (κ × Action))
    (hok : Allowed (Threads.step (act sha256)) (Threads.Meets Unchanged) (idle store)
      (earlier ++ later)) :
    (∀ id row, (run (Threads.step (act sha256)) (idle store) earlier).shared.store.rows.lookup id
        = some row → row.status = .approved ∨ row.status = .rejected →
      ∃ row', (run (Threads.step (act sha256)) (idle store)
        (earlier ++ later)).shared.store.rows.lookup id
        = some row' ∧ row'.status = row.status) ∧
    ∀ id approver, (id, approver) ∈
        (run (Threads.step (act sha256)) (idle store) earlier).shared.recorded →
      ∃ row, (run (Threads.step (act sha256)) (idle store)
        (earlier ++ later)).shared.store.rows.lookup id
        = some row ∧ approver ∈ row.approvedBy := by
  have hst : (idle store : Threads Approvals κ Progress).Sound Approvals.Kept
      fun _ t => t.Decided := ⟨fun _ _ h => absurd h not_mem_nil, fun _ => trivial⟩
  have hk : ∀ s t a, s.Kept → Progress.Decided t → Unchanged s t a →
      (act sha256 s t a).1.Kept ∧ (act sha256 s t a).2.Decided ∧ ∀ t' : Progress, t'.Decided →
        t'.Decided :=
    fun s t a hke ht hok => ⟨act_kept sha256 hke ht hok, act_decided sha256 a ht, fun _ h => h⟩
  obtain ⟨he, hl⟩ := (allowed_append earlier later _).mp hok
  have hm := hst.run hk earlier _ he
  have hen := hm.run hk later _ hl
  rw [run_append]
  constructor
  · intro id row hr hd
    have hs : row.status ≠ .pending := by
      rcases hd with h | h <;> simp [h]
    have hsta := Threads.Sound.run (I := fun s => s.store.rows.lookup id = some row)
      (J := fun _ t => Progress.Decided t)
      (fun s t a hr ht hok => ⟨act_keeps_status sha256 ht hok hr hs,
        act_decided sha256 a ht, fun _ h => h⟩) later _ ⟨hr, hm.own⟩ hl
    exact ⟨row, hsta.shared, rfl⟩
  · intro id approver hme
    have hg := Allowed.invariant (I := fun w => (id, approver) ∈ w.shared.recorded)
      (fun w a h _ => act_recorded sha256 w.shared (w.own a.1) a.2 h) later _ hme hl
    exact hen.shared id approver hg

/-- What a list of steps leaves, from an empty table. -/
def after (steps : List (Nat × Action)) : Approvals :=
  (run (Threads.step (act id)) (idle .empty) steps).shared

theorem dual_review_kept :
    Allowed (Threads.step (act id)) (Threads.Meets Unchanged) (idle .empty)
        (dualReview ++ [(3, .reject "t" "r1" "eve" (.ok ()) 4)]) ∧
      ∃ row, (after (dualReview ++ [(3, .reject "t" "r1" "eve" (.ok ()) 4)])).store.rows.lookup "r1"
        = some row ∧ "ann" ∈ row.approvedBy := by
  have hok : Allowed (Threads.step (act id)) (Threads.Meets Unchanged) (idle .empty)
      (dualReview ++ [(3, .reject "t" "r1" "eve" (.ok ()) 4)]) := by
    decide
  exact ⟨hok, (decisions_kept id .empty dualReview _ hok).2 "r1" "ann" (by decide)⟩

/-- Two reviewers of one request who both read before either writes; the first has written. -/
def raced (dual : Bool) (second : Action) : List (Nat × Action) :=
  [(0, .create "t" (sampleRequest dual) 1), (0, .write none),
    (1, .approve "t" "r1" "ann" (.ok ()) 2), (2, second), (1, .write none)]

/-- Two checks of the gate that both find nothing; what the second opened is approved. -/
def racedGate : List (Nat × Action) :=
  [(1, .check "t" "agent" "prod" 1), (2, .check "t" "agent" "prod" 1), (2, .write none),
    (3, .approve "t" (stableApprovalID id "t" "agent" "prod") "ann" (.ok ()) 2), (3, .write none)]

/-- The delayed write of a rejection turns an approval, that of an approval takes away one of two,
and that of the gate reopens what was approved. -/
theorem decision_overwritten :
    ((after (raced false (.reject "t" "r1" "bob" (.ok ()) 2))).store.rows.lookup "r1").map
      (·.status)
        = some .approved ∧
    ((after (raced false (.reject "t" "r1" "bob" (.ok ()) 2) ++
      [(2, .write none)])).store.rows.lookup
        "r1").map (·.status) = some .rejected ∧
    ("r1", "ann") ∈ (after (raced true (.approve "t" "r1" "bob" (.ok ()) 2))).recorded ∧
    ((after (raced true (.approve "t" "r1" "bob" (.ok ()) 2) ++
      [(2, .write none)])).store.rows.lookup
        "r1").map (·.approvedBy) = some ["bob"] ∧
    ((after racedGate).store.rows.lookup (stableApprovalID id "t" "agent" "prod")).map (·.status)
        = some .approved ∧
    ((after (racedGate ++ [(1, .write none)])).store.rows.lookup
        (stableApprovalID id "t" "agent" "prod")).map (·.status) = some .pending := by
  decide +kernel

end LiteAIG.Approval
