/-
Which internal addresses the dialer can be made to reach.

A connection is only opened to an address the policy lets through.  The networks it
denies are the internal ones without two kinds: the unspecified IPv4 address, which
reaches the local host like the IPv6 one that is denied, and multicast.
-/
import LiteAIG.Egress.Policy
import LiteAIG.Lib.Except

namespace LiteAIG.Egress

open Lib List

/-- What the list of denied networks leaves out. -/
def overlooked : List CIDR := [v4Net 0 0 32, v4Net 224 0 4, v6Net 0xff00 8]

/-- The unspecified, loopback, private, link-local, unique-local and multicast addresses. -/
def internal : List CIDR :=
  [v6Net 0 128] ++ loopback ++ [v4Net 10 0 8, v4Net 172 16 12, v4Net 192 168 16, v4Net 169 254 16,
    v6Net 0xfe80 10, v6Net 0xfc00 7] ++ overlooked

/-- A policy that makes no exceptions. -/
structure Policy.Strict (p : Policy) : Prop where
  loopback : p.allowLoopback = false
  networks : p.allowCIDRs = []

variable {p : Policy} {host : String} {dial : IP → Option String} {ip : IP}

theorem Policy.Strict.internal_iff (h : p.Strict) (ha : p.allowIP ip) :
    within internal ip = true ↔ within overlooked ip = true := by
  have hd : within deniedCIDRs ip = false := by
    simpa [Policy.allowIP, h.loopback, h.networks, within] using ha
  simp only [within, deniedCIDRs, internal, any_append, any_cons, any_nil,
    Bool.or_eq_true, Bool.or_eq_false_iff] at hd ⊢
  simp [hd]

/-- The address a connection is opened to is one of those before the first that is denied. -/
theorem mem_of_dialEach : ∀ {ips : List IP} {err : DialError},
    p.dialEach host dial ips err = .ok ip → ip ∈ ips.takeWhile p.allowIP := by
  intro ips
  induction ips with
  | nil => intro err h; cases h
  | cons a rest ih =>
    intro err h
    unfold Policy.dialEach at h
    split at h
    · rename_i ha
      rw [takeWhile_cons_of_pos ha]
      split at h
      · cases h
        exact mem_cons_self
      · exact mem_cons_of_mem _ (ih h)
    · cases h

/-- Each of these can be the one, when the others do not answer. -/
theorem dialEach_only : ∀ {ips : List IP} {err : DialError}, ip ∈ ips.takeWhile p.allowIP →
    p.dialEach host (fun a => if a = ip then none else some "refused") ips err = .ok ip := by
  intro ips
  induction ips with
  | nil => intro err h; cases h
  | cons a rest ih =>
    intro err h
    rw [takeWhile_cons] at h
    split at h
    · rename_i ha
      unfold Policy.dialEach
      rw [if_pos ha]
      by_cases hi : a = ip
      · simp [hi]
      · simp only [if_neg hi]
        exact ih ((mem_cons.mp h).resolve_left (Ne.symm hi))
    · cases h

/-- **When internal networks cannot be reached.**  A strict policy opens no connection to an
internal address, however connecting goes, exactly when none of the addresses the resolver lists
before the first that is denied is unspecified in IPv4 or multicast. -/
theorem internal_unreachable_iff (h : p.Strict) (network : String) (address : Except String String)
    (answer : String → Except String (List IP)) :
    (∀ dial ip, p.dialContext network address answer dial = .ok ip → within internal ip = false) ↔
      (network ∈ ["tcp", "tcp4", "tcp6"] → ∀ host ips, address = .ok host → answer host = .ok ips →
        ∀ ip ∈ ips.takeWhile p.allowIP, within overlooked ip = false) := by
  have hi : ∀ ips : List IP, ∀ ip ∈ ips.takeWhile p.allowIP,
      (within internal ip = false ↔ within overlooked ip = false) := by
    intro ips ip hm
    rw [Bool.eq_false_iff, Bool.eq_false_iff, Ne, Ne, h.internal_iff (List.mem_takeWhile_imp hm)]
  simp only [Policy.dialContext, throw_bind, ite_throw_eq_ok, bind_eq_ok, mapError_eq_ok, not_not]
  constructor
  · intro hr hn host ips ha hl ip hm
    exact (hi ips ip hm).mp (hr _ ip ⟨hn, host, ha, ips, hl, dialEach_only hm⟩)
  · rintro ho dial ip ⟨hn, host, ha, ips, hl, hok⟩
    have hm := mem_of_dialEach hok
    exact (hi ips ip hm).mpr (ho hn host ips ha hl ip hm)

/-- A public address and then a loopback one: the loop ends before the latter. -/
theorem rebound_name_unreachable : (⟨false, []⟩ : Policy).Strict ∧ ∀ dial ip,
    (⟨false, []⟩ : Policy).dialContext "tcp" (.ok "name")
      (fun _ => .ok [.v4 0x08080808, .v4 0x7f000001]) dial = .ok ip →
        within internal ip = false := by
  have h : (⟨false, []⟩ : Policy).Strict := ⟨rfl, rfl⟩
  refine ⟨h, (internal_unreachable_iff h _ _ _).mpr fun _ host ips _ hl => ?_⟩
  obtain rfl := Except.ok.inj hl
  decide

/-- A name that resolves to `0.0.0.0` leads to the local host. -/
theorem unspecified_reached : ∃ dial,
    (⟨false, []⟩ : Policy).dialContext "tcp" (.ok "name") (fun _ => .ok [.v4 0]) dial =
      .ok (.v4 0) ∧
      within internal (.v4 0) = true :=
  ⟨fun _ => none, by decide⟩

end LiteAIG.Egress
