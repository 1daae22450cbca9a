/-
Exact cache keys keep scopes apart.

The visible part of a key joins tenant and project with colons, the hashed part joins
everything with zero characters.  Two scopes may agree in the one or in the other, but
not in both: where the longer of two tenants goes on, it would have both marks.
-/
import LiteAIG.Cache.Handler
import LiteAIG.Proofs.Cache.Collections

namespace LiteAIG.Cache

open Lib

theorem colon_notMem_hexEncode (bytes : List UInt8) : ':' ∉ hexEncode bytes := by
  have hd : ∀ d < 16, ':' ≠ Nat.digitChar d := by decide
  simp only [hexEncode, fixedDigits, List.mem_flatMap, List.nil_append, List.cons_append,
    List.mem_cons, List.not_mem_nil, or_false]
  rintro ⟨b, -, h | h⟩
  · exact hd _ (Nat.mod_lt _ (by decide)) h
  · exact hd _ (Nat.mod_lt _ (by decide)) h

section

variable (k : Key)

def Key.path : List Char := k.tenantID.toList ++ ':' :: k.projectID.toList

/-- The part that is hashed. -/
def Key.raw : List Char :=
  ((k.tenantID.toList ++ '\x00' :: (k.projectID.toList ++ '\x00' :: k.logicalModel.toList)) ++
    '\x00' :: k.normalizedRequest.toList) ++ '\x00' :: (itoa k.namespaceVersion).toList

theorem string_toList (sha256 : List UInt8 → List UInt8) : (k.string sha256).toList =
    "cache:".toList ++ (k.path ++ ':' :: hexEncode (sha256 (utf8 (String.ofList k.raw)))) := by
  have hr : String.ofList k.raw = k.tenantID ++ "\x00" ++ k.projectID ++ "\x00" ++ k.logicalModel ++
      "\x00" ++ k.normalizedRequest ++ "\x00" ++ itoa k.namespaceVersion :=
    String.toList_inj.mp (by simp [Key.raw])
  simp [Key.string, Key.path, hr]

end

/-- **Equal keys come from equal scopes.**  Tenant, project, model, version and encoded request can
all be read off an exact cache key, whatever characters are in the identifiers. -/
theorem scope_of_keyOf (sha256 : List UInt8 → List UInt8) (hsha : Function.Injective sha256)
    (request request' : CacheRequest) (policy policy' : Runtime.CachePolicy)
    (hn : '\x00' ∉ request.normalized.toList) (hn' : '\x00' ∉ request'.normalized.toList)
    (h : keyOf sha256 request policy = keyOf sha256 request' policy') :
    request.tenantID = request'.tenantID ∧ request.projectID = request'.projectID ∧
      request.model = request'.model ∧ policy.namespaceVersion = policy'.namespaceVersion ∧
      request.normalized = request'.normalized := by
  have hl := congrArg String.toList h
  rw [keyOf, keyOf, string_toList, string_toList, List.append_cancel_left_eq] at hl
  obtain ⟨hv, hx⟩ := append_last_mark_inj (colon_notMem_hexEncode _) (colon_notMem_hexEncode _) hl
  have hr := String.ofList_inj.mp (utf8_injective (hsha (hexEncode_injective hx)))
  obtain ⟨hr, hver⟩ := append_last_mark_inj (notMem_itoa rfl _) (notMem_itoa rfl _) hr
  obtain ⟨hr, hreq⟩ := append_last_mark_inj hn hn' hr
  have ht := eq_of_two_marks (by decide) hv hr
  simp only [Key.path, ht, List.append_cancel_left_eq, List.cons.injEq, true_and] at hv hr
  rw [hv, List.append_cancel_left_eq, List.cons.injEq] at hr
  exact ⟨String.toList_inj.mp ht, String.toList_inj.mp hv, String.toList_inj.mp hr.2,
    itoa_injective (String.toList_inj.mp hver), String.toList_inj.mp hreq⟩

/-- A request whose tenant has the one mark in its name and whose project has the other. -/
def marked (cacheControl : String) : CacheRequest :=
  ⟨"a:b", "c\x00d", "m", "[]", "chat", cacheControl, false, false, none⟩

def versioned : Runtime.CachePolicy := ⟨true, 60, 1, [], 0, ⟨false, "", 0⟩⟩

theorem same_scope_of_marked :
    keyOf id (marked "") versioned = keyOf id (marked "no-store") versioned ∧
      (marked "").tenantID = (marked "no-store").tenantID ∧
      (marked "").projectID = (marked "no-store").projectID ∧
      (marked "").model = (marked "no-store").model ∧
      versioned.namespaceVersion = versioned.namespaceVersion ∧
      (marked "").normalized = (marked "no-store").normalized :=
  ⟨rfl, scope_of_keyOf id Function.injective_id _ _ _ _ (by decide) (by decide) rfl⟩

end LiteAIG.Cache
