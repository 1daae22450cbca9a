/-
File content and speech are relayed whole only up to the response limit.

A body that the limit cuts ends like one that is complete, so no decoder can tell.
-/
import LiteAIG.Connectors.OpenAI
import LiteAIG.Lib.Except

namespace LiteAIG.Connectors.OpenAI

open Lib

variable {request : Request} {body : Body} {data : List UInt8}

/-- A request for speech or for the content of a file. -/
def Request.Raw (request : Request) : Prop :=
  (request.kind = .audio ∧ request.audio = some "speech") ∨
    (request.kind = .file ∧ (request.file = some "" ∨ request.file = some "content"))

/-- The response has these bytes wherever it has the body. -/
structure UnifiedResponse.Relays (out : UnifiedResponse) (bytes : List UInt8) : Prop where
  rawContent : out.rawContent = bytes
  audio : ∀ audio ∈ out.audio, audio.data = bytes

theorem invoke_raw (hr : request.Raw) (decode) (limit : Int) {response : Response}
    (hs : 200 ≤ response.statusCode ∧ response.statusCode < 300) :
    ∃ audio : List UInt8 → Option AudioResult, (∀ data, ∀ a ∈ audio data, a.data = data) ∧
      invoke decode limit request (.ok response) =
        (fun data => ⟨data, audio data⟩) <$> (roundTrip limit response.body).readAll := by
  have hn : ¬(response.statusCode < 200 ∨ response.statusCode ≥ 300) := by omega
  obtain ⟨hk, ho⟩ | ⟨hk, ho⟩ := hr
  · refine ⟨fun data => some ⟨data, response.contentType⟩, by simp, ?_⟩
    simp [invoke, hn, hk, ho, decodeAudioSpeechResponse, bind, Except.bind]
  · refine ⟨fun _ => none, by simp, ?_⟩
    simp [invoke, hn, hk, ho, decodeFileContentResponse, bind, Except.bind]

theorem readAll_eq_ok : body.readAll = .ok data ↔ body.err = none ∧ body.bytes = data := by
  cases h : body.err <;> simp [Body.readAll, h]

/-- Every read of the limited body that succeeds gives the body, unless it is longer. -/
theorem roundTrip_exact_iff {limit : Int} :
    (∀ data, (roundTrip limit body).readAll = .ok data → data = body.bytes) ↔
      limit ≤ 0 ∨ body.bytes.length ≤ limit := by
  simp only [readAll_eq_ok, roundTrip, Body.limitReader]
  split_ifs with hp hl
  · simp only [true_and, forall_eq', List.take_eq_self_iff]
    omega
  · exact ⟨fun _ => by omega, fun _ _ h => h.2.symm⟩
  · exact ⟨fun _ => by omega, fun _ _ h => h.2.symm⟩

/-- **When a body is relayed whole.**  An answer with file content or speech that succeeds has
exactly the bytes of the upstream's body if and only if there is no limit or they are within it. -/
theorem relayed_whole_iff (hr : request.Raw) (decode) (limit : Int) {response : Response}
    (hs : 200 ≤ response.statusCode ∧ response.statusCode < 300) :
    (∀ out, invoke decode limit request (.ok response) = .ok out → out.Relays response.body.bytes) ↔
      limit ≤ 0 ∨ response.body.bytes.length ≤ limit := by
  obtain ⟨audio, ha, hi⟩ := invoke_raw hr decode limit hs
  simp only [hi, map_eq_ok, ← roundTrip_exact_iff]
  constructor
  · intro h data hd
    exact (h _ ⟨data, hd, rfl⟩).rawContent
  · rintro h _ ⟨data, hd, rfl⟩
    exact ⟨h data hd, fun a hm => (ha data a hm).trans (h data hd)⟩

theorem short_file_relayed : (⟨.file, none, some "content"⟩ : Request).Raw ∧ ∀ out,
    invoke (fun _ _ => .error (.other "")) 3 ⟨.file, none, some "content"⟩
      (.ok ⟨200, "", [1, 2, 3], none⟩) = .ok out → out.Relays [1, 2, 3] :=
  ⟨Or.inr ⟨rfl, Or.inr rfl⟩,
    (relayed_whole_iff (Or.inr ⟨rfl, Or.inr rfl⟩) _ 3 (by decide)).mpr (Or.inr (by decide))⟩

/-- The third byte of a file is dropped, and the answer is a success. -/
theorem long_file_cut :
    invoke (fun _ _ => .error (.other "")) 2 ⟨.file, none, some "content"⟩
      (.ok ⟨200, "", [1, 2, 3], none⟩) = .ok ⟨[1, 2], none⟩ := rfl

end LiteAIG.Connectors.OpenAI
