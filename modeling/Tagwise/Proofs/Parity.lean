import Tagwise.Core.Seeds
import Tagwise.Program.Validation

namespace Tagwise.Proofs.Parity
open Js Tagwise.Core Program

/-- The Rust string the program decodes from what a client's UTF-8 encoder made of `raw`. -/
def submitted (raw : JsString) : String := String.ofList (scalarValues raw)

theorem asBytes_submitted (raw : JsString) : asBytes (submitted raw) = encodeUtf8 raw := by
  rw [asBytes, submitted, String.toList_ofList, encodeUtf8]

theorem submitted_utf16 (s : String) : submitted (utf16 s) = s := by
  rw [submitted, scalarValues_utf16, String.ofList_toList]

/-- The program's byte predicate is the client's class on the widened byte. -/
theorem tagUnit_of_byte {b : UInt8} : isTagUnit b.toUInt16 = true ↔ isCanonicalByte b = true := by
  rw [isTagUnit_iff, isCanonicalByte_iff, UInt8.toNat_toUInt16]

theorem canonicalByte_lt {b : UInt8} (h : isCanonicalByte b = true) : b.toNat < 128 := by
  have := (isCanonicalByte_iff b).mp h
  omega

/-- Bytes the program accepts came from text of the same units, one byte each. -/
theorem canonical_units {raw : JsString} (h : CanonicalBytes (encodeUtf8 raw)) :
    raw = fromCharCodes (encodeUtf8 raw) := by
  have ha : Ascii raw := ascii_of_encodeUtf8 (fun b hb => canonicalByte_lt (h.allowed b hb))
  calc raw = (raw.map (fun u => UInt8.ofNat u.toNat)).map UInt8.toUInt16 := (widen_bytes ha).symm
    _ = fromCharCodes (encodeUtf8 raw) := by rw [fromCharCodes, encodeUtf8_ascii ha]

/-- Canonical bytes, read as char codes, are a canonical tag. -/
theorem normalizeTag_bytes {bytes : List UInt8} (h : CanonicalBytes bytes) :
    ∃ t : NormalizedTag, normalizeTag (fromCharCodes bytes) = .accepted t ∧
      t.text = fromCharCodes bytes := by
  have hlen : (fromCharCodes bytes).length = bytes.length := List.length_map _
  apply normalizeTag_canonical
  · rw [hlen]; exact h.long
  · rw [hlen]; exact h.short
  · intro u hu
    obtain ⟨b,hb,rfl⟩ := List.mem_map.mp hu
    exact tagUnit_of_byte.mpr (h.allowed b hb)

/-- A normalized tag read off single bytes encodes to those bytes. -/
theorem encodeUtf8_normalized {t : NormalizedTag} {bytes : List UInt8}
    (h : t.text = fromCharCodes bytes) : encodeUtf8 t.text = bytes := by
  rw [encodeUtf8_ascii t.ascii, h]
  exact asciiBytes_fromCharCodes bytes

/-- The bytes of a normalized tag are canonical. -/
theorem canonical_normalized (t : NormalizedTag) : CanonicalBytes (encodeUtf8 t.text) := by
  have hlen : (encodeUtf8 t.text).length = t.text.length := by
    rw [encodeUtf8_ascii t.ascii, List.length_map]
  refine ⟨hlen ▸ t.long, hlen ▸ t.short, ?_⟩
  intro b hb
  rw [encodeUtf8_ascii t.ascii] at hb
  obtain ⟨u,hu,rfl⟩ := List.mem_map.mp hb
  have hlt := t.ascii u hu
  have hunit := (isTagUnit_iff u).mp (t.units u hu)
  rw [isCanonicalByte_iff, UInt8.toNat_ofNat']
  omega

/-- Whatever the client's string, lone surrogates included, the program takes its
encoding exactly when `normalizeTag` takes the string and leaves it as it is. -/
theorem submitted_accepted (raw : JsString) :
    validateCanonicalTag (submitted raw) = .ok () ↔
      ∃ t, normalizeTag raw = .accepted t ∧ t.text = raw := by
  rw [validateCanonicalTag_ok, asBytes_submitted]
  constructor
  · intro h
    have hr := canonical_units h
    obtain ⟨t,hn,ht⟩ := normalizeTag_bytes h
    rw [← hr] at hn ht
    exact ⟨t,hn,ht⟩
  · rintro ⟨t,_,rfl⟩
    exact canonical_normalized t

/-- How the two validators agree on one raw input of the client. -/
structure Agrees (raw : JsString) : Prop where
  accepted : ∀ t, normalizeTag raw = .accepted t →
    validateCanonicalTag (submitted t.text) = .ok () ∧ normalizeTag t.text = .accepted t
  rejected : ∀ reason, normalizeTag raw = .rejected reason →
    ∃ error, validateCanonicalTag (submitted raw) = .error error
  changed : ∀ t, normalizeTag raw = .accepted t → t.text ≠ raw →
    ∃ error, validateCanonicalTag (submitted raw) = .error error

theorem refused {raw : JsString} (h : ¬ ∃ t, normalizeTag raw = .accepted t ∧ t.text = raw) :
    ∃ error, validateCanonicalTag (submitted raw) = .error error := by
  cases hv : validateCanonicalTag (submitted raw) with
  | ok u => exact absurd ((submitted_accepted raw).mp hv) h
  | error e => exact ⟨e,rfl⟩

theorem agrees (raw : JsString) : Agrees raw := by
  refine ⟨?_, ?_, ?_⟩
  · intro t _
    exact ⟨(submitted_accepted t.text).mpr ⟨t,normalizeTag_text t,rfl⟩,normalizeTag_text t⟩
  · intro reason hr
    apply refused
    rintro ⟨t,hn,_⟩
    rw [hr] at hn
    cases hn
  · intro t ht hne
    apply refused
    rintro ⟨t',hn,he⟩
    rw [ht] at hn
    cases hn
    exact hne he

/-- The program accepts a string iff the client accepts it unchanged, and for every
raw input the three consequences of that hold. -/
theorem validator_parity :
    (∀ s : String, validateCanonicalTag s = .ok () ↔
      ∃ t, normalizeTag (utf16 s) = .accepted t ∧ t.text = utf16 s) ∧
    ∀ raw : JsString, Agrees raw := by
  refine ⟨?_, agrees⟩
  intro s
  have h := submitted_accepted (utf16 s)
  rwa [submitted_utf16] at h

end Tagwise.Proofs.Parity
