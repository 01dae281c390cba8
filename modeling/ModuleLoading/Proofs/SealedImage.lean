import ModuleLoading.Proofs.TableCodec
import ModuleLoading.Table.Image

/-!
An image that ends in a sealed table is taken apart at its end. The trailer has a
fixed length and records the length of the payload, so the sections of an image are
determined by the image, and nothing that stands before the payload is looked at.
Together with `decode_payload`: what was sealed is read back, and stripping it off
leaves what it was sealed onto.
-/
namespace ModuleLoading.Table

open Bytes (capacity)

theorem length_closingMagic : closingMagic.length = 8 := by cbv

/-- A sealed image ends in a length, a digest and the magic. -/
theorem isSealed_iff (image : Bytes) :
    isSealed image = true ↔ ∃ body record, image = body ++ (record ++ closingMagic) ∧
      record.length = 40 := by
  have hmagic := length_closingMagic
  rw [isSealed, Bool.and_eq_true, decide_eq_true_iff, List.isSuffixOf_iff_suffix]
  constructor
  · rintro ⟨hlength, front, rfl⟩
    rw [List.length_append, hmagic] at hlength
    refine ⟨front.take (front.length - 40), front.drop (front.length - 40), ?_, ?_⟩
    · rw [← List.append_assoc, List.take_append_drop]
    · rw [List.length_drop]
      simp only [trailerLength] at hlength
      omega
  · rintro ⟨body, record, rfl, hrecord⟩
    refine ⟨?_, body ++ record, List.append_assoc _ _ _⟩
    simp only [List.length_append, trailerLength]
    omega

/-- What a sealed image is taken apart into. -/
theorem sections_sealed (body record : Bytes) (hrecord : record.length = 40) :
    sections (body ++ (record ++ closingMagic)) =
      let length := Bytes.toNat (record.take 8)
      if body.length < length then
        .error (.malformedTable (.payloadExceedsImage length body.length))
      else
        .ok (some ⟨body.take (body.length - length), body.drop (body.length - length),
          record.drop 8⟩) := by
  have hmagic := length_closingMagic
  have hsealed := (isSealed_iff _).2 ⟨body, record, rfl, hrecord⟩
  have hbody : (body ++ (record ++ closingMagic)).length - trailerLength = body.length := by
    simp only [List.length_append, trailerLength]
    omega
  have hlength : (record ++ closingMagic).take 8 = record.take 8 :=
    List.take_append_of_le_length (by omega)
  have hdigest : ((record ++ closingMagic).drop 8).take 32 = record.drop 8 := by
    rw [List.drop_append_of_le_length (by omega)]
    exact List.take_left' (by rw [List.length_drop]; omega)
  rw [sections, if_pos hsealed, hbody]
  simp only [List.drop_left, hlength, hdigest]
  split
  · rfl
  · next hfits =>
    generalize Bytes.toNat (record.take 8) = length at hfits ⊢
    have hbase : body.length - length ≤ body.length := Nat.sub_le _ _
    have hpayload : (body.drop (body.length - length)).length = length := by
      rw [List.length_drop]
      omega
    rw [List.take_append_of_le_length hbase, List.drop_append_of_le_length hbase,
      List.take_left' hpayload]

/-- The image that some sections make. -/
def Sections.image (parts : Sections) : Bytes :=
  parts.base ++ parts.payload ++
    (Bytes.ofNat 8 parts.payload.length ++ parts.digest ++ closingMagic)

/-- Sections that a trailer has room for. -/
structure Sections.Recordable (parts : Sections) : Prop where
  digest_length : parts.digest.length = 32
  payload_lt : parts.payload.length < capacity 8

/-- The sections of an image are the only ones that make the image. -/
theorem sections_eq_some_iff (image : Bytes) (parts : Sections) :
    sections image = .ok (some parts) ↔ parts.Recordable ∧ image = parts.image := by
  constructor
  · intro h
    have hsealed : isSealed image = true := by
      by_contra hnot
      rw [sections, if_neg hnot] at h
      cases h
    obtain ⟨body, record, rfl, hrecord⟩ := (isSealed_iff image).1 hsealed
    rw [sections_sealed body record hrecord] at h
    have hwidth : (record.take 8).length = 8 := by
      rw [List.length_take]
      omega
    have hlt := Bytes.toNat_lt (record.take 8)
    have hback := Bytes.ofNat_toNat (record.take 8)
    rw [hwidth] at hlt hback
    simp only at h
    split at h
    · cases h
    · next hfits =>
      rw [← Option.some.inj (Except.ok.inj h)]
      have hpayload : (body.drop (body.length - Bytes.toNat (record.take 8))).length =
          Bytes.toNat (record.take 8) := by
        rw [List.length_drop]
        omega
      refine ⟨⟨?_, ?_⟩, ?_⟩
      · rw [List.length_drop, hrecord]
      · rw [hpayload]
        exact hlt
      · simp only [Sections.image]
        rw [hpayload, hback, List.take_append_drop, List.take_append_drop]
  · rintro ⟨⟨hdigest, hpayload⟩, rfl⟩
    obtain ⟨base, payload, digest⟩ := parts
    simp only at hdigest hpayload
    have hwidth := Bytes.length_ofNat 8 payload.length
    have hrecord : (Bytes.ofNat 8 payload.length ++ digest).length = 40 := by
      rw [List.length_append, hwidth, hdigest]
    have hlength : Bytes.toNat ((Bytes.ofNat 8 payload.length ++ digest).take 8) =
        payload.length := by
      rw [List.take_left' hwidth, Bytes.toNat_ofNat_of_lt 8 _ hpayload]
    have hfits : ¬ (base ++ payload).length < payload.length := by
      rw [List.length_append]
      omega
    have hbase : (base ++ payload).length - payload.length = base.length := by
      rw [List.length_append]
      omega
    rw [Sections.image, sections_sealed (base ++ payload) _ hrecord, hlength]
    simp only [if_neg hfits, hbase]
    rw [List.take_left, List.drop_left, List.drop_left' hwidth]

theorem sections_append_sealPayload (base payload : Bytes) (h : payload.length < capacity 8) :
    sections (base ++ sealPayload payload) =
      .ok (some ⟨base, payload, Sha256.digest payload⟩) := by
  rw [sections_eq_some_iff]
  refine ⟨⟨Sha256.length_digest payload, h⟩, ?_⟩
  simp [sealPayload, Sections.image]

theorem strip_append_sealPayload (base payload : Bytes) (h : payload.length < capacity 8) :
    strip (base ++ sealPayload payload) = .ok base := by
  rw [strip, sections_append_sealPayload base payload h]
  rfl

theorem ofImage_append_sealPayload (base payload : Bytes) (h : payload.length < capacity 8)
    (table : Table) (hdecode : decode payload = .ok table) :
    ofImage (base ++ sealPayload payload) = .ok (some table) := by
  rw [ofImage, sections_append_sealPayload base payload h]
  simp only [bind, Except.bind, ne_eq, not_true_eq_false, if_false, hdecode]
  rfl

/-- A table whose lengths fit is read back from its payload, with everything it
holds, and from the end of any image that the length of the payload fits. -/
theorem codec_keeps_table (table : Table) (hlengths : ∀ length ∈ table.lengths, Fits length) :
    ∃ payload, table.encode = .ok payload ∧ decode payload = .ok table ∧
      (payload.length < capacity 8 → ∃ image, table.sealed = .ok image ∧
        ∀ base, ofImage (base ++ image) = .ok (some table) ∧
          strip (base ++ image) = .ok base) := by
  have hencode := encode_of_fits table hlengths
  have hdecode := decode_payload table hlengths
  refine ⟨table.payload, hencode, hdecode, fun hpayload => ?_⟩
  refine ⟨sealPayload table.payload, ?_, fun base => ⟨?_, ?_⟩⟩
  · rw [sealed, hencode]
    rfl
  · exact ofImage_append_sealPayload base table.payload hpayload table hdecode
  · exact strip_append_sealPayload base table.payload hpayload

/-- A module found under a root, with code that ends like a sealed table. -/
def sampleTable : Table :=
  (empty.insert (.ofIdentity ⟨"a", ".", .search, some "mods"⟩ closingMagic)).addEntry "a"

theorem codec_keeps_table_sample :
    ∃ payload image, sampleTable.encode = .ok payload ∧ decode payload = .ok sampleTable ∧
      payload.length < capacity 8 ∧ sampleTable.sealed = .ok image ∧
      ∀ base, ofImage (base ++ image) = .ok (some sampleTable) ∧
        strip (base ++ image) = .ok base := by
  have hlengths : sampleTable.lengths = [1, 1, 1, 1, 1, 8] := by cbv
  have hfits : ∀ length ∈ sampleTable.lengths, Fits length := by
    rw [hlengths]
    simp [Fits, capacity, lengthWidth]
  obtain ⟨payload, hencode, hdecode, hsealed⟩ := codec_keeps_table sampleTable hfits
  have hpayload : payload.length < capacity 8 := by
    have hlength : sampleTable.payload.length = 44 := by cbv
    have heq := hencode.symm.trans (encode_of_fits sampleTable hfits)
    rw [Except.ok.inj heq, hlength]
    decide
  obtain ⟨image, himage, hread⟩ := hsealed hpayload
  exact ⟨payload, image, hencode, hdecode, hpayload, himage, hread⟩

end ModuleLoading.Table
