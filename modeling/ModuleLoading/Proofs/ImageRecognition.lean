import ModuleLoading.Proofs.SealedImage
import Mathlib.Data.Nat.PSub

/-!
Images are recognised exactly. An image carries a table if and only if it is a base
followed by a sealed payload, and then there is one way to take it apart. An image
without a trailer carries none, and everything else is refused with the defect that
it has. The bytes are untrusted: the recorded length may be any number, so every bound
at which an image is cut is checked here against what it cuts.
-/
namespace ModuleLoading

namespace Bytes

/-- The bytes between two bounds, none where a bound is out of order or out of range. -/
def slice? (bytes : Bytes) (start stop : Nat) : Option Bytes :=
  if start ≤ stop ∧ stop ≤ bytes.length then some ((bytes.drop start).take (stop - start)) else none

variable (bytes : Bytes) {start stop : Nat}

theorem slice?_eq_some (hstart : start ≤ stop) (hstop : stop ≤ bytes.length) :
    bytes.slice? start stop = some ((bytes.drop start).take (stop - start)) :=
  if_pos ⟨hstart, hstop⟩

theorem slice?_zero (hstop : stop ≤ bytes.length) :
    bytes.slice? 0 stop = some (bytes.take stop) :=
  bytes.slice?_eq_some (Nat.zero_le stop) hstop

theorem slice?_length (hstart : start ≤ bytes.length) :
    bytes.slice? start bytes.length = some (bytes.drop start) := by
  rw [bytes.slice?_eq_some hstart (Nat.le_refl _),
    List.take_of_length_le (by rw [List.length_drop])]

end Bytes

namespace Table

open Bytes (capacity)

/-- The sections of an image, none where a subtraction would go below zero or a slice
would leave the bytes it is taken of. -/
def sectionsChecked (image : Bytes) : Option (Except LoadError (Option Sections)) := do
  if isSealed image then
    let bodyLength ← image.length.psub trailerLength
    let trailer ← image.slice? bodyLength image.length
    let payloadLength := Bytes.toNat (← trailer.slice? 0 8)
    let digest ← trailer.slice? 8 40
    if bodyLength < payloadLength then
      return .error (.malformedTable (.payloadExceedsImage payloadLength bodyLength))
    else
      let payload ← image.slice? (← bodyLength.psub payloadLength) bodyLength
      let baseLength ← (← image.length.psub payload.length).psub trailerLength
      return .ok (some ⟨← image.slice? 0 baseLength, payload, digest⟩)
  else return .ok none

/-- No image and no recorded length lead out of bounds. -/
theorem sectionsChecked_eq (image : Bytes) : sectionsChecked image = some (sections image) := by
  rw [sectionsChecked, sections]
  by_cases hsealed : isSealed image = true
  · have hlength : trailerLength ≤ image.length := by
      rw [isSealed, Bool.and_eq_true, decide_eq_true_iff] at hsealed
      exact hsealed.1
    have htrailer := Bytes.slice?_length image (Nat.sub_le image.length trailerLength)
    have hfull : (image.drop (image.length - trailerLength)).length = 48 := by
      rw [List.length_drop]
      simp only [trailerLength] at hlength ⊢
      omega
    simp only [if_pos hsealed, Nat.psub_eq_sub hlength, htrailer, Option.bind_eq_bind,
      Option.bind_some]
    generalize image.drop (image.length - trailerLength) = trailer at hfull ⊢
    have hnumber := Bytes.slice?_zero trailer (show 8 ≤ trailer.length by omega)
    have hdigest := Bytes.slice?_eq_some trailer (show 8 ≤ 40 by omega) (by omega)
    simp only [hnumber, hdigest, Option.bind_some]
    -- From here on the recorded length is any number.
    generalize Bytes.toNat (trailer.take 8) = payloadLength
    generalize hend : image.length - trailerLength = bodyLength
    by_cases hfits : bodyLength < payloadLength
    · simp only [if_pos hfits, pure]
    · have hle : payloadLength ≤ bodyLength := Nat.le_of_not_lt hfits
      have hpayload := Bytes.slice?_eq_some image (Nat.sub_le bodyLength payloadLength)
        (by omega)
      rw [Nat.sub_sub_self hle] at hpayload
      have hcut : ((image.drop (bodyLength - payloadLength)).take payloadLength).length =
          payloadLength := by
        rw [List.length_take, List.length_drop]
        omega
      have hrest := Nat.psub_eq_sub (show payloadLength ≤ image.length by omega)
      have hbase := Nat.psub_eq_sub (show trailerLength ≤ image.length - payloadLength by omega)
      rw [show image.length - payloadLength - trailerLength = bodyLength - payloadLength by omega]
        at hbase
      have hfront := Bytes.slice?_zero image
        (show bodyLength - payloadLength ≤ image.length by omega)
      simp only [if_neg hfits, Nat.psub_eq_sub hle, hpayload, hcut, hrest, hbase, hfront,
        Option.bind_some, pure]
  · simp only [if_neg hsealed, pure]

/-- The image is the base with the payload sealed onto it: the length of the payload, its
digest and the closing magic follow it. The length is one that eight bytes can hold. -/
structure SealedOnto (image base payload : Bytes) : Prop where
  payload_lt : payload.length < 2 ^ 64
  image_eq : image = base ++ payload ++ Bytes.ofNat 8 payload.length ++ Sha256.digest payload ++
    closingMagic

/-- What is wrong with an image that ends like a sealed one. -/
inductive Defect (image : Bytes) : LoadError → Prop
  | tooLong (body record : Bytes) (hrecord : record.length = 40)
      (himage : image = body ++ (record ++ closingMagic))
      (hlong : body.length < Bytes.toNat (record.take 8)) :
      Defect image (.malformedTable
        (.payloadExceedsImage (Bytes.toNat (record.take 8)) body.length))
  | altered (base payload recorded : Bytes) (hrecorded : recorded.length = 32)
      (hpayload : payload.length < 2 ^ 64)
      (himage : image = base ++ payload ++ Bytes.ofNat 8 payload.length ++ recorded ++ closingMagic)
      (hdiffers : Sha256.digest payload ≠ recorded) :
      Defect image (.digestMismatch recorded (Sha256.digest payload))
  | undecodable (base payload : Bytes) (e : LoadError) (h : SealedOnto image base payload)
      (hdecode : decode payload = .error e) : Defect image e

theorem capacity_eight : capacity 8 = 2 ^ 64 := by decide

/-- The sections of an image, written out. -/
theorem sections_eq_some_iff_append (image base payload recorded : Bytes) :
    sections image = .ok (some ⟨base, payload, recorded⟩) ↔
      recorded.length = 32 ∧ payload.length < 2 ^ 64 ∧
        image = base ++ payload ++ Bytes.ofNat 8 payload.length ++ recorded ++ closingMagic := by
  rw [sections_eq_some_iff, Sections.image]
  simp only [← List.append_assoc]
  constructor
  · rintro ⟨⟨hrecorded, hpayload⟩, himage⟩
    exact ⟨hrecorded, capacity_eight ▸ hpayload, himage⟩
  · rintro ⟨hrecorded, hpayload, himage⟩
    exact ⟨⟨hrecorded, capacity_eight ▸ hpayload⟩, himage⟩

theorem sealedOnto_iff (image base payload : Bytes) :
    SealedOnto image base payload ↔
      sections image = .ok (some ⟨base, payload, Sha256.digest payload⟩) := by
  rw [sections_eq_some_iff_append]
  constructor
  · rintro ⟨hpayload, himage⟩
    exact ⟨Sha256.length_digest payload, hpayload, himage⟩
  · rintro ⟨_, hpayload, himage⟩
    exact ⟨hpayload, himage⟩

theorem isSealed_eq_false_iff (image : Bytes) :
    isSealed image = false ↔ image.length < trailerLength ∨ ¬ closingMagic <:+ image := by
  rw [isSealed, Bool.and_eq_false_iff, decide_eq_false_iff_not, Nat.not_le,
    ← List.isSuffixOf_iff_suffix, Bool.not_eq_true]

theorem sections_of_plain {image : Bytes} (h : isSealed image = false) :
    sections image = .ok none := by
  simp [sections, h]

theorem ofImage_of_plain {image : Bytes} (h : isSealed image = false) :
    ofImage image = .ok none := by
  rw [ofImage, sections_of_plain h]
  rfl

theorem strip_of_plain {image : Bytes} (h : isSealed image = false) :
    strip image = .ok image := by
  rw [strip, sections_of_plain h]
  rfl

/-- What is read of an image that has been taken apart. -/
theorem ofImage_of_sections {image : Bytes} {parts : Sections}
    (h : sections image = .ok (some parts)) :
    ofImage image = if Sha256.digest parts.payload ≠ parts.digest then
      .error (.digestMismatch parts.digest (Sha256.digest parts.payload))
    else (decode parts.payload).map some := by
  rw [ofImage, h]
  simp only [bind, Except.bind, pure, Except.pure]
  split
  · rfl
  · cases decode parts.payload with
    | error e => rfl
    | ok table => rfl

theorem SealedOnto.ofImage_eq {image base payload : Bytes} (h : SealedOnto image base payload) :
    ofImage image = (decode payload).map some := by
  rw [ofImage_of_sections ((sealedOnto_iff image base payload).1 h)]
  simp

theorem Defect.ofImage_eq {image : Bytes} {e : LoadError} (h : Defect image e) :
    ofImage image = .error e := by
  cases h with
  | tooLong body record hrecord himage hlong =>
    subst himage
    rw [ofImage, sections_sealed body record hrecord]
    simp only [if_pos hlong]
    rfl
  | altered base payload recorded hrecorded hpayload himage hdiffers =>
    have hparts := (sections_eq_some_iff_append image base payload recorded).2
      ⟨hrecorded, hpayload, himage⟩
    rw [ofImage_of_sections hparts, if_pos hdiffers]
  | undecodable base payload e hsealed hdecode =>
    rw [hsealed.ofImage_eq, hdecode]
    rfl

/-- There are no other images. -/
theorem recognised (image : Bytes) :
    (∃ base payload table, SealedOnto image base payload ∧ decode payload = .ok table) ∨
      isSealed image = false ∨ ∃ e, Defect image e := by
  cases hsealed : isSealed image with
  | false => exact .inr (.inl rfl)
  | true =>
    obtain ⟨body, record, himage, hrecord⟩ := (isSealed_iff image).1 hsealed
    by_cases hlong : body.length < Bytes.toNat (record.take 8)
    · exact .inr (.inr ⟨_, .tooLong body record hrecord himage hlong⟩)
    · have hparts := sections_sealed body record hrecord
      simp only [if_neg hlong] at hparts
      rw [← himage] at hparts
      generalize body.take _ = base, body.drop _ = payload, record.drop 8 = recorded at hparts
      obtain ⟨hrecorded, hpayload, hwhole⟩ :=
        (sections_eq_some_iff_append image base payload recorded).1 hparts
      by_cases hdiffers : Sha256.digest payload = recorded
      · subst hdiffers
        cases hdecode : decode payload with
        | error e => exact .inr (.inr ⟨e, .undecodable base payload e ⟨hpayload, hwhole⟩ hdecode⟩)
        | ok table => exact .inl ⟨base, payload, table, ⟨hpayload, hwhole⟩, hdecode⟩
      · exact .inr (.inr ⟨_, .altered base payload recorded hrecorded hpayload hwhole hdiffers⟩)

theorem ofImage_eq_some_iff (image : Bytes) (table : Table) :
    ofImage image = .ok (some table) ↔
      ∃ base payload, SealedOnto image base payload ∧ decode payload = .ok table := by
  constructor
  · intro h
    rcases recognised image with ⟨base, payload, found, hsealed, hdecode⟩ | hplain | ⟨e, hdefect⟩
    · rw [hsealed.ofImage_eq, hdecode] at h
      cases h
      exact ⟨base, payload, hsealed, hdecode⟩
    · simp [ofImage_of_plain hplain] at h
    · simp [hdefect.ofImage_eq] at h
  · rintro ⟨base, payload, hsealed, hdecode⟩
    rw [hsealed.ofImage_eq, hdecode]
    rfl

theorem ofImage_eq_none_iff (image : Bytes) :
    ofImage image = .ok none ↔ isSealed image = false := by
  constructor
  · intro h
    rcases recognised image with ⟨base, payload, found, hsealed, hdecode⟩ | hplain | ⟨e, hdefect⟩
    · simp [hsealed.ofImage_eq, hdecode, Except.map] at h
    · exact hplain
    · simp [hdefect.ofImage_eq] at h
  · exact ofImage_of_plain

/-- An image is refused for exactly the defect that it has. -/
theorem ofImage_eq_error_iff (image : Bytes) (e : LoadError) :
    ofImage image = .error e ↔ Defect image e := by
  constructor
  · intro h
    rcases recognised image with
      ⟨base, payload, found, hsealed, hdecode⟩ | hplain | ⟨fault, hdefect⟩
    · simp [hsealed.ofImage_eq, hdecode, Except.map] at h
    · simp [ofImage_of_plain hplain] at h
    · rw [hdefect.ofImage_eq] at h
      cases h
      exact hdefect
  · exact Defect.ofImage_eq

theorem strip_of_sealedOnto {image base payload : Bytes} (h : SealedOnto image base payload) :
    strip image = .ok base := by
  rw [strip, (sealedOnto_iff image base payload).1 h]
  rfl

theorem SealedOnto.unique {image base payload base' payload' : Bytes}
    (h : SealedOnto image base payload) (h' : SealedOnto image base' payload') :
    base' = base ∧ payload' = payload := by
  have hsame := ((sealedOnto_iff image base' payload').1 h').symm.trans
    ((sealedOnto_iff image base payload).1 h)
  simp only [Except.ok.injEq, Option.some.injEq, Sections.mk.injEq] at hsame
  exact ⟨hsame.1, hsame.2.1⟩

/-- A payload whose bytes are changed under the digest of the old ones. -/
theorem SealedOnto.ofImage_changed {image base payload changed : Bytes}
    (h : SealedOnto image base payload) (hlength : changed.length = payload.length)
    (hdigest : Sha256.digest changed ≠ Sha256.digest payload) :
    ofImage (base ++ changed ++ Bytes.ofNat 8 payload.length ++ Sha256.digest payload ++
        closingMagic) =
      .error (.digestMismatch (Sha256.digest payload) (Sha256.digest changed)) := by
  have hlt : changed.length < 2 ^ 64 := hlength ▸ h.payload_lt
  rw [← hlength]
  exact Defect.ofImage_eq (.altered base changed _ (Sha256.length_digest payload) hlt rfl hdigest)

/-- An image carries a table exactly if it ends in a sealed payload that decodes, is
left as it is exactly if it has no trailer, and is refused otherwise. -/
theorem ofImage_recognises (image : Bytes) :
    (∀ table, ofImage image = .ok (some table) ↔
      ∃ base payload, SealedOnto image base payload ∧ decode payload = .ok table) ∧
    (∀ base payload, SealedOnto image base payload → strip image = .ok base ∧
      ∀ base' payload', SealedOnto image base' payload' → base' = base ∧ payload' = payload) ∧
    (ofImage image = .ok none ↔ image.length < trailerLength ∨ ¬ closingMagic <:+ image) ∧
    (ofImage image = .ok none → strip image = .ok image) ∧
    ((∃ e, ofImage image = .error e) ↔
      (trailerLength ≤ image.length ∧ closingMagic <:+ image) ∧
        ¬ ∃ base payload table, SealedOnto image base payload ∧ decode payload = .ok table) ∧
    (∀ e, ofImage image = .error e ↔ Defect image e) ∧
    sectionsChecked image = some (sections image) ∧
    (∀ base payload changed, SealedOnto image base payload → changed.length = payload.length →
      Sha256.digest changed ≠ Sha256.digest payload →
      ofImage (base ++ changed ++ Bytes.ofNat 8 payload.length ++ Sha256.digest payload ++
          closingMagic) =
        .error (.digestMismatch (Sha256.digest payload) (Sha256.digest changed))) := by
  have hnone : ofImage image = .ok none ↔
      image.length < trailerLength ∨ ¬ closingMagic <:+ image := by
    rw [ofImage_eq_none_iff, isSealed_eq_false_iff]
  refine ⟨ofImage_eq_some_iff image, ?_, hnone, ?_, ?_, ofImage_eq_error_iff image,
    sectionsChecked_eq image, fun base payload changed h => h.ofImage_changed⟩
  · exact fun base payload h => ⟨strip_of_sealedOnto h, fun base' payload' h' => h.unique h'⟩
  · intro h
    rw [strip, sections_of_plain ((ofImage_eq_none_iff image).1 h)]
    rfl
  · have htrailer : (trailerLength ≤ image.length ∧ closingMagic <:+ image) ↔
        ofImage image ≠ .ok none := by
      rw [ne_eq, hnone, not_or, Nat.not_lt, not_not]
    rw [htrailer]
    constructor
    · rintro ⟨e, he⟩
      refine ⟨by simp [he], ?_⟩
      rintro ⟨base, payload, table, htable⟩
      simp [(ofImage_eq_some_iff image table).2 ⟨base, payload, htable⟩] at he
    · rintro ⟨hnot, htable⟩
      rcases recognised image with hsealed | hplain | ⟨e, hdefect⟩
      · exact absurd hsealed htable
      · exact absurd (ofImage_of_plain hplain) hnot
      · exact ⟨e, hdefect.ofImage_eq⟩

end Table

end ModuleLoading
