import ModuleLoading.Digest.Sha256
import ModuleLoading.Table.Payload

/-!
An executable image can carry a table at its end: the payload, its length in
eight bytes, its digest and a closing magic. An image is read from the end, so
whatever comes before the payload is of no account, older tables included.
-/
namespace ModuleLoading.Table

def closingMagic : Bytes := Utf8.encode "SPCYTBL\x00"

/-- Length, digest and closing magic. -/
def trailerLength : Nat := 48

/-- A payload with its trailer. -/
def sealPayload (payload : Bytes) : Bytes :=
  payload ++ Bytes.ofNat 8 payload.length ++ Sha256.digest payload ++ closingMagic

def sealed (table : Table) : Except LoadError Bytes := do
  return sealPayload (← table.encode)

/-- An image taken apart, the digest being the recorded one. -/
structure Sections where
  base : Bytes
  payload : Bytes
  digest : Bytes
  deriving Repr, DecidableEq

def isSealed (image : Bytes) : Bool :=
  decide (trailerLength ≤ image.length) && closingMagic.isSuffixOf image

/-- None for an image that carries no table. -/
def sections (image : Bytes) : Except LoadError (Option Sections) :=
  if isSealed image then
    let bodyLength := image.length - trailerLength
    let trailer := image.drop bodyLength
    let payloadLength := Bytes.toNat (trailer.take 8)
    if bodyLength < payloadLength then
      .error (.malformedTable (.payloadExceedsImage payloadLength bodyLength))
    else
      let baseLength := bodyLength - payloadLength
      .ok (some ⟨image.take baseLength, (image.drop baseLength).take payloadLength,
        (trailer.drop 8).take 32⟩)
  else .ok none

/-- The image without the table it carries. -/
def strip (image : Bytes) : Except LoadError Bytes := do
  match ← sections image with
  | some parts => return parts.base
  | none => return image

def ofImage (image : Bytes) : Except LoadError (Option Table) := do
  match ← sections image with
  | none => return none
  | some parts =>
    let actual := Sha256.digest parts.payload
    if actual ≠ parts.digest then .error (.digestMismatch parts.digest actual)
    else return some (← decode parts.payload)

end ModuleLoading.Table
