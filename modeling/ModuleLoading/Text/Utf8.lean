import ModuleLoading.Bytes

/-!
UTF-8 between texts and byte strings. Bytes are first cut into pieces: whole
characters, and stretches that no character can begin with, each as long as the
longest run of bytes some character does begin with. Strict decoding reports the
first bad piece, lossy decoding replaces every bad piece by one U+FFFD.
-/
namespace ModuleLoading.Utf8

def encode (text : String) : Bytes := text.toList.flatMap String.utf8EncodeChar

/-- What a first byte announces: its own payload bits and the range that each
following byte has to lie in. -/
structure Lead where
  bits : Nat
  tail : List (Nat × Nat)

def continuation : Nat × Nat := (0x80, 0xBF)

def lead? (b : UInt8) : Option Lead :=
  let n := b.toNat
  if n < 0x80 then some ⟨n, []⟩
  else if n < 0xC2 then none
  else if n < 0xE0 then some ⟨n % 32, [continuation]⟩
  else if n = 0xE0 then some ⟨0, [(0xA0, 0xBF), continuation]⟩
  else if n = 0xED then some ⟨0xD, [(0x80, 0x9F), continuation]⟩
  else if n < 0xF0 then some ⟨n % 16, [continuation, continuation]⟩
  else if n = 0xF0 then some ⟨0, [(0x90, 0xBF), continuation, continuation]⟩
  else if n < 0xF4 then some ⟨n % 8, [continuation, continuation, continuation]⟩
  else if n = 0xF4 then some ⟨4, [(0x80, 0x8F), continuation, continuation]⟩
  else none

/-- How many leading bytes lie in the ranges asked of them. -/
def fitting : List (Nat × Nat) → Bytes → Nat
  | range :: ranges, b :: rest =>
    if range.1 ≤ b.toNat ∧ b.toNat ≤ range.2 then fitting ranges rest + 1 else 0
  | _, _ => 0

def scalarValue (bits : Nat) (tail : Bytes) : Nat :=
  tail.foldl (fun value b => value * 64 + b.toNat % 64) bits

inductive Piece
  | scalar (c : Char)
  /-- Bytes that begin no character, with something other than the end after them. -/
  | broken (width : Nat)
  /-- The beginning of a character that the end of the bytes cuts off. -/
  | cut
  deriving Repr, DecidableEq

def pieces : Bytes → List Piece
  | [] => []
  | b :: rest =>
    match lead? b with
    | none => .broken 1 :: pieces rest
    | some lead =>
      let n := fitting lead.tail rest
      if n = lead.tail.length then
        .scalar (Char.ofNat (scalarValue lead.bits (rest.take n))) :: pieces (rest.drop n)
      else if n = rest.length then [.cut]
      else .broken (n + 1) :: pieces (rest.drop n)
  termination_by bytes => bytes.length
  decreasing_by
    · exact Nat.lt_succ_self _
    · exact Nat.lt_succ_of_le (List.length_drop ▸ Nat.sub_le _ _)
    · exact Nat.lt_succ_of_le (List.length_drop ▸ Nat.sub_le _ _)

/-- The first defect of a byte string that is not UTF-8. -/
inductive Fault
  | invalid (width index : Nat)
  | incomplete (index : Nat)
  deriving Repr, DecidableEq

def Fault.message : Fault → String
  | .invalid width index =>
    "invalid utf-8 sequence of " ++ toString width ++ " bytes from index " ++ toString index
  | .incomplete index => "incomplete utf-8 byte sequence from index " ++ toString index

def firstFault (index : Nat) : List Piece → Option Fault
  | [] => none
  | .scalar c :: rest => firstFault (index + c.utf8Size) rest
  | .broken width :: _ => some (.invalid width index)
  | .cut :: _ => some (.incomplete index)

def Piece.char : Piece → Char
  | .scalar c => c
  | .broken _ | .cut => '\uFFFD'

def lossy (bytes : Bytes) : String := String.ofList ((pieces bytes).map Piece.char)

def decode (bytes : Bytes) : Except Fault String :=
  match firstFault 0 (pieces bytes) with
  | none => .ok (lossy bytes)
  | some fault => .error fault

def decode? (bytes : Bytes) : Option String := (decode bytes).toOption

end ModuleLoading.Utf8
