import Mathlib.Data.List.Basic
import Mathlib.Tactic.IntervalCases
import ModuleLoading.Text.Split
import ModuleLoading.Text.Utf8

/-!
Decoding is the inverse of encoding. Both follow the table of well-formed byte
sequences, `Spells`: a character is written as the sequence that spells it, and a
first byte with the ranges it announces admits just these sequences. A byte string
decodes to a text if and only if it is how the text is written.
-/
namespace ModuleLoading.Utf8

/-- The byte sequences of UTF-8, each with the scalar value it stands for. -/
inductive Spells : UInt8 → Bytes → Nat → Prop
  | one (x : Nat) (hx : x < 0x80) : Spells (.ofNat x) [] x
  | two (x y : Nat) (hx : x < 0x20) (hy : y < 0x40) (hvalue : 0x80 ≤ x * 0x40 + y) :
    Spells (.ofNat (x + 0xC0)) [.ofNat (y + 0x80)] (x * 0x40 + y)
  | three (x y z : Nat) (hx : x < 0x10) (hy : y < 0x40) (hz : z < 0x40)
      (hvalue : 0x800 ≤ (x * 0x40 + y) * 0x40 + z)
      (hsurrogate : (x * 0x40 + y) * 0x40 + z < 0xD800 ∨ 0xDFFF < (x * 0x40 + y) * 0x40 + z) :
    Spells (.ofNat (x + 0xE0)) [.ofNat (y + 0x80), .ofNat (z + 0x80)] ((x * 0x40 + y) * 0x40 + z)
  | four (x y z w : Nat) (hx : x < 8) (hy : y < 0x40) (hz : z < 0x40) (hw : w < 0x40)
      (hvalue : 0x10000 ≤ ((x * 0x40 + y) * 0x40 + z) * 0x40 + w)
      (hlast : ((x * 0x40 + y) * 0x40 + z) * 0x40 + w < 0x110000) :
    Spells (.ofNat (x + 0xF0)) [.ofNat (y + 0x80), .ofNat (z + 0x80), .ofNat (w + 0x80)]
      (((x * 0x40 + y) * 0x40 + z) * 0x40 + w)

theorem Spells.valid {b : UInt8} {tail : Bytes} {value : Nat} (h : Spells b tail value) :
    value.isValidChar := by
  rw [Nat.isValidChar]
  cases h with
  | one x hx => omega
  | two x y hx hy hvalue => omega
  | three x y z hx hy hz hvalue hsurrogate => omega
  | four x y z w hx hy hz hw hvalue hlast => omega

/-- Characters are written as the sequences that spell them. -/
theorem spells_encodeChar (c : Char) :
    ∃ b tail, String.utf8EncodeChar c = b :: tail ∧ Spells b tail c.toNat := by
  have hvalid : c.toNat < 0xD800 ∨ (0xDFFF < c.toNat ∧ c.toNat < 0x110000) := c.valid
  have hc : c.val.toNat = c.toNat := rfl
  simp only [String.utf8EncodeChar, hc]
  generalize c.toNat = v at hvalid
  by_cases hone : v ≤ 0x7f
  · rw [if_pos hone]
    exact ⟨_, _, rfl, .one v (by omega)⟩
  by_cases htwo : v ≤ 0x7ff
  · rw [if_neg hone, if_pos htwo]
    refine ⟨_, _, rfl, ?_⟩
    have hvalue : v / 64 % 32 * 64 + v % 64 = v := by omega
    have hspells := Spells.two (v / 64 % 32) (v % 64) (by omega) (by omega) (by omega)
    rwa [hvalue] at hspells
  by_cases hthree : v ≤ 0xffff
  · rw [if_neg hone, if_neg htwo, if_pos hthree]
    refine ⟨_, _, rfl, ?_⟩
    have hvalue : (v / 4096 % 16 * 64 + v / 64 % 64) * 64 + v % 64 = v := by omega
    have hspells := Spells.three (v / 4096 % 16) (v / 64 % 64) (v % 64) (by omega) (by omega)
      (by omega) (by omega) (by omega)
    rwa [hvalue] at hspells
  · rw [if_neg hone, if_neg htwo, if_neg hthree]
    refine ⟨_, _, rfl, ?_⟩
    have hvalue : ((v / 262144 % 8 * 64 + v / 4096 % 64) * 64 + v / 64 % 64) * 64 + v % 64 = v := by
      omega
    have hspells := Spells.four (v / 262144 % 8) (v / 4096 % 64) (v / 64 % 64) (v % 64) (by omega)
      (by omega) (by omega) (by omega) (by omega) (by omega)
    rwa [hvalue] at hspells

/-- Every sequence is how its character is written. -/
theorem encodeChar_of_spells (b : UInt8) (tail : Bytes) (value : Nat)
    (h : Spells b tail value) : String.utf8EncodeChar (Char.ofNat value) = b :: tail := by
  have hvalue : (Char.ofNat value).val.toNat = value := by
    rw [Char.ofNat, dif_pos h.valid]
    rfl
  simp only [String.utf8EncodeChar, hvalue]
  cases h with
  | one x hx => rw [if_pos (by omega)]
  | two x y hx hy hlow =>
    rw [if_neg (by omega), if_pos (by omega)]
    have hlead : (x * 0x40 + y) / 64 % 32 = x := by omega
    have hlast : (x * 0x40 + y) % 64 = y := by omega
    rw [hlead, hlast]
  | three x y z hx hy hz hlow hsurrogate =>
    rw [if_neg (by omega), if_neg (by omega), if_pos (by omega)]
    have hlead : ((x * 0x40 + y) * 0x40 + z) / 4096 % 16 = x := by omega
    have hmiddle : ((x * 0x40 + y) * 0x40 + z) / 64 % 64 = y := by omega
    have hlast : ((x * 0x40 + y) * 0x40 + z) % 64 = z := by omega
    rw [hlead, hmiddle, hlast]
  | four x y z w hx hy hz hw hlow hhigh =>
    rw [if_neg (by omega), if_neg (by omega), if_neg (by omega)]
    have hlead : (((x * 0x40 + y) * 0x40 + z) * 0x40 + w) / 262144 % 8 = x := by omega
    have hsecond : (((x * 0x40 + y) * 0x40 + z) * 0x40 + w) / 4096 % 64 = y := by omega
    have hthird : (((x * 0x40 + y) * 0x40 + z) * 0x40 + w) / 64 % 64 = z := by omega
    have hlast : (((x * 0x40 + y) * 0x40 + z) * 0x40 + w) % 64 = w := by omega
    rw [hlead, hsecond, hthird, hlast]

theorem toNat_ofNat_of_lt (n : Nat) (h : n < 256) : (UInt8.ofNat n).toNat = n := by
  rw [UInt8.toNat_ofNat']
  exact Nat.mod_eq_of_lt h

/-- A byte below 0x80 is a whole sequence. -/
theorem Spells.eq_of_mem {b x : UInt8} {tail : Bytes} {value : Nat} (h : Spells b tail value)
    (hmem : x ∈ b :: tail) (hx : x.toNat < 0x80) : value = x.toNat := by
  have hlate : ∀ n, 0x80 ≤ n → n < 0x100 → x ≠ .ofNat n := by
    rintro n hlow hhigh rfl
    rw [toNat_ofNat_of_lt n hhigh] at hx
    omega
  cases h with
  | one value hvalue =>
    rw [List.mem_singleton.1 hmem, toNat_ofNat_of_lt value (by omega)]
  | two y z hy hz hvalue =>
    simp only [List.mem_cons, List.not_mem_nil, or_false] at hmem
    rcases hmem with h | h
    · exact absurd h (hlate _ (by omega) (by omega))
    · exact absurd h (hlate _ (by omega) (by omega))
  | three y z w hy hz hw hvalue hsurrogate =>
    simp only [List.mem_cons, List.not_mem_nil, or_false] at hmem
    rcases hmem with h | h | h
    · exact absurd h (hlate _ (by omega) (by omega))
    · exact absurd h (hlate _ (by omega) (by omega))
    · exact absurd h (hlate _ (by omega) (by omega))
  | four y z w v hy hz hw hv hvalue hlast =>
    simp only [List.mem_cons, List.not_mem_nil, or_false] at hmem
    rcases hmem with h | h | h | h
    · exact absurd h (hlate _ (by omega) (by omega))
    · exact absurd h (hlate _ (by omega) (by omega))
    · exact absurd h (hlate _ (by omega) (by omega))
    · exact absurd h (hlate _ (by omega) (by omega))

/-- The byte of a character is in no other one. -/
theorem eq_of_mem_encodeChar (c d : Char) (hd : d.toNat < 0x80)
    (h : UInt8.ofNat d.toNat ∈ String.utf8EncodeChar c) : c = d := by
  obtain ⟨b, tail, heq, hspells⟩ := spells_encodeChar c
  have hbyte : (UInt8.ofNat d.toNat).toNat = d.toNat := toNat_ofNat_of_lt d.toNat (by omega)
  have hvalue := hspells.eq_of_mem (heq ▸ h) (by omega)
  rw [hbyte] at hvalue
  exact Char.toNat_inj.1 hvalue

theorem encodeChar_of_lt (c : Char) (hc : c.toNat < 0x80) :
    String.utf8EncodeChar c = [.ofNat c.toNat] := by
  have hencode := encodeChar_of_spells _ _ _ (.one c.toNat hc)
  rwa [Char.ofNat_toNat] at hencode

theorem mem_flatMap_encodeChar_iff (c : Char) (hc : c.toNat < 0x80) (chars : List Char) :
    UInt8.ofNat c.toNat ∈ chars.flatMap String.utf8EncodeChar ↔ c ∈ chars := by
  rw [List.mem_flatMap]
  constructor
  · intro h
    obtain ⟨d, hd, hmem⟩ := h
    exact eq_of_mem_encodeChar d c hc hmem ▸ hd
  · intro h
    exact ⟨c, h, by rw [encodeChar_of_lt c hc]; exact List.mem_singleton_self _⟩

section Separators

variable (sep : Char) (hsep : sep.toNat < 0x80)

include hsep

theorem flatMap_join (pieces : List (List Char)) :
    (Text.join sep pieces).flatMap String.utf8EncodeChar =
      Text.join (.ofNat sep.toNat) (pieces.map fun piece => piece.flatMap String.utf8EncodeChar) := by
  induction pieces with
  | nil => rfl
  | cons piece rest ih =>
    cases rest with
    | nil => rfl
    | cons next rest =>
      have hcons : Text.join sep (piece :: next :: rest) =
          piece ++ sep :: Text.join sep (next :: rest) := rfl
      rw [hcons, List.flatMap_append, List.flatMap_cons, ih, encodeChar_of_lt sep hsep]
      rfl

/-- Cutting at a character of one byte is cutting at its byte. -/
theorem split_flatMap (chars : List Char) :
    Text.split (.ofNat sep.toNat) (chars.flatMap String.utf8EncodeChar) =
      (Text.split sep chars).map fun piece => piece.flatMap String.utf8EncodeChar := by
  have hjoin := flatMap_join sep hsep (Text.split sep chars)
  rw [Text.join_split] at hjoin
  rw [hjoin]
  refine Text.split_join _ _ ?_ ?_
  · exact fun hnil => Text.split_ne_nil sep chars (List.map_eq_nil_iff.1 hnil)
  · intro piece hpiece hmem
    obtain ⟨inner, hinner, rfl⟩ := List.mem_map.1 hpiece
    exact Text.notMem_of_mem_split sep chars inner hinner
      ((mem_flatMap_encodeChar_iff sep hsep inner).1 hmem)

end Separators

/-- The range of the second byte after a first one with the bits `x`: it starts late
after the least bits and ends early after the last ones. -/
def second (start last stop x : Nat) : Nat × Nat :=
  if x = 0 then (start, 0xBF) else if x = last then (0x80, stop) else continuation

theorem lead?_one (x : Nat) (hx : x < 0x80) : lead? (.ofNat x) = some ⟨x, []⟩ := by
  rw [lead?, toNat_ofNat_of_lt x (by omega)]
  exact if_pos hx

theorem lead?_two (x : Nat) (hlow : 2 ≤ x) (hx : x < 0x20) :
    lead? (.ofNat (x + 0xC0)) = some ⟨x, [continuation]⟩ := by
  rw [lead?, toNat_ofNat_of_lt _ (by omega)]
  have hbits : (x + 0xC0) % 32 = x := by omega
  simp only [hbits]
  rw [if_neg (by omega), if_neg (by omega), if_pos (by omega)]

theorem lead?_three (x : Nat) (hx : x < 0x10) :
    lead? (.ofNat (x + 0xE0)) = some ⟨x, [second 0xA0 0xD 0x9F x, continuation]⟩ := by
  interval_cases x <;> rfl

theorem lead?_four (x : Nat) (hx : x ≤ 4) :
    lead? (.ofNat (x + 0xF0)) = some ⟨x, [second 0x90 4 0x8F x, continuation, continuation]⟩ := by
  interval_cases x <;> rfl

theorem lead?_none (n : Nat) (hn : n < 256) (h : (0x80 ≤ n ∧ n < 0xC2) ∨ 0xF4 < n) :
    lead? (.ofNat n) = none := by
  rw [lead?, toNat_ofNat_of_lt n hn]
  rcases h with ⟨hlow, hhigh⟩ | hhigh
  · simp only [if_neg (show ¬ n < 0x80 by omega), if_pos hhigh]
  · simp only [if_neg (show ¬ n < 0x80 by omega), if_neg (show ¬ n < 0xC2 by omega),
      if_neg (show ¬ n < 0xE0 by omega), if_neg (show ¬ n = 0xE0 by omega),
      if_neg (show ¬ n = 0xED by omega), if_neg (show ¬ n < 0xF0 by omega),
      if_neg (show ¬ n = 0xF0 by omega), if_neg (show ¬ n < 0xF4 by omega),
      if_neg (show ¬ n = 0xF4 by omega)]

theorem lead?_cases (b : UInt8) (lead : Lead) (h : lead? b = some lead) :
    (∃ x < 0x80, b = .ofNat x ∧ lead = ⟨x, []⟩) ∨
    (∃ x < 0x20, 2 ≤ x ∧ b = .ofNat (x + 0xC0) ∧ lead = ⟨x, [continuation]⟩) ∨
    (∃ x < 0x10, b = .ofNat (x + 0xE0) ∧ lead = ⟨x, [second 0xA0 0xD 0x9F x, continuation]⟩) ∨
    (∃ x ≤ 4, b = .ofNat (x + 0xF0) ∧
      lead = ⟨x, [second 0x90 4 0x8F x, continuation, continuation]⟩) := by
  have hb : b = .ofNat b.toNat := UInt8.ofNat_toNat.symm
  have hsize : b.toNat < 256 := b.toNat_lt
  generalize b.toNat = n at hb hsize
  subst hb
  by_cases hone : n < 0x80
  · rw [lead?_one n hone] at h
    exact .inl ⟨n, hone, rfl, (Option.some.inj h).symm⟩
  by_cases hnone : n < 0xC2 ∨ 0xF4 < n
  · rw [lead?_none n hsize (by omega)] at h
    cases h
  by_cases htwo : n < 0xE0
  · obtain ⟨x, rfl⟩ : ∃ x, n = x + 0xC0 := ⟨n - 0xC0, by omega⟩
    rw [lead?_two x (by omega) (by omega)] at h
    exact .inr (.inl ⟨x, by omega, by omega, rfl, (Option.some.inj h).symm⟩)
  by_cases hthree : n < 0xF0
  · obtain ⟨x, rfl⟩ : ∃ x, n = x + 0xE0 := ⟨n - 0xE0, by omega⟩
    rw [lead?_three x (by omega)] at h
    exact .inr (.inr (.inl ⟨x, by omega, rfl, (Option.some.inj h).symm⟩))
  · obtain ⟨x, rfl⟩ : ∃ x, n = x + 0xF0 := ⟨n - 0xF0, by omega⟩
    rw [lead?_four x (by omega)] at h
    exact .inr (.inr (.inr ⟨x, by omega, rfl, (Option.some.inj h).symm⟩))

/-- A first byte with as many fitting bytes after it as it asks for. -/
def Reads (b : UInt8) (tail : Bytes) (value : Nat) : Prop :=
  ∃ lead, lead? b = some lead ∧ tail.length = lead.tail.length ∧
    fitting lead.tail tail = tail.length ∧ scalarValue lead.bits tail = value

theorem fitting_cons_iff (range : Nat × Nat) (ranges : List (Nat × Nat)) (b : UInt8)
    (tail : Bytes) :
    fitting (range :: ranges) (b :: tail) = (b :: tail).length ↔
      (range.1 ≤ b.toNat ∧ b.toNat ≤ range.2) ∧ fitting ranges tail = tail.length := by
  rw [fitting, List.length_cons]
  by_cases hrange : range.1 ≤ b.toNat ∧ b.toNat ≤ range.2
  · rw [if_pos hrange, Nat.add_right_cancel_iff]
    exact ⟨fun h => ⟨hrange, h⟩, fun h => h.2⟩
  · rw [if_neg hrange]
    constructor
    · intro h
      omega
    · intro h
      exact absurd h.1 hrange

theorem scalarValue_cons (bits y : Nat) (hy : y < 0x40) (tail : Bytes) :
    scalarValue bits (.ofNat (y + 0x80) :: tail) = scalarValue (bits * 0x40 + y) tail := by
  have hdigit : (y + 0x80) % 64 = y := by omega
  rw [scalarValue, List.foldl_cons, toNat_ofNat_of_lt _ (by omega), hdigit]
  rfl

/-- A byte in a range of following bytes is a digit of six bits with its mark. -/
theorem within_iff (range : Nat × Nat) (hlow : 0x80 ≤ range.1) (hhigh : range.2 ≤ 0xBF)
    (b : UInt8) :
    (range.1 ≤ b.toNat ∧ b.toNat ≤ range.2) ↔
      ∃ y < 0x40, b = .ofNat (y + 0x80) ∧ range.1 ≤ y + 0x80 ∧ y + 0x80 ≤ range.2 := by
  constructor
  · rintro ⟨hfrom, hto⟩
    have hy : b.toNat - 0x80 + 0x80 = b.toNat := by omega
    refine ⟨b.toNat - 0x80, by omega, ?_, by omega, by omega⟩
    rw [hy, UInt8.ofNat_toNat]
  · rintro ⟨y, hy, rfl, hfrom, hto⟩
    rw [toNat_ofNat_of_lt _ (by omega)]
    exact ⟨hfrom, hto⟩

theorem within_continuation_iff (b : UInt8) :
    (continuation.1 ≤ b.toNat ∧ b.toNat ≤ continuation.2) ↔
      ∃ y < 0x40, b = .ofNat (y + 0x80) := by
  rw [within_iff continuation (by decide) (by decide)]
  constructor
  · rintro ⟨y, hy, hb, _, _⟩
    exact ⟨y, hy, hb⟩
  · rintro ⟨y, hy, hb⟩
    refine ⟨y, hy, hb, ?_, ?_⟩
    · show 0x80 ≤ y + 0x80
      omega
    · show y + 0x80 ≤ 0xBF
      omega

theorem within_second_iff (start last stop x : Nat) (hstart : 0x80 ≤ start) (hlast : last ≠ 0)
    (hstop : stop ≤ 0xBF) (b : UInt8) :
    ((second start last stop x).1 ≤ b.toNat ∧ b.toNat ≤ (second start last stop x).2) ↔
      ∃ y < 0x40, b = .ofNat (y + 0x80) ∧
        (x = 0 → start ≤ y + 0x80) ∧ (x = last → y + 0x80 ≤ stop) := by
  have hbounds : 0x80 ≤ (second start last stop x).1 ∧ (second start last stop x).2 ≤ 0xBF ∧
      ∀ y < 0x40, ((second start last stop x).1 ≤ y + 0x80 ∧
        y + 0x80 ≤ (second start last stop x).2) ↔
          (x = 0 → start ≤ y + 0x80) ∧ (x = last → y + 0x80 ≤ stop) := by
    rw [second]
    split
    · exact ⟨hstart, Nat.le_refl 0xBF, fun y hy => by omega⟩
    · split
      · exact ⟨Nat.le_refl 0x80, hstop, fun y hy => by omega⟩
      · refine ⟨by decide, by decide, fun y hy => ?_⟩
        simp only [continuation]
        omega
  obtain ⟨hlow, hhigh, hdigit⟩ := hbounds
  rw [within_iff _ hlow hhigh]
  exact exists_congr fun y => and_congr_right fun hy => and_congr_right fun _ => hdigit y hy

/-- The second of three bytes leaves out what two bytes spell, and the surrogates. -/
theorem within_secondOfThree_iff (x : Nat) (b : UInt8) :
    ((second 0xA0 0xD 0x9F x).1 ≤ b.toNat ∧ b.toNat ≤ (second 0xA0 0xD 0x9F x).2) ↔
      ∃ y < 0x40, b = .ofNat (y + 0x80) ∧ (x = 0 → 0xA0 ≤ y + 0x80) ∧
        (x = 0xD → y + 0x80 ≤ 0x9F) :=
  within_second_iff 0xA0 0xD 0x9F x (by decide) (by decide) (by decide) b

/-- The second of four bytes leaves out what three bytes spell, and what lies beyond
the last scalar value. -/
theorem within_secondOfFour_iff (x : Nat) (b : UInt8) :
    ((second 0x90 4 0x8F x).1 ≤ b.toNat ∧ b.toNat ≤ (second 0x90 4 0x8F x).2) ↔
      ∃ y < 0x40, b = .ofNat (y + 0x80) ∧ (x = 0 → 0x90 ≤ y + 0x80) ∧
        (x = 4 → y + 0x80 ≤ 0x8F) :=
  within_second_iff 0x90 4 0x8F x (by decide) (by decide) (by decide) b

/-- What is read off a first byte and the bytes after it is what they spell. -/
theorem reads_of_spells (b : UInt8) (tail : Bytes) (value : Nat) (h : Spells b tail value) :
    Reads b tail value := by
  have hlast : ∀ y < 0x40, continuation.1 ≤ (UInt8.ofNat (y + 0x80)).toNat ∧
      (UInt8.ofNat (y + 0x80)).toNat ≤ continuation.2 :=
    fun y hy => (within_continuation_iff _).2 ⟨y, hy, rfl⟩
  cases h with
  | one _ hx => exact ⟨_, lead?_one value hx, rfl, rfl, rfl⟩
  | two x y hx hy hvalue =>
    refine ⟨_, lead?_two x (by omega) hx, rfl, ?_, ?_⟩
    · exact (fitting_cons_iff _ _ _ _).2 ⟨hlast y hy, rfl⟩
    · exact scalarValue_cons x y hy []
  | three x y z hx hy hz hvalue hsurrogate =>
    have hsecond := (within_secondOfThree_iff x (.ofNat (y + 0x80))).2
      ⟨y, hy, rfl, by omega, by omega⟩
    refine ⟨_, lead?_three x hx, rfl, ?_, ?_⟩
    · rw [fitting_cons_iff, fitting_cons_iff]
      exact ⟨hsecond, hlast z hz, rfl⟩
    · rw [scalarValue_cons x y hy, scalarValue_cons _ z hz]
      rfl
  | four x y z w hx hy hz hw hvalue hhigh =>
    have hsecond := (within_secondOfFour_iff x (.ofNat (y + 0x80))).2
      ⟨y, hy, rfl, by omega, by omega⟩
    refine ⟨_, lead?_four x (by omega), rfl, ?_, ?_⟩
    · rw [fitting_cons_iff, fitting_cons_iff, fitting_cons_iff]
      exact ⟨hsecond, hlast z hz, hlast w hw, rfl⟩
    · rw [scalarValue_cons x y hy, scalarValue_cons _ z hz, scalarValue_cons _ w hw]
      rfl

theorem spells_of_reads (b : UInt8) (tail : Bytes) (value : Nat) (h : Reads b tail value) :
    Spells b tail value := by
  obtain ⟨lead, hlead, hlength, hfits, rfl⟩ := h
  rcases lead?_cases b lead hlead with ⟨x, hx, rfl, rfl⟩ | ⟨x, hx, hlow, rfl, rfl⟩ |
    ⟨x, hx, rfl, rfl⟩ | ⟨x, hx, rfl, rfl⟩
  · rw [List.length_eq_zero_iff.1 hlength]
    exact .one x hx
  · obtain ⟨second, rfl⟩ := List.length_eq_one_iff.1 hlength
    rw [fitting_cons_iff, within_continuation_iff] at hfits
    obtain ⟨⟨y, hy, rfl⟩, _⟩ := hfits
    rw [scalarValue_cons x y hy]
    exact .two x y hx hy (by omega)
  · obtain ⟨second, third, rfl⟩ := List.length_eq_two.1 hlength
    rw [fitting_cons_iff, fitting_cons_iff, within_secondOfThree_iff, within_continuation_iff]
      at hfits
    obtain ⟨⟨y, hy, rfl, hleast, hsurrogate⟩, ⟨z, hz, rfl⟩, _⟩ := hfits
    rw [scalarValue_cons x y hy, scalarValue_cons _ z hz]
    exact .three x y z hx hy hz (by omega) (by omega)
  · obtain ⟨second, third, fourth, rfl⟩ := List.length_eq_three.1 hlength
    rw [fitting_cons_iff, fitting_cons_iff, fitting_cons_iff, within_secondOfFour_iff,
      within_continuation_iff, within_continuation_iff] at hfits
    obtain ⟨⟨y, hy, rfl, hleast, hmost⟩, ⟨z, hz, rfl⟩, ⟨w, hw, rfl⟩, _⟩ := hfits
    rw [scalarValue_cons x y hy, scalarValue_cons _ z hz, scalarValue_cons _ w hw]
    exact .four x y z w (by omega) hy hz hw (by omega) (by omega)

/-- Only as many bytes are compared as there are ranges. -/
theorem fitting_append (ranges : List (Nat × Nat)) (tail rest : Bytes)
    (hlength : tail.length = ranges.length) :
    fitting ranges (tail ++ rest) = fitting ranges tail := by
  induction ranges generalizing tail with
  | nil =>
    rw [List.length_eq_zero_iff.1 hlength]
    simp [fitting]
  | cons range ranges ih =>
    cases tail with
    | nil => cases hlength
    | cons b tail =>
      rw [List.cons_append, fitting, fitting, ih tail (Nat.succ.inj hlength)]

theorem fitting_le_length (ranges : List (Nat × Nat)) (bytes : Bytes) :
    fitting ranges bytes ≤ bytes.length := by
  induction ranges generalizing bytes with
  | nil => simp [fitting]
  | cons range ranges ih =>
    cases bytes with
    | nil => simp [fitting]
    | cons b rest =>
      rw [fitting, List.length_cons]
      have hrest := ih rest
      split
      · omega
      · omega

/-- A character is read off the front of whatever its bytes stand before. -/
theorem pieces_encodeChar (c : Char) (rest : Bytes) :
    pieces (String.utf8EncodeChar c ++ rest) = .scalar c :: pieces rest := by
  obtain ⟨b, tail, hencode, hspells⟩ := spells_encodeChar c
  obtain ⟨lead, hlead, hlength, hfits, hvalue⟩ := reads_of_spells b tail c.toNat hspells
  have hall : fitting lead.tail (tail ++ rest) = tail.length := by
    rw [fitting_append lead.tail tail rest hlength, hfits]
  have htake : (tail ++ rest).take tail.length = tail := List.take_left
  have hdrop : (tail ++ rest).drop tail.length = rest := List.drop_left
  rw [hencode, List.cons_append, pieces, hlead]
  simp only [hall, if_pos hlength, htake, hdrop, hvalue, Char.ofNat_toNat]

theorem pieces_encode (text : String) : pieces (encode text) = text.toList.map .scalar := by
  rw [encode]
  induction text.toList with
  | nil => simp [pieces]
  | cons c rest ih => rw [List.flatMap_cons, pieces_encodeChar, ih, List.map_cons]

theorem firstFault_scalars (chars : List Char) (index : Nat) :
    firstFault index (chars.map .scalar) = none := by
  induction chars generalizing index with
  | nil => rfl
  | cons c rest ih => exact ih (index + c.utf8Size)

theorem decode_encode (text : String) : decode (encode text) = .ok text := by
  have hchars : (text.toList.map Piece.scalar).map Piece.char = text.toList := by
    rw [List.map_map]
    exact List.map_id _
  rw [decode, lossy, pieces_encode, firstFault_scalars, hchars, String.ofList_toList]

/-- Bytes that begin with a character are those of the character and the rest. -/
theorem encodeChar_append_drop (b : UInt8) (rest : Bytes) (lead : Lead)
    (hlead : lead? b = some lead) (hfits : fitting lead.tail rest = lead.tail.length) :
    String.utf8EncodeChar (Char.ofNat
        (scalarValue lead.bits (rest.take (fitting lead.tail rest)))) ++
      rest.drop (fitting lead.tail rest) = b :: rest := by
  have hle := fitting_le_length lead.tail rest
  have hlength : (rest.take (fitting lead.tail rest)).length = lead.tail.length := by
    rw [List.length_take, hfits]
    omega
  have htake : fitting lead.tail (rest.take (fitting lead.tail rest)) =
      (rest.take (fitting lead.tail rest)).length := by
    have happend := fitting_append lead.tail _ (rest.drop (fitting lead.tail rest)) hlength
    rw [List.take_append_drop] at happend
    rw [← happend, hlength, hfits]
  have hreads : Reads b (rest.take (fitting lead.tail rest)) _ :=
    ⟨lead, hlead, hlength, htake, rfl⟩
  rw [encodeChar_of_spells b _ _ (spells_of_reads b _ _ hreads), List.cons_append,
    List.take_append_drop]

theorem encode_of_firstFault (bytes : Bytes) (index : Nat)
    (h : firstFault index (pieces bytes) = none) :
    ((pieces bytes).map Piece.char).flatMap String.utf8EncodeChar = bytes := by
  fun_induction pieces bytes generalizing index with
  | case1 => rfl
  | case2 b rest hlead ih => cases h
  | case3 b rest lead hlead n hfits ih =>
    rw [List.map_cons, List.flatMap_cons, ih _ h]
    exact encodeChar_append_drop b rest lead hlead hfits
  | case4 b rest lead hlead n hfits hend => cases h
  | case5 b rest lead hlead n hfits hend ih => cases h

/-- The bytes of a text are the only ones that decode to it. -/
theorem decode_eq_ok_iff (bytes : Bytes) (text : String) :
    decode bytes = .ok text ↔ bytes = encode text := by
  constructor
  · intro h
    rw [decode] at h
    split at h
    · next hfault =>
      rw [← Except.ok.inj h, encode, lossy, String.toList_ofList]
      exact (encode_of_firstFault bytes 0 hfault).symm
    · cases h
  · rintro rfl
    exact decode_encode text

end ModuleLoading.Utf8
