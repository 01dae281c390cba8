import ModuleLoading.Proofs.Utf8Codec

/-!
Texts stand in the order of the bytes they are written with. Of two characters the one
with the smaller scalar value has the smaller sequence: a longer sequence begins with a
greater byte, and sequences of one length are digits, the most significant first. No
sequence begins another, so the first characters that differ decide between two texts.
-/
namespace ModuleLoading.Utf8

theorem ofNat_lt_ofNat_iff (m n : Nat) (hm : m < 256) (hn : n < 256) :
    UInt8.ofNat m < UInt8.ofNat n ↔ m < n := by
  rw [UInt8.lt_iff_toNat_lt, toNat_ofNat_of_lt m hm, toNat_ofNat_of_lt n hn]

theorem ofNat_eq_ofNat_iff (m n : Nat) (hm : m < 256) (hn : n < 256) :
    UInt8.ofNat m = UInt8.ofNat n ↔ m = n := by
  rw [← UInt8.toNat_inj, toNat_ofNat_of_lt m hm, toNat_ofNat_of_lt n hn]

/-- One byte after another decides, from the first on. -/
theorem ofNat_cons_lt_iff (m n : Nat) (hm : m < 256) (hn : n < 256) (left right : Bytes) :
    UInt8.ofNat m :: left < UInt8.ofNat n :: right ↔ m < n ∨ m = n ∧ left < right := by
  rw [List.cons_lt_cons_iff, ofNat_lt_ofNat_iff m n hm hn, ofNat_eq_ofNat_iff m n hm hn]

/-- A smaller scalar value is spelled by smaller bytes, whatever comes after them. -/
theorem Spells.lt_of_lt {b b' : UInt8} {tail tail' : Bytes} {value value' : Nat}
    (h : Spells b tail value) (h' : Spells b' tail' value') (hlt : value < value')
    (left right : Bytes) : b :: (tail ++ left) < b' :: (tail' ++ right) := by
  cases h with
  | one x hx =>
    cases h' with
    | one x' hx' =>
      rw [ofNat_cons_lt_iff _ _ (by omega) (by omega)]
      omega
    | two x' y' hx' hy' hvalue' =>
      rw [ofNat_cons_lt_iff _ _ (by omega) (by omega)]
      omega
    | three x' y' z' hx' hy' hz' hvalue' hsurrogate' =>
      rw [ofNat_cons_lt_iff _ _ (by omega) (by omega)]
      omega
    | four x' y' z' w' hx' hy' hz' hw' hvalue' hlast' =>
      rw [ofNat_cons_lt_iff _ _ (by omega) (by omega)]
      omega
  | two x y hx hy hvalue =>
    cases h' with
    | one x' hx' => omega
    | two x' y' hx' hy' hvalue' =>
      rw [List.cons_append, List.cons_append, ofNat_cons_lt_iff _ _ (by omega) (by omega),
        ofNat_cons_lt_iff _ _ (by omega) (by omega)]
      omega
    | three x' y' z' hx' hy' hz' hvalue' hsurrogate' =>
      rw [ofNat_cons_lt_iff _ _ (by omega) (by omega)]
      omega
    | four x' y' z' w' hx' hy' hz' hw' hvalue' hlast' =>
      rw [ofNat_cons_lt_iff _ _ (by omega) (by omega)]
      omega
  | three x y z hx hy hz hvalue hsurrogate =>
    cases h' with
    | one x' hx' => omega
    | two x' y' hx' hy' hvalue' => omega
    | three x' y' z' hx' hy' hz' hvalue' hsurrogate' =>
      simp only [List.cons_append]
      rw [ofNat_cons_lt_iff _ _ (by omega) (by omega), ofNat_cons_lt_iff _ _ (by omega) (by omega),
        ofNat_cons_lt_iff _ _ (by omega) (by omega)]
      omega
    | four x' y' z' w' hx' hy' hz' hw' hvalue' hlast' =>
      rw [ofNat_cons_lt_iff _ _ (by omega) (by omega)]
      omega
  | four x y z w hx hy hz hw hvalue hlast =>
    cases h' with
    | one x' hx' => omega
    | two x' y' hx' hy' hvalue' => omega
    | three x' y' z' hx' hy' hz' hvalue' hsurrogate' => omega
    | four x' y' z' w' hx' hy' hz' hw' hvalue' hlast' =>
      simp only [List.cons_append]
      rw [ofNat_cons_lt_iff _ _ (by omega) (by omega), ofNat_cons_lt_iff _ _ (by omega) (by omega),
        ofNat_cons_lt_iff _ _ (by omega) (by omega), ofNat_cons_lt_iff _ _ (by omega) (by omega)]
      omega

theorem encodeChar_lt_of_lt (c d : Char) (h : c < d) (left right : Bytes) :
    String.utf8EncodeChar c ++ left < String.utf8EncodeChar d ++ right := by
  obtain ⟨b, tail, hc, hspells⟩ := spells_encodeChar c
  obtain ⟨b', tail', hd, hspells'⟩ := spells_encodeChar d
  have hlt : c.toNat < d.toNat := h
  rw [hc, hd, List.cons_append, List.cons_append]
  exact hspells.lt_of_lt hspells' hlt left right

theorem flatMap_encodeChar_lt_of_lt (left right : List Char) (h : left < right) :
    left.flatMap String.utf8EncodeChar < right.flatMap String.utf8EncodeChar := by
  induction left generalizing right with
  | nil =>
    cases right with
    | nil => exact absurd h (List.lt_irrefl [])
    | cons d rest =>
      obtain ⟨b, tail, hd, _⟩ := spells_encodeChar d
      rw [List.flatMap_cons, hd]
      exact List.nil_lt_cons b _
  | cons c left ih =>
    cases right with
    | nil => exact absurd h (List.not_lt_nil _)
    | cons d right =>
      rw [List.flatMap_cons, List.flatMap_cons]
      rcases List.cons_lt_cons_iff.1 h with hlt | ⟨heq, hlt⟩
      · exact encodeChar_lt_of_lt c d hlt _ _
      · rw [heq]
        exact List.append_left_lt (ih right hlt)

/-- The order of texts is the order of their bytes. -/
theorem encode_lt_encode_iff (a b : String) : encode a < encode b ↔ a < b := by
  have hmono : ∀ s t : String, s < t → encode s < encode t :=
    fun s t h => flatMap_encodeChar_lt_of_lt s.toList t.toList (String.lt_iff.1 h)
  constructor
  · intro h
    by_contra hnot
    have hle : b ≤ a := String.not_lt.1 hnot
    by_cases heq : a = b
    · rw [heq] at h
      exact List.lt_irrefl _ h
    · have hlt : b < a := String.not_le.1 fun hab => heq (String.le_antisymm hab hle)
      exact List.lt_asymm h (hmono b a hlt)
  · exact hmono a b

end ModuleLoading.Utf8
