import Mathlib.Data.List.Forall2
import ModuleLoading.Proofs.BlankedText
import ModuleLoading.Proofs.Utf8Codec
import ModuleLoading.Source.Outline

/-!
Blanking keeps the layout of a source. Every byte stays what it was or becomes a space, and
line ends stay where they are. What a comment or the body of a template literal leaves behind
opens and closes nothing, so that a source that has been blanked is blanked to itself, and has
the outline that it had before.
-/
namespace ModuleLoading.Source

def space : UInt8 := 32

def lineEnd : UInt8 := 10

/-- What blanking makes of a byte. A line end stays one. -/
def Blanks (before after : UInt8) : Prop := after = before ∨ (before ≠ lineEnd ∧ after = space)

theorem Blanks.lineEnd_iff {before after : UInt8} (h : Blanks before after) :
    after = lineEnd ↔ before = lineEnd := by
  rcases h with rfl | ⟨hne, rfl⟩
  · rfl
  · exact ⟨fun heq => absurd heq (by decide), fun heq => absurd heq hne⟩

/-- Byte by byte. -/
theorem blanks_getElem? {before after : Bytes} (h : List.Forall₂ Blanks before after) (i : Nat) :
    (before[i]? = none ∧ after[i]? = none) ∨
      ∃ b b', before[i]? = some b ∧ after[i]? = some b' ∧ Blanks b b' := by
  obtain ⟨hlength, hget⟩ := List.forall₂_iff_get.1 h
  by_cases hi : i < before.length
  · have hi' : i < after.length := hlength ▸ hi
    exact .inr ⟨_, _, List.getElem?_eq_getElem hi, List.getElem?_eq_getElem hi', hget i hi hi'⟩
  · have hend : before.length ≤ i := Nat.le_of_not_lt hi
    exact .inl ⟨List.getElem?_eq_none hend, List.getElem?_eq_none (hlength ▸ hend)⟩

theorem blanks_self (bytes : Bytes) : List.Forall₂ Blanks bytes bytes :=
  List.forall₂_same.2 fun _ _ => .inl rfl

/-- A character is covered by as many spaces as it has bytes. -/
theorem blanks_cover (c : Char) :
    List.Forall₂ Blanks (String.utf8EncodeChar c) ((cover c).flatMap String.utf8EncodeChar) := by
  by_cases hc : c = '\n'
  · rw [cover, if_pos hc, List.flatMap_singleton, hc]
    exact blanks_self _
  · have hspaces : (List.replicate c.utf8Size ' ').flatMap String.utf8EncodeChar =
        List.replicate (String.utf8EncodeChar c).length space := by
      rw [String.length_utf8EncodeChar, List.flatMap_replicate]
      exact List.flatten_replicate_singleton
    have hline : ∀ b ∈ String.utf8EncodeChar c, b ≠ lineEnd := by
      rintro b hb rfl
      exact hc (Utf8.eq_of_mem_encodeChar c '\n' (by decide) hb)
    rw [cover, if_neg hc, hspaces]
    refine List.forall₂_iff_get.2 ⟨List.length_replicate.symm, fun i hi hi' => .inr ⟨?_, ?_⟩⟩
    · exact hline _ (List.get_mem _ _)
    · rw [List.get_eq_getElem, List.getElem_replicate]

/-- Text that keeps its layout, byte by byte. -/
def KeepsLayout (before after : List Char) : Prop :=
  List.Forall₂ Blanks (before.flatMap String.utf8EncodeChar) (after.flatMap String.utf8EncodeChar)

namespace KeepsLayout

variable {before after : List Char}

theorem copied (h : KeepsLayout before after) (c : Char) :
    KeepsLayout (c :: before) (c :: after) := by
  rw [KeepsLayout, List.flatMap_cons, List.flatMap_cons]
  exact List.rel_append (blanks_self _) h

theorem covered (h : KeepsLayout before after) (c : Char) :
    KeepsLayout (c :: before) (cover c ++ after) := by
  rw [KeepsLayout, List.flatMap_cons, List.flatMap_append]
  exact List.rel_append (blanks_cover c) h

end KeepsLayout

/-- Two spaces for the opening of a comment cover its characters, too. -/
theorem keepsLayout_blankFrom (mode : Mode) (text : List Char) :
    KeepsLayout text (blankFrom mode text) := by
  fun_induction blankFrom mode text with
  | case1 => exact .nil
  | case2 rest ih => exact (ih.covered '/').covered '/'
  | case3 rest ih => exact (ih.covered '*').covered '/'
  | case4 c rest _ _ ih => exact ih.copied c
  | case5 c rest ih => exact ih.covered c
  | case6 star c rest ih => exact ih.covered c
  | case7 escaped c rest _ ih => exact ih.copied c
  | case8 escaped c rest _ ih => exact ih.covered c
  | case9 mark escaped c rest ih => exact ih.copied c

/-- The mode in which what was left behind is read. Comments have become white space, and a
backslash in a template literal is gone. -/
def Mode.afterwards : Mode → Mode
  | .code | .lineComment | .blockComment _ => .code
  | .template _ => .template false
  | .quoted mark escaped => .quoted mark escaped

theorem Mode.afterwards_afterCode (c : Char) : (afterCode c).afterwards = afterCode c := by
  unfold afterCode
  split
  · rfl
  · split
    · rfl
    · rfl

theorem Mode.afterwards_afterQuoted (mark : Char) (escaped : Bool) (c : Char) :
    (afterQuoted mark escaped c).afterwards = afterQuoted mark escaped c := by
  unfold afterQuoted
  split
  · rfl
  · split
    · rfl
    · split
      · rfl
      · rfl

theorem isPlain_cover (c : Char) : (cover c).all isPlain = true := by
  rw [cover]
  split
  · rfl
  · rw [List.all_replicate]
    simp [isPlain, isQuote]

/-- Text within a template literal that has been covered is left as it is. -/
theorem blankFrom_template_cover (c : Char) (rest : List Char) :
    blankFrom (.template false) (cover c ++ rest) =
      cover c ++ blankFrom (.template false) rest := by
  have hkept : ∀ d rest, d = ' ' ∨ d = '\n' →
      blankFrom (.template false) (d :: rest) = d :: blankFrom (.template false) rest := by
    rintro d rest (rfl | rfl)
    · rfl
    · rfl
  have hcover : ∀ d ∈ cover c, d = ' ' ∨ d = '\n' := by
    intro d hd
    rw [cover] at hd
    split at hd
    · exact .inr (List.mem_singleton.1 hd)
    · exact .inl (List.eq_of_mem_replicate hd)
  generalize cover c = covered at hcover
  induction covered with
  | nil => rfl
  | cons d covered ih =>
    rw [List.cons_append, hkept d _ (hcover d List.mem_cons_self),
      ih fun e he => hcover e (List.mem_cons_of_mem d he), List.cons_append]

/-- A slash that opens no comment is copied. -/
theorem blankFrom_code_slash (rest : List Char) (hline : rest.head? ≠ some '/')
    (hblock : rest.head? ≠ some '*') :
    blankFrom .code ('/' :: rest) = '/' :: blankFrom .code rest := by
  rw [blankFrom]
  · rfl
  · rintro tail - rfl
    exact hline rfl
  · rintro tail - rfl
    exact hblock rfl

/-- What blanking leaves of code begins as the code did, or with a space. -/
theorem head?_blankFrom_code (text : List Char) :
    (blankFrom .code text).head? = text.head? ∨ (blankFrom .code text).head? = some ' ' := by
  cases text with
  | nil => exact .inl rfl
  | cons c rest =>
    by_cases hc : c = '/'
    · subst hc
      by_cases hline : rest.head? = some '/'
      · obtain ⟨tail, rfl⟩ := List.head?_eq_some_iff.1 hline
        exact .inr rfl
      · by_cases hblock : rest.head? = some '*'
        · obtain ⟨tail, rfl⟩ := List.head?_eq_some_iff.1 hblock
          exact .inr rfl
        · rw [blankFrom_code_slash rest hline hblock]
          exact .inl rfl
    · rw [blankFrom_code_cons c rest hc]
      exact .inl rfl

/-- Code that begins no comment begins none afterwards either. -/
theorem blankFrom_code_copied (c : Char) (rest : List Char)
    (hline : ∀ tail, c = '/' → rest ≠ '/' :: tail) (hblock : ∀ tail, c = '/' → rest ≠ '*' :: tail) :
    blankFrom .code (c :: blankFrom (afterCode c) rest) =
      c :: blankFrom (afterCode c) (blankFrom (afterCode c) rest) := by
  by_cases hc : c = '/'
  · subst hc
    have hhead : ∀ d ≠ ' ', (∀ tail, rest ≠ d :: tail) → (blankFrom .code rest).head? ≠ some d := by
      intro d hd hnone heq
      rcases head?_blankFrom_code rest with h | h
      · obtain ⟨tail, htail⟩ := List.head?_eq_some_iff.1 (h.symm.trans heq)
        exact hnone tail htail
      · exact hd (Option.some.inj (heq.symm.trans h))
    refine blankFrom_code_slash _ (hhead '/' (by decide) fun tail => hline tail rfl) ?_
    exact hhead '*' (by decide) fun tail => hblock tail rfl
  · exact blankFrom_code_cons c _ hc

/-- What was left behind is left as it is. -/
theorem blankFrom_afterwards (mode : Mode) (text : List Char) :
    blankFrom mode.afterwards (blankFrom mode text) = blankFrom mode text := by
  have hcovered : ∀ c rest, blankFrom .code (cover c ++ rest) = cover c ++ blankFrom .code rest :=
    fun c rest => blankFrom_plain (cover c) rest (isPlain_cover c)
  fun_induction blankFrom mode text with
  | case1 mode => exact blankFrom_nil mode.afterwards
  | case2 rest ih => exact (blankFrom_plain [' ', ' '] _ rfl).trans (congrArg _ ih)
  | case3 rest ih => exact (blankFrom_plain [' ', ' '] _ rfl).trans (congrArg _ ih)
  | case4 c rest hline hblock ih =>
    rw [Mode.afterwards_afterCode] at ih
    exact (blankFrom_code_copied c rest hline hblock).trans (congrArg _ ih)
  | case5 c rest ih =>
    have hmode : (if c = '\n' then Mode.code else .lineComment).afterwards = .code := by
      split <;> rfl
    rw [hmode] at ih
    exact (hcovered c _).trans (congrArg _ ih)
  | case6 star c rest ih =>
    have hmode :
        (if star = true ∧ c = '/' then Mode.code else .blockComment (c == '*')).afterwards =
        .code := by
      split <;> rfl
    rw [hmode] at ih
    exact (hcovered c _).trans (congrArg _ ih)
  | case7 escaped c rest h ih =>
    rw [h.2]
    exact congrArg _ ih
  | case8 escaped c rest h ih => exact (blankFrom_template_cover c _).trans (congrArg _ ih)
  | case9 mark escaped c rest ih =>
    rw [Mode.afterwards_afterQuoted] at ih
    rw [Mode.afterwards, blankFrom, ih]

def blanked (source : String) : String := String.ofList (blank source.toList)

theorem encode_blanked (source : String) :
    List.Forall₂ Blanks (Utf8.encode source) (Utf8.encode (blanked source)) := by
  rw [Utf8.encode, Utf8.encode, blanked, String.toList_ofList]
  exact keepsLayout_blankFrom .code source.toList

theorem blanked_blanked (source : String) : blanked (blanked source) = blanked source := by
  rw [blanked, blanked, String.toList_ofList, blank, blank]
  exact congrArg String.ofList (blankFrom_afterwards .code source.toList)

theorem outline_blanked (source : String) : outline (blanked source) = outline source := by
  have hblank : blank (blanked source).toList = blank source.toList := by
    simpa [blanked] using congrArg String.toList (blanked_blanked source)
  simp only [outline, hblank]

/-- A source that is blanked keeps its length and its line ends, and each of its bytes is kept
or becomes a space. Blanking it again changes nothing, so that it declares the same. -/
theorem blanked_keeps_layout (source : String) :
    (Utf8.encode (blanked source)).length = (Utf8.encode source).length ∧
      (∀ i : Nat, (Utf8.encode (blanked source))[i]? = some lineEnd ↔
        (Utf8.encode source)[i]? = some lineEnd) ∧
      (∀ (i : Nat) (b : UInt8), (Utf8.encode (blanked source))[i]? = some b →
        (Utf8.encode source)[i]? = some b ∨ b = space) ∧
      blanked (blanked source) = blanked source ∧ outline (blanked source) = outline source := by
  have hbytes := encode_blanked source
  refine ⟨hbytes.length_eq.symm, ?_, ?_, blanked_blanked source, outline_blanked source⟩
  · intro i
    rcases blanks_getElem? hbytes i with ⟨hnone, hnone'⟩ | ⟨b, b', hsome, hsome', hblanks⟩
    · rw [hnone, hnone']
    · rw [hsome, hsome', Option.some.injEq, Option.some.injEq, hblanks.lineEnd_iff]
  · intro i b hb
    rcases blanks_getElem? hbytes i with ⟨hnone, hnone'⟩ | ⟨before, after, hsome, hsome', hblanks⟩
    · rw [hnone'] at hb
      cases hb
    · rw [hsome', Option.some.injEq] at hb
      subst hb
      rcases hblanks with rfl | ⟨-, hspace⟩
      · exact .inl hsome
      · exact .inr hspace

/-- The marks of a template literal stay. A character of two bytes leaves two spaces. -/
example : blanked "a/*\u00e9*/\x60b\n\u00e9\x60//c" = "a      \x60 \n  \x60   " := by
  decide

end ModuleLoading.Source
