import ModuleLoading.Proofs.WrittenDeclarations
import ModuleLoading.Source.Blanking

/-!
What blanking leaves as it is. Text without slashes, backticks and quotation marks is
copied where it is code, and so is a specifier. A backslash at the end of a specifier
hides the mark behind it, so that the string is taken to go on up to the end of the line.
-/
namespace ModuleLoading.Source

/-- A character that means nothing to blanking, in code and in a string. -/
def isPlain (c : Char) : Bool := !(c == '/' || c == '\\' || c == '\x60' || isQuote c)

theorem isPlain_cases (c : Char) :
    isPlain c = true ∨ isNameChar c = false ∧ Text.isBlank c = false := by
  by_cases hplain : isPlain c = true
  · exact .inl hplain
  · simp only [isPlain, isQuote, Bool.not_eq_true, Bool.not_eq_false', Bool.or_eq_true,
      beq_iff_eq] at hplain
    rcases hplain with ((rfl | rfl) | rfl) | rfl | rfl
    all_goals exact .inr ⟨rfl, rfl⟩

theorem isPlain_of_isNameChar {c : Char} (h : isNameChar c = true) : isPlain c = true := by
  refine (isPlain_cases c).resolve_right ?_
  rintro ⟨hname, -⟩
  rw [h] at hname
  cases hname

theorem isPlain_of_isBlank {c : Char} (h : Text.isBlank c = true) : isPlain c = true := by
  refine (isPlain_cases c).resolve_right ?_
  rintro ⟨-, hblank⟩
  rw [h] at hblank
  cases hblank

theorem Layout.made_isPlain (layout : Layout) : layout.Made isPlain where
  names _ := isPlain_of_isNameChar
  signs := by decide
  gaps gap _ := List.all_eq_true.2 fun c hc => isPlain_of_isBlank (gap.blank c hc)
  pieces _ piece _ := by
    refine List.all_eq_true.2 fun c hc => ?_
    rcases piece.chars c hc with hname | hblank
    · exact isPlain_of_isNameChar hname
    · exact isPlain_of_isBlank hblank

theorem blankFrom_code_cons (c : Char) (rest : List Char) (h : c ≠ '/') :
    blankFrom .code (c :: rest) = c :: blankFrom (afterCode c) rest := by
  rw [blankFrom]
  · rintro - heq
    exact absurd heq h
  · rintro - heq
    exact absurd heq h

theorem blankFrom_plain (text rest : List Char) (h : text.all isPlain = true) :
    blankFrom .code (text ++ rest) = text ++ blankFrom .code rest := by
  induction text with
  | nil => rfl
  | cons c text ih =>
    rw [List.all_cons, Bool.and_eq_true] at h
    obtain ⟨hc, htext⟩ := h
    simp only [isPlain, isQuote, Bool.not_eq_true', Bool.or_eq_false_iff, beq_eq_false_iff_ne] at hc
    have hcode : afterCode c = .code := by simp [afterCode, hc]
    rw [List.cons_append, blankFrom_code_cons c _ hc.1.1.1, hcode, ih htext, List.cons_append]

theorem blankFrom_quoted (quote : Char) (text rest : List Char)
    (h : ∀ c ∈ text, c ≠ quote ∧ c ≠ '\n') (escaped : Bool) :
    ∃ escaped', blankFrom (.quoted quote escaped) (text ++ rest) =
      text ++ blankFrom (.quoted quote escaped') rest := by
  induction text generalizing escaped with
  | nil => exact ⟨escaped, rfl⟩
  | cons c text ih =>
    have hc := h c List.mem_cons_self
    have hstep : ∃ escaped', afterQuoted quote escaped c = .quoted quote escaped' := by
      unfold afterQuoted
      split
      · exact ⟨false, rfl⟩
      · split
        · exact ⟨true, rfl⟩
        · exact ⟨false, if_neg (not_or.2 hc)⟩
    obtain ⟨stepped, hstep⟩ := hstep
    obtain ⟨escaped', heq⟩ := ih (fun d hd => h d (List.mem_cons_of_mem c hd)) stepped
    exact ⟨escaped', by rw [List.cons_append, blankFrom, hstep, heq, List.cons_append]⟩

/-- How blanking may go on after a specifier. -/
inductive Mode.AfterString (quote : Char) : Mode → Prop
  | ended : AfterString quote .code
  | hidden : AfterString quote (.quoted quote false)

/-- Blanking makes no line ends. -/
theorem notMem_lineEnd_blankFrom (mode : Mode) (text : List Char) (h : '\n' ∉ text) :
    '\n' ∉ blankFrom mode text := by
  have hcover : ∀ c ≠ '\n', '\n' ∉ cover c := by
    intro c hc
    rw [cover, if_neg hc]
    intro hmem
    exact absurd (List.eq_of_mem_replicate hmem) (by decide)
  fun_induction blankFrom mode text <;> grind

section Layouts

variable (layout : Layout) (rest : List Char)

theorem blankFrom_specifier (target : Target) :
    ∃ mode, Mode.AfterString layout.quote mode ∧
      blankFrom .code (layout.specifier target ++ rest) =
        layout.specifier target ++ blankFrom mode rest := by
  have hquote := layout.isQuote_quote
  have hopen : blankFrom .code (layout.quote :: (target.text ++ layout.quote :: rest)) =
      layout.quote :: blankFrom (.quoted layout.quote false) (target.text ++ layout.quote :: rest) := by
    simp only [isQuote, Bool.or_eq_true, beq_iff_eq] at hquote
    rcases hquote with hquote | hquote
    all_goals
      rw [hquote]
      exact blankFrom_code_cons _ _ (by decide)
  have htarget : ∀ c ∈ target.text, c ≠ layout.quote ∧ c ≠ '\n' := fun c hc =>
    ⟨layout.ne_quote (target.chars c hc).1, (target.chars c hc).2⟩
  obtain ⟨escaped, htext⟩ := blankFrom_quoted layout.quote target.text (layout.quote :: rest) htarget
    false
  refine ⟨afterQuoted layout.quote escaped layout.quote, ?_, ?_⟩
  · cases escaped with
    | true => exact .hidden
    | false =>
      have hslash : '\\' ≠ layout.quote := layout.ne_quote rfl
      have hended : afterQuoted layout.quote false layout.quote = .code := by
        simp [afterQuoted, hslash.symm]
      rw [hended]
      exact .ended
  · rw [Layout.specifier, List.cons_append, List.append_assoc, List.singleton_append, hopen, htext,
      blankFrom, List.cons_append, List.append_assoc, List.singleton_append]

theorem blankFrom_link (link : Link) :
    ∃ mode, Mode.AfterString layout.quote mode ∧
      blankFrom .code (link.text layout ++ rest) = link.text layout ++ blankFrom mode rest := by
  obtain ⟨mode, hmode, heq⟩ := blankFrom_specifier layout rest link.target
  refine ⟨mode, hmode, ?_⟩
  rw [Link.text, List.append_assoc, blankFrom_plain _ _ (layout.made_isPlain.form link.form), heq,
    List.append_assoc]

theorem blankFrom_nil (mode : Mode) : blankFrom mode [] = [] := by
  cases mode <;> rfl

theorem blankFrom_link_end (link : Link) : blankFrom .code (link.text layout) = link.text layout := by
  obtain ⟨mode, -, heq⟩ := blankFrom_link layout [] link
  rwa [blankFrom_nil, List.append_nil] at heq

/-- What ends a declaration does not end a string. -/
theorem Mode.AfterString.blankFrom_semicolon {mode : Mode} (h : Mode.AfterString layout.quote mode) :
    blankFrom mode (';' :: rest) = ';' :: blankFrom mode rest := by
  cases h with
  | ended => rfl
  | hidden =>
    have hquote : ';' ≠ layout.quote := layout.ne_quote rfl
    simp [blankFrom, afterQuoted, hquote]

/-- The end of a line does. -/
theorem Mode.AfterString.blankFrom_lineEnd {mode : Mode} (h : Mode.AfterString layout.quote mode) :
    blankFrom mode ('\n' :: rest) = '\n' :: blankFrom .code rest := by
  cases h with
  | ended => rfl
  | hidden => simp [blankFrom, afterQuoted]

/-- A declaration is copied up to the end of its line, where blanking is in code again. -/
theorem blankFrom_line (declaration : Declaration) :
    blankFrom .code (declaration.text layout ++ ';' :: '\n' :: rest) =
      declaration.text layout ++ ';' :: '\n' :: blankFrom .code rest := by
  cases declaration with
  | owning own => exact blankFrom_plain _ _ (layout.made_isPlain.own own)
  | linking link =>
    obtain ⟨mode, hmode, heq⟩ := blankFrom_link layout (';' :: '\n' :: rest) link
    rw [hmode.blankFrom_semicolon, hmode.blankFrom_lineEnd] at heq
    exact heq

theorem Mode.AfterString.blankFrom_plain {mode : Mode} (h : Mode.AfterString layout.quote mode)
    (text : List Char) (htext : text.all isPlain = true) (hline : '\n' ∉ text) :
    blankFrom mode (text ++ rest) = text ++ blankFrom mode rest := by
  cases h with
  | ended => exact Source.blankFrom_plain text rest htext
  | hidden =>
    induction text with
    | nil => rfl
    | cons c text ih =>
      rw [List.all_cons, Bool.and_eq_true] at htext
      obtain ⟨hc, htext⟩ := htext
      obtain ⟨hne, hline⟩ := not_or.1 (mt List.mem_cons.2 hline)
      have hquote : c ≠ layout.quote := by
        rintro rfl
        simp [isPlain, layout.isQuote_quote] at hc
      have hslash : c ≠ '\\' := by
        rintro rfl
        cases hc
      have hafter : afterQuoted layout.quote false c = .quoted layout.quote false := by
        simp [afterQuoted, hslash, hquote, Ne.symm hne]
      rw [List.cons_append, blankFrom, hafter, ih htext hline, List.cons_append]

/-- A declaration behind a string on its line: if it goes on on a next line, it is copied. -/
theorem Mode.AfterString.blankFrom_link {mode : Mode} (h : Mode.AfterString layout.quote mode)
    (layout' : Layout) (link : Link) :
    ('\n' ∉ link.text layout' ∧ '\n' ∉ blankFrom mode (link.text layout')) ∨
      blankFrom mode (link.text layout') = link.text layout' := by
  by_cases hmem : '\n' ∈ link.form.text layout'
  · obtain ⟨front, back, hsplit, hfront⟩ := List.eq_append_cons_of_mem hmem
    have hplain := layout'.made_isPlain.form link.form
    rw [hsplit, List.all_append, List.all_cons, Bool.and_eq_true, Bool.and_eq_true] at hplain
    obtain ⟨hfrontPlain, -, hbackPlain⟩ := hplain
    obtain ⟨mode', -, hspecifier⟩ := blankFrom_specifier layout' [] link.target
    rw [blankFrom_nil, List.append_nil] at hspecifier
    refine .inr ?_
    rw [Link.text, hsplit, List.append_assoc, List.cons_append, h.blankFrom_plain _ _ front hfrontPlain
      hfront,
      h.blankFrom_lineEnd, Source.blankFrom_plain back _ hbackPlain, hspecifier]
  · have hline : '\n' ∉ link.text layout' := by
      simp [Link.text, hmem, layout'.notMem_specifier]
    exact .inl ⟨hline, notMem_lineEnd_blankFrom mode _ hline⟩

end Layouts

end ModuleLoading.Source
