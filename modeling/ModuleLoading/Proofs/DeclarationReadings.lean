import ModuleLoading.Proofs.Readings
import ModuleLoading.Proofs.WrittenDeclarations
import ModuleLoading.Source.Outline

/-!
Every declaration is found by the reading that is there for it, up to its end and
whatever comes after it, and by no other. What could be mistaken is the word "type":
it is read as a mark first, and as a name only where nothing goes on after the mark.
-/
namespace ModuleLoading.Source

open Reading

theorem isBlank_of_isQuote {c : Char} (h : isQuote c = true) : Text.isBlank c = false := by
  simp only [isQuote, Bool.or_eq_true, beq_iff_eq] at h
  rcases h with rfl | rfl
  · rfl
  · rfl

theorem isNameChar_of_isQuote {c : Char} (h : isQuote c = true) : isNameChar c = false := by
  simp only [isQuote, Bool.or_eq_true, beq_iff_eq] at h
  rcases h with rfl | rfl
  · rfl
  · rfl

theorem isQuote_of_isNameChar {c : Char} (h : isNameChar c = true) : isQuote c = false := by
  by_contra hquote
  rw [isNameChar_of_isQuote (by simpa using hquote)] at h
  cases h

section Parts

variable {text rest : List Char}

theorem word_append (word' : String) (rest : List Char) :
    word word' (word'.toList ++ rest) = [((), rest)] :=
  exactly_append word'.toList rest

theorem blanks_append (gap : Gap) (hstop : Stops Text.isBlank rest) :
    blanks (gap.text ++ rest) = [(gap.text, rest)] :=
  run_append gap.blank hstop

theorem blanks_of_stops (hstop : Stops Text.isBlank text) : blanks text = [([], text)] :=
  run_of_stops hstop

theorem someBlanks_append (gap : Separator) (hstop : Stops Text.isBlank rest) :
    someBlanks (gap.text ++ rest) = [(gap.text, rest)] :=
  nonemptyRun_append gap.ne_nil gap.blank hstop

theorem someBlanks_of_stops (hstop : Stops Text.isBlank text) : someBlanks text = [] :=
  nonemptyRun_of_stops hstop

theorem stops_isBlank_name (n : Name) : Stops Text.isBlank (n.text ++ rest) :=
  stops_append n.ne_nil n.not_isBlank

theorem stops_isNameChar_separator (gap : Separator) : Stops isNameChar (gap.text ++ rest) :=
  stops_append gap.ne_nil fun c hc => isNameChar_of_isBlank (gap.blank c hc)

theorem stops_isNameChar_gap (gap : Gap) (hstop : Stops isNameChar rest) :
    Stops isNameChar (gap.text ++ rest) := by
  by_cases hne : gap.text = []
  · rwa [hne, List.nil_append]
  · exact stops_append hne fun c hc => isNameChar_of_isBlank (gap.blank c hc)

theorem name_append (n : Name) (hstop : Stops isNameChar rest) :
    name.Finds (n.text ++ rest) n.text rest :=
  (finds_of_eq (nonemptyRun_append n.ne_nil n.chars hstop)).either_left

theorem name_of_stops (hstop : Stops isNameChar text) : name text = [] :=
  (either_of_fails (nonemptyRun_of_stops hstop)).trans (nonemptyRunBefore_of_stops _ hstop)

/-- A name that is no longer than "from" has one reading. -/
theorem name_of_short (hne : text ≠ []) (h : ∀ c ∈ text, isNameChar c = true)
    (hlength : text.length ≤ 4) (hstop : Stops isNameChar rest) :
    name (text ++ rest) = [(text, rest)] := by
  have hsize : text.length - "from".toList.length = 0 := Nat.sub_eq_zero_of_le hlength
  have hbefore : nonemptyRunBefore isNameChar "from".toList (text ++ rest) = [] := by
    rw [nonemptyRunBefore, Reading.takeWhile_append h hstop]
    simp only [hsize, Nat.lt_irrefl, false_and, if_false]
  rw [name, either, nonemptyRun_append hne h hstop, hbefore]
  rfl

theorem exactly_name (c : Char) (n : Name) (h : isNameChar c = false) :
    exactly [c] (n.text ++ rest) = [] := by
  cases htext : n.text with
  | nil => exact absurd htext n.ne_nil
  | cons d more =>
    refine if_neg ?_
    rintro rfl
    exact n.notMem_of_not_isNameChar c h (htext ▸ List.mem_cons_self)

theorem typeMark_cons (c : Char) (h : 't' ≠ c) : typeMark (c :: text) = [(none, c :: text)] := by
  have hword : word "type" (c :: text) = [] := if_neg h
  exact optionally_of_fails (bind_of_fails hword)

end Parts

section Layouts

variable (layout : Layout) {rest : List Char}

theorem braced_braces (items : List Item) :
    braced (layout.braces items ++ rest) = [(layout.list items, rest)] := by
  have hopen : word "\x7b" ('\x7b' :: (layout.list items ++ '\x7d' :: rest)) =
      [((), layout.list items ++ '\x7d' :: rest)] := rfl
  have hrun : run (· != '\x7d') (layout.list items ++ '\x7d' :: rest) =
      [(layout.list items, '\x7d' :: rest)] := by
    refine run_append (fun c hc => ?_) (stops_cons _ rfl)
    rw [bne_iff_ne]
    rintro rfl
    exact notMem_listText _ _ rfl rfl (by decide) hc
  have hclose : word "\x7d" ('\x7d' :: rest) = [((), rest)] := rfl
  rw [Layout.braces, List.cons_append, List.append_assoc, List.singleton_append]
  rw [braced, bind_of_eq hopen, bind_of_eq hrun, bind_of_eq hclose]
  rfl

theorem quoted_of_stops {text : List Char} (hstop : Stops isQuote text) : quoted text = [] := by
  cases text with
  | nil => rfl
  | cons c text =>
    have hone : one isQuote (c :: text) = [] := if_neg (by simp [hstop c rfl])
    exact bind_of_fails hone

theorem quoted_specifier (target : Target) :
    quoted (layout.specifier target ++ rest) = [(target.word, rest)] := by
  have hopen : one isQuote (layout.quote :: (target.text ++ layout.quote :: rest)) =
      [(layout.quote, target.text ++ layout.quote :: rest)] := if_pos layout.isQuote_quote
  have hrun : nonemptyRun (fun c => !isQuote c && c != '\n') (target.text ++ layout.quote :: rest) =
      [(target.text, layout.quote :: rest)] := by
    refine nonemptyRun_append target.ne_nil (fun c hc => ?_) (stops_cons _ ?_)
    · simpa using target.chars c hc
    · simp [layout.isQuote_quote]
  have hclose : one isQuote (layout.quote :: rest) = [(layout.quote, rest)] :=
    if_pos layout.isQuote_quote
  rw [Layout.specifier, List.cons_append, List.append_assoc, List.singleton_append]
  rw [quoted, bind_of_eq hopen, bind_of_eq hrun, bind_of_eq hclose]
  rfl

/-- A specifier with "from" before it. -/
def Layout.source (target : Target) : List Char :=
  "from".toList ++ (layout.mark.text ++ layout.specifier target)

theorem stops_specifier {accepts : Char → Bool} (target : Target)
    (h : accepts layout.quote = false) : Stops accepts (layout.specifier target ++ rest) :=
  stops_cons layout.quote h

theorem stops_source {accepts : Char → Bool} (target : Target) (h : accepts 'f' = false) :
    Stops accepts (layout.source target ++ rest) :=
  stops_cons 'f' h

theorem fromClause_source (gap : Gap) (target : Target) :
    fromClause (gap.text ++ (layout.source target ++ rest)) = [(target.word, rest)] := by
  have hmark : blanks (layout.mark.text ++ (layout.specifier target ++ rest)) =
      [(layout.mark.text, layout.specifier target ++ rest)] :=
    blanks_append layout.mark (stops_specifier layout target (isBlank_of_isQuote layout.isQuote_quote))
  rw [fromClause, bind_of_eq (blanks_append gap (stops_source layout target rfl))]
  rw [Layout.source, List.append_assoc, List.append_assoc, bind_of_eq (word_append "from" _)]
  rw [bind_of_eq hmark]
  exact quoted_specifier layout target

/-- Without white space before. -/
theorem fromClause_source_at (target : Target) :
    fromClause (layout.source target ++ rest) = [(target.word, rest)] :=
  fromClause_source layout .empty target

theorem asName_text (n : Name) (hstop : Stops isNameChar rest) :
    asName.Finds ("as".toList ++ (layout.renamed.text ++ (n.text ++ rest))) n.text rest := by
  refine (finds_of_eq (word_append "as" _)).bind ?_
  refine (finds_of_eq (someBlanks_append layout.renamed (stops_isBlank_name n))).bind ?_
  exact name_append n hstop

/-- What is read after the star of a whole module's name. -/
theorem blanks_star (n : Name) :
    blanks (layout.star.text ++ ("as".toList ++ (layout.renamed.text ++ (n.text ++ rest)))) =
      [(layout.star.text, "as".toList ++ (layout.renamed.text ++ (n.text ++ rest)))] :=
  blanks_append layout.star (stops_cons 'a' rfl)

theorem text_whole (n : Name) : (Brought.whole n).text layout ++ rest =
    "*".toList ++ (layout.star.text ++ ("as".toList ++ (layout.renamed.text ++ (n.text ++ rest)))) := by
  simp only [Brought.text, List.cons_append, List.append_assoc]
  rfl

theorem wholeBinding_text (n : Name) (hstop : Stops isNameChar rest) :
    wholeBinding.Finds ((Brought.whole n).text layout ++ rest) n.text rest := by
  rw [text_whole]
  refine (finds_of_eq (word_append "*" _)).bind ?_
  exact (finds_of_eq (blanks_star layout n)).bind (asName_text layout n hstop)

theorem starExport_whole (n : Name) (hstop : Stops isNameChar rest) :
    starExport.Finds ((Brought.whole n).text layout ++ rest) [.everythingAs n.word] rest := by
  rw [text_whole]
  refine (finds_of_eq (word_append "*" _)).bind ?_
  refine (finds_of_eq (blanks_star layout n)).bind ?_
  exact (asName_text layout n hstop).optionally.bind (finds_pure _ _)

end Layouts

/-- What an import goes on with after its default. -/
def afterDefault (defaultName : Option (List Char)) : Reading ImportDeclaration := do
  let list ← optionally braced
  let _ ← blanks
  let whole ← optionally wholeBinding
  let specifier ← fromClause
  return ⟨specifier, bindingsOf defaultName list whole, false⟩

/-- What an import goes on with after its first word. -/
def afterImport : Reading ImportDeclaration := do
  let _ ← typeMark
  let defaultName ← optionally defaultBinding
  afterDefault defaultName

def boundDefault (defaultName : Option (List Char)) : List Binding :=
  (defaultName.map fun n => Binding.default (String.ofList n)).toList

section Importing

variable (layout : Layout) {rest : List Char}

theorem indentation_import (text : List Char) :
    indentation ("import".toList ++ text) = [([], "import".toList ++ text)] := rfl

theorem bindingImport_keyword (gap : Separator) {text : List Char}
    (hstop : Stops Text.isBlank text) :
    bindingImport ("import".toList ++ (gap.text ++ text)) = afterImport text := by
  rw [bindingImport, bind_of_eq (indentation_import _), bind_of_eq (word_append "import" _)]
  exact bind_of_eq (someBlanks_append gap hstop)

theorem bindingImport_of_stops {text : List Char} (hstop : Stops Text.isBlank text) :
    bindingImport ("import".toList ++ text) = [] := by
  rw [bindingImport, bind_of_eq (indentation_import _), bind_of_eq (word_append "import" _)]
  exact bind_of_fails (someBlanks_of_stops hstop)

/-- Nothing is bound and "from" does not follow either. -/
theorem afterDefault_cons (defaultName : Option (List Char)) (c : Char)
    (hblank : Text.isBlank c = false) (hbrace : '\x7b' ≠ c) (hstar : '*' ≠ c) (hfrom : 'f' ≠ c) :
    afterDefault defaultName (c :: rest) = [] := by
  have hbraced : braced (c :: rest) = [] := bind_of_fails (if_neg hbrace)
  have hwhole : wholeBinding (c :: rest) = [] := bind_of_fails (if_neg hstar)
  have hblanks : blanks (c :: rest) = [([], c :: rest)] := blanks_of_stops (stops_cons c hblank)
  have hword : word "from" (c :: rest) = [] := if_neg hfrom
  rw [afterDefault, bind_of_eq (optionally_of_fails hbraced), bind_of_eq hblanks]
  rw [bind_of_eq (optionally_of_fails hwhole)]
  apply bind_of_fails
  rw [fromClause, bind_of_eq hblanks]
  exact bind_of_fails hword

theorem afterDefault_source (defaultName : Option (List Char)) (target : Target) :
    (afterDefault defaultName).Finds (layout.source target ++ rest)
      ⟨target.word, boundDefault defaultName, false⟩ rest := by
  have hbraced : braced (layout.source target ++ rest) = [] := rfl
  have hwhole : wholeBinding (layout.source target ++ rest) = [] := rfl
  have hblanks : blanks (layout.source target ++ rest) = [([], layout.source target ++ rest)] :=
    blanks_of_stops (stops_source layout target rfl)
  rw [Finds, afterDefault, bind_of_eq (optionally_of_fails hbraced), bind_of_eq hblanks]
  rw [bind_of_eq (optionally_of_fails hwhole), bind_of_eq (fromClause_source_at layout target)]
  have hbindings : bindingsOf defaultName none none = boundDefault defaultName := by
    simp [bindingsOf, boundDefault]
  rw [hbindings]
  rfl

theorem afterDefault_brought (defaultName : Option (List Char)) (brought : Brought)
    (target : Target) :
    (afterDefault defaultName).Finds
      (brought.text layout ++ ((brought.ending layout).text ++ (layout.source target ++ rest)))
      ⟨target.word, boundDefault defaultName ++ brought.bindings layout.read, false⟩ rest := by
  cases brought with
  | list items =>
    have hwhole : wholeBinding (layout.source target ++ rest) = [] := rfl
    refine (finds_of_eq (braced_braces layout items)).optionally.bind ?_
    refine (finds_of_eq (blanks_append _ (stops_source layout target rfl))).bind ?_
    refine (finds_of_eq (optionally_of_fails hwhole)).bind ?_
    refine (finds_of_eq (fromClause_source_at layout target)).bind ?_
    have hbindings : bindingsOf defaultName (some (layout.list items)) none =
        boundDefault defaultName ++ (Brought.list items).bindings layout.read := by
      simp [bindingsOf, boundDefault, Brought.bindings, layout.listItems_list]
    rw [hbindings]
    exact finds_pure _ rest
  | whole n =>
    have hbraced : braced ((Brought.whole n).text layout ++
        (((Brought.whole n).ending layout).text ++ (layout.source target ++ rest))) = [] := rfl
    have hblanks := blanks_of_stops (stops_cons '*' rfl :
      Stops Text.isBlank ((Brought.whole n).text layout ++
        (((Brought.whole n).ending layout).text ++ (layout.source target ++ rest))))
    refine (finds_of_eq (optionally_of_fails hbraced)).bind ?_
    refine (finds_of_eq hblanks).bind ?_
    refine (wholeBinding_text layout n (stops_isNameChar_separator layout.name)).optionally.bind ?_
    refine (finds_of_eq (fromClause_source layout layout.name.toGap target)).bind ?_
    have hbindings : bindingsOf defaultName none (some n.text) =
        boundDefault defaultName ++ (Brought.whole n).bindings layout.read := by
      simp [bindingsOf, boundDefault, Brought.bindings, Name.word]
    rw [hbindings]
    exact finds_pure _ rest

theorem exactly_cases (word text : List Char) :
    exactly word text = [] ∨ ∃ rest, text = word ++ rest ∧ exactly word text = [((), rest)] := by
  induction word generalizing text with
  | nil => exact .inr ⟨text, rfl, rfl⟩
  | cons c word ih =>
    cases text with
    | nil => exact .inl rfl
    | cons d text =>
      by_cases hc : c = d
      · rw [exactly, if_pos hc, hc]
        rcases ih text with h | ⟨rest, rfl, h⟩
        · exact .inl h
        · exact .inr ⟨rest, rfl, h⟩
      · exact .inl (if_neg hc)

/-- A word that a name begins with is the name or is cut off within it. -/
theorem text_of_append_eq (n : Name) (hstop : Stops isNameChar rest) (word tail : List Char)
    (hword : ∀ c ∈ word, isNameChar c = true) (h : n.text ++ rest = word ++ tail) :
    ∃ more, n.text = word ++ more ∧ tail = more ++ rest := by
  have hrun := congrArg (List.takeWhile isNameChar) h
  rw [Reading.takeWhile_append n.chars hstop, List.takeWhile_append_of_pos hword] at hrun
  refine ⟨tail.takeWhile isNameChar, hrun, ?_⟩
  rw [hrun, List.append_assoc] at h
  exact (List.append_cancel_left h).symm

def typeWord : Reading Unit := do
  word "type"
  let _ ← someBlanks

/-- A name is read as the mark only if it is that word, up to the end of the white space
after it. -/
theorem typeWord_name (n : Name) (hstop : Stops isNameChar rest) (found : Unit × List Char)
    (h : found ∈ typeWord (n.text ++ rest)) :
    n.text = "type".toList ∧ found.2 = rest.dropWhile Text.isBlank := by
  rcases exactly_cases "type".toList (n.text ++ rest) with hnone | ⟨tail, htail, hsome⟩
  · have hword : word "type" (n.text ++ rest) = [] := hnone
    rw [typeWord, bind_of_fails hword] at h
    cases h
  · have hword : word "type" (n.text ++ rest) = [((), tail)] := hsome
    rw [typeWord, bind_of_eq hword] at h
    obtain ⟨more, hmore, rfl⟩ := text_of_append_eq n hstop "type".toList tail
      (List.all_eq_true.1 (by decide)) htail
    cases more with
    | nil =>
      rw [List.append_nil] at hmore
      rw [List.nil_append] at h
      refine ⟨hmore, ?_⟩
      by_cases hblank : rest.takeWhile Text.isBlank = []
      · have hnone : someBlanks rest = [] := if_pos hblank
        rw [bind_of_fails hnone] at h
        cases h
      · have hsome : someBlanks rest =
            [(rest.takeWhile Text.isBlank, rest.dropWhile Text.isBlank)] := if_neg hblank
        rw [bind_of_eq hsome] at h
        rw [List.mem_singleton.1 h]
    | cons c more =>
      have hc : Text.isBlank c = false := n.not_isBlank c (by simp [hmore])
      have hstop' : Stops Text.isBlank (c :: more ++ rest) := stops_cons c hc
      rw [bind_of_fails (someBlanks_of_stops hstop')] at h
      cases h

theorem defaultBinding_source (target : Target) :
    defaultBinding (layout.source target ++ rest) =
      [("from".toList, layout.specifier target ++ rest)] := by
  have hquote := layout.isQuote_quote
  have hname : name ("from".toList ++ (layout.mark.text ++ (layout.specifier target ++ rest))) =
      [("from".toList, layout.mark.text ++ (layout.specifier target ++ rest))] := by
    have hstop : Stops isNameChar (layout.mark.text ++ (layout.specifier target ++ rest)) :=
      stops_isNameChar_gap layout.mark (stops_specifier layout target (isNameChar_of_isQuote hquote))
    exact name_of_short (by simp) (List.all_eq_true.1 (by decide)) (by decide) hstop
  have hblank : Stops Text.isBlank (layout.specifier target ++ rest) :=
    stops_specifier layout target (isBlank_of_isQuote hquote)
  have hcomma : word "," (layout.specifier target ++ rest) = [] := if_neg (layout.ne_quote rfl)
  rw [Layout.source, List.append_assoc, List.append_assoc]
  rw [defaultBinding, bind_of_eq hname, bind_of_eq (blanks_append layout.mark hblank)]
  rw [bind_of_eq (optionally_of_fails hcomma), bind_of_eq (blanks_of_stops hblank)]
  rfl

theorem afterDefault_specifier (defaultName : Option (List Char)) (target : Target) :
    afterDefault defaultName (layout.specifier target ++ rest) = [] :=
  afterDefault_cons defaultName layout.quote (isBlank_of_isQuote layout.isQuote_quote)
    (layout.ne_quote rfl) (layout.ne_quote rfl) (layout.ne_quote rfl)

theorem afterImport_specifier (target : Target) :
    afterImport (layout.specifier target ++ rest) = [] := by
  have hquote := layout.isQuote_quote
  have hmark : typeMark (layout.specifier target ++ rest) =
      [(none, layout.specifier target ++ rest)] :=
    typeMark_cons layout.quote (layout.ne_quote rfl)
  have hdefault : defaultBinding (layout.specifier target ++ rest) = [] :=
    bind_of_fails (name_of_stops (stops_specifier layout target (isNameChar_of_isQuote hquote)))
  rw [afterImport, bind_of_eq hmark, bind_of_eq (optionally_of_fails hdefault)]
  exact afterDefault_specifier layout none target

/-- Where "from" comes at once, the word is tried as a default first. -/
theorem unbound_source (target : Target) :
    (optionally defaultBinding >>= afterDefault).Finds (layout.source target ++ rest)
      ⟨target.word, [], false⟩ rest := by
  refine finds_of_left_out ?_ (afterDefault_source layout none target)
  intro found hfound
  rw [defaultBinding_source, List.mem_singleton] at hfound
  rw [hfound]
  exact afterDefault_specifier layout _ target

theorem afterImport_alone (n : Name) (target : Target) :
    afterImport.Finds (n.text ++ (layout.name.text ++ (layout.source target ++ rest)))
      ⟨target.word, (Clause.alone n).bindings layout.read, false⟩ rest := by
  have hstop : Stops isNameChar (layout.name.text ++ (layout.source target ++ rest)) :=
    stops_isNameChar_separator layout.name
  have hsource : Stops Text.isBlank (layout.source target ++ rest) := stops_source layout target rfl
  by_cases htype : n.text = "type".toList
  · rw [Clause.bindings, if_pos htype, htype]
    have hmark : typeMark.Finds ("type".toList ++ (layout.name.text ++ (layout.source target ++ rest)))
        (some ()) (layout.source target ++ rest) := by
      refine Finds.optionally ?_
      refine (finds_of_eq (word_append "type" _)).bind ?_
      exact (finds_of_eq (someBlanks_append layout.name hsource)).bind (finds_pure () _)
    exact hmark.bind (unbound_source layout target)
  · rw [Clause.bindings, if_neg htype]
    have hmark : typeWord (n.text ++ (layout.name.text ++ (layout.source target ++ rest))) = [] :=
      List.eq_nil_iff_forall_not_mem.2 fun found hfound =>
        htype (typeWord_name n hstop found hfound).1
    refine (finds_of_eq (optionally_of_fails hmark)).bind ?_
    have hdefault : defaultBinding.Finds
        (n.text ++ (layout.name.text ++ (layout.source target ++ rest))) n.text
        (layout.source target ++ rest) := by
      have hcomma : word "," (layout.source target ++ rest) = [] := rfl
      refine (name_append n hstop).bind ?_
      refine (finds_of_eq (blanks_append layout.name.toGap hsource)).bind ?_
      refine (finds_of_eq (optionally_of_fails hcomma)).bind ?_
      exact (finds_of_eq (blanks_of_stops hsource)).bind (finds_pure _ _)
    exact hdefault.optionally.bind (afterDefault_source layout (some n.text) target)

theorem Brought.stops (brought : Brought) {accepts : Char → Bool} (hbrace : accepts '\x7b' = false)
    (hstar : accepts '*' = false) : Stops accepts (brought.text layout ++ rest) := by
  cases brought with
  | list items => exact stops_cons _ hbrace
  | whole n => exact stops_cons _ hstar

theorem afterImport_only (brought : Brought) (target : Target) :
    afterImport.Finds
      (brought.text layout ++ ((brought.ending layout).text ++ (layout.source target ++ rest)))
      ⟨target.word, brought.bindings layout.read, false⟩ rest := by
  have hmark : typeMark
      (brought.text layout ++ ((brought.ending layout).text ++ (layout.source target ++ rest))) =
      [(none, brought.text layout ++ ((brought.ending layout).text ++
        (layout.source target ++ rest)))] := by
    cases brought with
    | list items => exact typeMark_cons _ (by decide)
    | whole n => exact typeMark_cons _ (by decide)
  have hdefault : defaultBinding
      (brought.text layout ++ ((brought.ending layout).text ++ (layout.source target ++ rest))) = [] :=
    bind_of_fails (name_of_stops (brought.stops layout rfl rfl))
  refine (finds_of_eq hmark).bind ?_
  exact (finds_of_eq (optionally_of_fails hdefault)).bind (afterDefault_brought layout none brought target)

theorem afterImport_both (n : Name) (brought : Brought) (target : Target) :
    afterImport.Finds ((Clause.both n brought).text layout ++
        ((brought.ending layout).text ++ (layout.source target ++ rest)))
      ⟨target.word, (Clause.both n brought).bindings layout.read, false⟩ rest := by
  generalize htail : (brought.ending layout).text ++ (layout.source target ++ rest) = tail
  have hstop : Stops isNameChar (layout.beforeComma.text ++
      ',' :: (layout.afterComma.text ++ (brought.text layout ++ tail))) :=
    stops_isNameChar_gap layout.beforeComma (stops_cons ',' rfl)
  have hcomma : Stops Text.isBlank (',' :: (layout.afterComma.text ++ (brought.text layout ++ tail))) :=
    stops_cons ',' rfl
  have hbrought : Stops Text.isBlank (brought.text layout ++ tail) := brought.stops layout rfl rfl
  simp only [Clause.text, List.append_assoc, List.cons_append]
  refine finds_of_left_out ?_ ?_
  · intro found hfound
    obtain ⟨-, hrest⟩ := typeWord_name n hstop found hfound
    rw [Reading.dropWhile_append layout.beforeComma.blank hcomma] at hrest
    rw [hrest]
    have hdefault : defaultBinding
        (',' :: (layout.afterComma.text ++ (brought.text layout ++ tail))) = [] :=
      bind_of_fails (name_of_stops (stops_cons ',' rfl))
    rw [bind_of_eq (optionally_of_fails hdefault)]
    exact afterDefault_cons none ',' rfl (by decide) (by decide) (by decide)
  · have hdefault : defaultBinding.Finds (n.text ++ (layout.beforeComma.text ++
        ',' :: (layout.afterComma.text ++ (brought.text layout ++ tail)))) n.text
        (brought.text layout ++ tail) := by
      have hword : word "," (',' :: (layout.afterComma.text ++ (brought.text layout ++ tail))) =
          [((), layout.afterComma.text ++ (brought.text layout ++ tail))] := rfl
      refine (name_append n hstop).bind ?_
      refine (finds_of_eq (blanks_append layout.beforeComma hcomma)).bind ?_
      refine (finds_of_eq hword).optionally.bind ?_
      exact (finds_of_eq (blanks_append layout.afterComma hbrought)).bind (finds_pure _ _)
    refine hdefault.optionally.bind ?_
    rw [← htail]
    exact afterDefault_brought layout (some n.text) brought target

end Importing

namespace Link

/-- What is found of an import with bindings. There has to be white space after its first
word. -/
def binding? (layout : Layout) (link : Link) : Option ImportDeclaration :=
  if layout.keyword.text = [] then none
  else match link.form with
    | .importing clause => some ⟨link.target.word, clause.bindings layout.read, false⟩
    | .sideEffect | .reExport _ => none

def bare? (link : Link) : Option ImportDeclaration :=
  match link.form with
  | .sideEffect => some ⟨link.target.word, [], true⟩
  | .importing _ | .reExport _ => none

def reExport? (layout : Layout) (link : Link) : Option ExportDeclaration :=
  if layout.keyword.text = [] then none else link.export? layout.read

variable (layout : Layout)

theorem binding?_sideEffect (target : Target) : (Link.mk .sideEffect target).binding? layout = none :=
  ite_self none

theorem binding?_reExport (offered : Offered) (target : Target) :
    (Link.mk (.reExport offered) target).binding? layout = none :=
  ite_self none

theorem text_sideEffect (target : Target) : (Link.mk .sideEffect target).text layout =
    "import".toList ++ (layout.mark.text ++ layout.specifier target) := by
  simp only [text, Form.text_sideEffect, List.append_assoc]

theorem text_importing (clause : Clause) (target : Target) :
    (Link.mk (.importing clause) target).text layout =
      "import".toList ++ (layout.keyword.text ++ (clause.text layout ++
        ((clause.ending layout).text ++ layout.source target))) := by
  simp only [text, Form.text_importing, Layout.source, List.append_assoc]

theorem text_reExport (offered : Offered) (target : Target) :
    (Link.mk (.reExport offered) target).text layout =
      "export".toList ++ (layout.keyword.text ++ (offered.text layout ++
        ((offered.ending layout).text ++ layout.source target))) := by
  simp only [text, Form.text_reExport, Layout.source, List.append_assoc]

theorem text_sideEffect_append (target : Target) (rest : List Char) :
    (Link.mk .sideEffect target).text layout ++ rest =
      "import".toList ++ (layout.mark.text ++ (layout.specifier target ++ rest)) := by
  rw [text_sideEffect, List.append_assoc, List.append_assoc]

theorem text_importing_append (clause : Clause) (target : Target) (rest : List Char) :
    (Link.mk (.importing clause) target).text layout ++ rest =
      "import".toList ++ (layout.keyword.text ++ (clause.text layout ++
        ((clause.ending layout).text ++ (layout.source target ++ rest)))) := by
  simp only [text_importing, List.append_assoc]

theorem text_reExport_append (offered : Offered) (target : Target) (rest : List Char) :
    (Link.mk (.reExport offered) target).text layout ++ rest =
      "export".toList ++ (layout.keyword.text ++ (offered.text layout ++
        ((offered.ending layout).text ++ (layout.source target ++ rest)))) := by
  simp only [text_reExport, List.append_assoc]

end Link

section Whole

variable (layout : Layout) {rest : List Char}

theorem bindingImport_export (text : List Char) : bindingImport ("export".toList ++ text) = [] := rfl

theorem sideEffectImport_export (text : List Char) :
    sideEffectImport ("export".toList ++ text) = [] := rfl

theorem reExport_import (text : List Char) : reExport ("import".toList ++ text) = [] := rfl

theorem Clause.stops (clause : Clause) {accepts : Char → Bool}
    (hname : ∀ c, isNameChar c = true → accepts c = false) (hbrace : accepts '\x7b' = false)
    (hstar : accepts '*' = false) : Stops accepts (clause.text layout ++ rest) := by
  cases clause with
  | alone n => exact stops_append n.ne_nil fun c hc => hname c (n.chars c hc)
  | only brought => exact brought.stops layout hbrace hstar
  | both n brought =>
    rw [Clause.text, List.append_assoc]
    exact stops_append n.ne_nil fun c hc => hname c (n.chars c hc)

theorem bindingImport_link (link : Link) :
    (bindingImport (link.text layout ++ rest)).head? = (link.binding? layout).map (·, rest) := by
  obtain ⟨form, target⟩ := link
  cases form with
  | sideEffect =>
    have hstop : Stops Text.isBlank (layout.specifier target ++ rest) :=
      stops_specifier layout target (isBlank_of_isQuote layout.isQuote_quote)
    rw [Link.text_sideEffect_append, Link.binding?_sideEffect]
    by_cases hmark : layout.mark.text = []
    · rw [hmark, List.nil_append, bindingImport_of_stops hstop]
      rfl
    · rw [bindingImport_keyword ⟨layout.mark, hmark⟩ hstop, afterImport_specifier]
      rfl
  | importing clause =>
    have hstop : Stops Text.isBlank (clause.text layout ++
        ((clause.ending layout).text ++ (layout.source target ++ rest))) :=
      clause.stops layout (fun c hc => isBlank_of_isNameChar hc) rfl rfl
    rw [Link.text_importing_append, Link.binding?]
    by_cases hkeyword : layout.keyword.text = []
    · rw [hkeyword, List.nil_append, bindingImport_of_stops hstop, if_pos rfl]
      rfl
    · rw [if_neg hkeyword, bindingImport_keyword ⟨layout.keyword, hkeyword⟩ hstop]
      cases clause with
      | alone n => exact afterImport_alone layout n target
      | only brought => exact afterImport_only layout brought target
      | both n brought => exact afterImport_both layout n brought target
  | reExport offered =>
    rw [Link.text_reExport_append, bindingImport_export, Link.binding?_reExport]
    rfl

theorem sideEffectImport_link (link : Link) :
    (sideEffectImport (link.text layout ++ rest)).head? = link.bare?.map (·, rest) := by
  obtain ⟨form, target⟩ := link
  cases form with
  | sideEffect =>
    have hstop : Stops Text.isBlank (layout.specifier target ++ rest) :=
      stops_specifier layout target (isBlank_of_isQuote layout.isQuote_quote)
    rw [Link.text_sideEffect_append, sideEffectImport, bind_of_eq (indentation_import _)]
    rw [bind_of_eq (word_append "import" _), bind_of_eq (blanks_append layout.mark hstop)]
    rw [bind_of_eq (quoted_specifier layout target)]
    rfl
  | importing clause =>
    have hblank : Stops Text.isBlank (clause.text layout ++
        ((clause.ending layout).text ++ (layout.source target ++ rest))) :=
      clause.stops layout (fun c hc => isBlank_of_isNameChar hc) rfl rfl
    have hquote : Stops isQuote (clause.text layout ++
        ((clause.ending layout).text ++ (layout.source target ++ rest))) :=
      clause.stops layout (fun c hc => isQuote_of_isNameChar hc) rfl rfl
    rw [Link.text_importing_append, sideEffectImport, bind_of_eq (indentation_import _)]
    rw [bind_of_eq (word_append "import" _), bind_of_eq (blanks_append layout.keyword hblank)]
    rw [bind_of_fails (quoted_of_stops hquote)]
    rfl
  | reExport offered =>
    rw [Link.text_reExport_append, sideEffectImport_export]
    rfl

/-- What a re-export goes on with after its first word. -/
def afterReExport : Reading ExportDeclaration := do
  let _ ← typeMark
  let exported ← either starExport (exportedList <$> braced)
  let specifier ← fromClause
  return ⟨exported, some specifier⟩

/-- What a local export goes on with after its first word. -/
def afterLocal : Reading LocalExport :=
  either defaultExport <| either (named functionKeyword) <|
    either (named (spacedKeyword "class")) <| either (named variableKeyword) <|
    LocalExport.list <$> braced

theorem indentation_export (text : List Char) :
    indentation ("export".toList ++ text) = [([], "export".toList ++ text)] := rfl

theorem reExport_keyword (gap : Separator) {text : List Char} (hstop : Stops Text.isBlank text) :
    reExport ("export".toList ++ (gap.text ++ text)) = afterReExport text := by
  rw [reExport, bind_of_eq (indentation_export _), bind_of_eq (word_append "export" _)]
  exact bind_of_eq (someBlanks_append gap hstop)

theorem localExport_keyword (gap : Separator) {text : List Char} (hstop : Stops Text.isBlank text) :
    localExport ("export".toList ++ (gap.text ++ text)) = afterLocal text := by
  rw [localExport, bind_of_eq (indentation_export _), bind_of_eq (word_append "export" _)]
  exact bind_of_eq (someBlanks_append gap hstop)

theorem reExport_of_stops {text : List Char} (hstop : Stops Text.isBlank text) :
    reExport ("export".toList ++ text) = [] := by
  rw [reExport, bind_of_eq (indentation_export _), bind_of_eq (word_append "export" _)]
  exact bind_of_fails (someBlanks_of_stops hstop)

theorem exportedList_list (items : List Item) :
    exportedList (layout.list items) = exportedItems layout.read items := by
  rw [exportedList, layout.listItems_list]
  rfl

/-- After a list only the specifier decides. -/
theorem afterReExport_braced {text list : List Char} (h : braced ('\x7b' :: text) = [(list, rest)]) :
    afterReExport ('\x7b' :: text) =
      (fromClause rest).map fun found => (⟨exportedList list, some found.1⟩, found.2) := by
  have hmark : typeMark ('\x7b' :: text) = [(none, '\x7b' :: text)] :=
    typeMark_cons '\x7b' (by decide)
  have hlist : either starExport (exportedList <$> braced) ('\x7b' :: text) =
      [(exportedList list, rest)] := by
    rw [either_of_fails rfl, map_of_eq exportedList h]
  rw [afterReExport, bind_of_eq hmark, bind_of_eq hlist]
  exact List.map_eq_flatMap.symm

theorem afterReExport_braces (items : List Item) (text : List Char) :
    afterReExport (layout.braces items ++ text) =
      (fromClause text).map fun found =>
        (⟨exportedItems layout.read items, some found.1⟩, found.2) := by
  rw [← exportedList_list layout items]
  exact afterReExport_braced (braced_braces layout items)

theorem afterReExport_offered (offered : Offered) (target : Target) :
    afterReExport.Finds
      (offered.text layout ++ ((offered.ending layout).text ++ (layout.source target ++ rest)))
      ⟨offered.exported layout.read, some target.word⟩ rest := by
  have hfrom : ∀ text : List Char, Stops Text.isBlank (layout.source target ++ text) :=
    fun text => stops_source layout target rfl
  cases offered with
  | everything =>
    have hstar : starExport.Finds ('*' :: (layout.brace.text ++ (layout.source target ++ rest)))
        [.everything] (layout.source target ++ rest) := by
      have hword : word "*" ('*' :: (layout.brace.text ++ (layout.source target ++ rest))) =
          [((), layout.brace.text ++ (layout.source target ++ rest))] := rfl
      have hname : asName (layout.source target ++ rest) = [] := rfl
      refine (finds_of_eq hword).bind ?_
      refine (finds_of_eq (blanks_append layout.brace (hfrom rest))).bind ?_
      exact (finds_of_eq (optionally_of_fails hname)).bind (finds_pure _ _)
    refine (finds_of_eq (typeMark_cons '*' (by decide))).bind ?_
    refine hstar.either_left.bind ?_
    exact (finds_of_eq (fromClause_source_at layout target)).bind (finds_pure _ _)
  | everythingAs n =>
    have hstar := starExport_whole layout n (stops_isNameChar_separator layout.name :
      Stops isNameChar (layout.name.text ++ (layout.source target ++ rest)))
    refine (finds_of_eq (typeMark_cons '*' (by decide))).bind ?_
    refine hstar.either_left.bind ?_
    exact (finds_of_eq (fromClause_source layout layout.name.toGap target)).bind (finds_pure _ _)
  | list items =>
    rw [Offered.text, Finds, afterReExport_braces, Offered.ending, fromClause_source]
    rfl

theorem reExport_link (link : Link) :
    (reExport (link.text layout ++ rest)).head? = (link.reExport? layout).map (·, rest) := by
  obtain ⟨form, target⟩ := link
  cases form with
  | sideEffect =>
    rw [Link.text_sideEffect_append, reExport_import, Link.reExport?, Link.export?, ite_self]
    rfl
  | importing clause =>
    rw [Link.text_importing_append, reExport_import, Link.reExport?, Link.export?, ite_self]
    rfl
  | reExport offered =>
    have hstop : Stops Text.isBlank (offered.text layout ++
        ((offered.ending layout).text ++ (layout.source target ++ rest))) := by
      cases offered with
      | everything => exact stops_cons _ rfl
      | everythingAs n => exact stops_cons _ rfl
      | list items => exact stops_cons _ rfl
    rw [Link.text_reExport_append, Link.reExport?]
    by_cases hkeyword : layout.keyword.text = []
    · rw [hkeyword, List.nil_append, reExport_of_stops hstop, if_pos rfl]
      rfl
    · rw [if_neg hkeyword, reExport_keyword ⟨layout.keyword, hkeyword⟩ hstop]
      exact afterReExport_offered layout offered target

theorem afterLocal_braces (items : List Item) (text : List Char) :
    afterLocal (layout.braces items ++ text) = [(.list (layout.list items), text)] := by
  have hlist := map_of_eq LocalExport.list (braced_braces layout items : _ = [(_, text)])
  rw [afterLocal, either_of_fails rfl, either_of_fails rfl, either_of_fails rfl,
    either_of_fails rfl, hlist]

theorem isFromNext_source (gap : Gap) (target : Target) :
    isFromNext (gap.text ++ (layout.source target ++ rest)) = true := by
  have hstop : Stops Text.isBlank (layout.source target ++ rest) := stops_source layout target rfl
  rw [isFromNext, Reading.dropWhile_append gap.blank hstop, Layout.source, List.append_assoc]
  exact List.isPrefixOf_iff_prefix.2 ⟨_, rfl⟩

/-- What a local export is read as. -/
def Own.found : Own → LocalExport
  | .default => .default
  | .list items => .list (layout.list items)
  | .single _ name => .single name.word

theorem named_name (keyword : Reading Unit) (n : Name) {text : List Char}
    (h : keyword.Finds text () (n.text ++ rest)) (hstop : Stops isNameChar rest) :
    (named keyword).Finds text (.single n.word) rest := by
  refine h.bind ?_
  exact (finds_of_eq (nonemptyRun_append n.ne_nil n.chars hstop)).bind (finds_pure _ _)

theorem functionKeyword_name (n : Name) :
    functionKeyword.Finds ("function ".toList ++ (n.text ++ rest)) () (n.text ++ rest) := by
  have hstop : Stops Text.isBlank (n.text ++ rest) := stops_isBlank_name n
  have hasync : (do word "async"; let _ ← someBlanks : Reading Unit)
      ("function ".toList ++ (n.text ++ rest)) = [] := rfl
  have hword : word "function" ("function ".toList ++ (n.text ++ rest)) =
      [((), Separator.space.text ++ (n.text ++ rest))] := rfl
  have hstar : word "*" (n.text ++ rest) = [] := exactly_name '*' n rfl
  refine (finds_of_eq (optionally_of_fails hasync)).bind ?_
  refine (finds_of_eq hword).bind ?_
  refine (finds_of_eq (blanks_append Separator.space.toGap hstop)).bind ?_
  refine (finds_of_eq (optionally_of_fails hstar)).bind ?_
  exact (finds_of_eq (blanks_of_stops hstop)).bind (finds_pure () _)

theorem afterLocal_single (kind : Kind) (n : Name) :
    afterLocal.Finds (kind.before ++ (n.text ++ (kind.after ++ rest))) (.single n.word)
      (kind.after ++ rest) := by
  have hstop : Stops Text.isBlank (n.text ++ (kind.after ++ rest)) := stops_isBlank_name n
  have hspace := someBlanks_append .space hstop
  cases kind with
  | constant =>
    have hkeyword : variableKeyword.Finds
        ("const ".toList ++ (n.text ++ (Kind.constant.after ++ rest))) ()
        (n.text ++ (Kind.constant.after ++ rest)) := by
      refine (finds_of_eq rfl).bind ?_
      exact (finds_of_eq hspace).bind (finds_pure () _)
    have hnamed := named_name variableKeyword n hkeyword (stops_cons ' ' rfl)
    rw [Finds, afterLocal, either_of_fails rfl, either_of_fails rfl, either_of_fails rfl]
    exact hnamed.either_left
  | function =>
    have hnamed := named_name functionKeyword n
      (functionKeyword_name n : Finds _ _ () (n.text ++ (Kind.function.after ++ rest)))
      (stops_cons '(' rfl)
    rw [Finds, afterLocal, either_of_fails rfl]
    exact hnamed.either_left
  | blueprint =>
    have hkeyword : (spacedKeyword "class").Finds
        ("class ".toList ++ (n.text ++ (Kind.blueprint.after ++ rest))) ()
        (n.text ++ (Kind.blueprint.after ++ rest)) := by
      refine (finds_of_eq rfl).bind ?_
      exact (finds_of_eq hspace).bind (finds_pure () _)
    have hnamed := named_name (spacedKeyword "class") n hkeyword (stops_cons ' ' rfl)
    rw [Finds, afterLocal, either_of_fails rfl, either_of_fails rfl]
    exact hnamed.either_left

theorem Own.stops_core (own : Own) : Stops Text.isBlank (own.core layout ++ rest) := by
  cases own with
  | default => exact stops_cons 'd' rfl
  | list items => exact stops_cons '\x7b' rfl
  | single kind n =>
    cases kind with
    | constant => exact stops_cons 'c' rfl
    | function => exact stops_cons 'f' rfl
    | blueprint => exact stops_cons 'c' rfl

theorem localExport_own (hkeyword : layout.keyword.text ≠ []) (own : Own) :
    localExport.Finds (own.front layout ++ (own.back ++ rest)) (own.found layout)
      (own.back ++ rest) := by
  rw [Own.front_eq, List.append_assoc, List.append_assoc, Finds,
    localExport_keyword ⟨layout.keyword, hkeyword⟩ (own.stops_core layout)]
  cases own with
  | default => rfl
  | list items => exact finds_of_eq (afterLocal_braces layout items _)
  | single kind n =>
    have htext : (Own.single kind n).core layout ++ (kind.after ++ rest) =
        kind.before ++ (n.text ++ (kind.after ++ rest)) := List.append_assoc ..
    exact (congrArg (fun text => (afterLocal text).head?) htext).trans (afterLocal_single kind n)

/-- A local export is not read as a re-export: after its list no "from" comes. -/
theorem reExport_own (hkeyword : layout.keyword.text ≠ []) (own : Own) :
    reExport (own.text layout ++ ';' :: rest) = [] := by
  rw [Own.text, Own.front_eq, List.append_assoc, List.append_assoc, List.append_assoc,
    reExport_keyword ⟨layout.keyword, hkeyword⟩ (own.stops_core layout)]
  cases own with
  | default => rfl
  | list items => exact afterReExport_braces layout items (';' :: rest)
  | single kind n =>
    cases kind with
    | constant => rfl
    | function => rfl
    | blueprint => rfl

theorem bindingImport_own (own : Own) : bindingImport (own.text layout ++ rest) = [] := by
  cases own with
  | default => rfl
  | list items => rfl
  | single kind n => rfl

theorem sideEffectImport_own (own : Own) : sideEffectImport (own.text layout ++ rest) = [] := by
  cases own with
  | default => rfl
  | list items => rfl
  | single kind n => rfl

/-- The list of a re-export is read as a local one too, but "from" comes after it. -/
theorem localExport_link (hkeyword : layout.keyword.text ≠ []) (link : Link) :
    localExport (link.text layout ++ rest) = [] ∨
      ∃ items front after, link.text layout = front ++ after ∧ front ≠ [] ∧
        localExport (link.text layout ++ rest) = [(.list items, after ++ rest)] ∧
        isFromNext (after ++ rest) = true := by
  obtain ⟨form, target⟩ := link
  cases form with
  | sideEffect =>
    rw [Link.text_sideEffect_append]
    exact .inl rfl
  | importing clause =>
    rw [Link.text_importing_append]
    exact .inl rfl
  | reExport offered =>
    rw [Link.text_reExport_append]
    have hafter : ∀ c text, Text.isBlank c = false →
        localExport ("export".toList ++ (layout.keyword.text ++ c :: text)) = afterLocal (c :: text) :=
      fun c text hc => localExport_keyword ⟨layout.keyword, hkeyword⟩ (stops_cons c hc)
    cases offered with
    | everything => exact .inl (hafter '*' _ rfl)
    | everythingAs n => exact .inl (hafter '*' _ rfl)
    | list items =>
      have hlist := afterLocal_braces layout items (layout.brace.text ++ (layout.source target ++ rest))
      refine .inr ⟨layout.list items, "export".toList ++ (layout.keyword.text ++ layout.braces items),
        layout.brace.text ++ layout.source target, ?_, by simp, ?_, ?_⟩
      · have htext := Link.text_reExport layout (.list items) target
        simpa [Offered.text, Offered.ending] using htext
      · rw [List.append_assoc]
        exact (hafter '\x7b' _ rfl).trans hlist
      · rw [List.append_assoc]
        exact isFromNext_source layout layout.brace target

end Whole

namespace Declaration

section Found

variable (layout : Layout) (declaration : Declaration)

def binding? : Option ImportDeclaration :=
  match declaration with
  | .linking link => link.binding? layout
  | .owning _ => none

def bare? : Option ImportDeclaration :=
  match declaration with
  | .linking link => link.bare?
  | .owning _ => none

def reExport? : Option ExportDeclaration :=
  match declaration with
  | .linking link => link.reExport? layout
  | .owning _ => none

def ownExport? (read : List Item → List (String × Option String)) : Option ExportDeclaration :=
  match declaration with
  | .linking _ => none
  | .owning own => some ⟨own.exported read, none⟩

end Found

section Passes

variable (layout : Layout) (declaration : Declaration) (rest : List Char)

theorem head?_bindingImport : (bindingImport (declaration.text layout ++ rest)).head? =
    (declaration.binding? layout).map (·, rest) := by
  cases declaration with
  | linking link => exact bindingImport_link layout link
  | owning own => exact congrArg List.head? (bindingImport_own layout own)

theorem head?_sideEffectImport :
    (sideEffectImport (declaration.text layout ++ rest)).head? = declaration.bare?.map (·, rest) := by
  cases declaration with
  | linking link => exact sideEffectImport_link layout link
  | owning own => exact congrArg List.head? (sideEffectImport_own layout own)

theorem head?_reExport (hkeyword : layout.keyword.text ≠ []) :
    (reExport (declaration.text layout ++ ';' :: rest)).head? =
      (declaration.reExport? layout).map (·, ';' :: rest) := by
  cases declaration with
  | linking link => exact reExport_link layout link
  | owning own => exact congrArg List.head? (reExport_own layout hkeyword own)

end Passes

section Lines

variable (layout : LineLayout) (declaration : Declaration)

theorem import?_eq : declaration.import? pairs =
    (declaration.binding? layout.toLayout).or declaration.bare? := by
  rw [← layout.read_eq]
  cases declaration with
  | linking link =>
    rw [binding?, Link.binding?, if_neg layout.keyword_ne_nil]
    obtain ⟨_ | _ | _, _⟩ := link
    all_goals rfl
  | owning own => rfl

theorem export?_eq : declaration.export? pairs =
    (declaration.reExport? layout.toLayout).or (declaration.ownExport? pairs) := by
  rw [← layout.read_eq]
  cases declaration with
  | linking link =>
    rw [export?, reExport?, Link.reExport?, if_neg layout.keyword_ne_nil]
    exact Option.or_none.symm
  | owning own => rfl

end Lines

end Declaration

end ModuleLoading.Source
