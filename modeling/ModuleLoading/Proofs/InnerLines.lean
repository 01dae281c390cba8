import Mathlib.Data.List.TakeWhile
import ModuleLoading.Proofs.DeclarationReadings
import ModuleLoading.Proofs.Occurrences

/-!
Declarations over several lines. Where the white space in a declaration has line ends, a
pass looks at what comes after them too. It takes none of it for a declaration, with one
exception: a name "import" before "from" looks like an import that binds nothing.
-/
namespace ModuleLoading.Source

open Reading

def isIndent (c : Char) : Bool := c == ' ' || c == '\t'

/-- What follows the name of an item in a list. -/
def Closes (text : List Char) : Prop :=
  ∃ (gap : Gap) (c : Char) (tail : List Char), (c = ',' ∨ c = '\x7d') ∧ text = gap.text ++ c :: tail

/-- Readings that begin with an indentation and a word, and never go on with a name or, after
the word, with what stands between two names. -/
structure Inner {α : Type} (reading : Reading α) (keyword : String) (next : Reading α) : Prop where
  isKeyword : keyword = "import" ∨ keyword = "export"
  eq : ∀ text, reading text = (word keyword >>= fun _ => next) (text.dropWhile isIndent)
  name : ∀ c text, isNameChar c = true → next (c :: text) = []
  closing : ∀ text, Closes text → next text = []
  renamed : ∀ (left right : Separator) (other : Name) text, Closes text →
    next (left.text ++ ("as".toList ++ (right.text ++ (other.text ++ text)))) = []

/-- White space after which a line begins, at most with an indentation. -/
def Gap.EndsLine (gap : Gap) : Prop :=
  ∃ front back, gap.text = front ++ '\n' :: back ∧ back.all isIndent = true

theorem Gap.endsLine_iff (gap : Gap) :
    (gap.text.reverse.dropWhile isIndent).head? = some '\n' ↔ gap.EndsLine := by
  constructor
  · intro h
    obtain ⟨tail, htail⟩ := List.head?_eq_some_iff.1 h
    have hsplit := List.takeWhile_append_dropWhile (p := isIndent) (l := gap.text.reverse)
    rw [htail, ← List.reverse_inj, List.reverse_reverse, List.reverse_append, List.reverse_cons,
      List.append_assoc] at hsplit
    refine ⟨tail.reverse, (gap.text.reverse.takeWhile isIndent).reverse, hsplit.symm, ?_⟩
    rw [List.all_reverse, List.all_takeWhile]
  · rintro ⟨front, back, heq, hback⟩
    have hreverse : ∀ c ∈ back.reverse, isIndent c = true := by
      simpa only [List.mem_reverse] using List.all_eq_true.1 hback
    rw [heq, List.reverse_append, List.reverse_cons, List.append_assoc, List.singleton_append,
      Reading.dropWhile_append hreverse (stops_cons '\n' rfl)]
    rfl

instance (gap : Gap) : Decidable gap.EndsLine := decidable_of_iff _ gap.endsLine_iff

/-- The name right before "from", with the white space before it. -/
def Form.last? (layout : Layout) : Form → Option (Gap × Name)
  | .importing (.alone n) => some (layout.keyword, n)
  | .importing (.only (.whole n)) | .importing (.both _ (.whole n)) | .reExport (.everythingAs n) =>
    some (layout.renamed.toGap, n)
  | .sideEffect | .importing (.only (.list _)) | .importing (.both _ (.list _))
  | .reExport .everything | .reExport (.list _) => none

theorem stops_isIndent_of_stops {text : List Char} (h : Stops Text.isBlank text) :
    Stops isIndent text := by
  intro c hc
  by_contra hindent
  have hblank := h c hc
  simp only [isIndent, Bool.not_eq_false, Bool.or_eq_true, beq_iff_eq] at hindent
  rcases hindent with rfl | rfl
  · cases hblank
  · cases hblank

theorem Closes.stops {text : List Char} (h : Closes text) : Stops isNameChar text := by
  obtain ⟨gap, c, tail, hc, rfl⟩ := h
  refine stops_isNameChar_gap gap (stops_cons c ?_)
  rcases hc with rfl | rfl
  · rfl
  · rfl

theorem silent_name {α : Type} {reading : Reading α} (n : Name) (rest : List Char) :
    Silent reading n.text rest :=
  silent_of_notMem (n.notMem_of_not_isNameChar '\n' rfl)

namespace Inner

variable {α : Type} {reading : Reading α} {keyword : String} {next : Reading α}
  (inner : Inner reading keyword next) {rest : List Char}

include inner

theorem fails_cons (c : Char) (hi : c ≠ 'i') (he : c ≠ 'e') :
    (word keyword >>= fun _ => next) (c :: rest) = [] := by
  refine bind_of_fails ?_
  rcases inner.isKeyword with rfl | rfl
  · exact if_neg hi.symm
  · exact if_neg he.symm

/-- A name begins a declaration only if it is the word itself. -/
theorem fails_name (n : Name) (hstop : Stops isNameChar rest)
    (h : n.text = keyword.toList → next rest = []) :
    (word keyword >>= fun _ => next) (n.text ++ rest) = [] := by
  have hkeyword : ∀ c ∈ keyword.toList, isNameChar c = true := by
    rcases inner.isKeyword with rfl | rfl
    · exact List.all_eq_true.1 (by decide)
    · exact List.all_eq_true.1 (by decide)
  rcases exactly_cases keyword.toList (n.text ++ rest) with hnone | ⟨tail, htail, hsome⟩
  · exact bind_of_fails hnone
  · have hword : word keyword (n.text ++ rest) = [((), tail)] := hsome
    rw [bind_of_eq hword]
    obtain ⟨more, hmore, rfl⟩ := text_of_append_eq n hstop keyword.toList tail hkeyword htail
    cases more with
    | nil => exact h (by rw [hmore, List.append_nil])
    | cons c more => exact inner.name c _ (n.chars c (by simp [hmore]))

/-- White space makes no difference: what is not an indentation stands before no word. -/
theorem fails_gap (gap : Gap) (hstop : Stops isIndent rest)
    (h : gap.text.all isIndent = true → (word keyword >>= fun _ => next) rest = []) :
    reading (gap.text ++ rest) = [] := by
  rw [inner.eq, List.dropWhile_append]
  cases hdrop : gap.text.dropWhile isIndent with
  | nil =>
    have hall : gap.text.all isIndent = true :=
      List.all_eq_true.2 (List.dropWhile_eq_nil_iff.1 hdrop)
    rw [List.isEmpty_nil, if_pos rfl, Reading.dropWhile_of_stops hstop]
    exact h hall
  | cons c more =>
    have hc : Text.isBlank c = true := gap.blank c
      ((List.dropWhile_suffix isIndent).subset (hdrop ▸ List.mem_cons_self))
    rw [List.isEmpty_cons, if_neg Bool.false_ne_true]
    refine inner.fails_cons c ?_ ?_
    · rintro rfl
      cases hc
    · rintro rfl
      cases hc

theorem silent_gap (gap : Gap) (hstop : Stops isIndent rest)
    (h : gap.EndsLine → (word keyword >>= fun _ => next) rest = []) :
    Silent reading gap.text rest := by
  intro front back heq
  let after : Gap := ⟨back, fun c hc => gap.blank c (by simp [heq, hc])⟩
  exact inner.fails_gap after hstop fun hall => h ⟨front, back, heq, hall⟩

/-- Before a character that none of the two words begins with. -/
theorem silent_gap_cons (gap : Gap) (c : Char) (hindent : isIndent c = false) (hi : c ≠ 'i')
    (he : c ≠ 'e') : Silent reading gap.text (c :: rest) :=
  inner.silent_gap gap (stops_cons c hindent) fun _ => inner.fails_cons c hi he

theorem silent_gap_name (gap : Gap) (n : Name) (hstop : Stops isNameChar rest)
    (h : n.text = keyword.toList → gap.EndsLine → next rest = []) :
    Silent reading gap.text (n.text ++ rest) :=
  inner.silent_gap gap (stops_isIndent_of_stops (stops_isBlank_name n)) fun hends =>
    inner.fails_name n hstop fun hkeyword => h hkeyword hends

theorem silent_entry (before : Gap) (entry : Entry) (hrest : Closes rest) :
    Silent reading (before.text ++ entry.text) rest := by
  cases entry with
  | plain n =>
    exact (inner.silent_gap_name before n hrest.stops fun _ _ => inner.closing rest hrest).append
      (silent_name n _)
  | renamed n left right other =>
    have hleft : Silent reading left.text ("as".toList ++ (right.text ++ (other.text ++ rest))) :=
      inner.silent_gap_cons left.toGap 'a' rfl (by decide) (by decide)
    have hright : Silent reading right.text (other.text ++ rest) :=
      inner.silent_gap_name right.toGap other hrest.stops fun _ _ => inner.closing rest hrest
    have has : Silent reading "as".toList (right.text ++ (other.text ++ rest)) :=
      silent_of_notMem (by decide)
    have hafter : Silent reading (left.text ++ ("as".toList ++ (right.text ++ other.text))) rest := by
      refine Silent.append ?_ (Silent.append ?_ (hright.append (silent_name other _)))
      · simpa only [List.append_assoc] using hleft
      · simpa only [List.append_assoc] using has
    have hbefore : Silent reading before.text
        (n.text ++ (left.text ++ ("as".toList ++ (right.text ++ (other.text ++ rest))))) :=
      inner.silent_gap_name before n (stops_isNameChar_separator left)
        fun _ _ => inner.renamed left right other rest hrest
    refine Silent.append ?_ ((silent_name n _).append hafter)
    simpa [Entry.text] using hbefore

theorem silent_piece (piece : Piece) (c : Char) (hc : c = ',' ∨ c = '\x7d') :
    Silent reading piece.text (c :: rest) := by
  have hgap : ∀ gap : Gap, Silent reading gap.text (c :: rest) := by
    intro gap
    rcases hc with rfl | rfl
    · exact inner.silent_gap_cons gap ',' rfl (by decide) (by decide)
    · exact inner.silent_gap_cons gap '\x7d' rfl (by decide) (by decide)
  cases piece with
  | blank gap => exact hgap gap
  | filled before entry after =>
    have hentry := inner.silent_entry before entry ⟨after, c, rest, hc, rfl⟩
    have hpiece := hentry.append (hgap after)
    rwa [List.append_assoc] at hpiece

theorem silent_listText (pieces : List Piece) : Silent reading (listText pieces) ('\x7d' :: rest) := by
  induction pieces with
  | nil => exact silent_of_notMem (by simp [listText, Text.join])
  | cons piece more ih =>
    cases more with
    | nil => exact inner.silent_piece piece '\x7d' (.inr rfl)
    | cons next more =>
      have hcomma : Silent reading [','] (listText (next :: more) ++ '\x7d' :: rest) :=
        silent_of_notMem (by decide)
      exact Silent.append (inner.silent_piece piece ',' (.inl rfl)) (hcomma.append ih)

section Layouts

variable (layout : Layout)

theorem silent_braces (items : List Item) : Silent reading (layout.braces items) rest := by
  have hlist : Silent reading (layout.list items) ('\x7d' :: rest) :=
    inner.silent_listText (layout.pieces items)
  have hopen : Silent reading ['\x7b'] (layout.list items ++ ['\x7d'] ++ rest) :=
    silent_of_notMem (by decide)
  have hclose : Silent reading ['\x7d'] rest := silent_of_notMem (by decide)
  exact hopen.append (Silent.append hlist hclose)

theorem silent_before_specifier (gap : Gap) (target : Target) :
    Silent reading gap.text (layout.specifier target ++ rest) := by
  have hindent : isIndent layout.quote = false := by
    have hspace : ' ' ≠ layout.quote := layout.ne_quote rfl
    have htab : '\t' ≠ layout.quote := layout.ne_quote rfl
    simp [isIndent, hspace.symm, htab.symm]
  exact inner.silent_gap_cons gap layout.quote hindent (layout.ne_quote rfl).symm
    (layout.ne_quote rfl).symm

/-- White space and the source of a declaration. -/
theorem silent_source (gap : Gap) (target : Target) :
    Silent reading (gap.text ++ layout.source target) rest := by
  have hgap : Silent reading gap.text (layout.source target ++ rest) :=
    inner.silent_gap_cons gap 'f' rfl (by decide) (by decide)
  have hfrom : Silent reading "from".toList (layout.mark.text ++ (layout.specifier target ++ rest)) :=
    silent_of_notMem (by decide)
  have hmark : Silent reading layout.mark.text (layout.specifier target ++ rest) :=
    inner.silent_before_specifier layout layout.mark target
  have hspecifier : Silent reading (layout.specifier target) rest :=
    silent_of_notMem (layout.notMem_specifier target)
  refine hgap.append (Silent.append ?_ (hmark.append hspecifier))
  rwa [List.append_assoc]

/-- A whole module's name up to the white space before it. -/
theorem silent_star : Silent reading ('*' :: (layout.star.text ++ "as".toList)) rest := by
  have hopen : Silent reading ['*'] (layout.star.text ++ "as".toList ++ rest) :=
    silent_of_notMem (by decide)
  have hstar : Silent reading layout.star.text ("as".toList ++ rest) :=
    inner.silent_gap_cons layout.star 'a' rfl (by decide) (by decide)
  have has : Silent reading "as".toList rest := silent_of_notMem (by decide)
  exact hopen.append (hstar.append has)

/-- A default and the comma after it. -/
theorem silent_default (n : Name) (c : Char) (hindent : isIndent c = false) (hi : c ≠ 'i')
    (he : c ≠ 'e') :
    Silent reading (layout.keyword.text ++
      (n.text ++ (layout.beforeComma.text ++ ',' :: layout.afterComma.text))) (c :: rest) := by
  have hkeyword : Silent reading layout.keyword.text
      (n.text ++ (layout.beforeComma.text ++ ',' :: (layout.afterComma.text ++ c :: rest))) := by
    have hcloses : Closes (layout.beforeComma.text ++ ',' :: (layout.afterComma.text ++ c :: rest)) :=
      ⟨layout.beforeComma, ',', _, .inl rfl, rfl⟩
    exact inner.silent_gap_name layout.keyword n hcloses.stops fun _ _ =>
      inner.closing _ hcloses
  have hbefore : Silent reading layout.beforeComma.text (',' :: (layout.afterComma.text ++ c :: rest)) :=
    inner.silent_gap_cons layout.beforeComma ',' rfl (by decide) (by decide)
  have hcomma : Silent reading [','] (layout.afterComma.text ++ c :: rest) :=
    silent_of_notMem (by decide)
  have hafter : Silent reading layout.afterComma.text (c :: rest) :=
    inner.silent_gap_cons layout.afterComma c hindent hi he
  refine Silent.append ?_ ((silent_name n _).append (Silent.append ?_ (hcomma.append hafter)))
  · simpa only [List.append_assoc, List.cons_append, List.nil_append] using hkeyword
  · simpa only [List.append_assoc, List.cons_append, List.nil_append] using hbefore

/-- Nothing begins in a declaration without a name right before "from". -/
theorem silent_link (link : Link) (h : link.form.last? layout = none) :
    Silent reading (link.text layout) rest := by
  obtain ⟨form, target⟩ := link
  have himport : ∀ rest, Silent reading "import".toList rest := fun rest =>
    silent_of_notMem (by decide)
  have hexport : ∀ rest, Silent reading "export".toList rest := fun rest =>
    silent_of_notMem (by decide)
  have hkeyword : ∀ c tail, isIndent c = false → c ≠ 'i' → c ≠ 'e' →
      Silent reading layout.keyword.text (c :: tail) :=
    fun c tail => inner.silent_gap_cons layout.keyword c
  have hsource : Silent reading (layout.brace.text ++ layout.source target) rest :=
    inner.silent_source layout layout.brace target
  have hlist : ∀ items, Silent reading
      (layout.braces items ++ (layout.brace.text ++ layout.source target)) rest :=
    fun items => (inner.silent_braces layout items).append hsource
  match form, h with
  | .sideEffect, _ =>
    have hmark : Silent reading layout.mark.text (layout.specifier target ++ rest) :=
      inner.silent_before_specifier layout layout.mark target
    have hspecifier : Silent reading (layout.specifier target) rest :=
      silent_of_notMem (layout.notMem_specifier target)
    rw [Link.text_sideEffect]
    exact (himport _).append (hmark.append hspecifier)
  | .importing (.only (.list items)), _ =>
    rw [Link.text_importing]
    exact (himport _).append ((hkeyword '\x7b' _ rfl (by decide) (by decide)).append (hlist items))
  | .importing (.both n (.list items)), _ =>
    have htext : (Link.mk (.importing (.both n (.list items))) target).text layout =
        "import".toList ++ ((layout.keyword.text ++
          (n.text ++ (layout.beforeComma.text ++ ',' :: layout.afterComma.text))) ++
            (layout.braces items ++ (layout.brace.text ++ layout.source target))) := by
      simp [Link.text_importing, Clause.text, Clause.ending, Brought.text, Brought.ending]
    rw [htext]
    refine (himport _).append (Silent.append ?_ (hlist items))
    exact inner.silent_default layout n '\x7b' rfl (by decide) (by decide)
  | .reExport .everything, _ =>
    have hstar : Silent reading ['*'] (layout.brace.text ++ layout.source target ++ rest) :=
      silent_of_notMem (by decide)
    rw [Link.text_reExport]
    exact (hexport _).append ((hkeyword '*' _ rfl (by decide) (by decide)).append (hstar.append hsource))
  | .reExport (.list items), _ =>
    rw [Link.text_reExport]
    exact (hexport _).append ((hkeyword '\x7b' _ rfl (by decide) (by decide)).append (hlist items))

/-- Nothing begins in a declaration in front of such a name either. -/
theorem silent_before_last (link : Link) (gap : Gap) (n : Name)
    (h : link.form.last? layout = some (gap, n)) :
    ∃ front, link.text layout =
        front ++ (gap.text ++ (n.text ++ (layout.name.text ++ layout.source link.target))) ∧
      ∀ rest, Silent reading front rest := by
  obtain ⟨form, target⟩ := link
  have himport : ∀ rest, Silent reading "import".toList rest := fun rest =>
    silent_of_notMem (by decide)
  have hexport : ∀ rest, Silent reading "export".toList rest := fun rest =>
    silent_of_notMem (by decide)
  have hkeyword : ∀ tail, Silent reading layout.keyword.text ('*' :: tail) := fun tail =>
    inner.silent_gap_cons layout.keyword '*' rfl (by decide) (by decide)
  have hstar : ∀ rest, Silent reading ('*' :: (layout.star.text ++ "as".toList)) rest :=
    fun rest => inner.silent_star layout
  match form, h with
  | .importing (.alone m), h =>
    cases h
    exact ⟨"import".toList, Link.text_importing layout (.alone n) target, himport⟩
  | .importing (.only (.whole m)), h =>
    cases h
    refine ⟨"import".toList ++ (layout.keyword.text ++ '*' :: (layout.star.text ++ "as".toList)), ?_,
      fun rest => (himport _).append ((hkeyword _).append (hstar rest))⟩
    simp [Link.text_importing, Clause.text, Clause.ending, Brought.text, Brought.ending]
  | .importing (.both d (.whole m)), h =>
    cases h
    refine ⟨"import".toList ++ ((layout.keyword.text ++ (d.text ++ (layout.beforeComma.text ++
      ',' :: layout.afterComma.text))) ++ '*' :: (layout.star.text ++ "as".toList)), ?_,
      fun rest => (himport _).append (Silent.append ?_ (hstar rest))⟩
    · simp [Link.text_importing, Clause.text, Clause.ending, Brought.text, Brought.ending]
    · exact inner.silent_default layout d '*' rfl (by decide) (by decide)
  | .reExport (.everythingAs m), h =>
    cases h
    refine ⟨"export".toList ++ (layout.keyword.text ++ '*' :: (layout.star.text ++ "as".toList)), ?_,
      fun rest => (hexport _).append ((hkeyword _).append (hstar rest))⟩
    simp [Link.text_reExport, Offered.text, Offered.ending, Brought.text]

/-- Nothing begins in a declaration at all unless "from" is a way to go on. -/
theorem silent_whole_link (link : Link)
    (h : ∀ gap n, link.form.last? layout = some (gap, n) → n.text = keyword.toList → gap.EndsLine →
      next (layout.name.text ++ (layout.source link.target ++ rest)) = []) :
    Silent reading (link.text layout) rest := by
  cases hlast : link.form.last? layout with
  | none => exact inner.silent_link layout link hlast
  | some last =>
    obtain ⟨front, htext, hfront⟩ := inner.silent_before_last layout link last.1 last.2 hlast
    have hgap : Silent reading last.1.text
        (last.2.text ++ (layout.name.text ++ (layout.source link.target ++ rest))) :=
      inner.silent_gap_name last.1 last.2 (stops_isNameChar_separator layout.name)
        (h last.1 last.2 hlast)
    have hsource : Silent reading (layout.name.text ++ layout.source link.target) rest :=
      inner.silent_source layout layout.name.toGap link.target
    rw [htext]
    refine (hfront _).append (Silent.append ?_ ((silent_name last.2 _).append hsource))
    simpa only [List.append_assoc] using hgap

end Layouts

end Inner

/-- What a pass goes on with after its word and white space. -/
theorem fails_after_gap {α : Type} {after : Reading α} (gap : Gap) (c : Char) (text : List Char)
    (hblank : Text.isBlank c = false) (h : after (c :: text) = []) :
    (someBlanks >>= fun _ => after) (gap.text ++ c :: text) = [] := by
  by_cases hnil : gap.text = []
  · rw [hnil]
    exact bind_of_fails (someBlanks_of_stops (stops_cons c hblank))
  · rw [bind_of_eq (someBlanks_append ⟨gap, hnil⟩ (stops_cons c hblank))]
    exact h

theorem fails_at_name {α : Type} {after : Reading α} (c : Char) (text : List Char)
    (h : isNameChar c = true) : (someBlanks >>= fun _ => after) (c :: text) = [] :=
  bind_of_fails (someBlanks_of_stops (stops_cons c (isBlank_of_isNameChar h)))

section SideEffect

/-- What an import for its effects goes on with. -/
def afterBareWord : Reading ImportDeclaration := do
  let _ ← blanks
  let specifier ← quoted
  return ⟨specifier, [], true⟩

theorem afterBareWord_gap (gap : Gap) (c : Char) (text : List Char) (hblank : Text.isBlank c = false)
    (hquote : isQuote c = false) : afterBareWord (gap.text ++ c :: text) = [] := by
  rw [afterBareWord, bind_of_eq (blanks_append gap (stops_cons c hblank))]
  exact bind_of_fails (quoted_of_stops (stops_cons c hquote))

theorem inner_sideEffectImport : Inner sideEffectImport "import" afterBareWord where
  isKeyword := .inl rfl
  eq text := bind_of_eq (a := text.takeWhile isIndent) rfl
  name c text h := afterBareWord_gap .empty c text (isBlank_of_isNameChar h) (isQuote_of_isNameChar h)
  closing := by
    rintro _ ⟨gap, c, tail, rfl | rfl, rfl⟩
    · exact afterBareWord_gap gap ',' tail rfl rfl
    · exact afterBareWord_gap gap '\x7d' tail rfl rfl
  renamed left _ _ _ _ := afterBareWord_gap left.toGap 'a' _ rfl rfl

end SideEffect

section ReExport

theorem afterReExport_cons (c : Char) (text : List Char) (htype : 't' ≠ c) (hstar : '*' ≠ c)
    (hbrace : '\x7b' ≠ c) : afterReExport (c :: text) = [] := by
  have hstarExport : starExport (c :: text) = [] := bind_of_fails (if_neg hstar)
  have hbraced : braced (c :: text) = [] := bind_of_fails (if_neg hbrace)
  rw [afterReExport, bind_of_eq (typeMark_cons c htype)]
  exact bind_of_fails ((either_of_fails hstarExport).trans (map_of_fails _ hbraced))

theorem inner_reExport : Inner reExport "export" (someBlanks >>= fun _ => afterReExport) where
  isKeyword := .inr rfl
  eq text := bind_of_eq (a := text.takeWhile isIndent) rfl
  name c text h := fails_at_name c text h
  closing := by
    rintro _ ⟨gap, c, tail, rfl | rfl, rfl⟩
    · exact fails_after_gap gap ',' tail rfl
        (afterReExport_cons ',' tail (by decide) (by decide) (by decide))
    · exact fails_after_gap gap '\x7d' tail rfl
        (afterReExport_cons '\x7d' tail (by decide) (by decide) (by decide))
  renamed left _ _ _ _ := fails_after_gap left.toGap 'a' _ rfl
    (afterReExport_cons 'a' _ (by decide) (by decide) (by decide))

end ReExport

section Binding

/-- What can begin neither a name nor a list, nor stand for a whole module. -/
theorem afterImport_cons (c : Char) (rest : List Char) (hblank : Text.isBlank c = false)
    (hnone : (isNameChar c || c == '\x7b' || c == '*') = false) : afterImport (c :: rest) = [] := by
  simp only [Bool.or_eq_false_iff, beq_eq_false_iff_ne] at hnone
  obtain ⟨⟨hname, hbrace⟩, hstar⟩ := hnone
  have hletter : ∀ d, isNameChar d = true → d ≠ c := by
    rintro d hd rfl
    rw [hname] at hd
    cases hd
  have hdefault : defaultBinding (c :: rest) = [] :=
    bind_of_fails (name_of_stops (stops_cons c hname))
  rw [afterImport, bind_of_eq (typeMark_cons c (hletter 't' rfl)),
    bind_of_eq (optionally_of_fails hdefault)]
  exact afterDefault_cons none c hblank hbrace.symm hstar.symm (hletter 'f' rfl)

theorem quoted_closing {text : List Char} (h : Closes text) :
    (blanks >>= fun _ => quoted) text = [] := by
  obtain ⟨gap, c, tail, rfl | rfl, rfl⟩ := h
  · rw [bind_of_eq (blanks_append gap (stops_cons ',' rfl))]
    exact quoted_of_stops (stops_cons ',' rfl)
  · rw [bind_of_eq (blanks_append gap (stops_cons '\x7d' rfl))]
    exact quoted_of_stops (stops_cons '\x7d' rfl)

/-- A name in a list is no source: behind "from" a quotation mark would have to come. -/
theorem fromClause_name (n : Name) {text : List Char} (h : Closes text) :
    fromClause (n.text ++ text) = [] := by
  rw [fromClause, bind_of_eq (blanks_of_stops (stops_isBlank_name n))]
  rcases exactly_cases "from".toList (n.text ++ text) with hnone | ⟨tail, htail, hsome⟩
  · exact bind_of_fails hnone
  · have hword : word "from" (n.text ++ text) = [((), tail)] := hsome
    rw [bind_of_eq hword]
    obtain ⟨more, hmore, rfl⟩ := text_of_append_eq n h.stops "from".toList tail
      (List.all_eq_true.1 (by decide)) htail
    cases more with
    | nil => exact quoted_closing h
    | cons c more =>
      have hc : isNameChar c = true := n.chars c (by simp [hmore])
      have hblanks : blanks (c :: more ++ text) = [([], c :: more ++ text)] :=
        blanks_of_stops (stops_cons c (isBlank_of_isNameChar hc))
      rw [bind_of_eq hblanks]
      exact quoted_of_stops (stops_cons c (isQuote_of_isNameChar hc))

theorem afterDefault_name (defaultName : Option (List Char)) (n : Name) {text : List Char}
    (h : Closes text) : afterDefault defaultName (n.text ++ text) = [] := by
  have hbraced : braced (n.text ++ text) = [] := bind_of_fails (exactly_name '\x7b' n rfl)
  have hwhole : wholeBinding (n.text ++ text) = [] := bind_of_fails (exactly_name '*' n rfl)
  rw [afterDefault, bind_of_eq (optionally_of_fails hbraced),
    bind_of_eq (blanks_of_stops (stops_isBlank_name n)), bind_of_eq (optionally_of_fails hwhole)]
  exact bind_of_fails (fromClause_name n h)

/-- An alias looks like a default called "as" with something wrong behind it. -/
theorem afterImport_as (right : Separator) (other : Name) (text : List Char) (h : Closes text) :
    afterImport ("as".toList ++ (right.text ++ (other.text ++ text))) = [] := by
  have hstop : Stops isNameChar (right.text ++ (other.text ++ text)) :=
    stops_isNameChar_separator right
  have hother : Stops Text.isBlank (other.text ++ text) := stops_isBlank_name other
  have hname : name ("as".toList ++ (right.text ++ (other.text ++ text))) =
      [("as".toList, right.text ++ (other.text ++ text))] :=
    name_of_short (by simp) (List.all_eq_true.1 (by decide)) (by decide) hstop
  have hcomma : word "," (other.text ++ text) = [] := exactly_name ',' other rfl
  have hdefault : defaultBinding ("as".toList ++ (right.text ++ (other.text ++ text))) =
      [("as".toList, other.text ++ text)] := by
    rw [defaultBinding, bind_of_eq hname, bind_of_eq (blanks_append right.toGap hother),
      bind_of_eq (optionally_of_fails hcomma), bind_of_eq (blanks_of_stops hother)]
    rfl
  have hmark : typeMark ("as".toList ++ (right.text ++ (other.text ++ text))) =
      [(none, "as".toList ++ (right.text ++ (other.text ++ text)))] := typeMark_cons 'a' (by decide)
  rw [afterImport, bind_of_eq hmark]
  refine optionally_bind_eq_nil (fun found hfound => ?_) ?_
  · rw [hdefault, List.mem_singleton] at hfound
    rw [hfound]
    exact afterDefault_name _ other h
  · exact afterDefault_cons none 'a' rfl (by decide) (by decide) (by decide)

theorem inner_bindingImport : Inner bindingImport "import" (someBlanks >>= fun _ => afterImport) where
  isKeyword := .inl rfl
  eq text := bind_of_eq (a := text.takeWhile isIndent) rfl
  name c text h := fails_at_name c text h
  closing := by
    rintro _ ⟨gap, c, tail, rfl | rfl, rfl⟩
    · exact fails_after_gap gap ',' tail rfl (afterImport_cons ',' tail rfl rfl)
    · exact fails_after_gap gap '\x7d' tail rfl (afterImport_cons '\x7d' tail rfl rfl)
  renamed left right other text h :=
    fails_after_gap left.toGap 'a' _ rfl (afterImport_as right other text h)

end Binding

/-- The name before "from" is "import" and stands at the beginning of a line. -/
def Link.Resumes (layout : Layout) (link : Link) : Prop :=
  ∃ gap n, link.form.last? layout = some (gap, n) ∧ n.text = "import".toList ∧ gap.EndsLine

instance (layout : Layout) (link : Link) : Decidable (link.Resumes layout) :=
  decidable_of_iff
    (∃ last ∈ link.form.last? layout, last.2.text = "import".toList ∧ last.1.EndsLine) Prod.exists

section Layouts

variable (layout : Layout) (link : Link) (rest : List Char)

theorem silent_sideEffectImport : Silent sideEffectImport (link.text layout) rest :=
  inner_sideEffectImport.silent_whole_link layout link fun _ _ _ _ _ =>
    afterBareWord_gap layout.name.toGap 'f' _ rfl rfl

theorem silent_reExport : Silent reExport (link.text layout) rest :=
  inner_reExport.silent_whole_link layout link fun _ _ _ _ _ =>
    fails_after_gap layout.name.toGap 'f' _ rfl
      (afterReExport_cons 'f' _ (by decide) (by decide) (by decide))

theorem silent_bindingImport (h : ¬link.Resumes layout) :
    Silent bindingImport (link.text layout) rest :=
  inner_bindingImport.silent_whole_link layout link fun gap n hlast hname hends =>
    absurd ⟨gap, n, hlast, hname, hends⟩ h

/-- What is found in the exception. -/
theorem bindingImport_resumed (indent : List Char) (hindent : indent.all isIndent = true) :
    bindingImport.Finds
      (indent ++ ("import".toList ++ (layout.name.text ++ (layout.source link.target ++ rest))))
      ⟨link.target.word, [], false⟩ rest := by
  have hdrop : (indent ++ ("import".toList ++
      (layout.name.text ++ (layout.source link.target ++ rest)))).dropWhile isIndent =
      "import".toList ++ (layout.name.text ++ (layout.source link.target ++ rest)) :=
    Reading.dropWhile_append (List.all_eq_true.1 hindent) (stops_cons 'i' rfl)
  have hsource : Stops Text.isBlank (layout.source link.target ++ rest) :=
    stops_source layout link.target rfl
  have hmark : typeMark (layout.source link.target ++ rest) =
      [(none, layout.source link.target ++ rest)] := typeMark_cons 'f' (by decide)
  rw [Finds, inner_bindingImport.eq, hdrop, bind_of_eq (word_append "import" _),
    bind_of_eq (someBlanks_append layout.name hsource), afterImport, bind_of_eq hmark]
  exact unbound_source layout link.target

theorem passes_bindingImport {γ : Type} {keep : Occurrence ImportDeclaration → Option (Placed γ)} {c : γ}
    (hkeep : ∀ offset, keep ⟨offset, ⟨link.target.word, [], false⟩, rest⟩ = some (offset, c))
    (h : link.Resumes layout) :
    ∃ place < (link.text layout).length,
      Passes bindingImport keep (link.text layout) rest [(place, c)] := by
  obtain ⟨gap, n, hlast, hname, front, indent, hgap, hindent⟩ := h
  obtain ⟨before, htext, hbefore⟩ := inner_bindingImport.silent_before_last layout link gap n hlast
  let back := indent ++ ("import".toList ++ (layout.name.text ++ layout.source link.target))
  have hne : back ≠ [] := by simp [back]
  have hsplit : link.text layout = (before ++ front) ++ '\n' :: back := by
    simp [htext, hgap, hname, back]
  have hline : ∀ text, bindingImport ('\n' :: text) = [] := fun text =>
    inner_bindingImport.fails_gap .empty (stops_cons '\n' rfl) fun _ =>
      inner_bindingImport.fails_cons '\n' (by decide) (by decide)
  have hfront : Silent bindingImport front ('\n' :: (back ++ rest)) := by
    let shorter : Gap := ⟨front, fun c hc => gap.blank c (by simp [hgap, hc])⟩
    exact inner_bindingImport.silent_gap_cons shorter '\n' rfl (by decide) (by decide)
  have hfinds : bindingImport.Finds (back ++ rest) ⟨link.target.word, [], false⟩ rest := by
    have hresumed := bindingImport_resumed layout link rest indent hindent
    simpa only [back, List.append_assoc] using hresumed
  have hpasses : Passes bindingImport keep ((before ++ front) ++ '\n' :: back) rest
      ((some c).map ((before ++ front).length + 1, ·)).toList :=
    ((hbefore _).append hfront).passes_found hne (hline _) hfinds hkeep
  refine ⟨(before ++ front).length + 1, ?_, ?_⟩
  · have hback : 0 < back.length := List.length_pos_iff.2 hne
    have hlength : (link.text layout).length = (before ++ front).length + (back.length + 1) := by
      rw [hsplit, List.length_append, List.length_cons]
    omega
  · rw [hsplit]
    exact hpasses

theorem Link.Resumes.mem_lineEnd (h : link.Resumes layout) : '\n' ∈ link.text layout := by
  obtain ⟨gap, n, hlast, -, front, indent, hgap, -⟩ := h
  obtain ⟨before, htext, -⟩ := inner_bindingImport.silent_before_last layout link gap n hlast
  simp [htext, hgap]

end Layouts

end ModuleLoading.Source
