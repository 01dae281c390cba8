import ModuleLoading.Proofs.NamedLists

/-!
Import and export declarations as they are written. What a declaration says is kept
apart from its layout, which is the white space in it, the way its list is written, and
its quotation marks.
-/
namespace ModuleLoading.Source

structure Item where
  name : Name
  renamed : Option Name

def Item.pair (item : Item) : String × Option String := (item.name.word, item.renamed.map Name.word)

/-- What a list says. -/
def pairs (items : List Item) : List (String × Option String) := items.map Item.pair

structure Target where
  text : List Char
  ne_nil : text ≠ []
  chars : ∀ c ∈ text, isQuote c = false ∧ c ≠ '\n'

def Target.word (target : Target) : String := String.ofList target.text

/-- What an import can bind beside a default. -/
inductive Brought
  | list (items : List Item)
  | whole (name : Name)

inductive Clause
  | alone (name : Name)
  | only (brought : Brought)
  | both (name : Name) (brought : Brought)

inductive Offered
  | everything
  | everythingAs (name : Name)
  | list (items : List Item)

inductive Form
  | sideEffect
  | importing (clause : Clause)
  | reExport (offered : Offered)

/-- A declaration that leads to another module. -/
structure Link where
  form : Form
  target : Target

/-- What an exported name can be declared as on the spot. -/
inductive Kind
  | constant
  | function
  | blueprint

inductive Own
  | default
  | list (items : List Item)
  | single (kind : Kind) (name : Name)

inductive Declaration
  | linking (link : Link)
  | owning (own : Own)

section Shown

variable (read : List Item → List (String × Option String))

def Brought.bindings : Brought → List Binding
  | .list items => (read items).map fun pair => .named pair.1 pair.2
  | .whole name => [.whole name.word]

/-- A lone default called "type" is the one binding that is not seen: the word is taken
for a mark. -/
def Clause.bindings : Clause → List Binding
  | .alone name => if name.text = "type".toList then [] else [.default name.word]
  | .only brought => brought.bindings read
  | .both name brought => .default name.word :: brought.bindings read

def exportedItems (items : List Item) : List Exported :=
  (read items).map fun pair => .named pair.1 pair.2

def Offered.exported : Offered → List Exported
  | .everything => [.everything]
  | .everythingAs name => [.everythingAs name.word]
  | .list items => exportedItems read items

def Link.import? (link : Link) : Option ImportDeclaration :=
  match link.form with
  | .sideEffect => some ⟨link.target.word, [], true⟩
  | .importing clause => some ⟨link.target.word, clause.bindings read, false⟩
  | .reExport _ => none

def Link.export? (link : Link) : Option ExportDeclaration :=
  match link.form with
  | .sideEffect | .importing _ => none
  | .reExport offered => some ⟨offered.exported read, some link.target.word⟩

def Own.exported : Own → List Exported
  | .default => [.default]
  | .list items => exportedItems read items
  | .single _ name => [.named name.word none]

namespace Declaration

def import? : Declaration → Option ImportDeclaration
  | .linking link => link.import? read
  | .owning _ => none

def export? : Declaration → Option ExportDeclaration
  | .linking link => link.export? read
  | .owning own => some ⟨own.exported read, none⟩

/-- The module that a declaration leads to. -/
def target? : Declaration → Option String
  | .linking link => some link.target.word
  | .owning _ => none

end Declaration

end Shown

structure Layout where
  quote : Char
  /-- After the first word, but before the specifier of an import for its effects. -/
  keyword : Gap
  /-- Around the comma behind a default. -/
  beforeComma : Gap
  afterComma : Gap
  /-- Before and after the word that gives a whole module a name. -/
  star : Gap
  renamed : Separator
  /-- Between a name and "from". -/
  name : Separator
  /-- Between a list or a lone star and "from". -/
  brace : Gap
  /-- Before the specifier. -/
  mark : Gap
  pieces : List Item → List Piece
  isQuote_quote : isQuote quote = true
  item_entries : ∀ items, (entries (pieces items)).map Entry.item = pairs items

theorem Layout.ne_quote (layout : Layout) {c : Char} (h : isQuote c = false) : c ≠ layout.quote := by
  rintro rfl
  rw [layout.isQuote_quote] at h
  cases h

def Layout.gaps (layout : Layout) : List Gap :=
  [layout.keyword, layout.beforeComma, layout.afterComma, layout.star, layout.renamed.toGap,
    layout.name.toGap, layout.brace, layout.mark]

/-- A layout that keeps a declaration on its line, with white space after its first word
and a space on each side of the word before an alias. -/
structure LineLayout extends Layout where
  keyword_ne_nil : keyword.text ≠ []
  oneLine : ∀ gap ∈ toLayout.gaps, '\n' ∉ gap.text
  oneLine_pieces : ∀ items, ∀ piece ∈ pieces items, '\n' ∉ piece.text
  spaced : ∀ items, ∀ entry ∈ entries (pieces items), entry.Spaced

def Gap.space : Gap := Separator.space.toGap

def Item.entry (item : Item) : Entry :=
  match item.renamed with
  | none => .plain item.name
  | some other => .renamed item.name .space .space other

def spacedPieces : List Item → List Piece
  | [] => [.blank ⟨[' ', ' '], List.all_eq_true.1 (by decide)⟩]
  | [item] => [.filled .space item.entry .space]
  | item :: next :: rest => .filled .space item.entry .empty :: spacedPieces (next :: rest)

theorem Item.item_entry (item : Item) : item.entry.item = item.pair := by
  unfold entry pair
  cases item.renamed with
  | none => rfl
  | some other => rfl

theorem Item.spaced_entry (item : Item) : item.entry.Spaced := by
  unfold entry
  cases item.renamed with
  | none => exact trivial
  | some other => exact ⟨rfl, rfl⟩

theorem Item.notMem_lineEnd (item : Item) : '\n' ∉ item.entry.text := by
  have hname : ∀ n : Name, '\n' ∉ n.text := fun n => n.notMem_of_not_isNameChar '\n' rfl
  unfold entry
  cases item.renamed with
  | none => exact hname item.name
  | some other => simp [Entry.text, hname, Separator.space]

theorem entries_spacedPieces (items : List Item) :
    entries (spacedPieces items) = items.map Item.entry := by
  fun_induction spacedPieces items with
  | case1 => rfl
  | case2 item => rfl
  | case3 item next rest ih =>
    rw [List.map_cons, ← ih]
    rfl

theorem notMem_spacedPieces (items : List Item) : ∀ piece ∈ spacedPieces items, '\n' ∉ piece.text := by
  fun_induction spacedPieces items with
  | case1 => exact List.forall_mem_singleton.2 (by decide)
  | case2 item =>
    refine List.forall_mem_singleton.2 ?_
    simp [Piece.text, item.notMem_lineEnd, Gap.space, Separator.space]
  | case3 item next rest ih =>
    refine List.forall_mem_cons.2 ⟨?_, ih⟩
    simp [Piece.text, item.notMem_lineEnd, Gap.space, Gap.empty, Separator.space]

/-- Single spaces, none before a comma, and single quotation marks. -/
def LineLayout.single : LineLayout where
  quote := '\''
  keyword := .space
  beforeComma := .empty
  afterComma := .space
  star := .space
  renamed := .space
  name := .space
  brace := .space
  mark := .space
  keyword_ne_nil := by decide
  pieces := spacedPieces
  isQuote_quote := by decide
  item_entries items := by
    rw [entries_spacedPieces, List.map_map]
    exact List.map_congr_left fun item _ => item.item_entry
  oneLine := by decide
  oneLine_pieces := notMem_spacedPieces
  spaced items := by
    rw [entries_spacedPieces]
    exact List.forall_mem_map.2 fun item _ => item.spaced_entry

namespace Layout

variable (layout : Layout)

def list (items : List Item) : List Char := listText (layout.pieces items)

/-- What is read of a list. -/
def read (items : List Item) : List (String × Option String) :=
  (entries (layout.pieces items)).map Entry.taken

theorem listItems_list (items : List Item) : listItems (layout.list items) = layout.read items :=
  listItems_listText _

def braces (items : List Item) : List Char := '\x7b' :: (layout.list items ++ ['\x7d'])

def specifier (target : Target) : List Char := layout.quote :: (target.text ++ [layout.quote])

end Layout

/-- It is what the list says. -/
theorem LineLayout.read_eq (layout : LineLayout) : layout.read = pairs := by
  funext items
  rw [← layout.item_entries, Layout.read]
  exact List.map_congr_left fun entry hentry => if_pos (layout.spaced items entry hentry)

section Texts

variable (layout : Layout)

def Brought.text : Brought → List Char
  | .list items => layout.braces items
  | .whole name =>
    '*' :: (layout.star.text ++ ("as".toList ++ (layout.renamed.text ++ name.text)))

def Brought.ending : Brought → Gap
  | .list _ => layout.brace
  | .whole _ => layout.name.toGap

def Clause.text : Clause → List Char
  | .alone name => name.text
  | .only brought => brought.text layout
  | .both name brought =>
    name.text ++ (layout.beforeComma.text ++ ',' :: (layout.afterComma.text ++ brought.text layout))

def Clause.ending : Clause → Gap
  | .alone _ => layout.name.toGap
  | .only brought | .both _ brought => brought.ending layout

def Offered.text : Offered → List Char
  | .everything => ['*']
  | .everythingAs name => (Brought.whole name).text layout
  | .list items => layout.braces items

def Offered.ending : Offered → Gap
  | .everything | .list _ => layout.brace
  | .everythingAs _ => layout.name.toGap

/-- A declaration up to its specifier. -/
def Form.text : Form → List Char
  | .sideEffect => "import".toList ++ layout.mark.text
  | .importing clause => "import".toList ++ (layout.keyword.text ++ (clause.text layout ++
      ((clause.ending layout).text ++ ("from".toList ++ layout.mark.text))))
  | .reExport offered => "export".toList ++ (layout.keyword.text ++ (offered.text layout ++
      ((offered.ending layout).text ++ ("from".toList ++ layout.mark.text))))

theorem Form.text_sideEffect : Form.sideEffect.text layout = "import".toList ++ layout.mark.text := rfl

theorem Form.text_importing (clause : Clause) : (Form.importing clause).text layout =
    "import".toList ++ (layout.keyword.text ++ (clause.text layout ++
      ((clause.ending layout).text ++ ("from".toList ++ layout.mark.text)))) := rfl

theorem Form.text_reExport (offered : Offered) : (Form.reExport offered).text layout =
    "export".toList ++ (layout.keyword.text ++ (offered.text layout ++
      ((offered.ending layout).text ++ ("from".toList ++ layout.mark.text)))) := rfl

def Link.text (link : Link) : List Char := link.form.text layout ++ layout.specifier link.target

def Kind.before : Kind → List Char
  | .constant => "const ".toList
  | .function => "function ".toList
  | .blueprint => "class ".toList

def Kind.after : Kind → List Char
  | .constant => " = 0".toList
  | .function => "() \x7b\x7d".toList
  | .blueprint => " \x7b\x7d".toList

def Own.core : Own → List Char
  | .default => "default".toList
  | .list items => layout.braces items
  | .single kind name => kind.before ++ name.text

/-- A local export up to what it makes visible. -/
def Own.front (own : Own) : List Char :=
  "export".toList ++ (layout.keyword.text ++ own.core layout)

theorem Own.front_eq (own : Own) :
    own.front layout = "export".toList ++ (layout.keyword.text ++ own.core layout) := rfl

def Own.back : Own → List Char
  | .default => " 0".toList
  | .list _ => []
  | .single kind _ => kind.after

def Own.text (own : Own) : List Char := own.front layout ++ own.back

def Declaration.text : Declaration → List Char
  | .linking link => link.text layout
  | .owning own => own.text layout

theorem Declaration.text_ne_nil (declaration : Declaration) : declaration.text layout ≠ [] := by
  cases declaration with
  | linking link => simp [text, Link.text, Layout.specifier]
  | owning own => simp [text, Own.text, Own.front_eq]

end Texts

/-- What pieces are written with, apart from white space. -/
theorem Piece.chars (piece : Piece) :
    ∀ c ∈ piece.text, isNameChar c = true ∨ Text.isBlank c = true := by
  intro c hc
  have hentry : ∀ entry : Entry, c ∈ entry.text → isNameChar c = true ∨ Text.isBlank c = true := by
    intro entry hc
    cases entry with
    | plain name => exact .inl (name.chars c hc)
    | renamed name left right other =>
      simp only [Entry.text, List.mem_append, List.mem_cons] at hc
      rcases hc with hc | hc | rfl | rfl | hc | hc
      · exact .inl (name.chars c hc)
      · exact .inr (left.blank c hc)
      · exact .inl rfl
      · exact .inl rfl
      · exact .inr (right.blank c hc)
      · exact .inl (other.chars c hc)
  cases piece with
  | blank gap => exact .inr (gap.blank c hc)
  | filled before entry after =>
    simp only [text, List.mem_append] at hc
    rcases hc with hc | hc | hc
    · exact .inr (before.blank c hc)
    · exact hentry entry hc
    · exact .inr (after.blank c hc)

theorem notMem_listText (pieces : List Piece) (c : Char) (hname : isNameChar c = false)
    (hblank : Text.isBlank c = false) (hcomma : c ≠ ',') : c ∉ listText pieces := by
  intro hc
  rcases Text.mem_join ',' c _ hc with heq | ⟨text, htext, hc⟩
  · exact hcomma heq
  · obtain ⟨piece, _, rfl⟩ := List.mem_map.1 htext
    rcases piece.chars c hc with h | h
    · rw [hname] at h
      cases h
    · rw [hblank] at h
      cases h

/-- What is accepted of everything that declarations are written with, apart from their
specifiers. -/
structure Layout.Made (layout : Layout) (accepts : Char → Bool) : Prop where
  names : ∀ c, isNameChar c = true → accepts c = true
  signs : " ,*=()\x7b\x7d".toList.all accepts = true
  gaps : ∀ gap ∈ layout.gaps, gap.text.all accepts = true
  pieces : ∀ items, ∀ piece ∈ layout.pieces items, piece.text.all accepts = true

namespace Layout.Made

variable {layout : Layout} {accepts : Char → Bool} (made : layout.Made accepts)

include made

theorem name (n : Name) : n.text.all accepts = true :=
  List.all_eq_true.2 fun c hc => made.names c (n.chars c hc)

theorem fixed (text : List Char)
    (h : text.all (fun c => isNameChar c || " ,*=()\x7b\x7d".toList.contains c) = true) :
    text.all accepts = true := by
  refine List.all_eq_true.2 fun c hc => ?_
  have hor := List.all_eq_true.1 h c hc
  rw [Bool.or_eq_true, List.contains_iff_mem] at hor
  rcases hor with hname | hsign
  · exact made.names c hname
  · exact List.all_eq_true.1 made.signs c hsign

theorem braces (items : List Item) : (layout.braces items).all accepts = true := by
  have hlist : (layout.list items).all accepts = true := by
    refine List.all_eq_true.2 fun c hc => ?_
    rcases Text.mem_join ',' c _ hc with rfl | ⟨text, htext, hc⟩
    · exact List.all_eq_true.1 made.signs ',' (by decide)
    · obtain ⟨piece, hpiece, rfl⟩ := List.mem_map.1 htext
      exact List.all_eq_true.1 (made.pieces items piece hpiece) c hc
  have hopen : ['\x7b'].all accepts = true := made.fixed _ (by decide)
  have hclose : ['\x7d'].all accepts = true := made.fixed _ (by decide)
  rw [Layout.braces, ← List.singleton_append, List.all_append, List.all_append, hlist, hopen, hclose]
  rfl

theorem brought (brought : Brought) :
    (brought.text layout).all accepts = true ∧ (brought.ending layout).text.all accepts = true := by
  have hgaps := made.gaps
  simp only [Layout.gaps, List.forall_mem_cons] at hgaps
  obtain ⟨-, -, -, hstar, hrenamed, hname, hbrace, -⟩ := hgaps
  cases brought with
  | list items => exact ⟨made.braces items, hbrace⟩
  | whole n =>
    have hopen : ['*'].all accepts = true := made.fixed _ (by decide)
    have has : "as".toList.all accepts = true := made.fixed _ (by decide)
    have htext : (Brought.whole n).text layout =
        ['*'] ++ (layout.star.text ++ ("as".toList ++ (layout.renamed.text ++ n.text))) := rfl
    refine ⟨?_, hname⟩
    simp only [htext, List.all_append, hopen, hstar, has, hrenamed, made.name, Bool.and_true]

theorem clause (clause : Clause) :
    (clause.text layout).all accepts = true ∧ (clause.ending layout).text.all accepts = true := by
  cases clause with
  | alone n => exact ⟨made.name n, made.gaps _ (by simp [Layout.gaps, Clause.ending])⟩
  | only brought => exact made.brought brought
  | both n brought =>
    have hbefore := made.gaps layout.beforeComma (by simp [Layout.gaps])
    have hafter := made.gaps layout.afterComma (by simp [Layout.gaps])
    have hcomma : [','].all accepts = true := made.fixed _ (by decide)
    have htext : (Clause.both n brought).text layout = n.text ++ (layout.beforeComma.text ++
        ([','] ++ (layout.afterComma.text ++ brought.text layout))) := rfl
    refine ⟨?_, (made.brought brought).2⟩
    simp only [htext, List.all_append, made.name, hbefore, hcomma, hafter, (made.brought brought).1,
      Bool.and_true]

theorem offered (offered : Offered) :
    (offered.text layout).all accepts = true ∧ (offered.ending layout).text.all accepts = true := by
  cases offered with
  | everything =>
    exact ⟨made.fixed ['*'] (by decide), made.gaps _ (by simp [Layout.gaps, Offered.ending])⟩
  | everythingAs n => exact made.brought (.whole n)
  | list items => exact made.brought (.list items)

theorem form (form : Form) : (form.text layout).all accepts = true := by
  have hkeyword := made.gaps layout.keyword (by simp [Layout.gaps])
  have hmark := made.gaps layout.mark (by simp [Layout.gaps])
  have himport : "import".toList.all accepts = true := made.fixed _ (by decide)
  have hexport : "export".toList.all accepts = true := made.fixed _ (by decide)
  have hfrom : "from".toList.all accepts = true := made.fixed _ (by decide)
  cases form with
  | sideEffect => simp only [Form.text_sideEffect, List.all_append, himport, hmark, Bool.and_true]
  | importing clause =>
    simp only [Form.text_importing, List.all_append, himport, hkeyword, (made.clause clause).1,
      (made.clause clause).2, hfrom, hmark, Bool.and_true]
  | reExport offered =>
    simp only [Form.text_reExport, List.all_append, hexport, hkeyword, (made.offered offered).1,
      (made.offered offered).2, hfrom, hmark, Bool.and_true]

theorem own (own : Own) : (own.text layout).all accepts = true := by
  have hkeyword := made.gaps layout.keyword (by simp [Layout.gaps])
  have hexport : "export".toList.all accepts = true := made.fixed _ (by decide)
  have hcore : (own.core layout).all accepts = true ∧ own.back.all accepts = true := by
    cases own with
    | default => exact ⟨made.fixed "default".toList (by decide), made.fixed " 0".toList (by decide)⟩
    | list items => exact ⟨made.braces items, rfl⟩
    | single kind n =>
      have hkind : kind.before.all accepts = true ∧ kind.after.all accepts = true := by
        cases kind with
        | constant => exact ⟨made.fixed _ (by decide), made.fixed _ (by decide)⟩
        | function => exact ⟨made.fixed _ (by decide), made.fixed _ (by decide)⟩
        | blueprint => exact ⟨made.fixed _ (by decide), made.fixed _ (by decide)⟩
      have htext : (Own.single kind n).core layout = kind.before ++ n.text := rfl
      refine ⟨?_, hkind.2⟩
      rw [htext, List.all_append, hkind.1, made.name]
      rfl
  simp only [Own.text, Own.front_eq, List.all_append, hexport, hkeyword, hcore.1, hcore.2, Bool.and_true]

end Layout.Made

theorem notMem_lineEnd {text : List Char} (h : text.all (· != '\n') = true) : '\n' ∉ text := by
  intro hmem
  exact absurd (List.all_eq_true.1 h _ hmem) (by decide)

theorem all_of_notMem_lineEnd {text : List Char} (h : '\n' ∉ text) : text.all (· != '\n') = true := by
  refine List.all_eq_true.2 fun c hc => ?_
  rw [bne_iff_ne]
  rintro rfl
  exact h hc

/-- No declaration that keeps to its line has a line end in it. -/
theorem LineLayout.made (layout : LineLayout) : layout.Made (· != '\n') where
  names := by
    intro c hc
    rw [bne_iff_ne]
    rintro rfl
    cases hc
  signs := by decide
  gaps gap hgap := all_of_notMem_lineEnd (layout.oneLine gap hgap)
  pieces items piece hpiece := all_of_notMem_lineEnd (layout.oneLine_pieces items piece hpiece)

theorem Layout.notMem_specifier (layout : Layout) (target : Target) :
    '\n' ∉ layout.specifier target := by
  have hquote : '\n' ≠ layout.quote := layout.ne_quote rfl
  have htarget : '\n' ∉ target.text := fun hmem => (target.chars _ hmem).2 rfl
  simp [specifier, hquote, htarget]

theorem Declaration.notMem_lineEnd (layout : LineLayout) (declaration : Declaration) :
    '\n' ∉ declaration.text layout.toLayout := by
  cases declaration with
  | owning own => exact Source.notMem_lineEnd (layout.made.own own)
  | linking link =>
    have hform := Source.notMem_lineEnd (layout.made.form link.form)
    have hspecifier := layout.notMem_specifier link.target
    simp [text, Link.text, hform, hspecifier]

end ModuleLoading.Source
