import Mathlib.Data.List.Infix
import ModuleLoading.Source.Outline

/-!
Lists of names, written with any white space. A list is cut at its commas into pieces,
and the white space around a piece does not matter. Between a name and its alias it
does: the separating word is looked for with one space on each side, so that an alias
behind a tab or a line end is not seen, and the whole entry is taken for a name.
-/
namespace ModuleLoading.Source

theorem not_isNameChar_blanks :
    ∀ n ∈ [9, 10, 11, 12, 13, 0x20, 0x85, 0xA0, 0x1680, 0x2000, 0x2001, 0x2002, 0x2003, 0x2004,
      0x2005, 0x2006, 0x2007, 0x2008, 0x2009, 0x200A, 0x2028, 0x2029, 0x202F, 0x205F, 0x3000],
      isNameChar (Char.ofNat n) = false := by
  decide +kernel

theorem isBlank_of_isNameChar {c : Char} (h : isNameChar c = true) : Text.isBlank c = false := by
  by_contra hblank
  rw [Bool.not_eq_false, Text.isBlank] at hblank
  have hfalse : isNameChar (Char.ofNat c.toNat) = false := by
    apply not_isNameChar_blanks
    simp only [List.mem_cons, List.not_mem_nil]
    grind
  rw [Char.ofNat_toNat, h] at hfalse
  cases hfalse

theorem isNameChar_of_isBlank {c : Char} (h : Text.isBlank c = true) : isNameChar c = false := by
  by_contra hname
  rw [isBlank_of_isNameChar (by simpa using hname)] at h
  cases h

structure Name where
  text : List Char
  ne_nil : text ≠ []
  chars : ∀ c ∈ text, isNameChar c = true
  deriving DecidableEq

namespace Name

def word (name : Name) : String := String.ofList name.text

theorem not_isBlank (name : Name) : ∀ c ∈ name.text, Text.isBlank c = false :=
  fun c hc => isBlank_of_isNameChar (name.chars c hc)

theorem notMem_of_not_isNameChar (name : Name) (c : Char) (h : isNameChar c = false) :
    c ∉ name.text := by
  intro hc
  rw [name.chars c hc] at h
  cases h

end Name

/-- White space, perhaps none. -/
structure Gap where
  text : List Char
  blank : ∀ c ∈ text, Text.isBlank c = true
  deriving DecidableEq

/-- White space that keeps two words apart. -/
structure Separator extends Gap where
  ne_nil : text ≠ []
  deriving DecidableEq

def Gap.empty : Gap := ⟨[], by simp⟩

def Separator.space : Separator := ⟨⟨[' '], List.forall_mem_singleton.2 rfl⟩, by decide⟩

theorem Gap.notMem_of_not_isBlank (gap : Gap) (c : Char) (h : Text.isBlank c = false) :
    c ∉ gap.text := by
  intro hc
  rw [gap.blank c hc] at h
  cases h

inductive Entry
  | plain (name : Name)
  | renamed (name : Name) (left right : Separator) (other : Name)
  deriving DecidableEq

namespace Entry

def text : Entry → List Char
  | .plain name => name.text
  | .renamed name left right other =>
    name.text ++ (left.text ++ 'a' :: 's' :: (right.text ++ other.text))

/-- What an entry says. -/
def item : Entry → String × Option String
  | .plain name => (name.word, none)
  | .renamed name _ _ other => (name.word, some other.word)

/-- The word before an alias has a space next to it on each side. -/
def Spaced : Entry → Prop
  | .plain _ => True
  | .renamed _ left right _ => left.text.getLast? = some ' ' ∧ right.text.head? = some ' '

instance (entry : Entry) : Decidable entry.Spaced :=
  match entry with
  | .plain _ => inferInstanceAs (Decidable True)
  | .renamed _ _ _ _ => inferInstanceAs (Decidable (_ ∧ _))

/-- What an entry is taken for. -/
def taken (entry : Entry) : String × Option String :=
  if entry.Spaced then entry.item else (String.ofList entry.text, none)

end Entry

/-- What stands between two commas. -/
inductive Piece
  | blank (gap : Gap)
  | filled (before : Gap) (entry : Entry) (after : Gap)
  deriving DecidableEq

namespace Piece

def text : Piece → List Char
  | .blank gap => gap.text
  | .filled before entry after => before.text ++ (entry.text ++ after.text)

def entry? : Piece → Option Entry
  | .blank _ => none
  | .filled _ entry _ => some entry

end Piece

def listText (pieces : List Piece) : List Char := Text.join ',' (pieces.map Piece.text)

def entries (pieces : List Piece) : List Entry := pieces.filterMap Piece.entry?

theorem dropWhile_isBlank (gap : Gap) (text : List Char)
    (h : ∀ c ∈ text.head?, Text.isBlank c = false) :
    (gap.text ++ text).dropWhile Text.isBlank = text := by
  rw [List.dropWhile_append_of_pos gap.blank]
  cases text with
  | nil => rfl
  | cons c rest => exact List.dropWhile_cons_of_neg (by simp [h c rfl])

theorem trim_gaps (before after : Gap) (text : List Char)
    (hfirst : ∀ c ∈ text.head?, Text.isBlank c = false)
    (hlast : ∀ c ∈ text.getLast?, Text.isBlank c = false) :
    Text.trim (before.text ++ (text ++ after.text)) = text := by
  let back : Gap := ⟨after.text.reverse, fun c hc => after.blank c (List.mem_reverse.1 hc)⟩
  have hback : (back.text ++ text.reverse).dropWhile Text.isBlank = text.reverse := by
    apply dropWhile_isBlank
    rwa [List.head?_reverse]
  cases htext : text with
  | nil =>
    let whole : Gap := ⟨before.text ++ after.text, by
      intro c hc
      rcases List.mem_append.1 hc with hc | hc
      · exact before.blank c hc
      · exact after.blank c hc⟩
    have hwhole : whole.text.dropWhile Text.isBlank = [] := by
      simpa using dropWhile_isBlank whole [] (by simp)
    rw [List.nil_append, Text.trim, hwhole]
    rfl
  | cons c rest =>
    rw [← htext, Text.trim, dropWhile_isBlank before _ (by simpa [htext] using hfirst)]
    rw [List.reverse_append, hback, List.reverse_reverse]

theorem splitAlias_cons (c : Char) (rest : List Char)
    (h : ∀ other, c :: rest ≠ ' ' :: 'a' :: 's' :: ' ' :: other) :
    splitAlias (c :: rest) = (splitAlias rest).map fun (name, other) => (c :: name, other) := by
  refine splitAlias.eq_3 c rest ?_
  intro other hc hrest
  exact h other (by rw [hc, hrest])

theorem splitAlias_append (text rest : List Char) (h : ' ' ∉ text) :
    splitAlias (text ++ rest) = (splitAlias rest).map fun (name, other) => (text ++ name, other) := by
  induction text with
  | nil => simp
  | cons c text ih =>
    obtain ⟨hc, htext⟩ := not_or.1 (mt List.mem_cons.2 h)
    have hne : ∀ other, c :: (text ++ rest) ≠ ' ' :: 'a' :: 's' :: ' ' :: other :=
      fun other heq => hc (List.cons.inj heq).1.symm
    rw [List.cons_append, splitAlias_cons c _ hne, ih htext, Option.map_map]
    rfl

theorem splitAlias_of_notMem (text : List Char) (h : ' ' ∉ text) : splitAlias text = none := by
  simpa [splitAlias] using splitAlias_append text [] h

/-- White space before a word hides no alias: the word would have to be "as" with a
space after it. -/
theorem splitAlias_gap (gap : List Char) (hgap : ∀ c ∈ gap, Text.isBlank c = true)
    (word : List Char) (hword : ' ' ∉ word) : splitAlias (gap ++ word) = none := by
  induction gap with
  | nil => exact splitAlias_of_notMem word hword
  | cons c gap ih =>
    have hrest := ih fun d hd => hgap d (List.mem_cons_of_mem c hd)
    have hne : ∀ other, c :: (gap ++ word) ≠ ' ' :: 'a' :: 's' :: ' ' :: other := by
      intro other heq
      have htail := (List.cons.inj heq).2
      cases gap with
      | nil =>
        rw [List.nil_append] at htail
        exact hword (by simp [htail])
      | cons d gap =>
        have hd : d = 'a' := (List.cons.inj htail).1
        have hblank := hgap d (by simp)
        rw [hd] at hblank
        cases hblank
    rw [List.cons_append, splitAlias_cons c _ hne, hrest]
    rfl

theorem splitAlias_as (right : Separator) (other : Name) :
    splitAlias ('a' :: 's' :: (right.text ++ other.text)) = none := by
  have hother : ' ' ∉ other.text := other.notMem_of_not_isNameChar ' ' rfl
  have h := splitAlias_append ['a', 's'] (right.text ++ other.text) (by decide)
  rw [splitAlias_gap right.text right.blank other.text hother] at h
  exact h

/-- Of the white space before the separating word only its last character counts, of
that after it only the first. -/
theorem splitAlias_separated (left : List Char) (hleft : ∀ c ∈ left, Text.isBlank c = true)
    (hne : left ≠ []) (right : Separator) (other : Name) :
    splitAlias (left ++ 'a' :: 's' :: (right.text ++ other.text)) =
      if left.getLast? = some ' ' ∧ right.text.head? = some ' ' then
        some (left.dropLast, right.text.tail ++ other.text)
      else none := by
  induction left with
  | nil => exact absurd rfl hne
  | cons c left ih =>
    cases left with
    | nil =>
      cases hright : right.text with
      | nil => exact absurd hright right.ne_nil
      | cons d rest =>
        by_cases hspaced : c = ' ' ∧ d = ' '
        · simp [hspaced.1, hspaced.2, splitAlias]
        · have hcons : ∀ tail,
              c :: 'a' :: 's' :: (right.text ++ other.text) ≠ ' ' :: 'a' :: 's' :: ' ' :: tail := by
            intro tail heq
            rw [hright] at heq
            simp only [List.cons_append, List.cons.injEq] at heq
            exact hspaced ⟨heq.1, heq.2.2.2.1⟩
          rw [← hright, List.singleton_append, splitAlias_cons c _ hcons, splitAlias_as]
          simp only [hright, List.getLast?_singleton, List.head?_cons, Option.some.injEq, hspaced,
            if_false, Option.map_none]
    | cons d left =>
      have hblank : ∀ e ∈ d :: left, Text.isBlank e = true :=
        fun e he => hleft e (List.mem_cons_of_mem c he)
      have hcons : ∀ tail, c :: (d :: left ++ 'a' :: 's' :: (right.text ++ other.text)) ≠
          ' ' :: 'a' :: 's' :: ' ' :: tail := by
        intro tail heq
        have hd : d = 'a' := (List.cons.inj (List.cons.inj heq).2).1
        have hd' := hblank d List.mem_cons_self
        rw [hd] at hd'
        cases hd'
      rw [List.cons_append, splitAlias_cons c _ hcons, ih hblank (by simp), List.getLast?_cons_cons]
      split
      · rfl
      · rfl

namespace Entry

theorem ne_nil (entry : Entry) : entry.text ≠ [] := by
  cases entry with
  | plain name => exact name.ne_nil
  | renamed name left right other =>
    intro h
    exact name.ne_nil (List.append_eq_nil_iff.1 h).1

theorem not_isBlank_head (entry : Entry) : ∀ c ∈ entry.text.head?, Text.isBlank c = false := by
  intro c hc
  cases entry with
  | plain name => exact name.not_isBlank c (List.mem_of_head? hc)
  | renamed name left right other =>
    rw [text, List.head?_append_of_ne_nil _ name.ne_nil] at hc
    exact name.not_isBlank c (List.mem_of_head? hc)

theorem not_isBlank_last (entry : Entry) : ∀ c ∈ entry.text.getLast?, Text.isBlank c = false := by
  intro c hc
  cases entry with
  | plain name => exact name.not_isBlank c (List.mem_of_getLast? hc)
  | renamed name left right other =>
    have hsplit : (renamed name left right other).text =
        (name.text ++ (left.text ++ 'a' :: 's' :: right.text)) ++ other.text := by
      simp [text]
    rw [hsplit, List.getLast?_append_of_ne_nil _ other.ne_nil] at hc
    exact other.not_isBlank c (List.mem_of_getLast? hc)

theorem notMem_comma (entry : Entry) : ',' ∉ entry.text := by
  have hname : ∀ name : Name, ',' ∉ name.text :=
    fun name => name.notMem_of_not_isNameChar ',' rfl
  have hgap : ∀ gap : Gap, ',' ∉ gap.text := fun gap => gap.notMem_of_not_isBlank ',' rfl
  cases entry with
  | plain name => exact hname name
  | renamed name left right other => simp [text, hname, hgap]

theorem listItem_text (entry : Entry) : listItem entry.text = entry.taken := by
  cases entry with
  | plain name =>
    have hnone := splitAlias_of_notMem name.text (name.notMem_of_not_isNameChar ' ' rfl)
    rw [listItem, text, hnone]
    rfl
  | renamed name left right other =>
    have hsplit : splitAlias (renamed name left right other).text =
        (if (renamed name left right other).Spaced then
          some (left.text.dropLast, right.text.tail ++ other.text)
        else none).map fun (before, after) => (name.text ++ before, after) := by
      rw [text, splitAlias_append _ _ (name.notMem_of_not_isNameChar ' ' rfl),
        splitAlias_separated left.text left.blank left.ne_nil right other]
      rfl
    rw [listItem, hsplit, taken]
    by_cases hspaced : (renamed name left right other).Spaced
    · let before : Gap := ⟨left.text.dropLast, fun c hc => left.blank c (List.mem_of_mem_dropLast hc)⟩
      let after : Gap := ⟨right.text.tail, fun c hc => right.blank c (List.mem_of_mem_tail hc)⟩
      have hname : Text.trim (name.text ++ left.text.dropLast) = name.text :=
        trim_gaps Gap.empty before name.text (not_isBlank_head (.plain name))
          (not_isBlank_last (.plain name))
      have hother : Text.trim (right.text.tail ++ other.text) = other.text := by
        simpa [Gap.empty] using trim_gaps after Gap.empty other.text (not_isBlank_head (.plain other))
          (not_isBlank_last (.plain other))
      simp only [if_pos hspaced, Option.map_some, hname, hother]
      rfl
    · simp only [if_neg hspaced, Option.map_none]

end Entry

theorem Piece.trim_text (piece : Piece) :
    Text.trim piece.text = (piece.entry?.map Entry.text).getD [] := by
  cases piece with
  | blank gap =>
    have h := trim_gaps gap Gap.empty [] (by simp) (by simp)
    simpa [text, entry?, Gap.empty] using h
  | filled before entry after =>
    exact trim_gaps before after entry.text entry.not_isBlank_head entry.not_isBlank_last

theorem Piece.notMem_comma (piece : Piece) : ',' ∉ piece.text := by
  have hgap : ∀ gap : Gap, ',' ∉ gap.text := fun gap => gap.notMem_of_not_isBlank ',' rfl
  cases piece with
  | blank gap => exact hgap gap
  | filled before entry after => simp [text, hgap, entry.notMem_comma]

/-- A list is read entry by entry. -/
theorem listItems_listText (pieces : List Piece) :
    listItems (listText pieces) = (entries pieces).map Entry.taken := by
  have hitems : ∀ pieces : List Piece,
      (((pieces.map Piece.text).map Text.trim).filter (· ≠ [])).map listItem =
        (entries pieces).map Entry.taken := by
    intro pieces
    induction pieces with
    | nil => rfl
    | cons piece rest ih =>
      rw [List.map_cons, List.map_cons, piece.trim_text]
      cases piece with
      | blank gap => simpa [entries, Piece.entry?, List.filterMap_cons] using ih
      | filled before entry after =>
        have hne := entry.ne_nil
        simp only [Piece.entry?, Option.map_some, Option.getD_some]
        rw [List.filter_cons_of_pos (by simpa using hne), List.map_cons, ih, entry.listItem_text]
        rfl
  by_cases hne : pieces = []
  · rw [hne]
    decide
  · have hsplit : Text.split ',' (listText pieces) = pieces.map Piece.text := by
      apply Text.split_join
      · simpa using hne
      · intro text htext
        obtain ⟨piece, _, rfl⟩ := List.mem_map.1 htext
        exact piece.notMem_comma
    rw [listItems, hsplit, hitems]

namespace Entry

/-- The name that an entry makes visible. -/
def visible (entry : Entry) : String := entry.item.2.getD entry.item.1

theorem taken_eq_item_iff (entry : Entry) : entry.taken = entry.item ↔ entry.Spaced := by
  by_cases hspaced : entry.Spaced
  · rw [taken, if_pos hspaced]
    exact iff_of_true rfl hspaced
  · refine iff_of_false ?_ hspaced
    rw [taken, if_neg hspaced]
    cases entry with
    | plain name => exact absurd trivial hspaced
    | renamed name left right other =>
      intro heq
      cases (Prod.mk.inj heq).2

/-- An entry that is taken for a name shows a name with white space in it. -/
theorem visible_taken_iff (entry : Entry) :
    entry.taken.2.getD entry.taken.1 = entry.visible ↔ entry.Spaced := by
  by_cases hspaced : entry.Spaced
  · rw [taken, if_pos hspaced]
    exact iff_of_true rfl hspaced
  · refine iff_of_false ?_ hspaced
    rw [taken, if_neg hspaced]
    cases entry with
    | plain name => exact absurd trivial hspaced
    | renamed name left right other =>
      intro heq
      have htext : (renamed name left right other).text = other.text :=
        String.ofList_injective heq
      obtain ⟨c, hc⟩ := List.exists_mem_of_ne_nil _ left.ne_nil
      have hmem : c ∈ other.text := by
        rw [← htext]
        simp [text, hc]
      have hblank := other.not_isBlank c hmem
      rw [left.blank c hc] at hblank
      cases hblank

end Entry

/-- A list says what is written in it exactly if every alias is spaced, and so do the
bindings and the visible names that come of it. -/
theorem listItems_iff_spaced (pieces : List Piece) :
    listItems (listText pieces) = (entries pieces).map Entry.taken ∧
      (listItems (listText pieces) = (entries pieces).map Entry.item ↔
        ∀ entry ∈ entries pieces, entry.Spaced) ∧
      (bindingsOf none (some (listText pieces)) none =
          (entries pieces).map (fun entry => .named entry.item.1 entry.item.2) ↔
        ∀ entry ∈ entries pieces, entry.Spaced) ∧
      ((exportedList (listText pieces)).filterMap Outline.nameOf =
          (entries pieces).map Entry.visible ↔
        ∀ entry ∈ entries pieces, entry.Spaced) := by
  have hitems := listItems_listText pieces
  have hbindings : bindingsOf none (some (listText pieces)) none =
      (entries pieces).map fun entry => .named entry.taken.1 entry.taken.2 := by
    simp [bindingsOf, hitems]
  have hnames : (exportedList (listText pieces)).filterMap Outline.nameOf =
      (entries pieces).map fun entry => entry.taken.2.getD entry.taken.1 := by
    rw [exportedList, hitems, List.map_map, List.filterMap_map, ← List.filterMap_eq_map]
    rfl
  refine ⟨hitems, ?_, ?_, ?_⟩
  · rw [hitems, List.map_inj_left]
    exact forall₂_congr fun entry _ => entry.taken_eq_item_iff
  · rw [hbindings, List.map_inj_left]
    refine forall₂_congr fun entry _ => ?_
    rw [Binding.named.injEq, ← Prod.ext_iff]
    exact entry.taken_eq_item_iff
  · rw [hnames, List.map_inj_left]
    exact forall₂_congr fun entry _ => entry.visible_taken_iff

/-- An alias on the next line is not seen. -/
theorem alias_behind_lineEnd : ∃ entry : Entry, entry.item = ("a", some "b") ∧
    listText [.filled .empty entry .empty] = "a as\n    b".toList ∧
    listItems (listText [.filled .empty entry .empty]) = [("a as\n    b", none)] := by
  let name : Name := ⟨['a'], by decide, List.forall_mem_singleton.2 rfl⟩
  let other : Name := ⟨['b'], by decide, List.forall_mem_singleton.2 rfl⟩
  let right : Separator := ⟨⟨"\n    ".toList, List.all_eq_true.1 (by decide)⟩, by decide⟩
  refine ⟨.renamed name .space right other, rfl, rfl, ?_⟩
  decide

end ModuleLoading.Source
