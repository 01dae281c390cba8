import Mathlib.Data.List.Nodup
import ModuleLoading.Proofs.InnerLines
import ModuleLoading.Proofs.PlacedLines

/-!
The word "import" opens declarations and calls. Which of them it opens shows in the first
character behind it that is no white space: a name, a brace or a star, a quotation mark, or a
parenthesis. So what is found as an import with bindings, as an import without, and as a
call is found at different words, and a call is never taken for a declaration.
-/
namespace ModuleLoading.Source

open Reading

inductive ImportForm
  | binding
  | sideEffect
  | call
  deriving Repr, DecidableEq

namespace ImportForm

def all : List ImportForm := [binding, sideEffect, call]

def ofChar? (c : Char) : Option ImportForm :=
  if isNameChar c || c == '\x7b' || c == '*' then some binding
  else if isQuote c then some sideEffect
  else if c == '(' then some call
  else none

theorem ofChar?_of_isQuote {c : Char} (h : isQuote c = true) : ofChar? c = some sideEffect := by
  simp only [isQuote, Bool.or_eq_true, beq_iff_eq] at h
  rcases h with rfl | rfl
  · rfl
  · rfl

/-- What a text opens that begins with the word. -/
def ofText? (text : List Char) : Option ImportForm :=
  if "import".toList.isPrefixOf text then
    ((text.drop "import".length).dropWhile Text.isBlank).head?.bind ofChar?
  else none

theorem ofText?_word (tail : List Char) :
    ofText? ("import".toList ++ tail) = (tail.dropWhile Text.isBlank).head?.bind ofChar? := by
  rw [ofText?, if_pos (List.isPrefixOf_iff_prefix.2 (List.prefix_append _ _))]
  rfl

end ImportForm

section Readings

variable {text : List Char}

theorem dropWhile_isBlank_cases (text : List Char) :
    text.dropWhile Text.isBlank = [] ∨
      ∃ c rest, text.dropWhile Text.isBlank = c :: rest ∧ Text.isBlank c = false := by
  cases hdrop : text.dropWhile Text.isBlank with
  | nil => exact .inl rfl
  | cons c rest =>
    have hc := List.head?_dropWhile_not Text.isBlank text
    rw [hdrop] at hc
    exact .inr ⟨c, rest, rfl, by simpa using hc⟩

theorem word_bind_ne_nil {α : Type} (keyword : String) (next : Unit → Reading α)
    (h : (word keyword >>= next) text ≠ []) :
    ∃ tail, text = keyword.toList ++ tail ∧ next () tail ≠ [] := by
  rcases exactly_cases keyword.toList text with hnone | ⟨tail, htail, hsome⟩
  · exact absurd (bind_of_fails hnone) h
  · have hword : word keyword text = [((), tail)] := hsome
    rw [bind_of_eq hword] at h
    exact ⟨tail, htail, h⟩

theorem ofText?_of_bindingImport (h : bindingImport text ≠ []) :
    ImportForm.ofText? (text.dropWhile isIndent) = some .binding := by
  rw [inner_bindingImport.eq] at h
  obtain ⟨tail, htail, hnext⟩ := word_bind_ne_nil "import" _ h
  rw [htail, ImportForm.ofText?_word]
  have hafter : afterImport (tail.dropWhile Text.isBlank) ≠ [] := by
    intro hnone
    refine hnext (bind_eq_nil fun found hfound => ?_)
    rw [someBlanks, nonemptyRun] at hfound
    split at hfound
    · cases hfound
    · rw [List.mem_singleton.1 hfound]
      exact hnone
  rcases dropWhile_isBlank_cases tail with hnil | ⟨c, more, hcons, hblank⟩
  · rw [hnil] at hafter
    exact absurd rfl hafter
  · rw [hcons] at hafter ⊢
    refine if_pos ?_
    by_contra hnone
    exact hafter (afterImport_cons c more hblank (Bool.not_eq_true _ ▸ hnone))

theorem ofText?_of_sideEffectImport (h : sideEffectImport text ≠ []) :
    ImportForm.ofText? (text.dropWhile isIndent) = some .sideEffect := by
  rw [inner_sideEffectImport.eq] at h
  obtain ⟨tail, htail, hnext⟩ := word_bind_ne_nil "import" _ h
  have hblanks : blanks tail = [(tail.takeWhile Text.isBlank, tail.dropWhile Text.isBlank)] := rfl
  rw [afterBareWord, bind_of_eq hblanks] at hnext
  rw [htail, ImportForm.ofText?_word]
  rcases dropWhile_isBlank_cases tail with hnil | ⟨c, more, hcons, -⟩
  · rw [hnil] at hnext
    exact absurd rfl hnext
  · rw [hcons] at hnext ⊢
    refine ImportForm.ofChar?_of_isQuote ?_
    by_contra hquote
    exact hnext (bind_of_fails (quoted_of_stops (stops_cons c (Bool.not_eq_true _ ▸ hquote))))

theorem ofText?_of_reExport (h : reExport text ≠ []) :
    ImportForm.ofText? (text.dropWhile isIndent) = none := by
  rw [inner_reExport.eq] at h
  obtain ⟨tail, htail, -⟩ := word_bind_ne_nil "export" _ h
  rw [htail]
  rfl

theorem ofText?_of_dynamicImport (h : dynamicImport text ≠ []) :
    ImportForm.ofText? text = some .call := by
  rw [dynamicImport] at h
  obtain ⟨tail, rfl, hnext⟩ := word_bind_ne_nil "import" _ h
  have hblanks : blanks tail = [(tail.takeWhile Text.isBlank, tail.dropWhile Text.isBlank)] := rfl
  rw [bind_of_eq hblanks] at hnext
  rw [ImportForm.ofText?_word]
  rcases dropWhile_isBlank_cases tail with hnil | ⟨c, more, hcons, -⟩
  · rw [hnil] at hnext
    exact absurd rfl hnext
  · rw [hcons] at hnext ⊢
    by_cases hc : '(' = c
    · exact hc ▸ rfl
    · exact absurd (bind_of_fails (if_neg hc)) hnext

end Readings

/-- Where the word of something stands that begins at a place: behind the indentation. -/
def keywordPlace (text : List Char) (place : Nat) : Nat :=
  place + ((text.drop place).takeWhile isIndent).length

theorem drop_keywordPlace (text : List Char) (place : Nat) :
    text.drop (keywordPlace text place) = (text.drop place).dropWhile isIndent := by
  have hdrop : ((text.drop place).takeWhile isIndent ++ (text.drop place).dropWhile isIndent).drop
      ((text.drop place).takeWhile isIndent).length = (text.drop place).dropWhile isIndent :=
    List.drop_left
  rw [List.takeWhile_append_dropWhile, List.drop_drop] at hdrop
  exact hdrop

/-- Between a place and the word behind it no line begins. -/
theorem keywordPlace_lt (text : List Char) (place next : Nat) (hlt : place < next)
    (hstart : text[next - 1]? = some '\n') : keywordPlace text place < next := by
  by_contra hle
  rw [keywordPlace] at hle
  have hindex : next - 1 - place < ((text.drop place).takeWhile isIndent).length := by omega
  have hplace : place + (next - 1 - place) = next - 1 := by omega
  have hleft : ((text.drop place).takeWhile isIndent ++
      (text.drop place).dropWhile isIndent)[next - 1 - place]? =
        ((text.drop place).takeWhile isIndent)[next - 1 - place]? :=
    List.getElem?_append_left hindex
  have hchar : ((text.drop place).takeWhile isIndent)[next - 1 - place]? = some '\n' := by
    rw [← hleft, List.takeWhile_append_dropWhile, List.getElem?_drop, hplace, hstart]
  have hindent : isIndent '\n' = true := List.mem_takeWhile_imp (List.mem_of_getElem? hchar)
  cases hindent

namespace ImportForm

/-- Where the reading that is there for a form finds something. -/
def places (text : List Char) : ImportForm → List Nat
  | binding => (occurrences atLineStart bindingImport text).map Occurrence.offset
  | sideEffect => (occurrences atLineStart sideEffectImport text).map Occurrence.offset
  | call => (occurrences atWordStart dynamicImport text).map Occurrence.offset

/-- The words "import" of what is found, each with its place. -/
def keywords (text : List Char) (form : ImportForm) : List Nat :=
  (form.places text).map (keywordPlace text)

end ImportForm

section Occurrences

variable {α : Type} (begins : Char → Bool) (reading : Reading α)

/-- Occurrences come in the order of their places. -/
theorem ascending_occurrencesFrom (offset : Nat) (previous : Char) (skip : Nat) (text : List Char) :
    (occurrencesFrom begins reading offset previous skip text).Pairwise
      fun o p => o.offset < p.offset := by
  fun_induction occurrencesFrom begins reading offset previous skip text with
  | case1 => exact .nil
  | case2 offset previous c text skip ih => exact ih
  | case3 offset previous c text value rest _ ih =>
    refine List.pairwise_cons.2 ⟨fun o ho => ?_, ih⟩
    have hle := le_offset_of_mem begins reading _ _ _ _ o ho
    show offset < o.offset
    omega
  | case4 offset previous c text _ ih => exact ih

/-- What is found at a place is read from there on. -/
theorem reading_of_mem (text : List Char) (o : Occurrence α)
    (ho : o ∈ occurrences begins reading text) : reading (text.drop o.offset) ≠ [] := by
  obtain ⟨front, back, rfl, -, hoffset, -, hfinds⟩ :=
    mem_occurrencesFrom begins reading 0 '\n' 0 text o ho
  rw [hoffset, Nat.zero_add, List.drop_left]
  exact List.ne_nil_of_mem (List.mem_of_head? hfinds)

/-- A reading that begins where lines do finds nothing anywhere else. -/
theorem lineEnd_before_of_mem (text : List Char) (o : Occurrence α)
    (ho : o ∈ occurrences atLineStart reading text) (hpos : 0 < o.offset) :
    text[o.offset - 1]? = some '\n' := by
  obtain ⟨front, back, rfl, -, hoffset, hbegins, -⟩ :=
    mem_occurrencesFrom atLineStart reading 0 '\n' 0 text o ho
  rw [Nat.zero_add] at hoffset
  have hlast : front.getLast?.getD '\n' = '\n' := beq_iff_eq.1 hbegins
  cases hfront : front.getLast? with
  | none =>
    rw [List.getLast?_eq_none_iff.1 hfront] at hoffset
    exact absurd hoffset (Nat.ne_of_gt hpos)
  | some c =>
    rw [hfront, Option.getD_some] at hlast
    rw [hoffset, List.getElem?_append_left (by omega), ← List.getLast?_eq_getElem?, hfront, hlast]

/-- Lines have their own words each. -/
theorem ascending_keywordPlaces (text : List Char) :
    (((occurrences atLineStart reading text).map Occurrence.offset).map (keywordPlace text)).Pairwise
      (· < ·) := by
  rw [List.pairwise_map, List.pairwise_map]
  refine (ascending_occurrencesFrom atLineStart reading 0 '\n' 0 text).imp_of_mem ?_
  intro o p ho hp hlt
  have hstart := lineEnd_before_of_mem reading text p hp (Nat.zero_lt_of_lt hlt)
  exact Nat.lt_of_lt_of_le (keywordPlace_lt text o.offset p.offset hlt hstart)
    (Nat.le_add_right _ _)

end Occurrences

namespace ImportForm

variable (text : List Char)

/-- A call begins with the word itself. -/
theorem keywordPlace_call (o : Occurrence String)
    (ho : o ∈ occurrences atWordStart dynamicImport text) :
    keywordPlace text o.offset = o.offset := by
  have hreads := reading_of_mem atWordStart dynamicImport text o ho
  rw [dynamicImport] at hreads
  obtain ⟨tail, htail, -⟩ := word_bind_ne_nil "import" _ hreads
  rw [keywordPlace, htail]
  rfl

theorem keywords_call : call.keywords text =
    (occurrences atWordStart dynamicImport text).map Occurrence.offset := by
  rw [keywords, places, List.map_map]
  exact List.map_congr_left (keywordPlace_call text)

/-- Each word of a form stands where the form is used. -/
theorem ofText?_of_mem_keywords (form : ImportForm) (place : Nat) (h : place ∈ form.keywords text) :
    ofText? (text.drop place) = some form := by
  cases form with
  | binding =>
    obtain ⟨_, hplace, rfl⟩ := List.mem_map.1 h
    obtain ⟨o, ho, rfl⟩ := List.mem_map.1 hplace
    rw [drop_keywordPlace]
    exact ofText?_of_bindingImport (reading_of_mem atLineStart bindingImport text o ho)
  | sideEffect =>
    obtain ⟨_, hplace, rfl⟩ := List.mem_map.1 h
    obtain ⟨o, ho, rfl⟩ := List.mem_map.1 hplace
    rw [drop_keywordPlace]
    exact ofText?_of_sideEffectImport (reading_of_mem atLineStart sideEffectImport text o ho)
  | call =>
    rw [keywords_call] at h
    obtain ⟨o, ho, rfl⟩ := List.mem_map.1 h
    exact ofText?_of_dynamicImport (reading_of_mem atWordStart dynamicImport text o ho)

theorem nodup_keywords (form : ImportForm) : (form.keywords text).Nodup := by
  cases form with
  | binding => exact (ascending_keywordPlaces bindingImport text).imp Nat.ne_of_lt
  | sideEffect => exact (ascending_keywordPlaces sideEffectImport text).imp Nat.ne_of_lt
  | call =>
    rw [keywords_call, List.Nodup, List.pairwise_map]
    exact (ascending_occurrencesFrom atWordStart dynamicImport 0 '\n' 0 text).imp Nat.ne_of_lt

theorem nodup_all_keywords : (all.flatMap (keywords text)).Nodup := by
  refine List.nodup_flatMap.2 ⟨fun form _ => nodup_keywords text form, ?_⟩
  have hdistinct : all.Pairwise (· ≠ ·) := by decide
  refine hdistinct.imp fun hne place hplace hother => hne ?_
  rw [← Option.some.injEq, ← ofText?_of_mem_keywords text _ place hplace,
    ← ofText?_of_mem_keywords text _ place hother]

end ImportForm

/-- What importing a module brings in, each with the place where it is declared. -/
def Outline.edges (outline : Outline) : List (Placed String) :=
  mergePlaced (outline.imports.map fun p => (p.1, p.2.specifier))
    (outline.exports.filterMap fun p => p.2.source.map (p.1, ·))

section Records

variable (source : String)

/-- Every import that is recorded is one that is found. -/
theorem imports_perm :
    let text := blank source.toList
    ((outline source).imports.map fun p => keywordPlace text p.1).Perm
      (ImportForm.binding.keywords text ++ ImportForm.sideEffect.keywords text) := by
  intro text
  have hmerge : (outline source).imports.Perm
      (placed bindingImport text ++ placed sideEffectImport text) := List.merge_perm_append _
  refine (hmerge.map fun p => keywordPlace text p.1).trans ?_
  rw [List.map_append, placed, placed, List.map_map, List.map_map]
  simp only [ImportForm.keywords, ImportForm.places, List.map_map]
  exact List.Perm.refl _

theorem reExport_of_mem_exports (p : Placed ExportDeclaration) (hp : p ∈ (outline source).exports)
    (hsource : p.2.source ≠ none) :
    ∃ o ∈ occurrences atLineStart reExport (blank source.toList), o.offset = p.1 := by
  rcases List.mem_merge.1 hp with hp | hp
  · obtain ⟨o, ho, rfl⟩ := List.mem_map.1 hp
    exact ⟨o, ho, rfl⟩
  · obtain ⟨o, -, hlocal⟩ := List.mem_filterMap.1 hp
    refine absurd ?_ hsource
    unfold localExported at hlocal
    split at hlocal
    · cases hlocal
      rfl
    · cases hlocal
      rfl
    · split at hlocal
      · cases hlocal
      · cases hlocal
        rfl

/-- No edge is declared by a call. -/
theorem ofText?_of_mem_edges (edge : Placed String) (h : edge ∈ (outline source).edges) :
    let text := blank source.toList
    ImportForm.ofText? (text.drop (keywordPlace text edge.1)) ≠ some .call := by
  intro text
  rcases List.mem_merge.1 h with h | h
  · obtain ⟨p, hp, rfl⟩ := List.mem_map.1 h
    have hplace := (imports_perm source).mem_iff.1 (List.mem_map_of_mem hp)
    rcases List.mem_append.1 hplace with hplace | hplace
    · rw [ImportForm.ofText?_of_mem_keywords text .binding _ hplace]
      decide
    · rw [ImportForm.ofText?_of_mem_keywords text .sideEffect _ hplace]
      decide
  · obtain ⟨p, hp, hedge⟩ := List.mem_filterMap.1 h
    obtain ⟨specifier, hspecifier, rfl⟩ := Option.map_eq_some_iff.1 hedge
    have hsource : p.2.source ≠ none := by
      rw [hspecifier]
      simp
    obtain ⟨o, ho, hoffset⟩ := reExport_of_mem_exports source p hp hsource
    rw [← hoffset, drop_keywordPlace, ofText?_of_reExport (reading_of_mem _ _ text o ho)]
    simp

end Records

/-- Each word "import" in the code of a source opens at most one thing that is found: an import
with bindings, one without, or a call. The first two are recorded as imports, and the third as
an import at run time; no static edge, re-exports among them, is declared by a call. -/
theorem static_and_dynamic_apart (source : String) :
    let text := blank source.toList
    let calls := occurrences atWordStart dynamicImport text
    (ImportForm.all.flatMap (ImportForm.keywords text)).Nodup ∧
      ((outline source).imports.map fun p => keywordPlace text p.1).Perm
        (ImportForm.binding.keywords text ++ ImportForm.sideEffect.keywords text) ∧
      (outline source).dynamicImports = calls.map Occurrence.value ∧
      ImportForm.call.keywords text = calls.map Occurrence.offset ∧
      (∀ call ∈ calls, ImportForm.ofText? (text.drop call.offset) = some .call) ∧
      (outline source).staticSpecifiers = distinct ((outline source).edges.map Prod.snd) ∧
      ∀ edge ∈ (outline source).edges,
        ImportForm.ofText? (text.drop (keywordPlace text edge.1)) ≠ some .call := by
  intro text calls
  refine ⟨ImportForm.nodup_all_keywords text, imports_perm source, rfl,
    ImportForm.keywords_call text, ?_, staticSpecifiers_eq _, ofText?_of_mem_edges source⟩
  intro call hcall
  exact ofText?_of_dynamicImport (reading_of_mem atWordStart dynamicImport text call hcall)

example : ImportForm.ofText? "import\n ('a')".toList = some .call := by decide

end ModuleLoading.Source
