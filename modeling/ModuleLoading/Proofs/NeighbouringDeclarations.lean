import Mathlib
import ModuleLoading.Proofs.BlankedText
import ModuleLoading.Proofs.InnerLines
import ModuleLoading.Proofs.PlacedLines

/-!
Two declarations that lead to other modules, with a semicolon between them. On lines of
their own both are seen, if there is white space after their first words. On one line the
second is not, since no pass looks for it behind the start of a line, unless it goes on on
a next line that looks like an import itself.
-/
namespace ModuleLoading.Source

open Reading

/-- What an occurrence leads to. -/
def leadsTo {α : Type} (target : α → Option String) (o : Occurrence α) : Option (Placed String) :=
  (target o.value).map (o.offset, ·)

theorem map_placed {α : Type} (reading : Reading α) (target : α → String) (text : List Char) :
    (placed reading text).map (fun p => (p.1, target p.2)) =
      (occurrences atLineStart reading text).filterMap (leadsTo fun a => some (target a)) := by
  rw [placed, List.map_map, ← List.filterMap_eq_map]
  rfl

/-- Only the three passes that find specifiers count. -/
theorem staticSpecifiers_outline (source : String) :
    let text := blank source.toList
    let bound := (occurrences atLineStart bindingImport text).filterMap
      (leadsTo fun a => some a.specifier)
    let bare := (occurrences atLineStart sideEffectImport text).filterMap
      (leadsTo fun a => some a.specifier)
    let again := (occurrences atLineStart reExport text).filterMap (leadsTo ExportDeclaration.source)
    (outline source).staticSpecifiers =
      distinct ((mergePlaced (mergePlaced bound bare) again).map Prod.snd) := by
  intro text bound bare again
  have himports : (outline source).imports.map (fun p => (p.1, p.2.specifier)) =
      mergePlaced bound bare := by
    have hbound := map_placed bindingImport ImportDeclaration.specifier text
    have hbare := map_placed sideEffectImport ImportDeclaration.specifier text
    rw [show bound = _ from hbound.symm, show bare = _ from hbare.symm]
    exact List.map_merge fun _ _ _ _ => rfl
  have hlocal : ∀ p ∈ (occurrences atLineStart localExport text).filterMap localExported,
      p.2.source = none := by
    intro p hp
    obtain ⟨o, -, ho⟩ := List.mem_filterMap.1 hp
    unfold localExported at ho
    split at ho
    · cases ho
      rfl
    · cases ho
      rfl
    · split at ho
      · cases ho
      · cases ho
        rfl
  have hexports : (outline source).exports.filterMap (fun p => p.2.source.map (p.1, ·)) = again := by
    rw [outline, filterMap_mergePlaced _ _ _ hlocal, placed, List.filterMap_map]
    rfl
  rw [staticSpecifiers_eq, himports, hexports]

/-- Things before a place lead to one module, things from there on to another. -/
structure Halves (place : Nat) (m m' : String) (first second : List (Placed String)) : Prop where
  before : ∀ p ∈ first, p.1 < place ∧ p.2 = m
  behind : ∀ p ∈ second, place ≤ p.1 ∧ p.2 = m'

section Halves

variable {place : Nat} {m m' : String} {first second first' second' : List (Placed String)}

theorem mem_mergePlaced {left right : List (Placed String)} {p : Placed String} :
    p ∈ mergePlaced left right ↔ p ∈ left ∨ p ∈ right := List.mem_merge

theorem Halves.merge (h : Halves place m m' first second) (h' : Halves place m m' first' second') :
    mergePlaced (first ++ second) (first' ++ second') =
        mergePlaced first first' ++ mergePlaced second second' ∧
      Halves place m m' (mergePlaced first first') (mergePlaced second second') := by
  constructor
  · refine mergePlaced_append _ _ _ _ fun p hp q hq => ?_
    have hp : p.1 < place := hp.elim (fun hp => (h.before p hp).1) fun hp => (h'.before p hp).1
    have hq : place ≤ q.1 := hq.elim (fun hq => (h.behind q hq).1) fun hq => (h'.behind q hq).1
    omega
  · refine ⟨fun p hp => ?_, fun p hp => ?_⟩
    · exact (mem_mergePlaced.1 hp).elim (h.before p) (h'.before p)
    · exact (mem_mergePlaced.1 hp).elim (h.behind p) (h'.behind p)

theorem mergePlaced_eq_nil_iff {left right : List (Placed String)} :
    mergePlaced left right = [] ↔ left = [] ∧ right = [] := by
  simp only [List.eq_nil_iff_forall_not_mem, mem_mergePlaced, not_or, forall_and]

/-- Repetitions of an element are dropped where it is left out anyway. -/
theorem filter_distinct_append (m : String) (list rest : List String) (h : ∀ a ∈ list, a = m) :
    (distinct (list ++ rest)).filter (· ≠ m) = (distinct rest).filter (· ≠ m) := by
  induction list with
  | nil => rfl
  | cons a list ih =>
    have ha : a = m := h a List.mem_cons_self
    have hlist := ih fun b hb => h b (List.mem_cons_of_mem a hb)
    rw [ha, List.cons_append, distinct, List.filter_cons_of_neg (by simp), List.filter_filter, ← hlist]
    simp

theorem distinct_repeated (m : String) (list rest : List String) (h : ∀ a ∈ list, a = m)
    (hne : list ≠ []) : distinct (list ++ rest) = m :: (distinct rest).filter (· ≠ m) := by
  cases list with
  | nil => exact absurd rfl hne
  | cons a list =>
    have ha : a = m := h a List.mem_cons_self
    rw [ha, List.cons_append, distinct,
      filter_distinct_append m list rest fun b hb => h b (List.mem_cons_of_mem a hb)]

theorem distinct_constant (m : String) (list : List String) (h : ∀ a ∈ list, a = m) (shown : Prop)
    [Decidable shown] (hshown : list ≠ [] ↔ shown) :
    distinct list = distinct (if shown then [m] else []) := by
  by_cases hne : list = []
  · rw [if_neg (mt hshown.2 (not_not.2 hne)), hne]
  · have hrepeated := distinct_repeated m list [] h hne
    rw [List.append_nil] at hrepeated
    rw [if_pos (hshown.1 hne), hrepeated]
    rfl

theorem Halves.distinct (h : Halves place m m' first second) (shown shown' : Prop)
    [Decidable shown] [Decidable shown'] (hshown : first ≠ [] ↔ shown)
    (hshown' : second ≠ [] ↔ shown') :
    distinct ((first ++ second).map Prod.snd) =
      distinct ((if shown then [m] else []) ++ if shown' then [m'] else []) := by
  have hfirst : ∀ a ∈ first.map Prod.snd, a = m := by
    intro a ha
    obtain ⟨p, hp, rfl⟩ := List.mem_map.1 ha
    exact (h.before p hp).2
  have hsecond : ∀ a ∈ second.map Prod.snd, a = m' := by
    intro a ha
    obtain ⟨p, hp, rfl⟩ := List.mem_map.1 ha
    exact (h.behind p hp).2
  have hlast := distinct_constant m' _ hsecond shown' (by simpa using hshown')
  by_cases hne : first = []
  · rw [if_neg (mt hshown.2 (not_not.2 hne)), hne, List.nil_append, List.nil_append, hlast]
  · rw [if_pos (hshown.1 hne), List.map_append, distinct_repeated m _ _ hfirst (by simpa using hne),
      hlast]
    rfl

end Halves

/-- What a pass finds of declarations that lead to other modules. `sees` says whether the
exception matters to it. -/
structure LinkPass {α : Type} (reading : Reading α) (target : α → Option String)
    (found : Layout → Link → Option α) (sees : Prop) : Prop where
  head? : ∀ layout link rest,
    (reading (link.text layout ++ rest)).head? = (found layout link).map (·, rest)
  leads : ∀ layout link a, found layout link = some a → target a = some link.target.word
  inner : ∀ layout (link : Link) rest, ∃ inner,
    Passes reading (leadsTo target) (link.text layout) rest inner ∧
      (∀ p ∈ inner, p.1 < (link.text layout).length ∧ p.2 = link.target.word) ∧
      (inner ≠ [] ↔ sees ∧ link.Resumes layout)

theorem linkPass_bindingImport :
    LinkPass bindingImport (fun a => some a.specifier) Link.binding? True where
  head? layout link rest := bindingImport_link layout link
  leads layout link a h := by
    rw [Link.binding?] at h
    split at h
    · cases h
    · obtain ⟨_ | _ | _, _⟩ := link
      all_goals cases h
      rfl
  inner layout link rest := by
    by_cases h : link.Resumes layout
    · have hkeep : ∀ offset, leadsTo (fun a : ImportDeclaration => some a.specifier)
          ⟨offset, ⟨link.target.word, [], false⟩, rest⟩ = some (offset, link.target.word) :=
        fun offset => rfl
      obtain ⟨place, hplace, hpasses⟩ := passes_bindingImport layout link rest hkeep h
      exact ⟨_, hpasses, by simpa using hplace, by simp [h]⟩
    · exact ⟨[], (silent_bindingImport layout link rest h).passes, by simp, by simp [h]⟩

theorem linkPass_sideEffectImport :
    LinkPass sideEffectImport (fun a => some a.specifier) (fun _ => Link.bare?) False where
  head? layout link rest := sideEffectImport_link layout link
  leads layout link a h := by
    obtain ⟨_ | _ | _, _⟩ := link
    all_goals cases h
    rfl
  inner layout link rest :=
    ⟨[], (silent_sideEffectImport layout link rest).passes, by simp, by simp⟩

theorem linkPass_reExport :
    LinkPass reExport ExportDeclaration.source Link.reExport? False where
  head? layout link rest := reExport_link layout link
  leads layout link a h := by
    rw [Link.reExport?] at h
    split at h
    · cases h
    · obtain ⟨_ | _ | _, _⟩ := link
      all_goals cases h
      rfl
  inner layout link rest := ⟨[], (silent_reExport layout link rest).passes, by simp, by simp⟩

theorem Link.last_text (layout : Layout) (link : Link) :
    ∃ c ∈ (link.text layout).getLast?, c ≠ '\n' :=
  ⟨layout.quote, by simp [Link.text, Layout.specifier, List.getLast?_append, List.getLast?_cons],
    (layout.ne_quote rfl).symm⟩

theorem passes_semicolon {α : Type} {reading : Reading α} {target : α → Option String}
    (rest : List Char) : Passes reading (leadsTo target) [';'] rest [] :=
  (silent_of_notMem (by decide)).passes

theorem passes_nil {α : Type} {reading : Reading α} {target : α → Option String} :
    Passes reading (leadsTo target) [] [] [] := (silent_of_notMem (by simp)).passes

section Lines

variable {α : Type} {reading : Reading α} {target : α → Option String} {found : Layout → Link → Option α}
  {sees : Prop} (pass : LinkPass reading target found sees) (layout : Layout) (link : Link)

include pass

/-- What a pass yields of a line that begins with a declaration. -/
theorem LinkPass.yields {back rest : List Char} {later : List (Placed String)}
    (hback : Passes reading (leadsTo target) back rest later)
    (hlast : ∃ c ∈ (link.text layout ++ back).getLast?, c ≠ '\n') (hrest : ∀ c ∈ rest.head?, c = '\n') :
    ∃ first, Yields reading (leadsTo target) (link.text layout ++ back) rest
        (first ++ later.map (moveBy (link.text layout).length)) ∧
      (∀ p ∈ first, p.1 < (link.text layout).length ∧ p.2 = link.target.word) ∧
      (first ≠ [] ↔ found layout link ≠ none ∨ sees ∧ link.Resumes layout) := by
  have hend := link.last_text layout
  have hhead := pass.head? layout link (back ++ rest)
  cases hfound : found layout link with
  | none =>
    rw [hfound] at hhead
    obtain ⟨inner, hpasses, hinner, hresumes⟩ := pass.inner layout link (back ++ rest)
    refine ⟨inner, (hpasses.append hend hback).yields ?_ hlast hrest, hinner, by simp [hresumes]⟩
    rw [List.append_assoc]
    exact List.head?_eq_none_iff.1 hhead
  | some a =>
    rw [hfound] at hhead
    have hkeep : ∀ offset, leadsTo target ⟨offset, a, back ++ rest⟩ =
        (some link.target.word).map (offset, ·) := by
      intro offset
      rw [leadsTo, pass.leads layout link a hfound]
    refine ⟨[(0, link.target.word)], hback.yields_first hend hlast hrest hhead hkeep, ?_, by simp⟩
    have hne : link.text layout ≠ [] := Declaration.text_ne_nil layout (.linking link)
    simpa using List.length_pos_iff.2 hne

variable (layout' : Layout) (link' : Link)

/-- On lines of their own. -/
theorem LinkPass.apart : ∃ first second,
    (occurrences atLineStart reading (link.text layout ++ ';' :: '\n' :: link'.text layout')).filterMap
        (leadsTo target) = first ++ second ∧
      Halves (link.text layout).length link.target.word link'.target.word first second ∧
      (first ≠ [] ↔ found layout link ≠ none ∨ sees ∧ link.Resumes layout) ∧
      (second ≠ [] ↔ found layout' link' ≠ none ∨ sees ∧ link'.Resumes layout') := by
  obtain ⟨first, hyields, hfirst, hfound⟩ := pass.yields layout link
    (passes_semicolon ('\n' :: link'.text layout')) (by simp) (by simp)
  obtain ⟨second, hyields', hsecond, hfound'⟩ := pass.yields layout' link' passes_nil
    (by simpa using link'.last_text layout') (by simp)
  have hline := hyields 0
  have hline' := hyields' (0 + (link.text layout ++ [';']).length + 1)
  simp only [List.map_nil, List.append_nil, List.tail_nil, occurrencesFrom_nil, List.filterMap_nil,
    map_moveBy_zero] at hline hline'
  rw [List.tail_cons, hline'] at hline
  refine ⟨first, second.map (moveBy (0 + (link.text layout ++ [';']).length + 1)), ?_, ⟨hfirst, ?_⟩,
    hfound, by simpa using hfound'⟩
  · rw [← hline, occurrences, List.append_assoc, List.singleton_append]
  · intro p hp
    obtain ⟨q, hq, rfl⟩ := List.mem_map.1 hp
    refine ⟨?_, (hsecond q hq).2⟩
    show _ ≤ 0 + (link.text layout ++ [';']).length + 1 + q.1
    rw [List.length_append]
    omega

/-- On one line, where blanking leaves `tail` of the second. -/
theorem LinkPass.together (tail : List Char)
    (htail : ('\n' ∉ link'.text layout' ∧ '\n' ∉ tail) ∨ tail = link'.text layout') :
    ∃ first second,
      (occurrences atLineStart reading (link.text layout ++ ';' :: tail)).filterMap (leadsTo target) =
        first ++ second ∧
      Halves (link.text layout).length link.target.word link'.target.word first second ∧
      (first ≠ [] ↔ found layout link ≠ none ∨ sees ∧ link.Resumes layout) ∧
      (second ≠ [] ↔ sees ∧ link'.Resumes layout') := by
  obtain ⟨later, hlater, hplaces, hresumes, hlast⟩ : ∃ later,
      Passes reading (leadsTo target) tail [] later ∧ (∀ p ∈ later, p.2 = link'.target.word) ∧
      (later ≠ [] ↔ sees ∧ link'.Resumes layout') ∧ ∃ c ∈ (';' :: tail).getLast?, c ≠ '\n' := by
    rcases htail with ⟨hline, htail⟩ | rfl
    · have hno : ¬link'.Resumes layout' := fun h => hline (h.mem_lineEnd layout' link')
      refine ⟨[], (silent_of_notMem htail).passes, by simp, by simp [hno], ?_⟩
      refine ⟨(';' :: tail).getLast (by simp), List.getLast?_eq_some_getLast _, fun heq => ?_⟩
      have hmem := List.getLast_mem (List.cons_ne_nil ';' tail)
      rw [heq, List.mem_cons] at hmem
      exact hmem.elim (by decide) htail
    · obtain ⟨inner, hpasses, hinner, hresumes⟩ := pass.inner layout' link' []
      obtain ⟨c, hc, hne⟩ := link'.last_text layout'
      refine ⟨inner, hpasses, fun p hp => (hinner p hp).2, hresumes, c, ?_, hne⟩
      rw [List.getLast?_cons, hc]
      rfl
  have hback := (passes_semicolon (tail ++ [])).append ⟨';', rfl, by decide⟩ hlater
  have hend : ∃ c ∈ (link.text layout ++ ';' :: tail).getLast?, c ≠ '\n' := by
    obtain ⟨c, hc, hne⟩ := hlast
    refine ⟨c, ?_, hne⟩
    rw [List.getLast?_append, hc]
    rfl
  obtain ⟨first, hyields, hfirst, hfound⟩ := pass.yields layout link hback hend (by simp)
  have hline := hyields 0
  simp only [List.append_nil, List.tail_nil, occurrencesFrom_nil, List.filterMap_nil, List.nil_append,
    map_moveBy_zero, map_moveBy_map_moveBy] at hline
  refine ⟨first, later.map (moveBy ((link.text layout).length + [';'].length)), hline, ⟨hfirst, ?_⟩,
    hfound, by simpa using hresumes⟩
  intro p hp
  obtain ⟨q, hq, rfl⟩ := List.mem_map.1 hp
  refine ⟨?_, hplaces q hq⟩
  show _ ≤ (link.text layout).length + [';'].length + q.1
  omega

end Lines

theorem distinct_of_halves {place : Nat} {m m' : String}
    {bound bound' bare bare' again again' : List (Placed String)}
    (hbound : Halves place m m' bound bound') (hbare : Halves place m m' bare bare')
    (hagain : Halves place m m' again again') (shown shown' : Prop) [Decidable shown]
    [Decidable shown'] (hshown : bound ≠ [] ∨ bare ≠ [] ∨ again ≠ [] ↔ shown)
    (hshown' : bound' ≠ [] ∨ bare' ≠ [] ∨ again' ≠ [] ↔ shown') :
    distinct ((mergePlaced (mergePlaced (bound ++ bound') (bare ++ bare')) (again ++ again')).map
        Prod.snd) =
      distinct ((if shown then [m] else []) ++ if shown' then [m'] else []) := by
  obtain ⟨hmerged, himported⟩ := hbound.merge hbare
  obtain ⟨hmerged', hall⟩ := himported.merge hagain
  have hnonempty : ∀ first second third : List (Placed String),
      mergePlaced (mergePlaced first second) third ≠ [] ↔ first ≠ [] ∨ second ≠ [] ∨ third ≠ [] := by
    intro first second third
    rw [Ne, mergePlaced_eq_nil_iff, mergePlaced_eq_nil_iff, and_assoc, not_and_or, not_and_or]
  rw [hmerged, hmerged']
  exact hall.distinct shown shown' ((hnonempty _ _ _).trans hshown) ((hnonempty _ _ _).trans hshown')

namespace Link

/-- White space comes after the first word, or a specifier. -/
def Opens (layout : Layout) (link : Link) : Prop :=
  match link.form with
  | .sideEffect => True
  | .importing _ | .reExport _ => layout.keyword.text ≠ []

instance (layout : Layout) (link : Link) : Decidable (link.Opens layout) :=
  match link with
  | ⟨.sideEffect, _⟩ => inferInstanceAs (Decidable True)
  | ⟨.importing _, _⟩ | ⟨.reExport _, _⟩ => inferInstanceAs (Decidable (_ ≠ _))

/-- A declaration is seen on a line of its own. -/
def Shown (layout : Layout) (link : Link) : Prop := link.Opens layout ∨ link.Resumes layout

instance (layout : Layout) (link : Link) : Decidable (link.Shown layout) :=
  inferInstanceAs (Decidable (_ ∨ _))

/-- Some pass finds a declaration that opens in this way, and no pass another one. -/
theorem opens_iff (layout : Layout) (link : Link) : link.Opens layout ↔
    link.binding? layout ≠ none ∨ link.bare? ≠ none ∨ link.reExport? layout ≠ none := by
  obtain ⟨_ | _ | _, _⟩ := link
  · exact iff_of_true trivial (.inr (.inl (by simp [bare?])))
  · simp [Opens, binding?, bare?, reExport?, export?]
  · simp [Opens, binding?, bare?, reExport?, export?]

/-- The passes together, of which one sees the exception. -/
theorem shown_iff (layout : Layout) (link : Link) : link.Shown layout ↔
    (link.binding? layout ≠ none ∨ True ∧ link.Resumes layout) ∨
      (link.bare? ≠ none ∨ False ∧ link.Resumes layout) ∨
        (link.reExport? layout ≠ none ∨ False ∧ link.Resumes layout) := by
  rw [Shown, opens_iff, or_right_comm]
  simp only [true_and, false_and, or_false]

/-- Where a declaration leads to if it is seen. -/
def leads (link : Link) (seen : Prop) [Decidable seen] : List String :=
  if seen then [link.target.word] else []

end Link

section Sources

variable (layout layout' : Layout) (link link' : Link)

/-- The second declaration on the next line. -/
def apart : String := String.ofList (link.text layout ++ ';' :: '\n' :: link'.text layout')

/-- Both declarations on one line. -/
def together : String := String.ofList (link.text layout ++ ';' :: link'.text layout')

theorem blank_apart : blank (apart layout layout' link link').toList =
    link.text layout ++ ';' :: '\n' :: link'.text layout' := by
  have hfirst := blankFrom_line layout (link'.text layout') (.linking link)
  rw [apart, String.toList_ofList, blank]
  exact hfirst.trans (by rw [blankFrom_link_end]; rfl)

theorem blank_together : ∃ tail,
    blank (together layout layout' link link').toList = link.text layout ++ ';' :: tail ∧
      (('\n' ∉ link'.text layout' ∧ '\n' ∉ tail) ∨ tail = link'.text layout') := by
  obtain ⟨mode, hmode, heq⟩ := blankFrom_link layout (';' :: link'.text layout') link
  refine ⟨blankFrom mode (link'.text layout'), ?_, hmode.blankFrom_link layout layout' link'⟩
  rw [together, String.toList_ofList, blank, heq, hmode.blankFrom_semicolon]

theorem staticSpecifiers_apart : (outline (apart layout layout' link link')).staticSpecifiers =
    distinct (link.leads (link.Shown layout) ++ link'.leads (link'.Shown layout')) := by
  obtain ⟨bound, bound', hbound, hboundHalves, hboundFirst, hboundSecond⟩ :=
    linkPass_bindingImport.apart layout link layout' link'
  obtain ⟨bare, bare', hbare, hbareHalves, hbareFirst, hbareSecond⟩ :=
    linkPass_sideEffectImport.apart layout link layout' link'
  obtain ⟨again, again', hagain, hagainHalves, hagainFirst, hagainSecond⟩ :=
    linkPass_reExport.apart layout link layout' link'
  have hstatic := staticSpecifiers_outline (apart layout layout' link link')
  simp only [blank_apart, hbound, hbare, hagain] at hstatic
  rw [hstatic]
  refine distinct_of_halves hboundHalves hbareHalves hagainHalves _ _ ?_ ?_
  · rw [hboundFirst, hbareFirst, hagainFirst, link.shown_iff]
  · rw [hboundSecond, hbareSecond, hagainSecond, link'.shown_iff]

theorem staticSpecifiers_together : (outline (together layout layout' link link')).staticSpecifiers =
    distinct (link.leads (link.Shown layout) ++ link'.leads (link'.Resumes layout')) := by
  obtain ⟨tail, hblank, htail⟩ := blank_together layout layout' link link'
  obtain ⟨bound, bound', hbound, hboundHalves, hboundFirst, hboundSecond⟩ :=
    linkPass_bindingImport.together layout link layout' link' tail htail
  obtain ⟨bare, bare', hbare, hbareHalves, hbareFirst, hbareSecond⟩ :=
    linkPass_sideEffectImport.together layout link layout' link' tail htail
  obtain ⟨again, again', hagain, hagainHalves, hagainFirst, hagainSecond⟩ :=
    linkPass_reExport.together layout link layout' link' tail htail
  have hstatic := staticSpecifiers_outline (together layout layout' link link')
  simp only [hblank, hbound, hbare, hagain] at hstatic
  rw [hstatic]
  refine distinct_of_halves hboundHalves hbareHalves hagainHalves _ _ ?_ ?_
  · rw [hboundFirst, hbareFirst, hagainFirst, link.shown_iff]
  · rw [hboundSecond, hbareSecond, hagainSecond, true_and, false_and, or_false, or_false]

theorem distinct_singleton_eq_iff (m m' : String) : distinct [m] = distinct [m, m'] ↔ m = m' := by
  by_cases h : m = m'
  · simp [distinct, h]
  · simp [distinct, h, Ne.symm h]

/-- On lines of their own both are seen. On one line the second is lost, unless it leads
where the first does or goes on as an import on its next line. This exception apart, a
declaration without white space after its first word is not seen at all. -/
theorem staticSpecifiers_neighbours :
    (outline (apart layout layout' link link')).staticSpecifiers =
        distinct (link.leads (link.Shown layout) ++ link'.leads (link'.Shown layout')) ∧
      (outline (together layout layout' link link')).staticSpecifiers =
        distinct (link.leads (link.Shown layout) ++ link'.leads (link'.Resumes layout')) ∧
      ((outline (together layout layout' link link')).staticSpecifiers =
          (outline (apart layout layout' link link')).staticSpecifiers ↔
        (link'.Shown layout' →
          link'.Resumes layout' ∨ link.Shown layout ∧ link.target.word = link'.target.word)) := by
  have hapart := staticSpecifiers_apart layout layout' link link'
  have htogether := staticSpecifiers_together layout layout' link link'
  refine ⟨hapart, htogether, ?_⟩
  rw [hapart, htogether]
  by_cases hresumes : link'.Resumes layout'
  · have hshown' : link'.Shown layout' := .inr hresumes
    simp only [Link.leads, hresumes, hshown', if_true, true_or, imp_true_iff]
  by_cases hshown' : link'.Shown layout'
  · by_cases hshown : link.Shown layout
    · simp only [Link.leads, hresumes, hshown', hshown, if_true, if_false, forall_const, false_or,
        true_and, List.append_nil, List.singleton_append, distinct_singleton_eq_iff]
    · simp [Link.leads, hresumes, hshown', hshown, distinct]
  · simp only [Link.leads, hresumes, hshown', if_false, false_imp_iff]

end Sources

theorem second_on_line_lost :
    (outline "import 'a';import 'b';\n").staticSpecifiers = ["a"] ∧
      (outline "import 'a';\nimport 'b';\n").staticSpecifiers = ["a", "b"] := by
  constructor
  · cbv
  · cbv

end ModuleLoading.Source
