import Mathlib
import ModuleLoading.Proofs.DeclarationReadings
import ModuleLoading.Proofs.Occurrences

/-!
What is recorded of a list in an export. Two passes read it: one takes it for a
re-export, the other for a local export unless "from" comes after it. What they make of
it is one record, but the second pass looks at these four letters only, and the first one
does not begin within something that it has found before, so that a list can be left out
by both.
-/
namespace ModuleLoading.Source

open Reading

/-- The two passes begin in the same way. -/
theorem exports_begin (text : List Char) :
    (localExport text = [] ∧ reExport text = []) ∨
      ∃ after, localExport text = afterLocal after ∧ reExport text = afterReExport after := by
  have hindent : indentation text = [(text.takeWhile fun c => c == ' ' || c == '\t',
      text.dropWhile fun c => c == ' ' || c == '\t')] := rfl
  rw [localExport, reExport, bind_of_eq hindent, bind_of_eq hindent]
  generalize text.dropWhile (fun c => c == ' ' || c == '\t') = start
  rcases exactly_cases "export".toList start with hnone | ⟨middle, -, hsome⟩
  · exact .inl ⟨bind_of_fails hnone, bind_of_fails hnone⟩
  · have hword : word "export" start = [((), middle)] := hsome
    rw [bind_of_eq hword, bind_of_eq hword]
    by_cases hblank : middle.takeWhile Text.isBlank = []
    · have hnone : someBlanks middle = [] := if_pos hblank
      exact .inl ⟨bind_of_fails hnone, bind_of_fails hnone⟩
    · have hsome : someBlanks middle =
          [(middle.takeWhile Text.isBlank, middle.dropWhile Text.isBlank)] := if_neg hblank
      exact .inr ⟨_, bind_of_eq hsome, bind_of_eq hsome⟩

theorem mem_bind {α β : Type} {first : Reading α} {next : α → Reading β} {text : List Char}
    {found : β × List Char} :
    found ∈ (first >>= next) text ↔ ∃ a ∈ first text, found ∈ next a.1 a.2 :=
  List.mem_flatMap

/-- There is one way to read a list at most. -/
theorem braced_of_mem {text items rest : List Char} (h : (items, rest) ∈ braced text) :
    ∃ tail, text = '\x7b' :: tail ∧ braced text = [(items, rest)] := by
  rcases exactly_cases ['\x7b'] text with hnone | ⟨tail, rfl, hsome⟩
  · have hword : word "\x7b" text = [] := hnone
    rw [braced, bind_of_fails hword] at h
    cases h
  · refine ⟨tail, rfl, ?_⟩
    have hopen : word "\x7b" (['\x7b'] ++ tail) = [((), tail)] := hsome
    have hrun : run (· != '\x7d') tail =
        [(tail.takeWhile (· != '\x7d'), tail.dropWhile (· != '\x7d'))] := rfl
    rw [braced, bind_of_eq hopen, bind_of_eq hrun] at h ⊢
    rcases exactly_cases ['\x7d'] (tail.dropWhile (· != '\x7d')) with hnone | ⟨after, -, hsome⟩
    · have hclose : word "\x7d" (tail.dropWhile (· != '\x7d')) = [] := hnone
      rw [bind_of_fails hclose] at h
      cases h
    · have hclose : word "\x7d" (tail.dropWhile (· != '\x7d')) = [((), after)] := hsome
      rw [bind_of_eq hclose] at h ⊢
      rw [List.mem_singleton.1 h]
      rfl

theorem braced_of_afterLocal {text items rest : List Char}
    (h : (.list items, rest) ∈ afterLocal text) :
    ∃ tail, text = '\x7b' :: tail ∧ braced text = [(items, rest)] := by
  have hnamed : ∀ keyword, (.list items, rest) ∉ named keyword text := by
    intro keyword hmem
    obtain ⟨_, _, hmem⟩ := mem_bind.1 hmem
    obtain ⟨_, _, hmem⟩ := mem_bind.1 hmem
    cases List.mem_singleton.1 hmem
  have hdefault : (.list items, rest) ∉ defaultExport text := by
    intro hmem
    obtain ⟨_, _, hmem⟩ := mem_bind.1 hmem
    obtain ⟨_, _, hmem⟩ := mem_bind.1 hmem
    cases List.mem_singleton.1 hmem
  simp only [afterLocal, either, List.mem_append, hdefault, hnamed, false_or] at h
  obtain ⟨found, hfound, heq⟩ := mem_bind.1 h
  cases List.mem_singleton.1 heq
  exact braced_of_mem hfound

/-- A list that is found as a local export is a re-export exactly if a specifier follows. -/
theorem reExport_of_list {text items rest : List Char}
    (h : localExport.Finds text (.list items) rest) :
    reExport text =
      (fromClause rest).map fun found => (⟨exportedList items, some found.1⟩, found.2) := by
  have hmem : (.list items, rest) ∈ localExport text := List.mem_of_head? h
  rcases exports_begin text with ⟨hnone, -⟩ | ⟨after, hlocal, hreExport⟩
  · rw [hnone] at hmem
    cases hmem
  · rw [hlocal] at hmem
    obtain ⟨tail, rfl, hbraced⟩ := braced_of_afterLocal hmem
    rw [hreExport, afterReExport_braced hbraced]

theorem fromClause_of_not_next {rest : List Char} (h : isFromNext rest = false) :
    fromClause rest = [] := by
  have hblanks : blanks rest = [(rest.takeWhile Text.isBlank, rest.dropWhile Text.isBlank)] := rfl
  rw [fromClause, bind_of_eq hblanks]
  rcases exactly_cases "from".toList (rest.dropWhile Text.isBlank) with hnone | ⟨tail, htail, -⟩
  · exact bind_of_fails hnone
  · rw [isFromNext, htail, List.isPrefixOf_iff_prefix.2 ⟨tail, rfl⟩] at h
    cases h

def Outline.exportsAt (outline : Outline) (place : Nat) : List ExportDeclaration :=
  (outline.exports.filter (·.1 = place)).map Prod.snd

/-- What a list is meant for, by what follows it. -/
def listedExport (items rest : List Char) : ExportDeclaration :=
  ⟨exportedList items, (fromClause rest).head?.map Prod.fst⟩

/-- A list is left out if "from" follows, without a specifier behind it or within
something that has been found as a re-export before. -/
def Dropped (text : List Char) (o : Occurrence LocalExport) : Prop :=
  isFromNext o.rest = true ∧
    (fromClause o.rest = [] ∨ ∃ r ∈ occurrences atLineStart reExport text, r.Covers text o.offset)

theorem localExported_place {o : Occurrence LocalExport} {p : Placed ExportDeclaration}
    (h : localExported o = some p) : p.1 = o.offset := by
  unfold localExported at h
  split at h
  · cases h
    rfl
  · cases h
    rfl
  · split at h
    · cases h
    · cases h
      rfl

theorem exportsAt_perm (source : String) (place : Nat) :
    let text := blank source.toList
    ((outline source).exportsAt place).Perm
      (((occurrences atLineStart reExport text).filter (·.offset = place)).map Occurrence.value ++
        (((occurrences atLineStart localExport text).filter (·.offset = place)).filterMap
          localExported).map Prod.snd) := by
  intro text
  have hreExport : ((placed reExport text).filter (·.1 = place)).map Prod.snd =
      ((occurrences atLineStart reExport text).filter (·.offset = place)).map Occurrence.value := by
    rw [placed, List.filter_map, List.map_map]
    rfl
  have hlocal : ∀ list : List (Occurrence LocalExport),
      (list.filterMap localExported).filter (·.1 = place) =
        (list.filter (·.offset = place)).filterMap localExported := by
    intro list
    induction list with
    | nil => rfl
    | cons o rest ih =>
      cases ho : localExported o with
      | none =>
        by_cases hplace : o.offset = place
        · simp [ho, hplace, ih]
        · simp [ho, hplace, ih]
      | some p =>
        by_cases hplace : o.offset = place
        · simp [ho, hplace, localExported_place ho, ih]
        · simp [ho, hplace, localExported_place ho, ih]
  rw [← hreExport, ← hlocal, ← List.map_append, ← List.filter_append]
  exact ((List.merge_perm_append _).filter _).map _

section List

variable {text : List Char} {o : Occurrence LocalExport} {items : List Char}

theorem localExported_list (hitems : o.value = .list items) : localExported o =
    if isFromNext o.rest then none else some (o.offset, ⟨exportedList items, none⟩) := by
  rw [localExported, hitems]

/-- The re-exports that are found where a list is. -/
theorem reExports_at_list (ho : o ∈ occurrences atLineStart localExport text)
    (hitems : o.value = .list items) :
    ((∃ r ∈ occurrences atLineStart reExport text, r.Covers text o.offset) →
      ((occurrences atLineStart reExport text).filter (·.offset = o.offset)).map Occurrence.value = []) ∧
    ((¬∃ r ∈ occurrences atLineStart reExport text, r.Covers text o.offset) →
      ((occurrences atLineStart reExport text).filter (·.offset = o.offset)).map Occurrence.value =
        ((fromClause o.rest).head?.map fun found => ⟨exportedList items, some found.1⟩).toList) := by
  obtain ⟨front, suffix, rfl, hne, hoffset, hbegins, hfinds⟩ :=
    mem_occurrencesFrom atLineStart localExport 0 '\n' 0 text o ho
  rw [Nat.zero_add] at hoffset
  have hreading := reExport_of_list (hitems ▸ hfinds)
  obtain ⟨hcovered, hfree⟩ := filter_occurrences atLineStart reExport front suffix hne
  rw [← hoffset] at hcovered hfree
  refine ⟨fun h => ?_, fun h => ?_⟩
  · rw [hcovered h, List.map_nil]
  · rw [hfree h, if_pos hbegins, hreading, List.head?_map]
    cases (fromClause o.rest).head? with
    | none => rfl
    | some found => rfl

theorem not_dropped_of_not_next (hnext : isFromNext o.rest = false) : ¬Dropped text o := by
  rintro ⟨htrue, -⟩
  rw [hnext] at htrue
  cases htrue

end List

/-- A list is recorded once, as what it is meant for, unless it is left out. -/
theorem exportsAt_list (source : String) (o : Occurrence LocalExport) (items : List Char)
    (ho : o ∈ occurrences atLineStart localExport (blank source.toList))
    (hitems : o.value = .list items) :
    (Dropped (blank source.toList) o → (outline source).exportsAt o.offset = []) ∧
      (¬Dropped (blank source.toList) o →
        (outline source).exportsAt o.offset = [listedExport items o.rest]) := by
  have hperm := exportsAt_perm source o.offset
  obtain ⟨hcovered, hfree⟩ := reExports_at_list ho hitems
  simp only [filter_occurrences_of_mem atLineStart localExport _ o ho, List.filterMap_cons,
    localExported_list hitems] at hperm
  cases hnext : isFromNext o.rest with
  | false =>
    have hclause := fromClause_of_not_next hnext
    rw [hclause] at hfree
    have hlisted : listedExport items o.rest = ⟨exportedList items, none⟩ := by
      rw [listedExport, hclause]
      rfl
    refine ⟨fun h => absurd h (not_dropped_of_not_next hnext), fun _ => ?_⟩
    rw [hnext] at hperm
    rw [hlisted]
    by_cases hreach : ∃ r ∈ occurrences atLineStart reExport (blank source.toList),
        r.Covers (blank source.toList) o.offset
    · rw [hcovered hreach] at hperm
      exact hperm.eq_singleton
    · rw [hfree hreach] at hperm
      exact hperm.eq_singleton
  | true =>
    rw [hnext, if_pos rfl, List.filterMap_nil, List.map_nil, List.append_nil] at hperm
    by_cases hreach : ∃ r ∈ occurrences atLineStart reExport (blank source.toList),
        r.Covers (blank source.toList) o.offset
    · rw [hcovered hreach] at hperm
      exact ⟨fun _ => hperm.eq_nil, fun hnot => absurd ⟨hnext, .inr hreach⟩ hnot⟩
    · rw [hfree hreach] at hperm
      unfold listedExport Dropped
      cases hclause : fromClause o.rest with
      | nil =>
        rw [hclause] at hperm
        exact ⟨fun _ => hperm.eq_nil, fun hnot => absurd ⟨hnext, .inl rfl⟩ hnot⟩
      | cons found others =>
        rw [hclause] at hperm
        refine ⟨?_, fun _ => hperm.eq_singleton⟩
        rintro ⟨-, hnil | h⟩
        · cases hnil
        · exact absurd h hreach

theorem exportsAt_list_sample :
    let source := "export { a };\n"
    (∃ o ∈ occurrences atLineStart localExport (blank source.toList),
      o.offset = 0 ∧ o.value = .list " a ".toList) ∧
    (outline source).exportsAt 0 = [⟨[.named "a" none], none⟩] := by
  intro source
  have hfound : occurrences atLineStart localExport (blank source.toList) =
      [⟨0, .list " a ".toList, ";\n".toList⟩] := by
    cbv
  have hmem : ⟨0, .list " a ".toList, ";\n".toList⟩ ∈
      occurrences atLineStart localExport (blank source.toList) := by
    rw [hfound]
    exact List.mem_singleton_self _
  refine ⟨⟨_, hmem, rfl, rfl⟩, ?_⟩
  have hlisted : listedExport " a ".toList ";\n".toList = ⟨[.named "a" none], none⟩ := by cbv
  rw [← hlisted]
  exact (exportsAt_list source _ " a ".toList hmem rfl).2 (not_dropped_of_not_next rfl)

/-- A statement that begins with the four letters is enough to leave a list out. -/
theorem exportsAt_before_statement :
    let source := "export { a }\nfromage();\n"
    (∃ o ∈ occurrences atLineStart localExport (blank source.toList),
      o.offset = 0 ∧ o.value = .list " a ".toList ∧ fromClause o.rest = []) ∧
    (outline source).exportsAt 0 = [] := by
  intro source
  have hfound : occurrences atLineStart localExport (blank source.toList) =
      [⟨0, .list " a ".toList, "\nfromage();\n".toList⟩] := by
    cbv
  refine ⟨⟨_, by rw [hfound]; exact List.mem_singleton_self _, rfl, rfl, ?_⟩, ?_⟩
  · cbv
  · cbv

end ModuleLoading.Source
