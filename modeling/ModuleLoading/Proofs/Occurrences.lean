import ModuleLoading.Proofs.Readings
import ModuleLoading.Source.Outline

/-!
Where a reading finds something in a text. What it finds at a place depends on the text
from there on and on whether something found before reaches over the place. Of a reading
that begins only where a line does, the finds can be put together text by text: a text in
which it begins nowhere is passed over, and a line yields what is found at its start.
-/
namespace ModuleLoading.Source

open Reading

variable {α β γ : Type}

section Line

variable (reading : Reading α) (offset : Nat)

theorem occurrencesFrom_nil (begins : Char → Bool) (previous : Char) (skip : Nat) :
    occurrencesFrom begins reading offset previous skip [] = [] := by
  rw [occurrencesFrom]

theorem occurrencesFrom_skip (begins : Char → Bool) (previous c : Char) (skip : Nat)
    (text : List Char) :
    occurrencesFrom begins reading offset previous (skip + 1) (c :: text) =
      occurrencesFrom begins reading (offset + 1) c skip text := by
  rw [occurrencesFrom]

theorem occurrencesFrom_found (begins : Char → Bool) (previous c : Char) (text rest : List Char)
    (a : α) (hbegins : begins previous = true) (h : reading.Finds (c :: text) a rest) :
    occurrencesFrom begins reading offset previous 0 (c :: text) =
      ⟨offset, a, rest⟩ ::
        occurrencesFrom begins reading (offset + 1) c (text.length - rest.length) text := by
  rw [occurrencesFrom, if_pos hbegins, show (reading (c :: text)).head? = some (a, rest) from h]

theorem occurrencesFrom_none (begins : Char → Bool) (previous c : Char) (text : List Char)
    (h : begins previous = true → reading (c :: text) = []) :
    occurrencesFrom begins reading offset previous 0 (c :: text) =
      occurrencesFrom begins reading (offset + 1) c 0 text := by
  by_cases hbegins : begins previous = true
  · rw [occurrencesFrom, if_pos hbegins, h hbegins]
    rfl
  · rw [occurrencesFrom, if_neg hbegins]

end Line

section Place

variable (begins : Char → Bool) (reading : Reading α)

/-- A text cut at a place. What was found before may reach into the rest. -/
theorem occurrencesFrom_append (offset : Nat) (previous : Char) (skip : Nat)
    (front text : List Char) :
    ∃ before skip',
      occurrencesFrom begins reading offset previous skip (front ++ text) =
        before ++ occurrencesFrom begins reading (offset + front.length)
          (front.getLast?.getD previous) skip' text ∧
      (∀ o ∈ before, o.offset < offset + front.length) ∧
      (0 < skip' ↔ front.length < skip ∨ ∃ o ∈ before, o.rest.length < text.length) := by
  induction front generalizing offset previous skip with
  | nil => exact ⟨[], skip, rfl, by simp, by simp⟩
  | cons c front ih =>
    have hlength : offset + (c :: front).length = offset + 1 + front.length := by
      rw [List.length_cons]
      omega
    rw [List.cons_append, hlength, List.getLast?_cons, Option.getD_some, List.length_cons]
    cases skip with
    | succ skip =>
      rw [occurrencesFrom_skip]
      simpa only [Nat.add_lt_add_iff_right] using ih (offset + 1) c skip
    | zero =>
      cases hfound : if begins previous then (reading (c :: (front ++ text))).head? else none with
      | none =>
        obtain ⟨before, skip', heq, hplace, hskip⟩ := ih (offset + 1) c 0
        refine ⟨before, skip', ?_, hplace, by simpa using hskip⟩
        rw [occurrencesFrom, hfound, ← heq]
      | some found =>
        obtain ⟨before, skip', heq, hplace, hskip⟩ :=
          ih (offset + 1) c ((front ++ text).length - found.2.length)
        refine ⟨⟨offset, found.1, found.2⟩ :: before, skip', ?_, ?_, ?_⟩
        · rw [occurrencesFrom, hfound, List.cons_append, ← heq]
        · refine List.forall_mem_cons.2 ⟨?_, hplace⟩
          show offset < offset + 1 + front.length
          omega
        · have hreach : front.length < (front ++ text).length - found.2.length ↔
              found.2.length < text.length := by
            rw [List.length_append]
            omega
          simp only [hskip, hreach, List.mem_cons, exists_eq_or_imp, Nat.not_lt_zero, false_or]

theorem le_offset_of_mem (offset : Nat) (previous : Char) (skip : Nat) (text : List Char)
    (o : Occurrence α) (h : o ∈ occurrencesFrom begins reading offset previous skip text) :
    offset + skip ≤ o.offset := by
  fun_induction occurrencesFrom begins reading offset previous skip text with
  | case1 => cases h
  | case2 offset previous c text skip ih =>
    have hle := ih h
    omega
  | case3 offset previous c text value rest _ ih =>
    rcases List.mem_cons.1 h with rfl | h
    · exact Nat.le_refl _
    · have hle := ih h
      omega
  | case4 offset previous c text _ ih =>
    have hle := ih h
    omega

theorem mem_occurrencesFrom (offset : Nat) (previous : Char) (skip : Nat) (whole : List Char)
    (o : Occurrence α) (h : o ∈ occurrencesFrom begins reading offset previous skip whole) :
    ∃ front text, whole = front ++ text ∧ text ≠ [] ∧ o.offset = offset + front.length ∧
      begins (front.getLast?.getD previous) = true ∧ reading.Finds text o.value o.rest := by
  -- what is found later lies behind one more character
  have hlater : ∀ (offset : Nat) (previous c : Char) (whole : List Char),
      (∃ front text, whole = front ++ text ∧ text ≠ [] ∧ o.offset = offset + 1 + front.length ∧
        begins (front.getLast?.getD c) = true ∧ reading.Finds text o.value o.rest) →
      ∃ front text, c :: whole = front ++ text ∧ text ≠ [] ∧ o.offset = offset + front.length ∧
        begins (front.getLast?.getD previous) = true ∧ reading.Finds text o.value o.rest := by
    rintro offset previous c whole ⟨front, text, rfl, hne, hoffset, hbegins, hfinds⟩
    refine ⟨c :: front, text, rfl, hne, ?_, ?_, hfinds⟩
    · rw [hoffset, List.length_cons]
      omega
    · rwa [List.getLast?_cons, Option.getD_some]
  fun_induction occurrencesFrom begins reading offset previous skip whole with
  | case1 => cases h
  | case2 offset previous c text skip ih => exact hlater _ _ _ _ (ih h)
  | case3 offset previous c text value rest hfound ih =>
    rcases List.mem_cons.1 h with rfl | h
    · by_cases hbegins : begins previous = true
      · rw [if_pos hbegins] at hfound
        exact ⟨[], c :: text, rfl, by simp, rfl, hbegins, hfound⟩
      · rw [if_neg hbegins] at hfound
        cases hfound
    · exact hlater _ _ _ _ (ih h)
  | case4 offset previous c text _ ih => exact hlater _ _ _ _ (ih h)

theorem filter_of_offset_ne (place : Nat) (list : List (Occurrence α))
    (h : ∀ o ∈ list, o.offset ≠ place) : list.filter (·.offset = place) = [] := by
  rw [List.filter_eq_nil_iff]
  intro o ho
  simpa only [decide_eq_true_eq] using h o ho

/-- An occurrence takes up a place of its text behind its own. -/
def Occurrence.Covers (o : Occurrence α) (text : List Char) (place : Nat) : Prop :=
  o.offset < place ∧ place + o.rest.length < text.length

/-- What is found at a place depends on the text from there on, unless something found
before takes up the place. -/
theorem filter_occurrences (front text : List Char) (hne : text ≠ []) :
    ((∃ o ∈ occurrences begins reading (front ++ text), o.Covers (front ++ text) front.length) →
      (occurrences begins reading (front ++ text)).filter (·.offset = front.length) = []) ∧
    ((¬∃ o ∈ occurrences begins reading (front ++ text), o.Covers (front ++ text) front.length) →
      (occurrences begins reading (front ++ text)).filter (·.offset = front.length) =
        ((if begins (front.getLast?.getD '\n') then (reading text).head? else none).map
          fun found => ⟨front.length, found.1, found.2⟩).toList) := by
  obtain ⟨before, skip, heq, hplace, hskip⟩ :=
    occurrencesFrom_append begins reading 0 '\n' 0 front text
  simp only [Nat.zero_add, Nat.not_lt_zero, false_or] at heq hplace hskip
  rw [occurrences, heq]
  have hafter : ∀ o ∈ occurrencesFrom begins reading front.length (front.getLast?.getD '\n') skip text,
      front.length + skip ≤ o.offset := le_offset_of_mem begins reading _ _ _ _
  have hcovered : (∃ o ∈ before ++
        occurrencesFrom begins reading front.length (front.getLast?.getD '\n') skip text,
      o.Covers (front ++ text) front.length) ↔ 0 < skip := by
    rw [hskip]
    constructor
    · rintro ⟨o, ho, hlt, hreach⟩
      rw [List.length_append] at hreach
      rcases List.mem_append.1 ho with ho | ho
      · exact ⟨o, ho, by omega⟩
      · have hle := hafter o ho
        omega
    · rintro ⟨o, ho, hreach⟩
      refine ⟨o, List.mem_append_left _ ho, hplace o ho, ?_⟩
      rw [List.length_append]
      omega
  have hbefore : before.filter (·.offset = front.length) = [] :=
    filter_of_offset_ne _ _ fun o ho => Nat.ne_of_lt (hplace o ho)
  rw [hcovered, List.filter_append, hbefore, List.nil_append]
  refine ⟨fun hpos => ?_, fun hzero => ?_⟩
  · refine filter_of_offset_ne _ _ fun o ho => ?_
    have hle := hafter o ho
    omega
  · have hzero : skip = 0 := by omega
    subst hzero
    cases text with
    | nil => exact absurd rfl hne
    | cons c text =>
      have hlater : ∀ previous skip, (occurrencesFrom begins reading (front.length + 1) previous skip
          text).filter (·.offset = front.length) = [] := by
        intro previous skip
        refine filter_of_offset_ne _ _ fun o ho => ?_
        have hle := le_offset_of_mem begins reading _ _ _ _ o ho
        omega
      cases hfound : if begins (front.getLast?.getD '\n') then (reading (c :: text)).head? else none with
      | none =>
        rw [occurrencesFrom, hfound]
        exact hlater c 0
      | some found =>
        rw [occurrencesFrom, hfound]
        exact (List.filter_cons_of_pos (by simp)).trans (congrArg _ (hlater c _))

/-- Nothing else is found at the place of an occurrence. -/
theorem filter_occurrences_of_mem (whole : List Char) (o : Occurrence α)
    (ho : o ∈ occurrences begins reading whole) :
    (occurrences begins reading whole).filter (·.offset = o.offset) = [o] := by
  obtain ⟨front, text, rfl, hne, hoffset, hbegins, hfinds⟩ :=
    mem_occurrencesFrom begins reading 0 '\n' 0 whole o ho
  rw [Nat.zero_add] at hoffset
  have hmem : o ∈ (occurrences begins reading (front ++ text)).filter (·.offset = o.offset) :=
    List.mem_filter.2 ⟨ho, by simp⟩
  obtain ⟨hcovered, hfree⟩ := filter_occurrences begins reading front text hne
  rw [← hoffset] at hcovered hfree
  by_cases h : ∃ o' ∈ occurrences begins reading (front ++ text), o'.Covers (front ++ text) o.offset
  · rw [hcovered h] at hmem
    cases hmem
  · rw [hfree h, if_pos hbegins, show (reading text).head? = _ from hfinds]
    rfl

end Place

/-- Everything that is found counts. -/
def placeFound (found : Occurrence α) : Option (Placed α) := some (found.offset, found.value)

theorem placed_eq_filterMap (reading : Reading α) (text : List Char) :
    placed reading text = (occurrences atLineStart reading text).filterMap placeFound := by
  rw [placed, ← List.filterMap_eq_map]
  rfl

/-- A thing at a place that is counted from farther on. -/
def moveBy (n : Nat) (p : Placed γ) : Placed γ := (n + p.1, p.2)

theorem map_moveBy_zero (list : List (Placed γ)) : list.map (moveBy 0) = list := by
  have hzero : ∀ p ∈ list, moveBy 0 p = id p := fun p _ => Prod.ext (Nat.zero_add p.1) rfl
  rw [List.map_congr_left hzero, List.map_id]

theorem map_moveBy_map_moveBy (m n : Nat) (list : List (Placed γ)) :
    (list.map (moveBy n)).map (moveBy m) = list.map (moveBy (m + n)) := by
  rw [List.map_map]
  refine List.map_congr_left fun p _ => ?_
  rw [Function.comp, moveBy, moveBy, moveBy, Nat.add_assoc]

/-- A reading that sees the rest too begins at no line start within a text. -/
def Silent (reading : Reading α) (text rest : List Char) : Prop :=
  ∀ front back, text = front ++ '\n' :: back → reading (back ++ rest) = []

/-- What occurrences in a text are worth, with their places in it, if none begins right
at its start and the text goes on with `rest`. -/
def Passes (reading : Reading α) (keep : Occurrence α → Option (Placed γ)) (text rest : List Char)
    (found : List (Placed γ)) : Prop :=
  ∀ offset previous, (previous = '\n' → text ≠ [] → reading (text ++ rest) = []) →
    (occurrencesFrom atLineStart reading offset previous 0 (text ++ rest)).filterMap keep =
      found.map (moveBy offset) ++
        (occurrencesFrom atLineStart reading (offset + text.length) (text.getLast?.getD previous) 0
          rest).filterMap keep

section Passes

variable {reading : Reading α} {keep : Occurrence α → Option (Placed γ)} {text rest : List Char}

theorem silent_of_notMem (h : '\n' ∉ text) : Silent reading text rest := by
  rintro front back rfl
  exact absurd (List.mem_append_right front List.mem_cons_self) h

theorem Silent.append {first second : List Char} (hfirst : Silent reading first (second ++ rest))
    (hsecond : Silent reading second rest) : Silent reading (first ++ second) rest := by
  intro front back heq
  rcases List.append_eq_append_iff.1 heq with ⟨middle, hfront, hback⟩ | ⟨middle, hfront, hback⟩
  · exact hsecond middle back hback
  · cases middle with
    | nil => exact hsecond [] back hback.symm
    | cons c middle =>
      rw [List.cons_append] at hback
      obtain ⟨rfl, rfl⟩ := List.cons.inj hback
      have hnone := hfirst front middle hfront
      rwa [← List.append_assoc] at hnone

theorem Silent.tail {c : Char} (h : Silent reading (c :: text) rest) : Silent reading text rest := by
  intro front back heq
  exact h (c :: front) back (by rw [heq, List.cons_append])

theorem occurrencesFrom_silent (h : Silent reading text rest) (offset : Nat) (previous : Char)
    (hstart : previous = '\n' → text ≠ [] → reading (text ++ rest) = []) :
    occurrencesFrom atLineStart reading offset previous 0 (text ++ rest) =
      occurrencesFrom atLineStart reading (offset + text.length) (text.getLast?.getD previous) 0
        rest := by
  induction text generalizing offset previous with
  | nil => rfl
  | cons c text ih =>
    have hlength : offset + (c :: text).length = offset + 1 + text.length := by
      rw [List.length_cons]
      omega
    have hnext : c = '\n' → text ≠ [] → reading (text ++ rest) = [] := by
      rintro rfl -
      exact h [] text rfl
    rw [hlength, List.getLast?_cons, Option.getD_some, List.cons_append, occurrencesFrom_none]
    · exact ih h.tail (offset + 1) c hnext
    · intro hbegins
      exact hstart (beq_iff_eq.1 hbegins) (by simp)

theorem Silent.passes (h : Silent reading text rest) : Passes reading keep text rest [] := by
  intro offset previous hstart
  rw [occurrencesFrom_silent h offset previous hstart]
  rfl

theorem Passes.append {first second : List Char} {found later : List (Placed γ)}
    (hlast : ∃ c ∈ first.getLast?, c ≠ '\n') (hfirst : Passes reading keep first (second ++ rest) found)
    (hsecond : Passes reading keep second rest later) :
    Passes reading keep (first ++ second) rest (found ++ later.map (moveBy first.length)) := by
  intro offset previous hstart
  obtain ⟨last, hlast, hne⟩ := hlast
  have hend : (first ++ second).getLast?.getD previous = second.getLast?.getD last := by
    rw [List.getLast?_append, Option.getD_or, hlast, Option.getD_some]
  have hbegins : previous = '\n' → first ≠ [] → reading (first ++ (second ++ rest)) = [] := by
    intro hprevious hfirst
    rw [← List.append_assoc]
    exact hstart hprevious (by simp [hfirst])
  rw [List.append_assoc, hfirst offset previous hbegins, hlast, Option.getD_some,
    hsecond _ last fun h => absurd h hne, hend, List.map_append, map_moveBy_map_moveBy,
    List.append_assoc, List.length_append, Nat.add_assoc]

/-- A text that belongs to the occurrence before. -/
theorem occurrencesFrom_skipped (begins : Char → Bool) (reading : Reading α) (offset : Nat)
    (previous : Char) (text rest : List Char) :
    occurrencesFrom begins reading offset previous text.length (text ++ rest) =
      occurrencesFrom begins reading (offset + text.length) (text.getLast?.getD previous) 0 rest := by
  induction text generalizing offset previous with
  | nil => rfl
  | cons c text ih =>
    have hlength : offset + (c :: text).length = offset + 1 + text.length := by
      rw [List.length_cons]
      omega
    rw [hlength, List.getLast?_cons, Option.getD_some, List.cons_append, List.length_cons,
      occurrencesFrom_skip, ih]

/-- Something is found at the start of a line and is gone over. -/
theorem filterMap_occurrencesFrom_found {front : List Char} (hfront : front ≠ []) {a : α}
    {found : Option γ} (h : reading.Finds (front ++ rest) a rest)
    (hkeep : ∀ offset, keep ⟨offset, a, rest⟩ = found.map (offset, ·)) (offset : Nat) (previous : Char) :
    (occurrencesFrom atLineStart reading offset '\n' 0 (front ++ rest)).filterMap keep =
      (found.map (offset, ·)).toList ++
        (occurrencesFrom atLineStart reading (offset + front.length) (front.getLast?.getD previous) 0
          rest).filterMap keep := by
  cases front with
  | nil => exact absurd rfl hfront
  | cons c front =>
    have hfinds : reading.Finds (c :: (front ++ rest)) a rest := h
    have hskip : (front ++ rest).length - rest.length = front.length := by
      rw [List.length_append]
      omega
    have hlength : offset + (c :: front).length = offset + 1 + front.length := by
      rw [List.length_cons]
      omega
    rw [List.cons_append, occurrencesFrom_found reading offset atLineStart '\n' c _ _ a rfl hfinds,
      hskip, occurrencesFrom_skipped, List.filterMap_cons, hkeep, hlength, List.getLast?_cons,
      Option.getD_some]
    cases found with
    | none => rfl
    | some found => rfl

/-- The last line of a text is found as a whole. -/
theorem Silent.passes_found {front back : List Char} (hback : back ≠ [])
    (hsilent : Silent reading front ('\n' :: (back ++ rest)))
    (hnone : reading ('\n' :: (back ++ rest)) = []) {a : α} {found : Option γ}
    (h : reading.Finds (back ++ rest) a rest)
    (hkeep : ∀ offset, keep ⟨offset, a, rest⟩ = found.map (offset, ·)) :
    Passes reading keep (front ++ '\n' :: back) rest
      (found.map (front.length + 1, ·)).toList := by
  intro offset previous hstart
  have hbegins : previous = '\n' → front ≠ [] → reading (front ++ '\n' :: (back ++ rest)) = [] := by
    intro hprevious _
    have hnone := hstart hprevious (by simp)
    rwa [List.append_assoc] at hnone
  have hlength : offset + (front ++ '\n' :: back).length = offset + front.length + 1 + back.length := by
    rw [List.length_append, List.length_cons]
    omega
  have hlast : (front ++ '\n' :: back).getLast?.getD previous = back.getLast?.getD '\n' := by
    rw [List.getLast?_append, Option.getD_or, List.getLast?_cons, Option.getD_some]
  rw [List.append_assoc, List.cons_append, occurrencesFrom_silent hsilent offset previous hbegins,
    occurrencesFrom_none _ _ _ _ _ _ fun _ => hnone,
    filterMap_occurrencesFrom_found hback h hkeep _ '\n', hlength, hlast]
  cases found with
  | none => rfl
  | some found => rfl

end Passes

/-- What occurrences in a line are worth, with their places in it, if the text goes on with
`rest`. -/
def Yields (reading : Reading α) (keep : Occurrence α → Option (Placed γ)) (line rest : List Char)
    (found : List (Placed γ)) : Prop :=
  ∀ offset, (occurrencesFrom atLineStart reading offset '\n' 0 (line ++ rest)).filterMap keep =
    found.map (moveBy offset) ++
      (occurrencesFrom atLineStart reading (offset + line.length + 1) '\n' 0 rest.tail).filterMap keep

section Yields

variable {reading : Reading α} {keep : Occurrence α → Option (Placed γ)} {line rest : List Char}

/-- After the end of a line the next one begins. -/
theorem occurrencesFrom_lineEnd (offset : Nat) (previous : Char) (hprevious : previous ≠ '\n')
    (hrest : ∀ c ∈ rest.head?, c = '\n') :
    occurrencesFrom atLineStart reading offset previous 0 rest =
      occurrencesFrom atLineStart reading (offset + 1) '\n' 0 rest.tail := by
  cases rest with
  | nil => rw [occurrencesFrom_nil, List.tail_nil, occurrencesFrom_nil]
  | cons c rest =>
    rw [occurrencesFrom_none, hrest c rfl, List.tail_cons]
    intro hbegins
    exact absurd (beq_iff_eq.1 hbegins) hprevious

theorem Passes.yields {found : List (Placed γ)} (h : Passes reading keep line rest found)
    (hnone : reading (line ++ rest) = []) (hlast : ∃ c ∈ line.getLast?, c ≠ '\n')
    (hrest : ∀ c ∈ rest.head?, c = '\n') : Yields reading keep line rest found := by
  intro offset
  obtain ⟨last, hlast, hne⟩ := hlast
  rw [h offset '\n' fun _ _ => hnone, hlast, Option.getD_some, occurrencesFrom_lineEnd _ last hne hrest]

/-- Something is found at the start of the line. -/
theorem Passes.yields_first {front back : List Char} {later : List (Placed γ)}
    (h : Passes reading keep back rest later) (hfront : ∃ c ∈ front.getLast?, c ≠ '\n')
    (hlast : ∃ c ∈ (front ++ back).getLast?, c ≠ '\n') (hrest : ∀ c ∈ rest.head?, c = '\n') {a : α}
    {found : Option γ} (hfinds : reading.Finds (front ++ (back ++ rest)) a (back ++ rest))
    (hkeep : ∀ offset, keep ⟨offset, a, back ++ rest⟩ = found.map (offset, ·)) :
    Yields reading keep (front ++ back) rest
      ((found.map (0, ·)).toList ++ later.map (moveBy front.length)) := by
  intro offset
  obtain ⟨last, hlast, hne⟩ := hlast
  obtain ⟨before, hbefore, hbeforeNe⟩ := hfront
  have hnil : front ≠ [] := by
    rintro rfl
    cases hbefore
  have hend : back.getLast?.getD before = last := by
    rw [List.getLast?_append, hbefore, Option.or_some] at hlast
    exact Option.some.inj hlast
  have hlength : offset + front.length + back.length + 1 = offset + (front ++ back).length + 1 := by
    rw [List.length_append, Nat.add_assoc offset]
  rw [List.append_assoc, filterMap_occurrencesFrom_found hnil hfinds hkeep offset before, hbefore,
    Option.getD_some, h _ before fun heq => absurd heq hbeforeNe, hend,
    occurrencesFrom_lineEnd _ last hne hrest, hlength, List.map_append, map_moveBy_map_moveBy,
    List.append_assoc]
  cases found with
  | none => rfl
  | some found => rfl

end Yields

end ModuleLoading.Source
