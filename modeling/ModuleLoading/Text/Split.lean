/-!
A list cut at every occurrence of a separator, and the pieces put together
again. There is always one piece more than there are separators, so an empty
list is one empty piece.
-/
namespace ModuleLoading.Text

variable {α : Type} [DecidableEq α]

def split (sep : α) : List α → List (List α)
  | [] => [[]]
  | a :: rest =>
    if a = sep then [] :: split sep rest
    else match split sep rest with
      | [] => [[a]]
      | piece :: pieces => (a :: piece) :: pieces

def join (sep : α) : List (List α) → List α
  | [] => []
  | [piece] => piece
  | piece :: pieces => piece ++ sep :: join sep pieces

theorem split_ne_nil (sep : α) (list : List α) : split sep list ≠ [] := by
  cases list with
  | nil => simp [split]
  | cons a rest =>
    unfold split
    split
    · simp
    · split <;> simp

theorem join_split (sep : α) (list : List α) : join sep (split sep list) = list := by
  induction list with
  | nil => rfl
  | cons a rest ih =>
    have hne := split_ne_nil sep rest
    unfold split
    split
    · next h =>
      cases hs : split sep rest with
      | nil => exact absurd hs hne
      | cons piece pieces => simp [join, ← hs, ih, h]
    · cases hs : split sep rest with
      | nil => exact absurd hs hne
      | cons piece pieces =>
        rw [hs] at ih
        cases pieces <;> simp_all [join]

theorem split_cons_cases (sep a : α) (rest : List α) :
    (a = sep ∧ split sep (a :: rest) = [] :: split sep rest) ∨
      (a ≠ sep ∧ ∃ piece pieces, split sep rest = piece :: pieces ∧
        split sep (a :: rest) = (a :: piece) :: pieces) := by
  by_cases ha : a = sep
  · exact .inl ⟨ha, by simp [split, ha]⟩
  · cases hsplit : split sep rest with
    | nil => exact absurd hsplit (split_ne_nil sep rest)
    | cons piece pieces => exact .inr ⟨ha, piece, pieces, rfl, by simp [split, ha, hsplit]⟩

theorem notMem_of_mem_split (sep : α) (list piece : List α) (h : piece ∈ split sep list) :
    sep ∉ piece := by
  induction list generalizing piece with
  | nil => simp_all [split]
  | cons a rest ih =>
    rcases split_cons_cases sep a rest with ⟨_, heq⟩ | ⟨ha, first, pieces, hsplit, heq⟩
    · rcases List.mem_cons.1 (heq ▸ h) with h | h
      · simp [h]
      · exact ih piece h
    · rw [hsplit] at ih
      rcases List.mem_cons.1 (heq ▸ h) with h | h
      · have hfirst : sep ∉ first := ih first List.mem_cons_self
        simp only [h, List.mem_cons, not_or]
        exact ⟨Ne.symm ha, hfirst⟩
      · exact ih piece (List.mem_cons_of_mem _ h)

omit [DecidableEq α] in
theorem mem_join_of_mem (sep a : α) (pieces : List (List α)) (piece : List α)
    (h : piece ∈ pieces) (ha : a ∈ piece) : a ∈ join sep pieces := by
  induction pieces with
  | nil => cases h
  | cons first rest ih =>
    cases rest with
    | nil => exact List.mem_singleton.1 h ▸ ha
    | cons next rest =>
      rcases List.mem_cons.1 h with h | h
      · exact List.mem_append_left _ (h ▸ ha)
      · exact List.mem_append_right _ (List.mem_cons_of_mem _ (ih h))

theorem mem_of_mem_split (sep a : α) (list piece : List α) (h : piece ∈ split sep list)
    (ha : a ∈ piece) : a ∈ list :=
  join_split sep list ▸ mem_join_of_mem sep a (split sep list) piece h ha

theorem split_of_notMem (sep : α) (piece : List α) (h : sep ∉ piece) :
    split sep piece = [piece] := by
  induction piece with
  | nil => rfl
  | cons a rest ih =>
    have ha : a ≠ sep := fun heq => h (heq ▸ List.mem_cons_self)
    have hrest := ih fun hmem => h (List.mem_cons_of_mem _ hmem)
    simp [split, ha, hrest]

theorem split_append_sep (sep : α) (left right : List α) :
    split sep (left ++ sep :: right) = split sep left ++ split sep right := by
  induction left with
  | nil => simp [split]
  | cons a rest ih =>
    rcases split_cons_cases sep a rest with ⟨ha, _⟩ | ⟨ha, piece, pieces, hsplit, _⟩
    · simp [split, ha, ih]
    · simp [split, ha, ih, hsplit]

/-- What is added at the end and has no separator makes the last piece longer. -/
theorem split_append (sep : α) (left right : List α) (hright : sep ∉ right) :
    ∃ pieces last, split sep left = pieces ++ [last] ∧
      split sep (left ++ right) = pieces ++ [last ++ right] := by
  induction left with
  | nil => exact ⟨[], [], rfl, split_of_notMem sep right hright⟩
  | cons a rest ih =>
    obtain ⟨pieces, last, hrest, happend⟩ := ih
    by_cases ha : a = sep
    · exact ⟨[] :: pieces, last, by simp [split, ha, hrest], by simp [split, ha, happend]⟩
    · cases pieces with
      | nil => exact ⟨[], a :: last, by simp [split, ha, hrest], by simp [split, ha, happend]⟩
      | cons piece pieces =>
        exact ⟨(a :: piece) :: pieces, last, by simp [split, ha, hrest],
          by simp [split, ha, happend]⟩

/-- Pieces that hold no separator are found again. -/
theorem split_join (sep : α) (pieces : List (List α)) (hne : pieces ≠ [])
    (h : ∀ piece ∈ pieces, sep ∉ piece) : split sep (join sep pieces) = pieces := by
  induction pieces with
  | nil => exact absurd rfl hne
  | cons piece rest ih =>
    have hpiece := split_of_notMem sep piece (h piece List.mem_cons_self)
    cases rest with
    | nil => simpa only [join] using hpiece
    | cons next rest =>
      have hrest := ih (by simp) fun p hp => h p (List.mem_cons_of_mem _ hp)
      simp only [join, split_append_sep, hpiece, hrest, List.singleton_append]

omit [DecidableEq α] in
theorem mem_join (sep a : α) (pieces : List (List α)) (h : a ∈ join sep pieces) :
    a = sep ∨ ∃ piece ∈ pieces, a ∈ piece := by
  induction pieces with
  | nil => simp [join] at h
  | cons piece rest ih =>
    cases rest with
    | nil => exact .inr ⟨piece, List.mem_cons_self, by simpa only [join] using h⟩
    | cons next rest =>
      simp only [join, List.mem_append, List.mem_cons] at h
      rcases h with h | h | h
      · exact .inr ⟨piece, List.mem_cons_self, h⟩
      · exact .inl h
      · rcases ih h with h | ⟨found, hfound, ha⟩
        · exact .inl h
        · exact .inr ⟨found, List.mem_cons_of_mem _ hfound, ha⟩

end ModuleLoading.Text
