import ModuleLoading.Proofs.Occurrences

/-!
Things and their places. Things written one on a line have the places of their lines, and
what is kept of them, kind by kind, is merged into the order of the lines again.
-/
namespace ModuleLoading.Source

variable {α β γ : Type}

/-- Things written on a line each, with the places that their lines have. -/
def linesFrom (text : β → List Char) : Nat → List β → List (Placed β)
  | _, [] => []
  | offset, b :: rest => (offset, b) :: linesFrom text (offset + (text b).length + 1) rest

theorem map_linesFrom (text : β → List Char) (offset : Nat) (list : List β) :
    (linesFrom text offset list).map Prod.snd = list := by
  induction list generalizing offset with
  | nil => rfl
  | cons b rest ih => rw [linesFrom, List.map_cons, ih]

theorem le_of_mem_linesFrom (text : β → List Char) (offset : Nat) (list : List β) (p : Placed β)
    (h : p ∈ linesFrom text offset list) : offset ≤ p.1 := by
  induction list generalizing offset with
  | nil => cases h
  | cons b rest ih =>
    rcases List.mem_cons.1 h with rfl | h
    · exact Nat.le_refl _
    · have hle := ih _ h
      omega

theorem ascending_linesFrom (text : β → List Char) (offset : Nat) (list : List β) :
    (linesFrom text offset list).Pairwise fun p q => p.1 < q.1 := by
  induction list generalizing offset with
  | nil => exact List.Pairwise.nil
  | cons b rest ih =>
    refine List.pairwise_cons.2 ⟨fun p hp => ?_, ih _⟩
    have hle := le_of_mem_linesFrom text _ rest p hp
    show offset < p.1
    omega

/-- What is kept of things at their places. -/
def keepPlaced (found : β → Option γ) (list : List (Placed β)) : List (Placed γ) :=
  list.filterMap fun p => (found p.2).map (p.1, ·)

theorem keepPlaced_cons (found : β → Option γ) (p : Placed β) (list : List (Placed β)) :
    keepPlaced found (p :: list) = ((found p.2).map (p.1, ·)).toList ++ keepPlaced found list := by
  rw [keepPlaced, List.filterMap_cons, keepPlaced]
  cases found p.2 with
  | none => rfl
  | some c => rfl

theorem map_keepPlaced (found : β → Option γ) (list : List (Placed β)) :
    (keepPlaced found list).map Prod.snd = (list.map Prod.snd).filterMap found := by
  induction list with
  | nil => rfl
  | cons p rest ih =>
    rw [keepPlaced_cons, List.map_append, ih, List.map_cons, List.filterMap_cons]
    cases found p.2 with
    | none => rfl
    | some c => rfl

theorem filterMap_keepPlaced {δ : Type} (found : β → Option γ) (more : γ → Option δ)
    (list : List (Placed β)) :
    (keepPlaced found list).filterMap (fun p => (more p.2).map (p.1, ·)) =
      keepPlaced (fun b => (found b).bind more) list := by
  induction list with
  | nil => rfl
  | cons p rest ih =>
    rw [keepPlaced_cons, List.filterMap_append, ih, keepPlaced_cons]
    cases hfound : found p.2 with
    | none => rfl
    | some c =>
      cases hmore : more c with
      | none => simp [hmore]
      | some d => simp [hmore]

theorem filterMap_occurrences_lines (reading : Reading α)
    (keep : Occurrence α → Option (Placed γ)) (text : β → List Char) (found : β → Option γ)
    (h : ∀ b tail, Yields reading keep (text b) ('\n' :: tail) ((found b).map (0, ·)).toList)
    (list : List β) :
    (occurrences atLineStart reading (list.flatMap fun b => text b ++ ['\n'])).filterMap keep =
      keepPlaced found (linesFrom text 0 list) := by
  have hfrom : ∀ offset,
      (occurrencesFrom atLineStart reading offset '\n' 0
        (list.flatMap fun b => text b ++ ['\n'])).filterMap keep =
        keepPlaced found (linesFrom text offset list) := by
    induction list with
    | nil => exact fun offset => congrArg _ (occurrencesFrom_nil reading offset _ _ _)
    | cons b rest ih =>
      intro offset
      rw [List.flatMap_cons, List.append_assoc, List.singleton_append, h b _ offset, List.tail_cons,
        ih, linesFrom, keepPlaced_cons]
      cases found b with
      | none => rfl
      | some c => rfl
  exact hfrom 0

theorem staticSpecifiers_eq (outline : Outline) : outline.staticSpecifiers =
    distinct ((mergePlaced (outline.imports.map fun p => (p.1, p.2.specifier))
      (outline.exports.filterMap fun p => p.2.source.map (p.1, ·))).map Prod.snd) := rfl

theorem mergePlaced_nil_left (right : List (Placed γ)) : mergePlaced [] right = right := by
  simp [mergePlaced]

theorem mergePlaced_nil_right (left : List (Placed γ)) : mergePlaced left [] = left := by
  simp [mergePlaced]

theorem mergePlaced_cons_cons (a b : Placed γ) (left right : List (Placed γ)) :
    mergePlaced (a :: left) (b :: right) =
      if a.1 ≤ b.1 then a :: mergePlaced left (b :: right) else b :: mergePlaced (a :: left) right := by
  rw [mergePlaced, List.cons_merge_cons]
  simp only [decide_eq_true_eq]
  rfl

theorem mergePlaced_cons_left (a : Placed γ) (left right : List (Placed γ))
    (h : ∀ b ∈ right, a.1 ≤ b.1) : mergePlaced (a :: left) right = a :: mergePlaced left right := by
  cases right with
  | nil => rw [mergePlaced_nil_right, mergePlaced_nil_right]
  | cons b right => rw [mergePlaced_cons_cons, if_pos (h b List.mem_cons_self)]

theorem mergePlaced_cons_right (b : Placed γ) (left right : List (Placed γ))
    (h : ∀ a ∈ left, b.1 < a.1) : mergePlaced left (b :: right) = b :: mergePlaced left right := by
  cases left with
  | nil => rw [mergePlaced_nil_left, mergePlaced_nil_left]
  | cons a left => rw [mergePlaced_cons_cons, if_neg (Nat.not_le_of_lt (h a List.mem_cons_self))]

/-- Two parts of which one stands behind the other are merged one by one. -/
theorem mergePlaced_append (left left' right right' : List (Placed γ))
    (h : ∀ p, p ∈ left ∨ p ∈ right → ∀ q, q ∈ left' ∨ q ∈ right' → p.1 < q.1) :
    mergePlaced (left ++ left') (right ++ right') =
      mergePlaced left right ++ mergePlaced left' right' := by
  induction left generalizing right with
  | nil =>
    induction right with
    | nil => rw [mergePlaced_nil_left, List.nil_append, List.nil_append, List.nil_append]
    | cons b right ih =>
      have hb : ∀ a ∈ left', b.1 < a.1 := fun a ha => h b (.inr List.mem_cons_self) a (.inl ha)
      have hrest := ih fun p hp => h p (hp.imp_right (List.mem_cons_of_mem b))
      rw [mergePlaced_nil_left, List.nil_append] at hrest ⊢
      rw [List.cons_append, mergePlaced_cons_right b left' _ hb, hrest, List.cons_append]
  | cons a left ih =>
    induction right with
    | nil =>
      have ha : ∀ b ∈ right', a.1 ≤ b.1 := fun b hb =>
        Nat.le_of_lt (h a (.inl List.mem_cons_self) b (.inr hb))
      have hrest := ih [] fun p hp => h p (hp.imp_left (List.mem_cons_of_mem a))
      rw [mergePlaced_nil_right, List.nil_append] at hrest ⊢
      rw [List.cons_append, mergePlaced_cons_left a _ right' ha, hrest, List.cons_append]
    | cons b right ihRight =>
      rw [List.cons_append, List.cons_append, mergePlaced_cons_cons, mergePlaced_cons_cons]
      by_cases hab : a.1 ≤ b.1
      · have hrest := ih (b :: right) fun p hp => h p (hp.imp_left (List.mem_cons_of_mem a))
        rw [if_pos hab, if_pos hab, List.cons_append, ← hrest, List.cons_append]
      · have hrest := ihRight fun p hp => h p (hp.imp_right (List.mem_cons_of_mem b))
        rw [if_neg hab, if_neg hab, List.cons_append, ← hrest, List.cons_append]

/-- What comes to nothing may be left out before merging. -/
theorem filterMap_mergePlaced {δ : Type} (more : γ → Option δ) (left right : List (Placed γ))
    (h : ∀ p ∈ right, more p.2 = none) :
    (mergePlaced left right).filterMap (fun p => (more p.2).map (p.1, ·)) =
      left.filterMap fun p => (more p.2).map (p.1, ·) := by
  induction left generalizing right with
  | nil =>
    rw [mergePlaced_nil_left, List.filterMap_nil, List.filterMap_eq_nil_iff]
    intro p hp
    rw [h p hp]
    rfl
  | cons a left ih =>
    induction right with
    | nil => rw [mergePlaced_nil_right]
    | cons b right ihRight =>
      rw [mergePlaced_cons_cons]
      by_cases hab : a.1 ≤ b.1
      · rw [if_pos hab, List.filterMap_cons, List.filterMap_cons, ih (b :: right) h]
      · have hb := h b List.mem_cons_self
        rw [if_neg hab, List.filterMap_cons, hb]
        exact ihRight fun p hp => h p (List.mem_cons_of_mem b hp)

theorem place_of_mem_keepPlaced (found : β → Option γ) (list : List (Placed β)) (c : Placed γ)
    (h : c ∈ keepPlaced found list) : ∃ p ∈ list, p.1 = c.1 := by
  obtain ⟨p, hp, heq⟩ := List.mem_filterMap.1 h
  obtain ⟨c', _, rfl⟩ := Option.map_eq_some_iff.1 heq
  exact ⟨p, hp, rfl⟩

/-- Two kinds of things of which no place has both are merged into one list in order. -/
theorem mergePlaced_keepPlaced (found found' : β → Option γ) (list : List (Placed β))
    (hascending : list.Pairwise fun p q => p.1 < q.1)
    (hapart : ∀ p ∈ list, found p.2 = none ∨ found' p.2 = none) :
    mergePlaced (keepPlaced found list) (keepPlaced found' list) =
      keepPlaced (fun b => (found b).or (found' b)) list := by
  induction list with
  | nil => exact mergePlaced_nil_left []
  | cons p rest ih =>
    obtain ⟨hp, hrest⟩ := List.pairwise_cons.1 hascending
    have hafter : ∀ (kept : β → Option γ), ∀ c ∈ keepPlaced kept rest, p.1 < c.1 := by
      intro kept c hc
      obtain ⟨q, hq, heq⟩ := place_of_mem_keepPlaced kept rest c hc
      exact heq ▸ hp q hq
    have ih := ih hrest fun q hq => hapart q (List.mem_cons_of_mem p hq)
    rw [keepPlaced_cons, keepPlaced_cons, keepPlaced_cons]
    cases hfound : found p.2 with
    | none =>
      cases hfound' : found' p.2 with
      | none => exact ih
      | some c =>
        have hright := mergePlaced_cons_right (p.1, c) (keepPlaced found rest)
          (keepPlaced found' rest) (hafter found)
        exact hright.trans (congrArg _ ih)
    | some c =>
      have hnone : found' p.2 = none := by
        rcases hapart p List.mem_cons_self with h | h
        · rw [h] at hfound
          cases hfound
        · exact h
      rw [hnone]
      have hleft := mergePlaced_cons_left (p.1, c) (keepPlaced found rest)
        (keepPlaced found' rest) fun b hb => Nat.le_of_lt (hafter found' b hb)
      exact hleft.trans (congrArg _ ih)

end ModuleLoading.Source
