/-!
Lists kept in strictly ascending order of a text key, which hold each key once.
Texts are ordered by code points, which is also the order of their UTF-8 bytes.
-/
namespace ModuleLoading

variable {α : Type}

def Ascending (key : α → String) (list : List α) : Prop :=
  list.Pairwise fun a b => key a < key b

/-- Puts an element in its place, where it replaces one of the same key. -/
def insertByKey (key : α → String) (a : α) : List α → List α
  | [] => [a]
  | b :: rest =>
    if key a < key b then a :: b :: rest
    else if key a = key b then a :: rest
    else b :: insertByKey key a rest

def findByKey (key : α → String) (wanted : String) (list : List α) : Option α :=
  list.find? fun a => key a == wanted

theorem mem_insertByKey {key : α → String} {a x : α} {list : List α}
    (h : x ∈ insertByKey key a list) : x = a ∨ x ∈ list := by
  induction list with
  | nil => simpa [insertByKey] using h
  | cons b rest ih =>
    unfold insertByKey at h
    split at h
    · simpa using h
    · split at h
      · rcases List.mem_cons.1 h with h | h
        · exact .inl h
        · exact .inr (List.mem_cons_of_mem _ h)
      · rcases List.mem_cons.1 h with h | h
        · exact .inr (h ▸ List.mem_cons_self)
        · rcases ih h with h | h
          · exact .inl h
          · exact .inr (List.mem_cons_of_mem _ h)

theorem mem_insertByKey_self (key : α → String) (a : α) (list : List α) :
    a ∈ insertByKey key a list := by
  induction list with
  | nil => simp [insertByKey]
  | cons b rest ih =>
    rw [insertByKey]
    split
    · simp
    · split
      · simp
      · exact List.mem_cons_of_mem _ ih

theorem mem_insertByKey_of_mem (key : α → String) (a x : α) (list : List α) (h : x ∈ list)
    (hkey : key a ≠ key x) : x ∈ insertByKey key a list := by
  induction list with
  | nil => cases h
  | cons b rest ih =>
    rw [insertByKey]
    split
    · exact List.mem_cons_of_mem _ h
    · split
      · next heq =>
        rcases List.mem_cons.1 h with rfl | h
        · exact absurd heq hkey
        · exact List.mem_cons_of_mem _ h
      · rcases List.mem_cons.1 h with rfl | h
        · exact List.mem_cons_self
        · exact List.mem_cons_of_mem _ (ih h)

private theorem lt_of_not_lt_of_ne {s t : String} (h : ¬ s < t) (hne : s ≠ t) : t < s := by
  rcases String.le_total s t with hle | hle
  · exact absurd (String.le_antisymm hle (String.not_lt.1 h)) hne
  · exact String.not_le.1 fun hst => hne (String.le_antisymm hst hle)

theorem ascending_insertByKey {key : α → String} (a : α) {list : List α}
    (h : Ascending key list) : Ascending key (insertByKey key a list) := by
  induction list with
  | nil => simp [insertByKey, Ascending]
  | cons b rest ih =>
    obtain ⟨hb, hrest⟩ := List.pairwise_cons.1 h
    unfold insertByKey
    split
    · next hab =>
      refine List.pairwise_cons.2 ⟨fun x hx => ?_, h⟩
      rcases List.mem_cons.1 hx with hx | hx
      · exact hx ▸ hab
      · exact String.lt_trans hab (hb x hx)
    · next hab =>
      split
      · next heq => exact List.pairwise_cons.2 ⟨fun x hx => heq ▸ hb x hx, hrest⟩
      · next hne =>
        refine List.pairwise_cons.2 ⟨fun x hx => ?_, ih hrest⟩
        rcases mem_insertByKey hx with hx | hx
        · exact hx ▸ lt_of_not_lt_of_ne hab hne
        · exact hb x hx

theorem nodup_of_ascending {key : α → String} {list : List α} (h : Ascending key list) :
    (list.map key).Nodup := by
  refine List.pairwise_map.2 (h.imp ?_)
  intro a b hab heq
  rw [heq] at hab
  exact String.lt_irrefl _ hab

theorem findByKey_cons (key : α → String) (wanted : String) (a : α) (list : List α) :
    findByKey key wanted (a :: list) =
      if key a = wanted then some a else findByKey key wanted list := by
  by_cases h : key a = wanted <;> simp [findByKey, h]

theorem findByKey_eq_some_iff {key : α → String} {wanted : String} {a : α} {list : List α}
    (h : (list.map key).Nodup) :
    findByKey key wanted list = some a ↔ a ∈ list ∧ key a = wanted := by
  induction list with
  | nil => simp [findByKey]
  | cons b rest ih =>
    obtain ⟨hb, hrest⟩ := List.nodup_cons.1 h
    rw [findByKey_cons, List.mem_cons]
    by_cases heq : key b = wanted
    · rw [if_pos heq, Option.some.injEq]
      constructor
      · rintro rfl
        exact ⟨.inl rfl, heq⟩
      · rintro ⟨rfl | hmem, hkey⟩
        · rfl
        · exact absurd (List.mem_map.2 ⟨a, hmem, hkey.trans heq.symm⟩) hb
    · rw [if_neg heq, ih hrest]
      constructor
      · rintro ⟨hmem, hkey⟩
        exact ⟨.inr hmem, hkey⟩
      · rintro ⟨rfl | hmem, hkey⟩
        · exact absurd hkey heq
        · exact ⟨hmem, hkey⟩

theorem findByKey_insertByKey (key : α → String) (wanted : String) (a : α) (list : List α) :
    findByKey key wanted (insertByKey key a list) =
      if key a = wanted then some a else findByKey key wanted list := by
  induction list with
  | nil => rw [insertByKey, findByKey_cons]
  | cons b rest ih =>
    rw [insertByKey]
    split
    · rw [findByKey_cons]
    · split
      · next heq =>
        rw [findByKey_cons, findByKey_cons, ← heq]
        split <;> rfl
      · next hne =>
        rw [findByKey_cons, findByKey_cons, ih]
        by_cases hb : key b = wanted
        · have ha : key a ≠ wanted := fun ha => hne (ha.trans hb.symm)
          rw [if_neg ha, if_neg ha]
        · rw [if_neg hb, if_neg hb]

/-- Sorting elements of distinct keys one after the other changes no look-up. -/
theorem findByKey_foldl_insertByKey (key : α → String) (wanted : String) (list sorted : List α)
    (h : (list.map key).Nodup) :
    findByKey key wanted (list.foldl (fun sorted a => insertByKey key a sorted) sorted) =
      (findByKey key wanted list).or (findByKey key wanted sorted) := by
  induction list generalizing sorted with
  | nil => simp [findByKey]
  | cons a rest ih =>
    obtain ⟨ha, hrest⟩ := List.nodup_cons.1 h
    rw [List.foldl_cons, ih _ hrest, findByKey_insertByKey, findByKey_cons]
    by_cases heq : key a = wanted
    · have hnone : findByKey key wanted rest = none := by
        refine List.find?_eq_none.2 fun b hb hkey => ha ?_
        rw [heq, ← eq_of_beq hkey]
        exact List.mem_map_of_mem hb
      rw [hnone, if_pos heq, if_pos heq]
      rfl
    · rw [if_neg heq, if_neg heq]

theorem ascending_foldl_insertByKey (key : α → String) (list sorted : List α)
    (h : Ascending key sorted) :
    Ascending key (list.foldl (fun sorted a => insertByKey key a sorted) sorted) := by
  induction list generalizing sorted with
  | nil => exact h
  | cons a rest ih => exact ih _ (ascending_insertByKey a h)

theorem insertByKey_last (key : α → String) (a : α) (list : List α)
    (h : ∀ b ∈ list, key b < key a) : insertByKey key a list = list ++ [a] := by
  induction list with
  | nil => rfl
  | cons b rest ih =>
    have hb : key b < key a := h b List.mem_cons_self
    have hlt : ¬ key a < key b := fun hab => String.lt_irrefl _ (String.lt_trans hb hab)
    have hne : key a ≠ key b := fun heq => String.lt_irrefl _ (heq ▸ hb)
    rw [insertByKey, if_neg hlt, if_neg hne, List.cons_append,
      ih fun later hlater => h later (List.mem_cons_of_mem _ hlater)]

/-- Elements that come in ascending order are put one after the other. -/
theorem foldl_insertByKey_ascending (key : α → String) (list sorted : List α)
    (h : Ascending key (sorted ++ list)) :
    list.foldl (fun sorted a => insertByKey key a sorted) sorted = sorted ++ list := by
  induction list generalizing sorted with
  | nil => simp
  | cons a rest ih =>
    have hlast : ∀ b ∈ sorted, key b < key a :=
      fun b hb => (List.pairwise_append.1 h).2.2 b hb a List.mem_cons_self
    have hsplit : sorted ++ a :: rest = (sorted ++ [a]) ++ rest := by simp
    rw [List.foldl_cons, insertByKey_last key a sorted hlast, hsplit]
    exact ih (sorted ++ [a]) (hsplit ▸ h)

theorem insertByKey_ne_nil (key : α → String) (a : α) (list : List α) :
    insertByKey key a list ≠ [] := by
  cases list with
  | nil => simp [insertByKey]
  | cons b rest =>
    rw [insertByKey]
    split
    · simp
    · split <;> simp

theorem foldl_insertByKey_eq_nil (key : α → String) (list sorted : List α)
    (h : list.foldl (fun sorted a => insertByKey key a sorted) sorted = []) :
    list = [] ∧ sorted = [] := by
  induction list generalizing sorted with
  | nil => exact ⟨rfl, h⟩
  | cons a rest ih => exact absurd (ih _ h).2 (insertByKey_ne_nil key a sorted)

/-- Sorting texts by themselves loses only repetitions. -/
theorem mem_foldl_insertByKey_id (name : String) (list sorted : List String) :
    name ∈ list.foldl (fun sorted a => insertByKey id a sorted) sorted ↔
      name ∈ list ∨ name ∈ sorted := by
  induction list generalizing sorted with
  | nil => simp
  | cons a rest ih =>
    have hstep : name ∈ insertByKey id a sorted ↔ name = a ∨ name ∈ sorted := by
      refine ⟨mem_insertByKey, ?_⟩
      rintro (rfl | h)
      · exact mem_insertByKey_self id name sorted
      · by_cases ha : a = name
        · exact ha ▸ mem_insertByKey_self id a sorted
        · exact mem_insertByKey_of_mem id a name sorted h ha
    rw [List.foldl_cons, ih, hstep, List.mem_cons, or_left_comm, or_assoc]

theorem mem_foldl_insertByKey (key : α → String) (a : α) (list : List α)
    (h : (list.map key).Nodup) :
    a ∈ list.foldl (fun sorted a => insertByKey key a sorted) [] ↔ a ∈ list := by
  have hsorted := nodup_of_ascending
    (ascending_foldl_insertByKey key list [] (by simp [Ascending]))
  have hfind := findByKey_foldl_insertByKey key (key a) list [] h
  have hnone : findByKey key (key a) ([] : List α) = none := rfl
  rw [hnone, Option.or_none] at hfind
  rw [← and_iff_left (a := a ∈ list) (rfl : key a = key a), ← findByKey_eq_some_iff h, ← hfind,
    findByKey_eq_some_iff hsorted]
  simp

end ModuleLoading
