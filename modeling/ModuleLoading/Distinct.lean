/-!
The distinct elements of a list, each where it occurs first.
-/
namespace ModuleLoading

variable {α : Type} [DecidableEq α]

def distinct : List α → List α
  | [] => []
  | a :: rest => a :: (distinct rest).filter (· ≠ a)

theorem mem_distinct {a : α} {list : List α} : a ∈ distinct list ↔ a ∈ list := by
  induction list with
  | nil => simp [distinct]
  | cons b rest ih =>
    by_cases h : a = b
    · simp [distinct, h]
    · simp [distinct, h, ih]

theorem distinct_of_nodup (list : List α) (h : list.Nodup) : distinct list = list := by
  induction list with
  | nil => rfl
  | cons a rest ih =>
    obtain ⟨ha, hrest⟩ := List.nodup_cons.1 h
    rw [distinct, ih hrest, List.filter_eq_self.2]
    intro b hb
    have hne : b ≠ a := fun heq => ha (heq ▸ hb)
    simpa using hne

/-- Adding elements at the end unless they are there. -/
theorem foldl_concat_new (list kept : List α) :
    list.foldl (fun kept a => if a ∈ kept then kept else kept ++ [a]) kept =
      kept ++ (distinct list).filter (· ∉ kept) := by
  induction list generalizing kept with
  | nil => simp [distinct]
  | cons a rest ih =>
    rw [List.foldl_cons, ih, distinct]
    by_cases ha : a ∈ kept
    · rw [if_pos ha, List.filter_cons_of_neg (by simpa using ha), List.filter_filter]
      congr 1
      refine List.filter_congr fun b _ => ?_
      by_cases hb : b = a
      · simp [hb, ha]
      · simp [hb]
    · rw [if_neg ha, List.filter_cons_of_pos (by simpa using ha), List.filter_filter,
        List.append_assoc]
      simp [Bool.and_comm]

theorem nodup_distinct (list : List α) : (distinct list).Nodup := by
  induction list with
  | nil => simp [distinct]
  | cons b rest ih =>
    refine List.nodup_cons.2 ⟨?_, ih.filter _⟩
    simp

end ModuleLoading
