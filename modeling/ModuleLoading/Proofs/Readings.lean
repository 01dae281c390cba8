import ModuleLoading.Source.Reading

/-!
How readings go together. A sequence is read part by part as long as each part has a
single way; of two ways the second counts only where everything after the first one
fails. A run is over at the first character that it does not accept.
-/
namespace ModuleLoading.Source.Reading

variable {α β : Type}

/-- What a reading prefers at the front of a text. -/
def Finds (reading : Reading α) (text : List Char) (a : α) (rest : List Char) : Prop :=
  (reading text).head? = some (a, rest)

theorem finds_of_eq {reading : Reading α} {text rest : List Char} {a : α}
    (h : reading text = [(a, rest)]) : reading.Finds text a rest := by
  rw [Finds, h]
  rfl

theorem finds_pure (a : α) (text : List Char) : (pure a : Reading α).Finds text a text := rfl

section Bind

variable {first : Reading α} {next : α → Reading β} {text middle rest : List Char} {a : α} {b : β}

theorem bind_apply (first : Reading α) (next : α → Reading β) (text : List Char) :
    (first >>= next) text = (first text).flatMap fun found => next found.1 found.2 := rfl

theorem bind_of_eq (h : first text = [(a, middle)]) : (first >>= next) text = next a middle := by
  simp [bind_apply, h]

theorem bind_of_fails (h : first text = []) : (first >>= next) text = [] := by
  simp [bind_apply, h]

theorem bind_eq_nil (h : ∀ found ∈ first text, next found.1 found.2 = []) :
    (first >>= next) text = [] :=
  List.flatMap_eq_nil_iff.2 h

theorem Finds.bind (h : first.Finds text a middle) (hnext : (next a).Finds middle b rest) :
    (first >>= next).Finds text b rest := by
  obtain ⟨others, hothers⟩ := List.head?_eq_some_iff.1 h
  rw [Finds, bind_apply, hothers, List.flatMap_cons, List.head?_append]
  rw [show (next a middle).head? = some (b, rest) from hnext]
  rfl

theorem map_of_eq (f : α → β) (h : first text = [(a, middle)]) :
    (f <$> first) text = [(f a, middle)] := by
  show (first >>= fun a => pure (f a)) text = _
  rw [bind_of_eq h]
  rfl

theorem map_of_fails (f : α → β) (h : first text = []) : (f <$> first) text = [] := by
  show (first >>= fun a => pure (f a)) text = _
  exact bind_of_fails h

theorem Finds.map (f : α → β) (h : first.Finds text a middle) :
    (f <$> first).Finds text (f a) middle := by
  show (first >>= fun a => pure (f a)).Finds text (f a) middle
  exact h.bind (finds_pure (f a) middle)

end Bind

section Optionally

variable {reading : Reading α} {next : Option α → Reading β} {text middle rest : List Char} {a : α}
  {b : β}

theorem either_of_fails {first second : Reading α} (h : first text = []) :
    either first second text = second text := by
  simp [either, h]

theorem Finds.either_left {first second : Reading α} (h : first.Finds text a rest) :
    (either first second).Finds text a rest := by
  obtain ⟨others, hothers⟩ := List.head?_eq_some_iff.1 h
  rw [Finds, either, hothers]
  rfl

theorem optionally_of_fails (h : reading text = []) :
    optionally reading text = [(none, text)] :=
  either_of_fails (map_of_fails some h)

theorem Finds.optionally (h : reading.Finds text a middle) :
    (optionally reading).Finds text (some a) middle :=
  (h.map some).either_left

/-- A part that could be read is left out where nothing goes on after it. -/
theorem finds_of_left_out (hsome : ∀ found ∈ reading text, next (some found.1) found.2 = [])
    (hnone : (next none).Finds text b rest) : (optionally reading >>= next).Finds text b rest := by
  have hleft : ((some <$> reading) >>= next) text = [] := by
    apply bind_eq_nil
    intro found hfound
    obtain ⟨inner, hinner, heq⟩ := List.mem_flatMap.1 hfound
    rw [List.mem_singleton.1 heq]
    exact hsome inner hinner
  rw [Finds, bind_apply, Reading.optionally, either, List.flatMap_append]
  rw [← bind_apply, ← bind_apply, hleft, List.nil_append, bind_of_eq (a := none) rfl]
  exact hnone

theorem optionally_bind_eq_nil (hsome : ∀ found ∈ reading text, next (some found.1) found.2 = [])
    (hnone : next none text = []) : (optionally reading >>= next) text = [] := by
  apply bind_eq_nil
  intro found hfound
  rcases List.mem_append.1 hfound with hfound | hfound
  · obtain ⟨inner, hinner, heq⟩ := List.mem_flatMap.1 hfound
    rw [List.mem_singleton.1 heq]
    exact hsome inner hinner
  · rw [List.mem_singleton.1 hfound]
    exact hnone

end Optionally

section Runs

variable {accepts : Char → Bool} {front text rest : List Char}

/-- A run does not go on into the text. -/
def Stops (accepts : Char → Bool) (text : List Char) : Prop := ∀ c ∈ text.head?, accepts c = false

theorem stops_cons (c : Char) (h : accepts c = false) : Stops accepts (c :: text) := by
  intro d hd
  rw [List.head?_cons, Option.mem_some_iff] at hd
  exact hd ▸ h

theorem stops_append (hne : front ≠ []) (h : ∀ c ∈ front, accepts c = false) :
    Stops accepts (front ++ rest) := by
  cases front with
  | nil => exact absurd rfl hne
  | cons c front => exact stops_cons c (h c List.mem_cons_self)

theorem takeWhile_of_stops (hstop : Stops accepts text) : text.takeWhile accepts = [] := by
  cases text with
  | nil => rfl
  | cons c text => exact List.takeWhile_cons_of_neg (by simp [hstop c rfl])

theorem dropWhile_of_stops (hstop : Stops accepts text) : text.dropWhile accepts = text := by
  cases text with
  | nil => rfl
  | cons c text => exact List.dropWhile_cons_of_neg (by simp [hstop c rfl])

theorem takeWhile_append (h : ∀ c ∈ front, accepts c = true) (hstop : Stops accepts rest) :
    (front ++ rest).takeWhile accepts = front := by
  rw [List.takeWhile_append_of_pos h, takeWhile_of_stops hstop, List.append_nil]

theorem dropWhile_append (h : ∀ c ∈ front, accepts c = true) (hstop : Stops accepts rest) :
    (front ++ rest).dropWhile accepts = rest := by
  rw [List.dropWhile_append_of_pos h, dropWhile_of_stops hstop]

theorem run_append (h : ∀ c ∈ front, accepts c = true) (hstop : Stops accepts rest) :
    run accepts (front ++ rest) = [(front, rest)] := by
  rw [run, takeWhile_append h hstop, dropWhile_append h hstop]

theorem run_of_stops (hstop : Stops accepts text) : run accepts text = [([], text)] := by
  rw [run, takeWhile_of_stops hstop, dropWhile_of_stops hstop]

theorem nonemptyRun_append (hne : front ≠ []) (h : ∀ c ∈ front, accepts c = true)
    (hstop : Stops accepts rest) : nonemptyRun accepts (front ++ rest) = [(front, rest)] := by
  rw [nonemptyRun, takeWhile_append h hstop, dropWhile_append h hstop, if_neg hne]

theorem nonemptyRun_of_stops (hstop : Stops accepts text) : nonemptyRun accepts text = [] :=
  if_pos (takeWhile_of_stops hstop)

theorem nonemptyRunBefore_of_stops (ending : List Char) (hstop : Stops accepts text) :
    nonemptyRunBefore accepts ending text = [] := by
  simp [nonemptyRunBefore, takeWhile_of_stops hstop]

theorem exactly_append (word rest : List Char) : exactly word (word ++ rest) = [((), rest)] := by
  induction word with
  | nil => rfl
  | cons c word ih => rw [List.cons_append, exactly, if_pos rfl, ih]

end Runs

end ModuleLoading.Source.Reading
