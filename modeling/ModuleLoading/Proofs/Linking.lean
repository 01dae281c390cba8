import ModuleLoading.Distinct
import ModuleLoading.Link

/-!
Linking as equations on its outcome and the linker it leaves behind, and the
comparison of two linkings. Two walks are in step when each module that one loads
is the packed form of the module that the other loads; then both succeed and the
linkers stay packed forms of each other all along.
-/
namespace ModuleLoading

namespace Linker

variable (resolver : Resolver) (files : FileView)

/-- What linking a specifier answers, with the linker it leaves behind. -/
def linkFrom (linker : Linker) (specifier : String) (referrer : Option Identity) :
    Except LoadError String × Linker :=
  ((walk resolver files linker specifier referrer).outcome,
    (walk resolver files linker specifier referrer).after)

/-- What linking the imports of a module answers, with the linker it leaves behind. -/
def linkImports (linker : Linker) (specifiers : List String) (importer : Identity) :
    Except LoadError (List String) × Linker :=
  ((walkAll resolver files linker specifiers importer).outcome,
    (walkAll resolver files linker specifiers importer).after)

theorem seen_linkFrom (linker : Linker) (specifier : String) (referrer : Option Identity) :
    ∀ key ∈ linker.seen, key ∈ (linkFrom resolver files linker specifier referrer).2.seen :=
  (walk resolver files linker specifier referrer).seen_after

theorem linkFrom_unloaded (linker : Linker) (specifier : String) (referrer : Option Identity)
    (e : LoadError) (h : resolver.load files specifier referrer = .error e) :
    linkFrom resolver files linker specifier referrer = (.error e, linker) := by
  rw [linkFrom, walk]
  split
  · next e' h' =>
    rw [h] at h'
    cases h'
    rfl
  · next loaded h' =>
    rw [h] at h'
    cases h'

theorem linkFrom_seen (linker : Linker) (specifier : String) (referrer : Option Identity)
    (loaded : Loaded) (h : resolver.load files specifier referrer = .ok loaded)
    (hseen : loaded.identity.key ∈ linker.seen) :
    linkFrom resolver files linker specifier referrer = (.ok loaded.identity.key, linker) := by
  rw [linkFrom, walk]
  split
  · next e h' =>
    rw [h] at h'
    cases h'
  · next loaded' h' =>
    rw [h] at h'
    cases h'
    simp only [dif_pos hseen]

theorem linkFrom_new (linker : Linker) (specifier : String) (referrer : Option Identity)
    (loaded : Loaded) (h : resolver.load files specifier referrer = .ok loaded)
    (hnew : loaded.identity.key ∉ linker.seen) :
    linkFrom resolver files linker specifier referrer =
      match linkImports resolver files (linker.start loaded.identity.key)
        (Source.outline loaded.text).staticSpecifiers loaded.identity with
      | (.error e, after) => (.error e, after)
      | (.ok keys, after) => (.ok loaded.identity.key,
          after.finish (linkedModule loaded (Source.outline loaded.text) keys)) := by
  rw [linkFrom, walk, linkImports]
  split
  · next e h' =>
    rw [h] at h'
    cases h'
  · next loaded' h' =>
    rw [h] at h'
    cases h'
    simp only [dif_neg hnew]
    split
    · next e houtcome => rw [houtcome]
    · next keys houtcome => rw [houtcome]

theorem linkImports_nil (linker : Linker) (importer : Identity) :
    linkImports resolver files linker [] importer = (.ok [], linker) := by
  rw [linkImports, walkAll]

theorem linkImports_cons (linker : Linker) (specifier : String) (rest : List String)
    (importer : Identity) :
    linkImports resolver files linker (specifier :: rest) importer =
      match linkFrom resolver files linker specifier (some importer) with
      | (.error e, after) => (.error e, after)
      | (.ok key, after) =>
        ((linkImports resolver files after rest importer).1.map (key :: ·),
          (linkImports resolver files after rest importer).2) := by
  rw [linkImports, walkAll, linkFrom]
  simp only
  split
  · next e houtcome => rw [houtcome]
  · next key houtcome => rw [houtcome]; rfl

end Linker

def Identity.packed (identity : Identity) : Identity := { identity with root := none }

/-- A module as it is loaded from a table that carries it. -/
def Loaded.packed (loaded : Loaded) : Loaded :=
  ⟨loaded.identity.packed, .embedded, loaded.code, none⟩

/-- A linked module as it is linked from a table that carries it. -/
def LinkedModule.packed (m : LinkedModule) : LinkedModule :=
  { m with identity := m.identity.packed, origin := .embedded, path := none }

namespace Linker

def packed (linker : Linker) : Linker :=
  ⟨linker.modules.map LinkedModule.packed, linker.index, linker.inProgress⟩

theorem seen_packed (linker : Linker) : linker.packed.seen = linker.seen := rfl

theorem finish_packed (linker : Linker) (m : LinkedModule) :
    linker.packed.finish m.packed = (linker.finish m).packed := by
  simp only [finish, packed, List.map_append, List.map_cons, List.map_nil, List.length_map]
  rfl

/-- Queries whose answers on the right are the packed forms of those on the left,
and that are closed under the static imports of what is loaded. -/
structure InStep (left right : Resolver) (leftFiles rightFiles : FileView)
    (pairs : String → Option Identity → String → Option Identity → Prop) : Prop where
  loads : ∀ specifier referrer specifier' referrer',
    pairs specifier referrer specifier' referrer' →
    ∃ loaded, left.load leftFiles specifier referrer = .ok loaded ∧
      right.load rightFiles specifier' referrer' = .ok loaded.packed ∧
      ∀ imported ∈ (Source.outline loaded.text).staticSpecifiers,
        pairs imported (some loaded.identity) imported (some loaded.identity.packed)

variable {left right : Resolver} {leftFiles rightFiles : FileView}
variable {pairs : String → Option Identity → String → Option Identity → Prop}

-- Both sides have seen the same keys, so the measure of the left walk serves for both.
mutual

/-- Walks that are in step succeed, and stay in step. -/
theorem InStep.linkFrom (hstep : InStep left right leftFiles rightFiles pairs) (linker : Linker)
    (specifier : String) (referrer : Option Identity) (specifier' : String)
    (referrer' : Option Identity) (hpair : pairs specifier referrer specifier' referrer') :
    ∃ key after, Linker.linkFrom left leftFiles linker specifier referrer = (.ok key, after) ∧
      Linker.linkFrom right rightFiles linker.packed specifier' referrer' =
        (.ok key, after.packed) := by
  obtain ⟨loaded, hleft, hright, himports⟩ := hstep.loads _ _ _ _ hpair
  by_cases hseen : loaded.identity.key ∈ linker.seen
  · have hseen' : loaded.packed.identity.key ∈ linker.packed.seen := by
      rw [seen_packed]
      exact hseen
    exact ⟨loaded.identity.key, linker,
      linkFrom_seen left leftFiles linker specifier referrer loaded hleft hseen,
      linkFrom_seen right rightFiles linker.packed specifier' referrer' loaded.packed hright hseen'⟩
  · have hnew' : loaded.packed.identity.key ∉ linker.packed.seen := by
      rw [seen_packed]
      exact hseen
    obtain ⟨keys, after, hall, hall'⟩ := InStep.linkImports hstep
      (linker.start loaded.identity.key) (Source.outline loaded.text).staticSpecifiers
      loaded.identity himports
    refine ⟨loaded.identity.key,
      after.finish (linkedModule loaded (Source.outline loaded.text) keys), ?_, ?_⟩
    · rw [linkFrom_new left leftFiles linker specifier referrer loaded hleft hseen, hall]
    · have hpacked : Linker.linkImports right rightFiles
          (linker.packed.start loaded.packed.identity.key)
          (Source.outline loaded.packed.text).staticSpecifiers loaded.packed.identity =
            (.ok keys, after.packed) := hall'
      rw [linkFrom_new right rightFiles linker.packed specifier' referrer' loaded.packed hright
        hnew', hpacked, ← finish_packed]
      rfl
  termination_by (left.unseen linker.seen, 0)
  decreasing_by
    refine Prod.Lex.left _ _ ?_
    exact Resolver.unseen_lt (linker.seen_start _) (attainable_of_load hleft) hseen
      (linker.mem_seen_start _)

theorem InStep.linkImports (hstep : InStep left right leftFiles rightFiles pairs)
    (linker : Linker) (specifiers : List String) (importer : Identity)
    (hpairs : ∀ imported ∈ specifiers, pairs imported (some importer) imported
      (some importer.packed)) :
    ∃ keys after,
      Linker.linkImports left leftFiles linker specifiers importer = (.ok keys, after) ∧
      Linker.linkImports right rightFiles linker.packed specifiers importer.packed =
        (.ok keys, after.packed) := by
  match specifiers with
  | [] => exact ⟨[], linker, linkImports_nil _ _ _ _, linkImports_nil _ _ _ _⟩
  | specifier :: rest =>
    obtain ⟨key, next, hfirst, hfirst'⟩ := InStep.linkFrom hstep linker specifier
      (some importer) specifier (some importer.packed) (hpairs specifier List.mem_cons_self)
    obtain ⟨keys, after, hrest, hrest'⟩ := InStep.linkImports hstep next rest importer
      fun imported himported => hpairs imported (List.mem_cons_of_mem _ himported)
    refine ⟨key :: keys, after, ?_, ?_⟩
    · rw [linkImports_cons, hfirst]
      simp only [hrest]
      rfl
    · rw [linkImports_cons, hfirst']
      simp only [hrest']
      rfl
  termination_by (left.unseen linker.seen, specifiers.length + 1)
  decreasing_by
    · exact Prod.Lex.right _ (Nat.succ_pos _)
    · have hseen := seen_linkFrom left leftFiles linker specifier (some importer)
      rw [hfirst] at hseen
      rcases Nat.lt_or_eq_of_le (Resolver.unseen_le hseen) with h | h
      · exact Prod.Lex.left _ _ h
      · rw [h]
        exact Prod.Lex.right _ (by simp)

end

section Entries

variable (resolver : Resolver) (files : FileView)

theorem linkEntries_cons (linker : Linker) (specifier : String) (rest : List String) :
    linker.linkEntries resolver files (specifier :: rest) =
      match linkFrom resolver files linker specifier none with
      | (.error e, after) => (.error e, after)
      | (.ok key, after) =>
        ((after.linkEntries resolver files rest).1.map (key :: ·),
          (after.linkEntries resolver files rest).2) := by
  rcases hfirst : linkFrom resolver files linker specifier none with ⟨outcome, after⟩
  have hentry : linker.linkEntry resolver files specifier = (outcome, after) := hfirst
  cases outcome with
  | error e => simp only [linkEntries, hentry]
  | ok key => simp only [linkEntries, hentry]

theorem linkEntries_cons_ok_iff (linker after : Linker) (specifier : String)
    (rest keys : List String) :
    linker.linkEntries resolver files (specifier :: rest) = (.ok keys, after) ↔
      ∃ key next others, linkFrom resolver files linker specifier none = (.ok key, next) ∧
        next.linkEntries resolver files rest = (.ok others, after) ∧ keys = key :: others := by
  rw [linkEntries_cons]
  constructor
  · intro h
    split at h
    · simp at h
    · next key next hfirst =>
      cases hrest : (next.linkEntries resolver files rest).1 with
      | error e => simp [hrest, Except.map] at h
      | ok others =>
        simp only [hrest, Except.map, Prod.mk.injEq, Except.ok.injEq] at h
        exact ⟨key, next, others, hfirst, Prod.ext hrest h.2, h.1.symm⟩
  · rintro ⟨key, next, others, hfirst, hrest, rfl⟩
    simp only [hfirst, hrest]
    rfl

end Entries

/-- Entries that are in step link in step, the right ones by other specifiers. -/
theorem InStep.linkEntries (hstep : InStep left right leftFiles rightFiles pairs)
    (linker : Linker) (entries : List String) (other : String → String)
    (hpairs : ∀ entry ∈ entries, pairs entry none (other entry) none) :
    ∃ keys after, linker.linkEntries left leftFiles entries = (.ok keys, after) ∧
      linker.packed.linkEntries right rightFiles (entries.map other) =
        (.ok keys, after.packed) := by
  induction entries generalizing linker with
  | nil => exact ⟨[], linker, rfl, rfl⟩
  | cons entry rest ih =>
    obtain ⟨key, next, hfirst, hfirst'⟩ := hstep.linkFrom linker entry none (other entry) none
      (hpairs entry List.mem_cons_self)
    obtain ⟨keys, after, hrest, hrest'⟩ := ih next
      fun later hlater => hpairs later (List.mem_cons_of_mem _ hlater)
    refine ⟨key :: keys, after, ?_, ?_⟩
    · exact (linkEntries_cons_ok_iff _ _ _ _ _ _ _).2 ⟨key, next, keys, hfirst, hrest, rfl⟩
    · rw [List.map_cons]
      exact (linkEntries_cons_ok_iff _ _ _ _ _ _ _).2
        ⟨key, next.packed, keys, hfirst', hrest', rfl⟩

section Keys

variable (resolver : Resolver) (files : FileView)

/-- A specifier that names the module of the key it spells. -/
def NamesItself (key : String) : Prop :=
  ∃ loaded, resolver.load files key none = .ok loaded ∧ loaded.identity.key = key

variable {resolver files}

/-- A specifier that names itself is answered with its key, which is seen from then
on. -/
theorem NamesItself.linkFrom (linker after : Linker) (key answer : String)
    (hkey : NamesItself resolver files key)
    (h : Linker.linkFrom resolver files linker key none = (.ok answer, after)) :
    answer = key ∧ key ∈ after.seen := by
  obtain ⟨loaded, hload, rfl⟩ := hkey
  by_cases hseen : loaded.identity.key ∈ linker.seen
  · rw [linkFrom_seen resolver files linker _ none loaded hload hseen] at h
    cases h
    exact ⟨rfl, hseen⟩
  · rw [linkFrom_new resolver files linker _ none loaded hload hseen] at h
    split at h
    · cases h
    · cases h
      exact ⟨rfl, List.mem_append_left _ List.mem_cons_self⟩

theorem linkEntries_keys (linker after : Linker) (entries keys : List String)
    (hkeys : ∀ entry ∈ entries, NamesItself resolver files entry)
    (h : linker.linkEntries resolver files entries = (.ok keys, after)) : keys = entries := by
  induction entries generalizing linker keys with
  | nil =>
    cases h
    rfl
  | cons entry rest ih =>
    obtain ⟨key, next, others, hfirst, hrest, rfl⟩ :=
      (linkEntries_cons_ok_iff _ _ _ _ _ _ _).1 h
    have hkey := ((hkeys entry List.mem_cons_self).linkFrom linker next entry key hfirst).1
    have hlater : ∀ later ∈ rest, NamesItself resolver files later :=
      fun later hmem => hkeys later (List.mem_cons_of_mem _ hmem)
    rw [hkey, ih next others hlater hrest]

/-- What is seen already need not be linked again. -/
theorem linkEntries_filter (linker after : Linker) (entries : List String) (key : String)
    (hkeys : ∀ entry ∈ entries, NamesItself resolver files entry) (hseen : key ∈ linker.seen)
    (h : linker.linkEntries resolver files entries = (.ok entries, after)) :
    linker.linkEntries resolver files (entries.filter (· ≠ key)) =
      (.ok (entries.filter (· ≠ key)), after) := by
  induction entries generalizing linker with
  | nil => exact h
  | cons entry rest ih =>
    obtain ⟨first, next, others, hfirst, hrest, heq⟩ :=
      (linkEntries_cons_ok_iff _ _ _ _ _ _ _).1 h
    obtain ⟨rfl, rfl⟩ := List.cons.inj heq
    have hlater : ∀ later ∈ rest, NamesItself resolver files later :=
      fun later hmem => hkeys later (List.mem_cons_of_mem _ hmem)
    by_cases hsame : entry = key
    · obtain ⟨loaded, hload, hloaded⟩ := hkeys entry List.mem_cons_self
      have hagain := linkFrom_seen resolver files linker entry none loaded hload
        (by rw [hloaded, hsame]; exact hseen)
      rw [hfirst, Prod.mk.injEq] at hagain
      rw [List.filter_cons_of_neg (by simpa using hsame)]
      exact ih linker hlater hseen (hagain.2 ▸ hrest)
    · have hkept : key ∈ next.seen := by
        have hmono := seen_linkFrom resolver files linker entry none key hseen
        rwa [hfirst] at hmono
      rw [List.filter_cons_of_pos (by simpa using hsame)]
      exact (linkEntries_cons_ok_iff _ _ _ _ _ _ _).2
        ⟨entry, next, _, hfirst, ih next hlater hkept hrest, rfl⟩

/-- Linking every entry once leaves behind the same linker as linking them all. -/
theorem linkEntries_distinct (linker after : Linker) (entries : List String)
    (hkeys : ∀ entry ∈ entries, NamesItself resolver files entry)
    (h : linker.linkEntries resolver files entries = (.ok entries, after)) :
    linker.linkEntries resolver files (distinct entries) = (.ok (distinct entries), after) := by
  induction entries generalizing linker with
  | nil => exact h
  | cons entry rest ih =>
    obtain ⟨first, next, others, hfirst, hrest, heq⟩ :=
      (linkEntries_cons_ok_iff _ _ _ _ _ _ _).1 h
    obtain ⟨rfl, rfl⟩ := List.cons.inj heq
    have hlater : ∀ later ∈ rest, NamesItself resolver files later :=
      fun later hmem => hkeys later (List.mem_cons_of_mem _ hmem)
    have hseen := ((hkeys entry List.mem_cons_self).linkFrom linker next entry entry hfirst).2
    have hdistinct := linkEntries_filter next after (distinct rest) entry
      (fun later hmem => hlater later (mem_distinct.1 hmem)) hseen (ih next hlater hrest)
    exact (linkEntries_cons_ok_iff _ _ _ _ _ _ _).2
      ⟨entry, next, _, hfirst, hdistinct, rfl⟩

end Keys

end Linker

end ModuleLoading
