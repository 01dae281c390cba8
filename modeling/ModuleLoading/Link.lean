import ModuleLoading.Attainable
import ModuleLoading.Source.Outline

/-!
Linking loads a module together with everything it imports statically, depth
first and in the order the imports are declared, so that modules come to stand
after what they import. A module that is linked already, or whose imports are
being linked just now, is not loaded twice; that ends the walk on cyclic imports.
A linking that fails leaves behind the modules linked so far, and the modules
whose imports it was at stay marked.
-/
namespace ModuleLoading

structure LinkedModule where
  identity : Identity
  origin : Origin
  path : Option String
  imports : List String
  exports : List String
  dynamicImports : List String
  deriving Repr, DecidableEq

/-- The modules linked so far in the order of their evaluation, where each of them
stands, the latest entry first, and the keys of those that are in progress. -/
structure Linker where
  modules : List LinkedModule
  index : List (String × Nat)
  inProgress : List String
  deriving Repr, DecidableEq

namespace Linker

def empty : Linker := ⟨[], [], []⟩

def keys (linker : Linker) : List String := linker.modules.map fun m => m.identity.key

def indexed (linker : Linker) : List String := linker.index.map Prod.fst

/-- The keys that a walk does not come to again. -/
def seen (linker : Linker) : List String := linker.indexed ++ linker.inProgress

def position? (linker : Linker) (key : String) : Option Nat := linker.index.lookup key

def get? (linker : Linker) (key : String) : Option LinkedModule :=
  (linker.position? key).bind fun position => linker.modules[position]?

def start (linker : Linker) (key : String) : Linker :=
  ⟨linker.modules, linker.index, key :: linker.inProgress⟩

def finish (linker : Linker) (m : LinkedModule) : Linker where
  modules := linker.modules ++ [m]
  index := (m.identity.key, linker.modules.length) :: linker.index
  inProgress := linker.inProgress.filter (· ≠ m.identity.key)

theorem seen_start (linker : Linker) (key : String) :
    ∀ k ∈ linker.seen, k ∈ (linker.start key).seen := by
  intro k hk
  rcases List.mem_append.1 hk with hk | hk
  · exact List.mem_append_left _ hk
  · exact List.mem_append_right _ (List.mem_cons_of_mem _ hk)

theorem mem_seen_start (linker : Linker) (key : String) : key ∈ (linker.start key).seen :=
  List.mem_append_right _ List.mem_cons_self

theorem seen_finish (linker : Linker) (m : LinkedModule) :
    ∀ k ∈ linker.seen, k ∈ (linker.finish m).seen := by
  intro k hk
  rcases List.mem_append.1 hk with hk | hk
  · exact List.mem_append_left _ (List.mem_cons_of_mem _ hk)
  · by_cases heq : k = m.identity.key
    · exact List.mem_append_left _ (heq ▸ List.mem_cons_self)
    · exact List.mem_append_right _ (List.mem_filter.2 ⟨hk, by simpa using heq⟩)

/-- What a walk from some linker answers and leaves behind. It unmarks nothing. -/
structure Walk (before : Linker) (α : Type) where
  outcome : Except LoadError α
  after : Linker
  seen_after : ∀ k ∈ before.seen, k ∈ after.seen

def linkedModule (loaded : Loaded) (outline : Source.Outline) (imports : List String) :
    LinkedModule where
  identity := loaded.identity
  origin := loaded.origin
  path := loaded.path
  imports := imports
  exports := outline.exportedNames
  dynamicImports := outline.dynamicImports

mutual

/-- Links what a specifier names as seen from its importer. -/
def walk (resolver : Resolver) (files : FileView) (linker : Linker) (specifier : String)
    (referrer : Option Identity) : Walk linker String :=
  match _ : resolver.load files specifier referrer with
  | .error e => ⟨.error e, linker, fun _ hk => hk⟩
  | .ok loaded =>
    let key := loaded.identity.key
    if _ : key ∈ linker.seen then ⟨.ok key, linker, fun _ hk => hk⟩
    else
      let outline := Source.outline loaded.text
      let imports := walkAll resolver files (linker.start key) outline.staticSpecifiers
        loaded.identity
      match imports.outcome with
      | .error e =>
        ⟨.error e, imports.after, fun k hk => imports.seen_after k (linker.seen_start key k hk)⟩
      | .ok keys =>
        ⟨.ok key, imports.after.finish (linkedModule loaded outline keys), fun k hk =>
          seen_finish _ _ k (imports.seen_after k (linker.seen_start key k hk))⟩
  termination_by (resolver.unseen linker.seen, 0)
  decreasing_by
    refine Prod.Lex.left _ _ ?_
    exact Resolver.unseen_lt (linker.seen_start key) (attainable_of_load ‹_›) ‹_›
      (linker.mem_seen_start key)

/-- Links the imports of one module one after the other. -/
def walkAll (resolver : Resolver) (files : FileView) (linker : Linker) (specifiers : List String)
    (importer : Identity) : Walk linker (List String) :=
  match specifiers with
  | [] => ⟨.ok [], linker, fun _ hk => hk⟩
  | specifier :: rest =>
    let first := walk resolver files linker specifier (some importer)
    match first.outcome with
    | .error e => ⟨.error e, first.after, first.seen_after⟩
    | .ok key =>
      let others := walkAll resolver files first.after rest importer
      ⟨others.outcome.map (key :: ·), others.after, fun k hk =>
        others.seen_after k (first.seen_after k hk)⟩
  termination_by (resolver.unseen linker.seen, specifiers.length + 1)
  decreasing_by
    · exact Prod.Lex.right _ (Nat.succ_pos _)
    · rcases Nat.lt_or_eq_of_le (Resolver.unseen_le first.seen_after) with h | h
      · exact Prod.Lex.left _ _ h
      · rw [h]
        exact Prod.Lex.right _ (by simp)

end

/-- Links a module named from the working directory. -/
def linkEntry (linker : Linker) (resolver : Resolver) (files : FileView) (specifier : String) :
    Except LoadError String × Linker :=
  let step := walk resolver files linker specifier none
  (step.outcome, step.after)

/-- Links a module that a linked one imports at run time. -/
def importDynamic (linker : Linker) (resolver : Resolver) (files : FileView) (specifier : String)
    (referrer : Identity) : Except LoadError String × Linker :=
  let step := walk resolver files linker specifier (some referrer)
  (step.outcome, step.after)

/-- Imports one module after the other at run time, up to the first that fails. -/
def importAll (linker : Linker) (resolver : Resolver) (files : FileView) (referrer : Identity) :
    List String → Except LoadError (List String) × Linker
  | [] => (.ok [], linker)
  | specifier :: rest =>
    match linker.importDynamic resolver files specifier referrer with
    | (.error e, linker) => (.error e, linker)
    | (.ok key, linker) =>
      let (outcome, linker) := importAll linker resolver files referrer rest
      (outcome.map (key :: ·), linker)

/-- Links one module after the other up to the first that fails. -/
def linkEntries (linker : Linker) (resolver : Resolver) (files : FileView) :
    List String → Except LoadError (List String) × Linker
  | [] => (.ok [], linker)
  | specifier :: rest =>
    match linker.linkEntry resolver files specifier with
    | (.error e, linker) => (.error e, linker)
    | (.ok key, linker) =>
      let (outcome, linker) := linkEntries linker resolver files rest
      (outcome.map (key :: ·), linker)

end Linker

end ModuleLoading
