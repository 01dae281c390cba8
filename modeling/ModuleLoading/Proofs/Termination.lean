import Mathlib
import ModuleLoading.Proofs.Discovery
import ModuleLoading.Proofs.LinkingRuns

/-!
Discovery and linking come to an end on every file system, endless ones included. The
keys of a resolver are finitely many, since a key from disk is no longer than a candidate
may be. Both walks are run here with a limit and under watch: they give up when the limit
is reached, when a module is taken from the queue that was taken before, or when a module
comes under those being linked that is among them already. With enough room they never
give up and do what the walks do. The limit depends on the resolver alone.
-/
namespace ModuleLoading

/-- The key of whatever is resolved to a file fits the candidate limit. -/
theorem Resolver.size_of_resolve (resolver : Resolver) (files : FileView) (raw : String)
    (base : BaseDir) (found : Resolved) (path : String)
    (h : resolver.resolve files raw base = .ok found) (hfile : found.content = .file path) :
    found.identity.key.utf8ByteSize ≤ resolver.settings.candidateLimit :=
  size_of_file? (resolver.file?_of_content files raw base found path h hfile)

namespace Graph

/-- The walk of discovery, watched. -/
def exploreWithin (resolver : Resolver) (files : FileView) :
    Nat → List GraphModule → List GraphModule → List String → List UnresolvedImport →
      Option (Except LoadError Explored)
  | _, done, [], engine, unresolved => some (.ok ⟨done, engine, unresolved⟩)
  | 0, _, _ :: _, _, _ => none
  | limit + 1, done, m :: pending, engine, unresolved =>
    if m.key ∈ done.map GraphModule.key then none
    else
      match scan resolver files (met done (m :: pending)) m engine unresolved with
      | .error e => some (.error e)
      | .ok scanned =>
        exploreWithin resolver files limit (done ++ [{ m with imports := scanned.imports }])
          (pending ++ scanned.fresh) scanned.engine scanned.unresolved

/-- Discovery with its walk watched. -/
def ofRootsWithin (resolver : Resolver) (files : FileView) (limit : Nat)
    (entries forced : List String) : Option (Except LoadError Graph) :=
  match addRoots resolver files .entry ⟨[], [], [], []⟩ entries with
  | .error e => some (.error e)
  | .ok rooted =>
    match addRoots resolver files .forced rooted forced with
    | .error e => some (.error e)
    | .ok rooted =>
      (exploreWithin resolver files limit [] rooted.found rooted.engine []).map fun outcome =>
        outcome.map fun explored =>
          ⟨rooted.entries, rooted.forced, ascendingModules explored.modules,
            ascendingNames explored.engine, explored.unresolved⟩

/-- Different keys that their resolver can come to. -/
structure Apart (resolver : Resolver) (keys : List String) : Prop where
  nodup : keys.Nodup
  attainable : ∀ key ∈ keys, resolver.Attainable key

section Walks

variable {resolver : Resolver} {files : FileView}

theorem Apart.length_le {keys : List String} (h : Apart resolver keys) :
    keys.length ≤ resolver.attainableKeys.length := by
  have hsubset : keys ⊆ resolver.attainableKeys :=
    fun key hkey => Resolver.mem_attainableKeys (h.attainable key hkey)
  exact (List.subperm_of_subset h.nodup hsubset).length_le

theorem Asks.apart {query : Query} {before after : Notes}
    (h : Asks resolver files query before after)
    (hbefore : Apart resolver (before.modules.map GraphModule.key)) :
    Apart resolver (after.modules.map GraphModule.key) := by
  cases h with
  | missing specifier note hanswer => exact hbefore
  | engine found hanswer horigin => exact hbefore
  | again found hfound hmet => exact hbefore
  | fresh found m hfound hnew hfetch =>
    obtain ⟨hanswer, _⟩ := (query.found?_eq_some_iff resolver files found).1 hfound
    have hkey : m.key = found.identity.key :=
      congrArg Identity.key (identity_of_fetch files found m hfetch)
    have hattainable : resolver.Attainable m.key := hkey ▸ attainable_of_resolve hanswer
    rw [List.map_append]
    exact ⟨Table.nodup_concat hbefore.nodup (hkey ▸ hnew),
      forall_mem_concat.2 ⟨hbefore.attainable, hattainable⟩⟩

theorem apart_of_addRoots (kind : RootKind) (rooted after : Rooted) (specifiers : List String)
    (h : addRoots resolver files kind rooted specifiers = .ok after)
    (hrooted : Apart resolver (rooted.found.map GraphModule.key)) :
    Apart resolver (after.found.map GraphModule.key) := by
  induction specifiers generalizing rooted with
  | nil =>
    cases h
    exact hrooted
  | cons specifier rest ih =>
    rw [addRoots] at h
    split at h
    · cases h
    · next next hroot => exact ih next h ((asks_of_addRoot _ _ _ _ hroot).apart hrooted)

theorem apart_of_scanImports (known : List GraphModule) (importer : Identity)
    (scanned after : Scanned) (specifiers : List String)
    (h : scanImports resolver files (known.map GraphModule.key) importer scanned specifiers =
      .ok after)
    (hknown : Apart resolver ((known ++ scanned.fresh).map GraphModule.key)) :
    Apart resolver ((known ++ after.fresh).map GraphModule.key) := by
  induction specifiers generalizing scanned with
  | nil =>
    cases h
    exact hknown
  | cons specifier rest ih =>
    rw [scanImports] at h
    split at h
    · cases h
    · next next hstep =>
      exact ih next h ((asks_of_scanImport known importer scanned next specifier hstep).apart hknown)

/-- Scanning a module brings in others with new keys. -/
theorem apart_of_scan (done pending : List GraphModule) (m : GraphModule) (engine : List String)
    (unresolved : List UnresolvedImport) (scanned : Scanned)
    (h : scan resolver files (met done (m :: pending)) m engine unresolved = .ok scanned)
    (hknown : Apart resolver (met done (m :: pending))) :
    Apart resolver (met (done ++ [{ m with imports := scanned.imports }])
      (pending ++ scanned.fresh)) := by
  have hmet : met done (m :: pending) = (done ++ m :: pending).map GraphModule.key := by
    rw [met, List.map_append]
  rw [scan, hmet] at h
  rw [hmet] at hknown
  have hscanned := apart_of_scanImports (done ++ m :: pending) m.identity
    ⟨[], [], engine, unresolved⟩ scanned (staticSpecifiers m) h (by rwa [List.append_nil])
  have hkeys : met (done ++ [{ m with imports := scanned.imports }]) (pending ++ scanned.fresh) =
      (done ++ m :: pending ++ scanned.fresh).map GraphModule.key := by
    simp [met, GraphModule.key]
  rw [hkeys]
  exact hscanned

theorem explore_cons_error (done pending : List GraphModule) (m : GraphModule)
    (engine : List String) (unresolved : List UnresolvedImport) (e : LoadError)
    (h : scan resolver files (met done (m :: pending)) m engine unresolved = .error e) :
    explore resolver files done (m :: pending) engine unresolved = .error e := by
  rw [explore]
  split
  · next e' h' =>
    rw [h] at h'
    cases h'
    rfl
  · next scanned h' =>
    rw [h] at h'
    cases h'

/-- The turns suffice if there are as many as keys that were not taken yet. -/
theorem exploreWithin_eq (files : FileView) (limit : Nat) (done pending : List GraphModule)
    (engine : List String) (unresolved : List UnresolvedImport)
    (hapart : Apart resolver (met done pending))
    (hlimit : resolver.attainableKeys.length ≤ done.length + limit) :
    exploreWithin resolver files limit done pending engine unresolved =
      some (explore resolver files done pending engine unresolved) := by
  induction limit generalizing done pending engine unresolved with
  | zero =>
    cases pending with
    | nil => rw [exploreWithin, explore_nil]
    | cons m pending =>
      have hlength := hapart.length_le
      simp only [met, List.length_append, List.length_map, List.length_cons] at hlength
      omega
  | succ limit ih =>
    cases pending with
    | nil => rw [exploreWithin, explore_nil]
    | cons m pending =>
      have hnew : m.key ∉ done.map GraphModule.key := by
        intro hmem
        have hnodup := hapart.nodup
        rw [met, List.nodup_append] at hnodup
        exact hnodup.2.2 m.key hmem m.key List.mem_cons_self rfl
      rw [exploreWithin, if_neg hnew]
      cases hscan : scan resolver files (met done (m :: pending)) m engine unresolved with
      | error e => rw [explore_cons_error done pending m engine unresolved e hscan]
      | ok scanned =>
        rw [explore_cons resolver files done pending m engine unresolved scanned hscan]
        apply ih
        · exact apart_of_scan done pending m engine unresolved scanned hscan hapart
        · rw [List.length_append, List.length_singleton]
          omega

theorem ofRootsWithin_eq (limit : Nat) (entries forced : List String)
    (hlimit : resolver.attainableKeys.length ≤ limit) :
    ofRootsWithin resolver files limit entries forced =
      some (ofRoots resolver files entries forced) := by
  have hnone : Apart resolver (([] : List GraphModule).map GraphModule.key) :=
    ⟨List.nodup_nil, by simp⟩
  rw [ofRootsWithin, ofRoots]
  cases hentries : addRoots resolver files .entry ⟨[], [], [], []⟩ entries with
  | error e => rfl
  | ok rooted =>
    have hrooted := apart_of_addRoots _ _ rooted entries hentries hnone
    cases hforced : addRoots resolver files .forced rooted forced with
    | error e => simp only [hforced]
    | ok rooted' =>
      have hrooted' := apart_of_addRoots _ _ rooted' forced hforced hrooted
      have hexplore := exploreWithin_eq files limit [] rooted'.found rooted'.engine []
        hrooted' (by simpa using hlimit)
      simp only [hforced, hexplore, Option.map_some]
      cases explore resolver files [] rooted'.found rooted'.engine [] with
      | error e => rfl
      | ok explored => rfl

end Walks

end Graph

namespace Linker

/-- Links one specifier after the other by the given step, which may give up. -/
def inTurn (step : Linker → String → Option (Except LoadError String × Linker)) :
    Linker → List String → Option (Except LoadError (List String) × Linker)
  | linker, [] => some (.ok [], linker)
  | linker, specifier :: rest =>
    match step linker specifier with
    | none => none
    | some (.error e, after) => some (.error e, after)
    | some (.ok key, after) =>
      (inTurn step after rest).map fun others => (others.1.map (key :: ·), others.2)

/-- Linking, watched: the stack holds the modules whose imports are being linked around
this call, the innermost first. -/
def linkWithin (resolver : Resolver) (files : FileView) :
    Nat → List String → Linker → String → Option Identity →
      Option (Except LoadError String × Linker)
  | 0, _, _, _, _ => none
  | limit + 1, stack, linker, specifier, referrer =>
    match resolver.load files specifier referrer with
    | .error e => some (.error e, linker)
    | .ok loaded =>
      let key := loaded.identity.key
      if key ∈ linker.seen then some (.ok key, linker)
      else if key ∈ stack then none
      else
        let outline := Source.outline loaded.text
        let step := fun next imported =>
          linkWithin resolver files limit (key :: stack) next imported (some loaded.identity)
        (inTurn step (linker.start key) outline.staticSpecifiers).map fun imports =>
          match imports with
          | (.error e, after) => (.error e, after)
          | (.ok keys, after) => (.ok key, after.finish (linkedModule loaded outline keys))

section Walks

variable {resolver : Resolver} {files : FileView}

/-- Imports are linked in turn as long as each step has the room that it needs. -/
theorem inTurn_eq (files : FileView)
    (step : Linker → String → Option (Except LoadError String × Linker)) (limit : Nat)
    (stack : List String) (importer : Identity)
    (hstep : ∀ linker specifier, (∀ key ∈ stack, key ∈ linker.inProgress) →
      resolver.unseen linker.seen < limit →
      step linker specifier = some (linkFrom resolver files linker specifier (some importer)))
    (linker : Linker) (specifiers : List String)
    (hstack : ∀ key ∈ stack, key ∈ linker.inProgress)
    (hlimit : resolver.unseen linker.seen < limit) :
    inTurn step linker specifiers =
      some (linkImports resolver files linker specifiers importer) := by
  induction specifiers generalizing linker with
  | nil => rw [inTurn, linkImports_nil]
  | cons specifier rest ih =>
    rw [inTurn, hstep linker specifier hstack hlimit, linkImports_cons]
    rcases hfirst : linkFrom resolver files linker specifier (some importer) with ⟨outcome, after⟩
    cases outcome with
    | error e => rfl
    | ok key =>
      have hprogress : after.inProgress = linker.inProgress :=
        (links_of_linkFrom hfirst).inProgress_eq
      have hseen := seen_linkFrom resolver files linker specifier (some importer)
      rw [hfirst] at hseen
      have hrest := ih after (by rwa [hprogress])
        (Nat.lt_of_le_of_lt (Resolver.unseen_le hseen) hlimit)
      simp only [hrest, Option.map_some]

/-- The recursion goes no deeper than there are keys that were not seen yet. -/
theorem linkWithin_eq (limit : Nat) (stack : List String) (linker : Linker) (specifier : String)
    (referrer : Option Identity) (hstack : ∀ key ∈ stack, key ∈ linker.inProgress)
    (hlimit : resolver.unseen linker.seen < limit) :
    linkWithin resolver files limit stack linker specifier referrer =
      some (linkFrom resolver files linker specifier referrer) := by
  induction limit generalizing stack linker specifier referrer with
  | zero => omega
  | succ limit ih =>
    rw [linkWithin]
    cases hload : resolver.load files specifier referrer with
    | error e =>
      rw [linkFrom_unloaded resolver files linker specifier referrer e hload]
    | ok loaded =>
      by_cases hseen : loaded.identity.key ∈ linker.seen
      · rw [linkFrom_seen resolver files linker specifier referrer loaded hload hseen]
        simp only [if_pos hseen]
      · have hnew : loaded.identity.key ∉ stack :=
          fun hmem => not_mem_inProgress hseen (hstack _ hmem)
        have hstart : ∀ key ∈ loaded.identity.key :: stack,
            key ∈ (linker.start loaded.identity.key).inProgress := by
          intro key hkey
          rcases List.mem_cons.1 hkey with rfl | hkey
          · exact List.mem_cons_self
          · exact List.mem_cons_of_mem _ (hstack key hkey)
        have hfewer : resolver.unseen (linker.start loaded.identity.key).seen <
            resolver.unseen linker.seen :=
          Resolver.unseen_lt (linker.seen_start _) (attainable_of_load hload) hseen
            (linker.mem_seen_start _)
        have himports := inTurn_eq files _ limit (loaded.identity.key :: stack)
          loaded.identity
          (fun next imported hnext hroom => ih (loaded.identity.key :: stack) next imported
            (some loaded.identity) hnext hroom)
          (linker.start loaded.identity.key) (Source.outline loaded.text).staticSpecifiers hstart
          (by omega)
        rw [linkFrom_new resolver files linker specifier referrer loaded hload hseen]
        simp only [if_neg hseen, if_neg hnew]
        refine (congrArg (Option.map _) himports).trans ?_
        rfl

end Walks

end Linker

/-- Whatever the files are, discovery and linking end, with a result or an error. No key
from disk is longer than a candidate may be, discovery takes no module from its queue
twice, and linking comes to no module whose imports it is at. -/
theorem ends_on_every_file_system (resolver : Resolver) :
    ∃ limit, ∀ files : FileView,
      (∀ raw base found path, resolver.resolve files raw base = .ok found →
        found.content = .file path →
        found.identity.key.utf8ByteSize ≤ resolver.settings.candidateLimit) ∧
      (∀ entries forced, Graph.ofRootsWithin resolver files limit entries forced =
        some (Graph.ofRoots resolver files entries forced)) ∧
      (∀ linker : Linker, ∀ specifier,
        Linker.linkWithin resolver files limit [] linker specifier none =
          some (linker.linkEntry resolver files specifier)) ∧
      (∀ linker : Linker, ∀ specifier referrer,
        Linker.linkWithin resolver files limit [] linker specifier (some referrer) =
          some (linker.importDynamic resolver files specifier referrer)) := by
  refine ⟨resolver.attainableKeys.length + 1, ?_⟩
  intro files
  refine ⟨?_, ?_, ?_, ?_⟩
  · exact resolver.size_of_resolve files
  · intro entries forced
    exact Graph.ofRootsWithin_eq _ entries forced (Nat.le_succ _)
  · intro linker specifier
    exact Linker.linkWithin_eq _ [] linker specifier none (by simp)
      (Nat.lt_succ_of_le List.countP_le_length)
  · intro linker specifier referrer
    exact Linker.linkWithin_eq _ [] linker specifier (some referrer) (by simp)
      (Nat.lt_succ_of_le List.countP_le_length)

-- Every path is a file, and each file imports one that lies further up. Linking ends where the
-- path would be too long.
namespace EndlessFiles

def files : FileView := fun _ => .ok (.file (Utf8.encode "import '../x';\n"))

def resolver : Resolver := ⟨{ candidateLimit := 8 }, .empty, .none⟩

example : Linker.linkWithin resolver files 4 [] .empty "./a" none =
    some (.error (.candidateTooLong 10 8), ⟨[], [], ["../../x", "../x", "./a"]⟩) := by
  cbv

end EndlessFiles

end ModuleLoading
