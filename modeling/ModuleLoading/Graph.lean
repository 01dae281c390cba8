import ModuleLoading.Attainable
import ModuleLoading.Disk
import ModuleLoading.Source.Outline

/-!
The dependency graph of a program holds every module that its roots need,
directly or not. The roots are resolved first, entries before forced ones; then
the modules are scanned in the order they were found, and every import that leads
to a module not met before brings that module in. Builtin modules of the engine
are only noted, and so are static imports that lead nowhere; a root that leads
nowhere is an error.
-/
namespace ModuleLoading

structure GraphModule where
  identity : Identity
  path : Option String
  source : Bytes
  imports : List String
  deriving Repr, DecidableEq

namespace GraphModule

def key (m : GraphModule) : String := m.identity.key

end GraphModule

structure UnresolvedImport where
  importer : String
  specifier : String
  deriving Repr, DecidableEq

/-- Modules and engine modules stand in ascending order of their keys. -/
structure Graph where
  entries : List String
  forced : List String
  modules : List GraphModule
  engineModules : List String
  unresolved : List UnresolvedImport
  deriving Repr, DecidableEq

namespace Graph

def keys (graph : Graph) : List String := graph.modules.map GraphModule.key

def contains (graph : Graph) (key : String) : Bool := decide (key ∈ graph.keys)

/-- Every importer with each of the modules it imports. -/
def edges (graph : Graph) : List (String × String) :=
  graph.modules.flatMap fun m => m.imports.map fun imported => (m.key, imported)

/-- A module as it is found, before its imports are known. -/
def fetch (disk : Disk) (resolved : Resolved) : Except LoadError GraphModule :=
  match disk.read resolved with
  | .error e => .error e
  | .ok loaded => .ok ⟨loaded.identity, loaded.path, loaded.code, []⟩

/-- What the roots handled so far have brought in. -/
structure Rooted where
  entries : List String
  forced : List String
  found : List GraphModule
  engine : List String
  deriving Repr, DecidableEq

inductive RootKind
  | entry
  | forced
  deriving Repr, DecidableEq

def Rooted.note (rooted : Rooted) (key : String) : RootKind → Rooted
  | .entry => { rooted with entries := rooted.entries ++ [key] }
  | .forced => { rooted with forced := rooted.forced ++ [key] }

def embeddable : LoadError → LoadError
  | .notFound specifier => .notEmbeddable specifier
  | e => e

def addRoot (resolver : Resolver) (disk : Disk) (rooted : Rooted) (kind : RootKind)
    (specifier : String) : Except LoadError Rooted :=
  match resolver.resolve disk.files specifier .workingDirectory with
  | .error e => .error (embeddable e)
  | .ok resolved =>
    let key := resolved.identity.key
    if resolved.content.origin = .engine then .ok { rooted with engine := rooted.engine ++ [key] }
    else
      let noted := rooted.note key kind
      if key ∈ rooted.found.map GraphModule.key then .ok noted
      else
        match fetch disk resolved with
        | .error e => .error e
        | .ok m => .ok { noted with found := noted.found ++ [m] }

def addRoots (resolver : Resolver) (disk : Disk) (kind : RootKind) :
    Rooted → List String → Except LoadError Rooted
  | rooted, [] => .ok rooted
  | rooted, specifier :: rest =>
    match addRoot resolver disk rooted kind specifier with
    | .error e => .error e
    | .ok rooted => addRoots resolver disk kind rooted rest

/-- What the imports of one module handled so far have brought up. -/
structure Scanned where
  imports : List String
  fresh : List GraphModule
  engine : List String
  unresolved : List UnresolvedImport
  deriving Repr, DecidableEq

/-- Handles one import of a module when modules of the given keys have been met
before. -/
def scanImport (resolver : Resolver) (disk : Disk) (met : List String) (importer : Identity)
    (scanned : Scanned) (specifier : String) : Except LoadError Scanned :=
  match resolver.resolve disk.files specifier importer.baseDir with
  | .error (.notFound _) =>
    .ok { scanned with unresolved := scanned.unresolved ++ [⟨importer.key, specifier⟩] }
  | .error e => .error e
  | .ok resolved =>
    let key := resolved.identity.key
    if resolved.content.origin = .engine then .ok { scanned with engine := scanned.engine ++ [key] }
    else
      let imports := if key ∈ scanned.imports then scanned.imports else scanned.imports ++ [key]
      if key ∈ met ∨ key ∈ scanned.fresh.map GraphModule.key then .ok { scanned with imports }
      else
        match fetch disk resolved with
        | .error e => .error e
        | .ok m => .ok { scanned with imports, fresh := scanned.fresh ++ [m] }

def scanImports (resolver : Resolver) (disk : Disk) (met : List String)
    (importer : Identity) : Scanned → List String → Except LoadError Scanned
  | scanned, [] => .ok scanned
  | scanned, specifier :: rest =>
    match scanImport resolver disk met importer scanned specifier with
    | .error e => .error e
    | .ok scanned => scanImports resolver disk met importer scanned rest

def staticSpecifiers (m : GraphModule) : List String :=
  (Source.outline (Utf8.lossy m.source)).staticSpecifiers

def scan (resolver : Resolver) (disk : Disk) (met : List String) (m : GraphModule)
    (engine : List String) (unresolved : List UnresolvedImport) : Except LoadError Scanned :=
  scanImports resolver disk met m.identity ⟨[], [], engine, unresolved⟩
    (staticSpecifiers m)

private theorem key_of_fetch {disk : Disk} {resolved : Resolved} {m : GraphModule}
    (h : fetch disk resolved = .ok m) : m.key = resolved.identity.key := by
  unfold fetch at h
  split at h
  · cases h
  · next hread =>
    cases h
    exact congrArg Identity.key (identity_of_read (Disk.read_eq_ok hread))

private theorem fresh_of_scanImport {resolver : Resolver} {disk : Disk} {met : List String}
    {importer : Identity} {scanned after : Scanned} {specifier : String}
    (h : scanImport resolver disk met importer scanned specifier = .ok after) :
    ∀ m ∈ after.fresh, m ∈ scanned.fresh ∨
      (resolver.Attainable m.key ∧ m.key ∉ met) := by
  intro m hmem
  simp only [scanImport] at h
  split at h
  · cases h; exact .inl hmem
  · cases h
  · next resolved hresolve =>
    split at h
    · cases h; exact .inl hmem
    · split at h
      · cases h; exact .inl hmem
      · next hnew =>
        split at h
        · cases h
        · next hfetch =>
          cases h
          rcases List.mem_append.1 hmem with hmem | hmem
          · exact .inl hmem
          · rw [List.mem_singleton.1 hmem, key_of_fetch hfetch]
            exact .inr ⟨attainable_of_resolve hresolve, fun hmet => hnew (.inl hmet)⟩

/-- A module is brought in only when it has not been met, and has one of the
finitely many keys of its resolver. -/
theorem fresh_of_scanImports {resolver : Resolver} {disk : Disk} {met : List String}
    {importer : Identity} {scanned after : Scanned} {specifiers : List String}
    (h : scanImports resolver disk met importer scanned specifiers = .ok after) :
    ∀ m ∈ after.fresh, m ∈ scanned.fresh ∨
      (resolver.Attainable m.key ∧ m.key ∉ met) := by
  induction specifiers generalizing scanned with
  | nil => cases h; exact fun _ hmem => .inl hmem
  | cons specifier rest ih =>
    unfold scanImports at h
    split at h
    · cases h
    · next hstep =>
      intro m hmem
      rcases ih h m hmem with hmem | hnew
      · exact fresh_of_scanImport hstep m hmem
      · exact .inr hnew

/-- The keys of the modules met so far. -/
def met (done pending : List GraphModule) : List String :=
  done.map GraphModule.key ++ pending.map GraphModule.key

private theorem met_step (done pending fresh : List GraphModule) (m scanned : GraphModule)
    (hkey : scanned.key = m.key) :
    met (done ++ [scanned]) (pending ++ fresh) =
      met done (m :: pending) ++ fresh.map GraphModule.key := by
  simp [met, hkey]

structure Explored where
  modules : List GraphModule
  engine : List String
  unresolved : List UnresolvedImport
  deriving Repr, DecidableEq

/-- Scans the pending modules in turn. Those brought in wait behind them. -/
def explore (resolver : Resolver) (disk : Disk) (done pending : List GraphModule)
    (engine : List String) (unresolved : List UnresolvedImport) : Except LoadError Explored :=
  match pending with
  | [] => .ok ⟨done, engine, unresolved⟩
  | m :: pending =>
    match hscan : scan resolver disk (met done (m :: pending)) m engine unresolved with
    | .error e => .error e
    | .ok scanned =>
      explore resolver disk (done ++ [{ m with imports := scanned.imports }])
        (pending ++ scanned.fresh) scanned.engine scanned.unresolved
  termination_by (resolver.unseen (met done pending), pending.length)
  decreasing_by
    rw [met_step done pending scanned.fresh m { m with imports := scanned.imports } rfl]
    cases hfresh : scanned.fresh with
    | nil =>
      simp only [List.map_nil, List.append_nil]
      exact Prod.Lex.right _ (by simp)
    | cons found rest =>
      refine Prod.Lex.left _ _ ?_
      have hmem : found ∈ scanned.fresh := hfresh ▸ List.mem_cons_self
      rcases fresh_of_scanImports hscan found hmem with hnone | ⟨hattainable, hnew⟩
      · cases hnone
      · exact Resolver.unseen_lt (fun _ hk => List.mem_append_left _ hk) hattainable hnew
          (List.mem_append_right _ List.mem_cons_self)

def ascendingModules (modules : List GraphModule) : List GraphModule :=
  modules.foldl (fun sorted m => insertByKey GraphModule.key m sorted) []

def ascendingNames (names : List String) : List String :=
  names.foldl (fun sorted name => insertByKey id name sorted) []

def ofRoots (resolver : Resolver) (disk : Disk) (entries forced : List String) :
    Except LoadError Graph :=
  match addRoots resolver disk .entry ⟨[], [], [], []⟩ entries with
  | .error e => .error e
  | .ok rooted =>
    match addRoots resolver disk .forced rooted forced with
    | .error e => .error e
    | .ok rooted =>
      match explore resolver disk [] rooted.found rooted.engine [] with
      | .error e => .error e
      | .ok explored =>
        .ok ⟨rooted.entries, rooted.forced, ascendingModules explored.modules,
          ascendingNames explored.engine, explored.unresolved⟩

end Graph

end ModuleLoading
