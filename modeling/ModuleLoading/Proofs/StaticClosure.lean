import ModuleLoading.Proofs.BuiltTable

/-!
Discovery computes the static closure of its roots. What a query comes to is read off
its answer alone: a file, a builtin of the engine, or nothing. The notes of a walk are
then lists over the queries it asked, module by module in the order scanned, and the
modules are those that the recorded imports lead to. Main statement:
`static_closure_of_ofRoots`.
-/
namespace ModuleLoading

namespace Query

variable (resolver : Resolver) (files : FileView)

/-- The key of the answer, if it comes from the given origin. -/
def keyFrom? (origin : Origin) (query : Query) : Option String :=
  match query.answer resolver files with
  | .ok found => if found.content.origin = origin then some found.identity.key else none
  | .error _ => none

/-- What is noted of a query that leads nowhere. -/
def missing? (importer : String) (query : Query) : Option UnresolvedImport :=
  match query.answer resolver files with
  | .error (.notFound _) => some ⟨importer, query.specifier⟩
  | _ => none

def foundKey? (query : Query) : Option String :=
  (query.found? resolver files).map fun found => found.identity.key

theorem keyFrom?_eq_some_iff (origin : Origin) (query : Query) (key : String) :
    query.keyFrom? resolver files origin = some key ↔
      ∃ found, query.answer resolver files = .ok found ∧ found.content.origin = origin ∧
        found.identity.key = key := by
  rw [keyFrom?]
  cases query.answer resolver files with
  | error e => simp
  | ok found =>
    by_cases horigin : found.content.origin = origin
    · simp [horigin]
    · simp [horigin]

theorem missing?_eq_some_iff (importer : String) (query : Query) (note : UnresolvedImport) :
    query.missing? resolver files importer = some note ↔
      (∃ name, query.answer resolver files = .error (.notFound name)) ∧
        note = ⟨importer, query.specifier⟩ := by
  rw [missing?]
  split
  · next name hanswer => simp [hanswer, eq_comm]
  · next hother =>
    constructor
    · intro h
      cases h
    · rintro ⟨⟨name, hanswer⟩, _⟩
      exact absurd hanswer (hother name)

/-- Without a table, what the engine does not supply is in a file. -/
theorem foundKey?_eq_keyFrom? (hempty : resolver.table = .empty) (query : Query)
    (hbase : resolver.Placed query.base) :
    query.foundKey? resolver files = query.keyFrom? resolver files .filesystem := by
  rw [foundKey?, found?, keyFrom?]
  cases hanswer : query.answer resolver files with
  | error e => rfl
  | ok found =>
    by_cases horigin : found.content.origin = .engine
    · simp [horigin]
    · have hfinds := resolver.finds_of_resolve files query.specifier query.base hempty found
        hanswer horigin
      have hfile : found.content.origin = .filesystem := hfinds.origin hbase
      simp [hfile]

end Query

namespace Graph

/-- The keys that recorded imports lead to from some roots. -/
inductive Leads (roots : List String) (modules : List GraphModule) : String → Prop
  | root (key : String) (h : key ∈ roots) : Leads roots modules key
  | step (m : GraphModule) (key : String) (h : Leads roots modules m.key) (hm : m ∈ modules)
      (himport : key ∈ m.imports) : Leads roots modules key

def Reachable (graph : Graph) (key : String) : Prop :=
  Leads (graph.entries ++ graph.forced) graph.modules key

theorem Leads.mono {roots : List String} {modules more : List GraphModule} {key : String}
    (h : Leads roots modules key) (hmore : ∀ m ∈ modules, m ∈ more) : Leads roots more key := by
  induction h with
  | root key hkey => exact .root key hkey
  | step m key hleads hm himport ih => exact .step m key ih (hmore m hm) himport

section Scanning

variable (resolver : Resolver) (files : FileView)

/-- The files that a module imports, each once, in the order of first mention. -/
def importedKeys (m : GraphModule) : List String :=
  distinct (m.queries.filterMap (Query.foundKey? resolver files))

def engineKeys (m : GraphModule) : List String :=
  m.queries.filterMap (Query.keyFrom? resolver files .engine)

def missingNotes (m : GraphModule) : List UnresolvedImport :=
  m.queries.filterMap (Query.missing? resolver files m.key)

variable {resolver files}

/-- What the imports of a module add to what its earlier ones brought up. -/
structure Adds (resolver : Resolver) (files : FileView) (importer : String)
    (queries : List Query) (before after : Scanned) : Prop where
  imports_eq : after.imports =
    (queries.filterMap (Query.foundKey? resolver files)).foldl
      (fun kept key => if key ∈ kept then kept else kept ++ [key]) before.imports
  engine_eq : after.engine =
    before.engine ++ queries.filterMap (Query.keyFrom? resolver files .engine)
  unresolved_eq : after.unresolved =
    before.unresolved ++ queries.filterMap (Query.missing? resolver files importer)
  fresh_mem : ∀ m ∈ after.fresh, m ∈ before.fresh ∨
    m.key ∈ queries.filterMap (Query.foundKey? resolver files)

namespace Adds

variable {importer : String} {before between after : Scanned}

theorem nil : Adds resolver files importer [] before before where
  imports_eq := rfl
  engine_eq := by simp
  unresolved_eq := by simp
  fresh_mem m hm := .inl hm

theorem append {left right : List Query} (hleft : Adds resolver files importer left before between)
    (hright : Adds resolver files importer right between after) :
    Adds resolver files importer (left ++ right) before after where
  imports_eq := by
    rw [hright.imports_eq, hleft.imports_eq, List.filterMap_append, List.foldl_append]
  engine_eq := by
    rw [hright.engine_eq, hleft.engine_eq, List.filterMap_append, List.append_assoc]
  unresolved_eq := by
    rw [hright.unresolved_eq, hleft.unresolved_eq, List.filterMap_append, List.append_assoc]
  fresh_mem m hm := by
    rw [List.filterMap_append, List.mem_append]
    rcases hright.fresh_mem m hm with hm | hkey
    · rcases hleft.fresh_mem m hm with hm | hkey
      · exact .inl hm
      · exact .inr (.inl hkey)
    · exact .inr (.inr hkey)

end Adds

theorem adds_of_scanImport (met : List String) (importer : Identity) (before after : Scanned)
    (specifier : String)
    (h : scanImport resolver files met importer before specifier = .ok after) :
    Adds resolver files importer.key [⟨specifier, importer.baseDir⟩] before after := by
  have hfile : ∀ found, Query.found? resolver files ⟨specifier, importer.baseDir⟩ = some found →
      Query.foundKey? resolver files ⟨specifier, importer.baseDir⟩ = some found.identity.key ∧
        Query.keyFrom? resolver files .engine ⟨specifier, importer.baseDir⟩ = none ∧
        Query.missing? resolver files importer.key ⟨specifier, importer.baseDir⟩ = none := by
    intro found hfound
    obtain ⟨hanswer, horigin⟩ := (Query.found?_eq_some_iff resolver files _ found).1 hfound
    simp [Query.foundKey?, hfound, Query.keyFrom?, Query.missing?, hanswer, horigin]
  cases scans_of_scanImport met importer before after specifier h with
  | missing name hanswer =>
    constructor <;> simp [Query.foundKey?, Query.found?, Query.keyFrom?, Query.missing?, hanswer]
  | engine found hanswer horigin =>
    constructor <;>
      simp [Query.foundKey?, Query.found?, Query.keyFrom?, Query.missing?, hanswer, horigin]
  | again found imports hfound himports hmet =>
    obtain ⟨hkey, hengine, hmissing⟩ := hfile found hfound
    constructor
    · simp [himports, hkey]
    · simp [hengine]
    · simp [hmissing]
    · exact fun m hm => .inl hm
  | fresh found imports m hfound himports hnew hfetch =>
    obtain ⟨hkey, hengine, hmissing⟩ := hfile found hfound
    constructor
    · simp [himports, hkey]
    · simp [hengine]
    · simp [hmissing]
    · intro other hother
      rcases List.mem_append.1 hother with hother | hother
      · exact .inl hother
      · have hfetched : m.key = found.identity.key :=
          congrArg Identity.key (identity_of_fetch files found m hfetch)
        rw [List.mem_singleton.1 hother, hfetched]
        exact .inr (by simp [hkey])

theorem adds_of_scanImports (met : List String) (importer : Identity) (before after : Scanned)
    (specifiers : List String)
    (h : scanImports resolver files met importer before specifiers = .ok after) :
    Adds resolver files importer.key
      (specifiers.map fun specifier => ⟨specifier, importer.baseDir⟩) before after := by
  induction specifiers generalizing before with
  | nil =>
    cases h
    exact .nil
  | cons specifier rest ih =>
    rw [scanImports] at h
    split at h
    · cases h
    · next between hstep =>
      have hfirst := adds_of_scanImport met importer before between specifier hstep
      have hrest := ih between h
      exact hfirst.append hrest

/-- What one module adds, its imports starting from none. -/
theorem scanned_of_scan (met : List String) (m : GraphModule) (engine : List String)
    (unresolved : List UnresolvedImport) (scanned : Scanned)
    (h : scan resolver files met m engine unresolved = .ok scanned) :
    scanned.imports = importedKeys resolver files m ∧
      scanned.engine = engine ++ engineKeys resolver files m ∧
      scanned.unresolved = unresolved ++ missingNotes resolver files m ∧
      ∀ fresh ∈ scanned.fresh, fresh.key ∈ scanned.imports := by
  have hadds := adds_of_scanImports met m.identity _ scanned (staticSpecifiers m) h
  have himports : scanned.imports = importedKeys resolver files m := by
    rw [hadds.imports_eq, foldl_concat_new]
    simp [importedKeys, GraphModule.queries]
  refine ⟨himports, hadds.engine_eq, hadds.unresolved_eq, ?_⟩
  intro fresh hfresh
  rw [himports, importedKeys, mem_distinct]
  rcases hadds.fresh_mem fresh hfresh with hnone | hkey
  · cases hnone
  · exact hkey

/-- What a walk adds: the modules it scans, each with the imports it was scanned for. -/
theorem explored_eq (done pending : List GraphModule) (engine : List String)
    (unresolved : List UnresolvedImport) (explored : Explored)
    (h : explore resolver files done pending engine unresolved = .ok explored) :
    ∃ scanned, explored.modules = done ++ scanned ∧
      (∀ m ∈ scanned, m.imports = importedKeys resolver files m) ∧
      explored.engine = engine ++ scanned.flatMap (engineKeys resolver files) ∧
      explored.unresolved = unresolved ++ scanned.flatMap (missingNotes resolver files) := by
  fun_induction explore resolver files done pending engine unresolved with
  | case1 done engine unresolved =>
    cases h
    exact ⟨[], by simp, by simp, by simp, by simp⟩
  | case2 done engine unresolved m pending e hscan => cases h
  | case3 done engine unresolved m pending scanned hscan ih =>
    obtain ⟨rest, hmodules, himports, hengine, hunresolved⟩ := ih h
    obtain ⟨hown, hownEngine, hownUnresolved, _⟩ := scanned_of_scan _ m engine unresolved _ hscan
    refine ⟨{ m with imports := scanned.imports } :: rest, ?_, ?_, ?_, ?_⟩
    · simpa using hmodules
    · intro other hother
      rcases List.mem_cons.1 hother with rfl | hother
      · exact hown
      · exact himports other hother
    · rw [hengine, hownEngine, List.append_assoc]
      rfl
    · rw [hunresolved, hownUnresolved, List.append_assoc]
      rfl

/-- A walk that starts with modules which its roots lead to comes only to such. -/
theorem leads_of_explore (roots : List String) (done pending : List GraphModule)
    (engine : List String) (unresolved : List UnresolvedImport) (explored : Explored)
    (hleads : ∀ m ∈ done ++ pending, Leads roots done m.key)
    (h : explore resolver files done pending engine unresolved = .ok explored) :
    ∀ m ∈ explored.modules, Leads roots explored.modules m.key := by
  fun_induction explore resolver files done pending engine unresolved with
  | case1 done engine unresolved =>
    cases h
    simpa using hleads
  | case2 done engine unresolved m pending e hscan => cases h
  | case3 done engine unresolved m pending scanned hscan ih =>
    obtain ⟨_, _, _, hfresh⟩ := scanned_of_scan _ m engine unresolved _ hscan
    refine ih ?_ h
    have hkept : ∀ key, Leads roots done key →
        Leads roots (done ++ [{ m with imports := scanned.imports }]) key := by
      intro key hkey
      exact hkey.mono fun other hother => List.mem_append_left _ hother
    have hm := hkept m.key (hleads m (by simp))
    intro other hother
    simp only [List.mem_append, List.mem_singleton] at hother
    rcases hother with (hdone | rfl) | hpending | hnew
    · exact hkept _ (hleads other (by simp [hdone]))
    · exact hm
    · exact hkept _ (hleads other (by simp [hpending]))
    · exact .step { m with imports := scanned.imports } other.key hm (by simp)
        (hfresh other hnew)

theorem Asks.engine_eq (query : Query) (before after : Notes)
    (h : Asks resolver files query before after) :
    after.engine = before.engine ++ [query].filterMap (Query.keyFrom? resolver files .engine) := by
  cases h with
  | missing specifier note hanswer => simp [Query.keyFrom?, hanswer]
  | engine found hanswer horigin => simp [Query.keyFrom?, hanswer, horigin]
  | again found hfound hmet =>
    obtain ⟨hanswer, horigin⟩ := (query.found?_eq_some_iff resolver files found).1 hfound
    simp [Query.keyFrom?, hanswer, horigin]
  | fresh found m hfound hnew hfetch =>
    obtain ⟨hanswer, horigin⟩ := (query.found?_eq_some_iff resolver files found).1 hfound
    simp [Query.keyFrom?, hanswer, horigin]

theorem Asks.modules_mem (query : Query) (before after : Notes)
    (h : Asks resolver files query before after) :
    ∀ m ∈ after.modules, m ∈ before.modules ∨
      m.key ∈ [query].filterMap (Query.foundKey? resolver files) := by
  intro m hm
  cases h with
  | missing specifier note hanswer => exact .inl hm
  | engine found hanswer horigin => exact .inl hm
  | again found hfound hmet => exact .inl hm
  | fresh found fetched hfound hnew hfetch =>
    rcases List.mem_append.1 hm with hm | hm
    · exact .inl hm
    · have hkey : fetched.key = found.identity.key :=
        congrArg Identity.key (identity_of_fetch files found fetched hfetch)
      rw [List.mem_singleton.1 hm, hkey]
      exact .inr (by simp [Query.foundKey?, hfound])

theorem rooted_of_addRoots (rooted after : Rooted) (kind : RootKind) (specifiers : List String)
    (h : addRoots resolver files kind rooted specifiers = .ok after) :
    after.engine = rooted.engine ++
        (rootQueries specifiers).filterMap (Query.keyFrom? resolver files .engine) ∧
      ∀ m ∈ after.found, m ∈ rooted.found ∨
        m.key ∈ (rootQueries specifiers).filterMap (Query.foundKey? resolver files) := by
  induction specifiers generalizing rooted with
  | nil =>
    cases h
    exact ⟨by simp [rootQueries], fun m hm => .inl hm⟩
  | cons specifier rest ih =>
    rw [addRoots] at h
    split at h
    · cases h
    · next next hroot =>
      have hask := asks_of_addRoot rooted kind specifier next hroot
      have hsplit : rootQueries (specifier :: rest) =
          [⟨specifier, .workingDirectory⟩] ++ rootQueries rest := rfl
      obtain ⟨hengine, hfound⟩ := ih next h
      have hnext : next.engine = rooted.engine ++ _ := Asks.engine_eq _ _ _ hask
      rw [hsplit, List.filterMap_append, List.filterMap_append, ← List.append_assoc, ← hnext]
      refine ⟨hengine, fun m hm => ?_⟩
      rw [List.mem_append]
      rcases hfound m hm with hm | hkey
      · rcases Asks.modules_mem _ _ _ hask m hm with hm | hkey
        · exact .inl hm
        · exact .inr (.inl hkey)
      · exact .inr (.inr hkey)

theorem map_key_visits (asked : List Query) :
    (visits resolver files asked).map (fun found => found.identity.key) =
      asked.filterMap (Query.foundKey? resolver files) := by
  rw [visits, List.map_filterMap]
  rfl

end Scanning

/-- A graph holds what its roots need, directly or not, and nothing else. -/
structure IsStaticClosure (resolver : Resolver) (files : FileView) (entries forced : List String)
    (graph : Graph) : Prop where
  entries_eq : graph.entries =
    (rootQueries entries).filterMap (Query.keyFrom? resolver files .filesystem)
  forced_eq : graph.forced =
    (rootQueries forced).filterMap (Query.keyFrom? resolver files .filesystem)
  roots_mem : ∀ key ∈ graph.entries ++ graph.forced, key ∈ graph.keys
  stored : ∀ m ∈ graph.modules, findByKey GraphModule.key m.identity.key graph.modules = some m
  mem_keys_iff : ∀ key, key ∈ graph.keys ↔ graph.Reachable key
  /-- Every module is what a root or an import led to, as it was read then. -/
  source_eq : ∀ m ∈ graph.modules, ∃ query path,
    (query ∈ rootQueries (entries ++ forced) ∨ ∃ n ∈ graph.modules, query ∈ n.queries) ∧
      query.answer resolver files = .ok ⟨m.identity, .file path⟩ ∧ m.path = some path ∧
      files.read path = .ok m.source
  imports_eq : ∀ m ∈ graph.modules,
    m.imports = distinct (m.queries.filterMap (Query.keyFrom? resolver files .filesystem))
  unresolved_iff : ∀ note, note ∈ graph.unresolved ↔ ∃ m ∈ graph.modules,
    note.importer = m.key ∧ note.specifier ∈ staticSpecifiers m ∧
      ∃ name, resolver.resolve files note.specifier m.identity.baseDir = .error (.notFound name)
  engine_iff : ∀ name, name ∈ graph.engineModules ↔ ∃ query found,
    (query ∈ rootQueries (entries ++ forced) ∨ ∃ m ∈ graph.modules, query ∈ m.queries) ∧
      query.answer resolver files = .ok found ∧ found.content.origin = .engine ∧
      found.identity.key = name
  /-- The walk scans the modules of the graph, and each of them once. -/
  scanned_once : ((scanOrder resolver files entries forced).map GraphModule.key).Nodup ∧
    (scanOrder resolver files entries forced).Perm graph.modules

/-- The modules that a walk scanned, with what they brought into its graph. -/
structure Walked (resolver : Resolver) (files : FileView) (entries forced : List String)
    (scanned : List GraphModule) (graph : Graph) : Prop where
  nodup : (scanned.map GraphModule.key).Nodup
  modules_eq : graph.modules = ascendingModules scanned
  engine_eq : graph.engineModules = ascendingNames
    ((rootQueries (entries ++ forced)).filterMap (Query.keyFrom? resolver files .engine) ++
      scanned.flatMap (engineKeys resolver files))
  unresolved_eq : graph.unresolved = scanned.flatMap (missingNotes resolver files)
  imports_eq : ∀ m ∈ scanned, m.imports = importedKeys resolver files m
  leads : ∀ m ∈ scanned, Leads (graph.entries ++ graph.forced) scanned m.key

section Walks

variable {resolver : Resolver} {files : FileView} {entries forced : List String} {graph : Graph}

theorem walked_of_ofRoots (h : ofRoots resolver files entries forced = .ok graph) :
    Walked resolver files entries forced (scanOrder resolver files entries forced) graph := by
  obtain ⟨_, hknown, _, _⟩ := discovered_scanOrder graph h
  have hnodup := hknown.nodup
  rw [GraphModule.map_key_bare] at hnodup
  obtain ⟨hentriesNoted, hforcedNoted⟩ := noted_of_ofRoots graph h
  rw [map_key_visits] at hentriesNoted hforcedNoted
  obtain ⟨rooted, rooted', explored, hentries, hforced, hexplore, horder, rfl⟩ :=
    stages_of_ofRoots graph h
  rw [horder] at hnodup ⊢
  obtain ⟨hfirstEngine, hfirstFound⟩ := rooted_of_addRoots _ _ _ _ hentries
  obtain ⟨hsecondEngine, hsecondFound⟩ := rooted_of_addRoots _ _ _ _ hforced
  obtain ⟨scanned, hmodules, himports, hengine, hunresolved⟩ := explored_eq _ _ _ _ _ hexplore
  rw [List.nil_append] at hmodules hunresolved
  subst hmodules
  simp only at hentriesNoted hforcedNoted
  have hroots : ∀ m ∈ rooted'.found, m.key ∈ rooted'.entries ++ rooted'.forced := by
    intro m hm
    rw [List.mem_append, hentriesNoted, hforcedNoted]
    rcases hsecondFound m hm with hm | hkey
    · rcases hfirstFound m hm with hnone | hkey
      · cases hnone
      · exact .inl hkey
    · exact .inr hkey
  constructor
  · exact hnodup
  · rfl
  · rw [hengine, hsecondEngine, hfirstEngine]
    simp [rootQueries]
  · exact hunresolved
  · exact himports
  · refine leads_of_explore _ [] rooted'.found _ _ _ ?_ hexplore
    intro m hm
    exact .root m.key (hroots m hm)

namespace Walked

variable {scanned : List GraphModule}

theorem mem_modules_iff (hwalk : Walked resolver files entries forced scanned graph)
    (m : GraphModule) : m ∈ graph.modules ↔ m ∈ scanned := by
  rw [hwalk.modules_eq]
  exact mem_ascendingModules scanned m hwalk.nodup

theorem nodup_keys (hwalk : Walked resolver files entries forced scanned graph) :
    (graph.modules.map GraphModule.key).Nodup := by
  rw [hwalk.modules_eq]
  exact nodup_ascendingModules scanned

theorem perm (hwalk : Walked resolver files entries forced scanned graph) :
    scanned.Perm graph.modules := by
  have hscanned : scanned.Nodup := hwalk.nodup.of_map
  have hmodules : graph.modules.Nodup := hwalk.nodup_keys.of_map
  rw [List.perm_ext_iff_of_nodup hscanned hmodules]
  exact fun m => (hwalk.mem_modules_iff m).symm

/-- Where every import leads to a module, the modules are those that are reachable. -/
theorem mem_keys_iff (hwalk : Walked resolver files entries forced scanned graph)
    (hroots : ∀ key ∈ graph.entries ++ graph.forced, key ∈ graph.keys)
    (himports : ∀ m ∈ graph.modules, ∀ key ∈ m.imports, key ∈ graph.keys) (key : String) :
    key ∈ graph.keys ↔ graph.Reachable key := by
  constructor
  · intro hkey
    obtain ⟨m, hm, rfl⟩ := List.mem_map.1 hkey
    have hleads := hwalk.leads m ((hwalk.mem_modules_iff m).1 hm)
    exact hleads.mono fun other hother => (hwalk.mem_modules_iff other).2 hother
  · intro hreach
    cases hreach with
    | root key hroot => exact hroots key hroot
    | step m key hleads hm himport => exact himports m hm key himport

theorem unresolved_iff (hwalk : Walked resolver files entries forced scanned graph)
    (note : UnresolvedImport) :
    note ∈ graph.unresolved ↔ ∃ m ∈ graph.modules,
      note.importer = m.key ∧ note.specifier ∈ staticSpecifiers m ∧
        ∃ name, resolver.resolve files note.specifier m.identity.baseDir =
          .error (.notFound name) := by
  rw [hwalk.unresolved_eq, List.mem_flatMap]
  constructor
  · rintro ⟨m, hm, hnote⟩
    obtain ⟨query, hquery, hmissing⟩ := List.mem_filterMap.1 hnote
    obtain ⟨specifier, hspecifier, rfl⟩ := List.mem_map.1 hquery
    obtain ⟨hanswer, rfl⟩ := (Query.missing?_eq_some_iff resolver files _ _ _).1 hmissing
    exact ⟨m, (hwalk.mem_modules_iff m).2 hm, rfl, hspecifier, hanswer⟩
  · rintro ⟨m, hm, himporter, hspecifier, hanswer⟩
    refine ⟨m, (hwalk.mem_modules_iff m).1 hm, List.mem_filterMap.2 ?_⟩
    refine ⟨⟨note.specifier, m.identity.baseDir⟩, List.mem_map_of_mem hspecifier, ?_⟩
    rw [Query.missing?_eq_some_iff]
    exact ⟨hanswer, by rw [← himporter]⟩

theorem engine_iff (hwalk : Walked resolver files entries forced scanned graph) (name : String) :
    name ∈ graph.engineModules ↔ ∃ query found,
      (query ∈ rootQueries (entries ++ forced) ∨ ∃ m ∈ graph.modules, query ∈ m.queries) ∧
        query.answer resolver files = .ok found ∧ found.content.origin = .engine ∧
        found.identity.key = name := by
  have hmem : name ∈ graph.engineModules ↔ ∃ query,
      (query ∈ rootQueries (entries ++ forced) ∨ ∃ m ∈ graph.modules, query ∈ m.queries) ∧
        query.keyFrom? resolver files .engine = some name := by
    rw [hwalk.engine_eq, ascendingNames, mem_foldl_insertByKey_id, List.mem_append,
      List.mem_filterMap, List.mem_flatMap]
    constructor
    · rintro ((⟨query, hquery, hkey⟩ | ⟨m, hm, hkey⟩) | hnone)
      · exact ⟨query, .inl hquery, hkey⟩
      · obtain ⟨query, hquery, hkey⟩ := List.mem_filterMap.1 hkey
        exact ⟨query, .inr ⟨m, (hwalk.mem_modules_iff m).2 hm, hquery⟩, hkey⟩
      · cases hnone
    · rintro ⟨query, hroot | ⟨m, hm, hquery⟩, hkey⟩
      · exact .inl (.inl ⟨query, hroot, hkey⟩)
      · refine .inl (.inr ⟨m, (hwalk.mem_modules_iff m).1 hm, ?_⟩)
        exact List.mem_filterMap.2 ⟨query, hquery, hkey⟩
  rw [hmem]
  constructor
  · rintro ⟨query, hquery, hkey⟩
    obtain ⟨found, hanswer⟩ := (Query.keyFrom?_eq_some_iff resolver files _ _ _).1 hkey
    exact ⟨query, found, hquery, hanswer⟩
  · rintro ⟨query, found, hquery, hanswer⟩
    exact ⟨query, hquery, (Query.keyFrom?_eq_some_iff resolver files _ _ _).2 ⟨found, hanswer⟩⟩

end Walked

/-- Every query of a graph is asked from a place where resolution keeps its keys. -/
theorem foundKey?_of_asked (hempty : resolver.table = .empty)
    (h : ofRoots resolver files entries forced = .ok graph) (query : Query)
    (hquery : query ∈ asked resolver files entries forced) :
    query.foundKey? resolver files = query.keyFrom? resolver files .filesystem := by
  have hreached := (discovered_of_ofRoots graph h).reached query hquery
  exact query.foundKey?_eq_keyFrom? resolver files hempty (hreached.placed hempty)

theorem mem_keys_of_asked (h : ofRoots resolver files entries forced = .ok graph)
    (query : Query) (hquery : query ∈ asked resolver files entries forced) (key : String)
    (hkey : query.foundKey? resolver files = some key) : key ∈ graph.keys := by
  obtain ⟨found, hfound, rfl⟩ := Option.map_eq_some_iff.1 hkey
  have hcovered := (discovered_of_ofRoots graph h).covered query hquery found hfound
  rwa [notes, GraphModule.map_key_bare] at hcovered

theorem mem_keys_of_noted (h : ofRoots resolver files entries forced = .ok graph)
    (key : String) (hkey : key ∈ graph.entries ++ graph.forced) : key ∈ graph.keys := by
  obtain ⟨hentries, hforced⟩ := noted_of_ofRoots graph h
  have hsplit : rootQueries entries ++ rootQueries forced = rootQueries (entries ++ forced) := by
    simp [rootQueries]
  rw [hentries, hforced, map_key_visits, map_key_visits, ← List.filterMap_append, hsplit] at hkey
  obtain ⟨query, hquery, hkey⟩ := List.mem_filterMap.1 hkey
  exact mem_keys_of_asked h query (List.mem_append_left _ hquery) key hkey

/-- The noted roots are the keys of the root queries that lead to files. -/
theorem noted_eq_keyFrom? (hempty : resolver.table = .empty)
    (h : ofRoots resolver files entries forced = .ok graph) (specifiers : List String)
    (hroots : ∀ specifier ∈ specifiers, specifier ∈ entries ++ forced) :
    (visits resolver files (rootQueries specifiers)).map (fun found => found.identity.key) =
      (rootQueries specifiers).filterMap (Query.keyFrom? resolver files .filesystem) := by
  rw [map_key_visits]
  refine List.filterMap_congr fun query hquery => ?_
  obtain ⟨specifier, hspecifier, rfl⟩ := List.mem_map.1 hquery
  refine foundKey?_of_asked hempty h _ (List.mem_append_left _ ?_)
  exact List.mem_map_of_mem (hroots specifier hspecifier)

/-- A module holds the content of the file that the first query with its key led to. -/
theorem source_of_ofRoots (hempty : resolver.table = .empty)
    (h : ofRoots resolver files entries forced = .ok graph) (m : GraphModule)
    (hm : m ∈ graph.modules) :
    ∃ query path, query ∈ asked resolver files entries forced ∧
      query.answer resolver files = .ok ⟨m.identity, .file path⟩ ∧ m.path = some path ∧
      files.read path = .ok m.source := by
  have hknown := discovered_of_ofRoots graph h
  obtain ⟨query, hquery, found, hfound, _, hfetch⟩ :=
    hknown.exists_query m.bare (List.mem_map_of_mem hm)
  obtain ⟨hanswer, horigin⟩ := (query.found?_eq_some_iff resolver files found).1 hfound
  have hplaced := (hknown.reached query hquery).placed hempty
  have hfinds := resolver.finds_of_resolve files _ _ hempty found hanswer horigin
  obtain ⟨key, space, form, root, path, _, _, _, rfl⟩ := hfinds.shape hplaced
  obtain ⟨loaded, hloaded, hbare⟩ := (fetch_eq_ok_iff _ _ _).1 hfetch
  have hread := Disk.read_eq_ok hloaded
  simp only [Resolved.read] at hread
  split at hread
  · cases hread
  · next content hcontent =>
    cases hread
    have hidentity : m.identity = .ofProbe key space form root :=
      congrArg GraphModule.identity hbare
    have hpath : m.path = some path := congrArg GraphModule.path hbare
    have hsource : m.source = content := congrArg GraphModule.source hbare
    refine ⟨query, path, hquery, ?_, hpath, ?_⟩
    · rw [hidentity]
      exact hanswer
    · rw [hsource]
      exact hcontent

/-- Discovery from files finds exactly what its roots need, directly or not. -/
theorem static_closure_of_ofRoots (resolver : Resolver) (files : FileView)
    (entries forced : List String) (graph : Graph) (hempty : resolver.table = .empty)
    (h : ofRoots resolver files entries forced = .ok graph) :
    graph.IsStaticClosure resolver files entries forced := by
  have hwalk := walked_of_ofRoots h
  obtain ⟨hentries, hforced⟩ := noted_of_ofRoots graph h
  have hasked := mem_asked_iff graph h
  have hownQuery : ∀ m ∈ graph.modules, ∀ query ∈ m.queries,
      query ∈ asked resolver files entries forced :=
    fun m hm query hquery => (hasked query).2 (.inr ⟨m, hm, hquery⟩)
  have himports : ∀ m ∈ graph.modules, m.imports = importedKeys resolver files m :=
    fun m hm => hwalk.imports_eq m ((hwalk.mem_modules_iff m).1 hm)
  have hroots := mem_keys_of_noted h
  refine ⟨?_, ?_, hroots, ?_, ?_, ?_, ?_, hwalk.unresolved_iff, hwalk.engine_iff, ?_⟩
  · rw [hentries]
    exact noted_eq_keyFrom? hempty h entries fun _ => List.mem_append_left forced
  · rw [hforced]
    exact noted_eq_keyFrom? hempty h forced fun _ => List.mem_append_right entries
  · intro m hm
    exact (findByKey_eq_some_iff hwalk.nodup_keys).2 ⟨hm, rfl⟩
  · refine hwalk.mem_keys_iff hroots fun m hm key hkey => ?_
    rw [himports m hm, importedKeys, mem_distinct] at hkey
    obtain ⟨query, hquery, hkey⟩ := List.mem_filterMap.1 hkey
    exact mem_keys_of_asked h query (hownQuery m hm query hquery) key hkey
  · intro m hm
    obtain ⟨query, path, hquery, hanswer⟩ := source_of_ofRoots hempty h m hm
    exact ⟨query, path, (hasked query).1 hquery, hanswer⟩
  · intro m hm
    rw [himports m hm, importedKeys]
    refine congrArg distinct (List.filterMap_congr fun query hquery => ?_)
    exact foundKey?_of_asked hempty h query (hownQuery m hm query hquery)
  · exact ⟨hwalk.nodup, hwalk.perm⟩

end Walks

open SampleProgram in
theorem static_closure_of_ofRoots_sample :
    graph.IsStaticClosure resolver files ["./main"] [] :=
  static_closure_of_ofRoots resolver files ["./main"] [] graph rfl stages.1

end Graph

end ModuleLoading
