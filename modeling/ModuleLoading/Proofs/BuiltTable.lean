import Mathlib
import ModuleLoading.Build
import ModuleLoading.Proofs.Discovery

/-!
What the table of a program holds, and what it answers at run time. It has one
module for each module of the dependency graph, with the content that discovery
read. A specifier that led to a file during the build leads to a module of the
table then, wherever it runs; only a bare specifier that names the working
directory may lead to a different one.
-/
namespace ModuleLoading

/-- The form in which the table carries a module. -/
def GraphModule.embedded (m : GraphModule) : EmbeddedModule := .ofIdentity m.identity m.source

/-- What resolution answers with a module of the table. -/
def EmbeddedModule.resolved (m : EmbeddedModule) : Resolved := ⟨m.identity, .embedded m.code⟩

namespace Graph

theorem compileModules_ok (modules : List GraphModule) (embedded : List EmbeddedModule)
    (h : compileModules modules = .ok embedded) :
    embedded = modules.map GraphModule.embedded := by
  induction modules generalizing embedded with
  | nil => exact (Except.ok.inj h).symm
  | cons m rest ih =>
    rw [compileModules] at h
    split at h
    · cases h
    · next code hcompile =>
      have hcode : code = m.source := by
        rw [compile] at hcompile
        split at hcompile
        · exact (Except.ok.inj hcompile).symm
        · cases hcompile
      split at h
      · cases h
      · next others hothers =>
        rw [← Except.ok.inj h, ih others hothers, hcode]
        rfl

theorem compileModules_of_text (modules : List GraphModule)
    (h : ∀ m ∈ modules, ∃ text, Utf8.decode m.source = .ok text) :
    compileModules modules = .ok (modules.map GraphModule.embedded) := by
  induction modules with
  | nil => rfl
  | cons m rest ih =>
    obtain ⟨text, htext⟩ := h m List.mem_cons_self
    rw [compileModules, ih fun other hother => h other (List.mem_cons_of_mem _ hother)]
    simp only [compile, htext]
    rfl

end Graph

namespace Resolver

variable (resolver : Resolver) (files : FileView)

theorem embedded?_key (request : Request) (m : EmbeddedModule)
    (h : resolver.table.get? request.key = some m) : resolver.embedded? request = some m := by
  simp [embedded?, h]

theorem embedded?_fallback (request : Request) (fallback : String)
    (hallowed : resolver.settings.pathFallback = true)
    (hmiss : resolver.table.get? request.key = none)
    (hfallback : request.fallbackKey = some fallback) :
    resolver.embedded? request = resolver.table.get? fallback := by
  simp [embedded?, hmiss, hallowed, hfallback]

theorem resolve_embedded (raw : String) (base : BaseDir) (m : EmbeddedModule)
    (h : resolver.embedded? (Request.make raw base) = some m) :
    resolver.resolve files raw base = .ok m.resolved := by
  simp [resolve, h, EmbeddedModule.resolved]

end Resolver

/-- A build that succeeds, with the graph behind its table. -/
structure Built (build : Resolver) (files : FileView) (entries forced : List String)
    (graph : Graph) (table : Table) : Prop where
  empty : build.table = .empty
  graph_eq : Graph.ofRoots build files entries forced = .ok graph
  table_eq : graph.toTable = .ok table

/-- A resolver that a packed program runs with. -/
structure Carries (runtime build : Resolver) (table : Table) : Prop where
  table_eq : runtime.table = table
  fallback_eq : runtime.settings.pathFallback = build.settings.pathFallback

theorem built_of_build (build : Resolver) (files : FileView) (entries forced : List String)
    (graph : Graph) (table : Table) (hempty : build.table = .empty)
    (hgraph : Graph.ofRoots build files entries forced = .ok graph)
    (hbuild : Table.build build files entries forced = .ok table) :
    Built build files entries forced graph table := by
  rw [Table.build, hgraph] at hbuild
  exact ⟨hempty, hgraph, hbuild⟩

theorem exists_graph_of_build (build : Resolver) (files : FileView)
    (entries forced : List String) (table : Table) (hempty : build.table = .empty)
    (hbuild : Table.build build files entries forced = .ok table) :
    ∃ graph, Built build files entries forced graph table := by
  cases hgraph : Graph.ofRoots build files entries forced with
  | error e => simp [Table.build, hgraph] at hbuild
  | ok graph =>
    exact ⟨graph, built_of_build build files entries forced graph table hempty hgraph hbuild⟩

namespace Built

variable {build : Resolver} {files : FileView} {entries forced : List String}
variable {graph : Graph} {table : Table}

theorem table_form (hbuilt : Built build files entries forced graph table) :
    table = graph.entries.foldl Table.addEntry
      ((graph.modules.map GraphModule.embedded).foldl Table.insert .empty) := by
  have h := hbuilt.table_eq
  rw [Graph.toTable] at h
  split at h
  · cases h
  · next embedded hcompile =>
    rw [← Except.ok.inj h, Graph.compileModules_ok graph.modules embedded hcompile]

theorem discovered (hbuilt : Built build files entries forced graph table) :
    Graph.Discovered build files (Graph.asked build files entries forced) graph.notes :=
  Graph.discovered_of_ofRoots graph hbuilt.graph_eq

theorem nodup_keys (hbuilt : Built build files entries forced graph table) :
    (graph.modules.map GraphModule.key).Nodup := by
  have h := hbuilt.discovered.nodup
  rwa [Graph.notes, GraphModule.map_key_bare] at h

/-- The table answers a key with the module of the graph that has it. -/
theorem get?_eq_some_iff (hbuilt : Built build files entries forced graph table) (key : String)
    (stored : EmbeddedModule) :
    table.get? key = some stored ↔
      ∃ m ∈ graph.modules, m.key = key ∧ stored = m.embedded := by
  have hkeys : (graph.modules.map GraphModule.embedded).map EmbeddedModule.key =
      graph.modules.map GraphModule.key := by
    rw [List.map_map]
    rfl
  have hnodup : ((graph.modules.map GraphModule.embedded).map EmbeddedModule.key).Nodup := by
    rw [hkeys]
    exact hbuilt.nodup_keys
  have hmodules : table.modules =
      (graph.modules.map GraphModule.embedded).foldl
        (fun sorted m => insertByKey EmbeddedModule.key m sorted) [] := by
    rw [hbuilt.table_form, Table.modules_foldl_addEntry, Table.modules_foldl_insert]
    rfl
  rw [Table.get?, hmodules, findByKey_foldl_insertByKey _ _ _ _ hnodup, findByKey, findByKey,
    List.find?_nil, Option.or_none, ← findByKey, findByKey_eq_some_iff hnodup]
  simp only [List.mem_map]
  constructor
  · rintro ⟨⟨m, hm, rfl⟩, hkey⟩
    exact ⟨m, hm, hkey, rfl⟩
  · rintro ⟨m, hm, hkey, rfl⟩
    exact ⟨⟨m, hm, rfl⟩, hkey⟩

theorem mem_modules_iff (hbuilt : Built build files entries forced graph table)
    (stored : EmbeddedModule) :
    stored ∈ table.modules ↔ ∃ m ∈ graph.modules, stored = m.embedded := by
  have hget : table.get? stored.key = some stored ↔ stored ∈ table.modules := by
    rw [Table.get?, findByKey_eq_some_iff (nodup_of_ascending table.modules_ascending)]
    simp
  rw [← hget, hbuilt.get?_eq_some_iff]
  constructor
  · rintro ⟨m, hm, _, heq⟩
    exact ⟨m, hm, heq⟩
  · rintro ⟨m, hm, rfl⟩
    exact ⟨m, hm, rfl, rfl⟩

theorem get?_key (hbuilt : Built build files entries forced graph table) (m : GraphModule)
    (hm : m ∈ graph.modules) : table.get? m.key = some m.embedded :=
  (hbuilt.get?_eq_some_iff m.key m.embedded).2 ⟨m, hm, rfl, rfl⟩

/-- A program starts with the keys of its entry specifiers, each once. -/
theorem entries_eq (hbuilt : Built build files entries forced graph table) :
    table.entries = distinct graph.entries := by
  rw [hbuilt.table_form, Table.entries_foldl_addEntry, Table.entries_foldl_insert]
  simp [Table.empty]

theorem mem_asked_of_root (specifier : String) (h : specifier ∈ entries ++ forced) :
    ⟨specifier, .workingDirectory⟩ ∈ Graph.asked build files entries forced :=
  List.mem_append_left _ (List.mem_map_of_mem h)

theorem mem_asked_of_import (hbuilt : Built build files entries forced graph table)
    (m : GraphModule) (hm : m ∈ graph.modules) (specifier : String)
    (h : specifier ∈ Graph.staticSpecifiers m) :
    ⟨specifier, m.identity.baseDir⟩ ∈ Graph.asked build files entries forced :=
  (Graph.mem_asked_iff graph hbuilt.graph_eq _).2 (.inr ⟨m, hm, List.mem_map_of_mem h⟩)

/-- What a query of the build led to was found on disk, and has a module. -/
theorem visit (hbuilt : Built build files entries forced graph table) (query : Query)
    (hquery : query ∈ Graph.asked build files entries forced) (found : Resolved)
    (hfound : query.found? build files = some found) :
    build.Placed query.base ∧ build.Finds files query.specifier query.base found ∧
      ∃ m ∈ graph.modules, m.key = found.identity.key := by
  obtain ⟨hanswer, horigin⟩ := (query.found?_eq_some_iff build files found).1 hfound
  have hreached := hbuilt.discovered.reached query hquery
  have hcovered := hbuilt.discovered.covered query hquery found hfound
  rw [Graph.notes, GraphModule.map_key_bare] at hcovered
  obtain ⟨m, hm, hkey⟩ := List.mem_map.1 hcovered
  exact ⟨hreached.placed hbuilt.empty,
    build.finds_of_resolve files query.specifier query.base hbuilt.empty found hanswer horigin,
    m, hm, hkey⟩

/-- A name that the build did not find under its roots is not in the table. -/
theorem get?_missed_name (hbuilt : Built build files entries forced graph table)
    (raw : String) (base : BaseDir) (hbase : ':' ∉ base.dir.toList)
    (hkind : (⟨raw⟩ : Specifier).kind = .bare)
    (hmiss : build.underRoots files (Request.make raw base) Form.search
      build.settings.searchPath.roots = .ok none)
    (hdot : Key.ofName (⟨raw⟩ : Specifier).effective ≠ Key.workingDirectory) :
    table.get? (Request.make raw base).key = none := by
  have hmade := Request.make_bare raw base hkind
  have hkey := Request.isKey_key raw base hbase
  have hne : (Request.make raw base).key ≠ Key.workingDirectory := by
    rw [hmade]
    exact hdot
  cases hget : table.get? (Request.make raw base).key with
  | none => rfl
  | some stored =>
    obtain ⟨m, hm, hmkey, _⟩ := (hbuilt.get?_eq_some_iff _ stored).1 hget
    obtain ⟨query, found, hquery, _, hfound, hidentity⟩ :=
      hbuilt.discovered.visit_of_mem m.bare (List.mem_map_of_mem hm)
    obtain ⟨hplaced, hfinds, _⟩ := hbuilt.visit query hquery found hfound
    have hfoundKey : found.identity.key = (Request.make raw base).key :=
      (congrArg Identity.key hidentity).symm.trans hmkey
    have hsearch : (Request.make raw base).space = .search := by rw [hmade]
    exact absurd hfoundKey (hfinds.key_ne_of_miss hplaced _ hmiss (hsearch ▸ hkey) hne)

/-- A query of the build leads to a module of the table at run time. It is the one
that the build found, or has the name that the build did not find. -/
theorem embedded?_visit (hbuilt : Built build files entries forced graph table)
    (runtime : Resolver) (hruntime : Carries runtime build table) (query : Query)
    (hquery : query ∈ Graph.asked build files entries forced) (found : Resolved)
    (hfound : query.found? build files = some found) (request : Request)
    (hsame : request.SameKeys (.make query.specifier query.base)) :
    ∃ m ∈ graph.modules, runtime.embedded? request = some m.embedded ∧
      (m.key = found.identity.key ∨
        ((⟨query.specifier⟩ : Specifier).kind = .bare ∧
          build.underRoots files (.make query.specifier query.base) Form.search
            build.settings.searchPath.roots = .ok none ∧
          m.key = (Request.make query.specifier query.base).key)) := by
  obtain ⟨_, hfinds, m, hm, hkey⟩ := hbuilt.visit query hquery found hfound
  have hget := hbuilt.get?_key m hm
  rw [hkey, ← hruntime.table_eq] at hget
  rcases hfinds.key_cases with hsameKey | ⟨hkind, hallowed, hmiss, hfallback⟩
  · refine ⟨m, hm, runtime.embedded?_key request _ ?_, .inl hkey⟩
    rwa [hsame.1, ← hsameKey]
  · cases hfirst : runtime.table.get? request.key with
    | none =>
      refine ⟨m, hm, ?_, .inl hkey⟩
      rw [runtime.embedded?_fallback request found.identity.key
        (hruntime.fallback_eq.trans hallowed) hfirst (hsame.2.trans hfallback)]
      exact hget
    | some stored =>
      have hstored := hfirst
      rw [hruntime.table_eq, hsame.1] at hstored
      obtain ⟨other, hother, hotherKey, rfl⟩ := (hbuilt.get?_eq_some_iff _ stored).1 hstored
      exact ⟨other, hother, runtime.embedded?_key request _ hfirst, .inr ⟨hkind, hmiss, hotherKey⟩⟩

/-- The module is the one with the key that the build gave to the query. -/
theorem embedded?_stable (hbuilt : Built build files entries forced graph table)
    (runtime : Resolver) (hruntime : Carries runtime build table) (query : Query)
    (hquery : query ∈ Graph.asked build files entries forced) (found : Resolved)
    (hfound : query.found? build files = some found) (request : Request)
    (hsame : request.SameKeys (.make query.specifier query.base))
    (hdot : ¬ (⟨query.specifier⟩ : Specifier).NamesDirectory) :
    ∃ m ∈ graph.modules, m.key = found.identity.key ∧
      runtime.embedded? request = some m.embedded := by
  obtain ⟨hplaced, _, _⟩ := hbuilt.visit query hquery found hfound
  obtain ⟨m, hm, hembedded, hkey | ⟨hkind, hmiss, hname⟩⟩ :=
    hbuilt.embedded?_visit runtime hruntime query hquery found hfound request hsame
  · exact ⟨m, hm, hkey, hembedded⟩
  · have hnone := hbuilt.get?_missed_name query.specifier query.base hplaced.colon_notMem
      hkind hmiss fun hdirectory => hdot ⟨hkind, hdirectory⟩
    rw [← hname, hbuilt.get?_key m hm] at hnone
    cases hnone

/-- The key of a module, taken for a specifier, names the module. -/
theorem resolve_key (hbuilt : Built build files entries forced graph table)
    (runtime : Resolver) (hruntime : Carries runtime build table) (files' : FileView)
    (m : GraphModule) (hm : m ∈ graph.modules) :
    runtime.resolve files' m.key .workingDirectory = .ok m.embedded.resolved := by
  obtain ⟨query, found, hquery, _, hfound, hidentity⟩ :=
    hbuilt.discovered.visit_of_mem m.bare (List.mem_map_of_mem hm)
  obtain ⟨hplaced, hfinds, _⟩ := hbuilt.visit query hquery found hfound
  have hkey : IsKey m.identity.space m.key := by
    have hisKey := hfinds.isKey hplaced
    rwa [← hidentity] at hisKey
  refine runtime.resolve_embedded files' m.key _ _ (runtime.embedded?_key _ _ ?_)
  rw [key_make_of_isKey m.identity.space m.key hkey, hruntime.table_eq]
  exact hbuilt.get?_key m hm

theorem exists_of_mem_entries (hbuilt : Built build files entries forced graph table)
    (key : String) (h : key ∈ graph.entries) : ∃ m ∈ graph.modules, m.key = key := by
  rw [(Graph.noted_of_ofRoots graph hbuilt.graph_eq).1] at h
  obtain ⟨found, hvisit, rfl⟩ := List.mem_map.1 h
  obtain ⟨query, hquery, hfound⟩ := List.mem_filterMap.1 hvisit
  obtain ⟨specifier, hspecifier, rfl⟩ := List.mem_map.1 hquery
  exact (hbuilt.visit _ (mem_asked_of_root specifier (List.mem_append_left _ hspecifier))
    found hfound).2.2

end Built

-- A sample program. Its entry imports "util", which no root has, and "math", which imports a
-- module next to it under the root.
namespace SampleProgram

open ModuleLoading.Graph

def mainSource : Bytes := Utf8.encode "import 'util';\nimport 'math';\n"

def mathSource : Bytes := Utf8.encode "import './add';\n"

def files : FileView
  | "./main.js" => .ok (.file mainSource)
  | "./util.js" => .ok (.file [])
  | "mods/math/index.js" => .ok (.file mathSource)
  | "mods/math/add.js" => .ok (.file [])
  | _ => .error .noSuchFile

def resolver : Resolver := ⟨{ searchPath := ⟨["mods"]⟩ }, .empty, .none⟩

def main : GraphModule :=
  ⟨⟨"./main", ".", .filesystem, none⟩, some "./main.js", mainSource, ["./util", "math"]⟩

def util : GraphModule := ⟨⟨"./util", ".", .filesystem, none⟩, some "./util.js", [], []⟩

def math : GraphModule :=
  ⟨⟨"math", "math", .search, some "mods"⟩, some "mods/math/index.js", mathSource, ["math/add"]⟩

def add : GraphModule :=
  ⟨⟨"math/add", "math", .search, some "mods"⟩, some "mods/math/add.js", [], []⟩

def graph : Graph := ⟨["./main"], [], [main, util, math, add], [], []⟩

def table : Table :=
  graph.entries.foldl Table.addEntry
    ((graph.modules.map GraphModule.embedded).foldl Table.insert .empty)

theorem staticSpecifiers_main (imports : List String) :
    staticSpecifiers { main with imports := imports } = ["util", "math"] := by
  show (Source.outline (Utf8.lossy mainSource)).staticSpecifiers = ["util", "math"]
  cbv

theorem staticSpecifiers_math (imports : List String) :
    staticSpecifiers { math with imports := imports } = ["./add"] := by
  show (Source.outline (Utf8.lossy mathSource)).staticSpecifiers = ["./add"]
  cbv

theorem staticSpecifiers_empty (m : GraphModule) (h : m.source = []) :
    staticSpecifiers m = [] := by
  rw [staticSpecifiers, h]
  cbv

theorem scan_main : scan resolver files (met [] [main.bare]) main.bare [] [] =
    .ok ⟨["./util", "math"], [util, math.bare], [], []⟩ := by
  rw [scan, show staticSpecifiers main.bare = ["util", "math"] from staticSpecifiers_main []]
  rfl

theorem scan_util : scan resolver files (met [main] [util, math.bare]) util [] [] =
    .ok ⟨[], [], [], []⟩ := by
  rw [scan, staticSpecifiers_empty util rfl]
  rfl

theorem scan_math : scan resolver files (met [main, util] [math.bare]) math.bare [] [] =
    .ok ⟨["math/add"], [add], [], []⟩ := by
  rw [scan, show staticSpecifiers math.bare = ["./add"] from staticSpecifiers_math []]
  rfl

theorem scan_add : scan resolver files (met [main, util, math] [add]) add [] [] =
    .ok ⟨[], [], [], []⟩ := by
  rw [scan, staticSpecifiers_empty add rfl]
  rfl

theorem explore_eq : explore resolver files [] [main.bare] [] [] =
    .ok ⟨[main, util, math, add], [], []⟩ := by
  rw [explore_cons resolver files [] [] main.bare [] [] _ scan_main]
  refine (explore_cons resolver files [main] [math.bare] util [] [] _ scan_util).trans ?_
  refine (explore_cons resolver files [main, util] [] math.bare [] [] _ scan_math).trans ?_
  refine (explore_cons resolver files [main, util, math] [] add [] [] _ scan_add).trans ?_
  exact explore_nil resolver files [main, util, math, add] [] []

theorem stages : ofRoots resolver files ["./main"] [] = .ok graph ∧
    scanOrder resolver files ["./main"] [] = [main, util, math, add] :=
  ofRoots_of_stages resolver files ["./main"] [] ⟨["./main"], [], [main.bare], []⟩
    ⟨["./main"], [], [main.bare], []⟩ ⟨[main, util, math, add], [], []⟩ rfl rfl explore_eq

theorem build_eq : Table.build resolver files ["./main"] [] = .ok table := by
  have hmain : Utf8.decode mainSource = .ok "import 'util';\nimport 'math';\n" := by cbv
  have hmath : Utf8.decode mathSource = .ok "import './add';\n" := by cbv
  have hempty : Utf8.decode [] = .ok "" := by cbv
  have htext : ∀ m ∈ graph.modules, ∃ text, Utf8.decode m.source = .ok text := by
    simp [graph, main, util, math, add, hmain, hmath, hempty]
  rw [Table.build, stages.1]
  simp only [toTable, compileModules_of_text graph.modules htext]
  rfl

theorem asked_eq : asked resolver files ["./main"] [] =
    [⟨"./main", .workingDirectory⟩, ⟨"util", main.identity.baseDir⟩,
      ⟨"math", main.identity.baseDir⟩, ⟨"./add", math.identity.baseDir⟩] := by
  have hmain : main.queries =
      [⟨"util", main.identity.baseDir⟩, ⟨"math", main.identity.baseDir⟩] := by
    rw [GraphModule.queries, show staticSpecifiers main = _ from staticSpecifiers_main _]
    rfl
  have hmath : math.queries = [⟨"./add", math.identity.baseDir⟩] := by
    rw [GraphModule.queries, show staticSpecifiers math = _ from staticSpecifiers_math _]
    rfl
  have hutil : util.queries = [] := by
    rw [GraphModule.queries, staticSpecifiers_empty util rfl]
    rfl
  have hadd : add.queries = [] := by
    rw [GraphModule.queries, staticSpecifiers_empty add rfl]
    rfl
  rw [asked, stages.2]
  simp [rootQueries, hmain, hmath, hutil, hadd]

/-- A machine without files and without a search path, on which the packed program
runs. -/
def runtime : Resolver := ⟨{}, table, .standard⟩

def noFiles : FileView := fun _ => .error .noSuchFile

end SampleProgram

end ModuleLoading
