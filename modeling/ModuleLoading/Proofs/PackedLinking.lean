import ModuleLoading.Proofs.SelfContained

/-!
A packed program links as it links from its source. Linking from the source asks
only what the build asked, as long as no key stands for two modules, and at run
time each of these queries leads to the same module in the table. The two walks
are thus in step from the entries on.
-/
namespace ModuleLoading

section Programs

variable {build : Resolver} {files : FileView} {entries forced : List String}
variable {graph : Graph} {table : Table}

/-- Queries that are answered with the same key are answered the same. -/
def KeysIdentify (resolver : Resolver) (files : FileView) (asked : List Query) : Prop :=
  ∀ query ∈ asked, ∀ other ∈ asked, ∀ found found',
    query.found? resolver files = some found → other.found? resolver files = some found' →
    found.identity.key = found'.identity.key → found = found'

theorem keysIdentify_of_nodup (resolver : Resolver) (files : FileView) (asked : List Query)
    (h : ((Graph.visits resolver files asked).map fun found => found.identity.key).Nodup) :
    KeysIdentify resolver files asked := by
  intro query hquery other hother found found' hfound hfound' hkey
  have hvisit := (findByKey_eq_some_iff h).2
    ⟨List.mem_filterMap.2 ⟨query, hquery, hfound⟩, rfl⟩
  have hvisit' := (findByKey_eq_some_iff h).2
    ⟨List.mem_filterMap.2 ⟨other, hother, hfound'⟩, rfl⟩
  rw [hkey] at hvisit
  exact Option.some.inj (hvisit.symm.trans hvisit')

/-- A query of the build, with a specifier that leads to its module at run time. -/
def Corresponds (build runtime : Resolver) (files files' : FileView) (asked : List Query)
    (graph : Graph) (specifier : String) (referrer : Option Identity) (specifier' : String)
    (referrer' : Option Identity) : Prop :=
  ⟨specifier, baseOf referrer⟩ ∈ asked ∧
    ∃ found, Query.found? build files ⟨specifier, baseOf referrer⟩ = some found ∧
    ∃ m ∈ graph.modules, m.key = found.identity.key ∧
      runtime.resolve files' specifier' (baseOf referrer') = .ok m.embedded.resolved

namespace Built

/-- Where keys identify modules, every query is answered with what its module was
made from. -/
theorem read_of_keysIdentify (hbuilt : Built build files entries forced graph table)
    (hkeys : KeysIdentify build files (Graph.asked build files entries forced))
    (query : Query) (hquery : query ∈ Graph.asked build files entries forced)
    (found : Resolved) (hfound : query.found? build files = some found) (m : GraphModule)
    (hm : m ∈ graph.modules) (hkey : m.key = found.identity.key) :
    ∃ loaded, found.read files = .ok loaded ∧ m.identity = loaded.identity ∧
      m.source = loaded.code := by
  obtain ⟨other, hother, first, hfirst, hfirstKey, hfetch⟩ :=
    hbuilt.discovered.exists_query m.bare (List.mem_map_of_mem hm)
  have hsame : first = found := hkeys other hother query hquery first found hfirst hfound
    (hfirstKey.trans hkey)
  rw [hsame] at hfetch
  exact Graph.read_of_fetch files found m.bare hfetch

/-- Linking from the source and linking from the table are in step. -/
theorem inStep (hbuilt : Built build files entries forced graph table)
    (hresolved : graph.unresolved = []) (hengine : graph.engineModules = [])
    (hkeys : KeysIdentify build files (Graph.asked build files entries forced))
    (hnames : ∀ query ∈ Graph.asked build files entries forced,
      ¬ (⟨query.specifier⟩ : Specifier).NamesDirectory)
    (runtime : Resolver) (hruntime : Carries runtime build table) (files' : FileView) :
    Linker.InStep build runtime files files'
      (Corresponds build runtime files files' (Graph.asked build files entries forced) graph) where
  loads specifier referrer specifier' referrer' hpair := by
    obtain ⟨hquery, found, hfound, m, hm, hkey, hresolve⟩ := hpair
    obtain ⟨loaded, hread, hidentity, hsource⟩ :=
      hbuilt.read_of_keysIdentify hkeys _ hquery found hfound m hm hkey
    obtain ⟨hanswer, _⟩ := (Query.found?_eq_some_iff build files _ found).1 hfound
    refine ⟨loaded, ?_, ?_, fun imported himported => ?_⟩
    · exact (build.load_eq_ok_iff files specifier referrer loaded).2 ⟨found, hanswer, hread⟩
    · rw [Resolver.load, hresolve, Loaded.packed, ← hidentity, ← hsource]
      rfl
    · have himport : imported ∈ Graph.staticSpecifiers m := by
        rw [Graph.staticSpecifiers, hsource]
        exact himported
      have hasked := hbuilt.mem_asked_of_import m hm imported himport
      obtain ⟨next, hnext⟩ := hbuilt.discovered.found_of_complete hengine hresolved _ hasked
      have hsame := Request.sameKeys_of_root imported m.identity.baseDir none
      obtain ⟨other, hother, hotherKey, hembedded⟩ := hbuilt.embedded?_stable runtime hruntime
        _ hasked next hnext _ hsame (hnames _ hasked)
      rw [hidentity] at hasked hnext hembedded
      exact ⟨hasked, next, hnext, other, hother, hotherKey,
        runtime.resolve_embedded files' imported _ other.embedded hembedded⟩

end Built

/-- What stands in the table for an entry specifier. -/
def entryKey (build : Resolver) (files : FileView) (specifier : String) : String :=
  match Query.found? build files ⟨specifier, .workingDirectory⟩ with
  | some found => found.identity.key
  | none => specifier

theorem map_visits_rootQueries (build : Resolver) (files : FileView) (specifiers : List String)
    (h : ∀ specifier ∈ specifiers, ∃ found,
      Query.found? build files ⟨specifier, .workingDirectory⟩ = some found) :
    (Graph.visits build files (Graph.rootQueries specifiers)).map
        (fun found => found.identity.key) = specifiers.map (entryKey build files) := by
  induction specifiers with
  | nil => rfl
  | cons specifier rest ih =>
    obtain ⟨found, hfound⟩ := h specifier List.mem_cons_self
    have hrest := ih fun later hlater => h later (List.mem_cons_of_mem _ hlater)
    rw [List.map_cons, ← hrest, entryKey, hfound]
    simp [Graph.visits, Graph.rootQueries, hfound]

theorem Built.entries_eq_map (hbuilt : Built build files entries forced graph table)
    (hresolved : graph.unresolved = []) (hengine : graph.engineModules = []) :
    graph.entries = entries.map (entryKey build files) := by
  rw [(Graph.noted_of_ofRoots graph hbuilt.graph_eq).1]
  refine map_visits_rootQueries build files entries fun specifier hspecifier => ?_
  exact hbuilt.discovered.found_of_complete hengine hresolved _
    (Built.mem_asked_of_root specifier (List.mem_append_left _ hspecifier))

/-- A program with a complete graph, whose keys identify modules, links from its
table to the same modules in the same order as from its source. -/
theorem linkEntries_packed_eq_source (build : Resolver) (files : FileView)
    (entries forced : List String) (graph : Graph) (table : Table)
    (hempty : build.table = .empty)
    (hgraph : Graph.ofRoots build files entries forced = .ok graph)
    (hbuild : Table.build build files entries forced = .ok table)
    (hresolved : graph.unresolved = []) (hengine : graph.engineModules = [])
    (hkeys : KeysIdentify build files (Graph.asked build files entries forced))
    (hnames : ∀ query ∈ Graph.asked build files entries forced,
      ¬ (⟨query.specifier⟩ : Specifier).NamesDirectory)
    (runtime : Resolver) (htable : runtime.table = table)
    (hfallback : runtime.settings.pathFallback = build.settings.pathFallback)
    (files' : FileView) :
    ∃ source packed,
      Linker.empty.linkEntries build files entries = (.ok graph.entries, source) ∧
      Linker.empty.linkEntries runtime files' table.entries = (.ok table.entries, packed) ∧
      packed.modules = source.modules.map LinkedModule.packed := by
  have hbuilt := built_of_build build files entries forced graph table hempty hgraph hbuild
  have hruntime : Carries runtime build table := ⟨htable, hfallback⟩
  have hentries := hbuilt.entries_eq_map hresolved hengine
  have hpairs : ∀ entry ∈ entries, Corresponds build runtime files files'
      (Graph.asked build files entries forced) graph entry none (entryKey build files entry)
      none := by
    intro entry hentry
    have hquery : ⟨entry, .workingDirectory⟩ ∈ Graph.asked build files entries forced :=
      Built.mem_asked_of_root entry (List.mem_append_left _ hentry)
    obtain ⟨found, hfound⟩ := hbuilt.discovered.found_of_complete hengine hresolved _ hquery
    obtain ⟨_, _, m, hm, hkey⟩ := hbuilt.visit _ hquery found hfound
    refine ⟨hquery, found, hfound, m, hm, hkey, ?_⟩
    have hresolve := hbuilt.resolve_key runtime hruntime files' m hm
    rw [hkey] at hresolve
    rw [entryKey, hfound]
    exact hresolve
  have hstep := hbuilt.inStep hresolved hengine hkeys hnames runtime hruntime files'
  obtain ⟨keys, source, hsource, hpacked⟩ :=
    hstep.linkEntries Linker.empty entries (entryKey build files) hpairs
  rw [← hentries] at hpacked
  have hitself := hbuilt.namesItself_entry runtime hruntime files'
  have hsame := Linker.linkEntries_keys _ _ _ _ hitself hpacked
  subst hsame
  refine ⟨source, source.packed, hsource, ?_, rfl⟩
  rw [hbuilt.entries_eq]
  exact Linker.linkEntries_distinct _ _ _ hitself hpacked

end Programs

open SampleProgram in
/-- The sample program links to the same modules without its files. -/
theorem linkEntries_packed_eq_source_sample :
    ∃ source packed,
      Linker.empty.linkEntries resolver files ["./main"] = (.ok ["./main"], source) ∧
      Linker.empty.linkEntries runtime noFiles table.entries = (.ok table.entries, packed) ∧
      packed.modules = source.modules.map LinkedModule.packed := by
  refine linkEntries_packed_eq_source resolver files ["./main"] [] graph table rfl stages.1
    build_eq rfl rfl (keysIdentify_of_nodup resolver files _ ?_) ?_ runtime rfl rfl noFiles
  · rw [asked_eq, show Graph.visits resolver files _ = [⟨main.identity, .file "./main.js"⟩,
      ⟨util.identity, .file "./util.js"⟩, ⟨math.identity, .file "mods/math/index.js"⟩,
      ⟨add.identity, .file "mods/math/add.js"⟩] from rfl]
    decide
  · rw [asked_eq]
    decide

end ModuleLoading
