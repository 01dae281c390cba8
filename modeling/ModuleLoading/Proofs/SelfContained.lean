import ModuleLoading.Proofs.BuiltTable
import ModuleLoading.Proofs.Linking

/-!
A program whose graph is complete needs nothing but its table. Every static import
of an embedded module leads to an embedded module, whatever the files and the
search path are, so that linking the entries of the table never leaves it.
-/
namespace ModuleLoading

section Programs

variable {build : Resolver} {files : FileView} {entries forced : List String}
variable {graph : Graph} {table : Table}

/-- A specifier that leads to an embedded module of the build from its importer. -/
def StaysEmbedded (runtime : Resolver) (files' : FileView) (graph : Graph)
    (specifier : String) (referrer : Option Identity) : Prop :=
  ∃ m ∈ graph.modules,
    runtime.resolve files' specifier (baseOf referrer) = .ok m.embedded.resolved

theorem StaysEmbedded.load (runtime : Resolver) (files' : FileView) (specifier : String)
    (referrer : Option Identity) (h : StaysEmbedded runtime files' graph specifier referrer) :
    ∃ m ∈ graph.modules, runtime.load files' specifier referrer =
      .ok ⟨m.embedded.identity, .embedded, m.source, none⟩ := by
  obtain ⟨m, hm, hresolve⟩ := h
  refine ⟨m, hm, ?_⟩
  rw [Resolver.load, hresolve]
  rfl

/-- The imports of an embedded module stay embedded when the graph is complete. -/
theorem Built.imports_stay_embedded (hbuilt : Built build files entries forced graph table)
    (hresolved : graph.unresolved = []) (hengine : graph.engineModules = [])
    (runtime : Resolver) (hruntime : Carries runtime build table) (files' : FileView)
    (m : GraphModule) (hm : m ∈ graph.modules) (specifier : String)
    (hspecifier : specifier ∈ Graph.staticSpecifiers m) :
    StaysEmbedded runtime files' graph specifier (some m.embedded.identity) := by
  have hquery := hbuilt.mem_asked_of_import m hm specifier hspecifier
  obtain ⟨found, hfound⟩ := hbuilt.discovered.found_of_complete hengine hresolved _ hquery
  have hsame := Request.sameKeys_of_root specifier m.identity.baseDir none
  obtain ⟨other, hother, hembedded, _⟩ :=
    hbuilt.embedded?_visit runtime hruntime _ hquery found hfound _ hsame
  exact ⟨other, hother, runtime.resolve_embedded files' specifier _ other.embedded hembedded⟩

/-- A walk over a complete table is in step with itself as a walk over packed
modules: it never comes to any others. -/
theorem Built.inStep_self (hbuilt : Built build files entries forced graph table)
    (hresolved : graph.unresolved = []) (hengine : graph.engineModules = [])
    (runtime : Resolver) (hruntime : Carries runtime build table) (files' : FileView) :
    Linker.InStep runtime runtime files' files' fun specifier referrer specifier' referrer' =>
      specifier' = specifier ∧ referrer' = referrer ∧
        StaysEmbedded runtime files' graph specifier referrer where
  loads specifier referrer specifier' referrer' hpair := by
    obtain ⟨rfl, rfl, hstays⟩ := hpair
    obtain ⟨m, hm, hload⟩ := hstays.load
    refine ⟨_, hload, hload, fun imported himported => ⟨rfl, rfl, ?_⟩⟩
    exact hbuilt.imports_stay_embedded hresolved hengine runtime hruntime files' m hm imported
      himported

/-- Every entry of a packed program is linked under its own name. -/
theorem Built.namesItself_entry (hbuilt : Built build files entries forced graph table)
    (runtime : Resolver) (hruntime : Carries runtime build table) (files' : FileView)
    (key : String) (hkey : key ∈ graph.entries) : Linker.NamesItself runtime files' key := by
  obtain ⟨m, hm, rfl⟩ := hbuilt.exists_of_mem_entries key hkey
  refine ⟨⟨m.embedded.identity, .embedded, m.source, none⟩, ?_, rfl⟩
  rw [Resolver.load, baseOf, hbuilt.resolve_key runtime hruntime files' m hm]
  rfl

/-- A packed program whose build left nothing unresolved and nothing to the engine
links from its table alone. -/
theorem linkEntries_self_contained (build : Resolver) (files : FileView)
    (entries forced : List String) (graph : Graph) (table : Table)
    (hempty : build.table = .empty)
    (hgraph : Graph.ofRoots build files entries forced = .ok graph)
    (hbuild : Table.build build files entries forced = .ok table)
    (hresolved : graph.unresolved = []) (hengine : graph.engineModules = [])
    (runtime : Resolver) (htable : runtime.table = table)
    (hfallback : runtime.settings.pathFallback = build.settings.pathFallback)
    (files' : FileView) :
    ∃ linker, Linker.empty.linkEntries runtime files' table.entries =
        (.ok table.entries, linker) ∧
      ∀ m ∈ linker.modules, m.origin = .embedded := by
  have hbuilt := built_of_build build files entries forced graph table hempty hgraph hbuild
  have hruntime : Carries runtime build table := ⟨htable, hfallback⟩
  have hentry : ∀ key ∈ table.entries, key ∈ graph.entries := by
    intro key hkey
    rwa [hbuilt.entries_eq, mem_distinct] at hkey
  have hstays : ∀ key ∈ table.entries, StaysEmbedded runtime files' graph key none := by
    intro key hkey
    obtain ⟨m, hm, rfl⟩ := hbuilt.exists_of_mem_entries key (hentry key hkey)
    exact ⟨m, hm, hbuilt.resolve_key runtime hruntime files' m hm⟩
  have hstep := hbuilt.inStep_self hresolved hengine runtime hruntime files'
  obtain ⟨keys, linker, hlinks, hpacked⟩ := hstep.linkEntries Linker.empty table.entries id
    fun key hkey => ⟨rfl, rfl, hstays key hkey⟩
  have hkeys := Linker.linkEntries_keys _ _ _ _ (fun key hkey =>
    hbuilt.namesItself_entry runtime hruntime files' key (hentry key hkey)) hlinks
  refine ⟨linker, hkeys ▸ hlinks, fun m hm => ?_⟩
  have hsame : linker = linker.packed := by
    rw [List.map_id] at hpacked
    exact congrArg Prod.snd (hlinks.symm.trans hpacked)
  rw [hsame] at hm
  obtain ⟨other, _, rfl⟩ := List.mem_map.1 hm
  rfl

end Programs

open SampleProgram in
/-- The sample program links without its files. -/
theorem linkEntries_self_contained_sample :
    ∃ linker, Linker.empty.linkEntries runtime noFiles table.entries =
        (.ok table.entries, linker) ∧
      ∀ m ∈ linker.modules, m.origin = .embedded :=
  linkEntries_self_contained resolver files ["./main"] [] graph table rfl stages.1 build_eq rfl rfl
    runtime rfl rfl noFiles

end ModuleLoading
