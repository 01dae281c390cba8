import ModuleLoading.Proofs.BuiltTable

/-!
A specifier has the same key at run time as during the build, whatever disk and
search path there are then. Where the build fell back from a name to a path, no
module of the table can have the name, so that the table is not asked too early.
-/
namespace ModuleLoading

/-- The module that the table answers with is the one of a key, as the first of the
given queries with this key found it. -/
def AnswersFirst (build : Resolver) (files : FileView) (asked : List Query) (key : String)
    (answer : Except LoadError Resolved) : Prop :=
  ∃ first loaded, Graph.firstVisit? build files asked key = some first ∧
    first.read files = .ok loaded ∧
    answer = .ok ⟨⟨key, first.identity.dirname, first.identity.space, none⟩, .embedded loaded.code⟩

namespace Built

variable {build : Resolver} {files : FileView} {entries forced : List String}
variable {graph : Graph} {table : Table}

/-- A module of the table is the one that discovery met first under its key. -/
theorem answersFirst_embedded (hbuilt : Built build files entries forced graph table)
    (m : GraphModule) (hm : m ∈ graph.modules) :
    AnswersFirst build files (Graph.asked build files entries forced) m.key
      (.ok m.embedded.resolved) := by
  obtain ⟨first, hfirst, hfetch⟩ := hbuilt.discovered.first m.bare (List.mem_map_of_mem hm)
  obtain ⟨loaded, hread, _, hsource⟩ := Graph.read_of_fetch files first m.bare hfetch
  have hidentity : m.identity = first.identity :=
    Graph.identity_of_fetch files first m.bare hfetch
  refine ⟨first, loaded, hfirst, hread, ?_⟩
  rw [← hsource, ← hidentity]
  rfl

/-- Whatever request asks the table for the keys of a query gets its answer. -/
theorem answersFirst_of_sameKeys (hbuilt : Built build files entries forced graph table)
    (runtime : Resolver) (hruntime : Carries runtime build table) (files' : FileView)
    (query : Query) (hquery : query ∈ Graph.asked build files entries forced)
    (found : Resolved) (hanswer : query.answer build files = .ok found)
    (horigin : found.content.origin = .filesystem)
    (hdot : ¬ (⟨query.specifier⟩ : Specifier).NamesDirectory) (base : BaseDir)
    (hsame : (Request.make query.specifier base).SameKeys (.make query.specifier query.base)) :
    AnswersFirst build files (Graph.asked build files entries forced) found.identity.key
      (runtime.resolve files' query.specifier base) := by
  have hfound := (query.found?_eq_some_iff build files found).2 ⟨hanswer, by simp [horigin]⟩
  obtain ⟨m, hm, hkey, hembedded⟩ :=
    hbuilt.embedded?_stable runtime hruntime query hquery found hfound _ hsame hdot
  rw [runtime.resolve_embedded files' query.specifier base m.embedded hembedded, ← hkey]
  exact hbuilt.answersFirst_embedded m hm

end Built

/-- Every specifier that led the build to a file leads a packed program to the
embedded module of the same key, from the directory of its importer and, for a
root, from any directory that it may be seen from. -/
theorem resolve_table_eq_build (build : Resolver) (files : FileView)
    (entries forced : List String) (graph : Graph) (table : Table)
    (hempty : build.table = .empty)
    (hgraph : Graph.ofRoots build files entries forced = .ok graph)
    (hbuild : Table.build build files entries forced = .ok table)
    (runtime : Resolver) (htable : runtime.table = table)
    (hfallback : runtime.settings.pathFallback = build.settings.pathFallback)
    (files' : FileView) :
    (∀ stored ∈ table.modules, ∃ m ∈ graph.modules,
      stored = .ofIdentity m.identity m.source ∧
      ∀ specifier ∈ Graph.staticSpecifiers m, ∀ found,
        build.resolve files specifier m.identity.baseDir = .ok found →
        found.content.origin = .filesystem →
        ¬ (⟨specifier⟩ : Specifier).NamesDirectory →
        AnswersFirst build files (Graph.asked build files entries forced) found.identity.key
          (runtime.resolve files' specifier stored.identity.baseDir)) ∧
    (∀ specifier ∈ entries ++ forced, ∀ found,
      build.resolve files specifier .workingDirectory = .ok found →
      found.content.origin = .filesystem →
      ¬ (⟨specifier⟩ : Specifier).NamesDirectory →
      ∀ base, ((⟨specifier⟩ : Specifier).kind = .relative → base = .workingDirectory) →
        AnswersFirst build files (Graph.asked build files entries forced) found.identity.key
          (runtime.resolve files' specifier base)) := by
  have hbuilt := built_of_build build files entries forced graph table hempty hgraph hbuild
  have hruntime : Carries runtime build table := ⟨htable, hfallback⟩
  constructor
  · intro stored hstored
    obtain ⟨m, hm, rfl⟩ := (hbuilt.mem_modules_iff stored).1 hstored
    refine ⟨m, hm, rfl, fun specifier hspecifier found hanswer horigin hdot => ?_⟩
    exact hbuilt.answersFirst_of_sameKeys runtime hruntime files'
      ⟨specifier, m.identity.baseDir⟩ (hbuilt.mem_asked_of_import m hm specifier hspecifier)
      found hanswer horigin hdot _ (Request.sameKeys_of_root specifier m.identity.baseDir none)
  · intro specifier hspecifier found hanswer horigin hdot base hbase
    have hsame : (Request.make specifier base).SameKeys (.make specifier .workingDirectory) := by
      by_cases hkind : (⟨specifier⟩ : Specifier).kind = .relative
      · rw [hbase hkind]
        exact ⟨rfl, rfl⟩
      · exact Request.sameKeys_of_kind specifier .workingDirectory base hkind
    exact hbuilt.answersFirst_of_sameKeys runtime hruntime files'
      ⟨specifier, .workingDirectory⟩ (Built.mem_asked_of_root specifier hspecifier)
      found hanswer horigin hdot base hsame

open SampleProgram in
/-- The entry of the sample program is the same module without its files. -/
theorem resolve_table_eq_build_sample :
    AnswersFirst resolver files (Graph.asked resolver files ["./main"] []) "./main"
      (runtime.resolve noFiles "./main" .workingDirectory) :=
  (resolve_table_eq_build resolver files ["./main"] [] graph table rfl stages.1 build_eq runtime
    rfl rfl noFiles).2 "./main" (by simp) ⟨main.identity, .file "./main.js"⟩ rfl rfl (by decide)
    .workingDirectory fun _ => rfl

end ModuleLoading
