import ModuleLoading.Proofs.BuildFailures
import ModuleLoading.Proofs.FileDirectories

/-!
Keys that are taken for specifiers. A packed program is started by the keys of its entries, so a
key that is asked for in the working directory must lead to the module that it is the key of. What
this rests on is that a key can be read without a translation: there is no colon in it, since
there is none in the directory of any module that resolution comes to, on whatever disks and with
whatever tables that were built.
-/
namespace ModuleLoading

/-- The tables that come from building programs, the first of them without any table. -/
inductive Table.Packed : Table → Prop
  | empty : Packed .empty
  | build (resolver : Resolver) (files : FileView) (entries forced : List String) (table : Table)
      (hown : Packed resolver.table)
      (h : Table.build resolver files entries forced = .ok table) : Packed table

/-- The directories that requests are made from: the working directory, and that of a module which
was found from one of them. Disk and table may change on the way. -/
inductive BaseDir.Visited : BaseDir → Prop
  | start : Visited .workingDirectory
  | step (base : BaseDir) (resolver : Resolver) (files : FileView) (raw : String)
      (found : Resolved) (hbase : Visited base) (htable : resolver.table.Packed)
      (h : resolver.resolve files raw base = .ok found) : Visited found.identity.baseDir

/-- No module's directory has a colon, so that joining a specifier to it needs no translation. -/
def Table.ColonFree (table : Table) : Prop :=
  ∀ m ∈ table.modules, ':' ∉ m.dirname.toList

theorem FoundFile.colon_notMem_dirname {found : Resolved} {text : String} {form : Form}
    (h : FoundFile found text form) (htext : ':' ∉ text.toList) :
    ':' ∉ found.identity.dirname.toList := by
  have hkey : IsKey found.identity.space (found.identity.space.keyOf text) := ⟨text, htext, rfl⟩
  have hsuffix : ':' ∉ form.suffix.toList := by
    cases form <;> decide
  rw [h.dirname_eq]
  intro hcolon
  rcases Key.mem_parent _ ':' hcolon with hpath | hslash | hdot
  · rw [String.toList_append] at hpath
    rcases List.mem_append.1 hpath with hpath | hpath
    · exact hkey.colon_notMem hpath
    · exact hsuffix hpath
  · simp at hslash
  · simp at hdot

namespace Resolver

variable {resolver : Resolver} {files : FileView} {raw : String} {base : BaseDir}

/-- One step of resolution: no colon gets into the directory of a module. -/
theorem colon_notMem_of_resolve (htable : resolver.table.ColonFree)
    (hbase : ':' ∉ base.dir.toList) (found : Resolved)
    (h : resolver.resolve files raw base = .ok found) :
    ':' ∉ found.identity.dirname.toList := by
  rcases (resolver.resolve_eq_ok_iff files raw base found).1 h with
    ⟨m, hembedded, rfl⟩ | ⟨_, hfile | ⟨_, hengine⟩⟩
  · exact htable m (mem_of_embedded? hembedded)
  · obtain ⟨form, hfound⟩ := (resolver.finds_of_file? files raw base found hfile).foundFile
    exact hfound.colon_notMem_dirname (Request.colon_notMem_text raw base hbase)
  · rw [(resolver.identity_of_fromEngine raw found hengine).1]
    exact BaseDir.colon_notMem_workingDirectory

theorem Reached.colon_notMem (htable : resolver.table.ColonFree)
    (h : resolver.Reached files base) : ':' ∉ base.dir.toList := by
  induction h with
  | start => exact BaseDir.colon_notMem_workingDirectory
  | step base raw found hbase hresolve ih => exact colon_notMem_of_resolve htable ih found hresolve

end Resolver

/-- The directories of a built table are those of the modules that discovery came to. -/
theorem Table.colonFree_of_build (resolver : Resolver) (files : FileView)
    (entries forced : List String) (table : Table) (hown : resolver.table.ColonFree)
    (h : Table.build resolver files entries forced = .ok table) : table.ColonFree := by
  unfold Table.build at h
  split at h
  · cases h
  · next graph hgraph =>
    obtain ⟨rooted, rooted', explored, _, _, _, _, hform⟩ := Graph.stages_of_ofRoots graph hgraph
    have hascending : Ascending GraphModule.key graph.modules := by
      rw [hform]
      exact ascending_foldl_insertByKey GraphModule.key _ [] (by simp [Ascending])
    have hdiscovered := Graph.discovered_of_ofRoots graph hgraph
    intro stored hstored
    rw [((Graph.toTable_eq_ok_iff graph hascending table).1 h).2.1] at hstored
    obtain ⟨m, hm, rfl⟩ := List.mem_map.1 hstored
    have hreached : resolver.Reached files m.bare.identity.baseDir :=
      hdiscovered.reached_baseDir m.bare (List.mem_map_of_mem hm)
    exact hreached.colon_notMem hown

theorem Table.Packed.colonFree {table : Table} (h : table.Packed) : table.ColonFree := by
  induction h with
  | empty =>
    intro m hm
    cases hm
  | build resolver files entries forced table _ hbuild ih =>
    exact Table.colonFree_of_build resolver files entries forced table ih hbuild

theorem BaseDir.Visited.colon_notMem {base : BaseDir} (h : base.Visited) :
    ':' ∉ base.dir.toList := by
  induction h with
  | start => exact BaseDir.colon_notMem_workingDirectory
  | step base resolver files raw found _ htable hresolve ih =>
    exact Resolver.colon_notMem_of_resolve htable.colonFree ih found hresolve

/-- As a specifier of the working directory a key is its own key, in the space that it was made
in; the one key of both spaces is read as a path. -/
structure Request.ReadsBack (space : Namespace) (key : String) : Prop where
  key_eq : (make key .workingDirectory).key = key
  space_eq : (make key .workingDirectory).space =
    if key = Key.workingDirectory then .filesystem else space

theorem IsKey.readsBack {space : Namespace} {key : String} (h : IsKey space key) :
    Request.ReadsBack space key where
  key_eq := key_make_of_isKey space key h
  space_eq := space_make_of_isKey space key h

namespace Resolver

variable (resolver : Resolver) (files : FileView)

/-- A path has the key of the module that it leads to. -/
theorem key_of_path (raw : String) (base : BaseDir) (hkind : (⟨raw⟩ : Specifier).kind ≠ .bare)
    (hspace : (Request.make raw base).space = .filesystem) (found : Resolved)
    (h : resolver.resolve files raw base = .ok found)
    (horigin : found.content.origin ≠ .engine) :
    found.identity.key = (Request.make raw base).key := by
  rcases (resolver.resolve_eq_ok_iff files raw base found).1 h with
    ⟨m, hembedded, rfl⟩ | ⟨_, hfile | ⟨_, hengine⟩⟩
  · exact Table.key_of_get? (resolver.get?_of_embedded? raw base m hkind hembedded)
  · rw [resolver.file?_path files raw base hkind hspace] at hfile
    obtain ⟨_, _, _, rfl⟩ := resolver.atPath_eq_some files _ _ hfile
    rfl
  · exact absurd (resolver.identity_of_fromEngine raw found hengine).2 horigin

/-- A path that is a key leads to the same module as every request with this key. -/
theorem resolve_key_of_path (raw : String) (base : BaseDir)
    (hkind : (⟨raw⟩ : Specifier).kind ≠ .bare)
    (hkey : IsKey .filesystem (Request.make raw base).key)
    (hspace : (Request.make raw base).space = .filesystem) (found : Resolved)
    (h : resolver.resolve files raw base = .ok found)
    (horigin : found.content.origin ≠ .engine) :
    resolver.resolve files (Request.make raw base).key .workingDirectory = .ok found := by
  have hmake := make_of_isPath hkey
  have hhits := resolver.not_misses_of_origin files raw base found h horigin
  rw [← h]
  refine resolver.resolve_of_same_search files raw base _ .workingDirectory ?_ ?_ hhits
  · simp only [embedded?, hmake, Request.fallbackKey_make raw base hkind]
  · rw [resolver.file?_path files raw base hkind hspace,
      resolver.file?_path files _ .workingDirectory hkey.kind_ne_bare (by rw [hmake]), hmake]

end Resolver

/-- The keys of a request are read as themselves, and where the request is for a path, its key leads
to the same module. -/
theorem key_names_itself (raw : String) (base : BaseDir) (hbase : base.Visited) :
    Request.ReadsBack (Request.make raw base).space (Request.make raw base).key ∧
    (∀ fallback, (Request.make raw base).fallbackKey = some fallback →
      Request.ReadsBack .filesystem fallback) ∧
    (∀ (resolver : Resolver) (files : FileView) (found : Resolved),
      (⟨raw⟩ : Specifier).kind ≠ .bare → (Request.make raw base).space = .filesystem →
      resolver.resolve files raw base = .ok found → found.content.origin ≠ .engine →
      found.identity.key = (Request.make raw base).key ∧
        resolver.resolve files found.identity.key .workingDirectory = .ok found) := by
  have hcolon := hbase.colon_notMem
  have hkey := Request.isKey_key raw base hcolon
  refine ⟨hkey.readsBack, ?_, ?_⟩
  · intro fallback hfallback
    exact (Request.isKey_fallbackKey raw base fallback hcolon hfallback).readsBack
  · intro resolver files found hkind hspace hresolve horigin
    rw [hspace] at hkey
    have hsame := resolver.key_of_path files raw base hkind hspace found hresolve horigin
    rw [hsame]
    exact ⟨rfl, resolver.resolve_key_of_path files raw base hkind hkey hspace found hresolve
      horigin⟩

open SampleProgram in
/-- From the directory of an embedded module and from the working directory. -/
theorem key_names_itself_sample :
    BaseDir.Visited ⟨.search, "math", none⟩ ∧
      Request.make "../..:add" ⟨.search, "math", none⟩ =
        ⟨⟨"../..:add"⟩, .search, "add", none, none⟩ ∧
      Request.ReadsBack .search "add" ∧
      (Request.make "math" .workingDirectory).fallbackKey = some "./math" ∧
      Request.ReadsBack .filesystem "./math" ∧
      runtime.resolve noFiles "./lib:..:util" .workingDirectory =
        .ok ⟨⟨"./util", ".", .filesystem, none⟩, .embedded []⟩ ∧
      runtime.resolve noFiles "./util" .workingDirectory =
        .ok ⟨⟨"./util", ".", .filesystem, none⟩, .embedded []⟩ := by
  have hpacked : runtime.table.Packed := .build resolver files ["./main"] [] table .empty build_eq
  have hmath : runtime.resolve noFiles "math" .workingDirectory =
      .ok ⟨⟨"math", "math", .search, none⟩, .embedded mathSource⟩ := rfl
  have hvisited : BaseDir.Visited ⟨.search, "math", none⟩ :=
    .step .workingDirectory runtime noFiles "math" _ .start hpacked hmath
  have hutil : runtime.resolve noFiles "./lib:..:util" .workingDirectory =
      .ok ⟨⟨"./util", ".", .filesystem, none⟩, .embedded []⟩ := rfl
  have hname := (key_names_itself "../..:add" _ hvisited).1
  have hfallback := (key_names_itself "math" .workingDirectory .start).2.1 "./math" rfl
  have hpath := (key_names_itself "./lib:..:util" .workingDirectory .start).2.2 runtime noFiles _
    (by decide) rfl hutil (by decide)
  exact ⟨hvisited, rfl, hname, rfl, hfallback, hutil, hpath.2⟩

end ModuleLoading
