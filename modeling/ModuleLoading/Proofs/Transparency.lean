import ModuleLoading.Proofs.BuiltTable

/-!
Where embedding shows. Over the files that a table was built from, most specifiers
name the same module with the table as without it: all that are paths and, of the
bare names, those that the table does not know. A bare name that the table knows
may name another module on disk, because a table knows a name also from relative
imports under some root, and a path also as the fallback of a name. `Drifts` lists
these cases, and nothing else drifts.
-/
namespace ModuleLoading

/-- Both fail, or both lead to modules with the same key and the same content. -/
def Agrees (files : FileView) (left right : Except LoadError Resolved) : Prop :=
  (∃ e e', left = .error e ∧ right = .error e') ∨
    ∃ found found' loaded loaded', left = .ok found ∧ right = .ok found' ∧
      found.identity.key = found'.identity.key ∧ found.read files = .ok loaded ∧
      found'.read files = .ok loaded' ∧ loaded.code = loaded'.code

/-- A search that ends at a file with some content. -/
def EndsAt (files : FileView) (outcome : Except LoadError (Option Resolved)) (code : Bytes) :
    Prop :=
  ∃ found loaded, outcome = .ok (some found) ∧ found.read files = .ok loaded ∧ loaded.code = code

/-- Without a table a specifier leads to a module of this key and content: the search for its
file ends at one, or finds nothing while the engine has one of this name. -/
inductive Supplies (disk : Resolver) (files : FileView) (specifier key : String) (code : Bytes) :
    Prop
  | file (found : Resolved) (loaded : Loaded)
      (hfile : disk.file? files (.make specifier .workingDirectory) = .ok (some found))
      (hkey : found.identity.key = key) (hread : found.read files = .ok loaded)
      (hcode : loaded.code = code)
  | engine (hmiss : disk.file? files (.make specifier .workingDirectory) = .ok none)
      (hkey : specifier = key) (hsource : disk.builtins.source? specifier = some code)

namespace Supplies

variable {disk : Resolver} {files : FileView} {specifier key : String} {code : Bytes}

theorem not_of_error (e : LoadError)
    (h : disk.file? files (.make specifier .workingDirectory) = .error e) :
    ¬ Supplies disk files specifier key code := by
  intro hsupplies
  cases hsupplies with
  | file found loaded hfile hkey hread hcode => cases h.symm.trans hfile
  | engine hmiss hkey hsource => cases h.symm.trans hmiss

theorem iff_of_file (found : Resolved)
    (h : disk.file? files (.make specifier .workingDirectory) = .ok (some found)) :
    Supplies disk files specifier key code ↔
      key = found.identity.key ∧ ∃ loaded, found.read files = .ok loaded ∧ loaded.code = code := by
  constructor
  · intro hsupplies
    cases hsupplies with
    | file other loaded hfile hkey hread hcode =>
      cases h.symm.trans hfile
      exact ⟨hkey.symm, loaded, hread, hcode⟩
    | engine hmiss hkey hsource => cases h.symm.trans hmiss
  · rintro ⟨hkey, loaded, hread, hcode⟩
    exact .file found loaded h hkey.symm hread hcode

theorem iff_of_miss (h : disk.file? files (.make specifier .workingDirectory) = .ok none) :
    Supplies disk files specifier key code ↔
      specifier = key ∧ disk.builtins.source? specifier = some code := by
  constructor
  · intro hsupplies
    cases hsupplies with
    | file other loaded hfile hkey hread hcode => cases h.symm.trans hfile
    | engine hmiss hkey hsource => exact ⟨hkey, hsource⟩
  · rintro ⟨hkey, hsource⟩
    exact .engine h hkey hsource

end Supplies

/-- The cases in which a specifier names another module with the table than on disk. -/
inductive Drifts (disk bundled : Resolver) (files : FileView) (specifier : String) : Prop
  /-- The table has the name, but the roots have none such or another file first. -/
  | name (m : EmbeddedModule) (hkind : (⟨specifier⟩ : Specifier).kind = .bare)
      (hget : bundled.table.get? (Request.make specifier .workingDirectory).key = some m)
      (hdot : m.key ≠ Key.workingDirectory)
      (hroots : ¬ EndsAt files (disk.underRoots files (.make specifier .workingDirectory)
        Form.search disk.settings.searchPath.roots) m.code)
  /-- The table has only the path of the name, but the search does not get to it. -/
  | path (m : EmbeddedModule) (hkind : (⟨specifier⟩ : Specifier).kind = .bare)
      (hname : bundled.table.get? (Request.make specifier .workingDirectory).key = none)
      (hpath : bundled.embedded? (.make specifier .workingDirectory) = some m)
      (hdot : m.key ≠ Key.workingDirectory)
      (hroots : disk.underRoots files (.make specifier .workingDirectory)
        Form.search disk.settings.searchPath.roots ≠ .ok none)
  /-- The table has a module for the working directory itself, which is the one key
  that is both a name and a path. The search fails, ends at another module, or misses one
  that the engine does not have either. -/
  | directory (m : EmbeddedModule)
      (hembedded : bundled.embedded? (.make specifier .workingDirectory) = some m)
      (hdot : m.key = Key.workingDirectory)
      (hdisk : ¬ Supplies disk files specifier Key.workingDirectory m.code)

namespace Drifts

variable {disk bundled : Resolver} {files : FileView} {specifier : String}

/-- The module that the table answers with, in whichever case. -/
theorem exists_embedded (h : Drifts disk bundled files specifier) :
    ∃ m, bundled.embedded? (.make specifier .workingDirectory) = some m := by
  cases h with
  | name m hkind hget hdot hroots => exact ⟨m, bundled.embedded?_key _ m hget⟩
  | path m hkind hname hpath hdot hroots => exact ⟨m, hpath⟩
  | directory m hembedded hdot hdisk => exact ⟨m, hembedded⟩

theorem name_iff (m : EmbeddedModule) (hkind : (⟨specifier⟩ : Specifier).kind = .bare)
    (hget : bundled.table.get? (Request.make specifier .workingDirectory).key = some m)
    (hdot : m.key ≠ Key.workingDirectory) :
    Drifts disk bundled files specifier ↔
      ¬ EndsAt files (disk.underRoots files (.make specifier .workingDirectory) Form.search
        disk.settings.searchPath.roots) m.code := by
  constructor
  · intro h
    cases h with
    | name other _ hother _ hroots =>
      rw [hget, Option.some.injEq] at hother
      exact hother ▸ hroots
    | path other _ hname _ _ _ =>
      rw [hget] at hname
      cases hname
    | directory other hembedded heq _ =>
      rw [bundled.embedded?_key _ m hget, Option.some.injEq] at hembedded
      exact absurd (hembedded ▸ heq) hdot
  · exact .name m hkind hget hdot

theorem path_iff (m : EmbeddedModule) (hkind : (⟨specifier⟩ : Specifier).kind = .bare)
    (hname : bundled.table.get? (Request.make specifier .workingDirectory).key = none)
    (hpath : bundled.embedded? (.make specifier .workingDirectory) = some m)
    (hdot : m.key ≠ Key.workingDirectory) :
    Drifts disk bundled files specifier ↔
      disk.underRoots files (.make specifier .workingDirectory) Form.search
        disk.settings.searchPath.roots ≠ .ok none := by
  constructor
  · intro h
    cases h with
    | name other _ hother _ _ =>
      rw [hname] at hother
      cases hother
    | path other _ _ _ _ hroots => exact hroots
    | directory other hembedded heq _ =>
      rw [hpath, Option.some.injEq] at hembedded
      exact absurd (hembedded ▸ heq) hdot
  · exact .path m hkind hname hpath hdot

theorem directory_iff (m : EmbeddedModule)
    (hembedded : bundled.embedded? (.make specifier .workingDirectory) = some m)
    (hdot : m.key = Key.workingDirectory) :
    Drifts disk bundled files specifier ↔
      ¬ Supplies disk files specifier Key.workingDirectory m.code := by
  constructor
  · intro h
    cases h with
    | name other _ hget hne _ =>
      rw [bundled.embedded?_key _ other hget, Option.some.injEq] at hembedded
      exact absurd (hembedded ▸ hdot) hne
    | path other _ _ hpath hne _ =>
      rw [hpath, Option.some.injEq] at hembedded
      exact absurd (hembedded ▸ hdot) hne
    | directory other hother _ hdisk =>
      rw [hother, Option.some.injEq] at hembedded
      exact hembedded ▸ hdisk
  · exact .directory m hembedded hdot

/-- A path does not drift, unless it is the working directory. -/
theorem not_path (m : EmbeddedModule) (hkind : (⟨specifier⟩ : Specifier).kind ≠ .bare)
    (hembedded : bundled.embedded? (.make specifier .workingDirectory) = some m)
    (hdot : m.key ≠ Key.workingDirectory) : ¬ Drifts disk bundled files specifier := by
  intro h
  cases h with
  | name _ hbare _ _ _ => exact hkind hbare
  | path _ hbare _ _ _ _ => exact hkind hbare
  | directory other hother heq _ =>
    rw [hother, Option.some.injEq] at hembedded
    exact hdot (hembedded ▸ heq)

end Drifts

theorem read_of_isLoadable (files : FileView) (path : String)
    (h : files.isLoadable path = true) : ∃ code, files.read path = .ok code := by
  rw [FileView.isLoadable] at h
  split at h
  · next content hfile =>
    refine ⟨content, ?_⟩
    rw [FileView.read, hfile]
    rfl
  · cases h

namespace Resolver

variable {resolver : Resolver} {files : FileView} {raw : String} {base : BaseDir}

/-- What is found can be read. -/
theorem Finds.read (found : Resolved) (hfinds : resolver.Finds files raw base found)
    (hbase : resolver.Placed base) :
    ∃ loaded, found.read files = .ok loaded := by
  obtain ⟨key, space, form, root, path, _, hload, _, rfl⟩ := hfinds.shape hbase
  obtain ⟨code, hcode⟩ := read_of_isLoadable files path hload
  refine ⟨⟨.ofProbe key space form root, .filesystem, code, some path⟩, ?_⟩
  simp only [Resolved.read, hcode]

theorem agrees_self (hempty : resolver.table = .empty) (hbase : resolver.Placed base) :
    Agrees files (resolver.resolve files raw base) (resolver.resolve files raw base) := by
  cases hanswer : resolver.resolve files raw base with
  | error e => exact .inl ⟨e, e, rfl, rfl⟩
  | ok found =>
    have hread : ∃ loaded, found.read files = .ok loaded := by
      rcases resolver.finds_or_engine files raw base hempty found hanswer with
        hfinds | ⟨_, hengine⟩
      · exact hfinds.read found hbase
      · rw [fromEngine] at hengine
        split at hengine
        · cases hengine
          exact ⟨_, rfl⟩
        · cases hengine
    obtain ⟨loaded, hloaded⟩ := hread
    exact .inr ⟨found, found, loaded, loaded, rfl, rfl, rfl, hloaded, hloaded, rfl⟩

end Resolver

section Programs

variable {build : Resolver} {files : FileView} {entries forced : List String}
variable {graph : Graph} {table : Table}

namespace Built

/-- Every embedded module was found and read by a query of the build. -/
theorem source_of_get? (hbuilt : Built build files entries forced graph table) (key : String)
    (stored : EmbeddedModule) (hget : table.get? key = some stored) :
    ∃ raw base found loaded, build.Placed base ∧ build.Finds files raw base found ∧
      found.identity.key = key ∧ found.read files = .ok loaded ∧ loaded.code = stored.code := by
  obtain ⟨m, hm, rfl, rfl⟩ := (hbuilt.get?_eq_some_iff key stored).1 hget
  obtain ⟨query, hquery, first, hfound, hkey, hfetch⟩ :=
    hbuilt.discovered.exists_query m.bare (List.mem_map_of_mem hm)
  obtain ⟨hplaced, hfinds, _⟩ := hbuilt.visit query hquery first hfound
  obtain ⟨loaded, hread, _, hsource⟩ := Graph.read_of_fetch files first m.bare hfetch
  exact ⟨query.specifier, query.base, first, loaded, hplaced, hfinds, hkey, hread, hsource.symm⟩

/-- A path in the table is found on disk where the table has it from. -/
theorem endsAt_path (hbuilt : Built build files entries forced graph table) (key : String)
    (stored : EmbeddedModule) (hget : table.get? key = some stored) (hkey : IsKey .filesystem key)
    (hdot : key ≠ Key.workingDirectory) : EndsAt files (build.atPath files key) stored.code := by
  obtain ⟨raw, base, found, loaded, hplaced, hfinds, rfl, hread, hcode⟩ :=
    hbuilt.source_of_get? key stored hget
  refine ⟨found, loaded, ?_, hread, hcode⟩
  rcases hfinds.underRoots_or_atPath hplaced with ⟨hname, order, roots, _, h⟩ | ⟨_, h⟩
  · obtain ⟨_, _, _, _, _, rfl⟩ := build.underRoots_eq_some _ _ _ _ _ h
    exact absurd (hname.eq_workingDirectory hkey) hdot
  · exact h

end Built

theorem not_agrees_error (m : EmbeddedModule) (e : LoadError) :
    ¬ Agrees files (.ok m.resolved) (.error e) := by
  rintro (⟨_, _, h, _⟩ | ⟨_, _, _, _, _, h, _⟩)
  · cases h
  · cases h

theorem agrees_ok_iff (m : EmbeddedModule) (found : Resolved) :
    Agrees files (.ok m.resolved) (.ok found) ↔
      m.key = found.identity.key ∧
        ∃ loaded, found.read files = .ok loaded ∧ loaded.code = m.code := by
  constructor
  · rintro (⟨_, _, h, _⟩ | ⟨_, _, loaded, loaded', h, h', hkey, hread, hread', hcode⟩)
    · cases h
    · cases h
      cases h'
      have hloaded : loaded.code = m.code := by
        cases hread
        rfl
      exact ⟨hkey, loaded', hread', hcode.symm.trans hloaded⟩
  · rintro ⟨hkey, loaded, hread, hcode⟩
    exact .inr ⟨m.resolved, found, ⟨m.identity, .embedded, m.code, none⟩, loaded, rfl, rfl, hkey,
      rfl, hread, hcode.symm⟩

namespace Resolver

variable (resolver : Resolver) (files : FileView) (raw : String) (base : BaseDir)

theorem resolve_of_file? (hempty : resolver.table = .empty) (found : Resolved)
    (h : resolver.file? files (.make raw base) = .ok (some found)) :
    resolver.resolve files raw base = .ok found := by
  simp only [resolve, resolver.embedded?_empty hempty, h]

theorem resolve_of_error (hempty : resolver.table = .empty) (e : LoadError)
    (h : resolver.file? files (.make raw base) = .error e) :
    resolver.resolve files raw base = .error e := by
  simp only [resolve, resolver.embedded?_empty hempty, h]

/-- What the search of a bare name under the roots comes to is what its resolution
comes to, unless it misses. -/
theorem resolve_of_roots_error (hempty : resolver.table = .empty)
    (hkind : (⟨raw⟩ : Specifier).kind = .bare) (e : LoadError)
    (h : resolver.underRoots files (.make raw base) Form.search
      resolver.settings.searchPath.roots = .error e) :
    resolver.resolve files raw base = .error e := by
  refine resolver.resolve_of_error files raw base hempty e ?_
  rw [resolver.file?_bare files raw base hkind, bareFile, h]

theorem resolve_of_roots_some (hempty : resolver.table = .empty)
    (hkind : (⟨raw⟩ : Specifier).kind = .bare) (found : Resolved)
    (h : resolver.underRoots files (.make raw base) Form.search
      resolver.settings.searchPath.roots = .ok (some found)) :
    resolver.resolve files raw base = .ok found ∧
      found.identity.key = (Request.make raw base).key := by
  constructor
  · refine resolver.resolve_of_file? files raw base hempty found ?_
    rw [resolver.file?_bare files raw base hkind, bareFile, h]
  · obtain ⟨_, _, _, _, _, rfl⟩ := resolver.underRoots_eq_some _ _ _ _ _ h
    rfl

/-- A bare name that no root has is looked for at its path. -/
theorem resolve_of_roots_none (hempty : resolver.table = .empty)
    (hkind : (⟨raw⟩ : Specifier).kind = .bare)
    (hallowed : resolver.settings.pathFallback = true)
    (h : resolver.underRoots files (.make raw base) Form.search
      resolver.settings.searchPath.roots = .ok none) (found : Resolved)
    (hfound : resolver.atPath files (Key.ofPath (⟨raw⟩ : Specifier).effective) =
      .ok (some found)) :
    resolver.resolve files raw base = .ok found ∧
      found.identity.key = Key.ofPath (⟨raw⟩ : Specifier).effective := by
  constructor
  · refine resolver.resolve_of_file? files raw base hempty found ?_
    rw [resolver.file?_bare files raw base hkind,
      resolver.bareFile_of_miss files raw base hkind h, if_pos hallowed, hfound]
  · obtain ⟨_, _, _, rfl⟩ := resolver.atPath_eq_some _ _ _ hfound
    rfl

/-- A bare name that the table does not have is answered by its path. -/
theorem fallback_of_embedded? (m : EmbeddedModule)
    (hkind : (⟨raw⟩ : Specifier).kind = .bare)
    (hname : resolver.table.get? (Request.make raw base).key = none)
    (h : resolver.embedded? (.make raw base) = some m) :
    resolver.settings.pathFallback = true ∧
      resolver.table.get? (Key.ofPath (⟨raw⟩ : Specifier).effective) = some m := by
  simp only [embedded?, hname] at h
  rw [Request.make_bare _ _ hkind] at h
  split at h
  · next hallowed => exact ⟨hallowed, h⟩
  · cases h

theorem get?_of_embedded? (m : EmbeddedModule) (hkind : (⟨raw⟩ : Specifier).kind ≠ .bare)
    (h : resolver.embedded? (.make raw base) = some m) :
    resolver.table.get? (Request.make raw base).key = some m := by
  rw [embedded?, Request.fallbackKey_make raw base hkind] at h
  split at h
  · next other hother => exact hother.trans h
  · split at h
    · cases h
    · cases h

/-- Without an answer of the table it is as if there were none. -/
theorem resolve_of_embedded?_none (hempty : resolver.table = .empty) (table : Table)
    (h : Resolver.embedded? { resolver with table := table } (.make raw base) = none) :
    Resolver.resolve { resolver with table := table } files raw base =
      resolver.resolve files raw base := by
  simp only [resolve, h, resolver.embedded?_empty hempty]
  rfl

end Resolver

/-- A module of the table agrees exactly when the disk supplies it as well. -/
theorem agrees_iff_supplies (hempty : build.table = .empty) (specifier : String)
    (m : EmbeddedModule) :
    Agrees files (.ok m.resolved) (build.resolve files specifier .workingDirectory) ↔
      Supplies build files specifier m.key m.code := by
  cases hfile : build.file? files (.make specifier .workingDirectory) with
  | error e =>
    rw [build.resolve_of_error files specifier _ hempty e hfile]
    exact iff_of_false (not_agrees_error m e) (Supplies.not_of_error e hfile)
  | ok under =>
    cases under with
    | some found =>
      rw [build.resolve_of_file? files specifier _ hempty found hfile, agrees_ok_iff,
        Supplies.iff_of_file found hfile]
    | none =>
      rw [build.resolve_of_misses files specifier _ ⟨build.embedded?_empty hempty _, hfile⟩,
        Supplies.iff_of_miss hfile]
      cases hanswer : build.fromEngine specifier with
      | error e =>
        refine iff_of_false (not_agrees_error m e) ?_
        rintro ⟨_, hsource⟩
        have hsome := (build.fromEngine_eq_ok_iff specifier _).2 ⟨m.code, hsource, rfl⟩
        cases hanswer.symm.trans hsome
      | ok found =>
        obtain ⟨code, hsource, rfl⟩ := (build.fromEngine_eq_ok_iff specifier found).1 hanswer
        have hread : Resolved.read files ⟨.ofEngine specifier, .engine code⟩ =
            .ok ⟨.ofEngine specifier, .engine, code, none⟩ := rfl
        have hkey : (Identity.ofEngine specifier).key = specifier := rfl
        rw [agrees_ok_iff, hread, hsource, hkey]
        simp [eq_comm]

namespace Built

/-- A specifier that is a path agrees, unless it is the working directory. -/
theorem agrees_path (hbuilt : Built build files entries forced graph table)
    (specifier : String) (hkind : (⟨specifier⟩ : Specifier).kind ≠ .bare) (m : EmbeddedModule)
    (hget : table.get? (Request.make specifier .workingDirectory).key = some m)
    (hdot : m.key ≠ Key.workingDirectory) :
    Agrees files (.ok m.resolved) (build.resolve files specifier .workingDirectory) := by
  have hspace := Request.space_make_workingDirectory specifier hkind
  have hisKey := Request.isKey_key specifier .workingDirectory
    BaseDir.colon_notMem_workingDirectory
  rw [hspace] at hisKey
  have hkey := Table.key_of_get? hget
  obtain ⟨found, loaded, hatPath, hread, hcode⟩ :=
    hbuilt.endsAt_path _ m hget hisKey (hkey ▸ hdot)
  have hfoundKey : found.identity.key = (Request.make specifier .workingDirectory).key := by
    obtain ⟨_, _, _, rfl⟩ := build.atPath_eq_some files _ found hatPath
    rfl
  rw [← build.file?_path files specifier _ hkind hspace] at hatPath
  rw [build.resolve_of_file? files specifier _ hbuilt.empty found hatPath, agrees_ok_iff]
  exact ⟨hkey.trans hfoundKey.symm, loaded, hread, hcode⟩

/-- A bare name in the table agrees exactly when the search under the roots ends at
its content. -/
theorem agrees_name_iff (hbuilt : Built build files entries forced graph table)
    (specifier : String) (hkind : (⟨specifier⟩ : Specifier).kind = .bare) (m : EmbeddedModule)
    (hget : table.get? (Request.make specifier .workingDirectory).key = some m)
    (hdot : m.key ≠ Key.workingDirectory) :
    Agrees files (.ok m.resolved) (build.resolve files specifier .workingDirectory) ↔
      EndsAt files (build.underRoots files (.make specifier .workingDirectory) Form.search
        build.settings.searchPath.roots) m.code := by
  have hkey := Table.key_of_get? hget
  cases hroots : build.underRoots files (.make specifier .workingDirectory) Form.search
    build.settings.searchPath.roots with
  | error e =>
    rw [build.resolve_of_roots_error files specifier _ hbuilt.empty hkind e hroots]
    refine iff_of_false (not_agrees_error m e) ?_
    rintro ⟨_, _, h, _⟩
    cases h
  | ok under =>
    cases under with
    | none =>
      have hname : Key.ofName (⟨specifier⟩ : Specifier).effective ≠ Key.workingDirectory := by
        rw [hkey, Request.make_bare _ _ hkind] at hdot
        exact hdot
      have hmissed := hbuilt.get?_missed_name specifier .workingDirectory
        BaseDir.colon_notMem_workingDirectory hkind hroots hname
      rw [hmissed] at hget
      cases hget
    | some found =>
      obtain ⟨hanswer, hfoundKey⟩ :=
        build.resolve_of_roots_some files specifier _ hbuilt.empty hkind found hroots
      rw [hanswer, agrees_ok_iff]
      constructor
      · rintro ⟨_, loaded, hread, hcode⟩
        exact ⟨found, loaded, rfl, hread, hcode⟩
      · rintro ⟨_, loaded, h, hread, hcode⟩
        cases h
        exact ⟨hkey.trans hfoundKey.symm, loaded, hread, hcode⟩

/-- A bare name that the table has only as a path agrees exactly when no root has
the name. -/
theorem agrees_fallback_iff (hbuilt : Built build files entries forced graph table)
    (specifier : String) (hkind : (⟨specifier⟩ : Specifier).kind = .bare) (m : EmbeddedModule)
    (hname : table.get? (Request.make specifier .workingDirectory).key = none)
    (hallowed : build.settings.pathFallback = true)
    (hget : table.get? (Key.ofPath (⟨specifier⟩ : Specifier).effective) = some m)
    (hdot : m.key ≠ Key.workingDirectory) :
    Agrees files (.ok m.resolved) (build.resolve files specifier .workingDirectory) ↔
      build.underRoots files (.make specifier .workingDirectory) Form.search
        build.settings.searchPath.roots = .ok none := by
  have hkey := Table.key_of_get? hget
  cases hroots : build.underRoots files (.make specifier .workingDirectory) Form.search
    build.settings.searchPath.roots with
  | error e =>
    rw [build.resolve_of_roots_error files specifier _ hbuilt.empty hkind e hroots]
    exact iff_of_false (not_agrees_error m e) (by simp)
  | ok under =>
    cases under with
    | none =>
      have hisKey : IsKey .filesystem (Key.ofPath (⟨specifier⟩ : Specifier).effective) :=
        ⟨_, (⟨specifier⟩ : Specifier).colon_notMem_effective, rfl⟩
      obtain ⟨found, loaded, hatPath, hread, hcode⟩ :=
        hbuilt.endsAt_path _ m hget hisKey (hkey ▸ hdot)
      obtain ⟨hanswer, hfoundKey⟩ := build.resolve_of_roots_none files specifier _ hbuilt.empty
        hkind hallowed hroots found hatPath
      rw [hanswer, agrees_ok_iff]
      exact iff_of_true ⟨hkey.trans hfoundKey.symm, loaded, hread, hcode⟩ rfl
    | some found =>
      obtain ⟨hanswer, hfoundKey⟩ :=
        build.resolve_of_roots_some files specifier _ hbuilt.empty hkind found hroots
      rw [hanswer, agrees_ok_iff]
      refine iff_of_false ?_ (by simp)
      rintro ⟨hsame, _⟩
      rw [← hfoundKey, ← hsame, hkey, hget] at hname
      cases hname

/-- A module of the table agrees unless the specifier drifts. -/
theorem agrees_embedded_iff (hbuilt : Built build files entries forced graph table)
    (specifier : String) (m : EmbeddedModule)
    (hembedded : Resolver.embedded? { build with table := table }
      (.make specifier .workingDirectory) = some m) :
    Agrees files (.ok m.resolved) (build.resolve files specifier .workingDirectory) ↔
      ¬ Drifts build { build with table := table } files specifier := by
  by_cases hdot : m.key = Key.workingDirectory
  · rw [Drifts.directory_iff m hembedded hdot, Classical.not_not, ← hdot]
    exact agrees_iff_supplies hbuilt.empty specifier m
  by_cases hkind : (⟨specifier⟩ : Specifier).kind = .bare
  · cases hname : table.get? (Request.make specifier .workingDirectory).key with
    | some other =>
      have hsame := Resolver.embedded?_key { build with table := table } _ other hname
      rw [hembedded, Option.some.injEq] at hsame
      subst hsame
      rw [Drifts.name_iff m hkind hname hdot, Classical.not_not]
      exact hbuilt.agrees_name_iff specifier hkind m hname hdot
    | none =>
      obtain ⟨hallowed, hget⟩ := Resolver.fallback_of_embedded? _ specifier .workingDirectory m
        hkind hname hembedded
      rw [Drifts.path_iff m hkind hname hembedded hdot, Classical.not_not]
      exact hbuilt.agrees_fallback_iff specifier hkind m hname hallowed hget hdot
  · have hget := Resolver.get?_of_embedded? _ specifier .workingDirectory m hkind hembedded
    exact iff_of_true (hbuilt.agrees_path specifier hkind m hget hdot)
      (Drifts.not_path m hkind hembedded hdot)

end Built

/-- Over the files that a table was built from, a specifier names the same module
with the table as without it exactly if it does not drift. -/
theorem agrees_iff_not_drifts (build : Resolver) (files : FileView)
    (entries forced : List String) (table : Table) (hempty : build.table = .empty)
    (hbuild : Table.build build files entries forced = .ok table) (specifier : String) :
    Agrees files
        (Resolver.resolve { build with table := table } files specifier .workingDirectory)
        (build.resolve files specifier .workingDirectory) ↔
      ¬ Drifts build { build with table := table } files specifier := by
  obtain ⟨graph, hbuilt⟩ := exists_graph_of_build build files entries forced table hempty hbuild
  cases hembedded : Resolver.embedded? { build with table := table }
    (.make specifier .workingDirectory) with
  | some m =>
    rw [Resolver.resolve_embedded _ files specifier _ m hembedded]
    exact hbuilt.agrees_embedded_iff specifier m hembedded
  | none =>
    rw [build.resolve_of_embedded?_none files specifier _ hempty table hembedded]
    refine iff_of_true (Resolver.agrees_self hempty Resolver.placed_workingDirectory) ?_
    intro hdrifts
    obtain ⟨m, hm⟩ := hdrifts.exists_embedded
    rw [hembedded] at hm
    cases hm

end Programs

open SampleProgram in
/-- In the sample program "util" names its file as well as its embedded module. -/
theorem agrees_iff_not_drifts_sample :
    Agrees files (Resolver.resolve { resolver with table := table } files "util" .workingDirectory)
        (resolver.resolve files "util" .workingDirectory) ↔
      ¬ Drifts resolver { resolver with table := table } files "util" :=
  agrees_iff_not_drifts resolver files ["./main"] [] table rfl build_eq "util"

-- A program that embeds a module by its path, while a root has another module of the same name.
namespace ShadowedName

def ownSource : Bytes := Utf8.encode "export default 1;\n"

def rootSource : Bytes := Utf8.encode "export default 2;\n"

def files : FileView
  | "./lib/local.js" => .ok (.file ownSource)
  | "mods/lib/local.js" => .ok (.file rootSource)
  | _ => .error .noSuchFile

def resolver : Resolver := ⟨{ searchPath := ⟨["mods"]⟩ }, .empty, .none⟩

def own : GraphModule :=
  ⟨⟨"./lib/local", "./lib", .filesystem, none⟩, some "./lib/local.js", ownSource, []⟩

def table : Table := (Table.empty.insert own.embedded).addEntry "./lib/local"

theorem build_eq : Table.build resolver files ["./lib/local"] [] = .ok table := by
  have hspecifiers : Graph.staticSpecifiers own = [] := by
    show (Source.outline (Utf8.lossy ownSource)).staticSpecifiers = []
    cbv
  have hscan : Graph.scan resolver files (Graph.met [] [own]) own [] [] =
      .ok ⟨[], [], [], []⟩ := by
    rw [Graph.scan, hspecifiers]
    rfl
  have hexplore : Graph.explore resolver files [] [own] [] [] = .ok ⟨[own], [], []⟩ := by
    rw [Graph.explore_cons resolver files [] [] own [] [] _ hscan]
    exact Graph.explore_nil resolver files [own] [] []
  have hgraph := (Graph.ofRoots_of_stages resolver files ["./lib/local"] []
    ⟨["./lib/local"], [], [own], []⟩ ⟨["./lib/local"], [], [own], []⟩ ⟨[own], [], []⟩
    rfl rfl hexplore).1
  have htext : Utf8.decode ownSource = .ok "export default 1;\n" := by cbv
  rw [Table.build, hgraph]
  simp only [Graph.toTable]
  rw [Graph.compileModules_of_text (Graph.ascendingModules [own])
    (by simp [Graph.ascendingModules, insertByKey, own, htext])]
  rfl

/-- The bare name leads to the module of the root on disk, and to the other one with
the table. -/
theorem not_agrees_shadowed :
    Table.build resolver files ["./lib/local"] [] = .ok table ∧
      ¬ Agrees files
        (Resolver.resolve { resolver with table := table } files "lib/local" .workingDirectory)
        (resolver.resolve files "lib/local" .workingDirectory) := by
  refine ⟨build_eq, ?_⟩
  have hbundled : Resolver.resolve { resolver with table := table } files "lib/local"
      .workingDirectory = .ok own.embedded.resolved := rfl
  have hdisk : resolver.resolve files "lib/local" .workingDirectory =
      .ok ⟨⟨"lib/local", "lib", .search, some "mods"⟩, .file "mods/lib/local.js"⟩ := rfl
  rw [hbundled, hdisk, agrees_ok_iff]
  rintro ⟨hkey, _⟩
  exact absurd hkey (by decide)

end ShadowedName

end ModuleLoading
