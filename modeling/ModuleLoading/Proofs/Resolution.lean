import ModuleLoading.Resolve
import ModuleLoading.Proofs.Requests

/-!
What a resolution without a table can come to. The forms of a path are tried in an
order that depends on the request, but a search that finds nothing has tried them
all, so that its failure does not depend on the order. Every module that is found
keeps the key it was asked for, and stays in the space and under a root of its
resolver; so does everything that is found from its directory.
-/
namespace ModuleLoading

namespace Form

theorem mem_search (form : Form) : form ∈ search := by
  cases form <;> simp [search]

end Form

section Probing

variable (files : FileView) (limit : Nat)

theorem probe_eq_none_iff (base : String) (forms : List Form) :
    probe files limit base forms = .ok none ↔
      ∀ form ∈ forms, ∃ path,
        form.candidate limit base = .ok path ∧ files.isLoadable path = false := by
  induction forms with
  | nil => simp [probe]
  | cons form forms ih =>
    rw [List.forall_mem_cons, ← ih, probe]
    cases hpath : form.candidate limit base with
    | error e => simp
    | ok path => cases hload : files.isLoadable path <;> simp [hload]

theorem probe_eq_some (base : String) (forms : List Form) (hit : ProbeHit)
    (h : probe files limit base forms = .ok (some hit)) :
    hit.form ∈ forms ∧ hit.form.candidate limit base = .ok hit.path ∧
      files.isLoadable hit.path = true := by
  induction forms with
  | nil => simp [probe] at h
  | cons form forms ih =>
    rw [probe] at h
    cases hpath : form.candidate limit base with
    | error e => simp [hpath] at h
    | ok path =>
      by_cases hload : files.isLoadable path = true
      · simp only [hpath, hload, if_true, Except.ok.injEq, Option.some.injEq] at h
        subst h
        exact ⟨List.mem_cons_self, hpath, hload⟩
      · simp only [hpath, hload] at h
        obtain ⟨hform, hrest⟩ := ih h
        exact ⟨List.mem_cons_of_mem _ hform, hrest⟩

theorem probeRoots_eq_none_iff (order : List Form) (name : String) (roots : List String) :
    probeRoots files limit order name roots = .ok none ↔
      ∀ root ∈ roots, probe files limit (root ++ "/" ++ name) order = .ok none := by
  induction roots with
  | nil => simp [probeRoots]
  | cons root roots ih =>
    rw [List.forall_mem_cons, ← ih, probeRoots, probeRoot]
    cases probe files limit (root ++ "/" ++ name) order with
    | error e => simp
    | ok found => cases found <;> simp

theorem probeRoots_eq_some (order : List Form) (name : String) (roots : List String)
    (hit : RootHit) (h : probeRoots files limit order name roots = .ok (some hit)) :
    hit.root ∈ roots ∧
      probe files limit (hit.root ++ "/" ++ name) order = .ok (some ⟨hit.path, hit.form⟩) := by
  induction roots with
  | nil => simp [probeRoots] at h
  | cons root roots ih =>
    rw [probeRoots, probeRoot] at h
    cases hprobe : probe files limit (root ++ "/" ++ name) order with
    | error e => simp [hprobe] at h
    | ok found =>
      cases found with
      | none =>
        simp only [hprobe] at h
        obtain ⟨hroot, hrest⟩ := ih h
        exact ⟨List.mem_cons_of_mem _ hroot, hrest⟩
      | some found =>
        simp only [hprobe, Except.ok.injEq, Option.some.injEq] at h
        subst h
        exact ⟨List.mem_cons_self, hprobe⟩

/-- A search that finds nothing finds nothing under fewer roots either, nor in any
other order of the forms. -/
theorem probeRoots_miss (order : List Form) (name : String) (roots fewer : List String)
    (h : probeRoots files limit Form.search name roots = .ok none)
    (hfewer : ∀ root ∈ fewer, root ∈ roots) :
    probeRoots files limit order name fewer = .ok none := by
  rw [probeRoots_eq_none_iff] at h ⊢
  intro root hroot
  have hmiss := (probe_eq_none_iff files limit _ _).1 (h root (hfewer root hroot))
  exact (probe_eq_none_iff files limit _ _).2 fun form _ => hmiss form form.mem_search

end Probing

namespace Resolver

variable (resolver : Resolver) (files : FileView)

theorem underRoots_eq_none_iff (request : Request) (order : List Form) (roots : List String) :
    resolver.underRoots files request order roots = .ok none ↔
      probeRoots files resolver.settings.candidateLimit order request.key roots = .ok none := by
  rw [underRoots]
  cases probeRoots files resolver.settings.candidateLimit order request.key roots with
  | error e => simp
  | ok found => cases found <;> simp

theorem underRoots_probe (request : Request) (order : List Form) (roots : List String)
    (found : Resolved) (h : resolver.underRoots files request order roots = .ok (some found)) :
    ∃ root ∈ roots, ∃ hit, probe files resolver.settings.candidateLimit
        (root ++ "/" ++ request.key) order = .ok (some hit) ∧
      found = ⟨.ofProbe request.key .search hit.form (some root), .file hit.path⟩ := by
  rw [underRoots] at h
  split at h
  · simp at h
  · simp at h
  · next hit hprobe =>
    obtain ⟨hroot, hprobe⟩ := probeRoots_eq_some _ _ _ _ _ _ hprobe
    simp only [Except.ok.injEq, Option.some.injEq] at h
    exact ⟨hit.root, hroot, ⟨hit.path, hit.form⟩, hprobe, h.symm⟩

theorem underRoots_eq_some (request : Request) (order : List Form) (roots : List String)
    (found : Resolved) (h : resolver.underRoots files request order roots = .ok (some found)) :
    ∃ root ∈ roots, ∃ form path, files.isLoadable path = true ∧
      found = ⟨.ofProbe request.key .search form (some root), .file path⟩ := by
  obtain ⟨root, hroot, hit, hprobe, hfound⟩ :=
    resolver.underRoots_probe files request order roots found h
  obtain ⟨_, _, hload⟩ := probe_eq_some _ _ _ _ _ hprobe
  exact ⟨root, hroot, hit.form, hit.path, hload, hfound⟩

theorem atPath_probe (key : String) (found : Resolved)
    (h : resolver.atPath files key = .ok (some found)) :
    ∃ hit, probe files resolver.settings.candidateLimit key Form.direct = .ok (some hit) ∧
      found = ⟨.ofProbe key .filesystem hit.form none, .file hit.path⟩ := by
  rw [atPath] at h
  split at h
  · simp at h
  · simp at h
  · next hit hprobe =>
    simp only [Except.ok.injEq, Option.some.injEq] at h
    exact ⟨hit, hprobe, h.symm⟩

theorem atPath_eq_some (key : String) (found : Resolved)
    (h : resolver.atPath files key = .ok (some found)) :
    ∃ form path, files.isLoadable path = true ∧
      found = ⟨.ofProbe key .filesystem form none, .file path⟩ := by
  obtain ⟨hit, hprobe, hfound⟩ := resolver.atPath_probe files key found h
  obtain ⟨_, _, hload⟩ := probe_eq_some _ _ _ _ _ hprobe
  exact ⟨hit.form, hit.path, hload, hfound⟩

/-- The four ways in which a specifier leads to a file. -/
inductive Finds (raw : String) (base : BaseDir) (found : Resolved) : Prop
  | name (hkind : (⟨raw⟩ : Specifier).kind = .bare)
      (h : resolver.underRoots files (Request.make raw base) Form.search
        resolver.settings.searchPath.roots = .ok (some found))
  | fallback (hkind : (⟨raw⟩ : Specifier).kind = .bare)
      (hallowed : resolver.settings.pathFallback = true)
      (hmiss : resolver.underRoots files (Request.make raw base) Form.search
        resolver.settings.searchPath.roots = .ok none)
      (h : resolver.atPath files (Key.ofPath (⟨raw⟩ : Specifier).effective) = .ok (some found))
  | sibling (hkind : (⟨raw⟩ : Specifier).kind = .relative) (hspace : base.space = .search)
      (h : resolver.siblingFile files (Request.make raw base) = .ok (some found))
  | path (hkind : (⟨raw⟩ : Specifier).kind ≠ .bare)
      (hspace : (Request.make raw base).space = .filesystem)
      (h : resolver.atPath files (Request.make raw base).key = .ok (some found))

variable (raw : String) (base : BaseDir)

theorem file?_bare (hkind : (⟨raw⟩ : Specifier).kind = .bare) :
    resolver.file? files (Request.make raw base) =
      resolver.bareFile files (Request.make raw base) := by
  simp [file?, Request.make_bare raw base hkind, hkind]

theorem file?_path (hkind : (⟨raw⟩ : Specifier).kind ≠ .bare)
    (hspace : (Request.make raw base).space = .filesystem) :
    resolver.file? files (Request.make raw base) =
      resolver.atPath files (Request.make raw base).key := by
  simp [file?, hspace, Request.fallbackKey_make raw base hkind]

theorem file?_sibling (hkind : (⟨raw⟩ : Specifier).kind = .relative)
    (hspace : base.space = .search) :
    resolver.file? files (Request.make raw base) =
      resolver.siblingFile files (Request.make raw base) := by
  simp [file?, Request.make_relative raw base hkind, hkind, hspace]

theorem bareFile_of_miss (hkind : (⟨raw⟩ : Specifier).kind = .bare)
    (hmiss : resolver.underRoots files (Request.make raw base) Form.search
      resolver.settings.searchPath.roots = .ok none) :
    resolver.bareFile files (Request.make raw base) =
      if resolver.settings.pathFallback then
        resolver.atPath files (Key.ofPath (⟨raw⟩ : Specifier).effective)
      else .ok none := by
  rw [bareFile, hmiss]
  simp only [Request.make_bare raw base hkind, Option.getD_some]

theorem finds_of_file? (found : Resolved)
    (h : resolver.file? files (Request.make raw base) = .ok (some found)) :
    resolver.Finds files raw base found := by
  by_cases hbare : (⟨raw⟩ : Specifier).kind = .bare
  · rw [resolver.file?_bare files raw base hbare] at h
    cases hroots : resolver.underRoots files (Request.make raw base) Form.search
      resolver.settings.searchPath.roots with
    | error e => simp [bareFile, hroots] at h
    | ok under =>
      cases under with
      | none =>
        rw [resolver.bareFile_of_miss files raw base hbare hroots] at h
        split at h
        · next hallowed => exact .fallback hbare hallowed hroots h
        · simp at h
      | some under =>
        simp only [bareFile, hroots] at h
        exact .name hbare (hroots.trans h)
  · cases hspace : (Request.make raw base).space with
    | filesystem =>
      rw [resolver.file?_path files raw base hbare hspace] at h
      exact .path hbare hspace h
    | search =>
      cases hkind : (⟨raw⟩ : Specifier).kind with
      | bare => exact absurd hkind hbare
      | absolute => simp [Request.make_absolute raw base hkind] at hspace
      | relative =>
        have hbase : base.space = .search := by
          simpa [Request.make_relative raw base hkind] using hspace
        rw [resolver.file?_sibling files raw base hkind hbase] at h
        exact .sibling hkind hbase h

theorem embedded?_empty (hempty : resolver.table = .empty) (request : Request) :
    resolver.embedded? request = none := by
  have hget : ∀ key, resolver.table.get? key = none := by
    intro key
    rw [hempty]
    rfl
  cases hfallback : request.fallbackKey <;> simp [embedded?, hget, hfallback]

theorem fromEngine_eq_ok_iff (found : Resolved) :
    resolver.fromEngine raw = .ok found ↔ ∃ code, resolver.builtins.source? raw = some code ∧
      found = ⟨.ofEngine raw, .engine code⟩ := by
  rw [fromEngine]
  cases resolver.builtins.source? raw with
  | none => simp
  | some code => simp [eq_comm]

theorem identity_of_fromEngine (found : Resolved) (h : resolver.fromEngine raw = .ok found) :
    found.identity = .ofEngine raw ∧ found.content.origin = .engine := by
  obtain ⟨code, _, rfl⟩ := (resolver.fromEngine_eq_ok_iff raw found).1 h
  exact ⟨rfl, rfl⟩

theorem finds_or_engine (hempty : resolver.table = .empty) (found : Resolved)
    (h : resolver.resolve files raw base = .ok found) :
    resolver.Finds files raw base found ∨
      (resolver.file? files (Request.make raw base) = .ok none ∧
        resolver.fromEngine raw = .ok found) := by
  rcases (resolver.resolve_eq_ok_iff files raw base found).1 h with
    ⟨m, hembedded, _⟩ | ⟨_, hfile | hengine⟩
  · rw [resolver.embedded?_empty hempty] at hembedded
    cases hembedded
  · exact .inl (resolver.finds_of_file? files raw base found hfile)
  · exact .inr hengine

/-- Without a table, what the engine does not supply is in a file. -/
theorem finds_of_resolve (hempty : resolver.table = .empty) (found : Resolved)
    (h : resolver.resolve files raw base = .ok found) (horigin : found.content.origin ≠ .engine) :
    resolver.Finds files raw base found := by
  rcases resolver.finds_or_engine files raw base hempty found h with hfinds | ⟨_, hengine⟩
  · exact hfinds
  · exact absurd (resolver.identity_of_fromEngine raw found hengine).2 horigin

/-- Files are found on disk, whatever is in the table. -/
theorem file?_of_content (found : Resolved) (path : String)
    (h : resolver.resolve files raw base = .ok found) (hfile : found.content = .file path) :
    resolver.file? files (Request.make raw base) = .ok (some found) := by
  rcases (resolver.resolve_eq_ok_iff files raw base found).1 h with
    ⟨m, _, rfl⟩ | ⟨_, hfound | ⟨_, hengine⟩⟩
  · cases hfile
  · exact hfound
  · have horigin := (resolver.identity_of_fromEngine raw found hengine).2
    rw [hfile] at horigin
    cases horigin

/-- Neither the table nor the disk has anything for a request. -/
def Misses (request : Request) : Prop :=
  resolver.embedded? request = none ∧ resolver.file? files request = .ok none

theorem resolve_of_misses (h : resolver.Misses files (.make raw base)) :
    resolver.resolve files raw base = resolver.fromEngine raw := by
  simp only [resolve, h.1, h.2]

theorem not_misses_of_origin (found : Resolved) (h : resolver.resolve files raw base = .ok found)
    (horigin : found.content.origin ≠ .engine) : ¬ resolver.Misses files (.make raw base) := by
  intro hmisses
  rw [resolver.resolve_of_misses files raw base hmisses] at h
  exact horigin (resolver.identity_of_fromEngine raw found h).2

/-- Up to the engine, resolution depends on nothing of a request but where it looks. -/
theorem resolve_of_same_search (raw' : String) (base' : BaseDir)
    (hembedded : resolver.embedded? (.make raw' base') = resolver.embedded? (.make raw base))
    (hfile : resolver.file? files (.make raw' base') = resolver.file? files (.make raw base))
    (h : ¬ resolver.Misses files (.make raw base)) :
    resolver.resolve files raw' base' = resolver.resolve files raw base := by
  simp only [resolve, hembedded, hfile]
  cases hhere : resolver.embedded? (.make raw base) with
  | some m => rfl
  | none =>
    cases hthere : resolver.file? files (.make raw base) with
    | error e => rfl
    | ok found =>
      cases found with
      | some found => rfl
      | none => exact absurd ⟨hhere, hthere⟩ h

/-- A directory without colons, under one of the roots if under any. -/
structure Placed (resolver : Resolver) (base : BaseDir) : Prop where
  colon_notMem : ':' ∉ base.dir.toList
  root_mem : ∀ root, base.root = some root → root ∈ resolver.settings.searchPath.roots

/-- The directories that resolution comes to from the working directory. -/
inductive Reached (resolver : Resolver) (files : FileView) : BaseDir → Prop
  | start : Reached resolver files .workingDirectory
  | step (base : BaseDir) (raw : String) (found : Resolved) (h : Reached resolver files base)
      (hresolve : resolver.resolve files raw base = .ok found) :
      Reached resolver files found.identity.baseDir

variable {resolver files raw base}

theorem placed_workingDirectory : resolver.Placed .workingDirectory where
  colon_notMem := BaseDir.colon_notMem_workingDirectory
  root_mem root h := by simp [BaseDir.workingDirectory] at h

theorem placed_ofProbe (key : String) (space : Namespace) (form : Form) (root : Option String)
    (hkey : IsKey space key)
    (hroot : ∀ r, root = some r → r ∈ resolver.settings.searchPath.roots) :
    resolver.Placed (Identity.ofProbe key space form root).baseDir where
  colon_notMem := by
    cases form with
    | index => exact hkey.colon_notMem
    | exact => exact hkey.parent_colon_notMem
    | extension => exact hkey.parent_colon_notMem
  root_mem := hroot

theorem Placed.siblingRoots_subset (hbase : resolver.Placed base)
    (hkind : (⟨raw⟩ : Specifier).kind = .relative) :
    ∀ root ∈ resolver.siblingRoots (Request.make raw base),
      root ∈ resolver.settings.searchPath.roots := by
  intro root hroot
  rw [Request.make_relative raw base hkind, siblingRoots] at hroot
  cases hbaseRoot : base.root with
  | none => simpa [hbaseRoot] using hroot
  | some r =>
    have heq : root = r := by simpa [hbaseRoot] using hroot
    exact heq ▸ hbase.root_mem r hbaseRoot

namespace Finds

variable {found : Resolved}

/-- A module is found by its name under some roots or at the path that is its key. -/
theorem underRoots_or_atPath (hfinds : resolver.Finds files raw base found)
    (hbase : resolver.Placed base) :
    (IsKey .search (Request.make raw base).key ∧ ∃ order roots,
      (∀ root ∈ roots, root ∈ resolver.settings.searchPath.roots) ∧
      resolver.underRoots files (Request.make raw base) order roots = .ok (some found)) ∨
    (IsKey .filesystem found.identity.key ∧
      resolver.atPath files found.identity.key = .ok (some found)) := by
  have hkey := Request.isKey_key raw base hbase.colon_notMem
  cases hfinds with
  | name hkind h =>
    rw [Request.space_make_bare raw base hkind] at hkey
    exact .inl ⟨hkey, _, _, fun _ hroot => hroot, h⟩
  | fallback hkind hallowed hmiss h =>
    obtain ⟨_, _, _, rfl⟩ := resolver.atPath_eq_some _ _ _ h
    exact .inr ⟨⟨_, (⟨raw⟩ : Specifier).colon_notMem_effective, rfl⟩, h⟩
  | sibling hkind hspace h =>
    rw [Request.space_make_relative raw base hkind, hspace] at hkey
    exact .inl ⟨hkey, _, _, hbase.siblingRoots_subset hkind, h⟩
  | path hkind hspace h =>
    obtain ⟨_, _, _, rfl⟩ := resolver.atPath_eq_some _ _ _ h
    exact .inr ⟨hspace ▸ hkey, h⟩

/-- Whatever is found is a file, and has a key of the space it was found in. -/
theorem shape (hfinds : resolver.Finds files raw base found) (hbase : resolver.Placed base) :
    ∃ key space form root path, IsKey space key ∧ files.isLoadable path = true ∧
      (∀ r, root = some r → r ∈ resolver.settings.searchPath.roots) ∧
      found = ⟨.ofProbe key space form root, .file path⟩ := by
  rcases hfinds.underRoots_or_atPath hbase with ⟨hkey, order, roots, hroots, h⟩ | ⟨hkey, h⟩
  · obtain ⟨root, hroot, form, path, hload, heq⟩ := resolver.underRoots_eq_some _ _ _ _ _ h
    exact ⟨_, .search, form, some root, path, hkey, hload,
      fun r hr => Option.some.inj hr ▸ hroots root hroot, heq⟩
  · obtain ⟨form, path, hload, heq⟩ := resolver.atPath_eq_some _ _ _ h
    exact ⟨_, .filesystem, form, none, path, hkey, hload, by simp, heq⟩

/-- A module keeps the key it was asked for, unless it was found at its path. -/
theorem key_cases (hfinds : resolver.Finds files raw base found) :
    found.identity.key = (Request.make raw base).key ∨
      ((⟨raw⟩ : Specifier).kind = .bare ∧ resolver.settings.pathFallback = true ∧
        resolver.underRoots files (Request.make raw base) Form.search
          resolver.settings.searchPath.roots = .ok none ∧
        (Request.make raw base).fallbackKey = some found.identity.key) := by
  cases hfinds with
  | name hkind h =>
    obtain ⟨_, _, _, _, _, rfl⟩ := resolver.underRoots_eq_some _ _ _ _ _ h
    exact .inl rfl
  | fallback hkind hallowed hmiss h =>
    obtain ⟨_, _, _, rfl⟩ := resolver.atPath_eq_some _ _ _ h
    exact .inr ⟨hkind, hallowed, hmiss, by rw [Request.make_bare raw base hkind]; rfl⟩
  | sibling hkind hspace h =>
    obtain ⟨_, _, _, _, _, rfl⟩ := resolver.underRoots_eq_some _ _ _ _ _ h
    exact .inl rfl
  | path hkind hspace h =>
    obtain ⟨_, _, _, rfl⟩ := resolver.atPath_eq_some _ _ _ h
    exact .inl rfl

theorem isKey (hfinds : resolver.Finds files raw base found) (hbase : resolver.Placed base) :
    IsKey found.identity.space found.identity.key := by
  obtain ⟨key, space, form, root, path, hkey, _, _, rfl⟩ := hfinds.shape hbase
  exact hkey

theorem placed (hfinds : resolver.Finds files raw base found) (hbase : resolver.Placed base) :
    resolver.Placed found.identity.baseDir := by
  obtain ⟨key, space, form, root, path, hkey, _, hroot, rfl⟩ := hfinds.shape hbase
  exact placed_ofProbe key space form root hkey hroot

theorem origin (hfinds : resolver.Finds files raw base found) (hbase : resolver.Placed base) :
    found.content.origin = .filesystem := by
  obtain ⟨_, _, _, _, _, _, _, _, rfl⟩ := hfinds.shape hbase
  rfl

/-- A name that no root has is the key of no module, whatever specifier and
directory are tried. -/
theorem key_ne_of_miss (hfinds : resolver.Finds files raw base found)
    (hbase : resolver.Placed base) (request : Request)
    (hmiss : resolver.underRoots files request Form.search
      resolver.settings.searchPath.roots = .ok none)
    (hkey : IsKey .search request.key) (hdot : request.key ≠ Key.workingDirectory) :
    found.identity.key ≠ request.key := by
  intro heq
  rcases hfinds.underRoots_or_atPath hbase with ⟨_, order, roots, hroots, h⟩ | ⟨hpath, _⟩
  · obtain ⟨_, _, _, _, _, hfound⟩ := resolver.underRoots_eq_some _ _ _ _ _ h
    have hsame : (Request.make raw base).key = request.key := by
      rw [← heq, hfound]
      rfl
    have hnone : resolver.underRoots files (Request.make raw base) order roots = .ok none := by
      rw [underRoots_eq_none_iff] at hmiss ⊢
      rw [hsame]
      exact probeRoots_miss _ _ _ _ _ _ hmiss hroots
    rw [hnone] at h
    cases h
  · exact hdot (hkey.eq_workingDirectory (heq ▸ hpath))

end Finds

theorem Reached.placed (hempty : resolver.table = .empty) (h : resolver.Reached files base) :
    resolver.Placed base := by
  induction h with
  | start => exact placed_workingDirectory
  | step base raw found h hresolve ih =>
    rcases resolver.finds_or_engine files raw base hempty found hresolve with
      hfinds | ⟨_, hengine⟩
    · exact hfinds.placed ih
    · rw [(resolver.identity_of_fromEngine raw found hengine).1]
      exact placed_workingDirectory

end Resolver

end ModuleLoading
