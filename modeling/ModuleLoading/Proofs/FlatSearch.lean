import ModuleLoading.Proofs.Resolution

/-!
Resolution as a search through one list. The places where a module can be are
written down in order, and the first that does not miss decides: either it has the
module, or no candidate can be built for it and resolution fails there, whatever
stands in the later places. Main statement: `resolve_eq_firstHit`.
-/
namespace ModuleLoading

/-- One place where a module can be. -/
inductive Attempt
  | table (key : String)
  /-- One form of a stem, for a module of the given key. -/
  | file (stem : String) (form : Form) (key : String) (space : Namespace) (root : Option String)
  | engine (name : String)
  deriving Repr, DecidableEq

namespace Attempt

/-- What is found in a place. A miss is no error. -/
def outcome (resolver : Resolver) (files : FileView) :
    Attempt → Except LoadError (Option Resolved)
  | .table key =>
    .ok ((resolver.table.get? key).map fun m => ⟨m.identity, .embedded m.code⟩)
  | .file stem form key space root =>
    match form.candidate resolver.settings.candidateLimit stem with
    | .error e => .error e
    | .ok path =>
      .ok (if files.isLoadable path then some ⟨.ofProbe key space form root, .file path⟩ else none)
  | .engine name =>
    .ok ((resolver.builtins.source? name).map fun code => ⟨.ofEngine name, .engine code⟩)

def underRoot (order : List Form) (name root : String) : List Attempt :=
  order.map fun form => .file (root ++ "/" ++ name) form name .search (some root)

def atPath (key : String) : List Attempt :=
  Form.direct.map fun form => .file key form key .filesystem none

/-- The keys under which the table is asked. -/
def inTable (settings : Settings) (raw : String) (base : BaseDir) : List Attempt :=
  let text := (⟨raw⟩ : Specifier).effective
  match (⟨raw⟩ : Specifier).kind with
  | .bare =>
    .table (Key.ofName text) ::
      if settings.pathFallback then [.table (Key.ofPath text)] else []
  | .relative => [.table (Key.join base.space base.dir text)]
  | .absolute => [.table (Key.ofPath text)]

/-- The candidates on disk. -/
def onDisk (settings : Settings) (raw : String) (base : BaseDir) : List Attempt :=
  let text := (⟨raw⟩ : Specifier).effective
  match (⟨raw⟩ : Specifier).kind with
  | .bare =>
    settings.searchPath.roots.flatMap (underRoot Form.search (Key.ofName text)) ++
      if settings.pathFallback then atPath (Key.ofPath text) else []
  | .relative =>
    match base.space, base.root with
    | .search, some root => underRoot Form.direct (Key.join .search base.dir text) root
    | .search, none =>
      settings.searchPath.roots.flatMap
        (underRoot Form.direct (Key.join .search base.dir text))
    | .filesystem, _ => atPath (Key.join .filesystem base.dir text)
  | .absolute => atPath (Key.ofPath text)

/-- All places in the order in which they are looked at. -/
def all (settings : Settings) (raw : String) (base : BaseDir) : List Attempt :=
  inTable settings raw base ++ onDisk settings raw base ++ [.engine raw]

/-- The outcome of the first attempt that does not miss. -/
def firstHit (resolver : Resolver) (files : FileView) :
    List Attempt → Except LoadError (Option Resolved)
  | [] => .ok none
  | attempt :: rest =>
    match attempt.outcome resolver files with
    | .ok none => firstHit resolver files rest
    | decided => decided

variable (resolver : Resolver) (files : FileView)

theorem firstHit_cons_miss (attempt : Attempt) (rest : List Attempt)
    (h : attempt.outcome resolver files = .ok none) :
    firstHit resolver files (attempt :: rest) = firstHit resolver files rest := by
  simp only [firstHit, h]

theorem firstHit_cons_decided (attempt : Attempt) (rest : List Attempt)
    (h : attempt.outcome resolver files ≠ .ok none) :
    firstHit resolver files (attempt :: rest) = attempt.outcome resolver files := by
  rw [firstHit]
  split
  · next hmiss => exact absurd hmiss h
  · rfl

theorem firstHit_append (left right : List Attempt) :
    firstHit resolver files (left ++ right) =
      match firstHit resolver files left with
      | .ok none => firstHit resolver files right
      | decided => decided := by
  induction left with
  | nil => rfl
  | cons attempt rest ih =>
    by_cases h : attempt.outcome resolver files = .ok none
    · rw [List.cons_append, firstHit_cons_miss resolver files attempt _ h,
        firstHit_cons_miss resolver files attempt rest h, ih]
    · rw [List.cons_append, firstHit_cons_decided resolver files attempt _ h,
        firstHit_cons_decided resolver files attempt rest h]
      split
      · next hmiss => exact absurd hmiss h
      · rfl

/-- Attempts that all miss are passed over. -/
theorem firstHit_append_of_miss (before rest : List Attempt)
    (h : ∀ attempt ∈ before, attempt.outcome resolver files = .ok none) :
    firstHit resolver files (before ++ rest) = firstHit resolver files rest := by
  induction before with
  | nil => rfl
  | cons attempt before ih =>
    rw [List.cons_append,
      firstHit_cons_miss resolver files attempt _ (h attempt List.mem_cons_self)]
    exact ih fun other hother => h other (List.mem_cons_of_mem _ hother)

/-- What is decided is decided by one of the attempts. -/
theorem exists_of_firstHit (attempts : List Attempt) (outcome : Except LoadError (Option Resolved))
    (h : firstHit resolver files attempts = outcome) (hdecided : outcome ≠ .ok none) :
    ∃ attempt ∈ attempts, attempt.outcome resolver files = outcome := by
  induction attempts with
  | nil => exact absurd h.symm hdecided
  | cons attempt rest ih =>
    by_cases hmiss : attempt.outcome resolver files = .ok none
    · rw [firstHit_cons_miss resolver files attempt rest hmiss] at h
      obtain ⟨other, hother, houtcome⟩ := ih h
      exact ⟨other, List.mem_cons_of_mem _ hother, houtcome⟩
    · rw [firstHit_cons_decided resolver files attempt rest hmiss] at h
      exact ⟨attempt, List.mem_cons_self, h⟩

theorem firstHit_forms (stem key : String) (space : Namespace) (root : Option String)
    (forms : List Form) :
    firstHit resolver files (forms.map fun form => .file stem form key space root) =
      match probe files resolver.settings.candidateLimit stem forms with
      | .error e => .error e
      | .ok none => .ok none
      | .ok (some hit) => .ok (some ⟨.ofProbe key space hit.form root, .file hit.path⟩) := by
  induction forms with
  | nil => rfl
  | cons form forms ih =>
    rw [List.map_cons, firstHit, probe, outcome]
    cases form.candidate resolver.settings.candidateLimit stem with
    | error e => rfl
    | ok path =>
      by_cases hload : files.isLoadable path = true
      · simp only [hload, if_true]
      · simp only [hload, ih]
        rfl

theorem firstHit_atPath (key : String) :
    firstHit resolver files (atPath key) = resolver.atPath files key :=
  firstHit_forms resolver files key key .filesystem none Form.direct

theorem firstHit_underRoots (request : Request) (order : List Form) (roots : List String) :
    firstHit resolver files (roots.flatMap (underRoot order request.key)) =
      resolver.underRoots files request order roots := by
  induction roots with
  | nil => rfl
  | cons root roots ih =>
    rw [List.flatMap_cons, firstHit_append, ih, underRoot, firstHit_forms]
    rw [Resolver.underRoots, Resolver.underRoots, probeRoots, probeRoot]
    cases probe files resolver.settings.candidateLimit (root ++ "/" ++ request.key) order with
    | error e => rfl
    | ok found => cases found <;> rfl

theorem firstHit_underRoot (request : Request) (order : List Form) (root : String) :
    firstHit resolver files (underRoot order request.key root) =
      resolver.underRoots files request order [root] := by
  rw [← firstHit_underRoots, List.flatMap_singleton]

variable (raw : String) (base : BaseDir)

/-- The table is asked as embedding asks it: for the key, then for the fallback. -/
theorem firstHit_inTable :
    firstHit resolver files (inTable resolver.settings raw base) =
      .ok ((resolver.embedded? (Request.make raw base)).map fun m =>
        ⟨m.identity, .embedded m.code⟩) := by
  cases hkind : (⟨raw⟩ : Specifier).kind with
  | bare =>
    rw [Request.make_bare raw base hkind]
    simp only [inTable, hkind, firstHit, outcome, Resolver.embedded?, Option.bind_some]
    cases resolver.table.get? (Key.ofName (⟨raw⟩ : Specifier).effective) with
    | some m => rfl
    | none =>
      cases resolver.settings.pathFallback with
      | false => rfl
      | true =>
        simp only [if_true, firstHit, outcome, Option.map_none]
        cases resolver.table.get? (Key.ofPath (⟨raw⟩ : Specifier).effective) <;> rfl
  | relative =>
    rw [Request.make_relative raw base hkind]
    simp only [inTable, hkind, firstHit, outcome, Resolver.embedded?, Option.bind_none, ite_self]
    cases resolver.table.get? (Key.join base.space base.dir (⟨raw⟩ : Specifier).effective) <;> rfl
  | absolute =>
    rw [Request.make_absolute raw base hkind]
    simp only [inTable, hkind, firstHit, outcome, Resolver.embedded?, Option.bind_none, ite_self]
    cases resolver.table.get? (Key.ofPath (⟨raw⟩ : Specifier).effective) <;> rfl

theorem firstHit_onDisk_bare (hkind : (⟨raw⟩ : Specifier).kind = .bare) :
    firstHit resolver files (onDisk resolver.settings raw base) =
      resolver.bareFile files (Request.make raw base) := by
  have hkey : Key.ofName (⟨raw⟩ : Specifier).effective = (Request.make raw base).key := by
    rw [Request.make_bare raw base hkind]
  simp only [onDisk, hkind]
  rw [firstHit_append, hkey, firstHit_underRoots, Resolver.bareFile]
  cases resolver.underRoots files (Request.make raw base) Form.search
    resolver.settings.searchPath.roots with
  | error e => rfl
  | ok found =>
    cases found with
    | some found => rfl
    | none =>
      rw [Request.make_bare raw base hkind]
      simp only [Option.getD_some]
      cases resolver.settings.pathFallback with
      | false => rfl
      | true =>
        simp only [if_true]
        exact firstHit_atPath resolver files _

theorem firstHit_onDisk_sibling (hkind : (⟨raw⟩ : Specifier).kind = .relative)
    (hspace : base.space = .search) :
    firstHit resolver files (onDisk resolver.settings raw base) =
      resolver.siblingFile files (Request.make raw base) := by
  have hmade := Request.make_relative raw base hkind
  have hkey : Key.join .search base.dir (⟨raw⟩ : Specifier).effective =
      (Request.make raw base).key := by
    rw [hmade, hspace]
  have hroot : (Request.make raw base).root = base.root := by rw [hmade]
  simp only [onDisk, hkind, hspace, hkey, Resolver.siblingFile, Resolver.siblingRoots, hroot]
  cases base.root with
  | some root => exact firstHit_underRoot resolver files _ Form.direct root
  | none => exact firstHit_underRoots resolver files _ Form.direct _

/-- The candidates on disk are searched as the request is. -/
theorem firstHit_onDisk :
    firstHit resolver files (onDisk resolver.settings raw base) =
      resolver.file? files (Request.make raw base) := by
  cases hkind : (⟨raw⟩ : Specifier).kind with
  | bare =>
    rw [resolver.file?_bare files raw base hkind]
    exact firstHit_onDisk_bare resolver files raw base hkind
  | relative =>
    cases hspace : base.space with
    | search =>
      rw [resolver.file?_sibling files raw base hkind hspace]
      exact firstHit_onDisk_sibling resolver files raw base hkind hspace
    | filesystem =>
      have hmade := Request.make_relative raw base hkind
      rw [resolver.file?_path files raw base (by simp [hkind]) (by rw [hmade]; exact hspace),
        hmade, hspace]
      simp only [onDisk, hkind, hspace]
      exact firstHit_atPath resolver files _
  | absolute =>
    have hmade := Request.make_absolute raw base hkind
    rw [resolver.file?_path files raw base (by simp [hkind]) (by rw [hmade]), hmade]
    simp only [onDisk, hkind]
    exact firstHit_atPath resolver files _

theorem firstHit_engine :
    firstHit resolver files [.engine raw] =
      match resolver.fromEngine raw with
      | .ok found => .ok (some found)
      | .error _ => .ok none := by
  simp only [firstHit, outcome, Resolver.fromEngine]
  cases resolver.builtins.source? raw <;> rfl

variable (stem : String) (form : Form) (key : String) (space : Namespace) (root : Option String)

theorem outcome_of_tooLong
    (h : resolver.settings.candidateLimit < stem.utf8ByteSize + form.suffix.utf8ByteSize) :
    (file stem form key space root).outcome resolver files =
      .error (.candidateTooLong (stem.utf8ByteSize + form.suffix.utf8ByteSize)
        resolver.settings.candidateLimit) := by
  simp only [outcome, Form.candidate, if_pos h]

theorem outcome_of_hasNul
    (hfits : stem.utf8ByteSize + form.suffix.utf8ByteSize ≤ resolver.settings.candidateLimit)
    (hnul : '\x00' ∈ stem.toList) :
    (file stem form key space root).outcome resolver files = .error (.candidateHasNul stem) := by
  simp only [outcome, Form.candidate, if_neg (Nat.not_lt.2 hfits), if_pos hnul]

end Attempt

open Attempt

variable (resolver : Resolver) (files : FileView) (raw : String) (base : BaseDir)

theorem resolve_eq_firstHit :
    resolver.resolve files raw base =
      match firstHit resolver files (Attempt.all resolver.settings raw base) with
      | .ok (some found) => .ok found
      | .ok none => .error (.notFound raw)
      | .error e => .error e := by
  rw [Attempt.all, firstHit_append, firstHit_append, firstHit_inTable, firstHit_onDisk,
    firstHit_engine, Resolver.resolve]
  cases resolver.embedded? (Request.make raw base) with
  | some m => rfl
  | none =>
    cases resolver.file? files (Request.make raw base) with
    | error e => rfl
    | ok found =>
      cases found with
      | some found => rfl
      | none =>
        simp only [Option.map_none, Resolver.fromEngine]
        cases resolver.builtins.source? raw <;> rfl

/-- Where a search fails, resolution fails, unless an earlier attempt hits. -/
theorem resolve_of_first_error (before after : List Attempt) (attempt : Attempt) (e : LoadError)
    (hall : Attempt.all resolver.settings raw base = before ++ attempt :: after)
    (hmiss : ∀ earlier ∈ before, earlier.outcome resolver files = .ok none)
    (herror : attempt.outcome resolver files = .error e) :
    resolver.resolve files raw base = .error e := by
  have hdecided : attempt.outcome resolver files ≠ .ok none := by simp [herror]
  rw [resolve_eq_firstHit, hall, firstHit_append_of_miss resolver files before _ hmiss,
    firstHit_cons_decided resolver files attempt after hdecided, herror]

/-- Resolution answers what the first attempt that does not miss comes to, and
finds nothing only if all of them miss. A candidate that is too long or holds a NUL
ends it, whatever stands in the later places. -/
theorem resolve_decided_by_first :
    (resolver.resolve files raw base =
      match firstHit resolver files (Attempt.all resolver.settings raw base) with
      | .ok (some found) => .ok found
      | .ok none => .error (.notFound raw)
      | .error e => .error e) ∧
    ∀ before stem form key space root after,
      Attempt.all resolver.settings raw base =
        before ++ .file stem form key space root :: after →
      (∀ earlier ∈ before, earlier.outcome resolver files = .ok none) →
      let length := stem.utf8ByteSize + form.suffix.utf8ByteSize
      let limit := resolver.settings.candidateLimit
      (limit < length →
        resolver.resolve files raw base = .error (.candidateTooLong length limit)) ∧
      (length ≤ limit → '\x00' ∈ stem.toList →
        resolver.resolve files raw base = .error (.candidateHasNul stem)) := by
  refine ⟨resolve_eq_firstHit resolver files raw base, ?_⟩
  intro before stem form key space root after hall hmiss
  constructor
  · intro hlong
    exact resolve_of_first_error resolver files raw base before after _ _ hall hmiss
      (outcome_of_tooLong resolver files stem form key space root hlong)
  · intro hfits hnul
    exact resolve_of_first_error resolver files raw base before after _ _ hall hmiss
      (outcome_of_hasNul resolver files stem form key space root hfits hnul)

/-- An index file whose path is too long hides the file beside it. -/
theorem resolve_decided_by_first_overlong :
    let resolver : Resolver :=
      ⟨{ searchPath := ⟨["mods"]⟩, candidateLimit := 12 }, .empty, .none⟩
    let files : FileView := fun path => if path = "mods/a.js" then .ok (.file []) else .error .noSuchFile
    (Attempt.file "mods/a" .extension "a" .search (some "mods")).outcome resolver files =
      .ok (some ⟨⟨"a", ".", .search, some "mods"⟩, .file "mods/a.js"⟩) ∧
    resolver.resolve files "a" .workingDirectory = .error (.candidateTooLong 15 12) := by
  intro resolver files
  refine ⟨rfl, ?_⟩
  have hparts := (resolve_decided_by_first resolver files "a" .workingDirectory).2
    [.table "a", .table "./a"] "mods/a" .index "a" .search (some "mods")
    [.file "mods/a" .extension "a" .search (some "mods"),
      .file "mods/a" .exact "a" .search (some "mods"), .file "./a" .exact "./a" .filesystem none,
      .file "./a" .index "./a" .filesystem none, .file "./a" .extension "./a" .filesystem none,
      .engine "a"] rfl (by simp [outcome, resolver, Table.get?, Table.empty, findByKey])
  exact hparts.1 (by decide)

end ModuleLoading
