import ModuleLoading.Graph
import ModuleLoading.Proofs.Resolution

/-!
What discovery knows of a program at every point of its walk. It asks one query
after the other, those of the roots and then the static imports of every module in
the order in which the modules were met. The invariant `Discovered` relates the
queries asked so far to what they have brought up: every key that was answered is
held by one module, which is the one of the first answer with this key, and
everything else is noted. One query preserves it, and so does the whole walk.
-/
namespace ModuleLoading

/-- A specifier with the directory it is seen from. -/
structure Query where
  specifier : String
  base : BaseDir
  deriving Repr, DecidableEq

namespace Query

variable (resolver : Resolver) (files : FileView)

def answer (query : Query) : Except LoadError Resolved :=
  resolver.resolve files query.specifier query.base

/-- The module that a query leads to, unless the engine supplies it. -/
def found? (query : Query) : Option Resolved :=
  match query.answer resolver files with
  | .ok found => if found.content.origin = .engine then none else some found
  | .error _ => none

theorem found?_eq_some_iff (query : Query) (found : Resolved) :
    query.found? resolver files = some found ↔
      query.answer resolver files = .ok found ∧ found.content.origin ≠ .engine := by
  rw [found?]
  cases query.answer resolver files with
  | error e => simp
  | ok resolved =>
    by_cases horigin : resolved.content.origin = .engine
    · simp only [if_pos horigin, Except.ok.injEq]
      constructor
      · intro h
        cases h
      · rintro ⟨rfl, hne⟩
        exact absurd horigin hne
    · simp only [if_neg horigin, Option.some.injEq, Except.ok.injEq]
      constructor
      · rintro rfl
        exact ⟨rfl, horigin⟩
      · exact fun h => h.1

end Query

namespace GraphModule

/-- A module as it was when it was met. -/
def bare (m : GraphModule) : GraphModule := { m with imports := [] }

theorem map_key_bare (modules : List GraphModule) :
    (modules.map bare).map key = modules.map key := by
  rw [List.map_map]
  rfl

def queries (m : GraphModule) : List Query :=
  (Graph.staticSpecifiers m).map fun specifier => ⟨specifier, m.identity.baseDir⟩

end GraphModule

namespace Graph

def rootQueries (specifiers : List String) : List Query :=
  specifiers.map fun specifier => ⟨specifier, .workingDirectory⟩

section Visits

variable (resolver : Resolver) (files : FileView)

def visits (asked : List Query) : List Resolved := asked.filterMap (Query.found? resolver files)

/-- The first answer of a key. -/
def firstVisit? (asked : List Query) (key : String) : Option Resolved :=
  findByKey (fun found => found.identity.key) key (visits resolver files asked)

theorem visits_concat_some (asked : List Query) (query : Query) (found : Resolved)
    (h : query.found? resolver files = some found) :
    visits resolver files (asked ++ [query]) = visits resolver files asked ++ [found] := by
  simp [visits, h]

theorem firstVisit?_concat (asked : List Query) (query : Query) (key : String) (found : Resolved)
    (h : firstVisit? resolver files asked key = some found) :
    firstVisit? resolver files (asked ++ [query]) key = some found := by
  rw [firstVisit?, findByKey] at h ⊢
  rw [visits, List.filterMap_append, List.find?_append, ← visits, h, Option.some_or]

/-- A key that was not answered before is answered first by the last query. -/
theorem firstVisit?_concat_new (asked : List Query) (query : Query) (found : Resolved)
    (h : query.found? resolver files = some found)
    (hnew : ∀ earlier ∈ visits resolver files asked,
      earlier.identity.key ≠ found.identity.key) :
    firstVisit? resolver files (asked ++ [query]) found.identity.key = some found := by
  have hnone : (visits resolver files asked).find?
      (fun earlier => earlier.identity.key == found.identity.key) = none := by
    refine List.find?_eq_none.2 fun earlier hearlier => ?_
    simpa using hnew earlier hearlier
  rw [firstVisit?, findByKey, visits_concat_some resolver files asked query found h,
    List.find?_append, hnone]
  simp

theorem mem_visits_of_firstVisit? (asked : List Query) (key : String) (found : Resolved)
    (h : firstVisit? resolver files asked key = some found) :
    found.identity.key = key ∧
      ∃ query ∈ asked, query.found? resolver files = some found := by
  refine ⟨by simpa using List.find?_some h, ?_⟩
  exact List.mem_filterMap.1 (List.mem_of_find?_eq_some h)

end Visits

/-- What the queries asked so far have brought up. -/
structure Notes where
  modules : List GraphModule
  engine : List String
  unresolved : List UnresolvedImport

/-- What one query does to the notes. -/
inductive Asks (resolver : Resolver) (disk : Disk) (query : Query) (before : Notes) :
    Notes → Prop
  | missing (specifier : String) (note : UnresolvedImport)
      (h : query.answer resolver disk.files = .error (.notFound specifier)) :
      Asks resolver disk query before
        { before with unresolved := before.unresolved ++ [note] }
  | engine (found : Resolved) (h : query.answer resolver disk.files = .ok found)
      (horigin : found.content.origin = .engine) :
      Asks resolver disk query before
        { before with engine := before.engine ++ [found.identity.key] }
  | again (found : Resolved) (h : query.found? resolver disk.files = some found)
      (hmet : found.identity.key ∈ before.modules.map GraphModule.key) :
      Asks resolver disk query before before
  | fresh (found : Resolved) (m : GraphModule) (h : query.found? resolver disk.files = some found)
      (hnew : found.identity.key ∉ before.modules.map GraphModule.key)
      (hfetch : fetch disk found = .ok m) :
      Asks resolver disk query before { before with modules := before.modules ++ [m] }

/-- The notes hold exactly what the queries asked so far have brought up. -/
structure Discovered (resolver : Resolver) (disk : Disk) (asked : List Query)
    (notes : Notes) : Prop where
  reached : ∀ query ∈ asked, resolver.Reached disk.files query.base
  first : ∀ m ∈ notes.modules, ∃ found,
    firstVisit? resolver disk.files asked m.key = some found ∧ fetch disk found = .ok m
  covered : ∀ query ∈ asked, ∀ found, query.found? resolver disk.files = some found →
    found.identity.key ∈ notes.modules.map GraphModule.key
  nodup : (notes.modules.map GraphModule.key).Nodup
  engine_noted : ∀ query ∈ asked, ∀ found, query.answer resolver disk.files = .ok found →
    found.content.origin = .engine → notes.engine ≠ []
  error_noted : ∀ query ∈ asked, ∀ e, query.answer resolver disk.files = .error e →
    notes.unresolved ≠ []

theorem fetch_eq_ok_iff (disk : Disk) (found : Resolved) (m : GraphModule) :
    fetch disk found = .ok m ↔
      ∃ loaded, disk.read found = .ok loaded ∧
        m = ⟨loaded.identity, loaded.path, loaded.code, []⟩ := by
  rw [fetch]
  cases disk.read found with
  | error e => simp
  | ok loaded => simp [eq_comm]

/-- A module of the graph holds what was read when it was met. -/
theorem read_of_fetch (disk : Disk) (found : Resolved) (m : GraphModule)
    (h : fetch disk found = .ok m) :
    ∃ loaded, found.read disk.files = .ok loaded ∧ m.identity = loaded.identity ∧
      m.source = loaded.code := by
  obtain ⟨loaded, hread, rfl⟩ := (fetch_eq_ok_iff disk found m).1 h
  exact ⟨loaded, Disk.read_eq_ok hread, rfl, rfl⟩

theorem identity_of_fetch (disk : Disk) (found : Resolved) (m : GraphModule)
    (h : fetch disk found = .ok m) : m.identity = found.identity := by
  obtain ⟨loaded, hread, hidentity, _⟩ := read_of_fetch disk found m h
  exact hidentity.trans (identity_of_read hread)

theorem bare_of_fetch (disk : Disk) (found : Resolved) (m : GraphModule)
    (h : fetch disk found = .ok m) : m.bare = m := by
  obtain ⟨loaded, _, rfl⟩ := (fetch_eq_ok_iff disk found m).1 h
  rfl

section Steps

variable {resolver : Resolver} {disk : Disk}

def Rooted.notes (rooted : Rooted) : Notes := ⟨rooted.found, rooted.engine, []⟩

/-- What one root does to the roots before it. -/
inductive Roots (resolver : Resolver) (disk : Disk) (kind : RootKind) (query : Query)
    (before : Rooted) : Rooted → Prop
  | engine (found : Resolved) (h : query.answer resolver disk.files = .ok found)
      (horigin : found.content.origin = .engine) :
    Roots resolver disk kind query before
      { before with engine := before.engine ++ [found.identity.key] }
  | again (found : Resolved) (h : query.found? resolver disk.files = some found)
      (hmet : found.identity.key ∈ before.found.map GraphModule.key) :
    Roots resolver disk kind query before (before.note found.identity.key kind)
  | fresh (found : Resolved) (m : GraphModule) (h : query.found? resolver disk.files = some found)
      (hnew : found.identity.key ∉ before.found.map GraphModule.key)
      (hfetch : fetch disk found = .ok m) :
    Roots resolver disk kind query before
      { before.note found.identity.key kind with
        found := (before.note found.identity.key kind).found ++ [m] }

theorem roots_of_addRoot (before : Rooted) (kind : RootKind) (specifier : String)
    (after : Rooted) (h : addRoot resolver disk before kind specifier = .ok after) :
    Roots resolver disk kind ⟨specifier, .workingDirectory⟩ before after := by
  rw [addRoot] at h
  split at h
  · cases h
  · next found hanswer =>
    by_cases horigin : found.content.origin = .engine
    · simp only [if_pos horigin, Except.ok.injEq] at h
      subst h
      exact .engine found hanswer horigin
    · have hfound := (Query.found?_eq_some_iff resolver disk.files ⟨specifier, .workingDirectory⟩
        found).2 ⟨hanswer, horigin⟩
      simp only [if_neg horigin] at h
      split at h
      · next hmet =>
        simp only [Except.ok.injEq] at h
        subst h
        exact .again found hfound hmet
      · next hnew =>
        split at h
        · cases h
        · next m hfetch =>
          simp only [Except.ok.injEq] at h
          subst h
          exact .fresh found m hfound hnew hfetch

theorem asks_of_addRoot (rooted : Rooted) (kind : RootKind) (specifier : String)
    (after : Rooted) (h : addRoot resolver disk rooted kind specifier = .ok after) :
    Asks resolver disk ⟨specifier, .workingDirectory⟩ rooted.notes after.notes := by
  have hnote : ∀ key, (rooted.note key kind).notes = rooted.notes := by
    intro key
    cases kind <;> rfl
  cases roots_of_addRoot rooted kind specifier after h with
  | engine found hanswer horigin => exact .engine found hanswer horigin
  | again found hfound hmet =>
    rw [hnote]
    exact .again found hfound hmet
  | fresh found m hfound hnew hfetch =>
    cases kind <;> exact .fresh found m hfound hnew hfetch

def Scanned.notes (known : List GraphModule) (scanned : Scanned) : Notes :=
  ⟨known ++ scanned.fresh, scanned.engine, scanned.unresolved⟩

/-- What one import does to what was scanned before it. -/
inductive Scans (resolver : Resolver) (disk : Disk) (met : List String) (importer : Identity)
    (query : Query) (before : Scanned) : Scanned → Prop
  | missing (name : String) (h : query.answer resolver disk.files = .error (.notFound name)) :
    Scans resolver disk met importer query before
      { before with unresolved := before.unresolved ++ [⟨importer.key, query.specifier⟩] }
  | engine (found : Resolved) (h : query.answer resolver disk.files = .ok found)
      (horigin : found.content.origin = .engine) :
    Scans resolver disk met importer query before
      { before with engine := before.engine ++ [found.identity.key] }
  | again (found : Resolved) (imports : List String)
      (h : query.found? resolver disk.files = some found)
      (himports : imports = if found.identity.key ∈ before.imports then before.imports
        else before.imports ++ [found.identity.key])
      (hmet : found.identity.key ∈ met ∨
        found.identity.key ∈ before.fresh.map GraphModule.key) :
    Scans resolver disk met importer query before { before with imports := imports }
  | fresh (found : Resolved) (imports : List String) (m : GraphModule)
      (h : query.found? resolver disk.files = some found)
      (himports : imports = if found.identity.key ∈ before.imports then before.imports
        else before.imports ++ [found.identity.key])
      (hnew : ¬ (found.identity.key ∈ met ∨
        found.identity.key ∈ before.fresh.map GraphModule.key))
      (hfetch : fetch disk found = .ok m) :
    Scans resolver disk met importer query before
      { before with imports := imports, fresh := before.fresh ++ [m] }

theorem scans_of_scanImport (met : List String) (importer : Identity) (before after : Scanned)
    (specifier : String)
    (h : scanImport resolver disk met importer before specifier = .ok after) :
    Scans resolver disk met importer ⟨specifier, importer.baseDir⟩ before after := by
  rw [scanImport] at h
  split at h
  · next missing hanswer =>
    simp only [Except.ok.injEq] at h
    subst h
    exact .missing missing hanswer
  · cases h
  · next found hanswer =>
    by_cases horigin : found.content.origin = .engine
    · simp only [if_pos horigin, Except.ok.injEq] at h
      subst h
      exact .engine found hanswer horigin
    · have hfound := (Query.found?_eq_some_iff resolver disk.files ⟨specifier, importer.baseDir⟩
        found).2 ⟨hanswer, horigin⟩
      simp only [if_neg horigin] at h
      split at h
      · next hmet =>
        simp only [Except.ok.injEq] at h
        subst h
        exact .again found _ hfound rfl hmet
      · next hnew =>
        split at h
        · cases h
        · next m hfetch =>
          simp only [Except.ok.injEq] at h
          subst h
          exact .fresh found _ m hfound rfl hnew hfetch

theorem asks_of_scanImport (known : List GraphModule) (importer : Identity)
    (scanned after : Scanned) (specifier : String)
    (h : scanImport resolver disk (known.map GraphModule.key) importer scanned specifier =
      .ok after) :
    Asks resolver disk ⟨specifier, importer.baseDir⟩ (scanned.notes known)
      (after.notes known) := by
  have hkeys : ∀ key, key ∈ (scanned.notes known).modules.map GraphModule.key ↔
      key ∈ known.map GraphModule.key ∨ key ∈ scanned.fresh.map GraphModule.key := by
    intro key
    simp only [Scanned.notes, List.map_append, List.mem_append]
  cases scans_of_scanImport _ importer scanned after specifier h with
  | missing name hanswer => exact .missing name _ hanswer
  | engine found hanswer horigin => exact .engine found hanswer horigin
  | again found imports hfound himports hmet => exact .again found hfound ((hkeys _).2 hmet)
  | fresh found imports m hfound himports hnew hfetch =>
    have hask : Asks resolver disk ⟨specifier, importer.baseDir⟩ (scanned.notes known)
        ⟨known ++ scanned.fresh ++ [m], scanned.engine, scanned.unresolved⟩ :=
      .fresh found m hfound (fun hmet => hnew ((hkeys _).1 hmet)) hfetch
    simpa [Scanned.notes] using hask

end Steps

theorem forall_mem_concat {α : Type} {p : α → Prop} {list : List α} {a : α} :
    (∀ x ∈ list ++ [a], p x) ↔ (∀ x ∈ list, p x) ∧ p a := by
  rw [List.forall_mem_append, List.forall_mem_singleton]

namespace Discovered

variable {resolver : Resolver} {disk : Disk}

theorem start : Discovered resolver disk [] ⟨[], [], []⟩ where
  reached := by simp
  first := by simp
  covered := by simp
  nodup := by simp
  engine_noted := by simp
  error_noted := by simp

variable {asked : List Query} {notes after : Notes}

theorem visit_mem (hknown : Discovered resolver disk asked notes) (found : Resolved)
    (hvisit : found ∈ visits resolver disk.files asked) :
    found.identity.key ∈ notes.modules.map GraphModule.key := by
  obtain ⟨query, hquery, hfound⟩ := List.mem_filterMap.1 hvisit
  exact hknown.covered query hquery found hfound

/-- A query that brings up no new module leaves the modules as they are. -/
theorem ask_old (hknown : Discovered resolver disk asked notes) (query : Query)
    (hreached : resolver.Reached disk.files query.base) (hmodules : after.modules = notes.modules)
    (hold : ∀ found, query.found? resolver disk.files = some found →
      found.identity.key ∈ notes.modules.map GraphModule.key)
    (hengine : ∀ found, query.answer resolver disk.files = .ok found →
      found.content.origin = .engine → after.engine ≠ [])
    (herror : ∀ e, query.answer resolver disk.files = .error e → after.unresolved ≠ [])
    (hengineKept : notes.engine ≠ [] → after.engine ≠ [])
    (herrorKept : notes.unresolved ≠ [] → after.unresolved ≠ []) :
    Discovered resolver disk (asked ++ [query]) after where
  reached := forall_mem_concat.2 ⟨hknown.reached, hreached⟩
  first m hm := by
    obtain ⟨found, hvisit, hfetch⟩ := hknown.first m (hmodules ▸ hm)
    exact ⟨found, firstVisit?_concat resolver disk.files asked query m.key found hvisit, hfetch⟩
  covered := by
    rw [hmodules]
    exact forall_mem_concat.2 ⟨hknown.covered, hold⟩
  nodup := hmodules ▸ hknown.nodup
  engine_noted := by
    refine forall_mem_concat.2 ⟨fun q hq found hanswer horigin => ?_, hengine⟩
    exact hengineKept (hknown.engine_noted q hq found hanswer horigin)
  error_noted := by
    refine forall_mem_concat.2 ⟨fun q hq e hanswer => ?_, herror⟩
    exact herrorKept (hknown.error_noted q hq e hanswer)

/-- A query that brings up a new module is the first of its key. -/
theorem ask_fresh (hknown : Discovered resolver disk asked notes) (query : Query)
    (hreached : resolver.Reached disk.files query.base) (found : Resolved) (m : GraphModule)
    (hfound : query.found? resolver disk.files = some found)
    (hnew : found.identity.key ∉ notes.modules.map GraphModule.key)
    (hfetch : fetch disk found = .ok m) :
    Discovered resolver disk (asked ++ [query])
      { notes with modules := notes.modules ++ [m] } := by
  have hkey : m.key = found.identity.key :=
    congrArg Identity.key (identity_of_fetch disk found m hfetch)
  obtain ⟨hanswer, horigin⟩ := (query.found?_eq_some_iff resolver disk.files found).1 hfound
  refine ⟨forall_mem_concat.2 ⟨hknown.reached, hreached⟩, forall_mem_concat.2 ⟨?_, ?_⟩,
    forall_mem_concat.2 ⟨?_, ?_⟩, ?_, forall_mem_concat.2 ⟨hknown.engine_noted, ?_⟩,
    forall_mem_concat.2 ⟨hknown.error_noted, ?_⟩⟩
  · intro earlier hearlier
    obtain ⟨visit, hvisit, hvisitFetch⟩ := hknown.first earlier hearlier
    exact ⟨visit, firstVisit?_concat resolver disk.files asked query _ visit hvisit, hvisitFetch⟩
  · rw [hkey]
    refine ⟨found, firstVisit?_concat_new resolver disk.files asked query found hfound ?_, hfetch⟩
    intro earlier hearlier heq
    exact hnew (heq ▸ hknown.visit_mem earlier hearlier)
  · intro q hq other hother
    rw [List.map_append]
    exact List.mem_append_left _ (hknown.covered q hq other hother)
  · intro other hother
    rw [hfound, Option.some.injEq] at hother
    rw [List.map_append, ← hother, ← hkey]
    exact List.mem_append_right _ (List.mem_singleton_self m.key)
  · rw [List.map_append]
    exact Table.nodup_concat hknown.nodup (hkey ▸ hnew)
  · intro other hother hengine
    rw [hanswer, Except.ok.injEq] at hother
    exact absurd (hother ▸ hengine) horigin
  · intro e herror
    rw [hanswer] at herror
    cases herror

/-- The answer of one more query is added to the notes unless it is there. -/
theorem ask (hknown : Discovered resolver disk asked notes) (query : Query)
    (hreached : resolver.Reached disk.files query.base)
    (hask : Asks resolver disk query notes after) :
    Discovered resolver disk (asked ++ [query]) after := by
  cases hask with
  | missing specifier note h =>
    refine hknown.ask_old query hreached rfl ?_ ?_ ?_ id ?_
    · intro found hfound
      simp [Query.found?, h] at hfound
    · intro found hanswer
      simp [h] at hanswer
    · simp
    · simp
  | engine resolved h horigin =>
    refine hknown.ask_old query hreached rfl ?_ ?_ ?_ ?_ id
    · intro found hfound
      simp [Query.found?, h, horigin] at hfound
    · simp
    · intro e hanswer
      simp [h] at hanswer
    · simp
  | again resolved h hmet =>
    obtain ⟨hanswer, horigin⟩ := (query.found?_eq_some_iff resolver disk.files resolved).1 h
    refine hknown.ask_old query hreached rfl ?_ ?_ ?_ id id
    · intro found hfound
      rw [h, Option.some.injEq] at hfound
      exact hfound ▸ hmet
    · intro found hfound hengine
      rw [hanswer, Except.ok.injEq] at hfound
      exact absurd (hfound ▸ hengine) horigin
    · intro e herror
      simp [hanswer] at herror
  | fresh resolved m h hnew hfetch =>
    exact hknown.ask_fresh query hreached resolved m h hnew hfetch

theorem roots (kind : RootKind) (rooted after : Rooted) (specifiers : List String)
    (hknown : Discovered resolver disk asked rooted.notes)
    (h : addRoots resolver disk kind rooted specifiers = .ok after) :
    Discovered resolver disk (asked ++ rootQueries specifiers) after.notes := by
  induction specifiers generalizing asked rooted with
  | nil =>
    cases h
    simpa [rootQueries] using hknown
  | cons specifier rest ih =>
    rw [addRoots] at h
    split at h
    · cases h
    · next next hroot =>
      have hask := asks_of_addRoot rooted kind specifier next hroot
      have hnext := hknown.ask ⟨specifier, .workingDirectory⟩ .start hask
      simpa [rootQueries] using ih next hnext h

theorem bare_modules (hknown : Discovered resolver disk asked notes) :
    notes.modules.map GraphModule.bare = notes.modules := by
  refine (List.map_congr_left fun m hm => ?_).trans (List.map_id _)
  obtain ⟨found, _, hfetch⟩ := hknown.first m hm
  exact bare_of_fetch disk found m hfetch

theorem imports (known : List GraphModule) (importer : Identity) (scanned after : Scanned)
    (specifiers : List String) (hreached : resolver.Reached disk.files importer.baseDir)
    (hknown : Discovered resolver disk asked (scanned.notes known))
    (h : scanImports resolver disk (known.map GraphModule.key) importer scanned specifiers =
      .ok after) :
    Discovered resolver disk
      (asked ++ specifiers.map fun specifier => ⟨specifier, importer.baseDir⟩)
      (after.notes known) := by
  induction specifiers generalizing asked scanned with
  | nil =>
    cases h
    simpa using hknown
  | cons specifier rest ih =>
    rw [scanImports] at h
    split at h
    · cases h
    · next next hstep =>
      have hask := asks_of_scanImport known importer scanned next specifier hstep
      have hnext := hknown.ask ⟨specifier, importer.baseDir⟩ hreached hask
      simpa using ih next hnext h

/-- Where nothing is noted beside modules, every query led to a module. -/
theorem found_of_complete (hknown : Discovered resolver disk asked notes)
    (hengine : notes.engine = []) (hresolved : notes.unresolved = []) (query : Query)
    (hquery : query ∈ asked) : ∃ found, query.found? resolver disk.files = some found := by
  cases hanswer : query.answer resolver disk.files with
  | error e => exact absurd hresolved (hknown.error_noted query hquery e hanswer)
  | ok found =>
    refine ⟨found, (query.found?_eq_some_iff resolver disk.files found).2 ⟨hanswer, ?_⟩⟩
    intro horigin
    exact hknown.engine_noted query hquery found hanswer horigin hengine

/-- Every module is what the first query with its key led to. -/
theorem exists_query (hknown : Discovered resolver disk asked notes) (m : GraphModule)
    (hm : m ∈ notes.modules) :
    ∃ query ∈ asked, ∃ found, query.found? resolver disk.files = some found ∧
      found.identity.key = m.key ∧ fetch disk found = .ok m := by
  obtain ⟨found, hvisit, hfetch⟩ := hknown.first m hm
  obtain ⟨hkey, query, hquery, hfound⟩ :=
    mem_visits_of_firstVisit? resolver disk.files asked m.key found hvisit
  exact ⟨query, hquery, found, hfound, hkey, hfetch⟩

/-- Every module was found from a directory that resolution comes to. -/
theorem visit_of_mem (hknown : Discovered resolver disk asked notes) (m : GraphModule)
    (hm : m ∈ notes.modules) :
    ∃ query found, query ∈ asked ∧ resolver.Reached disk.files query.base ∧
      query.found? resolver disk.files = some found ∧ m.identity = found.identity := by
  obtain ⟨query, hquery, found, hfound, _, hfetch⟩ := hknown.exists_query m hm
  exact ⟨query, found, hquery, hknown.reached query hquery, hfound,
    identity_of_fetch disk found m hfetch⟩

theorem reached_baseDir (hknown : Discovered resolver disk asked notes) (m : GraphModule)
    (hm : m ∈ notes.modules) : resolver.Reached disk.files m.identity.baseDir := by
  obtain ⟨query, found, _, hreached, hfound, hidentity⟩ := hknown.visit_of_mem m hm
  obtain ⟨hanswer, _⟩ := (query.found?_eq_some_iff resolver disk.files found).1 hfound
  exact hidentity ▸ .step query.base query.specifier found hreached hanswer

/-- Scanning the pending modules asks the queries of every module in the order met. -/
theorem exploring (roots : List Query) (done pending : List GraphModule) (engine : List String)
    (unresolved : List UnresolvedImport) (explored : Explored)
    (hknown : Discovered resolver disk (roots ++ done.flatMap GraphModule.queries)
      ⟨(done ++ pending).map GraphModule.bare, engine, unresolved⟩)
    (h : explore resolver disk done pending engine unresolved = .ok explored) :
    Discovered resolver disk (roots ++ explored.modules.flatMap GraphModule.queries)
      ⟨explored.modules.map GraphModule.bare, explored.engine, explored.unresolved⟩ := by
  fun_induction explore resolver disk done pending engine unresolved with
  | case1 done engine unresolved =>
    cases h
    simpa using hknown
  | case2 done engine unresolved m pending e hscan => cases h
  | case3 done engine unresolved m pending scanned hscan ih =>
    refine ih ?_ h
    have hkeys : met done (m :: pending) =
        ((done ++ m :: pending).map GraphModule.bare).map GraphModule.key := by
      rw [GraphModule.map_key_bare, met, List.map_append]
    have hreached : resolver.Reached disk.files m.identity.baseDir :=
      hknown.reached_baseDir m.bare (List.mem_map_of_mem (by simp))
    rw [scan, hkeys] at hscan
    have hnext := imports ((done ++ m :: pending).map GraphModule.bare) m.identity
      ⟨[], [], engine, unresolved⟩ scanned (staticSpecifiers m) hreached
      (by simpa [Scanned.notes] using hknown) hscan
    have hfresh : (scanned.fresh).map GraphModule.bare = scanned.fresh := by
      have hbare := hnext.bare_modules
      simp only [Scanned.notes, List.map_append] at hbare
      exact List.append_inj_right hbare (by simp)
    simpa [GraphModule.queries, GraphModule.bare, staticSpecifiers, Scanned.notes, hfresh]
      using hnext

end Discovered

theorem explore_nil (resolver : Resolver) (disk : Disk) (done : List GraphModule)
    (engine : List String) (unresolved : List UnresolvedImport) :
    explore resolver disk done [] engine unresolved = .ok ⟨done, engine, unresolved⟩ := by
  rw [explore]

theorem explore_cons (resolver : Resolver) (disk : Disk) (done pending : List GraphModule)
    (m : GraphModule) (engine : List String) (unresolved : List UnresolvedImport)
    (scanned : Scanned)
    (h : scan resolver disk (met done (m :: pending)) m engine unresolved = .ok scanned) :
    explore resolver disk done (m :: pending) engine unresolved =
      explore resolver disk (done ++ [{ m with imports := scanned.imports }])
        (pending ++ scanned.fresh) scanned.engine scanned.unresolved := by
  rw [explore]
  split
  · next e h' =>
    rw [h] at h'
    cases h'
  · next other h' =>
    rw [h] at h'
    cases h'
    rfl

section Programs

variable (resolver : Resolver) (disk : Disk) (entries forced : List String)

/-- The modules of a program in the order in which they are scanned. -/
def scanOrder : List GraphModule :=
  match addRoots resolver disk .entry ⟨[], [], [], []⟩ entries with
  | .error _ => []
  | .ok rooted =>
    match addRoots resolver disk .forced rooted forced with
    | .error _ => []
    | .ok rooted =>
      match explore resolver disk [] rooted.found rooted.engine [] with
      | .error _ => []
      | .ok explored => explored.modules

/-- The queries of a program in the order in which they are asked. -/
def asked : List Query :=
  rootQueries (entries ++ forced) ++
    (scanOrder resolver disk entries forced).flatMap GraphModule.queries

def notes (graph : Graph) : Notes :=
  ⟨graph.modules.map GraphModule.bare, graph.engineModules, graph.unresolved⟩

theorem ofRoots_of_stages (rooted rooted' : Rooted) (explored : Explored)
    (hentries : addRoots resolver disk .entry ⟨[], [], [], []⟩ entries = .ok rooted)
    (hforced : addRoots resolver disk .forced rooted forced = .ok rooted')
    (hexplore : explore resolver disk [] rooted'.found rooted'.engine [] = .ok explored) :
    ofRoots resolver disk entries forced =
        .ok ⟨rooted'.entries, rooted'.forced, ascendingModules explored.modules,
          ascendingNames explored.engine, explored.unresolved⟩ ∧
      scanOrder resolver disk entries forced = explored.modules := by
  simp only [ofRoots, scanOrder, hentries, hforced, hexplore, and_self]

variable {resolver disk entries forced}

theorem mem_ascendingModules (modules : List GraphModule) (m : GraphModule)
    (h : (modules.map GraphModule.key).Nodup) : m ∈ ascendingModules modules ↔ m ∈ modules :=
  mem_foldl_insertByKey GraphModule.key m modules h

theorem nodup_ascendingModules (modules : List GraphModule) :
    ((ascendingModules modules).map GraphModule.key).Nodup :=
  nodup_of_ascending (ascending_foldl_insertByKey GraphModule.key modules [] (by simp [Ascending]))

/-- The modules of a graph may be listed in any order. -/
theorem Discovered.ascending (asked : List Query) (modules : List GraphModule)
    (engine : List String) (unresolved : List UnresolvedImport)
    (hknown : Discovered resolver disk asked ⟨modules.map GraphModule.bare, engine, unresolved⟩) :
    Discovered resolver disk asked
      ⟨(ascendingModules modules).map GraphModule.bare, ascendingNames engine, unresolved⟩ := by
  have hnodup : (modules.map GraphModule.key).Nodup := by
    rw [← GraphModule.map_key_bare]
    exact hknown.nodup
  have hmem : ∀ m, m ∈ (ascendingModules modules).map GraphModule.bare ↔
      m ∈ modules.map GraphModule.bare := by
    intro m
    simp only [List.mem_map, mem_ascendingModules modules _ hnodup]
  refine ⟨hknown.reached, fun m hm => hknown.first m ((hmem m).1 hm), ?_, ?_, ?_,
    hknown.error_noted⟩
  · intro query hquery found hfound
    obtain ⟨m, hm, hkey⟩ := List.mem_map.1 (hknown.covered query hquery found hfound)
    exact List.mem_map.2 ⟨m, (hmem m).2 hm, hkey⟩
  · rw [GraphModule.map_key_bare]
    exact nodup_ascendingModules modules
  · intro query hquery found hanswer horigin hnil
    exact hknown.engine_noted query hquery found hanswer horigin
      (foldl_insertByKey_eq_nil id engine [] hnil).1

/-- The three stages of a discovery that succeeds. -/
theorem stages_of_ofRoots (graph : Graph)
    (h : ofRoots resolver disk entries forced = .ok graph) :
    ∃ rooted rooted' explored,
      addRoots resolver disk .entry ⟨[], [], [], []⟩ entries = .ok rooted ∧
      addRoots resolver disk .forced rooted forced = .ok rooted' ∧
      explore resolver disk [] rooted'.found rooted'.engine [] = .ok explored ∧
      scanOrder resolver disk entries forced = explored.modules ∧
      graph = ⟨rooted'.entries, rooted'.forced, ascendingModules explored.modules,
        ascendingNames explored.engine, explored.unresolved⟩ := by
  rw [ofRoots] at h
  split at h
  · cases h
  · next rooted hentries =>
    split at h
    · cases h
    · next rooted' hforced =>
      split at h
      · cases h
      · next explored hexplore =>
        refine ⟨rooted, rooted', explored, hentries, hforced, hexplore, ?_, (Except.ok.inj h).symm⟩
        simp only [scanOrder, hentries, hforced, hexplore]

theorem discovered_scanOrder (graph : Graph)
    (h : ofRoots resolver disk entries forced = .ok graph) :
    ∃ engine,
      Discovered resolver disk (asked resolver disk entries forced)
        ⟨(scanOrder resolver disk entries forced).map GraphModule.bare, engine,
          graph.unresolved⟩ ∧
      graph.modules = ascendingModules (scanOrder resolver disk entries forced) ∧
      graph.engineModules = ascendingNames engine := by
  obtain ⟨rooted, rooted', explored, hentries, hforced, hexplore, horder, rfl⟩ :=
    stages_of_ofRoots graph h
  have hrooted := Discovered.start.roots .entry ⟨[], [], [], []⟩ rooted entries hentries
  have hboth := hrooted.roots .forced rooted rooted' forced hforced
  have hbare : rooted'.found.map GraphModule.bare = rooted'.found := hboth.bare_modules
  have hexplored := Discovered.exploring (rootQueries (entries ++ forced)) []
    rooted'.found rooted'.engine [] explored
    (by simpa [rootQueries, Rooted.notes, hbare] using hboth) hexplore
  rw [asked, horder]
  exact ⟨explored.engine, hexplored, rfl, rfl⟩

/-- What discovery leaves behind when it succeeds. -/
theorem discovered_of_ofRoots (graph : Graph)
    (h : ofRoots resolver disk entries forced = .ok graph) :
    Discovered resolver disk (asked resolver disk entries forced) graph.notes := by
  obtain ⟨engine, hknown, hmodules, hengine⟩ := discovered_scanOrder graph h
  rw [notes, hmodules, hengine]
  exact hknown.ascending

/-- The queries of a graph are those of its roots and of its modules. -/
theorem mem_asked_iff (graph : Graph) (h : ofRoots resolver disk entries forced = .ok graph)
    (query : Query) :
    query ∈ asked resolver disk entries forced ↔
      query ∈ rootQueries (entries ++ forced) ∨ ∃ m ∈ graph.modules, query ∈ m.queries := by
  obtain ⟨engine, hknown, hmodules, _⟩ := discovered_scanOrder graph h
  have hnodup := hknown.nodup
  rw [GraphModule.map_key_bare] at hnodup
  rw [asked, List.mem_append, List.mem_flatMap, hmodules]
  simp only [mem_ascendingModules _ _ hnodup]

/-- The keys noted for the roots of a kind. -/
def Rooted.noted (rooted : Rooted) : RootKind → List String
  | .entry => rooted.entries
  | .forced => rooted.forced

theorem Rooted.noted_note (rooted : Rooted) (key : String) (kind wanted : RootKind) :
    (rooted.note key kind).noted wanted =
      rooted.noted wanted ++ if kind = wanted then [key] else [] := by
  cases kind <;> cases wanted <;> simp [note, noted]

/-- A root notes its key among those of its kind, if it leads to a module. -/
theorem noted_of_addRoot (rooted after : Rooted) (kind wanted : RootKind) (specifier : String)
    (h : addRoot resolver disk rooted kind specifier = .ok after) :
    after.noted wanted = rooted.noted wanted ++
      if kind = wanted then
        (visits resolver disk.files (rootQueries [specifier])).map fun found => found.identity.key
      else [] := by
  cases roots_of_addRoot rooted kind specifier after h with
  | engine found hanswer horigin =>
    have hfound : Query.found? resolver disk.files ⟨specifier, .workingDirectory⟩ = none := by
      simp [Query.found?, hanswer, horigin]
    cases wanted <;> simp [Rooted.noted, visits, rootQueries, hfound]
  | again found hfound hmet =>
    rw [Rooted.noted_note]
    simp [visits, rootQueries, hfound]
  | fresh found m hfound hnew hfetch =>
    have hnoted := Rooted.noted_note rooted found.identity.key kind wanted
    simp only [Rooted.noted] at hnoted ⊢
    rw [hnoted]
    simp [visits, rootQueries, hfound]

theorem noted_of_addRoots (rooted after : Rooted) (kind wanted : RootKind)
    (specifiers : List String)
    (h : addRoots resolver disk kind rooted specifiers = .ok after) :
    after.noted wanted = rooted.noted wanted ++
      if kind = wanted then
        (visits resolver disk.files (rootQueries specifiers)).map fun found => found.identity.key
      else [] := by
  induction specifiers generalizing rooted with
  | nil =>
    cases h
    simp [visits, rootQueries]
  | cons specifier rest ih =>
    rw [addRoots] at h
    split at h
    · cases h
    · next next hroot =>
      rw [ih next h, noted_of_addRoot rooted next kind wanted specifier hroot]
      have hvisits : visits resolver disk.files (rootQueries (specifier :: rest)) =
          visits resolver disk.files (rootQueries [specifier]) ++
            visits resolver disk.files (rootQueries rest) := by
        rw [visits, visits, visits, ← List.filterMap_append]
        rfl
      by_cases hkind : kind = wanted
      · simp only [if_pos hkind, hvisits, List.map_append, List.append_assoc]
      · simp only [if_neg hkind, List.append_nil]

/-- The noted roots of a graph are the keys of its root specifiers, in order. -/
theorem noted_of_ofRoots (graph : Graph)
    (h : ofRoots resolver disk entries forced = .ok graph) :
    graph.entries =
        (visits resolver disk.files (rootQueries entries)).map (fun found => found.identity.key) ∧
      graph.forced =
        (visits resolver disk.files (rootQueries forced)).map fun found => found.identity.key := by
  obtain ⟨rooted, rooted', explored, hentries, hforced, hexplore, horder, rfl⟩ :=
    stages_of_ofRoots graph h
  constructor
  · have hfirst := noted_of_addRoots _ _ _ .entry _ hentries
    exact (noted_of_addRoots _ _ _ .entry _ hforced).trans (by simpa [Rooted.noted] using hfirst)
  · have hfirst : rooted.noted .forced = [] := noted_of_addRoots _ _ _ .forced _ hentries
    have hsecond := noted_of_addRoots _ _ _ .forced _ hforced
    rw [hfirst] at hsecond
    exact hsecond

end Programs

end Graph

end ModuleLoading
