import Mathlib
import ModuleLoading.Proofs.BuiltTable
import ModuleLoading.Proofs.UnreadableFiles
import ModuleLoading.Proofs.Utf8Order

/-!
Which builds fail, and how. A root that leads nowhere makes a build fail, and an import that
leads nowhere does not. A candidate that cannot be built and a file that cannot be read end a
build wherever they are come upon, and a module that is no text ends it once the graph is
there. Main statement: `build_failures`.
-/
namespace ModuleLoading

open ModuleLoading.Graph

namespace Disk

section Breaking

/-- A query ends discovery with an error: it comes to a candidate that cannot be built, or to
a file that cannot be read. That it leads nowhere is no such error. -/
inductive Breaks (disk : Disk) (resolver : Resolver) (query : Query) : LoadError → Prop
  | search (e : LoadError) (h : query.answer resolver disk.files = .error e)
      (hcandidate : e.OfCandidate) :
    Breaks disk resolver query e
  | read (found : Resolved) (e : LoadError) (h : query.answer resolver disk.files = .ok found)
      (hread : disk.read found = .error e) :
    Breaks disk resolver query e

variable {disk : Disk} {resolver : Resolver} {query : Query} {e e' : LoadError}

theorem Breaks.ofCandidate_or_unreadable (h : Breaks disk resolver query e) :
    e.OfCandidate ∨ ∃ path cause, e = .unreadable path cause := by
  cases h with
  | search e hanswer hcandidate => exact .inl hcandidate
  | read found e hanswer hread =>
    obtain ⟨path, cause, _, _, rfl⟩ := unreadable_of_read query found e hanswer hread
    exact .inr ⟨path, cause, rfl⟩

theorem Breaks.unique (h : Breaks disk resolver query e) (h' : Breaks disk resolver query e') :
    e = e' := by
  cases h with
  | search e hanswer hcandidate =>
    cases h' with
    | search e' hanswer' hcandidate' => exact Except.error.inj (hanswer.symm.trans hanswer')
    | read found e' hanswer' hread' => cases hanswer.symm.trans hanswer'
  | read found e hanswer hread =>
    cases h' with
    | search e' hanswer' hcandidate' => cases hanswer.symm.trans hanswer'
    | read found' e' hanswer' hread' =>
      obtain rfl := Except.ok.inj (hanswer.symm.trans hanswer')
      exact Except.error.inj (hread.symm.trans hread')

end Breaking

section Roots

variable (disk : Disk) (resolver : Resolver)

/-- The keys that roots bring in. -/
def rootKeys (roots : List String) : List String :=
  (visits resolver disk.files (rootQueries roots)).map fun found => found.identity.key

/-- A root can be taken after others: it resolves, and what it leads to can be read unless one
of the others brings in a module of its key. -/
def Takes (before : List String) (root : String) : Prop :=
  ∃ found, resolver.resolve disk.files root .workingDirectory = .ok found ∧
    (found.identity.key ∈ disk.rootKeys resolver before ∨ ∃ loaded, disk.read found = .ok loaded)

def TakesAll (roots : List String) : Prop :=
  ∀ before root after, roots = before ++ root :: after → disk.Takes resolver before root

/-- The error of a root that cannot be taken after others: it leads nowhere, or it ends
discovery as an import does. -/
inductive Fails (before : List String) (root : String) : LoadError → Prop
  | missing (h : resolver.resolve disk.files root .workingDirectory = .error (.notFound root)) :
    Fails before root (.notEmbeddable root)
  | broken (e : LoadError) (h : Breaks disk resolver ⟨root, .workingDirectory⟩ e)
      (hnew : ∀ found, resolver.resolve disk.files root .workingDirectory = .ok found →
        found.identity.key ∉ disk.rootKeys resolver before) :
    Fails before root e

variable {disk resolver} {before : List String} {root : String}

theorem Fails.not_takes {e : LoadError} (h : disk.Fails resolver before root e) :
    ¬ disk.Takes resolver before root := by
  rintro ⟨found, hfound, htaken⟩
  cases h with
  | missing hnone => cases hfound.symm.trans hnone
  | broken e hbreaks hnew =>
    cases hbreaks with
    | search e hanswer hcandidate => cases hfound.symm.trans hanswer
    | read other e hanswer hread =>
      obtain rfl := Except.ok.inj (hfound.symm.trans hanswer)
      rcases htaken with hmet | ⟨loaded, hloaded⟩
      · exact hnew found hfound hmet
      · cases hread.symm.trans hloaded

theorem not_breaks_of_missing {query : Query} {e : LoadError}
    (h : query.answer resolver disk.files = .error (.notFound query.specifier)) :
    ¬ Breaks disk resolver query e := by
  intro hbreaks
  cases hbreaks with
  | search e hanswer hcandidate =>
    obtain rfl := Except.error.inj (h.symm.trans hanswer)
    cases hcandidate
  | read found e hanswer hread => cases h.symm.trans hanswer

theorem Fails.unique {e e' : LoadError} (h : disk.Fails resolver before root e)
    (h' : disk.Fails resolver before root e') : e = e' := by
  cases h with
  | missing hnone =>
    cases h' with
    | missing hnone' => rfl
    | broken e' hbreaks hnew => exact absurd hbreaks (not_breaks_of_missing hnone)
  | broken e hbreaks hnew =>
    cases h' with
    | missing hnone' => exact absurd hbreaks (not_breaks_of_missing hnone')
    | broken e' hbreaks' hnew' => exact hbreaks.unique hbreaks'

theorem takesAll_nil : disk.TakesAll resolver [] := by
  intro before root after h
  cases before <;> cases h

theorem TakesAll.concat (h : disk.TakesAll resolver before)
    (hroot : disk.Takes resolver before root) : disk.TakesAll resolver (before ++ [root]) := by
  intro front other after hsplit
  rcases List.eq_nil_or_concat after with rfl | ⟨between, last, rfl⟩
  · obtain ⟨rfl, rfl⟩ := List.concat_inj.1 (by simpa using hsplit)
    exact hroot
  · rw [List.concat_eq_append, ← List.cons_append, ← List.append_assoc] at hsplit
    exact h front other between (List.append_inj_left' hsplit rfl)

theorem rootKeys_concat_some (found : Resolved)
    (h : (⟨root, .workingDirectory⟩ : Query).found? resolver disk.files = some found) :
    disk.rootKeys resolver (before ++ [root]) =
      disk.rootKeys resolver before ++ [found.identity.key] := by
  simp [rootKeys, rootQueries, visits, h]

theorem rootKeys_concat_none
    (h : (⟨root, .workingDirectory⟩ : Query).found? resolver disk.files = none) :
    disk.rootKeys resolver (before ++ [root]) = disk.rootKeys resolver before := by
  simp [rootKeys, rootQueries, visits, h]

/-- What is known once some roots have been handled. -/
structure Holds (disk : Disk) (resolver : Resolver) (rooted : Rooted) (before : List String) :
    Prop where
  takes : disk.TakesAll resolver before
  keys : ∀ key, key ∈ rooted.found.map GraphModule.key ↔ key ∈ disk.rootKeys resolver before

theorem Holds.start : Holds disk resolver ⟨[], [], [], []⟩ [] where
  takes := takesAll_nil
  keys key := by simp [rootKeys, rootQueries, visits]

theorem found_note (rooted : Rooted) (key : String) (kind : RootKind) :
    (rooted.note key kind).found = rooted.found := by
  cases kind <;> rfl

variable {rooted next : Rooted} {kind : RootKind}

theorem Holds.concat (hholds : Holds disk resolver rooted before)
    (h : addRoot resolver disk rooted kind root = .ok next) :
    Holds disk resolver next (before ++ [root]) := by
  cases roots_of_addRoot rooted kind root next h with
  | engine found hanswer horigin =>
    have hnone : (⟨root, .workingDirectory⟩ : Query).found? resolver disk.files = none := by
      simp [Query.found?, hanswer, horigin]
    have hread : ∃ loaded, disk.read found = .ok loaded := by
      cases hread : disk.read found with
      | ok loaded => exact ⟨loaded, rfl⟩
      | error e =>
        obtain ⟨path, _, hfile, _⟩ := unreadable_of_read _ found e hanswer hread
        rw [hfile] at horigin
        cases horigin
    refine ⟨hholds.takes.concat ⟨found, hanswer, .inr hread⟩, ?_⟩
    rw [rootKeys_concat_none hnone]
    exact hholds.keys
  | again found hfound hmet =>
    obtain ⟨hanswer, _⟩ := (Query.found?_eq_some_iff resolver disk.files _ found).1 hfound
    have hold := (hholds.keys _).1 hmet
    refine ⟨hholds.takes.concat ⟨found, hanswer, .inl hold⟩, ?_⟩
    intro key
    rw [found_note, hholds.keys, rootKeys_concat_some found hfound, List.mem_append,
      List.mem_singleton]
    constructor
    · exact .inl
    · rintro (hkey | rfl)
      · exact hkey
      · exact hold
  | fresh found m hfound hnew hfetch =>
    obtain ⟨hanswer, _⟩ := (Query.found?_eq_some_iff resolver disk.files _ found).1 hfound
    obtain ⟨loaded, hread, _⟩ := (fetch_eq_ok_iff disk found m).1 hfetch
    have hkey : m.key = found.identity.key :=
      congrArg Identity.key (identity_of_fetch disk found m hfetch)
    refine ⟨hholds.takes.concat ⟨found, hanswer, .inr ⟨loaded, hread⟩⟩, ?_⟩
    intro key
    simp only [found_note, List.map_append, List.map_cons, List.map_nil, List.mem_append, hkey,
      hholds.keys, rootKeys_concat_some found hfound]

theorem Holds.fails (hholds : Holds disk resolver rooted before) (e : LoadError)
    (h : addRoot resolver disk rooted kind root = .error e) :
    disk.Fails resolver before root e := by
  rcases error_of_addRoot rooted kind root e h with
    ⟨e', hanswer, rfl⟩ | ⟨other, hanswer, hnew, hread⟩
  · rcases Query.error_cases ⟨root, .workingDirectory⟩ e' hanswer with rfl | hcandidate
    · exact .missing hanswer
    · have hsame : embeddable e' = e' := by cases hcandidate <;> rfl
      rw [hsame]
      refine .broken e' (.search e' hanswer hcandidate) ?_
      intro found hfound
      cases hfound.symm.trans hanswer
  · refine .broken e (.read other e hanswer hread) ?_
    intro found hfound hold
    obtain rfl := Except.ok.inj (hfound.symm.trans hanswer)
    exact hnew ((hholds.keys _).2 hold)

/-- Roots fail at the first one that cannot be taken. -/
theorem Holds.addRoots (hholds : Holds disk resolver rooted before) (kind : RootKind)
    (roots : List String) :
    (∃ after, addRoots resolver disk kind rooted roots = .ok after ∧
        Holds disk resolver after (before ++ roots)) ∨
      ∃ e front root rest, addRoots resolver disk kind rooted roots = .error e ∧
        roots = front ++ root :: rest ∧ disk.TakesAll resolver (before ++ front) ∧
        disk.Fails resolver (before ++ front) root e := by
  induction roots generalizing rooted before with
  | nil => exact .inl ⟨rooted, rfl, by rwa [List.append_nil]⟩
  | cons root rest ih =>
    rw [Graph.addRoots]
    cases hstep : addRoot resolver disk rooted kind root with
    | error e =>
      refine .inr ⟨e, [], root, rest, rfl, rfl, ?_, ?_⟩
      · simpa using hholds.takes
      · simpa using hholds.fails e hstep
    | ok next =>
      have hsplit : ∀ front, before ++ root :: front = (before ++ [root]) ++ front := by simp
      rcases ih (hholds.concat hstep) with ⟨after, hafter, hnext⟩ |
        ⟨e, front, other, rest, herror, rfl, htakes, hfails⟩
      · exact .inl ⟨after, hafter, by rwa [hsplit]⟩
      · exact .inr ⟨e, root :: front, other, rest, herror, rfl, by rwa [hsplit], by rwa [hsplit]⟩

/-- All roots are taken, or discovery ends at one of them. -/
theorem roots_cases (disk : Disk) (resolver : Resolver) (entries forced : List String) :
    (∃ rooted rooted', addRoots resolver disk .entry ⟨[], [], [], []⟩ entries = .ok rooted ∧
        addRoots resolver disk .forced rooted forced = .ok rooted' ∧
        disk.TakesAll resolver (entries ++ forced)) ∨
      ∃ e before root after, ofRoots resolver disk entries forced = .error e ∧
        entries ++ forced = before ++ root :: after ∧ disk.TakesAll resolver before ∧
        disk.Fails resolver before root e := by
  rw [ofRoots]
  rcases (Holds.start : Holds disk resolver _ _).addRoots .entry entries with
    ⟨rooted, hrooted, hentries⟩ | ⟨e, before, root, after, herror, hsplit, htakes, hfails⟩
  · rw [hrooted]
    rcases hentries.addRoots .forced forced with
      ⟨rooted', hrooted', hboth⟩ | ⟨e, before, root, after, herror, hsplit, htakes, hfails⟩
    · exact .inl ⟨rooted, rooted', rfl, hrooted', hboth.takes⟩
    · refine .inr ⟨e, entries ++ before, root, after, by simp only [herror], ?_, htakes, hfails⟩
      rw [hsplit, List.append_assoc]
  · refine .inr ⟨e, before, root, after ++ forced, by rw [herror], ?_, htakes, hfails⟩
    rw [hsplit, List.append_assoc, List.cons_append]

end Roots

section Imports

/-- The modules that discovery can come upon from some roots. -/
inductive Meets (disk : Disk) (resolver : Resolver) (roots : List String) : GraphModule → Prop
  | root (query : Query) (found : Resolved) (m : GraphModule) (hroot : query ∈ rootQueries roots)
      (hfound : query.found? resolver disk.files = some found)
      (hfetch : fetch disk found = .ok m) :
    Meets disk resolver roots m
  | imported (importer : GraphModule) (query : Query) (found : Resolved) (m : GraphModule)
      (himporter : Meets disk resolver roots importer) (hquery : query ∈ importer.queries)
      (hfound : query.found? resolver disk.files = some found)
      (hfetch : fetch disk found = .ok m) :
    Meets disk resolver roots m

variable {disk : Disk} {resolver : Resolver}

theorem breaks_of_scanImport (met : List String) (importer : Identity) (scanned : Scanned)
    (specifier : String) (e : LoadError)
    (h : scanImport resolver disk met importer scanned specifier = .error e) :
    Breaks disk resolver ⟨specifier, importer.baseDir⟩ e := by
  rcases error_of_scanImport met importer scanned specifier e h with
    ⟨hanswer, hother⟩ | ⟨found, hanswer, hread⟩
  · have hcases := Query.error_cases ⟨specifier, importer.baseDir⟩ e hanswer
    exact .search e hanswer (hcases.resolve_left (hother specifier))
  · exact .read found e hanswer hread

theorem breaks_of_scanImports (met : List String) (importer : Identity) (scanned : Scanned)
    (specifiers : List String) (e : LoadError)
    (h : scanImports resolver disk met importer scanned specifiers = .error e) :
    ∃ specifier ∈ specifiers, Breaks disk resolver ⟨specifier, importer.baseDir⟩ e := by
  induction specifiers generalizing scanned with
  | nil => cases h
  | cons specifier rest ih =>
    rw [scanImports] at h
    split at h
    · next e' hstep =>
      obtain rfl := Except.error.inj h
      exact ⟨specifier, List.mem_cons_self, breaks_of_scanImport met importer scanned _ e' hstep⟩
    · next next hstep =>
      obtain ⟨other, hother, hbreaks⟩ := ih next h
      exact ⟨other, List.mem_cons_of_mem _ hother, hbreaks⟩

/-- The modules that a module brings in are answers of its queries. -/
theorem query_of_fresh (met : List String) (importer : Identity) (scanned after : Scanned)
    (specifiers : List String)
    (h : scanImports resolver disk met importer scanned specifiers = .ok after)
    (m : GraphModule) (hm : m ∈ after.fresh) :
    m ∈ scanned.fresh ∨ ∃ specifier ∈ specifiers, ∃ found,
      (⟨specifier, importer.baseDir⟩ : Query).found? resolver disk.files = some found ∧
        fetch disk found = .ok m := by
  induction specifiers generalizing scanned with
  | nil =>
    cases h
    exact .inl hm
  | cons specifier rest ih =>
    rw [Graph.scanImports] at h
    split at h
    · cases h
    · next next hstep =>
      rcases ih next h with hold | ⟨other, hother, hfound⟩
      · cases scans_of_scanImport met importer scanned next specifier hstep with
        | missing name hanswer => exact .inl hold
        | engine found hanswer horigin => exact .inl hold
        | again found imports hfound himports hmet => exact .inl hold
        | fresh found imports fetched hfound himports hnew hfetch =>
          rcases List.mem_append.1 hold with hold | hold
          · exact .inl hold
          · rw [List.mem_singleton.1 hold]
            exact .inr ⟨specifier, List.mem_cons_self, found, hfound, hfetch⟩
      · exact .inr ⟨other, List.mem_cons_of_mem _ hother, hfound⟩

variable {roots : List String}

theorem meets_of_addRoots (entries forced : List String) (rooted rooted' : Rooted)
    (hentries : addRoots resolver disk .entry ⟨[], [], [], []⟩ entries = .ok rooted)
    (hforced : addRoots resolver disk .forced rooted forced = .ok rooted') :
    ∀ m ∈ rooted'.found, Meets disk resolver (entries ++ forced) m := by
  have hfirst := Discovered.start.roots .entry _ rooted entries hentries
  have hboth := hfirst.roots .forced rooted rooted' forced hforced
  have hqueries : [] ++ rootQueries entries ++ rootQueries forced =
      rootQueries (entries ++ forced) := by
    simp [rootQueries]
  rw [hqueries] at hboth
  intro m hm
  obtain ⟨query, hquery, found, hfound, _, hfetch⟩ := hboth.exists_query m hm
  exact .root query found m hquery hfound hfetch

/-- The walk fails at an import of a module that it came upon. -/
theorem breaks_of_explore (done pending : List GraphModule) (engine : List String)
    (unresolved : List UnresolvedImport) (e : LoadError)
    (hpending : ∀ m ∈ pending, Meets disk resolver roots m)
    (h : explore resolver disk done pending engine unresolved = .error e) :
    ∃ m, Meets disk resolver roots m ∧ ∃ query ∈ m.queries, Breaks disk resolver query e := by
  fun_induction explore resolver disk done pending engine unresolved with
  | case1 done engine unresolved => cases h
  | case2 done engine unresolved m pending e' hscan =>
    obtain rfl := Except.error.inj h
    obtain ⟨specifier, hspecifier, hbreaks⟩ := breaks_of_scanImports _ _ _ _ e' hscan
    exact ⟨m, hpending m List.mem_cons_self, _, List.mem_map_of_mem hspecifier, hbreaks⟩
  | case3 done engine unresolved m pending scanned hscan ih =>
    refine ih (fun other hother => ?_) h
    rcases List.mem_append.1 hother with hold | hfresh
    · exact hpending other (List.mem_cons_of_mem _ hold)
    · rcases query_of_fresh _ _ _ _ _ hscan other hfresh with
        hnone | ⟨specifier, hspecifier, found, hfound, hfetch⟩
      · cases hnone
      · exact .imported m _ found other (hpending m List.mem_cons_self)
          (List.mem_map_of_mem hspecifier) hfound hfetch

end Imports

/-- On a disk without files that cannot be read, roots are taken that resolve. -/
theorem takesAll_of_sound (disk : Disk) (resolver : Resolver)
    (hsound : ∀ path, disk.refusal? path = none) (roots : List String) :
    disk.TakesAll resolver roots ↔ ∀ root ∈ roots, ∃ found loaded,
      resolver.resolve disk.files root .workingDirectory = .ok found ∧
        found.read disk.files = .ok loaded := by
  constructor
  · intro h root hroot
    obtain ⟨before, after, hsplit⟩ := List.append_of_mem hroot
    obtain ⟨found, hfound, _⟩ := h before root after hsplit
    obtain ⟨loaded, hloaded⟩ :=
      Query.read_of_answer ⟨root, .workingDirectory⟩ found hfound
    exact ⟨found, loaded, hfound, hloaded⟩
  · rintro h before root after rfl
    obtain ⟨found, loaded, hfound, hloaded⟩ := h root (by simp)
    exact ⟨found, hfound, .inr ⟨loaded, (read_of_sound hsound found).trans hloaded⟩⟩

end Disk

namespace Graph

open Disk

section Outcome

variable {disk : Disk} {resolver : Resolver} {entries forced : List String}

/-- Discovery fails at a root that cannot be taken, or at an import that ends it. -/
theorem ofRoots_error_cases (e : LoadError)
    (h : ofRoots resolver disk entries forced = .error e) :
    (∃ before root after, entries ++ forced = before ++ root :: after ∧
        disk.TakesAll resolver before ∧ disk.Fails resolver before root e) ∨
      disk.TakesAll resolver (entries ++ forced) ∧
        ∃ m, Meets disk resolver (entries ++ forced) m ∧
          ∃ query ∈ m.queries, Breaks disk resolver query e := by
  rcases roots_cases disk resolver entries forced with
    ⟨rooted, rooted', hentries, hforced, htakes⟩ |
    ⟨e', before, root, after, herror, hsplit, htakes, hfails⟩
  · simp only [ofRoots, hentries, hforced] at h
    split at h
    · next e' hexplore =>
      obtain rfl := Except.error.inj h
      have hmeets := meets_of_addRoots entries forced rooted rooted' hentries hforced
      exact .inr ⟨htakes, breaks_of_explore _ _ _ _ e' hmeets hexplore⟩
    · cases h
  · obtain rfl := Except.error.inj (herror.symm.trans h)
    exact .inl ⟨before, root, after, hsplit, htakes, hfails⟩

theorem ofRoots_of_fails (before after : List String) (root : String) (e : LoadError)
    (hsplit : entries ++ forced = before ++ root :: after)
    (htakes : disk.TakesAll resolver before) (hfails : disk.Fails resolver before root e) :
    ofRoots resolver disk entries forced = .error e := by
  rcases roots_cases disk resolver entries forced with
    ⟨_, _, _, _, hall⟩ | ⟨e', front, other, rest, herror, hother, hfront, hothers⟩
  · exact absurd (hall before root after hsplit) hfails.not_takes
  · have hsame : front = before ∧ other = root := by
      rcases List.append_eq_append_iff.1 (hother.symm.trans hsplit) with
        ⟨between, hbefore, hrest⟩ | ⟨between, hfrontSplit, hrest⟩
      · cases between with
        | nil => simp_all
        | cons first between =>
          obtain ⟨rfl, rfl⟩ := List.cons.inj hrest
          exact absurd (htakes front other between hbefore) hothers.not_takes
      · cases between with
        | nil => simp_all
        | cons first between =>
          obtain ⟨rfl, rfl⟩ := List.cons.inj hrest
          exact absurd (hfront before root between hfrontSplit) hfails.not_takes
    obtain ⟨rfl, rfl⟩ := hsame
    rw [herror, hothers.unique hfails]

/-- The errors of discovery. -/
theorem ofRoots_error_kinds (e : LoadError)
    (h : ofRoots resolver disk entries forced = .error e) :
    (∃ before root after, entries ++ forced = before ++ root :: after ∧
        disk.TakesAll resolver before ∧
        resolver.resolve disk.files root .workingDirectory = .error (.notFound root) ∧
        e = .notEmbeddable root) ∨
      e.OfCandidate ∨ ∃ path cause, e = .unreadable path cause := by
  rcases ofRoots_error_cases e h with ⟨before, root, after, hsplit, htakes, hfails⟩ |
    ⟨_, _, _, query, _, hbreaks⟩
  · cases hfails with
    | missing hnone => exact .inl ⟨before, root, after, hsplit, htakes, hnone, rfl⟩
    | broken e hbreaks hnew => exact .inr hbreaks.ofCandidate_or_unreadable
  · exact .inr hbreaks.ofCandidate_or_unreadable

theorem ofRoots_ne_notFound (name : String) :
    ofRoots resolver disk entries forced ≠ .error (.notFound name) := by
  intro h
  rcases ofRoots_error_kinds _ h with ⟨_, _, _, _, _, _, hother⟩ | hother | ⟨_, _, hother⟩ <;>
    cases hother

theorem ofRoots_ne_rejectedSource (key : String) (fault : Utf8.Fault) :
    ofRoots resolver disk entries forced ≠ .error (.rejectedSource key fault) := by
  intro h
  rcases ofRoots_error_kinds _ h with ⟨_, _, _, _, _, _, hother⟩ | hother | ⟨_, _, hother⟩ <;>
    cases hother

theorem ofRoots_eq_notEmbeddable_iff (root : String) :
    ofRoots resolver disk entries forced = .error (.notEmbeddable root) ↔
      ∃ before after, entries ++ forced = before ++ root :: after ∧
        disk.TakesAll resolver before ∧
        resolver.resolve disk.files root .workingDirectory = .error (.notFound root) := by
  constructor
  · intro h
    rcases ofRoots_error_kinds _ h with
      ⟨before, other, after, hsplit, htakes, hnone, heq⟩ | hother | ⟨_, _, hother⟩
    · obtain rfl := LoadError.notEmbeddable.inj heq
      exact ⟨before, after, hsplit, htakes, hnone⟩
    · cases hother
    · cases hother
  · rintro ⟨before, after, hsplit, htakes, hnone⟩
    exact ofRoots_of_fails before after root _ hsplit htakes (.missing hnone)

/-- Once all roots resolve, discovery fails for a candidate or for a file. -/
theorem breaks_of_ofRoots (e : LoadError)
    (h : ofRoots resolver disk entries forced = .error e)
    (hroots : ∀ root ∈ entries ++ forced, ∃ found,
      resolver.resolve disk.files root .workingDirectory = .ok found) :
    ∃ query, (query ∈ rootQueries (entries ++ forced) ∨
        ∃ m, Meets disk resolver (entries ++ forced) m ∧ query ∈ m.queries) ∧
      Breaks disk resolver query e := by
  rcases ofRoots_error_cases e h with ⟨before, root, after, hsplit, _, hfails⟩ |
    ⟨_, m, hmeets, query, hquery, hbreaks⟩
  · have hroot : root ∈ entries ++ forced := by simp [hsplit]
    cases hfails with
    | missing hnone =>
      obtain ⟨found, hfound⟩ := hroots root hroot
      cases hfound.symm.trans hnone
    | broken e hbreaks hnew => exact ⟨_, .inl (List.mem_map_of_mem hroot), hbreaks⟩
  · exact ⟨query, .inr ⟨m, hmeets, hquery⟩, hbreaks⟩

theorem ascending_of_ofRoots (graph : Graph)
    (h : ofRoots resolver disk entries forced = .ok graph) :
    Ascending GraphModule.key graph.modules := by
  obtain ⟨_, _, explored, _, _, _, _, rfl⟩ := stages_of_ofRoots graph h
  exact ascending_foldl_insertByKey GraphModule.key explored.modules [] (by simp [Ascending])

end Outcome

theorem compileModules_eq_ok_iff (modules : List GraphModule) (embedded : List EmbeddedModule) :
    compileModules modules = .ok embedded ↔
      (∀ m ∈ modules, ∃ text, Utf8.decode m.source = .ok text) ∧
        embedded = modules.map GraphModule.embedded := by
  constructor
  · intro h
    refine ⟨?_, compileModules_ok modules embedded h⟩
    induction modules generalizing embedded with
    | nil => simp
    | cons m rest ih =>
      rw [compileModules, compile] at h
      split at h
      · cases h
      · next code hcode =>
        split at h
        · cases h
        · next others hothers =>
          refine List.forall_mem_cons.2 ⟨?_, ih others hothers⟩
          split at hcode
          · next text htext => exact ⟨text, htext⟩
          · cases hcode
  · rintro ⟨htext, rfl⟩
    exact compileModules_of_text modules htext

/-- The first module that is no text is reported. -/
theorem compileModules_eq_error (modules : List GraphModule) (e : LoadError)
    (h : compileModules modules = .error e) :
    ∃ before m after fault, modules = before ++ m :: after ∧
      (∀ other ∈ before, ∃ text, Utf8.decode other.source = .ok text) ∧
      Utf8.decode m.source = .error fault ∧ e = .rejectedSource m.key fault := by
  induction modules with
  | nil => cases h
  | cons m rest ih =>
    rw [compileModules, compile] at h
    cases hdecode : Utf8.decode m.source with
    | error fault =>
      simp only [hdecode] at h
      exact ⟨[], m, rest, fault, rfl, by simp, hdecode, (Except.error.inj h).symm⟩
    | ok text =>
      simp only [hdecode] at h
      split at h
      · next e' hrest =>
        obtain rfl := Except.error.inj h
        obtain ⟨before, other, after, fault, rfl, hbefore, hfault⟩ := ih hrest
        exact ⟨m :: before, other, after, fault, rfl,
          List.forall_mem_cons.2 ⟨⟨text, hdecode⟩, hbefore⟩, hfault⟩
      · cases h

variable (graph : Graph)

theorem toTable_eq_error (hascending : Ascending GraphModule.key graph.modules) (e : LoadError)
    (h : graph.toTable = .error e) :
    ∃ m ∈ graph.modules, ∃ fault, Utf8.decode m.source = .error fault ∧
      e = .rejectedSource m.key fault ∧
      ∀ other ∈ graph.modules, other ≠ m →
        (∃ fault, Utf8.decode other.source = .error fault) →
          Utf8.encode m.key < Utf8.encode other.key := by
  rw [toTable] at h
  split at h
  · next e' hcompile =>
    obtain rfl := Except.error.inj h
    obtain ⟨before, m, after, fault, hsplit, hbefore, hfault, he⟩ :=
      compileModules_eq_error graph.modules e' hcompile
    refine ⟨m, by simp [hsplit], fault, hfault, he, ?_⟩
    rintro other hother hne ⟨fault', hfault'⟩
    rw [hsplit] at hascending hother
    rcases List.mem_append.1 hother with hother | hother
    · obtain ⟨text, htext⟩ := hbefore other hother
      rw [hfault'] at htext
      cases htext
    · have hlater := (List.mem_cons.1 hother).resolve_left hne
      have hkeys := (List.pairwise_append.1 hascending).2.1
      exact (Utf8.encode_lt_encode_iff _ _).2 (List.rel_of_pairwise_cons hkeys hlater)
  · cases h

theorem toTable_eq_ok_iff (hascending : Ascending GraphModule.key graph.modules) (table : Table) :
    graph.toTable = .ok table ↔
      (∀ m ∈ graph.modules, ∃ text, Utf8.decode m.source = .ok text) ∧
        table.modules = graph.modules.map GraphModule.embedded ∧
        table.entries = distinct graph.entries := by
  have hembedded : Ascending EmbeddedModule.key (graph.modules.map GraphModule.embedded) :=
    List.pairwise_map.2 hascending
  have hform : ∀ packed : Table, packed = graph.entries.foldl Table.addEntry
      ((graph.modules.map GraphModule.embedded).foldl Table.insert .empty) →
      packed.modules = graph.modules.map GraphModule.embedded ∧
        packed.entries = distinct graph.entries := by
    rintro packed rfl
    constructor
    · rw [Table.modules_foldl_addEntry, Table.modules_foldl_insert]
      exact foldl_insertByKey_ascending EmbeddedModule.key _ [] hembedded
    · rw [Table.entries_foldl_addEntry, Table.entries_foldl_insert]
      simp [Table.empty]
  rw [toTable]
  constructor
  · intro h
    split at h
    · cases h
    · next embedded hcompile =>
      obtain ⟨htext, rfl⟩ := (compileModules_eq_ok_iff graph.modules embedded).1 hcompile
      exact ⟨htext, hform table (Except.ok.inj h).symm⟩
  · rintro ⟨htext, hmodules, hentries⟩
    rw [compileModules_of_text graph.modules htext]
    obtain ⟨hmodules', hentries'⟩ := hform _ rfl
    exact congrArg Except.ok
      (Table.eq_of_parts (hentries'.trans hentries.symm) (hmodules'.trans hmodules.symm))

end Graph

namespace Table

variable {disk : Disk} {resolver : Resolver} {entries forced : List String}

theorem build_eq_ok_iff (table : Table) :
    Table.build resolver disk entries forced = .ok table ↔
      ∃ graph, ofRoots resolver disk entries forced = .ok graph ∧
        (∀ m ∈ graph.modules, ∃ text, Utf8.decode m.source = .ok text) ∧
        table.modules = graph.modules.map GraphModule.embedded ∧
        table.entries = distinct graph.entries := by
  rw [Table.build]
  cases hgraph : ofRoots resolver disk entries forced with
  | error e => simp
  | ok graph => simp [toTable_eq_ok_iff graph (ascending_of_ofRoots graph hgraph)]

theorem exists_of_build_eq_rejectedSource (key : String) (fault : Utf8.Fault)
    (h : Table.build resolver disk entries forced = .error (.rejectedSource key fault)) :
    ∃ graph, ofRoots resolver disk entries forced = .ok graph ∧
      ∃ m ∈ graph.modules, m.key = key ∧ Utf8.decode m.source = .error fault ∧
        ∀ other ∈ graph.modules, other ≠ m →
          (∃ fault, Utf8.decode other.source = .error fault) →
            Utf8.encode key < Utf8.encode other.key := by
  rw [Table.build] at h
  split at h
  · next e hgraph =>
    obtain rfl := Except.error.inj h
    exact absurd hgraph (ofRoots_ne_rejectedSource key fault)
  · next graph hgraph =>
    obtain ⟨m, hm, fault', hfault, heq, hleast⟩ :=
      toTable_eq_error graph (ascending_of_ofRoots graph hgraph) _ h
    obtain ⟨rfl, rfl⟩ := LoadError.rejectedSource.inj heq
    exact ⟨graph, hgraph, m, hm, rfl, hfault, hleast⟩

theorem exists_rejectedSource_iff :
    (∃ key fault, Table.build resolver disk entries forced = .error (.rejectedSource key fault)) ↔
      ∃ graph, ofRoots resolver disk entries forced = .ok graph ∧
        ∃ m ∈ graph.modules, ∃ fault, Utf8.decode m.source = .error fault := by
  constructor
  · rintro ⟨key, fault, h⟩
    obtain ⟨graph, hgraph, m, hm, _, hfault, _⟩ := exists_of_build_eq_rejectedSource key fault h
    exact ⟨graph, hgraph, m, hm, fault, hfault⟩
  · rintro ⟨graph, hgraph, m, hm, fault, hfault⟩
    have hascending := ascending_of_ofRoots graph hgraph
    rw [Table.build, hgraph]
    cases htable : graph.toTable with
    | error e =>
      obtain ⟨first, _, fault', _, rfl, _⟩ := toTable_eq_error graph hascending e htable
      exact ⟨first.key, fault', htable⟩
    | ok table =>
      obtain ⟨text, htext⟩ := ((toTable_eq_ok_iff graph hascending table).1 htable).1 m hm
      rw [hfault] at htext
      cases htext

end Table

/-- Which builds fail, and how. Discovery never fails with a specifier that was not found; it
fails with one that cannot be embedded exactly if that is a root, entries before forced ones,
that leads nowhere after roots that could all be taken. Once the roots resolve, it fails only
where a candidate cannot be built or a file cannot be read. A build whose graph has modules
that are no text fails at the first of them by the bytes of the keys. Otherwise its table holds
the modules of the graph as they are, but for their search roots, and the keys of its entries,
each once. -/
theorem build_failures (resolver : Resolver) (disk : Disk) (entries forced : List String) :
    ((∀ path, disk.refusal? path = none) →
      Graph.ofRoots resolver disk entries forced =
          Graph.ofRoots resolver disk.files entries forced ∧
        Table.build resolver disk entries forced =
          Table.build resolver disk.files entries forced ∧
        ∀ roots, disk.TakesAll resolver roots ↔ ∀ root ∈ roots, ∃ found loaded,
          resolver.resolve disk.files root .workingDirectory = .ok found ∧
            found.read disk.files = .ok loaded) ∧
    (∀ name, Graph.ofRoots resolver disk entries forced ≠ .error (.notFound name)) ∧
    (∀ root, Graph.ofRoots resolver disk entries forced = .error (.notEmbeddable root) ↔
      ∃ before after, entries ++ forced = before ++ root :: after ∧
        disk.TakesAll resolver before ∧
        resolver.resolve disk.files root .workingDirectory = .error (.notFound root)) ∧
    (∀ e, Graph.ofRoots resolver disk entries forced = .error e →
      (∀ root ∈ entries ++ forced, ∃ found,
        resolver.resolve disk.files root .workingDirectory = .ok found) →
      ∃ query, (query ∈ Graph.rootQueries (entries ++ forced) ∨
          ∃ m, disk.Meets resolver (entries ++ forced) m ∧ query ∈ m.queries) ∧
        disk.Breaks resolver query e) ∧
    ((∃ key fault, Table.build resolver disk entries forced = .error (.rejectedSource key fault)) ↔
      ∃ graph, Graph.ofRoots resolver disk entries forced = .ok graph ∧
        ∃ m ∈ graph.modules, ∃ fault, Utf8.decode m.source = .error fault) ∧
    (∀ key fault, Table.build resolver disk entries forced = .error (.rejectedSource key fault) →
      ∃ graph, Graph.ofRoots resolver disk entries forced = .ok graph ∧
        ∃ m ∈ graph.modules, m.key = key ∧ Utf8.decode m.source = .error fault ∧
          ∀ other ∈ graph.modules, other ≠ m →
            (∃ fault, Utf8.decode other.source = .error fault) →
              Utf8.encode key < Utf8.encode other.key) ∧
    ∀ table, Table.build resolver disk entries forced = .ok table ↔
      ∃ graph, Graph.ofRoots resolver disk entries forced = .ok graph ∧
        (∀ m ∈ graph.modules, ∃ text, Utf8.decode m.source = .ok text) ∧
        (table.modules = graph.modules.map fun m =>
          ⟨m.identity.key, m.identity.dirname, m.identity.space, m.source⟩) ∧
        table.entries = distinct graph.entries := by
  refine ⟨?_, ?_, ?_, ?_, ?_, ?_, ?_⟩
  · intro hsound
    have hfiles := Disk.eq_ofFiles hsound
    exact ⟨congrArg (ofRoots resolver · entries forced) hfiles,
      congrArg (Table.build resolver · entries forced) hfiles,
      Disk.takesAll_of_sound disk resolver hsound⟩
  · exact Graph.ofRoots_ne_notFound
  · exact Graph.ofRoots_eq_notEmbeddable_iff
  · exact Graph.breaks_of_ofRoots
  · exact Table.exists_rejectedSource_iff
  · exact Table.exists_of_build_eq_rejectedSource
  · exact Table.build_eq_ok_iff

/-- A file that cannot be read ends discovery before a root that leads nowhere. -/
example : ofRoots SampleProgram.resolver
    ⟨SampleProgram.files, fun _ => some (.other "Input/output error")⟩ ["./main"] ["ghost"] =
      .error (.unreadable "./main.js" (.other "Input/output error")) := by
  rfl

end ModuleLoading
