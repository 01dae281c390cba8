import ModuleLoading.Proofs.EvaluationOrder
import ModuleLoading.Proofs.SharedKeys
import ModuleLoading.Proofs.StaticClosure

/-!
Discovery and linking come to the same modules. Discovery scans them breadth first and
only notes what the engine supplies; linking goes depth first and links that too. Both
ask the same queries as long as no key stands for two answers: what a query loads is the
module that discovery has under its key, with the same static imports. Each import of a
linked module is linked, so the linked keys are those that the roots lead to.
-/
namespace ModuleLoading

/-- No key stands for two answers, wherever and however they are asked for. -/
def Resolver.KeysDetermine (resolver : Resolver) (files : FileView) : Prop :=
  ∀ base base' raw raw' found found', resolver.Reached files base →
    resolver.Reached files base' → resolver.resolve files raw base = .ok found →
    resolver.resolve files raw' base' = .ok found' →
    found.identity.key = found'.identity.key → found = found'

/-- Without search roots an answer is read off its key, as long as the engine's names
are no paths. -/
theorem Resolver.keysDetermine_of_no_roots (resolver : Resolver) (files : FileView)
    (hempty : resolver.table = .empty) (hroots : resolver.settings.searchPath.roots = [])
    (hnames : ∀ entry ∈ resolver.builtins.modules, Specifier.classify entry.1 = .bare) :
    resolver.KeysDetermine files := by
  have hcases : ∀ base raw found, resolver.Reached files base →
      resolver.resolve files raw base = .ok found →
      (Specifier.classify found.identity.key ≠ .bare ∧
        resolver.atPath files found.identity.key = .ok (some found)) ∨
      (Specifier.classify found.identity.key = .bare ∧
        resolver.fromEngine found.identity.key = .ok found) := by
    intro base raw found hbase hresolve
    rcases resolver.finds_or_engine files raw base hempty found hresolve with
      hfinds | ⟨_, hengine⟩
    · rcases hfinds.underRoots_or_atPath (hbase.placed hempty) with
        ⟨_, order, roots, hsubset, hunder⟩ | ⟨hkey, hpath⟩
      · obtain ⟨root, hroot, _⟩ := resolver.underRoots_eq_some files _ order roots found hunder
        have hmem := hsubset root hroot
        rw [hroots] at hmem
        cases hmem
      · obtain ⟨path, _, hkey⟩ := hkey
        have hkind : Specifier.classify found.identity.key ≠ .bare := by
          rw [← hkey, Namespace.keyOf, Key.classify_ofPath]
          split
          · decide
          · decide
        exact .inl ⟨hkind, hpath⟩
    · obtain ⟨code, hsource, rfl⟩ := (resolver.fromEngine_eq_ok_iff raw found).1 hengine
      obtain ⟨entry, hentry, _⟩ := Option.map_eq_some_iff.1 hsource
      have hname : entry.1 = raw := by simpa using List.find?_some hentry
      have hbare := hnames entry (List.mem_of_find?_eq_some hentry)
      rw [hname] at hbare
      exact .inr ⟨hbare, hengine⟩
  intro base base' raw raw' found found' hbase hbase' hresolve hresolve' hkey
  rcases hcases base raw found hbase hresolve with ⟨hpath, h⟩ | ⟨hbare, h⟩
  · rcases hcases base' raw' found' hbase' hresolve' with ⟨_, h'⟩ | ⟨hbare', _⟩
    · rw [← hkey, h] at h'
      exact Option.some.inj (Except.ok.inj h')
    · exact absurd (hkey ▸ hbare') hpath
  · rcases hcases base' raw' found' hbase' hresolve' with ⟨hpath', _⟩ | ⟨_, h'⟩
    · exact absurd (hkey ▸ hbare) hpath'
    · rw [← hkey, h] at h'
      exact Except.ok.inj h'

/-- No module of the engine imports anything statically. -/
def Builtins.ImportNothing (builtins : Builtins) : Prop :=
  ∀ entry ∈ builtins.modules, (Source.outline (Utf8.lossy entry.2)).staticSpecifiers = []

namespace Linker

theorem Answers.exists_of_mem {resolver : Resolver} {files : FileView}
    {referrer : Option Identity} {specifiers keys : List String}
    (h : Answers resolver files referrer specifiers keys) (specifier : String)
    (hmem : specifier ∈ specifiers) :
    ∃ loaded, resolver.load files specifier referrer = .ok loaded ∧ loaded.identity.key ∈ keys := by
  induction h with
  | nil => cases hmem
  | cons hfirst _ ih =>
    obtain ⟨loaded, hload, rfl⟩ := hfirst
    rcases List.mem_cons.1 hmem with rfl | hmem
    · exact ⟨loaded, hload, List.mem_cons_self⟩
    · obtain ⟨later, hlater, hkey⟩ := ih hmem
      exact ⟨later, hlater, List.mem_cons_of_mem _ hkey⟩

/-- On a linker that was fresh, the imports of every linked module are linked. -/
theorem Links.mem_keys_of_import {resolver : Resolver} {files : FileView}
    {referrer : Option Identity} {specifiers keys : List String} {after : Linker}
    (h : Links resolver files .empty referrer specifiers keys after) (m : LinkedModule)
    (hm : m ∈ after.modules) (imported : String) (himported : imported ∈ m.imports) :
    imported ∈ after.keys := by
  obtain ⟨i, hi⟩ := List.getElem?_of_mem hm
  rcases (h.ordered .empty).settled i m (Nat.zero_le i) hi imported himported with
    hprogress | ⟨j, n, hn, rfl, _⟩
  · cases hprogress
  · exact List.mem_map_of_mem (List.mem_of_getElem? hn)

/-- On a linker that was fresh, whatever was answered is linked. -/
theorem Links.mem_keys {resolver : Resolver} {files : FileView} {referrer : Option Identity}
    {specifiers keys : List String} {after : Linker}
    (h : Links resolver files .empty referrer specifiers keys after) (key : String)
    (hkey : key ∈ keys) : key ∈ after.keys := by
  have hseen := h.mem_seen key hkey
  have hidle : after.inProgress = [] := h.inProgress_eq
  rw [Linker.seen, hidle, List.append_nil] at hseen
  exact ((h.consistent .empty).mem_indexed_iff_mem_keys key).1 hseen

end Linker

namespace Graph

open Linker (Links Fails Answers Closed linkedModule)

/-- A program of which discovery misses nothing, and whose keys tell its modules apart. -/
structure Whole (resolver : Resolver) (files : FileView) (entries : List String)
    (graph : Graph) : Prop where
  table_empty : resolver.table = .empty
  standalone : resolver.builtins.ImportNothing
  keysDetermine : resolver.KeysDetermine files
  graph_eq : ofRoots resolver files entries [] = .ok graph
  resolved : graph.unresolved = []

namespace Whole

variable {resolver : Resolver} {files : FileView} {entries : List String} {graph : Graph}
variable {query : Query} {found : Resolved}

theorem reached (h : Whole resolver files entries graph)
    (hquery : query ∈ asked resolver files entries []) : resolver.Reached files query.base :=
  (discovered_of_ofRoots graph h.graph_eq).reached query hquery

theorem answered (h : Whole resolver files entries graph)
    (hquery : query ∈ asked resolver files entries []) :
    ∃ found, query.answer resolver files = .ok found := by
  cases hanswer : query.answer resolver files with
  | ok found => exact ⟨found, rfl⟩
  | error e =>
    have hnoted := (discovered_of_ofRoots graph h.graph_eq).error_noted query hquery e hanswer
    exact absurd h.resolved hnoted

/-- What the engine supplies imports nothing. -/
theorem read_of_engine (h : Whole resolver files entries graph)
    (hquery : query ∈ asked resolver files entries [])
    (hanswer : query.answer resolver files = .ok found)
    (horigin : found.content.origin = .engine) :
    ∃ loaded, found.read files = .ok loaded ∧
      (Source.outline loaded.text).staticSpecifiers = [] := by
  rcases resolver.finds_or_engine files _ _ h.table_empty found hanswer with
    hfinds | ⟨_, hengine⟩
  · have hfile := hfinds.origin ((h.reached hquery).placed h.table_empty)
    rw [horigin] at hfile
    cases hfile
  · obtain ⟨code, hsource, rfl⟩ := (resolver.fromEngine_eq_ok_iff _ found).1 hengine
    obtain ⟨entry, hentry, rfl⟩ := Option.map_eq_some_iff.1 hsource
    exact ⟨_, rfl, h.standalone entry (List.mem_of_find?_eq_some hentry)⟩

/-- An answer with the key of a module is that module. -/
theorem read_of_key (h : Whole resolver files entries graph)
    (hquery : query ∈ asked resolver files entries [])
    (hanswer : query.answer resolver files = .ok found) (m : GraphModule)
    (hm : m ∈ graph.modules) (hkey : found.identity.key = m.key) :
    found.content.origin ≠ .engine ∧ ∃ loaded, found.read files = .ok loaded ∧
      m.identity = loaded.identity ∧ m.source = loaded.code := by
  obtain ⟨other, hother, first, hfirst, hfirstKey, hfetch⟩ :=
    (discovered_of_ofRoots graph h.graph_eq).exists_query m.bare (List.mem_map_of_mem hm)
  obtain ⟨hotherAnswer, horigin⟩ := (other.found?_eq_some_iff resolver files first).1 hfirst
  have hsame : found = first :=
    h.keysDetermine _ _ _ _ found first (h.reached hquery) (h.reached hother) hanswer
      hotherAnswer (hkey.trans hfirstKey.symm)
  rw [hsame]
  exact ⟨horigin, read_of_fetch files first m.bare hfetch⟩

theorem exists_module (h : Whole resolver files entries graph)
    (hquery : query ∈ asked resolver files entries [])
    (hanswer : query.answer resolver files = .ok found)
    (horigin : found.content.origin ≠ .engine) :
    ∃ m ∈ graph.modules, found.identity.key = m.key := by
  have hfound := (query.found?_eq_some_iff resolver files found).2 ⟨hanswer, horigin⟩
  have hkey : query.foundKey? resolver files = some found.identity.key := by
    rw [Query.foundKey?, hfound]
    rfl
  obtain ⟨m, hm, hsame⟩ := List.mem_map.1 (mem_keys_of_asked h.graph_eq query hquery _ hkey)
  exact ⟨m, hm, hsame.symm⟩

/-- A key is noted for the engine exactly if the engine supplies its module. -/
theorem mem_engineModules_iff (h : Whole resolver files entries graph)
    (hquery : query ∈ asked resolver files entries [])
    (hanswer : query.answer resolver files = .ok found) :
    found.identity.key ∈ graph.engineModules ↔ found.content.origin = .engine := by
  have hasked := mem_asked_iff graph h.graph_eq
  rw [(walked_of_ofRoots h.graph_eq).engine_iff]
  constructor
  · intro hnoted
    obtain ⟨other, answer, hother, hotherAnswer, horigin, hkey⟩ := hnoted
    have hsame : answer = found :=
      h.keysDetermine _ _ _ _ answer found (h.reached ((hasked other).2 hother))
        (h.reached hquery) hotherAnswer hanswer hkey
    exact hsame ▸ horigin
  · intro horigin
    exact ⟨query, found, (hasked query).1 hquery, hanswer, horigin, rfl⟩

/-- Whatever discovery asks can be loaded. -/
theorem load (h : Whole resolver files entries graph) (specifier : String)
    (referrer : Option Identity)
    (hquery : ⟨specifier, baseOf referrer⟩ ∈ asked resolver files entries []) :
    ∃ loaded, resolver.load files specifier referrer = .ok loaded := by
  obtain ⟨found, hanswer⟩ := h.answered hquery
  have hread : ∃ loaded, found.read files = .ok loaded := by
    by_cases horigin : found.content.origin = .engine
    · obtain ⟨loaded, hread, _⟩ := h.read_of_engine hquery hanswer horigin
      exact ⟨loaded, hread⟩
    · obtain ⟨m, hm, hkey⟩ := h.exists_module hquery hanswer horigin
      obtain ⟨_, loaded, hread, _⟩ := h.read_of_key hquery hanswer m hm hkey
      exact ⟨loaded, hread⟩
  obtain ⟨loaded, hread⟩ := hread
  exact ⟨loaded, (resolver.load_eq_ok_iff files specifier referrer loaded).2
    ⟨found, hanswer, hread⟩⟩

/-- Discovery asks for the static imports of whatever it asks for. -/
theorem closed (h : Whole resolver files entries graph) :
    Closed resolver files fun specifier referrer =>
      ⟨specifier, baseOf referrer⟩ ∈ asked resolver files entries [] := by
  intro specifier referrer loaded hquery hload imported himported
  obtain ⟨found, hanswer, hread⟩ := (resolver.load_eq_ok_iff files _ _ loaded).1 hload
  by_cases horigin : found.content.origin = .engine
  · obtain ⟨other, hother, hnone⟩ := h.read_of_engine hquery hanswer horigin
    obtain rfl : other = loaded := Except.ok.inj (hother.symm.trans hread)
    rw [hnone] at himported
    cases himported
  · obtain ⟨m, hm, hkey⟩ := h.exists_module hquery hanswer horigin
    obtain ⟨_, other, hother, hidentity, hsource⟩ := h.read_of_key hquery hanswer m hm hkey
    obtain rfl : other = loaded := Except.ok.inj (hother.symm.trans hread)
    apply (mem_asked_iff graph h.graph_eq _).2
    refine .inr ⟨m, hm, ?_⟩
    rw [GraphModule.queries, staticSpecifiers, hsource, hidentity]
    exact List.mem_map_of_mem himported

/-- The answers that are not the engine's are the files that discovery found. -/
theorem filter_answers (h : Whole resolver files entries graph) (referrer : Option Identity)
    (specifiers keys : List String) (hanswers : Answers resolver files referrer specifiers keys)
    (hqueries : ∀ specifier ∈ specifiers,
      ⟨specifier, baseOf referrer⟩ ∈ asked resolver files entries []) :
    keys.filter (· ∉ graph.engineModules) =
      (specifiers.map fun specifier => (⟨specifier, baseOf referrer⟩ : Query)).filterMap
        (Query.foundKey? resolver files) := by
  induction hanswers with
  | nil => rfl
  | @cons specifier key specifiers keys hfirst _ ih =>
    obtain ⟨hquery, hqueries⟩ := List.forall_mem_cons.1 hqueries
    obtain ⟨loaded, hload, rfl⟩ := hfirst
    obtain ⟨found, hresolve, hread⟩ := (resolver.load_eq_ok_iff files _ _ loaded).1 hload
    have hanswer : Query.answer resolver files ⟨specifier, baseOf referrer⟩ = .ok found := hresolve
    have hnoted := h.mem_engineModules_iff hquery hanswer
    rw [identity_of_read hread, List.map_cons, List.filterMap_cons]
    by_cases horigin : found.content.origin = .engine
    · have hnone : Query.foundKey? resolver files ⟨specifier, baseOf referrer⟩ = none := by
        simp [Query.foundKey?, Query.found?, hanswer, horigin]
      rw [hnone, List.filter_cons_of_neg (by simpa using hnoted.2 horigin)]
      exact ih hqueries
    · have hsome : Query.foundKey? resolver files ⟨specifier, baseOf referrer⟩ =
          some found.identity.key := by
        simp [Query.foundKey?, Query.found?, hanswer, horigin]
      rw [hsome, List.filter_cons_of_pos (by simpa using fun hmem => horigin (hnoted.1 hmem))]
      exact congrArg _ (ih hqueries)

variable {keys : List String} {after : Linker}

theorem asked_entry (h : Whole resolver files entries graph) (entry : String)
    (hentry : entry ∈ entries) :
    ⟨entry, .workingDirectory⟩ ∈ asked resolver files entries [] := by
  apply (mem_asked_iff graph h.graph_eq _).2
  rw [List.append_nil]
  exact .inl (List.mem_map_of_mem hentry)

theorem exists_links (h : Whole resolver files entries graph) :
    ∃ keys after, Linker.empty.linkEntries resolver files entries = (.ok keys, after) ∧
      Links resolver files .empty none entries keys after := by
  have hends := Linker.ends_linkEntries resolver files .empty entries
  rcases hlink : Linker.empty.linkEntries resolver files entries with ⟨outcome, after⟩
  rw [hlink] at hends
  cases outcome with
  | ok keys => exact ⟨keys, after, rfl, hends⟩
  | error e =>
    obtain ⟨chain, hfails⟩ := hends
    obtain ⟨specifier, referrer, hquery, hunloaded⟩ :=
      hfails.exists_unloaded _ h.closed fun entry hentry => h.asked_entry entry hentry
    obtain ⟨loaded, hload⟩ := h.load specifier referrer hquery
    rw [hload] at hunloaded
    cases hunloaded

/-- Every linked module answers a query of discovery. -/
theorem exists_query (h : Whole resolver files entries graph)
    (hlinks : Links resolver files .empty none entries keys after) (n : LinkedModule)
    (hn : n ∈ after.modules) :
    ∃ query found loaded, query ∈ asked resolver files entries [] ∧
      query.answer resolver files = .ok found ∧ found.read files = .ok loaded ∧
      n.identity = loaded.identity ∧
      Answers resolver files (some loaded.identity) (Source.outline loaded.text).staticSpecifiers
        n.imports := by
  obtain ⟨added, hadded, hfrom⟩ := hlinks.exists_added_of_closed _ h.closed
    fun entry hentry => h.asked_entry entry hentry
  rw [hadded] at hn
  obtain ⟨specifier, referrer, loaded, hquery, hload, heq, hanswers⟩ := hfrom n hn
  obtain ⟨found, hanswer, hread⟩ := (resolver.load_eq_ok_iff files _ _ loaded).1 hload
  have hidentity : n.identity = loaded.identity := by
    rw [heq]
    rfl
  exact ⟨_, found, loaded, hquery, hanswer, hread, hidentity, hidentity ▸ hanswers⟩

theorem key_of_linked (h : Whole resolver files entries graph)
    (hlinks : Links resolver files .empty none entries keys after) (key : String)
    (hkey : key ∈ after.keys) : key ∈ graph.keys ∨ key ∈ graph.engineModules := by
  obtain ⟨n, hn, rfl⟩ := List.mem_map.1 hkey
  obtain ⟨query, found, loaded, hquery, hanswer, hread, hidentity, _⟩ :=
    h.exists_query hlinks n hn
  rw [hidentity, identity_of_read hread]
  by_cases horigin : found.content.origin = .engine
  · exact .inr ((h.mem_engineModules_iff hquery hanswer).2 horigin)
  · obtain ⟨m, hm, hsame⟩ := h.exists_module hquery hanswer horigin
    exact .inl (hsame ▸ List.mem_map_of_mem hm)

/-- A linked module and the module of the graph with its key are the same. -/
theorem mirrors (h : Whole resolver files entries graph)
    (hlinks : Links resolver files .empty none entries keys after) (m : GraphModule)
    (hm : m ∈ graph.modules) (n : LinkedModule) (hn : n ∈ after.modules)
    (hkey : n.identity.key = m.key) :
    n.identity = m.identity ∧
      Answers resolver files (some m.identity) (staticSpecifiers m) n.imports := by
  obtain ⟨query, found, loaded, hquery, hanswer, hread, hidentity, hanswers⟩ :=
    h.exists_query hlinks n hn
  have hfound : found.identity.key = m.key := by
    rw [← identity_of_read hread, ← hidentity, hkey]
  obtain ⟨_, other, hother, hsame, hsource⟩ := h.read_of_key hquery hanswer m hm hfound
  obtain rfl : other = loaded := Except.ok.inj (hother.symm.trans hread)
  rw [staticSpecifiers, hsource, hsame]
  exact ⟨hidentity, hanswers⟩

/-- What an entry or a linked module asks for is linked. -/
theorem linked_of_answer (h : Whole resolver files entries graph)
    (hlinks : Links resolver files .empty none entries keys after)
    (hquery : query ∈ rootQueries entries ∨
      ∃ m ∈ graph.modules, m.key ∈ after.keys ∧ query ∈ m.queries)
    (hanswer : query.answer resolver files = .ok found) : found.identity.key ∈ after.keys := by
  have hkey : ∀ specifier referrer loaded,
      Query.answer resolver files ⟨specifier, baseOf referrer⟩ = .ok found →
      resolver.load files specifier referrer = .ok loaded →
      loaded.identity.key = found.identity.key := by
    intro specifier referrer loaded hanswer hload
    obtain ⟨other, hother, hread⟩ := (resolver.load_eq_ok_iff files _ _ loaded).1 hload
    obtain rfl : other = found := Except.ok.inj (hother.symm.trans hanswer)
    rw [identity_of_read hread]
  rcases hquery with hroot | ⟨m, hm, hlinked, hquery⟩
  · obtain ⟨entry, hentry, rfl⟩ := List.mem_map.1 hroot
    obtain ⟨loaded, hload, hmem⟩ := hlinks.answers.exists_of_mem entry hentry
    rw [← hkey entry none loaded hanswer hload]
    exact hlinks.mem_keys _ hmem
  · obtain ⟨n, hn, hnkey⟩ := List.mem_map.1 hlinked
    obtain ⟨_, hanswers⟩ := h.mirrors hlinks m hm n hn hnkey
    obtain ⟨specifier, hspecifier, rfl⟩ := List.mem_map.1 hquery
    obtain ⟨loaded, hload, hmem⟩ := hanswers.exists_of_mem specifier hspecifier
    rw [← hkey specifier (some m.identity) loaded hanswer hload]
    exact hlinks.mem_keys_of_import n hn _ hmem

/-- Whatever the roots lead to is linked. -/
theorem linked_of_leads (h : Whole resolver files entries graph)
    (hlinks : Links resolver files .empty none entries keys after) (key : String)
    (hleads : Leads (graph.entries ++ graph.forced) graph.modules key) : key ∈ after.keys := by
  induction hleads with
  | root key hkey =>
    obtain ⟨hentries, hforced⟩ := noted_of_ofRoots graph h.graph_eq
    have hnone : graph.forced = [] := hforced
    rw [hnone, List.append_nil, hentries] at hkey
    obtain ⟨found, hvisit, rfl⟩ := List.mem_map.1 hkey
    obtain ⟨query, hquery, hfound⟩ := List.mem_filterMap.1 hvisit
    obtain ⟨hanswer, _⟩ := (query.found?_eq_some_iff resolver files found).1 hfound
    exact h.linked_of_answer hlinks (.inl hquery) hanswer
  | step m key _ hm himport ih =>
    have hwalk := walked_of_ofRoots h.graph_eq
    rw [hwalk.imports_eq m ((hwalk.mem_modules_iff m).1 hm), importedKeys, mem_distinct]
      at himport
    obtain ⟨query, hquery, hsome⟩ := List.mem_filterMap.1 himport
    obtain ⟨found, hfound, rfl⟩ := Option.map_eq_some_iff.1 hsome
    obtain ⟨hanswer, _⟩ := (query.found?_eq_some_iff resolver files found).1 hfound
    exact h.linked_of_answer hlinks (.inr ⟨m, hm, ih, hquery⟩) hanswer

theorem linked_of_mem (h : Whole resolver files entries graph)
    (hlinks : Links resolver files .empty none entries keys after) (m : GraphModule)
    (hm : m ∈ graph.modules) : m.key ∈ after.keys := by
  have hwalk := walked_of_ofRoots h.graph_eq
  have hleads := hwalk.leads m ((hwalk.mem_modules_iff m).1 hm)
  exact h.linked_of_leads hlinks m.key
    (hleads.mono fun other hother => (hwalk.mem_modules_iff other).2 hother)

theorem linked_of_engine (h : Whole resolver files entries graph)
    (hlinks : Links resolver files .empty none entries keys after) (name : String)
    (hname : name ∈ graph.engineModules) : name ∈ after.keys := by
  obtain ⟨query, found, hquery, hanswer, _, rfl⟩ :=
    ((walked_of_ofRoots h.graph_eq).engine_iff name).1 hname
  apply h.linked_of_answer hlinks ?_ hanswer
  rw [List.append_nil] at hquery
  rcases hquery with hroot | ⟨m, hm, hmem⟩
  · exact .inl hroot
  · exact .inr ⟨m, hm, h.linked_of_mem hlinks m hm, hmem⟩

theorem imports_of_linked (h : Whole resolver files entries graph)
    (hlinks : Links resolver files .empty none entries keys after) (m : GraphModule)
    (hm : m ∈ graph.modules) (n : LinkedModule) (hn : n ∈ after.modules)
    (hkey : n.identity.key = m.key) :
    distinct (n.imports.filter (· ∉ graph.engineModules)) = m.imports := by
  have hwalk := walked_of_ofRoots h.graph_eq
  obtain ⟨_, hanswers⟩ := h.mirrors hlinks m hm n hn hkey
  rw [hwalk.imports_eq m ((hwalk.mem_modules_iff m).1 hm), importedKeys, GraphModule.queries,
    h.filter_answers _ _ _ hanswers]
  · rfl
  · intro specifier hspecifier
    apply (mem_asked_iff graph h.graph_eq _).2
    exact .inr ⟨m, hm, List.mem_map_of_mem hspecifier⟩

end Whole

/-- Linking the entries of a program whose graph is complete succeeds, links the modules
of the graph and those of the engine, and records the imports that the graph has. -/
theorem linkEntries_of_ofRoots (resolver : Resolver) (files : FileView) (entries : List String)
    (graph : Graph) (hempty : resolver.table = .empty)
    (hstandalone : resolver.builtins.ImportNothing) (hkeys : resolver.KeysDetermine files)
    (hgraph : ofRoots resolver files entries [] = .ok graph)
    (hresolved : graph.unresolved = []) :
    ∃ keys linker, Linker.empty.linkEntries resolver files entries = (.ok keys, linker) ∧
      (∀ key, key ∈ linker.keys ↔ key ∈ graph.keys ∨ key ∈ graph.engineModules) ∧
      ∀ m ∈ graph.modules, ∃ n, linker.get? m.key = some n ∧ n.identity = m.identity ∧
        distinct (n.imports.filter (· ∉ graph.engineModules)) = m.imports := by
  have hwhole : Whole resolver files entries graph :=
    ⟨hempty, hstandalone, hkeys, hgraph, hresolved⟩
  obtain ⟨keys, linker, hlink, hlinks⟩ := hwhole.exists_links
  refine ⟨keys, linker, hlink, ?_, ?_⟩
  · intro key
    constructor
    · exact hwhole.key_of_linked hlinks key
    · intro hkey
      rcases hkey with hkey | hengine
      · obtain ⟨m, hm, rfl⟩ := List.mem_map.1 hkey
        exact hwhole.linked_of_mem hlinks m hm
      · exact hwhole.linked_of_engine hlinks key hengine
  · intro m hm
    obtain ⟨n, hn, hnkey⟩ := List.mem_map.1 (hwhole.linked_of_mem hlinks m hm)
    have hget := ((hlinks.consistent .empty).get?_eq_some_iff m.key n).2 ⟨hn, hnkey⟩
    exact ⟨n, hget, (hwhole.mirrors hlinks m hm n hn hnkey).1,
      hwhole.imports_of_linked hlinks m hm n hn hnkey⟩

-- Two modules that import each other, one of them by two specifiers, and a module of the
-- engine.
namespace SharedHost

def mainSource : Bytes := Utf8.encode "import './part';\nimport 'host';\nimport './lib/../part';\n"

def partSource : Bytes := Utf8.encode "import './main';\nimport 'host';\n"

def files : FileView
  | "./main.js" => .ok (.file mainSource)
  | "./part.js" => .ok (.file partSource)
  | _ => .error .noSuchFile

def builtins : Builtins := Builtins.none.register "host" (Utf8.encode "export default 1;\n")

def resolver : Resolver := ⟨{}, .empty, builtins⟩

def main : GraphModule :=
  ⟨⟨"./main", ".", .filesystem, none⟩, some "./main.js", mainSource, ["./part"]⟩

def part : GraphModule :=
  ⟨⟨"./part", ".", .filesystem, none⟩, some "./part.js", partSource, ["./main"]⟩

def graph : Graph := ⟨["./main"], [], [main, part], ["host"], []⟩

theorem scan_main : scan resolver files (met [] [main.bare]) main.bare [] [] =
    .ok ⟨["./part"], [part.bare], ["host"], []⟩ := by
  have hspecifiers : staticSpecifiers main.bare = ["./part", "host", "./lib/../part"] := by
    show (Source.outline (Utf8.lossy mainSource)).staticSpecifiers = _
    cbv
  rw [scan, hspecifiers]
  rfl

theorem scan_part : scan resolver files (met [main] [part.bare]) part.bare ["host"] [] =
    .ok ⟨["./main"], [], ["host", "host"], []⟩ := by
  have hspecifiers : staticSpecifiers part.bare = ["./main", "host"] := by
    show (Source.outline (Utf8.lossy partSource)).staticSpecifiers = _
    cbv
  rw [scan, hspecifiers]
  rfl

theorem ofRoots_eq : ofRoots resolver files ["./main"] [] = .ok graph := by
  have hexplore : explore resolver files [] [main.bare] [] [] =
      .ok ⟨[main, part], ["host", "host"], []⟩ := by
    rw [explore_cons resolver files [] [] main.bare [] [] _ scan_main]
    refine (explore_cons resolver files [main] [] part.bare ["host"] [] _ scan_part).trans ?_
    exact explore_nil resolver files [main, part] ["host", "host"] []
  exact (ofRoots_of_stages resolver files ["./main"] [] ⟨["./main"], [], [main.bare], []⟩
    ⟨["./main"], [], [main.bare], []⟩ _ rfl rfl hexplore).1

theorem importNothing : resolver.builtins.ImportNothing := by
  intro entry hentry
  obtain rfl : entry = ("host", Utf8.encode "export default 1;\n") := List.mem_singleton.1 hentry
  show (Source.outline (Utf8.lossy (Utf8.encode "export default 1;\n"))).staticSpecifiers = []
  cbv

end SharedHost

open SharedHost in
/-- The main module is linked with three imports, of which the graph has one. -/
theorem linkEntries_of_ofRoots_sample :
    ∃ keys linker, Linker.empty.linkEntries resolver files ["./main"] = (.ok keys, linker) ∧
      (∀ key, key ∈ linker.keys ↔ key ∈ ["./main", "./part"] ∨ key ∈ ["host"]) ∧
      ∀ m ∈ [main, part], ∃ n, linker.get? m.key = some n ∧ n.identity = m.identity ∧
        distinct (n.imports.filter (· ∉ ["host"])) = m.imports := by
  have hnames : ∀ entry ∈ resolver.builtins.modules, Specifier.classify entry.1 = .bare := by
    decide
  exact linkEntries_of_ofRoots resolver files ["./main"] graph rfl importNothing
    (resolver.keysDetermine_of_no_roots files rfl rfl hnames) ofRoots_eq rfl

end Graph

end ModuleLoading
