import ModuleLoading.Proofs.Linking
import Mathlib.Data.List.Forall2

/-!
The course of a linking, as rules that a proof can go by. A linking that succeeds comes
to each specifier in turn: the module is seen already, or its imports are linked and it
is added after them. A linking that fails stops at the first module that cannot be loaded,
at the end of a chain of modules each of which imports the next; these are the modules
that stay in progress. The rest says what linking keeps of a linker whose parts agree.
-/
namespace ModuleLoading

namespace Linker

/-- Specifiers that one importer names, linked one after the other, with the keys they
are answered with. -/
inductive Links (resolver : Resolver) (files : FileView) :
    Linker → Option Identity → List String → List String → Linker → Prop
  | done (linker : Linker) (referrer : Option Identity) :
      Links resolver files linker referrer [] [] linker
  | seen (linker : Linker) (referrer : Option Identity) (specifier : String) (rest : List String)
      (loaded : Loaded) (keys : List String) (after : Linker)
      (hload : resolver.load files specifier referrer = .ok loaded)
      (hseen : loaded.identity.key ∈ linker.seen)
      (hrest : Links resolver files linker referrer rest keys after) :
      Links resolver files linker referrer (specifier :: rest) (loaded.identity.key :: keys) after
  | linked (linker : Linker) (referrer : Option Identity) (specifier : String) (rest : List String)
      (loaded : Loaded) (imports : List String) (between : Linker) (keys : List String)
      (after : Linker) (hload : resolver.load files specifier referrer = .ok loaded)
      (hnew : loaded.identity.key ∉ linker.seen)
      (himports : Links resolver files (linker.start loaded.identity.key) (some loaded.identity)
        (Source.outline loaded.text).staticSpecifiers imports between)
      (hrest : Links resolver files
        (between.finish (linkedModule loaded (Source.outline loaded.text) imports)) referrer rest
        keys after) :
      Links resolver files linker referrer (specifier :: rest) (loaded.identity.key :: keys) after

/-- Specifiers of which one cannot be linked: at the end of the chain of keys, each of
which imports the next, a module cannot be loaded. -/
inductive Fails (resolver : Resolver) (files : FileView) :
    Linker → Option Identity → List String → LoadError → List String → Linker → Prop
  | unloaded (linker : Linker) (referrer : Option Identity) (specifier : String)
      (rest : List String) (e : LoadError)
      (hload : resolver.load files specifier referrer = .error e) :
      Fails resolver files linker referrer (specifier :: rest) e [] linker
  | within (linker : Linker) (referrer : Option Identity) (specifier : String) (rest : List String)
      (loaded : Loaded) (e : LoadError) (chain : List String) (after : Linker)
      (hload : resolver.load files specifier referrer = .ok loaded)
      (hnew : loaded.identity.key ∉ linker.seen)
      (himports : Fails resolver files (linker.start loaded.identity.key) (some loaded.identity)
        (Source.outline loaded.text).staticSpecifiers e chain after) :
      Fails resolver files linker referrer (specifier :: rest) e
        (loaded.identity.key :: chain) after
  | later (linker : Linker) (referrer : Option Identity) (specifier : String) (rest : List String)
      (key : String) (between : Linker) (e : LoadError) (chain : List String) (after : Linker)
      (hfirst : Links resolver files linker referrer [specifier] [key] between)
      (hrest : Fails resolver files between referrer rest e chain after) :
      Fails resolver files linker referrer (specifier :: rest) e chain after

variable {resolver : Resolver} {files : FileView}

theorem Links.append {before between after : Linker} {referrer : Option Identity}
    {left right keys keys' : List String}
    (hleft : Links resolver files before referrer left keys between)
    (hright : Links resolver files between referrer right keys' after) :
    Links resolver files before referrer (left ++ right) (keys ++ keys') after := by
  induction hleft with
  | done => exact hright
  | seen linker referrer specifier rest loaded keys between hload hseen _ ih =>
    exact .seen linker referrer specifier _ loaded _ after hload hseen (ih hright)
  | linked linker referrer specifier rest loaded imports middle keys between hload hnew himports
      _ _ ih =>
    exact .linked linker referrer specifier _ loaded imports middle _ after hload hnew himports
      (ih hright)

/-- Nothing is linked after a failure. -/
theorem Fails.append {before after : Linker} {referrer : Option Identity}
    {specifiers chain : List String} {e : LoadError}
    (h : Fails resolver files before referrer specifiers e chain after) (rest : List String) :
    Fails resolver files before referrer (specifiers ++ rest) e chain after := by
  induction h with
  | unloaded linker referrer specifier others e hload =>
    exact .unloaded linker referrer specifier _ e hload
  | within linker referrer specifier others loaded e chain after hload hnew himports _ =>
    exact .within linker referrer specifier _ loaded e chain after hload hnew himports
  | later linker referrer specifier others key between e chain after hfirst _ ih =>
    exact .later linker referrer specifier _ key between e chain after hfirst ih

/-- What a linking comes to, by its outcome. -/
def Ends (resolver : Resolver) (files : FileView) (before : Linker) (referrer : Option Identity)
    (specifiers : List String) : Except LoadError (List String) → Linker → Prop
  | .ok keys, after => Links resolver files before referrer specifiers keys after
  | .error e, after => ∃ chain, Fails resolver files before referrer specifiers e chain after

/-- A linking of several specifiers goes by the rules if its first step and the rest do. -/
theorem Ends.cons {before : Linker} {referrer : Option Identity} {specifier : String}
    {rest : List String} {first : Except LoadError String × Linker}
    {others : Linker → Except LoadError (List String) × Linker}
    {both : Except LoadError (List String) × Linker}
    (hboth : both = match first with
      | (.error e, after) => (.error e, after)
      | (.ok key, after) => ((others after).1.map (key :: ·), (others after).2))
    (hfirst : Ends resolver files before referrer [specifier] (first.1.map ([·])) first.2)
    (hrest : Ends resolver files first.2 referrer rest (others first.2).1 (others first.2).2) :
    Ends resolver files before referrer (specifier :: rest) both.1 both.2 := by
  obtain ⟨outcome, next⟩ := first
  rw [hboth]
  cases outcome with
  | error e =>
    obtain ⟨chain, hfails⟩ := hfirst
    exact ⟨chain, hfails.append rest⟩
  | ok key =>
    rcases hothers : others next with ⟨outcome, after⟩
    simp only [hothers] at hrest ⊢
    cases outcome with
    | error e =>
      obtain ⟨chain, hfails⟩ := hrest
      exact ⟨chain, .later before referrer specifier rest key next e chain after hfirst hfails⟩
    | ok keys => exact Links.append hfirst hrest

-- The recursion is that of the walk, with its measure.
mutual

/-- Linking goes by the rules. -/
theorem ends_linkFrom (resolver : Resolver) (files : FileView) (linker : Linker)
    (specifier : String) (referrer : Option Identity) :
    Ends resolver files linker referrer [specifier]
      ((linkFrom resolver files linker specifier referrer).1.map ([·]))
      (linkFrom resolver files linker specifier referrer).2 := by
  match hload : resolver.load files specifier referrer with
  | .error e =>
    rw [linkFrom_unloaded resolver files linker specifier referrer e hload]
    exact ⟨[], .unloaded linker referrer specifier [] e hload⟩
  | .ok loaded =>
    by_cases hseen : loaded.identity.key ∈ linker.seen
    · rw [linkFrom_seen resolver files linker specifier referrer loaded hload hseen]
      exact .seen linker referrer specifier [] loaded [] linker hload hseen (.done linker referrer)
    · have himports := ends_linkImports resolver files (linker.start loaded.identity.key)
        (Source.outline loaded.text).staticSpecifiers loaded.identity
      rw [linkFrom_new resolver files linker specifier referrer loaded hload hseen]
      rcases himports' : linkImports resolver files (linker.start loaded.identity.key)
        (Source.outline loaded.text).staticSpecifiers loaded.identity with ⟨outcome, between⟩
      rw [himports'] at himports
      cases outcome with
      | error e =>
        obtain ⟨chain, hfails⟩ := himports
        exact ⟨_, .within linker referrer specifier [] loaded e chain between hload hseen hfails⟩
      | ok imports =>
        exact .linked linker referrer specifier [] loaded imports between [] _ hload hseen himports
          (.done _ referrer)
  termination_by (resolver.unseen linker.seen, 0)
  decreasing_by
    refine Prod.Lex.left _ _ ?_
    exact Resolver.unseen_lt (linker.seen_start _) (attainable_of_load hload) hseen
      (linker.mem_seen_start _)

theorem ends_linkImports (resolver : Resolver) (files : FileView) (linker : Linker)
    (specifiers : List String) (importer : Identity) :
    Ends resolver files linker (some importer) specifiers
      (linkImports resolver files linker specifiers importer).1
      (linkImports resolver files linker specifiers importer).2 := by
  match specifiers with
  | [] =>
    rw [linkImports_nil]
    exact .done linker (some importer)
  | specifier :: rest =>
    have hfirst := ends_linkFrom resolver files linker specifier (some importer)
    have hrest := ends_linkImports resolver files
      (linkFrom resolver files linker specifier (some importer)).2 rest importer
    exact Ends.cons (linkImports_cons resolver files linker specifier rest importer) hfirst hrest
  termination_by (resolver.unseen linker.seen, specifiers.length + 1)
  decreasing_by
    · exact Prod.Lex.right _ (Nat.succ_pos _)
    · have hseen := seen_linkFrom resolver files linker specifier (some importer)
      rcases Nat.lt_or_eq_of_le (Resolver.unseen_le hseen) with h | h
      · exact Prod.Lex.left _ _ h
      · rw [h]
        exact Prod.Lex.right _ (by simp)

end

theorem ends_linkEntries (resolver : Resolver) (files : FileView) (linker : Linker)
    (entries : List String) :
    Ends resolver files linker none entries (linker.linkEntries resolver files entries).1
      (linker.linkEntries resolver files entries).2 := by
  induction entries generalizing linker with
  | nil => exact .done linker none
  | cons entry rest ih =>
    have hfirst := ends_linkFrom resolver files linker entry none
    have hrest := ih (linkFrom resolver files linker entry none).2
    exact Ends.cons (linkEntries_cons resolver files linker entry rest) hfirst hrest

theorem links_of_linkFrom {before after : Linker} {specifier key : String}
    {referrer : Option Identity}
    (h : linkFrom resolver files before specifier referrer = (.ok key, after)) :
    Links resolver files before referrer [specifier] [key] after := by
  have hends := ends_linkFrom resolver files before specifier referrer
  rwa [h] at hends

theorem fails_of_linkFrom {before after : Linker} {specifier : String}
    {referrer : Option Identity} {e : LoadError}
    (h : linkFrom resolver files before specifier referrer = (.error e, after)) :
    ∃ chain, Fails resolver files before referrer [specifier] e chain after := by
  have hends := ends_linkFrom resolver files before specifier referrer
  rwa [h] at hends

/-- The specifiers load to the modules of the keys, in this order. -/
def Answers (resolver : Resolver) (files : FileView) (referrer : Option Identity)
    (specifiers keys : List String) : Prop :=
  List.Forall₂ (fun specifier key => ∃ loaded,
    resolver.load files specifier referrer = .ok loaded ∧ loaded.identity.key = key) specifiers keys

theorem Links.answers {before after : Linker} {referrer : Option Identity}
    {specifiers keys : List String}
    (h : Links resolver files before referrer specifiers keys after) :
    Answers resolver files referrer specifiers keys := by
  induction h with
  | done => exact .nil
  | seen linker referrer specifier rest loaded keys after hload hseen _ ih =>
    exact .cons ⟨loaded, hload, rfl⟩ ih
  | linked linker referrer specifier rest loaded imports between keys after hload hnew _ _ _ ih =>
    exact .cons ⟨loaded, hload, rfl⟩ ih

theorem Links.seen_subset {before after : Linker} {referrer : Option Identity}
    {specifiers keys : List String}
    (h : Links resolver files before referrer specifiers keys after) :
    ∀ key ∈ before.seen, key ∈ after.seen := by
  induction h with
  | done => exact fun key hkey => hkey
  | seen linker referrer specifier rest loaded keys after hload hseen _ ih => exact ih
  | linked linker referrer specifier rest loaded imports between keys after hload hnew _ _
      ihImports ihRest =>
    intro key hkey
    exact ihRest key (seen_finish _ _ key (ihImports key (linker.seen_start _ key hkey)))

/-- Every answer is the key of a linked module or of one that was in progress. -/
theorem Links.mem_seen {before after : Linker} {referrer : Option Identity}
    {specifiers keys : List String}
    (h : Links resolver files before referrer specifiers keys after) :
    ∀ key ∈ keys, key ∈ after.seen := by
  induction h with
  | done => simp
  | seen linker referrer specifier rest loaded keys after hload hseen hrest ih =>
    exact List.forall_mem_cons.2 ⟨hrest.seen_subset _ hseen, ih⟩
  | linked linker referrer specifier rest loaded imports between keys after hload hnew _ hrest
      _ ih =>
    exact List.forall_mem_cons.2
      ⟨hrest.seen_subset _ (List.mem_append_left _ List.mem_cons_self), ih⟩

/-- Queries among which are the static imports of whatever one of them loads. -/
def Closed (resolver : Resolver) (files : FileView)
    (queries : String → Option Identity → Prop) : Prop :=
  ∀ specifier referrer loaded, queries specifier referrer →
    resolver.load files specifier referrer = .ok loaded →
    ∀ imported ∈ (Source.outline loaded.text).staticSpecifiers,
      queries imported (some loaded.identity)

/-- What is added was loaded by a query, and its imports are what its static imports
load to. -/
theorem Links.exists_added_of_closed {before after : Linker} {referrer : Option Identity}
    {specifiers keys : List String} (queries : String → Option Identity → Prop)
    (hclosed : Closed resolver files queries)
    (h : Links resolver files before referrer specifiers keys after)
    (hqueries : ∀ specifier ∈ specifiers, queries specifier referrer) :
    ∃ added, after.modules = before.modules ++ added ∧
      ∀ m ∈ added, ∃ specifier referrer loaded, queries specifier referrer ∧
        resolver.load files specifier referrer = .ok loaded ∧
        m = linkedModule loaded (Source.outline loaded.text) m.imports ∧
        Answers resolver files (some m.identity) (Source.outline loaded.text).staticSpecifiers
          m.imports := by
  induction h with
  | done => exact ⟨[], (List.append_nil _).symm, by simp⟩
  | seen linker referrer specifier rest loaded keys after hload hseen _ ih =>
    exact ih fun later hlater => hqueries later (List.mem_cons_of_mem _ hlater)
  | linked linker referrer specifier rest loaded imports between keys after hload hnew himports _
      ihImports ihRest =>
    have hquery := hqueries specifier List.mem_cons_self
    obtain ⟨inner, hinner, hfrom⟩ := ihImports (hclosed specifier referrer loaded hquery hload)
    obtain ⟨later, hlater, hfrom'⟩ :=
      ihRest fun other hother => hqueries other (List.mem_cons_of_mem _ hother)
    refine ⟨inner ++ linkedModule loaded (Source.outline loaded.text) imports :: later, ?_, ?_⟩
    · rw [hlater, finish, hinner]
      simp [start]
    · refine List.forall_mem_append.2 ⟨hfrom, List.forall_mem_cons.2 ⟨?_, hfrom'⟩⟩
      exact ⟨specifier, referrer, loaded, hquery, hload, rfl, himports.answers⟩

/-- A linking fails because one of its queries does. -/
theorem Fails.exists_unloaded {before after : Linker} {referrer : Option Identity}
    {specifiers chain : List String} {e : LoadError}
    (queries : String → Option Identity → Prop) (hclosed : Closed resolver files queries)
    (h : Fails resolver files before referrer specifiers e chain after)
    (hqueries : ∀ specifier ∈ specifiers, queries specifier referrer) :
    ∃ specifier referrer, queries specifier referrer ∧
      resolver.load files specifier referrer = .error e := by
  induction h with
  | unloaded linker referrer specifier rest e hload =>
    exact ⟨specifier, referrer, hqueries specifier List.mem_cons_self, hload⟩
  | within linker referrer specifier rest loaded e chain after hload hnew _ ih =>
    exact ih (hclosed specifier referrer loaded (hqueries specifier List.mem_cons_self) hload)
  | later linker referrer specifier rest key between e chain after hfirst _ ih =>
    exact ih fun other hother => hqueries other (List.mem_cons_of_mem _ hother)

theorem not_mem_inProgress {linker : Linker} {key : String} (h : key ∉ linker.seen) :
    key ∉ linker.inProgress :=
  fun hkey => h (List.mem_append_right _ hkey)

theorem inProgress_finish {linker : Linker} {progress : List String} (m : LinkedModule)
    (h : linker.inProgress = m.identity.key :: progress) (hnew : m.identity.key ∉ progress) :
    (linker.finish m).inProgress = progress := by
  have hkept : ∀ key ∈ progress, key ≠ m.identity.key :=
    fun key hkey heq => hnew (heq ▸ hkey)
  simp only [finish, h]
  rw [List.filter_cons_of_neg (by simp), List.filter_eq_self]
  exact fun key hkey => decide_eq_true (hkept key hkey)

/-- A linking that succeeds leaves in progress what was. -/
theorem Links.inProgress_eq {before after : Linker} {referrer : Option Identity}
    {specifiers keys : List String}
    (h : Links resolver files before referrer specifiers keys after) :
    after.inProgress = before.inProgress := by
  induction h with
  | done => rfl
  | seen linker referrer specifier rest loaded keys after hload hseen _ ih => exact ih
  | linked linker referrer specifier rest loaded imports between keys after hload hnew _ _
      ihImports ihRest =>
    rw [ihRest]
    exact inProgress_finish (linkedModule loaded (Source.outline loaded.text) imports) ihImports
      (not_mem_inProgress hnew)

/-- A linking that fails leaves in progress the modules of its chain too. -/
theorem Fails.inProgress_eq {before after : Linker} {referrer : Option Identity}
    {specifiers chain : List String} {e : LoadError}
    (h : Fails resolver files before referrer specifiers e chain after) :
    after.inProgress = chain.reverse ++ before.inProgress := by
  induction h with
  | unloaded => rfl
  | within linker referrer specifier rest loaded e chain after hload hnew _ ih =>
    rw [ih, start, List.reverse_cons, List.append_assoc]
    rfl
  | later linker referrer specifier rest key between e chain after hfirst _ ih =>
    rw [ih, hfirst.inProgress_eq]

theorem getElem?_of_extends {modules more : List LinkedModule} (h : modules <+: more) {i : Nat}
    {m : LinkedModule} (hi : modules[i]? = some m) : more[i]? = some m := by
  obtain ⟨added, rfl⟩ := h
  rw [List.getElem?_append_left (List.getElem?_eq_some_iff.1 hi).1]
  exact hi

/-- Every key is linked once, the index says where, and none is in progress still. -/
structure Consistent (linker : Linker) : Prop where
  keys_nodup : linker.keys.Nodup
  position?_eq_some_iff : ∀ key i, linker.position? key = some i ↔
    ∃ m, linker.modules[i]? = some m ∧ m.identity.key = key
  apart : ∀ key ∈ linker.inProgress, linker.position? key = none

theorem mem_indexed_iff (linker : Linker) (key : String) :
    key ∈ linker.indexed ↔ ∃ i, linker.position? key = some i := by
  rw [← Option.isSome_iff_exists, position?, List.lookup_isSome_iff, indexed, List.mem_map]
  exact exists_congr fun entry => and_congr_right fun _ => by rw [beq_iff_eq, eq_comm]

theorem position?_finish (linker : Linker) (m : LinkedModule) (key : String) :
    (linker.finish m).position? key =
      if key = m.identity.key then some linker.modules.length else linker.position? key := by
  rw [position?, finish, List.lookup_cons]
  by_cases hkey : key = m.identity.key
  · simp [hkey]
  · have hfalse : (key == m.identity.key) = false := by simpa using hkey
    simp [hfalse, hkey, position?]

theorem getElem?_finish (linker : Linker) (m n : LinkedModule) (i : Nat) :
    (linker.finish m).modules[i]? = some n ↔
      linker.modules[i]? = some n ∨ i = linker.modules.length ∧ n = m := by
  rw [finish]
  rcases Nat.lt_trichotomy i linker.modules.length with hi | rfl | hi
  · have hne : i ≠ linker.modules.length := Nat.ne_of_lt hi
    simp [List.getElem?_append_left hi, hne]
  · simp [eq_comm]
  · have hne : i ≠ linker.modules.length := Nat.ne_of_gt hi
    have hnone : linker.modules[i]? = none := List.getElem?_eq_none (Nat.le_of_lt hi)
    have hlong : (linker.modules ++ [m])[i]? = none := List.getElem?_eq_none (by
      rw [List.length_append]
      exact hi)
    simp [hnone, hlong, hne]

namespace Consistent

variable {linker : Linker}

theorem mem_indexed_iff_mem_keys (h : linker.Consistent) (key : String) :
    key ∈ linker.indexed ↔ key ∈ linker.keys := by
  rw [mem_indexed_iff, keys, List.mem_map]
  simp only [h.position?_eq_some_iff]
  constructor
  · rintro ⟨i, m, hm, hkey⟩
    exact ⟨m, List.mem_of_getElem? hm, hkey⟩
  · rintro ⟨m, hm, hkey⟩
    obtain ⟨i, hi⟩ := List.getElem?_of_mem hm
    exact ⟨i, m, hi, hkey⟩

theorem get?_eq_some_iff (h : linker.Consistent) (key : String) (m : LinkedModule) :
    linker.get? key = some m ↔ m ∈ linker.modules ∧ m.identity.key = key := by
  rw [get?, Option.bind_eq_some_iff]
  constructor
  · rintro ⟨i, hi, hm⟩
    obtain ⟨n, hn, hkey⟩ := (h.position?_eq_some_iff key i).1 hi
    obtain rfl : n = m := Option.some.inj (hn.symm.trans hm)
    exact ⟨List.mem_of_getElem? hm, hkey⟩
  · rintro ⟨hm, hkey⟩
    obtain ⟨i, hi⟩ := List.getElem?_of_mem hm
    exact ⟨i, (h.position?_eq_some_iff key i).2 ⟨m, hi, hkey⟩, hi⟩

theorem empty : Linker.empty.Consistent where
  keys_nodup := List.nodup_nil
  position?_eq_some_iff key i := by simp [position?, Linker.empty]
  apart key hkey := by simp [Linker.empty] at hkey

/-- Only a key that is not linked can come into progress. -/
theorem start (h : linker.Consistent) (key : String) (hnew : key ∉ linker.seen) :
    (linker.start key).Consistent where
  keys_nodup := h.keys_nodup
  position?_eq_some_iff := h.position?_eq_some_iff
  apart other hother := by
    rcases List.mem_cons.1 hother with rfl | hother
    · by_contra hsome
      obtain ⟨i, hi⟩ := Option.ne_none_iff_exists'.1 hsome
      exact hnew (List.mem_append_left _ ((mem_indexed_iff linker other).2 ⟨i, hi⟩))
    · exact h.apart other hother

theorem not_mem_keys (h : linker.Consistent) (key : String) (hkey : key ∈ linker.inProgress) :
    key ∉ linker.keys := by
  intro hmem
  obtain ⟨i, hi⟩ := (mem_indexed_iff linker key).1 ((h.mem_indexed_iff_mem_keys key).2 hmem)
  rw [h.apart key hkey] at hi
  cases hi

/-- A module whose key is in progress can be added at the end. -/
theorem finish (h : linker.Consistent) (m : LinkedModule)
    (hkey : m.identity.key ∈ linker.inProgress) : (linker.finish m).Consistent where
  keys_nodup := by
    have hkeys : (linker.finish m).keys = linker.keys ++ [m.identity.key] := by
      simp [keys, Linker.finish]
    rw [hkeys]
    exact Table.nodup_concat h.keys_nodup (h.not_mem_keys _ hkey)
  position?_eq_some_iff key i := by
    have hother : ∀ n ∈ linker.modules, n.identity.key ≠ m.identity.key :=
      fun n hn heq => h.not_mem_keys _ hkey (heq ▸ List.mem_map_of_mem hn)
    rw [position?_finish]
    simp only [getElem?_finish]
    by_cases hsame : key = m.identity.key
    · rw [if_pos hsame]
      constructor
      · intro hi
        exact ⟨m, .inr ⟨(Option.some.inj hi).symm, rfl⟩, hsame.symm⟩
      · rintro ⟨n, hn | ⟨hi, _⟩, hnkey⟩
        · exact absurd (hnkey.trans hsame) (hother n (List.mem_of_getElem? hn))
        · rw [hi]
    · rw [if_neg hsame, h.position?_eq_some_iff]
      constructor
      · rintro ⟨n, hn, hnkey⟩
        exact ⟨n, .inl hn, hnkey⟩
      · rintro ⟨n, hn | ⟨_, rfl⟩, hnkey⟩
        · exact ⟨n, hn, hnkey⟩
        · exact absurd hnkey.symm hsame
  apart key hprogress := by
    obtain ⟨hprogress, hne⟩ := List.mem_filter.1 hprogress
    rw [position?_finish, if_neg (by simpa using hne)]
    exact h.apart key hprogress

/-- A module stays where it is while others are added after it. -/
theorem position?_of_extends {after : Linker} (h : linker.Consistent) (hafter : after.Consistent)
    (hextends : linker.modules <+: after.modules) (key : String) (i : Nat)
    (hi : linker.position? key = some i) : after.position? key = some i := by
  obtain ⟨m, hm, hkey⟩ := (h.position?_eq_some_iff key i).1 hi
  exact (hafter.position?_eq_some_iff key i).2 ⟨m, getElem?_of_extends hextends hm, hkey⟩

end Consistent

theorem Links.modules_extend {before after : Linker} {referrer : Option Identity}
    {specifiers keys : List String}
    (h : Links resolver files before referrer specifiers keys after) :
    before.modules <+: after.modules := by
  induction h with
  | done => exact List.prefix_refl _
  | seen linker referrer specifier rest loaded keys after hload hseen _ ih => exact ih
  | linked linker referrer specifier rest loaded imports between keys after hload hnew _ _
      ihImports ihRest =>
    have hfinish : between.modules <+:
        (between.finish (linkedModule loaded (Source.outline loaded.text) imports)).modules :=
      List.prefix_append _ _
    exact ihImports.trans (hfinish.trans ihRest)

theorem Links.consistent {before after : Linker} {referrer : Option Identity}
    {specifiers keys : List String}
    (h : Links resolver files before referrer specifiers keys after)
    (hbefore : before.Consistent) : after.Consistent := by
  induction h with
  | done => exact hbefore
  | seen linker referrer specifier rest loaded keys after hload hseen _ ih => exact ih hbefore
  | linked linker referrer specifier rest loaded imports between keys after hload hnew himports _
      ihImports ihRest =>
    have hbetween := ihImports (hbefore.start loaded.identity.key hnew)
    have hkey : loaded.identity.key ∈ between.inProgress := by
      rw [himports.inProgress_eq]
      exact List.mem_cons_self
    exact ihRest (hbetween.finish _ hkey)

theorem Fails.modules_extend {before after : Linker} {referrer : Option Identity}
    {specifiers chain : List String} {e : LoadError}
    (h : Fails resolver files before referrer specifiers e chain after) :
    before.modules <+: after.modules := by
  induction h with
  | unloaded => exact List.prefix_refl _
  | within linker referrer specifier rest loaded e chain after hload hnew _ ih => exact ih
  | later linker referrer specifier rest key between e chain after hfirst _ ih =>
    exact hfirst.modules_extend.trans ih

theorem Fails.consistent {before after : Linker} {referrer : Option Identity}
    {specifiers chain : List String} {e : LoadError}
    (h : Fails resolver files before referrer specifiers e chain after)
    (hbefore : before.Consistent) : after.Consistent := by
  induction h with
  | unloaded => exact hbefore
  | within linker referrer specifier rest loaded e chain after hload hnew _ ih =>
    exact ih (hbefore.start loaded.identity.key hnew)
  | later linker referrer specifier rest key between e chain after hfirst _ ih =>
    exact ih (hfirst.consistent hbefore)

end Linker

end ModuleLoading
