import ModuleLoading.Proofs.LinkerCalls

/-!
Linking yields an order of evaluation. Modules are added when all their imports are
answered, so that an import stands before its importer unless it was in progress itself.
What is in progress leads to the module at hand, along the modules whose imports are
being linked; these imports are recorded only later, when those modules are added. The
induction therefore keeps apart what was in progress before, and each module that is
added turns one of these cases into a recorded cycle (`Ordered.enclose`).
-/
namespace ModuleLoading

namespace Linker

open Relation

/-- Recorded imports of the linked modules. -/
def Imports (linker : Linker) (importer imported : String) : Prop :=
  ∃ m ∈ linker.modules, m.identity.key = importer ∧ imported ∈ m.imports

/-- The module is as it was loaded, and its imports are what its static imports load to. -/
def Faithful (resolver : Resolver) (files : FileView) (m : LinkedModule) : Prop :=
  ∃ specifier referrer loaded, resolver.load files specifier referrer = .ok loaded ∧
    m = linkedModule loaded (Source.outline loaded.text) m.imports ∧
    Answers resolver files (some m.identity) (Source.outline loaded.text).staticSpecifiers m.imports

/-- The import stands before its importer, which is at the position, or leads back to it. -/
def Settled (linker : Linker) (position : Nat) (importer imported : String) : Prop :=
  ∃ j n, linker.modules[j]? = some n ∧ n.identity.key = imported ∧
    (j < position ∨ TransGen linker.Imports imported importer)

section Runs

variable {resolver : Resolver} {files : FileView} {before between after : Linker}

theorem Imports.mono (h : before.modules <+: after.modules) : before.Imports ≤ after.Imports := by
  rintro importer imported ⟨m, hm, hkey, himported⟩
  exact ⟨m, h.subset hm, hkey, himported⟩

theorem Settled.mono {position : Nat} {importer imported : String}
    (hsettled : before.Settled position importer imported)
    (h : before.modules <+: after.modules) : after.Settled position importer imported := by
  obtain ⟨j, n, hn, hkey, hplace⟩ := hsettled
  have hpath := TransGen.mono (Imports.mono h) imported importer
  exact ⟨j, n, getElem?_of_extends h hn, hkey, hplace.imp_right hpath⟩

/-- What is added was loaded on the way. -/
theorem Links.exists_added {referrer : Option Identity} {specifiers keys : List String}
    (h : Links resolver files before referrer specifiers keys after) :
    ∃ added, after.modules = before.modules ++ added ∧
      ∀ m ∈ added, Faithful resolver files m := by
  have hall : Closed resolver files fun _ _ => True := fun _ _ _ _ _ _ _ => trivial
  obtain ⟨added, hadded, hfrom⟩ := h.exists_added_of_closed _ hall fun _ _ => trivial
  refine ⟨added, hadded, fun m hm => ?_⟩
  obtain ⟨specifier, referrer, loaded, _, hload, heq, hanswers⟩ := hfrom m hm
  exact ⟨specifier, referrer, loaded, hload, heq, hanswers⟩

/-- What has been added is led to by the roots and stands in order, as far as it imports
nothing that was in progress before. -/
structure Ordered (before : Linker) (roots : List String) (after : Linker) : Prop where
  reached : ∀ i m, before.modules.length ≤ i → after.modules[i]? = some m →
    ∃ root ∈ roots, ReflTransGen after.Imports root m.identity.key
  settled : ∀ i m, before.modules.length ≤ i → after.modules[i]? = some m →
    ∀ imported ∈ m.imports,
      imported ∈ before.inProgress ∨ after.Settled i m.identity.key imported

theorem Ordered.refl (linker : Linker) : Ordered linker [] linker where
  reached _ _ hi hm := absurd (List.getElem?_eq_some_iff.1 hm).1 (Nat.not_lt.2 hi)
  settled _ _ hi hm := absurd (List.getElem?_eq_some_iff.1 hm).1 (Nat.not_lt.2 hi)

theorem Ordered.mono {roots more : List String} (h : Ordered before roots after)
    (hmore : ∀ root ∈ roots, root ∈ more) : Ordered before more after where
  reached i m hi hm := by
    obtain ⟨root, hroot, hpath⟩ := h.reached i m hi hm
    exact ⟨root, hmore root hroot, hpath⟩
  settled := h.settled

theorem getElem?_of_extends_of_lt {modules more : List LinkedModule} (h : modules <+: more)
    {i : Nat} {m : LinkedModule} (hi : i < modules.length) (hm : more[i]? = some m) :
    modules[i]? = some m := by
  obtain ⟨added, rfl⟩ := h
  rwa [List.getElem?_append_left hi] at hm

theorem Ordered.append {roots roots' : List String} (h : Ordered before roots between)
    (h' : Ordered between roots' after) (hextends : between.modules <+: after.modules)
    (hprogress : between.inProgress = before.inProgress) :
    Ordered before (roots ++ roots') after where
  reached i m hi hm := by
    by_cases hold : i < between.modules.length
    · obtain ⟨root, hroot, hpath⟩ :=
        h.reached i m hi (getElem?_of_extends_of_lt hextends hold hm)
      exact ⟨root, List.mem_append_left _ hroot,
        ReflTransGen.mono (Imports.mono hextends) _ _ hpath⟩
    · obtain ⟨root, hroot, hpath⟩ := h'.reached i m (Nat.le_of_not_lt hold) hm
      exact ⟨root, List.mem_append_right _ hroot, hpath⟩
  settled i m hi hm imported himported := by
    by_cases hold : i < between.modules.length
    · have hm' := getElem?_of_extends_of_lt hextends hold hm
      exact (h.settled i m hi hm' imported himported).imp_right fun hset => hset.mono hextends
    · rw [← hprogress]
      exact h'.settled i m (Nat.le_of_not_lt hold) hm imported himported

/-- A module is added after its imports. Its own key was in progress while these were
linked, and what imports it leads back to it now. -/
theorem Ordered.enclose (m : LinkedModule)
    (h : Ordered (before.start m.identity.key) m.imports between)
    (hanswered : ∀ imported ∈ m.imports,
      imported ∈ between.keys ∨ imported = m.identity.key ∨ imported ∈ before.inProgress) :
    Ordered before [m.identity.key] (between.finish m) := by
  have hextends : between.modules <+: (between.finish m).modules := List.prefix_append _ _
  have hlast : (between.finish m).modules[between.modules.length]? = some m :=
    (getElem?_finish _ _ _ _).2 (.inr ⟨rfl, rfl⟩)
  have hedge : ∀ imported ∈ m.imports,
      (between.finish m).Imports m.identity.key imported :=
    fun imported himported => ⟨m, List.mem_of_getElem? hlast, rfl, himported⟩
  have hinner : ∀ i n, before.modules.length ≤ i → between.modules[i]? = some n →
      TransGen (between.finish m).Imports m.identity.key n.identity.key := by
    intro i n hi hn
    obtain ⟨root, hroot, hpath⟩ := h.reached i n hi hn
    exact .head' (hedge root hroot) (ReflTransGen.mono (Imports.mono hextends) _ _ hpath)
  constructor
  · intro i n hi hn
    refine ⟨m.identity.key, List.mem_singleton_self _, ?_⟩
    rcases (getElem?_finish _ _ _ _).1 hn with hn | ⟨_, rfl⟩
    · exact (hinner i n hi hn).to_reflTransGen
    · exact .refl
  · intro i n hi hn imported himported
    rcases (getElem?_finish _ _ _ _).1 hn with hn | ⟨rfl, rfl⟩
    · rcases h.settled i n hi hn imported himported with hprogress | hsettled
      · rcases List.mem_cons.1 hprogress with rfl | hprogress
        · exact .inr ⟨_, m, hlast, rfl, .inr (hinner i n hi hn)⟩
        · exact .inl hprogress
      · exact .inr (hsettled.mono hextends)
    · rcases hanswered imported himported with hlinked | rfl | hprogress
      · obtain ⟨other, hother, hkey⟩ := List.mem_map.1 hlinked
        obtain ⟨j, hj⟩ := List.getElem?_of_mem hother
        have hlt : j < between.modules.length := (List.getElem?_eq_some_iff.1 hj).1
        exact .inr ⟨j, other, getElem?_of_extends hextends hj, hkey, .inl hlt⟩
      · exact .inr ⟨_, n, hlast, rfl, .inr (.single (hedge _ himported))⟩
      · exact .inl hprogress

theorem Links.ordered {referrer : Option Identity} {specifiers keys : List String}
    (h : Links resolver files before referrer specifiers keys after)
    (hbefore : before.Consistent) : Ordered before keys after := by
  induction h with
  | done linker referrer => exact .refl linker
  | seen linker referrer specifier rest loaded keys after hload hseen _ ih =>
    exact (ih hbefore).mono fun root hroot => List.mem_cons_of_mem _ hroot
  | linked linker referrer specifier rest loaded imports between keys after hload hnew himports
      hrest ihImports ihRest =>
    have hstart := hbefore.start loaded.identity.key hnew
    have hbetween := himports.consistent hstart
    have hprogress := himports.inProgress_eq
    have hkey : loaded.identity.key ∈ between.inProgress := by
      rw [hprogress]
      exact List.mem_cons_self
    have hanswered : ∀ imported ∈ imports, imported ∈ between.keys ∨
        imported = loaded.identity.key ∨ imported ∈ linker.inProgress := by
      intro imported himported
      rcases List.mem_append.1 (himports.mem_seen imported himported) with hlinked | hopen
      · exact .inl ((hbetween.mem_indexed_iff_mem_keys imported).1 hlinked)
      · rw [hprogress] at hopen
        exact .inr (List.mem_cons.1 hopen)
    have hfirst : Ordered linker [loaded.identity.key]
        (between.finish (linkedModule loaded (Source.outline loaded.text) imports)) :=
      Ordered.enclose (linkedModule loaded (Source.outline loaded.text) imports)
        (ihImports hstart) hanswered
    have hsame := inProgress_finish (linkedModule loaded (Source.outline loaded.text) imports)
      hprogress (not_mem_inProgress hnew)
    exact hfirst.append (ihRest (hbetween.finish _ hkey)) hrest.modules_extend hsame

/-- A call that succeeds on a linker with nothing in progress leaves nothing in progress.
It adds modules that its key leads to, each once, and all that they import is linked,
before them or on a cycle with them. -/
theorem evaluation_order (resolver : Resolver) (earlier : List Call) (call : Call) (key : String)
    (after : Linker) (hidle : (afterCalls resolver .empty earlier).inProgress = [])
    (hcall : call.answer resolver (afterCalls resolver .empty earlier) = (.ok key, after)) :
    after.inProgress = [] ∧ after.keys.Nodup ∧ key ∈ after.keys ∧
    ∃ added, after.modules = (afterCalls resolver .empty earlier).modules ++ added ∧
      (∀ m ∈ added, Faithful resolver call.files m) ∧
      ∀ i m, (afterCalls resolver .empty earlier).modules.length ≤ i →
        after.modules[i]? = some m →
        ReflTransGen after.Imports key m.identity.key ∧
        ∀ imported ∈ m.imports, (∃ n, after.get? imported = some n) ∧
          after.Settled i m.identity.key imported := by
  have hbefore := consistent_afterCalls resolver earlier
  have hlinks := Call.links hcall
  have hafter := hlinks.consistent hbefore
  have hnothing : after.inProgress = [] := hlinks.inProgress_eq.trans hidle
  have hordered := hlinks.ordered hbefore
  have hkey : key ∈ after.keys := by
    have hseen := hlinks.mem_seen key (List.mem_singleton_self key)
    rw [seen, hnothing, List.append_nil] at hseen
    exact (hafter.mem_indexed_iff_mem_keys key).1 hseen
  obtain ⟨added, hadded, hfaithful⟩ := hlinks.exists_added
  refine ⟨hnothing, hafter.keys_nodup, hkey, added, hadded, hfaithful, fun i m hi hm => ⟨?_, ?_⟩⟩
  · obtain ⟨root, hroot, hpath⟩ := hordered.reached i m hi hm
    obtain rfl : root = key := List.mem_singleton.1 hroot
    exact hpath
  · intro imported himported
    have hsettled : after.Settled i m.identity.key imported := by
      refine (hordered.settled i m hi hm imported himported).resolve_left ?_
      rw [hidle]
      exact List.not_mem_nil
    refine ⟨?_, hsettled⟩
    obtain ⟨j, n, hn, hnkey, _⟩ := hsettled
    exact ⟨n, (hafter.get?_eq_some_iff imported n).2 ⟨List.mem_of_getElem? hn, hnkey⟩⟩

end Runs

-- Two modules that import each other.
namespace MutualImports

def pingSource : Bytes := Utf8.encode "import './pong';\n"

def pongSource : Bytes := Utf8.encode "import './ping';\n"

def files : FileView
  | "./ping.js" => .ok (.file pingSource)
  | "./pong.js" => .ok (.file pongSource)
  | _ => .error .noSuchFile

def resolver : Resolver := ⟨{ searchPath := ⟨[]⟩ }, .empty, .none⟩

def ping : Loaded :=
  ⟨⟨"./ping", ".", .filesystem, none⟩, .filesystem, pingSource, some "./ping.js"⟩

def pong : Loaded :=
  ⟨⟨"./pong", ".", .filesystem, none⟩, .filesystem, pongSource, some "./pong.js"⟩

def pingLinked : LinkedModule := linkedModule ping (Source.outline ping.text) ["./pong"]

def pongLinked : LinkedModule := linkedModule pong (Source.outline pong.text) ["./ping"]

def linked : Linker := ⟨[pongLinked, pingLinked], [("./ping", 1), ("./pong", 0)], []⟩

theorem imports_ping : (Source.outline ping.text).staticSpecifiers = ["./pong"] := by
  show (Source.outline (Utf8.lossy pingSource)).staticSpecifiers = ["./pong"]
  cbv

theorem imports_pong : (Source.outline pong.text).staticSpecifiers = ["./ping"] := by
  show (Source.outline (Utf8.lossy pongSource)).staticSpecifiers = ["./ping"]
  cbv

/-- While the imports of the one are linked, the other one is added. -/
theorem linkFrom_pong :
    linkFrom resolver files ⟨[], [], ["./ping"]⟩ "./pong" (some ping.identity) =
      (.ok "./pong", ⟨[pongLinked], [("./pong", 0)], ["./ping"]⟩) := by
  have hpong : resolver.load files "./pong" (some ping.identity) = .ok pong := rfl
  have hping : resolver.load files "./ping" (some pong.identity) = .ok ping := rfl
  have himports : linkImports resolver files (start ⟨[], [], ["./ping"]⟩ pong.identity.key)
      ["./ping"] pong.identity = (.ok ["./ping"], ⟨[], [], ["./pong", "./ping"]⟩) := by
    rw [linkImports_cons, linkFrom_seen resolver files _ "./ping" _ ping hping (by decide)]
    simp only [linkImports_nil]
    rfl
  rw [linkFrom_new resolver files _ "./pong" _ pong hpong (by decide), imports_pong, himports]
  rfl

theorem answer_ping : Call.answer ⟨files, "./ping", none⟩ resolver
    (afterCalls resolver .empty []) = (.ok "./ping", linked) := by
  have hping : resolver.load files "./ping" none = .ok ping := rfl
  have himports : linkImports resolver files (start (afterCalls resolver .empty [])
      ping.identity.key) ["./pong"] ping.identity =
      (.ok ["./pong"], ⟨[pongLinked], [("./pong", 0)], ["./ping"]⟩) := by
    rw [linkImports_cons, show start (afterCalls resolver .empty []) ping.identity.key =
      ⟨[], [], ["./ping"]⟩ from rfl, linkFrom_pong]
    simp only [linkImports_nil]
    rfl
  rw [Call.answer_eq, linkFrom_new resolver files _ "./ping" none ping hping (by decide),
    imports_ping, himports]
  rfl

end MutualImports

open MutualImports in
/-- The module that is added first imports the one that stands after it, on a cycle. -/
theorem evaluation_order_cycle :
    (afterCalls resolver .empty []).inProgress = [] ∧
      Call.answer ⟨files, "./ping", none⟩ resolver (afterCalls resolver .empty []) =
        (.ok "./ping", linked) ∧
      linked.keys = ["./pong", "./ping"] ∧ linked.inProgress = [] ∧
      linked.Settled 0 "./pong" "./ping" := by
  obtain ⟨hnothing, _, _, added, _, _, hordered⟩ :=
    evaluation_order resolver [] ⟨files, "./ping", none⟩ "./ping" linked rfl answer_ping
  obtain ⟨_, himports⟩ := hordered 0 pongLinked (Nat.zero_le 0) rfl
  exact ⟨rfl, answer_ping, rfl, hnothing, (himports "./ping" List.mem_cons_self).2⟩

end Linker

end ModuleLoading
