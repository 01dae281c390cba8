import Mathlib
import ModuleLoading.Proofs.LinkingRuns

/-!
A linker lives through many calls. Each call finds the files as they stand then, and
some fail. Whatever has come of the calls so far, the parts of the linker agree, modules
stay where they are, and a call that has succeeded answers the same ever after. A call
that fails abandons the modules of its chain: they stay in progress, so that later calls
are answered with their keys although they are never linked.
-/
namespace ModuleLoading

namespace Linker

/-- A module to be linked, and the files at that time. The referrer is the module that
imports it at run time; an entry has none. -/
structure Call where
  files : FileView
  specifier : String
  referrer : Option Identity

/-- What a call answers, with the linker it leaves behind. -/
def Call.answer (call : Call) (resolver : Resolver) (linker : Linker) :
    Except LoadError String × Linker :=
  match call.referrer with
  | none => linker.linkEntry resolver call.files call.specifier
  | some referrer => linker.importDynamic resolver call.files call.specifier referrer

def afterCalls (resolver : Resolver) (linker : Linker) (calls : List Call) : Linker :=
  calls.foldl (fun linker call => (call.answer resolver linker).2) linker

section Calls

variable {resolver : Resolver} {before after : Linker} {call : Call} {key : String}

theorem Call.answer_eq (call : Call) (resolver : Resolver) (linker : Linker) :
    call.answer resolver linker =
      linkFrom resolver call.files linker call.specifier call.referrer := by
  obtain ⟨files, specifier, referrer⟩ := call
  cases referrer with
  | none => rfl
  | some referrer => rfl

theorem Call.links (h : call.answer resolver before = (.ok key, after)) :
    Links resolver call.files before call.referrer [call.specifier] [key] after :=
  links_of_linkFrom ((call.answer_eq resolver before).symm.trans h)

theorem Call.fails {e : LoadError} (h : call.answer resolver before = (.error e, after)) :
    ∃ chain, Fails resolver call.files before call.referrer [call.specifier] e chain after :=
  fails_of_linkFrom ((call.answer_eq resolver before).symm.trans h)

theorem afterCalls_concat (resolver : Resolver) (linker : Linker) (calls : List Call)
    (call : Call) :
    afterCalls resolver linker (calls ++ [call]) =
      (call.answer resolver (afterCalls resolver linker calls)).2 := by
  rw [afterCalls, List.foldl_append]
  rfl

theorem seen_afterCalls (resolver : Resolver) (linker : Linker) (calls : List Call) :
    ∀ key ∈ linker.seen, key ∈ (afterCalls resolver linker calls).seen := by
  induction calls generalizing linker with
  | nil => exact fun key hkey => hkey
  | cons call rest ih =>
    intro key hkey
    refine ih _ key ?_
    show key ∈ (call.answer resolver linker).2.seen
    rw [call.answer_eq]
    exact seen_linkFrom resolver call.files linker call.specifier call.referrer key hkey

/-- What a call keeps, whatever its outcome. -/
theorem Call.keeps (call : Call) (resolver : Resolver) (hbefore : before.Consistent) :
    (call.answer resolver before).2.Consistent ∧
      before.modules <+: (call.answer resolver before).2.modules := by
  rcases hanswer : call.answer resolver before with ⟨outcome, after⟩
  cases outcome with
  | error e =>
    obtain ⟨chain, hfails⟩ := Call.fails hanswer
    exact ⟨hfails.consistent hbefore, hfails.modules_extend⟩
  | ok key =>
    have hlinks := Call.links hanswer
    exact ⟨hlinks.consistent hbefore, hlinks.modules_extend⟩

theorem consistent_afterCalls (resolver : Resolver) (calls : List Call) :
    (afterCalls resolver .empty calls).Consistent := by
  induction calls using List.reverseRecOn with
  | nil => exact .empty
  | append_singleton calls call ih =>
    rw [afterCalls_concat]
    exact (call.keeps resolver ih).1

/-- The answer of a call that succeeds is the key of what it loads, which is seen from
then on. -/
theorem Call.loaded_of_ok (h : call.answer resolver before = (.ok key, after)) :
    ∃ loaded, resolver.load call.files call.specifier call.referrer = .ok loaded ∧
      loaded.identity.key = key ∧ key ∈ after.seen := by
  have hlinks := Call.links h
  cases hlinks.answers with
  | cons hloaded _ =>
    obtain ⟨loaded, hload, hkey⟩ := hloaded
    exact ⟨loaded, hload, hkey, hlinks.mem_seen key (List.mem_singleton_self key)⟩

theorem Call.answer_of_seen {loaded : Loaded}
    (hload : resolver.load call.files call.specifier call.referrer = .ok loaded)
    (hseen : loaded.identity.key ∈ before.seen) :
    call.answer resolver before = (.ok loaded.identity.key, before) := by
  rw [call.answer_eq]
  exact linkFrom_seen resolver call.files before call.specifier call.referrer loaded hload hseen

/-- Over any calls the parts of a linker agree; a call adds modules at the end only; and
one that has succeeded, made again over the same files, answers the same and changes
nothing, whatever was called in between. -/
theorem consistent_of_calls (resolver : Resolver) (earlier : List Call) (call : Call) :
    (afterCalls resolver .empty earlier).Consistent ∧
    (∃ added, (call.answer resolver (afterCalls resolver .empty earlier)).2.modules =
      (afterCalls resolver .empty earlier).modules ++ added) ∧
    (∀ key i, (afterCalls resolver .empty earlier).position? key = some i →
      (call.answer resolver (afterCalls resolver .empty earlier)).2.position? key = some i) ∧
    ∀ key after, call.answer resolver (afterCalls resolver .empty earlier) = (.ok key, after) →
      (∃ loaded, resolver.load call.files call.specifier call.referrer = .ok loaded ∧
        loaded.identity.key = key) ∧
      ∀ later, call.answer resolver (afterCalls resolver after later) =
        (.ok key, afterCalls resolver after later) := by
  have hbefore := consistent_afterCalls resolver earlier
  obtain ⟨hafter, hextends⟩ := call.keeps resolver hbefore
  refine ⟨hbefore, ?_, fun key i => hbefore.position?_of_extends hafter hextends key i, ?_⟩
  · obtain ⟨added, hadded⟩ := hextends
    exact ⟨added, hadded.symm⟩
  · intro key after hanswer
    obtain ⟨loaded, hload, rfl, hseen⟩ := Call.loaded_of_ok hanswer
    refine ⟨⟨loaded, hload, rfl⟩, fun later => ?_⟩
    exact Call.answer_of_seen hload (seen_afterCalls resolver after later _ hseen)

/-- The call fails below the module of the key: the key is on the chain of imports to
what cannot be loaded. -/
def Call.Abandons (call : Call) (resolver : Resolver) (before : Linker) (key : String) : Prop :=
  ∃ e after chain, call.answer resolver before = (.error e, after) ∧
    Fails resolver call.files before call.referrer [call.specifier] e chain after ∧ key ∈ chain

/-- One of the calls has failed below the module of the key. -/
def Abandoned (resolver : Resolver) (calls : List Call) (key : String) : Prop :=
  ∃ earlier call, earlier ++ [call] <+: calls ∧
    call.Abandons resolver (afterCalls resolver .empty earlier) key

theorem mem_inProgress_answer_iff (call : Call) (resolver : Resolver) (before : Linker)
    (key : String) :
    key ∈ (call.answer resolver before).2.inProgress ↔
      call.Abandons resolver before key ∨ key ∈ before.inProgress := by
  rcases hanswer : call.answer resolver before with ⟨outcome, after⟩
  cases outcome with
  | error e =>
    constructor
    · intro hkey
      obtain ⟨chain, hfails⟩ := Call.fails hanswer
      rw [hfails.inProgress_eq, List.mem_append, List.mem_reverse] at hkey
      exact hkey.imp_left fun hchain => ⟨e, after, chain, hanswer, hfails, hchain⟩
    · rintro (⟨e', after', chain, hfailed, hfails, hkey⟩ | hkey)
      · obtain rfl : after = after' := congrArg Prod.snd (hanswer.symm.trans hfailed)
        rw [hfails.inProgress_eq]
        exact List.mem_append_left _ (List.mem_reverse.2 hkey)
      · obtain ⟨chain, hfails⟩ := Call.fails hanswer
        rw [hfails.inProgress_eq]
        exact List.mem_append_right _ hkey
  | ok answer =>
    have hnot : ¬ call.Abandons resolver before key := by
      rintro ⟨e, after', chain, hfailed, _⟩
      rw [hanswer] at hfailed
      cases hfailed
    simp [(Call.links hanswer).inProgress_eq, hnot]

theorem abandoned_concat_iff (resolver : Resolver) (calls : List Call) (call : Call)
    (key : String) :
    Abandoned resolver (calls ++ [call]) key ↔
      call.Abandons resolver (afterCalls resolver .empty calls) key ∨
        Abandoned resolver calls key := by
  constructor
  · rintro ⟨earlier, failed, hextends, habandons⟩
    rcases List.prefix_concat_iff.1 hextends with hsame | hearlier
    · obtain ⟨rfl, hcall⟩ := List.append_inj' hsame rfl
      obtain rfl : failed = call := List.singleton_inj.1 hcall
      exact .inl habandons
    · exact .inr ⟨earlier, failed, hearlier, habandons⟩
  · rintro (habandons | ⟨earlier, failed, hextends, habandons⟩)
    · exact ⟨calls, call, List.prefix_refl _, habandons⟩
    · exact ⟨earlier, failed, hextends.trans (List.prefix_append _ _), habandons⟩

/-- What is in progress between calls is what they have abandoned. -/
theorem mem_inProgress_afterCalls_iff (resolver : Resolver) (calls : List Call) (key : String) :
    key ∈ (afterCalls resolver .empty calls).inProgress ↔ Abandoned resolver calls key := by
  induction calls using List.reverseRecOn with
  | nil =>
    refine iff_of_false List.not_mem_nil ?_
    rintro ⟨earlier, call, hextends, _⟩
    simp at hextends
  | append_singleton calls call ih =>
    rw [afterCalls_concat, mem_inProgress_answer_iff, abandoned_concat_iff, ih]

/-- A call that reports success has linked its module, unless an earlier call has
abandoned that module; then it changes nothing, and the module is not linked. -/
theorem linked_iff_not_abandoned (resolver : Resolver) (earlier : List Call) (call : Call)
    (key : String) (after : Linker)
    (hcall : call.answer resolver (afterCalls resolver .empty earlier) = (.ok key, after)) :
    ((∃ m, after.get? key = some m ∧ m.identity.key = key) ↔ ¬ Abandoned resolver earlier key) ∧
      (Abandoned resolver earlier key →
        after = afterCalls resolver .empty earlier ∧ after.get? key = none) := by
  have hbefore := consistent_afterCalls resolver earlier
  have hlinks := Call.links hcall
  have hafter := hlinks.consistent hbefore
  obtain ⟨loaded, hload, rfl, hseen⟩ := Call.loaded_of_ok hcall
  rw [← mem_inProgress_afterCalls_iff, ← hlinks.inProgress_eq]
  have hnone : loaded.identity.key ∈ after.inProgress → after.get? loaded.identity.key = none :=
    fun hprogress => by rw [get?, hafter.apart _ hprogress]; rfl
  refine ⟨⟨?_, fun hnot => ?_⟩, fun hprogress => ⟨?_, hnone hprogress⟩⟩
  · rintro ⟨m, hm, _⟩ hprogress
    rw [hnone hprogress] at hm
    cases hm
  · have hindexed := (List.mem_append.1 hseen).resolve_right hnot
    obtain ⟨m, hm, hkey⟩ := List.mem_map.1 ((hafter.mem_indexed_iff_mem_keys _).1 hindexed)
    exact ⟨m, (hafter.get?_eq_some_iff _ m).2 ⟨hm, hkey⟩, hkey⟩
  · rw [hlinks.inProgress_eq] at hprogress
    have hagain := Call.answer_of_seen hload (List.mem_append_right _ hprogress)
    exact congrArg Prod.snd (hcall.symm.trans hagain)

end Calls

-- A module whose import cannot be found at first.
namespace InterruptedLink

def source : Bytes := Utf8.encode "import './part';\n"

def partSource : Bytes := Utf8.encode "export default 1;\n"

def incomplete : FileView
  | "./main.js" => .ok (.file source)
  | _ => .error .noSuchFile

def complete : FileView
  | "./main.js" => .ok (.file source)
  | "./part.js" => .ok (.file partSource)
  | _ => .error .noSuchFile

def resolver : Resolver := ⟨{ searchPath := ⟨[]⟩ }, .empty, .none⟩

def main : Loaded := ⟨⟨"./main", ".", .filesystem, none⟩, .filesystem, source, some "./main.js"⟩

def part : Loaded :=
  ⟨⟨"./part", ".", .filesystem, none⟩, .filesystem, partSource, some "./part.js"⟩

theorem imports_main : (Source.outline main.text).staticSpecifiers = ["./part"] := by
  show (Source.outline (Utf8.lossy source)).staticSpecifiers = ["./part"]
  cbv

theorem imports_part : (Source.outline part.text).staticSpecifiers = [] := by
  show (Source.outline (Utf8.lossy partSource)).staticSpecifiers = []
  cbv

def interrupted : Linker := ⟨[], [], ["./main"]⟩

/-- The first call fails and leaves its module in progress. -/
theorem answer_first : Call.answer ⟨incomplete, "./main", none⟩ resolver .empty =
    (.error (.notFound "./part"), interrupted) := by
  have hpart : resolver.load incomplete "./part" (some main.identity) =
      .error (.notFound "./part") := rfl
  have himports : linkImports resolver incomplete (Linker.empty.start main.identity.key)
      ["./part"] main.identity = (.error (.notFound "./part"), interrupted) := by
    rw [linkImports_cons, linkFrom_unloaded resolver incomplete _ "./part" _ _ hpart]
    rfl
  have hmain : resolver.load incomplete "./main" none = .ok main := rfl
  rw [Call.answer_eq, linkFrom_new resolver incomplete .empty "./main" none main hmain
    (by decide), imports_main, himports]

theorem afterCalls_first :
    afterCalls resolver .empty [⟨incomplete, "./main", none⟩] = interrupted := by
  show (Call.answer ⟨incomplete, "./main", none⟩ resolver .empty).2 = interrupted
  rw [answer_first]

/-- The second call finds all files and reports the key of a module that is not linked. -/
theorem reported_without_module :
    Call.answer ⟨complete, "./main", none⟩ resolver
        (afterCalls resolver .empty [⟨incomplete, "./main", none⟩]) =
      (.ok "./main", interrupted) ∧ interrupted.get? "./main" = none := by
  have hmain : resolver.load complete "./main" none = .ok main := rfl
  have hseen : main.identity.key ∈ interrupted.seen := by decide
  rw [afterCalls_first]
  exact ⟨Call.answer_of_seen hmain hseen, rfl⟩

def partLinked : LinkedModule := linkedModule part (Source.outline part.text) []

def recovered : Linker := ⟨[partLinked], [("./part", 0)], ["./main"]⟩

theorem answer_part : Call.answer ⟨complete, "./part", none⟩ resolver
    (afterCalls resolver .empty [⟨incomplete, "./main", none⟩]) = (.ok "./part", recovered) := by
  have hpart : resolver.load complete "./part" none = .ok part := rfl
  rw [afterCalls_first, Call.answer_eq, linkFrom_new resolver complete interrupted "./part" none
    part hpart (by decide), imports_part, linkImports_nil]
  rfl

end InterruptedLink

open InterruptedLink in
/-- After the first call another module can still be linked. -/
theorem linked_iff_not_abandoned_sample :
    Call.answer ⟨complete, "./part", none⟩ resolver
        (afterCalls resolver .empty [⟨incomplete, "./main", none⟩]) = (.ok "./part", recovered) ∧
      ((∃ m, recovered.get? "./part" = some m ∧ m.identity.key = "./part") ↔
        ¬ Abandoned resolver [⟨incomplete, "./main", none⟩] "./part") ∧
      (Abandoned resolver [⟨incomplete, "./main", none⟩] "./part" →
        recovered = afterCalls resolver .empty [⟨incomplete, "./main", none⟩] ∧
          recovered.get? "./part" = none) :=
  ⟨answer_part, linked_iff_not_abandoned resolver [⟨incomplete, "./main", none⟩]
    ⟨complete, "./part", none⟩ "./part" recovered answer_part⟩

end Linker

end ModuleLoading
