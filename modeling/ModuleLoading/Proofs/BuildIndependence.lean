import Mathlib
import ModuleLoading.Proofs.ImageRecognition
import ModuleLoading.Proofs.Repacking

/-!
What is built does not depend on what the building program carries. Two programs are run
that differ in the table on their images, and perhaps in the place that they run from. The
one command resolves without that table, and the other takes it off before it writes, so
neither a graph nor an executable shows which of the two has made it.
-/
namespace ModuleLoading

/-- Commands that build. The executable that is to be written is neither of the two programs
that run. -/
inductive Builds (tree : FileTree) (running running' : Option Place) : Option Command → Prop
  | dependencies (entries forced : List String) (json : Bool) :
    Builds tree running running' (some (.dependencies entries forced json))
  | pack (entries forced : List String) (output : Bytes) (runtime : Option Bytes)
      (hother : ∀ place, tree.destination output = .ok place →
        running ≠ some place ∧ running' ≠ some place) :
    Builds tree running running' (some (.pack entries forced output runtime))

/-- A table is packed alike onto images that are the same without theirs. -/
theorem Table.emit_congr (table : Table) {system system' : System} {image image' out : Bytes}
    (hstrip : strip image = strip image') (hrefusal : system.refusal out = system'.refusal out) :
    table.emit system image out = table.emit system' image' out := by
  unfold emit packOnto
  rw [hstrip, hrefusal]

theorem Table.pack_congr (table : Table) {system system' : System} {image image' out : Bytes}
    (hstrip : strip image = strip image') (hrefusal : system.refusal out = system'.refusal out)
    (hfixed : system.fixed out = system'.fixed out) :
    table.pack system image out = table.pack system' image' out := by
  unfold pack System.makeExecutable
  rw [table.emit_congr hstrip hrefusal, hfixed]

/-- Packing asks a system what stands at some paths and what is in the way of the output, and
an image for what it is without its table. -/
theorem Command.runPack_congr {system system' : System} {image image' output : Bytes}
    (hlook : system.look = system'.look) (hstrip : Table.strip image = Table.strip image')
    (hrefusal : system.refusal output = system'.refusal output)
    (hfixed : system.fixed output = system'.fixed output) (settings : Settings)
    (entries forced : List String) (runtime : Option Bytes) :
    runPack system settings image entries forced output runtime =
      runPack system' settings image' entries forced output runtime := by
  have hfiles : system.files = system'.files := by
    unfold System.files
    rw [hlook]
  have hread : system.read = system'.read := by
    unfold System.read
    rw [hlook]
  unfold runPack
  rw [hfiles]
  cases Table.build (buildResolver settings) system'.files entries forced with
  | error e => rfl
  | ok table =>
    cases runtime with
    | none =>
      simp only [runtimeImage, table.pack_congr hstrip hrefusal hfixed,
        table.emit_congr hstrip hrefusal]
    | some path =>
      simp only [runtimeImage, hread]
      cases system'.read path with
      | error e => rfl
      | ok named =>
        simp only [table.pack_congr rfl hrefusal hfixed, table.emit_congr rfl hrefusal]

section

variable {tree : FileTree} {running running' : Option Place}
  (denied fixed : Place → Option OsError)

theorem refusal_eq_of_other {path : Bytes}
    (hother : ∀ place, tree.destination path = .ok place →
      running ≠ some place ∧ running' ≠ some place) :
    (System.guarded tree ⟨running, denied, fixed⟩).refusal path =
      (System.guarded tree ⟨running', denied, fixed⟩).refusal path := by
  unfold System.guarded FileTree.obstacle? Guard.refusal?
  cases hplace : tree.destination path with
  | error e => simp only [hplace]
  | ok place =>
    obtain ⟨hfirst, hsecond⟩ := hother place hplace
    simp only [hplace, if_neg hfirst, if_neg hsecond]

/-- A command that builds does not look at the table of the program that runs it. -/
theorem Command.run_eq_of_builds {command : Option Command}
    (h : Builds tree running running' command) (settings : Settings) {image image' : Bytes}
    (table table' : Table) (hstrip : Table.strip image = Table.strip image') :
    run (.guarded tree ⟨running, denied, fixed⟩) settings image table command =
      run (.guarded tree ⟨running', denied, fixed⟩) settings image' table' command := by
  cases h with
  | dependencies entries forced json => rfl
  | pack entries forced output runtime hother =>
    have hlook : (System.guarded tree ⟨running, denied, fixed⟩).look =
        (System.guarded tree ⟨running', denied, fixed⟩).look := rfl
    have hrefusal := refusal_eq_of_other denied fixed hother
    exact runPack_congr hlook hstrip hrefusal rfl settings entries forced runtime

end

/-- A program without a table and the same program with any table on it build the same: the
run ends with the same exit code, output and errors, and leaves the same files. -/
theorem building_ignores_own_table (words : List Bytes) (searchPath : Option Bytes)
    (tree : FileTree) (denied fixed : Place → Option OsError) (running running' : Option Place)
    (base sealed : Bytes) (t : Table) (hplain : ¬ Table.closingMagic <:+ base)
    (ht : t.Packable) (hsealed : t.sealed = .ok sealed)
    (hbuilds : ∀ arguments, Arguments.ofWords? words = some arguments →
      Builds tree running running' arguments.command) :
    (Invocation.mk words searchPath base).perform ⟨running, denied, fixed⟩ tree =
      (Invocation.mk words searchPath (base ++ sealed)).perform ⟨running', denied, fixed⟩ tree := by
  have hnone := (Table.isSealed_eq_false_iff base).2 (.inr hplain)
  obtain ⟨sealed', hsealed', hread⟩ := ht.sealed_eq
  obtain rfl : sealed' = sealed := Except.ok.inj (hsealed'.symm.trans hsealed)
  have hstrip : Table.strip base = Table.strip (base ++ sealed') := by
    rw [Table.strip_of_plain hnone, (hread base).2]
  have hfirst : (Invocation.mk words searchPath base).table = .ok .empty := by
    simp only [Invocation.table, Table.ofImage_of_plain hnone, Option.getD_none]
  have hsecond : (Invocation.mk words searchPath (base ++ sealed')).table = .ok t := by
    simp only [Invocation.table, (hread base).1, Option.getD_some]
  rw [Invocation.perform_eq_ending, Invocation.perform_eq_ending]
  unfold Invocation.run
  cases hwords : Arguments.ofWords? words with
  | none => rfl
  | some arguments =>
    have hrun := Command.run_eq_of_builds denied fixed (hbuilds arguments hwords)
      (Invocation.settings ⟨words, searchPath, base⟩ arguments) .empty t hstrip
    simp only [Invocation.runWith, hfirst, hsecond]
    rw [hrun]
    rfl

namespace PackedBuilder

def words : List Bytes := ["compile", "./m", "-o", "out"].map Utf8.encode

/-- One program stands beside the sources and the other one elsewhere. -/
def tree : FileTree := ⟨[([Utf8.encode "m.js"], .file []), ([Utf8.encode "app"], .file [7])], []⟩

/-- The builder carries another module under the key of the one that is built. -/
def t : Table := Table.empty.insert ⟨"./m", ".", .filesystem, [1]⟩

theorem building_ignores_shadowing_table :
    ¬ Table.closingMagic <:+ [7] ∧ t.contains "./m" = true ∧
      (Invocation.mk words none [7]).perform
          ⟨some [Utf8.encode "app"], fun _ => none, fun _ => none⟩ tree =
        (Invocation.mk words none ([7] ++ Table.sealPayload t.payload)).perform
          ⟨none, fun _ => none, fun _ => none⟩ tree := by
  have hplain : ¬ Table.closingMagic <:+ [7] := by decide
  have hcontains : t.contains "./m" = true := by decide
  have hwords : Arguments.ofWords? words =
      some ⟨none, true, some (.pack ["./m"] [] (Utf8.encode "out") none)⟩ := by cbv
  have hplace : tree.destination (Utf8.encode "out") = .ok [Utf8.encode "out"] := by decide
  refine ⟨hplain, hcontains, building_ignores_own_table words none tree (fun _ => none)
    (fun _ => none) _ _ [7] (Table.sealPayload t.payload) t hplain
    ⟨t.payload, by decide, by decide⟩ rfl ?_⟩
  intro arguments harguments
  obtain rfl := Option.some.inj (hwords.symm.trans harguments)
  refine .pack ["./m"] [] (Utf8.encode "out") none ?_
  intro place hfound
  obtain rfl := Except.ok.inj (hplace.symm.trans hfound)
  decide

end PackedBuilder

end ModuleLoading
