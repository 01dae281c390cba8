import ModuleLoading.Command.Run
import ModuleLoading.Proofs.WrittenFiles

/-!
A run taken step by step. Each step asks the system as the steps before it left it, and
either goes on or fails; what was changed until then stays changed. An executable is
written in the order in which its parts are had: the image is read, its old table taken
off and the new one encoded before the file is made, then the file is written part by part,
and at last it is made executable. The account of a run in one piece, which tells the file
that is written from what is answered, is what these steps come to.
-/
namespace ModuleLoading

theorem System.refusal_eq_none_iff (tree : FileTree) (guard : Guard) (path : Bytes) :
    (guarded tree guard).refusal path = none ↔
      ∃ place, tree.destination path = .ok place ∧ guard.refusal? place = none :=
  tree.obstacle?_eq_none_iff guard.refusal? path

/-- A part of a run. Whether it fails or not, it leaves a tree behind. -/
abbrev Step (ε α : Type) := ExceptT ε (StateM FileTree) α

namespace Step

variable {ε α β : Type} (guard : Guard)

def startingAt (tree : FileTree) (step : Step ε α) : Except ε α × FileTree :=
  (ExceptT.run step).run tree

/-- Learns something of the system as it is now and changes nothing. -/
def ask (question : System → Except ε α) : Step ε α :=
  ExceptT.mk fun tree => (question (.guarded tree guard), tree)

/-- Makes the file at a path, or empties it. -/
def create (path : Bytes) : Step LoadError Place :=
  ExceptT.mk fun tree =>
    match tree.destination path with
    | .error e => (.error (.fileSystem e), tree)
    | .ok place =>
      match guard.refusal? place with
      | some e => (.error (.fileSystem e), tree)
      | none => (.ok place, tree.writeAt place [])

/-- Writes to the end of an open file. -/
def append (place : Place) (bytes : Bytes) : Step LoadError Unit :=
  ExceptT.mk fun tree => (.ok (), tree.appendAt place bytes)

/-- Makes a file and writes it in two parts. -/
def writeParts (path first second : Bytes) : Step LoadError Unit := do
  let place ← create guard path
  append place first
  append place second

/-- A tree knows contents only, so that nothing is changed in it. -/
def makeExecutable (path : Bytes) : Step LoadError Unit :=
  ask guard fun system => system.makeExecutable path

/-- Fails the same way with another error. -/
def mapError {ε' : Type} (change : ε → ε') (step : Step ε α) : Step ε' α :=
  ExceptT.mk fun tree => ((step.startingAt tree).1.mapError change, (step.startingAt tree).2)

theorem startingAt_pure (tree : FileTree) (a : α) :
    (pure a : Step ε α).startingAt tree = (.ok a, tree) := rfl

theorem startingAt_bind (tree : FileTree) (step : Step ε α) (next : α → Step ε β) :
    (step >>= next).startingAt tree =
      match step.startingAt tree with
      | (.ok a, after) => (next a).startingAt after
      | (.error e, after) => (.error e, after) := by
  unfold startingAt ExceptT.run StateT.run
  simp only [bind, ExceptT.bind, ExceptT.mk, StateT.bind, ExceptT.bindCont]
  cases step tree with
  | mk result after =>
    cases result with
    | ok a => rfl
    | error e => rfl

theorem startingAt_ask (tree : FileTree) (question : System → Except ε α) :
    (ask guard question).startingAt tree = (question (.guarded tree guard), tree) := rfl

theorem startingAt_mapError {ε' : Type} (tree : FileTree) (change : ε → ε') (step : Step ε α) :
    (step.mapError change).startingAt tree =
      match step.startingAt tree with
      | (.ok a, after) => (.ok a, after)
      | (.error e, after) => (.error (change e), after) := by
  show ((step.startingAt tree).1.mapError change, (step.startingAt tree).2) = _
  cases step.startingAt tree with
  | mk result after =>
    cases result with
    | ok a => rfl
    | error e => rfl

theorem startingAt_create (tree : FileTree) (path : Bytes) :
    (create guard path).startingAt tree =
      match tree.destination path with
      | .error e => (.error (.fileSystem e), tree)
      | .ok place =>
        match guard.refusal? place with
        | some e => (.error (.fileSystem e), tree)
        | none => (.ok place, tree.writeAt place []) := rfl

theorem startingAt_append (tree : FileTree) (place : Place) (bytes : Bytes) :
    (append place bytes).startingAt tree = (.ok (), tree.appendAt place bytes) := rfl

/-- After a file was written it can be made executable if it could be before. -/
theorem startingAt_makeExecutable {tree : FileTree} {path : Bytes} {place : Place}
    (h : tree.destination path = .ok place) (content : Bytes) :
    (makeExecutable guard path).startingAt (tree.write ⟨path, content⟩) =
      ((System.guarded tree guard).makeExecutable path, tree.write ⟨path, content⟩) := by
  have hfixed : (System.guarded (tree.write ⟨path, content⟩) guard).fixed path =
      (System.guarded tree guard).fixed path := FileTree.obstacle?_write h guard.fixed content
  rw [makeExecutable, startingAt_ask, System.makeExecutable, hfixed, System.makeExecutable]

/-- A file written in two parts is the file written at once. -/
theorem startingAt_writeParts (tree : FileTree) (path first second : Bytes) :
    (writeParts guard path first second).startingAt tree =
      match (System.guarded tree guard).refusal path with
      | some e => (.error (.fileSystem e), tree)
      | none => (.ok (), tree.write ⟨path, first ++ second⟩) := by
  rw [writeParts, startingAt_bind, startingAt_create]
  simp only [System.guarded, FileTree.obstacle?, FileTree.write]
  cases hplace : tree.destination path with
  | error e => rfl
  | ok place =>
    cases hguard : guard.refusal? place with
    | some e => simp only [hguard]
    | none =>
      have hne := (FileTree.leadsTo_of_destination hplace).leaf.ne_nil
      simp only [hguard, startingAt_bind, startingAt_append,
        FileTree.appendAt_writeAt _ _ _ _ hne, List.nil_append]

end Step

/-- Writes the image of a runtime with the table in place of any that it carries. Answers the
size of what was written. -/
def Table.writeExecutable (table : Table) (guard : Guard)
    (runtime : System → Except LoadError Bytes) (out : Bytes) : Step LoadError Nat := do
  let image ← Step.ask guard runtime
  let base ← Step.ask guard fun _ => Table.strip image
  let sealed ← Step.ask guard fun _ => table.sealed
  Step.writeParts guard out base sealed
  Step.makeExecutable guard out
  return base.length + sealed.length

/-- What fails before the file is made leaves the tree as it was, and what fails after that
leaves the file. -/
theorem Table.startingAt_writeExecutable (table : Table) (guard : Guard)
    (runtime : System → Except LoadError Bytes) (out : Bytes) (tree : FileTree) :
    (table.writeExecutable guard runtime out).startingAt tree =
      match runtime (.guarded tree guard) with
      | .error e => (.error e, tree)
      | .ok image =>
        match table.emit (.guarded tree guard) image out with
        | .error e => (.error e, tree)
        | .ok written =>
          ((table.pack (.guarded tree guard) image out).map fun packed => packed.content.length,
            tree.write written) := by
  rw [writeExecutable, Step.startingAt_bind, Step.startingAt_ask]
  cases runtime (.guarded tree guard) with
  | error e => rfl
  | ok image =>
    simp only [Step.startingAt_bind, Step.startingAt_ask, pack, emit, packOnto]
    cases Table.strip image with
    | error e => rfl
    | ok base =>
      cases table.sealed with
      | error e => rfl
      | ok sealed =>
        simp only [bind, Except.bind, pure, Except.pure, Step.startingAt_writeParts]
        cases hrefusal : (System.guarded tree guard).refusal out with
        | some e => rfl
        | none =>
          obtain ⟨place, hplace, _⟩ := (System.refusal_eq_none_iff tree guard out).1 hrefusal
          have hlength : (base ++ sealed).length = base.length + sealed.length :=
            List.length_append
          simp only [Step.startingAt_makeExecutable guard hplace]
          cases (System.guarded tree guard).makeExecutable out with
          | error e => rfl
          | ok _ => simp only [Except.map, hlength]; rfl

theorem Table.emit_eq_ok_iff (table : Table) (system : System) (image out : Bytes)
    (written : Written) :
    table.emit system image out = .ok written ↔
      ∃ base sealed, strip image = .ok base ∧ table.sealed = .ok sealed ∧
        system.refusal out = none ∧ written = ⟨out, base ++ sealed⟩ := by
  unfold emit packOnto
  cases strip image with
  | error e => simp [bind, Except.bind]
  | ok base =>
    cases table.sealed with
    | error e => simp [bind, Except.bind]
    | ok sealed =>
      cases system.refusal out with
      | some e => simp [bind, Except.bind, pure, Except.pure]
      | none => simp [bind, Except.bind, pure, Except.pure, eq_comm]

/-- The steps of a command. Only packing writes; the other commands learn what there is to
learn and print it. -/
def Command.steps (guard : Guard) (settings : Settings) (image : Bytes) (table : Table) :
    Option Command → Step Failure Bytes
  | some (pack entries forced output runtime) => do
    let table ← Step.mapError Failure.inCommand <| Step.ask guard fun system =>
      Table.build (buildResolver settings) system.files entries forced
    -- What is left behind is in the tree already.
    let size ← Step.mapError (Failure.writing output · none)
      (table.writeExecutable guard (fun system => runtimeImage system image runtime) output)
    return Utf8.encode (Report.packed table.keys (Utf8.lossy output) size)
  | command => Step.ask guard fun system =>
    (run system settings image table command).map Answer.output

/-- The table of the running image is read before a command is looked at. -/
def Invocation.steps (invocation : Invocation) (guard : Guard) (arguments : Arguments) :
    Step Failure Bytes := do
  let table ← Step.ask guard fun _ => invocation.table
  Command.steps guard (invocation.settings arguments) invocation.image table arguments.command

/-- What is seen of a run when it has ended, and the tree that it leaves. -/
structure Ending where
  exitCode : Nat
  output : Bytes
  errors : Bytes
  tree : FileTree
  deriving Repr, DecidableEq

def Ending.ofResult : Except Failure Bytes × FileTree → Ending
  | (.ok output, after) => ⟨0, output, [], after⟩
  | (.error failure, after) => ⟨1, [], Utf8.encode (Report.failure failure.message), after⟩

def Outcome.ending (outcome : Outcome) (tree : FileTree) : Ending :=
  ⟨outcome.exitCode, outcome.output, outcome.errors, outcome.apply tree⟩

/-- The program from its start to its end. -/
def Invocation.perform (invocation : Invocation) (guard : Guard) (tree : FileTree) : Ending :=
  match Arguments.ofWords? invocation.words with
  | none => Outcome.misused.ending tree
  | some arguments => .ofResult ((invocation.steps guard arguments).startingAt tree)

theorem Command.written_runLink (system : System) (settings : Settings) (table : Table)
    (entry : String) (imported : List String) :
    (Outcome.ofResult (runLink system settings table entry imported)).written = none := by
  simp only [runLink]
  split
  · rfl
  · split
    · rfl
    · split
      · rfl
      · split
        · rfl
        · rfl

/-- Only a packing command has a file written. -/
theorem Command.written_eq_none {system : System} {settings : Settings} {image : Bytes}
    {table : Table} {command : Option Command}
    (hcommand : ∀ entries forced output runtime,
      command ≠ some (pack entries forced output runtime)) :
    (Outcome.ofResult (run system settings image table command)).written = none := by
  cases command with
  | none =>
    simp only [run, runEntries]
    split
    · rfl
    · split
      · rfl
      · rfl
  | some command =>
    cases command with
    | resolve specifier directory =>
      simp only [run, runResolve]
      split
      · rfl
      · rfl
    | dependencies entries forced json =>
      simp only [run, runDependencies]
      split
      · rfl
      · rfl
    | pack entries forced output runtime =>
      exact absurd rfl (hcommand entries forced output runtime)
    | link entry imported => exact written_runLink system settings table entry imported
    | print specifier =>
      simp only [run, runPrint]
      split
      · rfl
      · rfl

theorem Invocation.written_of_table {invocation : Invocation} {failure : Failure}
    (h : invocation.table = .error failure) : failure.written = none := by
  unfold table at h
  split at h
  · cases h
    rfl
  · cases h

/-- Where nothing is written, what is seen of the run is all of it. -/
theorem Outcome.ending_ofResult (result : Except Failure Answer)
    (h : (ofResult result).written = none) (tree : FileTree) :
    (ofResult result).ending tree = .ofResult (result.map Answer.output, tree) := by
  simp only [ending, apply, h]
  cases result with
  | error failure => rfl
  | ok answer => rfl

theorem Command.startingAt_steps (guard : Guard) (settings : Settings) (image : Bytes)
    (table : Table) (command : Option Command) (tree : FileTree) :
    Ending.ofResult ((steps guard settings image table command).startingAt tree) =
      (Outcome.ofResult (run (.guarded tree guard) settings image table command)).ending tree := by
  unfold steps
  split
  · next entries forced output runtime =>
    simp only [run, runPack, Step.startingAt_bind, Step.startingAt_mapError, Step.startingAt_ask]
    cases Table.build (buildResolver settings) (System.guarded tree guard).files entries forced with
    | error e => rfl
    | ok table =>
      simp only [Table.startingAt_writeExecutable]
      cases runtimeImage (.guarded tree guard) image runtime with
      | error e => rfl
      | ok image =>
        cases hemit : table.emit (.guarded tree guard) image output with
        | error e =>
          simp only [Table.pack, hemit]
          rfl
        | ok written =>
          simp only [Table.pack, hemit]
          cases (System.guarded tree guard).makeExecutable output with
          | error e => rfl
          | ok _ => rfl
  · next hcommand =>
    rw [Step.startingAt_ask, Outcome.ending_ofResult _ (written_eq_none fun _ _ _ _ =>
      hcommand _ _ _ _)]

/-- The account of a run in one piece is what its steps come to. -/
theorem Invocation.perform_eq_ending (invocation : Invocation) (guard : Guard) (tree : FileTree) :
    invocation.perform guard tree = (invocation.run (.guarded tree guard)).ending tree := by
  unfold perform run
  cases Arguments.ofWords? invocation.words with
  | none => rfl
  | some arguments =>
    simp only [steps, runWith, Step.startingAt_bind, Step.startingAt_ask]
    cases htable : invocation.table with
    | error failure =>
      exact (Outcome.ending_ofResult (.error failure) (written_of_table htable) tree).symm
    | ok table => exact Command.startingAt_steps guard _ _ table arguments.command tree

end ModuleLoading
