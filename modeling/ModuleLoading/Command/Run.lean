import ModuleLoading.Command.Arguments
import ModuleLoading.Command.Report
import ModuleLoading.System

/-!
Running the program. It carries a module table in its own image, which every
command needs to be sound, but only the commands that resolve and load consult it;
a graph and a new table are made as if there were none. A command answers with what
it prints and the one file it writes, or it fails. A failure changes nothing, unless
the file was written before it and could not be made executable.
-/
namespace ModuleLoading

/-- What the program is started with. -/
structure Invocation where
  words : List Bytes
  /-- The environment variable of the search path, which may be unset. -/
  searchPath : Option Bytes
  /-- The image that is running. -/
  image : Bytes

inductive Failure
  | ownTable (cause : LoadError)
  | inCommand (cause : LoadError)
  /-- What was written before the failure is left behind. -/
  | writing (output : Bytes) (cause : LoadError) (left : Option Written)
  | entryNotLinked
  deriving Repr, DecidableEq

/-- An error together with the cause that the system gave for it. -/
def LoadError.report : LoadError → String
  | unreadable path cause => (unreadable path cause).message ++ ": " ++ cause.message
  | fileSystem cause => (fileSystem cause).message ++ ": " ++ cause.message
  | e => e.message

def Failure.message : Failure → String
  | ownTable cause => "failed to read the module table of this executable: " ++ cause.report
  | inCommand cause => cause.report
  | writing output cause _ => "failed to write " ++ Utf8.lossy output ++ ": " ++ cause.report
  | entryNotLinked => "entry module was not linked"

/-- The file that a failure leaves behind. -/
def Failure.written : Failure → Option Written
  | writing _ _ left => left
  | ownTable _ | inCommand _ | entryNotLinked => none

/-- What a command answers. -/
structure Answer where
  output : Bytes
  written : Option Written
  deriving Repr, DecidableEq

def Answer.ofText (text : String) : Answer := ⟨Utf8.encode text, none⟩

namespace Command

variable (system : System) (settings : Settings)

/-- Sees the modules that the running image carries. -/
def runtimeResolver (table : Table) : Resolver := ⟨settings, table, .standard⟩

def buildResolver : Resolver := ⟨settings, .empty, .standard⟩

def runResolve (table : Table) (specifier : String) (directory : Option String) :
    Except Failure Answer :=
  let base := (directory.map BaseDir.ofPath).getD .workingDirectory
  match (runtimeResolver settings table).resolve system.files specifier base with
  | .error e => .error (.inCommand e)
  | .ok found => .ok (.ofText (Report.resolved found))

def runDependencies (entries forced : List String) (json : Bool) : Except Failure Answer :=
  match Graph.ofRoots (buildResolver settings) system.files entries forced with
  | .error e => .error (.inCommand e)
  | .ok graph =>
    .ok (.ofText (if json then Report.dependenciesAsJson graph else Report.dependencies graph))

/-- The image that a table is packed onto, the running one unless another is named. -/
def runtimeImage (image : Bytes) : Option Bytes → Except LoadError Bytes
  | some path => system.read path
  | none => .ok image

def runPack (image : Bytes) (entries forced : List String) (output : Bytes)
    (runtime : Option Bytes) : Except Failure Answer :=
  match Table.build (buildResolver settings) system.files entries forced with
  | .error e => .error (.inCommand e)
  | .ok table =>
    match runtimeImage system image runtime with
    | .error e => .error (.writing output e none)
    | .ok base =>
      match table.pack system base output with
      | .error e => .error (.writing output e (table.emit system base output).toOption)
      | .ok written =>
        .ok ⟨Utf8.encode (Report.packed table.keys (Utf8.lossy output) written.content.length),
          some written⟩

def runLink (table : Table) (entry : String) (imported : List String) : Except Failure Answer :=
  let resolver := runtimeResolver settings table
  match Linker.empty.linkEntry resolver system.files entry with
  | (.error e, _) => .error (.inCommand e)
  | (.ok key, linker) =>
    if imported = [] then .ok (.ofText (Report.linked key linker.modules))
    else
      match linker.get? key with
      | none => .error .entryNotLinked
      | some m =>
        match linker.importAll resolver system.files m.identity imported with
        | (.error e, _) => .error (.inCommand e)
        | (.ok _, linker) => .ok (.ofText (Report.linked key linker.modules))

def runPrint (table : Table) (specifier : String) : Except Failure Answer :=
  match (runtimeResolver settings table).load system.files specifier none with
  | .error e => .error (.inCommand e)
  | .ok loaded => .ok ⟨loaded.code, none⟩

/-- Without a command the program that the image carries is linked. -/
def runEntries (table : Table) : Except Failure Answer :=
  if table.entries = [] then .ok (.ofText Report.usage)
  else
    match Linker.empty.linkEntries (runtimeResolver settings table) system.files table.entries with
    | (.error e, _) => .error (.inCommand e)
    | (.ok _, _) => .ok (.ofText "")

def run (image : Bytes) (table : Table) : Option Command → Except Failure Answer
  | none => runEntries system settings table
  | some (resolve specifier directory) => runResolve system settings table specifier directory
  | some (dependencies entries forced json) => runDependencies system settings entries forced json
  | some (pack entries forced output runtime) =>
    runPack system settings image entries forced output runtime
  | some (link entry imported) => runLink system settings table entry imported
  | some (print specifier) => runPrint system settings table specifier

end Command

/-- What a run of the program leaves behind. -/
structure Outcome where
  exitCode : Nat
  output : Bytes
  errors : Bytes
  written : Option Written
  deriving Repr, DecidableEq

namespace Outcome

def misused : Outcome := ⟨2, [], Utf8.encode Report.usage, none⟩

def ofResult : Except Failure Answer → Outcome
  | .ok answer => ⟨0, answer.output, [], answer.written⟩
  | .error failure => ⟨1, [], Utf8.encode (Report.failure failure.message), failure.written⟩

/-- The directory tree after the run. -/
def apply (outcome : Outcome) (tree : FileTree) : FileTree :=
  match outcome.written with
  | some written => tree.write written
  | none => tree

end Outcome

namespace Invocation

def settings (invocation : Invocation) (arguments : Arguments) : Settings where
  searchPath := .ofVariable (arguments.searchPath.or invocation.searchPath)
  pathFallback := arguments.pathFallback

/-- The table that the running image carries. Without any it is empty. -/
def table (invocation : Invocation) : Except Failure Table :=
  match Table.ofImage invocation.image with
  | .error e => .error (.ownTable e)
  | .ok table => .ok (table.getD .empty)

def runWith (invocation : Invocation) (system : System) (arguments : Arguments) :
    Except Failure Answer :=
  match invocation.table with
  | .error failure => .error failure
  | .ok table =>
    Command.run system (invocation.settings arguments) invocation.image table arguments.command

/-- Words that make no command line are refused before anything is read. -/
def run (invocation : Invocation) (system : System) : Outcome :=
  match Arguments.ofWords? invocation.words with
  | none => .misused
  | some arguments => .ofResult (invocation.runWith system arguments)

end Invocation

end ModuleLoading
