import ModuleLoading.Build
import ModuleLoading.FileTree

/-!
What a command can learn of the system that it runs on: what stands at a path, why a file
cannot be opened for writing there, and why it cannot be made executable. Paths are byte
strings here; the paths of modules are text and reach the system as UTF-8.
-/
namespace ModuleLoading

structure System where
  look : Bytes → Except OsError Node
  /-- None where a file can be written. -/
  refusal : Bytes → Option OsError
  /-- None where a file that was written can be made executable. -/
  fixed : Bytes → Option OsError

/-- What keeps a file from being written and from being made executable, apart from its path:
it is the program that runs, or the system has a reason of its own. -/
structure Guard where
  running : Option Place
  denied : Place → Option OsError
  fixed : Place → Option OsError

def Guard.refusal? (guard : Guard) (place : Place) : Option OsError :=
  if guard.running = some place then some .textFileBusy else guard.denied place

/-- What is in the way of a file that is written at a path. -/
def FileTree.obstacle? (tree : FileTree) (reason : Place → Option OsError) (path : Bytes) :
    Option OsError :=
  match tree.destination path with
  | .error e => some e
  | .ok place => reason place

namespace System

def files (system : System) : FileView := fun path => system.look (Utf8.encode path)

def read (system : System) (path : Bytes) : Except LoadError Bytes :=
  (Node.read (system.look path)).mapError (.unreadable (Utf8.lossy path))

def makeExecutable (system : System) (path : Bytes) : Except LoadError Unit :=
  match system.fixed path with
  | some e => .error (.fileSystem e)
  | none => .ok ()

/-- The system over a directory tree whose files are guarded. -/
def guarded (tree : FileTree) (guard : Guard) : System where
  look := tree.look
  refusal := tree.obstacle? guard.refusal?
  fixed := tree.obstacle? guard.fixed

/-- The system over a directory tree while the program at `running`, if any, runs. -/
def ofTree (tree : FileTree) (running : Option Place) : System :=
  guarded tree ⟨running, fun _ => none, fun _ => none⟩

end System

/-- A file to be written in place of whatever stands at its path. -/
structure Written where
  path : Bytes
  content : Bytes
  deriving Repr, DecidableEq

def FileTree.write (tree : FileTree) (written : Written) : FileTree :=
  match tree.destination written.path with
  | .ok place => tree.writeAt place written.content
  | .error _ => tree

namespace Table

/-- An image with this table in place of any that it carries. -/
def packOnto (table : Table) (image : Bytes) : Except LoadError Bytes := do
  return (← strip image) ++ (← table.sealed)

/-- The file that is written for an image with this table. -/
def emit (table : Table) (system : System) (image out : Bytes) : Except LoadError Written :=
  match table.packOnto image with
  | .error e => .error e
  | .ok content =>
    match system.refusal out with
    | some e => .error (.fileSystem e)
    | none => .ok ⟨out, content⟩

/-- The executable that an image becomes with this table. Its file is made executable after it
was written, and stays as it is if that fails. -/
def pack (table : Table) (system : System) (image out : Bytes) : Except LoadError Written :=
  match table.emit system image out with
  | .error e => .error e
  | .ok written => (system.makeExecutable out).map fun _ => written

/-- The table that the executable at a path carries. -/
def ofExecutable (system : System) (path : Bytes) : Except LoadError (Option Table) :=
  match system.read path with
  | .error e => .error e
  | .ok image => ofImage image

end Table

end ModuleLoading
