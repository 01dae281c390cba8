import ModuleLoading.LoadError

/-!
Resolution sees a file system as a function: for every path what stands there,
or why it cannot be opened. Nothing else is assumed of it.
-/
namespace ModuleLoading

inductive Node
  | file (content : Bytes)
  | directory
  /-- Something that can be read, and is empty then, but is no regular file. -/
  | device
  deriving Repr, DecidableEq

abbrev FileView := String → Except OsError Node

namespace FileView

/-- Only regular files can hold a module. -/
def isLoadable (files : FileView) (path : String) : Bool :=
  match files path with
  | .ok (.file _) => true
  | _ => false

end FileView

def Node.read : Except OsError Node → Except OsError Bytes
  | .ok (.file content) => .ok content
  | .ok .directory => .error .isDirectory
  | .ok .device => .ok []
  | .error e => .error e

def FileView.read (files : FileView) (path : String) : Except LoadError Bytes :=
  (Node.read (files path)).mapError (.unreadable path)

end ModuleLoading
