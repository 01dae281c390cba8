import ModuleLoading.Text.Split
import ModuleLoading.Text.Utf8

/-!
The search path is the ordered list of directories under which bare names are
looked up. It is written as one value with colons between the directories;
slashes at the end of a directory do not count, and empty entries are skipped.
-/
namespace ModuleLoading

structure SearchPath where
  roots : List String
  deriving Repr, DecidableEq

namespace SearchPath

def empty : SearchPath := ⟨[]⟩

/-- A root made only of slashes becomes empty, so that a name joined to it is
an absolute path. -/
def withoutTrailingSlashes (root : List Char) : List Char :=
  (root.reverse.dropWhile (· == '/')).reverse

def ofRoots (roots : List String) : SearchPath :=
  ⟨(roots.filter (· ≠ "")).map fun root => String.ofList (withoutTrailingSlashes root.toList)⟩

def parse (value : String) : SearchPath :=
  ofRoots ((Text.split ':' value.toList).map String.ofList)

/-- A value that is not text loses the roots that are not text and keeps the
others. -/
def ofBytes (value : Bytes) : SearchPath :=
  match Utf8.decode? value with
  | some text => parse text
  | none => ofRoots ((Text.split 58 value).filterMap Utf8.decode?)

/-- The search path of an environment variable, which may be unset. -/
def ofVariable : Option Bytes → SearchPath
  | some value => ofBytes value
  | none => empty

end SearchPath

/-- The settings that a resolution depends on. -/
structure Settings where
  searchPath : SearchPath := .empty
  /-- Whether a bare name that no root has is tried as a path. -/
  pathFallback : Bool := true
  /-- The longest candidate path in bytes. -/
  candidateLimit : Nat := 4096
  deriving Repr, DecidableEq

end ModuleLoading
