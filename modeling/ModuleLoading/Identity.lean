import ModuleLoading.Key
import ModuleLoading.Candidate

/-!
What a resolved module knows about itself: its key, the directory that its own
relative imports start from, the space both belong to, and the search root it
was read from, if any.
-/
namespace ModuleLoading

structure BaseDir where
  space : Namespace
  dir : String
  root : Option String
  deriving Repr, DecidableEq

namespace BaseDir

def workingDirectory : BaseDir := ⟨.filesystem, Key.workingDirectory, none⟩

def ofPath (path : String) : BaseDir := ⟨.filesystem, Key.ofPath path, none⟩

end BaseDir

structure Identity where
  key : String
  dirname : String
  space : Namespace
  root : Option String
  deriving Repr, DecidableEq

/-- What a running module sees of itself. -/
structure ImportMeta where
  filename : String
  dirname : String
  main : Bool
  deriving Repr, DecidableEq

namespace Identity

/-- A module found as an index file is its own directory. -/
def ofProbe (key : String) (space : Namespace) (form : Form) (root : Option String) : Identity where
  key := key
  dirname := match form with
    | .index => key
    | .exact | .extension => Key.parent key
  space := space
  root := root

/-- A module that the engine supplies has no place of its own. -/
def ofEngine (specifier : String) : Identity :=
  ⟨specifier, Key.workingDirectory, .filesystem, none⟩

def baseDir (identity : Identity) : BaseDir := ⟨identity.space, identity.dirname, identity.root⟩

def importMeta (identity : Identity) (main : Bool) : ImportMeta :=
  ⟨identity.key, identity.dirname, main⟩

end Identity

end ModuleLoading
