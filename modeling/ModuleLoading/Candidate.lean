import ModuleLoading.LoadError

/-!
A base path stands for up to three files: itself, itself with the module
extension, or the index file inside it. Candidates are joined as text and are
refused, not shortened, when they would be too long.
-/
namespace ModuleLoading

inductive Form
  | exact
  | index
  | extension
  deriving Repr, DecidableEq

namespace Form

def suffix : Form → String
  | exact => ""
  | index => "/index.js"
  | extension => ".js"

/-- The forms of a path that is named directly. -/
def direct : List Form := [exact, index, extension]

/-- The forms of a name joined to a search root. -/
def search : List Form := [index, extension, exact]

def candidate (limit : Nat) (base : String) (form : Form) : Except LoadError String :=
  let length := base.utf8ByteSize + form.suffix.utf8ByteSize
  if limit < length then .error (.candidateTooLong length limit)
  else if '\x00' ∈ base.toList then .error (.candidateHasNul base)
  else .ok (base ++ form.suffix)

end Form

end ModuleLoading
