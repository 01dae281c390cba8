/-!
Modules are addressed in two spaces. A search key is a plain name looked up
under the roots of the search path; a file key is a path, absolute or from the
working directory.
-/
namespace ModuleLoading

inductive Namespace
  | search
  | filesystem
  deriving Repr, DecidableEq

namespace Namespace

def name : Namespace → String
  | search => "search"
  | filesystem => "filesystem"

/-- The byte that stands for the space in an encoded table. -/
def tag : Namespace → UInt8
  | search => 0
  | filesystem => 1

def ofTag? (tag : UInt8) : Option Namespace :=
  if tag = 0 then some search else if tag = 1 then some filesystem else none

theorem ofTag?_tag (space : Namespace) : ofTag? space.tag = some space := by
  cases space <;> rfl

theorem tag_of_ofTag? {tag : UInt8} {space : Namespace} (h : ofTag? tag = some space) :
    space.tag = tag := by
  unfold ofTag? at h
  split at h
  · next h0 => cases h; exact h0.symm
  · split at h
    · next h1 => cases h; exact h1.symm
    · cases h

end Namespace

end ModuleLoading
