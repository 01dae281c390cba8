import ModuleLoading.Distinct
import ModuleLoading.Source.Blanking
import ModuleLoading.Source.Declaration

/-!
The outline of a module is what its source declares about other modules: its
imports and exports in source order, and the targets of calls that import at run
time. Declarations of different kinds are found independently and then merged by
where they stand.
-/
namespace ModuleLoading.Source

/-- Something with its place in the source. -/
abbrev Placed (α : Type) := Nat × α

structure Outline where
  imports : List (Placed ImportDeclaration)
  exports : List (Placed ExportDeclaration)
  dynamicImports : List String
  deriving Repr, DecidableEq

variable {α : Type}

def atLineStart (previous : Char) : Bool := previous == '\n'

def atWordStart (previous : Char) : Bool := !Text.isWord previous

def placed (reading : Reading α) (text : List Char) : List (Placed α) :=
  (occurrences atLineStart reading text).map fun found => (found.offset, found.value)

/-- Merges two lists in order of place; of two things at one place the left one
comes first. -/
def mergePlaced (left right : List (Placed α)) : List (Placed α) :=
  left.merge right fun a b => decide (a.1 ≤ b.1)

def isFromNext (rest : List Char) : Bool :=
  "from".toList.isPrefixOf (rest.dropWhile Text.isBlank)

/-- A list that "from" follows is no local export. -/
def localExported (found : Occurrence LocalExport) : Option (Placed ExportDeclaration) :=
  match found.value with
  | .default => some (found.offset, ⟨[.default], none⟩)
  | .single name => some (found.offset, ⟨[.named name none], none⟩)
  | .list items =>
    if isFromNext found.rest then none else some (found.offset, ⟨exportedList items, none⟩)

def outline (source : String) : Outline :=
  let text := blank source.toList
  { imports := mergePlaced (placed bindingImport text) (placed sideEffectImport text)
    exports := mergePlaced (placed reExport text)
      ((occurrences atLineStart localExport text).filterMap localExported)
    dynamicImports := (occurrences atWordStart dynamicImport text).map Occurrence.value }

namespace Outline

/-- The modules that importing this one brings in, in order of first mention. -/
def staticSpecifiers (outline : Outline) : List String :=
  let imported := outline.imports.map fun (place, declaration) => (place, declaration.specifier)
  let reExported := outline.exports.filterMap fun (place, declaration) =>
    declaration.source.map fun specifier => (place, specifier)
  distinct ((mergePlaced imported reExported).map Prod.snd)

def nameOf : Exported → Option String
  | .default => some "default"
  | .named name renamed => some (renamed.getD name)
  | .everything => none
  | .everythingAs name => some name

/-- The names that importers of this module see. -/
def exportedNames (outline : Outline) : List String :=
  distinct (outline.exports.flatMap fun (_, declaration) => declaration.exported.filterMap nameOf)

end Outline

end ModuleLoading.Source
