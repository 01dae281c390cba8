/-!
A specifier is the text that an import names its module by. Colons separate the
levels of a name just as slashes do, so a specifier that has colons is read with
a slash in place of each. How it addresses its module shows in its first
characters after that.
-/
namespace ModuleLoading

structure Specifier where
  raw : String
  deriving Repr, DecidableEq

namespace Specifier

inductive Kind
  | bare
  | relative
  | absolute
  deriving Repr, DecidableEq

def Kind.name : Kind → String
  | bare => "bare"
  | relative => "relative"
  | absolute => "absolute"

def kindOf : List Char → Kind
  | ['.'] | ['.', '.'] => .relative
  | '.' :: '/' :: _ | '.' :: '.' :: '/' :: _ => .relative
  | '/' :: _ => .absolute
  | _ => .bare

def classify (text : String) : Kind := kindOf text.toList

def colonsToSlashes (text : List Char) : List Char :=
  text.map fun c => if c = ':' then '/' else c

def translate? (text : String) : Option String :=
  if ':' ∈ text.toList then some (String.ofList (colonsToSlashes text.toList)) else none

def translated? (specifier : Specifier) : Option String := translate? specifier.raw

/-- The text that resolution works with. -/
def effective (specifier : Specifier) : String := specifier.translated?.getD specifier.raw

def kind (specifier : Specifier) : Kind := classify specifier.effective

def isBare (specifier : Specifier) : Bool := specifier.kind == .bare

end Specifier

end ModuleLoading
