import ModuleLoading.Source.Reading
import ModuleLoading.Text.Blank
import ModuleLoading.Text.Split
import ModuleLoading.Text.Word

/-!
The import and export declarations that a line of source can begin with, and
calls that import at run time. A name is a run of word characters and dollar
signs; the "from" after it may stand right next to it, so that such a run is
tried whole before its end is taken for that word.
-/
namespace ModuleLoading.Source

/-- A name that an import brings into the module. -/
inductive Binding
  | default (name : String)
  | named (name : String) (renamed : Option String)
  | whole (name : String)
  deriving Repr, DecidableEq

/-- A name that an export makes visible, or all names of another module. -/
inductive Exported
  | default
  | named (name : String) (renamed : Option String)
  | everything
  | everythingAs (name : String)
  deriving Repr, DecidableEq

structure ImportDeclaration where
  specifier : String
  bindings : List Binding
  sideEffectOnly : Bool
  deriving Repr, DecidableEq

structure ExportDeclaration where
  exported : List Exported
  source : Option String
  deriving Repr, DecidableEq

/-- The texts on the two sides of the first " as ". -/
def splitAlias : List Char → Option (List Char × List Char)
  | [] => none
  | ' ' :: 'a' :: 's' :: ' ' :: rest => some ([], rest)
  | c :: rest => (splitAlias rest).map fun (name, other) => (c :: name, other)

def listItem (part : List Char) : String × Option String :=
  match splitAlias part with
  | some (name, other) => (String.ofList (Text.trim name), some (String.ofList (Text.trim other)))
  | none => (String.ofList part, none)

def listItems (list : List Char) : List (String × Option String) :=
  (((Text.split ',' list).map Text.trim).filter (· ≠ [])).map listItem

open Reading

def isNameChar (c : Char) : Bool := Text.isWord c || c == '$'

def isQuote (c : Char) : Bool := c == '\'' || c == '"'

def word (text : String) : Reading Unit := exactly text.toList

def indentation : Reading (List Char) := run fun c => c == ' ' || c == '\t'

def blanks : Reading (List Char) := run Text.isBlank

def someBlanks : Reading (List Char) := nonemptyRun Text.isBlank

/-- A shorter name than these two would leave name characters that no declaration
goes on with: only "from" can follow at once, and it must end the run, since a
blank or a quote comes after it. -/
def name : Reading (List Char) :=
  either (nonemptyRun isNameChar) (nonemptyRunBefore isNameChar "from".toList)

def braced : Reading (List Char) := do
  word "\x7b"
  let list ← run (· != '\x7d')
  word "\x7d"
  return list

def quoted : Reading String := do
  let _ ← one isQuote
  let specifier ← nonemptyRun fun c => !isQuote c && c != '\n'
  let _ ← one isQuote
  return String.ofList specifier

def typeMark : Reading (Option Unit) := optionally do
  word "type"
  let _ ← someBlanks

def defaultBinding : Reading (List Char) := do
  let binding ← name
  let _ ← blanks
  let _ ← optionally (word ",")
  let _ ← blanks
  return binding

def asName : Reading (List Char) := do
  word "as"
  let _ ← someBlanks
  name

def wholeBinding : Reading (List Char) := do
  word "*"
  let _ ← blanks
  asName

def fromClause : Reading String := do
  let _ ← blanks
  word "from"
  let _ ← blanks
  quoted

def bindingsOf (defaultName list whole : Option (List Char)) : List Binding :=
  (defaultName.map fun n => Binding.default (String.ofList n)).toList ++
    (list.map fun l => (listItems l).map fun (n, a) => Binding.named n a).getD [] ++
    (whole.map fun n => Binding.whole (String.ofList n)).toList

def bindingImport : Reading ImportDeclaration := do
  let _ ← indentation
  word "import"
  let _ ← someBlanks
  let _ ← typeMark
  let defaultName ← optionally defaultBinding
  let list ← optionally braced
  let _ ← blanks
  let whole ← optionally wholeBinding
  let specifier ← fromClause
  return ⟨specifier, bindingsOf defaultName list whole, false⟩

def sideEffectImport : Reading ImportDeclaration := do
  let _ ← indentation
  word "import"
  let _ ← blanks
  let specifier ← quoted
  return ⟨specifier, [], true⟩

def exportedList (list : List Char) : List Exported :=
  (listItems list).map fun (n, a) => .named n a

def starExport : Reading (List Exported) := do
  word "*"
  let _ ← blanks
  match ← optionally asName with
  | some n => return [.everythingAs (String.ofList n)]
  | none => return [.everything]

def reExport : Reading ExportDeclaration := do
  let _ ← indentation
  word "export"
  let _ ← someBlanks
  let _ ← typeMark
  let exported ← either starExport (exportedList <$> braced)
  let specifier ← fromClause
  return ⟨exported, some specifier⟩

/-- What a local export gives a name to; a list in braces may turn out to belong
to a re-export. -/
inductive LocalExport
  | default
  | single (name : String)
  | list (items : List Char)
  deriving Repr, DecidableEq

def named (keyword : Reading Unit) : Reading LocalExport := do
  keyword
  let n ← nonemptyRun isNameChar
  return .single (String.ofList n)

def defaultExport : Reading LocalExport := do
  word "default"
  unlessNext Text.isWord
  return .default

def functionKeyword : Reading Unit := do
  let _ ← optionally do
    word "async"
    let _ ← someBlanks
  word "function"
  let _ ← blanks
  let _ ← optionally (word "*")
  let _ ← blanks

def spacedKeyword (text : String) : Reading Unit := do
  word text
  let _ ← someBlanks

def variableKeyword : Reading Unit := do
  either (word "const") (either (word "let") (word "var"))
  let _ ← someBlanks

def localExport : Reading LocalExport := do
  let _ ← indentation
  word "export"
  let _ ← someBlanks
  either defaultExport <| either (named functionKeyword) <|
    either (named (spacedKeyword "class")) <| either (named variableKeyword) <|
    LocalExport.list <$> braced

def dynamicImport : Reading String := do
  word "import"
  let _ ← blanks
  word "("
  let _ ← blanks
  let specifier ← quoted
  let _ ← blanks
  word ")"
  return specifier

end ModuleLoading.Source
