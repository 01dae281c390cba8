/-!
Comments and the bodies of template literals are blanked before a source is read
for declarations: every byte but a line end becomes a space, so that the places
of everything else stay what they were. Quoted strings are left as they are, and
what looks like a comment inside one is not taken for a comment.
-/
namespace ModuleLoading.Source

inductive Mode
  | code
  | lineComment
  /-- Whether the character before was a star. -/
  | blockComment (star : Bool)
  /-- Whether a backslash came before. -/
  | template (escaped : Bool)
  | quoted (mark : Char) (escaped : Bool)
  deriving Repr, DecidableEq

def cover (c : Char) : List Char :=
  if c = '\n' then ['\n'] else List.replicate c.utf8Size ' '

def afterCode (c : Char) : Mode :=
  if c = '\x60' then .template false
  else if c = '"' ∨ c = '\'' then .quoted c false
  else .code

/-- A quoted string ends at its mark or with its line, unless a backslash stands
before that. -/
def afterQuoted (mark : Char) (escaped : Bool) (c : Char) : Mode :=
  if escaped then .quoted mark false
  else if c = '\\' then .quoted mark true
  else if c = mark ∨ c = '\n' then .code
  else .quoted mark false

def blankFrom : Mode → List Char → List Char
  | _, [] => []
  | .code, '/' :: '/' :: rest => ' ' :: ' ' :: blankFrom .lineComment rest
  | .code, '/' :: '*' :: rest => ' ' :: ' ' :: blankFrom (.blockComment false) rest
  | .code, c :: rest => c :: blankFrom (afterCode c) rest
  | .lineComment, c :: rest =>
    cover c ++ blankFrom (if c = '\n' then .code else .lineComment) rest
  | .blockComment star, c :: rest =>
    cover c ++ blankFrom (if star ∧ c = '/' then .code else .blockComment (c == '*')) rest
  | .template escaped, c :: rest =>
    if escaped = false ∧ c = '\x60' then c :: blankFrom .code rest
    else cover c ++ blankFrom (.template (!escaped && c == '\\')) rest
  | .quoted mark escaped, c :: rest => c :: blankFrom (afterQuoted mark escaped c) rest

def blank (source : List Char) : List Char := blankFrom .code source

end ModuleLoading.Source
