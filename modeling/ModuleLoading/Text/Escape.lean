import ModuleLoading.Text.Printable
import ModuleLoading.Text.Extending

/-!
Text made safe to quote in a message: quotes and backslashes get a backslash,
NUL, tab and line ends their letter, and what cannot be shown its code point.
-/
namespace ModuleLoading.Text

def codePoint (c : Char) : List Char :=
  "\\u\x7b".toList ++ Nat.toDigits 16 c.toNat ++ ['\x7d']

def escapeSpecial? : Char → Option (List Char)
  | '\x00' => some ['\\', '0']
  | '\t' => some ['\\', 't']
  | '\r' => some ['\\', 'r']
  | '\n' => some ['\\', 'n']
  | '\'' => some ['\\', '\'']
  | '"' => some ['\\', '"']
  | '\\' => some ['\\', '\\']
  | _ => none

def escapeChar (c : Char) : List Char :=
  match escapeSpecial? c with
  | some escaped => escaped
  | none => if isPrintable c then [c] else codePoint c

/-- Only the first character can be left with nothing to attach to. -/
def escape (text : String) : String :=
  match text.toList with
  | [] => ""
  | first :: rest =>
    String.ofList ((if isExtending first then codePoint first else escapeChar first) ++
      rest.flatMap escapeChar)

end ModuleLoading.Text
