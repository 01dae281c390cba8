/-!
Text for a terminal. A colour holds up to the code for the standard colour, and
a weight up to the code that takes back every style.
-/
namespace ModuleLoading.Text

inductive Colour
  | red
  | green
  | yellow
  | blue
  | magenta
  | cyan
  deriving Repr, DecidableEq

def Colour.code : Colour → Nat
  | red => 31
  | green => 32
  | yellow => 33
  | blue => 34
  | magenta => 35
  | cyan => 36

def styleCode (code : Nat) : String := "\x1b[" ++ toString code ++ "m"

def coloured (colour : Colour) (text : String) : String :=
  styleCode colour.code ++ text ++ styleCode 39

def bold (text : String) : String := styleCode 1 ++ text ++ styleCode 0

def dimmed (text : String) : String := styleCode 2 ++ text ++ styleCode 0

end ModuleLoading.Text
