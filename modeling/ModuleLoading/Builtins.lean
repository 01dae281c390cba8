import ModuleLoading.Identity
import ModuleLoading.KeyOrder

/-!
Modules that the engine supplies itself, by the specifier they answer to. The
engine also decides what may be embedded: a module's source is kept as it is,
and has to be text.
-/
namespace ModuleLoading

structure Builtins where
  modules : List (String × Bytes)
  deriving Repr, DecidableEq

namespace Builtins

def none : Builtins := ⟨[]⟩

def register (builtins : Builtins) (name : String) (source : Bytes) : Builtins :=
  ⟨insertByKey Prod.fst (name, source) builtins.modules⟩

def standardNames : List String := ["std", "os"]

def standard : Builtins :=
  standardNames.foldl
    (fun builtins name =>
      builtins.register name (Utf8.encode ("export default globalThis." ++ name ++ ";\n")))
    none

def names (builtins : Builtins) : List String := builtins.modules.map Prod.fst

def source? (builtins : Builtins) (name : String) : Option Bytes :=
  (findByKey Prod.fst name builtins.modules).map Prod.snd

def contains (builtins : Builtins) (name : String) : Bool := (builtins.source? name).isSome

end Builtins

/-- The form in which a module's source is embedded. -/
def compile (identity : Identity) (source : Bytes) : Except LoadError Bytes :=
  match Utf8.decode source with
  | .ok _ => .ok source
  | .error fault => .error (.rejectedSource identity.key fault)

end ModuleLoading
