import ModuleLoading.Identity
import ModuleLoading.Specifier

/-!
A request is a specifier together with the key it stands for as seen from a
directory. A relative specifier stays in the space and the root of its importer;
a bare one may fall back from its name to a path.
-/
namespace ModuleLoading

structure Request where
  specifier : Specifier
  space : Namespace
  key : String
  fallbackKey : Option String
  root : Option String
  deriving Repr, DecidableEq

namespace Request

def make (raw : String) (base : BaseDir) : Request :=
  let specifier : Specifier := ⟨raw⟩
  let text := specifier.effective
  match specifier.kind with
  | .bare => ⟨specifier, .search, Key.ofName text, some (Key.ofPath text), none⟩
  | .relative => ⟨specifier, base.space, Key.join base.space base.dir text, none, base.root⟩
  | .absolute => ⟨specifier, .filesystem, Key.ofPath text, none, none⟩

end Request

end ModuleLoading
