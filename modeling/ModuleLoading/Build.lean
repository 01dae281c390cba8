import ModuleLoading.Graph
import ModuleLoading.Table.Image

/-!
Building turns the dependency graph of a program into the table that its
executable will carry. The modules are compiled in the order of their keys, so
that of several which cannot be embedded the first is reported.
-/
namespace ModuleLoading

namespace Graph

def compileModules : List GraphModule → Except LoadError (List EmbeddedModule)
  | [] => .ok []
  | m :: rest =>
    match compile m.identity m.source with
    | .error e => .error e
    | .ok code =>
      match compileModules rest with
      | .error e => .error e
      | .ok embedded => .ok (.ofIdentity m.identity code :: embedded)

def toTable (graph : Graph) : Except LoadError Table :=
  match compileModules graph.modules with
  | .error e => .error e
  | .ok embedded => .ok (graph.entries.foldl Table.addEntry (embedded.foldl Table.insert .empty))

end Graph

/-- The table of a program with the given roots. -/
def Table.build (resolver : Resolver) (disk : Disk) (entries forced : List String) :
    Except LoadError Table :=
  match Graph.ofRoots resolver disk entries forced with
  | .error e => .error e
  | .ok graph => graph.toTable

end ModuleLoading
