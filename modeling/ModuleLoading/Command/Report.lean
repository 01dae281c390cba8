import ModuleLoading.Graph
import ModuleLoading.Link
import ModuleLoading.Text.Json
import ModuleLoading.Text.Style

/-!
What the commands print. A report is a list of lines. What a line is about stands
in colour at its head, and facts about it follow on lines that are set in.
-/
namespace ModuleLoading.Report

open Text

def ofLines (lines : List String) : String := String.join (lines.map (· ++ "\n"))

/-- A fact about the module above it. -/
def detail (label text : String) : String := "  " ++ dimmed label ++ " " ++ text

def fileDetail : Option String → List String
  | some path => [detail "from" path]
  | none => []

def labelled (label text : String) : String := dimmed (label ++ ":") ++ " " ++ text

def resolved (found : Resolved) : String :=
  let identity := found.identity
  ofLines
    ([labelled "key" (bold (coloured .cyan identity.key)),
        labelled "origin" found.content.origin.name,
        labelled "namespace" identity.space.name,
        labelled "dirname" identity.dirname] ++
      (identity.root.map (labelled "root")).toList ++
      (found.content.path?.map (labelled "path")).toList)

def rootMark (graph : Graph) (key : String) : String :=
  if key ∈ graph.entries then coloured .green "entry"
  else if key ∈ graph.forced then coloured .yellow "forced"
  else ""

def graphModule (graph : Graph) (m : GraphModule) : List String :=
  (bold (coloured .cyan m.key) ++ " " ++ rootMark graph m.key) ::
    (fileDetail m.path ++ m.imports.map (detail "->"))

def unresolved (missing : UnresolvedImport) : String :=
  bold (coloured .yellow "warning") ++ ": '" ++ missing.specifier ++ "' imported by " ++
    missing.importer ++ " does not resolve"

def dependencies (graph : Graph) : String :=
  ofLines
    (graph.modules.flatMap (graphModule graph) ++
      graph.engineModules.map (fun name => coloured .cyan name ++ " " ++ dimmed "builtin") ++
      graph.unresolved.map unresolved ++
      ["", bold (toString graph.modules.length) ++ " modules"])

def texts (list : List String) : Json := .list (list.map Json.text)

def textOrNull : Option String → Json
  | some text => .text text
  | none => .null

def identityJson (identity : Identity) : Json :=
  .record
    ([("key", .text identity.key), ("dirname", .text identity.dirname),
        ("namespace", .text identity.space.name)] ++
      (identity.root.map fun root => ("root", Json.text root)).toList)

def graphModuleJson (m : GraphModule) : Json :=
  .record
    [("meta", identityJson m.identity), ("path", textOrNull m.path), ("imports", texts m.imports)]

def graphJson (graph : Graph) : Json :=
  .record
    [("entries", texts graph.entries),
      ("forced", texts graph.forced),
      ("modules", .record (graph.modules.map fun m => (m.key, graphModuleJson m))),
      ("engine_modules", texts graph.engineModules),
      ("unresolved", .list (graph.unresolved.map fun missing =>
        .record [("importer", .text missing.importer), ("specifier", .text missing.specifier)]))]

def dependenciesAsJson (graph : Graph) : String := (graphJson graph).render 0 ++ "\n"

def originColour : Origin → Colour
  | .embedded => .green
  | .filesystem => .blue
  | .engine => .magenta

def linkedModule (entry : String) (m : LinkedModule) : List String :=
  let key := coloured .cyan m.identity.key
  ((if m.identity.key = entry then bold key else key) ++ " [" ++
      coloured (originColour m.origin) m.origin.name ++ "]") ::
    (fileDetail m.path ++
      if m.exports.isEmpty then [] else [detail "exports" (", ".intercalate m.exports)])

def linked (entry : String) (modules : List LinkedModule) : String :=
  ofLines (modules.flatMap (linkedModule entry))

def packed (keys : List String) (output : String) (size : Nat) : String :=
  ofLines
    (keys.map (fun key => "  " ++ coloured .green "+" ++ " " ++ key) ++
      [bold (coloured .green "Wrote") ++ " " ++ output ++ " (" ++ toString keys.length ++
        " modules, " ++ toString size ++ " bytes)"])

def usage : String :=
  ofLines
    [coloured .yellow "Usage: spacey-pack <command> [options]", "",
      "Run " ++ coloured .cyan "spacey-pack --help" ++ " for more information"]

def failure (text : String) : String :=
  ofLines [bold (coloured .red "Error") ++ ": " ++ text]

end ModuleLoading.Report
