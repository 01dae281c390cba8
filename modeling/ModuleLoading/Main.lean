import ModuleLoading.Command.Run
import ModuleLoading.Prospect

/-!
The program on a real system. Everything that a run may look at is read ahead:
the prospects of every specifier, those of the static imports of each prospect, and
so on. The run itself is then a matter of what was read, and the file it wants to be
written is written after it.
-/
namespace ModuleLoading.Main

/-- A refusal without a constructor of its own keeps the text that the system gave. -/
def osError : IO.Error → OsError
  | .noFileOrDirectory .. => .noSuchFile
  | .inappropriateType _ code text | .invalidArgument _ code text | .resourceBusy code text
  | .permissionDenied _ code text =>
    if code = 20 then .notDirectory
    else if code = 21 then .isDirectory
    else if code = 26 then .textFileBusy
    else if code = 36 then .nameTooLong
    else .other (text ++ " (os error " ++ toString code ++ ")")
  | e => .other (toString e)

def lookAt (path : String) : IO (Except OsError Node) := do
  try
    match (← (← IO.FS.realPath path).metadata).type with
    | .dir => return .ok .directory
    | .file => return .ok (.file (← IO.FS.readBinFile path).toList)
    | _ => return .ok .device
  catch e => return .error (osError e)

/-- What has been read ahead, and the modules whose imports have been followed. -/
structure Survey where
  nodes : List (Bytes × Except OsError Node)
  followed : List (Identity × Option String)

namespace Survey

def known? (survey : Survey) (path : Bytes) : Option (Except OsError Node) :=
  survey.nodes.lookup path

def read (survey : Survey) (path : String) : IO (Survey × Except OsError Node) := do
  match survey.known? (Utf8.encode path) with
  | some node => return (survey, node)
  | none =>
    let node ← lookAt path
    return ({ survey with nodes := (Utf8.encode path, node) :: survey.nodes }, node)

/-- The source of a module if it turns out to be this one. -/
def source? (survey : Survey) (prospect : Resolved) : IO (Survey × Option Bytes) := do
  match prospect.content with
  | .embedded code | .engine code => return (survey, some code)
  | .file path =>
    match ← survey.read path with
    | (survey, .ok (.file code)) => return (survey, some code)
    | (survey, _) => return (survey, none)

partial def follow (resolver : Resolver) (survey : Survey) :
    List (String × BaseDir) → IO Survey
  | [] => return survey
  | (specifier, base) :: pending => do
    let mut survey := survey
    let mut found := []
    for prospect in resolver.prospects specifier base do
      let subject := (prospect.identity, prospect.content.path?)
      unless subject ∈ survey.followed do
        let (next, source) ← survey.source? prospect
        survey := { next with followed := subject :: next.followed }
        if let some code := source then
          let imports := (Source.outline (Utf8.lossy code)).staticSpecifiers
          found := found ++ imports.map fun imported => (imported, prospect.identity.baseDir)
    follow resolver survey (found ++ pending)

def system (survey : Survey) (refusal fixed : Option OsError) : System where
  look path := (survey.known? path).getD (.error .noSuchFile)
  refusal _ := refusal
  fixed _ := fixed

end Survey

def resolverOf (settings : Settings) (table : Table) : Option Command → Resolver
  | some (.dependencies ..) | some (.pack ..) => Command.buildResolver settings
  | _ => Command.runtimeResolver settings table

/-- Specifiers with the directories that a command sees them from. -/
def requests (resolver : Resolver) (table : Table) : Option Command → List (String × BaseDir)
  | none => table.entries.map fun entry => (entry, .workingDirectory)
  | some (.resolve specifier directory) =>
    [(specifier, (directory.map BaseDir.ofPath).getD .workingDirectory)]
  | some (.dependencies entries forced _) | some (.pack entries forced _ _) =>
    (entries ++ forced).map fun root => (root, .workingDirectory)
  | some (.link entry imported) =>
    (entry, .workingDirectory) ::
      (resolver.prospects entry .workingDirectory).flatMap fun prospect =>
        imported.map fun specifier => (specifier, prospect.identity.baseDir)
  | some (.print specifier) => [(specifier, .workingDirectory)]

def survey (invocation : Invocation) : IO Survey := do
  match Arguments.ofWords? invocation.words, invocation.table with
  | some arguments, .ok table =>
    let mut survey : Survey := ⟨[], []⟩
    let resolver := resolverOf (invocation.settings arguments) table arguments.command
    survey ← survey.follow resolver (requests resolver table arguments.command)
    if let some (.pack _ _ _ (some runtime)) := arguments.command then
      (survey, _) ← survey.read (Utf8.lossy runtime)
    return survey
  | _, _ => return ⟨[], []⟩

/-- What kept the file from being written, and once it was from being made executable. -/
def write (written : Written) : IO (Option OsError × Option OsError) := do
  let path := Utf8.lossy written.path
  try
    IO.FS.writeBinFile path ⟨written.content.toArray⟩
  catch e => return (some (osError e), none)
  try
    IO.setAccessRights path ⟨⟨true, true, true⟩, ⟨true, false, true⟩, ⟨true, false, true⟩⟩
  catch e => return (none, some (osError e))
  return (none, none)

def run (invocation : Invocation) : IO Outcome := do
  let survey ← survey invocation
  let outcome := invocation.run (survey.system none none)
  match outcome.written with
  | none => return outcome
  | some written =>
    match ← write written with
    | (none, none) => return outcome
    | (refusal, fixed) => return invocation.run (survey.system refusal fixed)

end ModuleLoading.Main

open ModuleLoading in
def main (words : List String) : IO UInt32 := do
  let searchPath ← IO.getEnv "SPACEY_PATH"
  let image ← IO.FS.readBinFile (← IO.appPath)
  let outcome ← Main.run ⟨words.map Utf8.encode, searchPath.map Utf8.encode, image.toList⟩
  (← IO.getStdout).write ⟨outcome.output.toArray⟩
  (← IO.getStderr).write ⟨outcome.errors.toArray⟩
  return outcome.exitCode.toUInt32
