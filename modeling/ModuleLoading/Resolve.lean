import ModuleLoading.Builtins
import ModuleLoading.Probe
import ModuleLoading.Request
import ModuleLoading.SearchPath
import ModuleLoading.Table.Basic

/-!
Resolution finds the module that a specifier names as seen from a directory. The
embedded table comes first, then the files that the request's key can stand for,
and last the engine, which is asked for the specifier as it was written.
-/
namespace ModuleLoading

inductive Origin
  | embedded
  | filesystem
  | engine
  deriving Repr, DecidableEq

def Origin.name : Origin → String
  | embedded => "embedded"
  | filesystem => "filesystem"
  | engine => "engine"

/-- Where the content of a module is to be had. -/
inductive Content
  | embedded (code : Bytes)
  | file (path : String)
  | engine (code : Bytes)
  deriving Repr, DecidableEq

namespace Content

def origin : Content → Origin
  | embedded _ => .embedded
  | file _ => .filesystem
  | engine _ => .engine

def path? : Content → Option String
  | file path => some path
  | embedded _ | engine _ => none

/-- The content itself, unless it is in a file. -/
def code? : Content → Option Bytes
  | embedded code | engine code => some code
  | file _ => none

end Content

structure Resolved where
  identity : Identity
  content : Content
  deriving Repr, DecidableEq

structure Resolver where
  settings : Settings
  table : Table
  builtins : Builtins

namespace Resolver

variable (resolver : Resolver) (files : FileView)

/-- A bare name may have been embedded under the key of its path. -/
def embedded? (request : Request) : Option EmbeddedModule :=
  match resolver.table.get? request.key with
  | some m => some m
  | none =>
    if resolver.settings.pathFallback then request.fallbackKey.bind resolver.table.get? else none

def underRoots (request : Request) (order : List Form) (roots : List String) :
    Except LoadError (Option Resolved) :=
  match probeRoots files resolver.settings.candidateLimit order request.key roots with
  | .error e => .error e
  | .ok none => .ok none
  | .ok (some hit) =>
    .ok (some ⟨.ofProbe request.key .search hit.form (some hit.root), .file hit.path⟩)

def atPath (key : String) : Except LoadError (Option Resolved) :=
  match probe files resolver.settings.candidateLimit key Form.direct with
  | .error e => .error e
  | .ok none => .ok none
  | .ok (some hit) => .ok (some ⟨.ofProbe key .filesystem hit.form none, .file hit.path⟩)

/-- A bare name is looked for under every root and then, where that is allowed,
at its path. -/
def bareFile (request : Request) : Except LoadError (Option Resolved) :=
  match resolver.underRoots files request Form.search resolver.settings.searchPath.roots with
  | .ok none =>
    if resolver.settings.pathFallback then
      resolver.atPath files (request.fallbackKey.getD request.key)
    else .ok none
  | found => found

/-- A relative import of a module found under a root stays under that root. -/
def siblingRoots (request : Request) : List String :=
  match request.root with
  | some root => [root]
  | none => resolver.settings.searchPath.roots

def siblingFile (request : Request) : Except LoadError (Option Resolved) :=
  resolver.underRoots files request Form.direct (resolver.siblingRoots request)

def file? (request : Request) : Except LoadError (Option Resolved) :=
  match request.space, request.specifier.kind with
  | .filesystem, _ => resolver.atPath files (request.fallbackKey.getD request.key)
  | .search, .relative => resolver.siblingFile files request
  | .search, _ => resolver.bareFile files request

def fromEngine (raw : String) : Except LoadError Resolved :=
  match resolver.builtins.source? raw with
  | some code => .ok ⟨.ofEngine raw, .engine code⟩
  | none => .error (.notFound raw)

def resolve (raw : String) (base : BaseDir) : Except LoadError Resolved :=
  let request := Request.make raw base
  match resolver.embedded? request with
  | some m => .ok ⟨m.identity, .embedded m.code⟩
  | none =>
    match resolver.file? files request with
    | .error e => .error e
    | .ok (some found) => .ok found
    | .ok none => resolver.fromEngine raw

variable {resolver}

theorem mem_of_embedded? {request : Request} {m : EmbeddedModule}
    (h : resolver.embedded? request = some m) : m ∈ resolver.table.modules := by
  unfold embedded? at h
  split at h
  · next hget =>
    cases h
    exact List.mem_of_find?_eq_some hget
  · split at h
    · obtain ⟨key, _, hget⟩ := Option.bind_eq_some_iff.1 h
      exact List.mem_of_find?_eq_some hget
    · cases h

/-- An answer is in the table, or in a file, or else the engine's. -/
theorem resolve_eq_ok_iff (raw : String) (base : BaseDir) (found : Resolved) :
    resolver.resolve files raw base = .ok found ↔
      (∃ m, resolver.embedded? (.make raw base) = some m ∧
        found = ⟨m.identity, .embedded m.code⟩) ∨
      resolver.embedded? (.make raw base) = none ∧
        (resolver.file? files (.make raw base) = .ok (some found) ∨
          resolver.file? files (.make raw base) = .ok none ∧
            resolver.fromEngine raw = .ok found) := by
  rw [resolve]
  cases resolver.embedded? (.make raw base) with
  | some m => simp [eq_comm]
  | none =>
    cases resolver.file? files (.make raw base) with
    | error e => simp
    | ok under => cases under <;> simp

end Resolver

end ModuleLoading
