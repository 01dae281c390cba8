import ModuleLoading.Resolve
import ModuleLoading.Text.Utf8

/-!
Loading reads what was resolved. A file that has gone since it was found is an
error; it is not looked for again.
-/
namespace ModuleLoading

structure Loaded where
  identity : Identity
  origin : Origin
  code : Bytes
  path : Option String
  deriving Repr, DecidableEq

namespace Loaded

/-- The content as text, in which every defect shows as one replacement
character. -/
def text (loaded : Loaded) : String := Utf8.lossy loaded.code

end Loaded

def Resolved.read (files : FileView) (resolved : Resolved) : Except LoadError Loaded :=
  match resolved.content with
  | .embedded code => .ok ⟨resolved.identity, .embedded, code, none⟩
  | .engine code => .ok ⟨resolved.identity, .engine, code, none⟩
  | .file path =>
    match files.read path with
    | .error e => .error e
    | .ok code => .ok ⟨resolved.identity, .filesystem, code, some path⟩

/-- The directory that an importer's specifiers are seen from. Without an
importer it is the working directory. -/
def baseOf : Option Identity → BaseDir
  | some referrer => referrer.baseDir
  | none => .workingDirectory

namespace Resolver

def load (resolver : Resolver) (files : FileView) (specifier : String)
    (referrer : Option Identity) : Except LoadError Loaded :=
  match resolver.resolve files specifier (baseOf referrer) with
  | .error e => .error e
  | .ok resolved => resolved.read files

theorem load_eq_ok_iff (resolver : Resolver) (files : FileView) (specifier : String)
    (referrer : Option Identity) (loaded : Loaded) :
    resolver.load files specifier referrer = .ok loaded ↔
      ∃ found, resolver.resolve files specifier (baseOf referrer) = .ok found ∧
        found.read files = .ok loaded := by
  rw [load]
  cases resolver.resolve files specifier (baseOf referrer) with
  | error e => simp
  | ok found => simp

end Resolver

theorem identity_of_read {files : FileView} {resolved : Resolved} {loaded : Loaded}
    (h : resolved.read files = .ok loaded) : loaded.identity = resolved.identity := by
  unfold Resolved.read at h
  split at h
  · cases h; rfl
  · cases h; rfl
  · split at h
    · cases h
    · cases h; rfl

end ModuleLoading
