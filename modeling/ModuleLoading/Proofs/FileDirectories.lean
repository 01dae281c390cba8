import ModuleLoading.Proofs.ComposedKeys
import ModuleLoading.Proofs.KeySpaces
import ModuleLoading.Proofs.SharedKeys

/-!
Where the relative imports of a file start from. The directory that a module knows of is computed
from its key and the form that was found, its file's path from the stem and the suffix of this
form. Both say the same: below its root, if it has one, the directory of a module is the one that
its file is in, so that a relative import is looked up beside the file.
-/
namespace ModuleLoading

namespace Identity

/-- The directory of a key is the parent of what stands behind the root in the file's path. -/
theorem dirname_ofProbe (key : String) (space : Namespace) (form : Form) (root : Option String)
    (hne : key.toList ≠ []) :
    (ofProbe key space form root).dirname = Key.parent (key ++ form.suffix) := by
  cases form with
  | exact => exact (Key.parent_append_of_slash_notMem key _ (by decide)).symm
  | extension => exact (Key.parent_append_of_slash_notMem key _ (by decide)).symm
  | index =>
    have hpath : key ++ Form.index.suffix =
        String.ofList (key.toList ++ '/' :: "index.js".toList) := by
      apply String.toList_injective
      rw [String.toList_append, String.toList_ofList]
      rfl
    rw [hpath, Key.parent_append_slash _ _ (by decide), if_neg hne, String.ofList_toList]
    rfl

/-- It is a key of the module's space. -/
theorem keyOf_dirname_ofProbe (text : String) (space : Namespace) (form : Form)
    (root : Option String) :
    space.keyOf (ofProbe (space.keyOf text) space form root).dirname =
      (ofProbe (space.keyOf text) space form root).dirname := by
  cases form with
  | exact => exact space.keyOf_parent text
  | index => exact space.keyOf_keyOf text
  | extension => exact space.keyOf_parent text

/-- The relative imports of a module start from a directory, in the module's space and under its
root. -/
def ImportsFrom (identity : Identity) (directory : String) : Prop :=
  ∀ raw : String, (⟨raw⟩ : Specifier).kind = .relative →
    Request.make raw identity.baseDir =
      ⟨⟨raw⟩, identity.space,
        identity.space.keyOf (directory ++ "/" ++ (⟨raw⟩ : Specifier).effective), none,
        identity.root⟩

theorem importsFrom_dirname (identity : Identity) : identity.ImportsFrom identity.dirname := by
  intro raw hkind
  rw [Request.make_relative raw identity.baseDir hkind, Key.join_eq_keyOf]
  rfl

end Identity

/-- A file that was found for the key of a text in a space: the identity and the path, which below
the root is the key with the suffix of a form. -/
structure FoundFile (found : Resolved) (text : String) (form : Form) : Prop where
  identity_eq : found.identity =
    .ofProbe (found.identity.space.keyOf text) found.identity.space form found.identity.root
  space_eq : found.identity.space = if found.identity.root.isSome then .search else .filesystem
  content_eq : found.content =
    .file (stem found.identity.root (found.identity.space.keyOf text ++ form.suffix))

namespace FoundFile

variable {found : Resolved} {text : String} {form : Form}

theorem dirname_eq (h : FoundFile found text form) :
    found.identity.dirname = Key.parent (found.identity.space.keyOf text ++ form.suffix) := by
  rw [h.identity_eq]
  exact Identity.dirname_ofProbe _ _ form _ (Namespace.toList_keyOf_ne_nil _ text)

theorem keyOf_dirname (h : FoundFile found text form) :
    found.identity.space.keyOf found.identity.dirname = found.identity.dirname := by
  rw [h.identity_eq]
  exact Identity.keyOf_dirname_ofProbe text _ form _

end FoundFile

namespace Resolver

variable {resolver : Resolver} {files : FileView} {raw : String} {base : BaseDir}
variable {found : Resolved}

theorem foundFile_of_underRoots {order : List Form} {roots : List String} {request : Request}
    {text : String} (hkey : request.key = Key.ofName text)
    (h : resolver.underRoots files request order roots = .ok (some found)) :
    ∃ form, FoundFile found text form := by
  obtain ⟨root, -, hit, hprobe, rfl⟩ := resolver.underRoots_probe files request order roots found h
  have hpath : hit.path = root ++ "/" ++ request.key ++ hit.form.suffix :=
    path_of_probe files _ _ order hit hprobe
  refine ⟨hit.form, ?_, rfl, ?_⟩
  · rw [hkey]
    rfl
  · rw [hpath, hkey, String.append_assoc]
    rfl

theorem foundFile_of_atPath {text : String}
    (h : resolver.atPath files (Key.ofPath text) = .ok (some found)) :
    ∃ form, FoundFile found text form := by
  obtain ⟨hit, hprobe, rfl⟩ := resolver.atPath_probe files _ found h
  have hpath : hit.path = Key.ofPath text ++ hit.form.suffix :=
    path_of_probe files _ _ Form.direct hit hprobe
  refine ⟨hit.form, rfl, rfl, ?_⟩
  rw [hpath]
  rfl

/-- Whatever is found on disk is a file for the key of the text that was asked for. -/
theorem Finds.foundFile (hfinds : resolver.Finds files raw base found) :
    ∃ form, FoundFile found (Request.text raw base) form := by
  have hkey := Request.key_make raw base
  cases hfinds with
  | name hkind h =>
    rw [Request.space_make_bare raw base hkind] at hkey
    exact foundFile_of_underRoots hkey h
  | fallback hkind hallowed hmiss h =>
    have htext : Request.text raw base = (⟨raw⟩ : Specifier).effective := by
      simp only [Request.text, hkind]
    rw [htext]
    exact foundFile_of_atPath h
  | sibling hkind hspace h =>
    rw [Request.space_make_relative raw base hkind, hspace] at hkey
    exact foundFile_of_underRoots hkey h
  | path hkind hspace h =>
    rw [hspace] at hkey
    rw [hkey] at h
    exact foundFile_of_atPath h

end Resolver

/-- The directory of a file's module is the directory of its path, in the search space below the
root. Its relative imports are looked up beside it. -/
theorem dirname_of_file (resolver : Resolver) (files : FileView) (raw : String) (base : BaseDir)
    (found : Resolved) (path : String) (h : resolver.resolve files raw base = .ok found)
    (hfile : found.content = .file path) :
    (found.identity.space = .filesystem →
      Key.ofPath (Key.parent path) = found.identity.dirname ∧
        found.identity.ImportsFrom (Key.parent path)) ∧
    (found.identity.space = .search → ∃ root inner, found.identity.root = some root ∧
      path = root ++ "/" ++ inner ∧ Key.ofName (Key.parent inner) = found.identity.dirname ∧
        found.identity.ImportsFrom (Key.parent inner)) := by
  have hfinds := resolver.finds_of_file? files raw base found
    (resolver.file?_of_content files raw base found path h hfile)
  obtain ⟨form, hfound⟩ := hfinds.foundFile
  have hdirname := hfound.dirname_eq
  have hkey := hfound.keyOf_dirname
  have hspace := hfound.space_eq
  have himports := found.identity.importsFrom_dirname
  have hpath := Content.file.inj (hfile.symm.trans hfound.content_eq)
  rw [hdirname] at hkey himports
  constructor
  · intro hfilesystem
    have hroot : found.identity.root = none := by
      cases hroot : found.identity.root with
      | none => rfl
      | some root => simp [hroot, hfilesystem] at hspace
    rw [hfilesystem] at hkey himports hpath hdirname
    rw [hroot] at hpath
    subst hpath
    exact ⟨hkey.trans hdirname.symm, himports⟩
  · intro hsearch
    cases hroot : found.identity.root with
    | none => simp [hroot, hsearch] at hspace
    | some root =>
      rw [hsearch] at hkey himports hpath hdirname
      rw [hroot] at hpath
      exact ⟨root, _, rfl, hpath, hkey.trans hdirname.symm, himports⟩

-- Index files of the two directories that have no name.
namespace NamelessDirectories

def files : FileView
  | "mods/./index.js" => .ok (.file [])
  | "//index.js" => .ok (.file [])
  | _ => .error .noSuchFile

def resolver : Resolver := ⟨{ searchPath := ⟨["mods"]⟩ }, .empty, .none⟩

def start : Resolved := ⟨⟨".", ".", .search, some "mods"⟩, .file "mods/./index.js"⟩

def top : Resolved := ⟨⟨"/", "/", .filesystem, none⟩, .file "//index.js"⟩

end NamelessDirectories

open NamelessDirectories in
theorem dirname_of_file_sample :
    resolver.resolve files "a/.." .workingDirectory = .ok start ∧
      (∃ root inner, some "mods" = some root ∧ "mods/./index.js" = root ++ "/" ++ inner ∧
        Key.ofName (Key.parent inner) = "." ∧ start.identity.ImportsFrom (Key.parent inner)) ∧
      resolver.resolve files "/" .workingDirectory = .ok top ∧
      Key.ofPath (Key.parent "//index.js") = "/" ∧
      top.identity.ImportsFrom (Key.parent "//index.js") := by
  have hstart : resolver.resolve files "a/.." .workingDirectory = .ok start := rfl
  have htop : resolver.resolve files "/" .workingDirectory = .ok top := rfl
  have hbelow := (dirname_of_file resolver files "a/.." .workingDirectory start "mods/./index.js"
    hstart rfl).2 rfl
  have hpath := (dirname_of_file resolver files "/" .workingDirectory top "//index.js"
    htop rfl).1 rfl
  exact ⟨hstart, hbelow, htop, hpath.1, hpath.2⟩

end ModuleLoading
