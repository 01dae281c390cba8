import ModuleLoading.Candidate
import ModuleLoading.FileView

/-!
Probing looks for the first candidate that is a loadable file: of one base path
in a given order of forms, or of a name under one search root after another. A
candidate that cannot be built ends the probing, whatever would come after it.
-/
namespace ModuleLoading

structure ProbeHit where
  path : String
  form : Form
  deriving Repr, DecidableEq

structure RootHit where
  root : String
  path : String
  form : Form
  deriving Repr, DecidableEq

variable (files : FileView) (limit : Nat)

def probe (base : String) : List Form → Except LoadError (Option ProbeHit)
  | [] => .ok none
  | form :: forms =>
    match form.candidate limit base with
    | .error e => .error e
    | .ok path => if files.isLoadable path then .ok (some ⟨path, form⟩) else probe base forms

def probeRoot (order : List Form) (name root : String) : Except LoadError (Option RootHit) :=
  match probe files limit (root ++ "/" ++ name) order with
  | .error e => .error e
  | .ok none => .ok none
  | .ok (some hit) => .ok (some ⟨root, hit.path, hit.form⟩)

def probeRoots (order : List Form) (name : String) :
    List String → Except LoadError (Option RootHit)
  | [] => .ok none
  | root :: roots =>
    match probeRoot files limit order name root with
    | .ok none => probeRoots order name roots
    | found => found

theorem size_of_candidate {limit : Nat} {base path : String} {form : Form}
    (h : form.candidate limit base = .ok path) : base.utf8ByteSize ≤ limit := by
  simp only [Form.candidate] at h
  split at h
  · cases h
  · omega

theorem size_of_probe {files : FileView} {limit : Nat} {base : String} {forms : List Form}
    {hit : ProbeHit} (h : probe files limit base forms = .ok (some hit)) :
    base.utf8ByteSize ≤ limit := by
  cases forms with
  | nil => cases h
  | cons form forms =>
    unfold probe at h
    split at h
    · cases h
    · next hpath => exact size_of_candidate hpath

theorem size_of_probeRoot {files : FileView} {limit : Nat} {order : List Form}
    {name root : String} {hit : RootHit}
    (h : probeRoot files limit order name root = .ok (some hit)) : name.utf8ByteSize ≤ limit := by
  unfold probeRoot at h
  split at h
  · cases h
  · cases h
  · next hprobe =>
    have := size_of_probe hprobe
    simp only [String.utf8ByteSize_append] at this
    omega

theorem size_of_probeRoots {files : FileView} {limit : Nat} {order : List Form}
    {name : String} {roots : List String} {hit : RootHit}
    (h : probeRoots files limit order name roots = .ok (some hit)) :
    name.utf8ByteSize ≤ limit := by
  induction roots with
  | nil => cases h
  | cons root roots ih =>
    unfold probeRoots at h
    split at h
    · exact ih h
    · exact size_of_probeRoot h

end ModuleLoading
