import ModuleLoading.Load

/-!
Disks with files that are found and cannot be read. Looking for a file asks whether it can be
opened, and that is no promise that it can be read. Files by themselves are a disk on which
every file that is found can be read.
-/
namespace ModuleLoading

/-- Files, and those of them that refuse to be read, with the reason. -/
structure Disk where
  files : FileView
  refusal? : String → Option OsError

namespace Disk

abbrev ofFiles (files : FileView) : Disk := ⟨files, fun _ => none⟩

instance : Coe FileView Disk := ⟨ofFiles⟩

variable (disk : Disk)

def read (found : Resolved) : Except LoadError Loaded :=
  match found.content with
  | .embedded _ | .engine _ => found.read disk.files
  | .file path =>
    match disk.refusal? path with
    | some cause => .error (.unreadable path cause)
    | none => found.read disk.files

theorem read_ofFiles (files : FileView) (found : Resolved) :
    (ofFiles files).read found = found.read files := by
  unfold read
  split <;> rfl

variable {disk}

/-- What is read is what the file holds. -/
theorem read_eq_ok {found : Resolved} {loaded : Loaded} (h : disk.read found = .ok loaded) :
    found.read disk.files = .ok loaded := by
  unfold read at h
  split at h
  · exact h
  · exact h
  · split at h
    · cases h
    · exact h

theorem eq_ofFiles (hsound : ∀ path, disk.refusal? path = none) : disk = ofFiles disk.files := by
  obtain ⟨files, refusal?⟩ := disk
  obtain rfl : refusal? = fun _ => none := funext hsound
  rfl

end Disk

end ModuleLoading
