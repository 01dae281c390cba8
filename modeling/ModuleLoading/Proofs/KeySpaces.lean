import ModuleLoading.Proofs.Requests

/-!
Which keys the two spaces share. A name that steps back to where it starts gets the
key ".", which is the working directory's; by any other text a request is told to be
one for a name or one for a path. A name of this kind has a single key for both
places that it is looked up at.
-/
namespace ModuleLoading

namespace Key

theorem ofName_eq_workingDirectory_iff (name : String) :
    Key.ofName name = workingDirectory ↔ segments true name.toList = [] := by
  constructor
  · intro h
    rw [← segments_ofName, h]
    rfl
  · intro h
    rw [Key.ofName, h]
    rfl

theorem ofPath_eq_workingDirectory_iff (path : String) :
    Key.ofPath path = workingDirectory ↔
      isAbsolute path.toList = false ∧ segments false path.toList = [] := by
  constructor
  · intro h
    have hrelative : isAbsolute path.toList = false := by
      rw [← isAbsolute_ofPath, h]
      rfl
    have hsegments := segments_ofPath path
    rw [hrelative, h] at hsegments
    exact ⟨hrelative, hsegments.symm⟩
  · intro h
    obtain ⟨hrelative, hsegments⟩ := h
    simp only [Key.ofPath, hrelative, hsegments]
    rfl

end Key

namespace Namespace

/-- The segments of a text cancel out, so that it stands for the directory that it
starts from. -/
def StaysPut : Namespace → String → Prop
  | .search, name => Key.segments true name.toList = []
  | .filesystem, path =>
    Key.isAbsolute path.toList = false ∧ Key.segments false path.toList = []

instance (space : Namespace) (text : String) : Decidable (space.StaysPut text) :=
  match space with
  | .search => inferInstanceAs (Decidable (_ = _))
  | .filesystem => inferInstanceAs (Decidable (_ ∧ _))

theorem keyOf_eq_workingDirectory_iff (space : Namespace) (text : String) :
    space.keyOf text = Key.workingDirectory ↔ space.StaysPut text := by
  cases space with
  | search => exact Key.ofName_eq_workingDirectory_iff text
  | filesystem => exact Key.ofPath_eq_workingDirectory_iff text

/-- A name and a path have the same key only if both stay where they are. -/
theorem keyOf_shared_iff (name path : String) :
    search.keyOf name = filesystem.keyOf path ↔
      search.StaysPut name ∧ filesystem.StaysPut path := by
  rw [← keyOf_eq_workingDirectory_iff, ← keyOf_eq_workingDirectory_iff]
  constructor
  · intro heq
    have hname : search.keyOf name = Key.workingDirectory := by
      apply Decidable.byContradiction
      intro hne
      exact Key.ofName_ne_ofPath name path hne heq
    exact ⟨hname, heq ▸ hname⟩
  · intro h
    obtain ⟨hname, hpath⟩ := h
    exact hname.trans hpath.symm

end Namespace

namespace Request

/-- A request for a name shares its key with one for a path, or with the path that a
name falls back to, exactly if both texts stay where they start. The key is "." then. -/
theorem shared_key_iff (raw raw' : String) (base base' : BaseDir)
    (hsearch : (make raw base).space = .search) :
    ((make raw' base').space = .filesystem →
      ((make raw base).key = (make raw' base').key ↔
        Namespace.search.StaysPut (text raw base) ∧
          Namespace.filesystem.StaysPut (text raw' base'))) ∧
    (∀ fallback, (make raw' base').fallbackKey = some fallback →
      ((make raw base).key = fallback ↔
        Namespace.search.StaysPut (text raw base) ∧
          Namespace.filesystem.StaysPut (text raw' base'))) ∧
    ((make raw base).key = Key.workingDirectory ↔
      Namespace.search.StaysPut (text raw base)) := by
  have hkey : (make raw base).key = Namespace.search.keyOf (text raw base) := by
    rw [key_make, hsearch]
  rw [hkey]
  refine ⟨?_, ?_, ?_⟩
  · intro hfilesystem
    rw [key_make raw' base', hfilesystem]
    exact Namespace.keyOf_shared_iff _ _
  · intro fallback hfallback
    rw [fallbackKey_eq_keyOf raw' base' fallback hfallback]
    exact Namespace.keyOf_shared_iff _ _
  · exact Namespace.keyOf_eq_workingDirectory_iff .search _

/-- A name and the path of the same text are told apart. -/
theorem shared_key_iff_sample :
    (make "a/b" .workingDirectory).key ≠ (make "./a/b" .workingDirectory).key ∧
      (make "a/b" .workingDirectory).fallbackKey = some "./a/b" ∧
      (make "a/b" .workingDirectory).key ≠ "./a/b" := by
  have hpath := (shared_key_iff "a/b" "./a/b" .workingDirectory .workingDirectory rfl).1 rfl
  have hfallback :=
    (shared_key_iff "a/b" "a/b" .workingDirectory .workingDirectory rfl).2.1 "./a/b" rfl
  have hmoves : ¬ Namespace.search.StaysPut (text "a/b" .workingDirectory) := by decide
  exact ⟨fun heq => hmoves (hpath.1 heq).1, rfl, fun heq => hmoves (hfallback.1 heq).1⟩

/-- A name that steps back has the key of the working directory, by its name as well
as by its path. -/
theorem key_of_both_spaces :
    (make "a/.." .workingDirectory).space = .search ∧
      (make "." .workingDirectory).space = .filesystem ∧
      (make "a/.." .workingDirectory).key = (make "." .workingDirectory).key ∧
      (make "a/.." .workingDirectory).fallbackKey =
        some (make "a/.." .workingDirectory).key := by
  decide

end Request

end ModuleLoading
