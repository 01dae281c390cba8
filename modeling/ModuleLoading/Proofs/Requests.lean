import ModuleLoading.Request
import ModuleLoading.Proofs.NormalKeys

/-!
The keys that requests are made with. No key holds a colon, since a specifier is
translated before its key is made. A key that is itself taken for a specifier of
the working directory gives the request with this key again, so that the entries
of a table can be linked by their keys.
-/
namespace ModuleLoading

/-- The key of a text without colons in a space. -/
def Namespace.keyOf : Namespace → String → String
  | .search => Key.ofName
  | .filesystem => Key.ofPath

/-- What can be a key of a space. -/
def IsKey (space : Namespace) (key : String) : Prop :=
  ∃ text : String, ':' ∉ text.toList ∧ space.keyOf text = key

namespace Specifier

theorem effective_of_colon_notMem (raw : String) (h : ':' ∉ raw.toList) :
    (⟨raw⟩ : Specifier).effective = raw := by
  simp [effective, translated?, translate?, h]

theorem colon_notMem_effective (specifier : Specifier) :
    ':' ∉ specifier.effective.toList := by
  by_cases h : ':' ∈ specifier.raw.toList
  · intro hcolon
    simp only [effective, translated?, translate?, if_pos h, Option.getD_some, colonsToSlashes,
      String.toList_ofList, List.mem_map] at hcolon
    obtain ⟨c, _, hc⟩ := hcolon
    split at hc
    · simp at hc
    · next hne => exact hne hc
  · rwa [effective_of_colon_notMem specifier.raw h]

/-- A bare name such as "a/.." stands for the directory it starts from. -/
def NamesDirectory (specifier : Specifier) : Prop :=
  specifier.kind = .bare ∧ Key.ofName specifier.effective = Key.workingDirectory

instance (specifier : Specifier) : Decidable specifier.NamesDirectory :=
  inferInstanceAs (Decidable (_ ∧ _))

end Specifier

namespace IsKey

variable {space : Namespace} {key : String}

theorem colon_notMem (h : IsKey space key) : ':' ∉ key.toList := by
  obtain ⟨text, htext, rfl⟩ := h
  intro hcolon
  have hmem : ':' ∈ text.toList ∨ ':' = '/' ∨ ':' = '.' := by
    cases space with
    | search => exact Key.mem_ofName text ':' hcolon
    | filesystem => exact Key.mem_ofPath text ':' hcolon
  rcases hmem with h | h | h
  · exact htext h
  · simp at h
  · simp at h

/-- The two spaces share no key but the working directory's. -/
theorem eq_workingDirectory (hname : IsKey .search key) (hpath : IsKey .filesystem key) :
    key = Key.workingDirectory := by
  obtain ⟨name, _, hname⟩ := hname
  obtain ⟨path, _, hpath⟩ := hpath
  by_cases hdot : key = Key.workingDirectory
  · exact hdot
  · have hne : Key.ofName name ≠ Key.workingDirectory := fun h => hdot (hname.symm.trans h)
    exact absurd (hname.trans hpath.symm) (Key.ofName_ne_ofPath name path hne)

theorem parent_colon_notMem (h : IsKey space key) : ':' ∉ (Key.parent key).toList := by
  intro hcolon
  rcases Key.mem_parent key ':' hcolon with hkey | hslash | hdot
  · exact h.colon_notMem hkey
  · simp at hslash
  · simp at hdot

end IsKey

theorem BaseDir.colon_notMem_workingDirectory :
    ':' ∉ BaseDir.workingDirectory.dir.toList := by
  decide

namespace Request

variable (raw : String) (base : BaseDir)

theorem make_bare (h : (⟨raw⟩ : Specifier).kind = .bare) :
    make raw base = ⟨⟨raw⟩, .search, Key.ofName (⟨raw⟩ : Specifier).effective,
      some (Key.ofPath (⟨raw⟩ : Specifier).effective), none⟩ := by
  simp [make, h]

theorem make_relative (h : (⟨raw⟩ : Specifier).kind = .relative) :
    make raw base = ⟨⟨raw⟩, base.space,
      Key.join base.space base.dir (⟨raw⟩ : Specifier).effective, none, base.root⟩ := by
  simp [make, h]

theorem make_absolute (h : (⟨raw⟩ : Specifier).kind = .absolute) :
    make raw base =
      ⟨⟨raw⟩, .filesystem, Key.ofPath (⟨raw⟩ : Specifier).effective, none, none⟩ := by
  simp [make, h]

theorem space_make_bare (h : (⟨raw⟩ : Specifier).kind = .bare) :
    (make raw base).space = .search := by
  rw [make_bare raw base h]

theorem space_make_relative (h : (⟨raw⟩ : Specifier).kind = .relative) :
    (make raw base).space = base.space := by
  rw [make_relative raw base h]

/-- Two requests ask the same of a table. -/
def SameKeys (left right : Request) : Prop :=
  left.key = right.key ∧ left.fallbackKey = right.fallbackKey

/-- The root of the importer plays no part in the keys. -/
theorem sameKeys_of_root (root : Option String) :
    SameKeys (make raw { base with root := root }) (make raw base) := by
  cases h : (⟨raw⟩ : Specifier).kind <;> simp [SameKeys, make, h]

/-- Only a relative specifier depends on where it is seen from. -/
theorem sameKeys_of_kind (other : BaseDir) (h : (⟨raw⟩ : Specifier).kind ≠ .relative) :
    SameKeys (make raw other) (make raw base) := by
  cases hkind : (⟨raw⟩ : Specifier).kind with
  | bare => simp [SameKeys, make, hkind]
  | relative => exact absurd hkind h
  | absolute => simp [SameKeys, make, hkind]

/-- Only a bare specifier has a second key. -/
theorem fallbackKey_make (h : (⟨raw⟩ : Specifier).kind ≠ .bare) :
    (make raw base).fallbackKey = none := by
  cases hkind : (⟨raw⟩ : Specifier).kind with
  | bare => exact absurd hkind h
  | relative => rw [make_relative raw base hkind]
  | absolute => rw [make_absolute raw base hkind]

/-- The text that the key of a request is made from. -/
def text (raw : String) (base : BaseDir) : String :=
  match (⟨raw⟩ : Specifier).kind with
  | .bare | .absolute => (⟨raw⟩ : Specifier).effective
  | .relative => base.dir ++ "/" ++ (⟨raw⟩ : Specifier).effective

theorem key_make :
    (make raw base).key = (make raw base).space.keyOf (text raw base) := by
  cases hkind : (⟨raw⟩ : Specifier).kind with
  | bare => simp only [make, text, hkind, Namespace.keyOf]
  | absolute => simp only [make, text, hkind, Namespace.keyOf]
  | relative =>
    simp only [make, text, hkind]
    cases base.space with
    | search => rfl
    | filesystem => rfl

theorem fallbackKey_eq_keyOf (fallback : String)
    (h : (make raw base).fallbackKey = some fallback) :
    fallback = Namespace.filesystem.keyOf (text raw base) := by
  have hbare : (⟨raw⟩ : Specifier).kind = .bare := by
    apply Decidable.byContradiction
    intro hkind
    rw [fallbackKey_make raw base hkind] at h
    cases h
  rw [make_bare raw base hbare] at h
  simp only [text, hbare]
  exact (Option.some.inj h).symm

theorem colon_notMem_text (hbase : ':' ∉ base.dir.toList) : ':' ∉ (text raw base).toList := by
  have heffective := (⟨raw⟩ : Specifier).colon_notMem_effective
  unfold text
  split
  · exact heffective
  · exact heffective
  · simp [hbase, heffective]

theorem isKey_key (hbase : ':' ∉ base.dir.toList) :
    IsKey (make raw base).space (make raw base).key :=
  ⟨text raw base, colon_notMem_text raw base hbase, (key_make raw base).symm⟩

theorem isKey_fallbackKey (fallback : String) (hbase : ':' ∉ base.dir.toList)
    (h : (make raw base).fallbackKey = some fallback) : IsKey .filesystem fallback :=
  ⟨text raw base, colon_notMem_text raw base hbase,
    (fallbackKey_eq_keyOf raw base fallback h).symm⟩

theorem space_make_workingDirectory (h : (⟨raw⟩ : Specifier).kind ≠ .bare) :
    (make raw .workingDirectory).space = .filesystem := by
  cases hkind : (⟨raw⟩ : Specifier).kind with
  | bare => exact absurd hkind h
  | relative => exact space_make_relative raw .workingDirectory hkind
  | absolute => rw [make_absolute raw .workingDirectory hkind]

end Request

theorem IsKey.kind_ne_bare {key : String} (h : IsKey .filesystem key) :
    (⟨key⟩ : Specifier).kind ≠ .bare := by
  have heffective := Specifier.effective_of_colon_notMem key h.colon_notMem
  obtain ⟨path, _, rfl⟩ := h
  rw [Specifier.kind, heffective, Namespace.keyOf, Key.classify_ofPath]
  split
  · simp
  · simp

/-- A path is asked for as itself. -/
theorem make_of_isPath {key : String} (h : IsKey .filesystem key) :
    Request.make key .workingDirectory = ⟨⟨key⟩, .filesystem, key, none, none⟩ := by
  have heffective := Specifier.effective_of_colon_notMem key h.colon_notMem
  obtain ⟨path, _, rfl⟩ := h
  have hkind := Key.classify_ofPath path
  have habs := Key.isAbsolute_ofPath path
  simp only [Namespace.keyOf] at heffective ⊢
  split at hkind
  · rw [Request.make_absolute _ _ (by rw [Specifier.kind, heffective, hkind]), heffective,
      Key.ofPath_ofPath]
  · next hrelative =>
    have hjoin := Key.join_workingDirectory (Key.ofPath path) (by simpa [habs] using hrelative)
    rw [Request.make_relative _ _ (by rw [Specifier.kind, heffective, hkind]), heffective]
    simp only [BaseDir.workingDirectory, hjoin, Key.ofPath_ofPath]

/-- So is a name, unless it is the key that both spaces have. -/
theorem make_of_isName {key : String} (h : IsKey .search key)
    (hdot : key ≠ Key.workingDirectory) :
    Request.make key .workingDirectory =
      ⟨⟨key⟩, .search, key, some (Key.ofPath key), none⟩ := by
  have heffective := Specifier.effective_of_colon_notMem key h.colon_notMem
  obtain ⟨name, _, rfl⟩ := h
  have hkind := Key.classify_ofName name hdot
  simp only [Namespace.keyOf] at heffective ⊢
  rw [Request.make_bare _ _ (by rw [Specifier.kind, heffective, hkind]), heffective,
    Key.ofName_ofName]

theorem isPath_workingDirectory : IsKey .filesystem Key.workingDirectory :=
  ⟨".", by simp, by decide⟩

/-- A key is the key of the request that names it. -/
theorem key_make_of_isKey (space : Namespace) (key : String) (h : IsKey space key) :
    (Request.make key .workingDirectory).key = key := by
  cases space with
  | filesystem => rw [make_of_isPath h]
  | search =>
    by_cases hdot : key = Key.workingDirectory
    · rw [make_of_isPath (hdot ▸ isPath_workingDirectory)]
    · rw [make_of_isName h hdot]

theorem space_make_of_isKey (space : Namespace) (key : String) (h : IsKey space key) :
    (Request.make key .workingDirectory).space =
      if key = Key.workingDirectory then .filesystem else space := by
  split
  · next hdot => rw [make_of_isPath (hdot ▸ isPath_workingDirectory)]
  · next hdot =>
    cases space with
    | filesystem => rw [make_of_isPath h]
    | search => rw [make_of_isName h hdot]

end ModuleLoading
