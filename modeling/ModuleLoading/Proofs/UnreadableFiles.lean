import ModuleLoading.Proofs.FlatSearch
import ModuleLoading.Proofs.Transparency

/-!
What can go wrong on a disk with files that are found and cannot be read. A query finds
nothing, or ends at a candidate that cannot be built, and what it finds can be read unless the
disk refuses that. A step of discovery fails where its query does, or where the answer has to
be read and cannot be.
-/
namespace ModuleLoading

open ModuleLoading.Graph

/-- No candidate of this length or with this text can be built. -/
inductive LoadError.OfCandidate : LoadError → Prop
  | tooLong (length limit : Nat) : OfCandidate (.candidateTooLong length limit)
  | hasNul (stem : String) : OfCandidate (.candidateHasNul stem)

namespace Attempt

variable {resolver : Resolver} {files : FileView}

theorem ofCandidate_of_outcome (attempt : Attempt) (e : LoadError)
    (h : attempt.outcome resolver files = .error e) : e.OfCandidate := by
  cases attempt with
  | table key => cases h
  | engine name => cases h
  | file stem form key space root =>
    simp only [outcome, Form.candidate] at h
    split at h
    · next e' hcandidate =>
      obtain rfl := Except.error.inj h
      split at hcandidate
      · cases hcandidate
        exact .tooLong _ _
      · split at hcandidate
        · cases hcandidate
          exact .hasNul stem
        · cases hcandidate
    · cases h

/-- What an attempt finds can be read. -/
theorem read_of_outcome (attempt : Attempt) (found : Resolved)
    (h : attempt.outcome resolver files = .ok (some found)) :
    ∃ loaded, found.read files = .ok loaded := by
  cases attempt with
  | table key =>
    obtain ⟨m, _, rfl⟩ := Option.map_eq_some_iff.1 (Except.ok.inj h)
    exact ⟨_, rfl⟩
  | engine name =>
    obtain ⟨code, _, rfl⟩ := Option.map_eq_some_iff.1 (Except.ok.inj h)
    exact ⟨_, rfl⟩
  | file stem form key space root =>
    rw [outcome] at h
    split at h
    · cases h
    · next path hcandidate =>
      split at h
      · next hload =>
        cases h
        obtain ⟨code, hcode⟩ := read_of_isLoadable files path hload
        exact ⟨_, by simp only [Resolved.read, hcode]; rfl⟩
      · cases h

end Attempt

namespace Query

variable {resolver : Resolver} {files : FileView} (query : Query)

/-- A query finds nothing, or ends at a candidate that cannot be built. -/
theorem error_cases (e : LoadError) (h : query.answer resolver files = .error e) :
    e = .notFound query.specifier ∨ e.OfCandidate := by
  rw [answer, resolve_eq_firstHit] at h
  split at h
  · cases h
  · exact .inl (Except.error.inj h).symm
  · next e' hfirst =>
    obtain rfl := Except.error.inj h
    obtain ⟨attempt, _, houtcome⟩ := Attempt.exists_of_firstHit _ _ _ _ hfirst (by simp)
    exact .inr (attempt.ofCandidate_of_outcome e' houtcome)

theorem read_of_answer (found : Resolved) (h : query.answer resolver files = .ok found) :
    ∃ loaded, found.read files = .ok loaded := by
  rw [answer, resolve_eq_firstHit] at h
  split at h
  · next other hfirst =>
    obtain rfl := Except.ok.inj h
    obtain ⟨attempt, _, houtcome⟩ := Attempt.exists_of_firstHit _ _ _ _ hfirst (by simp)
    exact attempt.read_of_outcome other houtcome
  · cases h
  · cases h

end Query

namespace Disk

variable {disk : Disk} {resolver : Resolver}

/-- An answer that cannot be read is in a file. -/
theorem unreadable_of_read (query : Query) (found : Resolved) (e : LoadError)
    (h : query.answer resolver disk.files = .ok found) (hread : disk.read found = .error e) :
    ∃ path cause, found.content = .file path ∧ disk.refusal? path = some cause ∧
      e = .unreadable path cause := by
  obtain ⟨loaded, hloaded⟩ := query.read_of_answer found h
  rw [read] at hread
  split at hread
  · rw [hloaded] at hread
    cases hread
  · rw [hloaded] at hread
    cases hread
  · next path hcontent =>
    split at hread
    · next cause hcause => exact ⟨path, cause, hcontent, hcause, (Except.error.inj hread).symm⟩
    · rw [hloaded] at hread
      cases hread

theorem read_of_sound (hsound : ∀ path, disk.refusal? path = none) (found : Resolved) :
    disk.read found = found.read disk.files := by
  rw [eq_ofFiles hsound, read_ofFiles]

end Disk

namespace Graph

variable {disk : Disk} {resolver : Resolver}

theorem fetch_eq_error_iff (found : Resolved) (e : LoadError) :
    fetch disk found = .error e ↔ disk.read found = .error e := by
  rw [fetch]
  cases disk.read found with
  | error e' => simp
  | ok loaded => simp

/-- A root fails for its search, or for a new answer that cannot be read. -/
theorem error_of_addRoot (rooted : Rooted) (kind : RootKind) (specifier : String) (e : LoadError)
    (h : addRoot resolver disk rooted kind specifier = .error e) :
    (∃ e', resolver.resolve disk.files specifier .workingDirectory = .error e' ∧
        e = embeddable e') ∨
      ∃ found, resolver.resolve disk.files specifier .workingDirectory = .ok found ∧
        found.identity.key ∉ rooted.found.map GraphModule.key ∧ disk.read found = .error e := by
  rw [addRoot] at h
  split at h
  · next e' hanswer => exact .inl ⟨e', hanswer, (Except.error.inj h).symm⟩
  · next found hanswer =>
    simp only at h
    split at h
    · cases h
    · split at h
      · cases h
      · next hnew =>
        split at h
        · next e' hfetch =>
          obtain rfl := Except.error.inj h
          exact .inr ⟨found, hanswer, hnew, (fetch_eq_error_iff found e').1 hfetch⟩
        · cases h

/-- So does an import, but that it may lead nowhere. -/
theorem error_of_scanImport (met : List String) (importer : Identity) (scanned : Scanned)
    (specifier : String) (e : LoadError)
    (h : scanImport resolver disk met importer scanned specifier = .error e) :
    (resolver.resolve disk.files specifier importer.baseDir = .error e ∧
        ∀ name, e ≠ .notFound name) ∨
      ∃ found, resolver.resolve disk.files specifier importer.baseDir = .ok found ∧
        disk.read found = .error e := by
  rw [scanImport] at h
  split at h
  · cases h
  · next e' hother hanswer =>
    obtain rfl := Except.error.inj h
    exact .inl ⟨hanswer, hother⟩
  · next found hanswer =>
    simp only at h
    split at h
    · cases h
    · split at h
      · cases h
      · split at h
        · next e' hfetch =>
          obtain rfl := Except.error.inj h
          exact .inr ⟨found, hanswer, (fetch_eq_error_iff found e').1 hfetch⟩
        · cases h

end Graph

end ModuleLoading
