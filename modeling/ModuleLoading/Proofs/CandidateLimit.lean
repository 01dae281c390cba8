import ModuleLoading.Proofs.FlatSearch
import ModuleLoading.Proofs.Utf8Codec

/-!
What the limit on the length of candidates does. No candidate depends on it, and it shortens none:
a search either builds the same candidates under a greater limit or ends at one that is too long
for the smaller. So a limit only ever turns an answer into a refusal, and whatever file is
answered has a path that keeps to it.
-/
namespace ModuleLoading

namespace Utf8

theorem length_encode (text : String) : (encode text).length = text.utf8ByteSize := by
  induction text using String.push_induction with
  | empty => rfl
  | push text c ih =>
    rw [String.utf8ByteSize_push, ← ih, encode, String.toList_push, List.flatMap_append, ← encode,
      List.length_append, List.flatMap_singleton, String.length_utf8EncodeChar]

theorem zero_mem_encode_iff (text : String) : 0 ∈ encode text ↔ '\x00' ∈ text.toList :=
  mem_flatMap_encodeChar_iff '\x00' (by decide) text.toList

end Utf8

/-- The outcome under a greater limit is the same, unless the smaller one is exceeded. -/
inductive Relaxes {α : Type} (limit : Nat) : Except LoadError α → Except LoadError α → Prop
  | same (outcome : Except LoadError α) : Relaxes limit outcome outcome
  | tooLong (length : Nat) (outcome : Except LoadError α) (h : limit < length) :
    Relaxes limit (.error (.candidateTooLong length limit)) outcome

namespace Form

variable (base : String) (form : Form)

theorem candidate_relaxes (limit limit' : Nat) (hle : limit ≤ limit') :
    Relaxes limit (form.candidate limit base) (form.candidate limit' base) := by
  unfold candidate
  by_cases hlong : limit < base.utf8ByteSize + form.suffix.utf8ByteSize
  · rw [if_pos hlong]
    exact .tooLong _ _ hlong
  · have hlong' : ¬ limit' < base.utf8ByteSize + form.suffix.utf8ByteSize := by omega
    rw [if_neg hlong, if_neg hlong']
    exact .same _

/-- A candidate keeps to the limit and can be the name of a file. -/
theorem candidate_fits (limit : Nat) (path : String) (h : form.candidate limit base = .ok path) :
    path.utf8ByteSize ≤ limit ∧ '\x00' ∉ path.toList := by
  rw [candidate] at h
  split at h
  · cases h
  · next hfits =>
    split at h
    · cases h
    · next hnul =>
      have hsuffix : '\x00' ∉ form.suffix.toList := by
        cases form <;> decide
      rw [← Except.ok.inj h, String.utf8ByteSize_append, String.toList_append, List.mem_append]
      exact ⟨by omega, not_or.2 ⟨hnul, hsuffix⟩⟩

end Form

/-- A resolver that has another limit. -/
def Resolver.withLimit (resolver : Resolver) (limit : Nat) : Resolver :=
  { resolver with settings := { resolver.settings with candidateLimit := limit } }

namespace Attempt

variable (resolver : Resolver) (files : FileView) (limit limit' : Nat)

/-- One attempt under two limits. -/
theorem outcome_relaxes (attempt : Attempt) (hle : limit ≤ limit') :
    Relaxes limit (attempt.outcome (resolver.withLimit limit) files)
      (attempt.outcome (resolver.withLimit limit') files) := by
  cases attempt with
  | table key => exact .same _
  | engine name => exact .same _
  | file stem form key space root =>
    have hcandidate := form.candidate_relaxes stem limit limit' hle
    simp only [outcome, Resolver.withLimit]
    generalize form.candidate limit stem = strict at hcandidate
    generalize form.candidate limit' stem = lax at hcandidate
    cases hcandidate with
    | same => exact .same _
    | tooLong length _ hlong => exact .tooLong length _ hlong

/-- A search under two limits takes the same steps until it is decided. -/
theorem firstHit_relaxes (attempts : List Attempt) (hle : limit ≤ limit') :
    Relaxes limit (firstHit (resolver.withLimit limit) files attempts)
      (firstHit (resolver.withLimit limit') files attempts) := by
  induction attempts with
  | nil => exact .same _
  | cons attempt rest ih =>
    have hfirst := outcome_relaxes resolver files limit limit' attempt hle
    simp only [firstHit]
    generalize attempt.outcome (resolver.withLimit limit) files = strict at hfirst
    generalize attempt.outcome (resolver.withLimit limit') files = lax at hfirst
    cases hfirst with
    | tooLong length _ hlong => exact .tooLong length _ hlong
    | same =>
      cases strict with
      | error e => exact .same _
      | ok found =>
        cases found with
        | none => exact ih
        | some found => exact .same _

theorem fits_of_outcome (attempt : Attempt) (found : Resolved) (path : String)
    (h : attempt.outcome resolver files = .ok (some found)) (hfile : found.content = .file path) :
    path.utf8ByteSize ≤ resolver.settings.candidateLimit ∧ '\x00' ∉ path.toList := by
  cases attempt with
  | table key =>
    obtain ⟨m, _, rfl⟩ := Option.map_eq_some_iff.1 (Except.ok.inj h)
    cases hfile
  | engine name =>
    obtain ⟨code, _, rfl⟩ := Option.map_eq_some_iff.1 (Except.ok.inj h)
    cases hfile
  | file stem form key space root =>
    rw [outcome] at h
    split at h
    · cases h
    · next built hcandidate =>
      split at h
      · obtain rfl := Option.some.inj (Except.ok.inj h)
        obtain rfl := Content.file.inj hfile
        exact form.candidate_fits stem _ built hcandidate
      · cases h

end Attempt

section Limits

variable (resolver : Resolver) (files : FileView) (raw : String) (base : BaseDir)

/-- The places where a module can be do not depend on the limit. -/
theorem resolve_withLimit (limit : Nat) :
    (resolver.withLimit limit).resolve files raw base =
      match Attempt.firstHit (resolver.withLimit limit) files
        (Attempt.all resolver.settings raw base) with
      | .ok (some found) => .ok found
      | .ok none => .error (.notFound raw)
      | .error e => .error e :=
  resolve_eq_firstHit (resolver.withLimit limit) files raw base

theorem resolve_relaxes (limit limit' : Nat) (hle : limit ≤ limit') :
    Relaxes limit ((resolver.withLimit limit).resolve files raw base)
      ((resolver.withLimit limit').resolve files raw base) := by
  have hsearch := Attempt.firstHit_relaxes resolver files limit limit'
    (Attempt.all resolver.settings raw base) hle
  rw [resolve_withLimit, resolve_withLimit]
  generalize Attempt.firstHit (resolver.withLimit limit) files _ = strict at hsearch
  generalize Attempt.firstHit (resolver.withLimit limit') files _ = lax at hsearch
  cases hsearch with
  | same => exact .same _
  | tooLong length _ hlong => exact .tooLong length _ hlong

theorem fits_of_resolve (found : Resolved) (path : String)
    (h : resolver.resolve files raw base = .ok found) (hfile : found.content = .file path) :
    path.utf8ByteSize ≤ resolver.settings.candidateLimit ∧ '\x00' ∉ path.toList := by
  rw [resolve_eq_firstHit] at h
  split at h
  · next other hfirst =>
    obtain rfl := Except.ok.inj h
    obtain ⟨attempt, _, houtcome⟩ := Attempt.exists_of_firstHit _ _ _ _ hfirst (by simp)
    exact Attempt.fits_of_outcome resolver files attempt other path houtcome hfile
  · cases h
  · cases h

end Limits

/-- Whatever resolution comes to under a limit it comes to under every greater one, unless the
limit is exceeded; and the path of every file it answers keeps to the limit and has no NUL. -/
theorem limit_only_refuses (resolver : Resolver) (files : FileView) (raw : String)
    (base : BaseDir) (limit limit' : Nat) (hle : limit ≤ limit') :
    ((resolver.withLimit limit').resolve files raw base =
        (resolver.withLimit limit).resolve files raw base ∨
      ∃ length, limit < length ∧ (resolver.withLimit limit).resolve files raw base =
        .error (.candidateTooLong length limit)) ∧
    (∀ found path, (resolver.withLimit limit).resolve files raw base = .ok found →
      found.content = .file path →
      (Utf8.encode path).length ≤ limit ∧ 0 ∉ Utf8.encode path) := by
  constructor
  · have hrelaxes := resolve_relaxes resolver files raw base limit limit' hle
    generalize (resolver.withLimit limit).resolve files raw base = strict at hrelaxes
    generalize (resolver.withLimit limit').resolve files raw base = lax at hrelaxes
    cases hrelaxes with
    | same => exact .inl rfl
    | tooLong length _ hlong => exact .inr ⟨length, hlong, rfl⟩
  · intro found path h hfile
    rw [Utf8.length_encode, Utf8.zero_mem_encode_iff]
    exact fits_of_resolve (resolver.withLimit limit) files raw base found path h hfile

-- An index file whose path is as long as the smaller limit allows.
namespace LongestPath

def files : FileView
  | "mods/a/index.js" => .ok (.file [])
  | _ => .error .noSuchFile

def resolver : Resolver := ⟨{ searchPath := ⟨["mods"]⟩ }, .empty, .none⟩

def found : Resolved := ⟨⟨"a", "a", .search, some "mods"⟩, .file "mods/a/index.js"⟩

end LongestPath

open LongestPath in
theorem limit_only_refuses_sample :
    (resolver.withLimit 15).resolve files "a" .workingDirectory = .ok found ∧
      (resolver.withLimit 100).resolve files "a" .workingDirectory = .ok found ∧
      (Utf8.encode "mods/a/index.js").length ≤ 15 ∧
      (resolver.withLimit 14).resolve files "a" .workingDirectory =
        .error (.candidateTooLong 15 14) := by
  have hfits : (resolver.withLimit 15).resolve files "a" .workingDirectory = .ok found := rfl
  obtain ⟨hsame, hpaths⟩ :=
    limit_only_refuses resolver files "a" .workingDirectory 15 100 (by decide)
  refine ⟨hfits, ?_, (hpaths found _ hfits rfl).1, rfl⟩
  rcases hsame with hsame | ⟨length, _, hlong⟩
  · exact hsame.trans hfits
  · rw [hfits] at hlong
    cases hlong

end ModuleLoading
