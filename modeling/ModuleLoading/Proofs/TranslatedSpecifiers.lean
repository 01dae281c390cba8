import ModuleLoading.Proofs.FileDirectories
import ModuleLoading.Proofs.UnreadableFiles

/-!
Specifiers with colons and their translations. The translation of a specifier needs no translation
itself and addresses its module in the same way, so that the table and the disk are asked for the
same keys. The engine alone is asked for the text as it was written: there the two can come to
different results, and nowhere else.
-/
namespace ModuleLoading

namespace Specifier

variable (specifier : Specifier)

theorem translated?_effective : (⟨specifier.effective⟩ : Specifier).translated? = none := by
  rw [translated?, translate?, if_neg specifier.colon_notMem_effective]

theorem effective_effective :
    (⟨specifier.effective⟩ : Specifier).effective = specifier.effective :=
  effective_of_colon_notMem specifier.effective specifier.colon_notMem_effective

theorem kind_effective : (⟨specifier.effective⟩ : Specifier).kind = specifier.kind := by
  rw [kind, effective_effective, kind]

theorem effective_eq_raw_iff :
    specifier.effective = specifier.raw ↔ ':' ∉ specifier.raw.toList := by
  constructor
  · intro h
    rw [← h]
    exact specifier.colon_notMem_effective
  · intro h
    exact effective_of_colon_notMem specifier.raw h

end Specifier

/-- A specifier and its translation make the same request, but for the text itself. -/
theorem Request.make_effective (raw : String) (base : BaseDir) :
    make (⟨raw⟩ : Specifier).effective base =
      { make raw base with specifier := ⟨(⟨raw⟩ : Specifier).effective⟩ } := by
  have htext := (⟨raw⟩ : Specifier).effective_effective
  have hkind := (⟨raw⟩ : Specifier).kind_effective
  cases hraw : (⟨raw⟩ : Specifier).kind with
  | bare => rw [make_bare _ base (hkind.trans hraw), make_bare raw base hraw, htext]
  | relative => rw [make_relative _ base (hkind.trans hraw), make_relative raw base hraw, htext]
  | absolute => rw [make_absolute _ base (hkind.trans hraw), make_absolute raw base hraw, htext]

/-- A result that comes from the table or from the disk, or that a candidate refuses. -/
inductive EndsEarly : Except LoadError Resolved → Prop
  | embedded (identity : Identity) (code : Bytes) : EndsEarly (.ok ⟨identity, .embedded code⟩)
  | file (identity : Identity) (path : String) : EndsEarly (.ok ⟨identity, .file path⟩)
  | refused (e : LoadError) (h : e.OfCandidate) : EndsEarly (.error e)

namespace Resolver

variable (resolver : Resolver) (files : FileView) (raw : String) (base : BaseDir)

theorem embedded?_effective :
    resolver.embedded? (.make (⟨raw⟩ : Specifier).effective base) =
      resolver.embedded? (.make raw base) := by
  rw [Request.make_effective]
  rfl

theorem file?_effective :
    resolver.file? files (.make (⟨raw⟩ : Specifier).effective base) =
      resolver.file? files (.make raw base) := by
  have hkind := (⟨raw⟩ : Specifier).kind_effective
  have hspecifier : (Request.make raw base).specifier = ⟨raw⟩ := by
    cases hraw : (⟨raw⟩ : Specifier).kind <;> simp only [Request.make, hraw]
  rw [Request.make_effective]
  simp only [file?, hkind, hspecifier]
  rfl

theorem misses_effective :
    resolver.Misses files (.make (⟨raw⟩ : Specifier).effective base) ↔
      resolver.Misses files (.make raw base) := by
  rw [Misses, embedded?_effective, file?_effective, Misses]

theorem ofCandidate_of_file? (e : LoadError)
    (h : resolver.file? files (.make raw base) = .error e) : e.OfCandidate := by
  rw [← Attempt.firstHit_onDisk] at h
  obtain ⟨attempt, -, houtcome⟩ := Attempt.exists_of_firstHit _ _ _ _ h (by simp)
  exact attempt.ofCandidate_of_outcome e houtcome

theorem endsEarly_of_file? (found : Resolved)
    (h : resolver.file? files (.make raw base) = .ok (some found)) : EndsEarly (.ok found) := by
  obtain ⟨form, hfound⟩ := (resolver.finds_of_file? files raw base found h).foundFile
  have hcontent := hfound.content_eq
  generalize stem _ _ = path at hcontent
  obtain ⟨identity, content⟩ := found
  obtain rfl : content = .file path := hcontent
  exact .file identity path

theorem not_endsEarly_fromEngine : ¬ EndsEarly (resolver.fromEngine raw) := by
  rw [fromEngine]
  intro h
  split at h
  · cases h
  · obtain ⟨_, _⟩ | ⟨_, _⟩ | ⟨_, hcandidate⟩ := h
    cases hcandidate

/-- What does not get as far as the engine ends early. -/
theorem endsEarly_iff : EndsEarly (resolver.resolve files raw base) ↔
    ¬ resolver.Misses files (.make raw base) := by
  constructor
  · intro hearly hmisses
    rw [resolver.resolve_of_misses files raw base hmisses] at hearly
    exact resolver.not_endsEarly_fromEngine raw hearly
  · intro h
    rw [resolve]
    cases hembedded : resolver.embedded? (.make raw base) with
    | some m => exact .embedded _ _
    | none =>
      cases hfile : resolver.file? files (.make raw base) with
      | error e => exact .refused e (resolver.ofCandidate_of_file? files raw base e hfile)
      | ok found =>
        cases found with
        | none => exact absurd ⟨hembedded, hfile⟩ h
        | some found => exact resolver.endsEarly_of_file? files raw base found hfile

/-- Whatever the engine says, it says it of the text that it was asked for. -/
theorem fromEngine_injective : Function.Injective resolver.fromEngine := by
  intro left right h
  simp only [fromEngine] at h
  split at h
  · split at h
    · exact congrArg (·.identity.key) (Except.ok.inj h)
    · cases h
  · split at h
    · cases h
    · exact LoadError.notFound.inj (Except.error.inj h)

end Resolver

/-- The translation of a specifier is read as it stands, and it leads to the same result wherever one
of the two results is had before the engine is asked. The results differ exactly if there is a colon
to translate and table and disk miss; then they are what the engine has for the two texts. -/
theorem translation_leads_to_same_module (resolver : Resolver) (files : FileView) (raw : String)
    (base : BaseDir) :
    let text := (⟨raw⟩ : Specifier).effective
    ((⟨text⟩ : Specifier).translated? = none ∧ (⟨text⟩ : Specifier).effective = text ∧
      (⟨text⟩ : Specifier).kind = (⟨raw⟩ : Specifier).kind) ∧
    (EndsEarly (resolver.resolve files raw base) ∨ EndsEarly (resolver.resolve files text base) →
      resolver.resolve files text base = resolver.resolve files raw base) ∧
    (resolver.resolve files text base ≠ resolver.resolve files raw base ↔
      ':' ∈ raw.toList ∧ resolver.Misses files (.make raw base)) ∧
    (resolver.Misses files (.make raw base) →
      resolver.Misses files (.make text base) ∧
        resolver.resolve files raw base = resolver.fromEngine raw ∧
        resolver.resolve files text base = resolver.fromEngine text) := by
  intro text
  have hsame := resolver.resolve_of_same_search files raw base text base
    (resolver.embedded?_effective raw base) (resolver.file?_effective files raw base)
  have hengine (hmisses : resolver.Misses files (.make raw base)) :
      resolver.Misses files (.make text base) ∧
        resolver.resolve files raw base = resolver.fromEngine raw ∧
        resolver.resolve files text base = resolver.fromEngine text := by
    have htext := (resolver.misses_effective files raw base).2 hmisses
    exact ⟨htext, resolver.resolve_of_misses files raw base hmisses,
      resolver.resolve_of_misses files text base htext⟩
  refine ⟨⟨Specifier.translated?_effective _, Specifier.effective_effective _,
    Specifier.kind_effective _⟩, ?_, ?_, hengine⟩
  · intro hearly
    rw [resolver.endsEarly_iff, resolver.endsEarly_iff, resolver.misses_effective, or_self]
      at hearly
    exact hsame hearly
  · by_cases hmisses : resolver.Misses files (.make raw base)
    · obtain ⟨-, hraw, htext⟩ := hengine hmisses
      rw [hraw, htext, ne_eq, resolver.fromEngine_injective.eq_iff,
        (⟨raw⟩ : Specifier).effective_eq_raw_iff, Decidable.not_not, and_iff_left hmisses]
    · exact iff_of_false (fun hne => hne (hsame hmisses)) fun h => hmisses h.2

-- Names of a file under a root, of an absolute path, and of a module that the engine has.
namespace WrittenWithColons

def files : FileView
  | "mods/node/fs.js" => .ok (.file [])
  | "/opt/tool/index.js" => .ok (.file [])
  | _ => .error .noSuchFile

def resolver : Resolver := ⟨{ searchPath := ⟨["mods"]⟩ }, .empty, ⟨[("sys:io", [])]⟩⟩

end WrittenWithColons

open WrittenWithColons in
theorem translation_leads_to_same_module_sample :
    resolver.resolve files "node:fs" .workingDirectory =
        .ok ⟨⟨"node/fs", "node", .search, some "mods"⟩, .file "mods/node/fs.js"⟩ ∧
      resolver.resolve files "node/fs" .workingDirectory =
        resolver.resolve files "node:fs" .workingDirectory ∧
      resolver.resolve files "/opt/tool" .workingDirectory =
        .ok ⟨⟨"/opt/tool", "/opt/tool", .filesystem, none⟩, .file "/opt/tool/index.js"⟩ ∧
      resolver.resolve files "/opt/tool" .workingDirectory =
        resolver.resolve files ":opt:tool" .workingDirectory ∧
      resolver.Misses files (.make "sys/io" .workingDirectory) ∧
      resolver.resolve files "sys/io" .workingDirectory = .error (.notFound "sys/io") ∧
      resolver.resolve files "sys/io" .workingDirectory ≠
        resolver.resolve files "sys:io" .workingDirectory := by
  have hname : resolver.resolve files "node:fs" .workingDirectory =
      .ok ⟨⟨"node/fs", "node", .search, some "mods"⟩, .file "mods/node/fs.js"⟩ := rfl
  have hpath : resolver.resolve files "/opt/tool" .workingDirectory =
      .ok ⟨⟨"/opt/tool", "/opt/tool", .filesystem, none⟩, .file "/opt/tool/index.js"⟩ := rfl
  have hmisses : resolver.Misses files (.make "sys:io" .workingDirectory) := ⟨rfl, rfl⟩
  have hbare := (translation_leads_to_same_module resolver files "node:fs" .workingDirectory).2.1
    (.inl (hname ▸ .file _ _))
  have habsolute :=
    (translation_leads_to_same_module resolver files ":opt:tool" .workingDirectory).2.1
      (.inr (hpath ▸ .file _ _))
  obtain ⟨-, -, hdiffer, hengine⟩ :=
    translation_leads_to_same_module resolver files "sys:io" .workingDirectory
  obtain ⟨htext, -, hfailed⟩ := hengine hmisses
  exact ⟨hname, hbare, hpath, habsolute, htext, hfailed, hdiffer.2 ⟨by decide, hmisses⟩⟩

end ModuleLoading
