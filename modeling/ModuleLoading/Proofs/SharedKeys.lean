import ModuleLoading.Proofs.Resolution

/-!
When a key stands for one file. A key does not tell which root its module was found
under, nor in which order the forms of its path were tried. Two answers of one key
are the same file unless they clash: they come from different spaces or roots, or
one was asked for by name and the other by path where both orders matter. Answers
that clash are different files, except where one root lies inside the other.
-/
namespace ModuleLoading

/-- The directory `inner` lies somewhere below `outer`. -/
def Inside (inner outer : String) : Prop := ∃ rest, inner = outer ++ "/" ++ rest

/-- The path that a key stands for: under a root, or by itself. -/
def stem (root : Option String) (key : String) : String :=
  match root with
  | some root => root ++ "/" ++ key
  | none => key

/-- The order of the forms when a specifier is looked for under a root or by itself. -/
def Specifier.order (specifier : Specifier) (root : Option String) : List Form :=
  if root.isSome ∧ specifier.kind = .bare then Form.search else Form.direct

section Probing

variable (files : FileView) (limit : Nat)

theorem path_of_candidate (base path : String) (form : Form)
    (h : form.candidate limit base = .ok path) : path = base ++ form.suffix := by
  rw [Form.candidate] at h
  split at h
  · cases h
  · split at h
    · cases h
    · exact (Except.ok.inj h).symm

theorem path_of_probe (base : String) (forms : List Form) (hit : ProbeHit)
    (h : probe files limit base forms = .ok (some hit)) : hit.path = base ++ hit.form.suffix :=
  path_of_candidate limit base hit.path hit.form (probe_eq_some files limit base forms hit h).2.1

theorem probe_cons_eq_some (base : String) (form : Form) (forms : List Form) (hit : ProbeHit)
    (h : probe files limit base (form :: forms) = .ok (some hit)) :
    (files.isLoadable (base ++ form.suffix) = true ∧ hit = ⟨base ++ form.suffix, form⟩) ∨
      (files.isLoadable (base ++ form.suffix) = false ∧
        probe files limit base forms = .ok (some hit)) := by
  rw [probe] at h
  split at h
  · cases h
  · next path hcandidate =>
    obtain rfl := path_of_candidate limit base path form hcandidate
    split at h
    · next hload => exact .inl ⟨hload, (Option.some.inj (Except.ok.inj h)).symm⟩
    · next hmiss => exact .inr ⟨by simpa using hmiss, h⟩

/-- What is found is found whatever would be tried after it. -/
theorem probe_append (base : String) (forms more : List Form) (hit : ProbeHit)
    (h : probe files limit base forms = .ok (some hit)) :
    probe files limit base (forms ++ more) = .ok (some hit) := by
  induction forms with
  | nil => cases h
  | cons form forms ih =>
    rw [List.cons_append]
    rw [probe] at h ⊢
    split at h
    · cases h
    · split at h
      · next hload =>
        simp only [hload, if_true]
        exact h
      · next hload =>
        simp only [hload]
        exact ih h

theorem suffix_injective (base : String) (form form' : Form) :
    base ++ form.suffix = base ++ form'.suffix ↔ form = form' := by
  rw [String.append_right_inj]
  cases form <;> cases form' <;> decide

/-- Both orders find the same file, unless the path is a file itself and there is
another one that a name stands for rather. -/
theorem search_direct_iff (base : String) (hit hit' : ProbeHit)
    (hsearch : probe files limit base Form.search = .ok (some hit))
    (hdirect : probe files limit base Form.direct = .ok (some hit')) :
    hit.path = hit'.path ↔ ¬ (files.isLoadable base = true ∧
      (files.isLoadable (base ++ Form.index.suffix) = true ∨
        files.isLoadable (base ++ Form.extension.suffix) = true)) := by
  have hbase : base ++ Form.exact.suffix = base := String.append_empty
  rw [path_of_probe files limit base _ hit hsearch, path_of_probe files limit base _ hit' hdirect,
    suffix_injective]
  rcases probe_cons_eq_some files limit base .exact _ hit' hdirect with
    ⟨hexact, rfl⟩ | ⟨hexact, hdirect⟩
  · rw [hbase] at hexact
    rcases probe_cons_eq_some files limit base .index _ hit hsearch with
      ⟨hindex, rfl⟩ | ⟨hindex, hsearch⟩
    · simp [hexact, hindex]
    rcases probe_cons_eq_some files limit base .extension _ hit hsearch with
      ⟨hextension, rfl⟩ | ⟨hextension, hsearch⟩
    · simp [hexact, hextension]
    · have hform := (probe_eq_some files limit base _ hit hsearch).1
      simp [List.mem_singleton.1 hform, hindex, hextension]
  · have hsame : probe files limit base Form.search = .ok (some hit') :=
      probe_append files limit base [.index, .extension] [.exact] hit' hdirect
    rw [hbase] at hexact
    rw [hsearch] at hsame
    simp [Option.some.inj (Except.ok.inj hsame), hexact]

end Probing

theorem inside_of_append_eq (root root' rest rest' : String) (hne : root ≠ root')
    (h : root ++ "/" ++ rest = root' ++ "/" ++ rest') : Inside root root' ∨ Inside root' root := by
  have hlists : root.toList ++ ('/' :: rest.toList) = root'.toList ++ ('/' :: rest'.toList) := by
    simpa using congrArg String.toList h
  have hinside : ∀ inner outer : String, ∀ between inside outside : List Char,
      inner ≠ outer → inner.toList = outer.toList ++ between →
      '/' :: outside = between ++ inside → Inside inner outer := by
    intro inner outer between inside outside hdiffer hinner hbetween
    cases between with
    | nil =>
      refine absurd (String.toList_inj.1 ?_) hdiffer
      simpa using hinner
    | cons c after =>
      obtain ⟨rfl, _⟩ := List.cons.inj hbetween
      refine ⟨String.ofList after, String.toList_inj.1 ?_⟩
      simpa using hinner
  rcases List.append_eq_append_iff.1 hlists with ⟨between, hroot, hrest⟩ | ⟨between, hroot, hrest⟩
  · exact .inr (hinside root' root between _ _ hne.symm hroot hrest)
  · exact .inl (hinside root root' between _ _ hne hroot hrest)

/-- The last letters of a path that a dot leads up to tell its form. -/
theorem form_of_dot (before before' : String) (form form' : Form)
    (h : before ++ "." ++ form.suffix = before' ++ "." ++ form'.suffix) : form = form' := by
  have hlists := congrArg (fun path : String => path.toList.reverse) h
  cases form <;> cases form' <;> simp [Form.suffix] at hlists ⊢

theorem dot_paths_ne (root : String) (form form' : Form) :
    root ++ "/" ++ Key.workingDirectory ++ form.suffix ≠
      Key.workingDirectory ++ form'.suffix := by
  intro h
  have hdot : (root ++ "/") ++ "." ++ form.suffix = "" ++ "." ++ form'.suffix := by
    simpa [Key.workingDirectory] using h
  rw [form_of_dot _ _ form form' hdot, String.append_left_inj] at h
  have hlength := congrArg String.length h
  simp [Key.workingDirectory] at hlength

/-- Where the file of an answer was found. -/
structure Located (resolver : Resolver) (files : FileView) (raw : String) (found : Resolved)
    (hit : ProbeHit) : Prop where
  content_eq : found.content = .file hit.path
  isKey : IsKey found.identity.space found.identity.key
  space_eq : found.identity.space =
    if found.identity.root.isSome then .search else .filesystem
  probe_eq : probe files resolver.settings.candidateLimit
    (stem found.identity.root found.identity.key)
    ((⟨raw⟩ : Specifier).order found.identity.root) = .ok (some hit)

namespace Resolver

variable {resolver : Resolver} {files : FileView} {raw : String} {base : BaseDir}

theorem Finds.located {found : Resolved} (hfinds : resolver.Finds files raw base found)
    (hbase : resolver.Placed base) : ∃ hit, Located resolver files raw found hit := by
  have hkey := hfinds.isKey hbase
  cases hfinds with
  | name hkind h =>
    obtain ⟨root, _, hit, hprobe, rfl⟩ := resolver.underRoots_probe _ _ _ _ found h
    have horder : (⟨raw⟩ : Specifier).order (some root) = Form.search := if_pos ⟨rfl, hkind⟩
    exact ⟨hit, rfl, hkey, rfl, horder ▸ hprobe⟩
  | fallback hkind hallowed hmiss h =>
    obtain ⟨hit, hprobe, rfl⟩ := resolver.atPath_probe _ _ found h
    exact ⟨hit, rfl, hkey, rfl, hprobe⟩
  | sibling hkind hspace h =>
    obtain ⟨root, _, hit, hprobe, rfl⟩ := resolver.underRoots_probe _ _ _ _ found h
    have horder : (⟨raw⟩ : Specifier).order (some root) = Form.direct :=
      if_neg (by simp [hkind])
    exact ⟨hit, rfl, hkey, rfl, horder ▸ hprobe⟩
  | path hkind hspace h =>
    obtain ⟨hit, hprobe, rfl⟩ := resolver.atPath_probe _ _ found h
    exact ⟨hit, rfl, hkey, rfl, hprobe⟩

end Resolver

/-- Two answers that share a key but were not found in the same place. -/
inductive Clashes (files : FileView) (raw raw' : String) (found found' : Resolved) : Prop
  | spaces (hspace : found.identity.space ≠ found'.identity.space)
  | roots (root root' : String) (hroot : found.identity.root = some root)
      (hroot' : found'.identity.root = some root') (hne : root ≠ root')
  | orders (root : String) (hroot : found.identity.root = some root)
      (hroot' : found'.identity.root = some root)
      (hkind : ¬ ((⟨raw⟩ : Specifier).kind = .bare ↔ (⟨raw'⟩ : Specifier).kind = .bare))
      (hexact : files.isLoadable (stem (some root) found.identity.key) = true)
      (hother : files.isLoadable
          (stem (some root) found.identity.key ++ Form.index.suffix) = true ∨
        files.isLoadable
          (stem (some root) found.identity.key ++ Form.extension.suffix) = true)

namespace Located

variable {resolver : Resolver} {files : FileView} {raw raw' : String} {found found' : Resolved}
variable {hit hit' : ProbeHit}

theorem path_eq (h : Located resolver files raw found hit) :
    hit.path = stem found.identity.root found.identity.key ++ hit.form.suffix :=
  path_of_probe files _ _ _ hit h.probe_eq

theorem clashes_iff_of_root (h : Located resolver files raw found hit)
    (h' : Located resolver files raw' found' hit') (root : String)
    (hroot : found.identity.root = some root) (hroot' : found'.identity.root = some root) :
    Clashes files raw raw' found found' ↔
      ¬ ((⟨raw⟩ : Specifier).kind = .bare ↔ (⟨raw'⟩ : Specifier).kind = .bare) ∧
        files.isLoadable (stem (some root) found.identity.key) = true ∧
        (files.isLoadable
            (stem (some root) found.identity.key ++ Form.index.suffix) = true ∨
          files.isLoadable
            (stem (some root) found.identity.key ++ Form.extension.suffix) = true) := by
  constructor
  · intro hclash
    cases hclash with
    | spaces hspace =>
      rw [h.space_eq, h'.space_eq, hroot, hroot'] at hspace
      exact absurd rfl hspace
    | roots left right hleft hright hne =>
      rw [hroot, Option.some.injEq] at hleft
      rw [hroot', Option.some.injEq] at hright
      exact absurd (hleft.symm.trans hright) hne
    | orders other hother _ hkind hexact hothers =>
      rw [hroot, Option.some.injEq] at hother
      subst hother
      exact ⟨hkind, hexact, hothers⟩
  · rintro ⟨hkind, hexact, hother⟩
    exact .orders root hroot hroot' hkind hexact hother

/-- Where the root is the same, only the order can make a difference. -/
theorem path_eq_iff_of_root (h : Located resolver files raw found hit)
    (h' : Located resolver files raw' found' hit')
    (hkey : found.identity.key = found'.identity.key) (root : String)
    (hroot : found.identity.root = some root) (hroot' : found'.identity.root = some root) :
    hit.path = hit'.path ↔ ¬ Clashes files raw raw' found found' := by
  rw [clashes_iff_of_root h h' root hroot hroot']
  have hprobe := h.probe_eq
  have hprobe' := h'.probe_eq
  rw [hroot] at hprobe
  rw [hroot', ← hkey] at hprobe'
  generalize stem (some root) found.identity.key = place at hprobe hprobe' ⊢
  by_cases hbare : (⟨raw⟩ : Specifier).kind = .bare
  · by_cases hbare' : (⟨raw'⟩ : Specifier).kind = .bare
    · have hsame : hit = hit' := by
        rw [Specifier.order, if_pos ⟨rfl, hbare⟩] at hprobe
        rw [Specifier.order, if_pos ⟨rfl, hbare'⟩, hprobe] at hprobe'
        exact Option.some.inj (Except.ok.inj hprobe')
      simp [hsame, hbare, hbare']
    · rw [Specifier.order, if_pos ⟨rfl, hbare⟩] at hprobe
      rw [Specifier.order, if_neg fun hboth => hbare' hboth.2] at hprobe'
      rw [search_direct_iff files _ place hit hit' hprobe hprobe']
      simp [hbare, hbare']
  · rw [Specifier.order, if_neg fun hboth => hbare hboth.2] at hprobe
    by_cases hbare' : (⟨raw'⟩ : Specifier).kind = .bare
    · rw [Specifier.order, if_pos ⟨rfl, hbare'⟩] at hprobe'
      rw [eq_comm, search_direct_iff files _ place hit' hit hprobe' hprobe]
      simp [hbare, hbare']
    · have hsame : hit = hit' := by
        rw [Specifier.order, if_neg fun hboth => hbare' hboth.2, hprobe] at hprobe'
        exact Option.some.inj (Except.ok.inj hprobe')
      simp [hsame, hbare, hbare']

theorem path_eq_of_no_root (h : Located resolver files raw found hit)
    (h' : Located resolver files raw' found' hit')
    (hkey : found.identity.key = found'.identity.key)
    (hroot : found.identity.root = none) (hroot' : found'.identity.root = none) :
    hit.path = hit'.path ∧ ¬ Clashes files raw raw' found found' := by
  have hprobe := h.probe_eq
  have hprobe' := h'.probe_eq
  rw [hroot, Specifier.order, if_neg (by simp)] at hprobe
  rw [hroot', ← hkey, Specifier.order, if_neg (by simp), hprobe] at hprobe'
  refine ⟨by rw [Option.some.inj (Except.ok.inj hprobe')], fun hclash => ?_⟩
  cases hclash with
  | spaces hspace =>
    rw [h.space_eq, h'.space_eq, hroot, hroot'] at hspace
    exact hspace rfl
  | roots root root' hsome hsome' hne => simp [hroot] at hsome
  | orders root hsome hsome' hkind hexact hother => simp [hroot] at hsome

/-- Under different roots there are different files, unless one root lies inside the
other. -/
theorem path_ne_of_roots (h : Located resolver files raw found hit)
    (h' : Located resolver files raw' found' hit')
    (hkey : found.identity.key = found'.identity.key) (root root' : String)
    (hroot : found.identity.root = some root) (hroot' : found'.identity.root = some root')
    (hne : root ≠ root') :
    hit.path ≠ hit'.path ∨ Inside root root' ∨ Inside root' root := by
  by_cases hpath : hit.path = hit'.path
  · rw [h.path_eq, h'.path_eq, hroot, hroot', ← hkey] at hpath
    simp only [stem, String.append_assoc] at hpath
    exact .inr (inside_of_append_eq root root' _ _ hne (by simpa only [String.append_assoc]))
  · exact .inl hpath

/-- The one key that both spaces have stands for different files in them. -/
theorem path_ne_of_space (h : Located resolver files raw found hit)
    (h' : Located resolver files raw' found' hit')
    (hkey : found.identity.key = found'.identity.key) (root : String)
    (hroot : found.identity.root = some root) (hroot' : found'.identity.root = none) :
    hit.path ≠ hit'.path := by
  have hname := h.isKey
  have hpath := h'.isKey
  rw [h.space_eq, hroot] at hname
  rw [h'.space_eq, hroot', ← hkey] at hpath
  have hdot : found.identity.key = Key.workingDirectory := hname.eq_workingDirectory hpath
  rw [h.path_eq, h'.path_eq, ← hkey, hroot, hroot', hdot]
  exact dot_paths_ne root hit.form hit'.form

end Located

/-- Two answers of one key are the same file unless they clash. Answers that clash
are different files, but for roots that lie one inside the other. -/
theorem file_of_shared_key (resolver : Resolver) (files : FileView)
    (hempty : resolver.table = .empty) (base base' : BaseDir)
    (hbase : resolver.Reached files base) (hbase' : resolver.Reached files base')
    (raw raw' : String) (found found' : Resolved) (path path' : String)
    (hresolve : resolver.resolve files raw base = .ok found)
    (hresolve' : resolver.resolve files raw' base' = .ok found')
    (hfile : found.content = .file path) (hfile' : found'.content = .file path')
    (hkey : found.identity.key = found'.identity.key) :
    (¬ Clashes files raw raw' found found' → path = path') ∧
      (Clashes files raw raw' found found' → path ≠ path' ∨
        ∃ root root', found.identity.root = some root ∧ found'.identity.root = some root' ∧
          (Inside root root' ∨ Inside root' root)) := by
  have hplaced := hbase.placed hempty
  have hplaced' := hbase'.placed hempty
  have horigin : found.content.origin ≠ .engine := by simp [hfile, Content.origin]
  have horigin' : found'.content.origin ≠ .engine := by simp [hfile', Content.origin]
  obtain ⟨hit, hlocated⟩ :=
    (resolver.finds_of_resolve files raw base hempty found hresolve horigin).located hplaced
  obtain ⟨hit', hlocated'⟩ :=
    (resolver.finds_of_resolve files raw' base' hempty found' hresolve' horigin').located hplaced'
  have hpath : path = hit.path := Content.file.inj (hfile.symm.trans hlocated.content_eq)
  have hpath' : path' = hit'.path := Content.file.inj (hfile'.symm.trans hlocated'.content_eq)
  subst hpath hpath'
  cases hroot : found.identity.root with
  | none =>
    cases hroot' : found'.identity.root with
    | none =>
      obtain ⟨hsame, hclash⟩ := hlocated.path_eq_of_no_root hlocated' hkey hroot hroot'
      exact ⟨fun _ => hsame, fun h => absurd h hclash⟩
    | some root' =>
      have hne := hlocated'.path_ne_of_space hlocated hkey.symm root' hroot' hroot
      have hclash : Clashes files raw raw' found found' := .spaces (by
        simp [hlocated.space_eq, hlocated'.space_eq, hroot, hroot'])
      exact ⟨fun h => absurd hclash h, fun _ => .inl hne.symm⟩
  | some root =>
    cases hroot' : found'.identity.root with
    | none =>
      have hne := hlocated.path_ne_of_space hlocated' hkey root hroot hroot'
      have hclash : Clashes files raw raw' found found' := .spaces (by
        simp [hlocated.space_eq, hlocated'.space_eq, hroot, hroot'])
      exact ⟨fun h => absurd hclash h, fun _ => .inl hne⟩
    | some root' =>
      by_cases hne : root = root'
      · subst hne
        have hiff := hlocated.path_eq_iff_of_root hlocated' hkey root hroot hroot'
        exact ⟨hiff.2, fun h => .inl fun heq => hiff.1 heq h⟩
      · have hclash : Clashes files raw raw' found found' := .roots root root' hroot hroot' hne
        refine ⟨fun h => absurd hclash h, fun _ => ?_⟩
        rcases hlocated.path_ne_of_roots hlocated' hkey root root' hroot hroot' hne with
          hdiffer | hinside
        · exact .inl hdiffer
        · exact .inr ⟨root, root', rfl, rfl, hinside⟩

-- Two roots that have a module of the same name. A module beside the second one imports it as
-- its neighbour.
namespace SharedName

def files : FileView
  | "a/x.js" => .ok (.file (Utf8.encode "export default 1;\n"))
  | "b/x.js" => .ok (.file (Utf8.encode "export default 2;\n"))
  | "b/y.js" => .ok (.file (Utf8.encode "import './x';\n"))
  | _ => .error .noSuchFile

def resolver : Resolver := ⟨{ searchPath := ⟨["a", "b"]⟩ }, .empty, .none⟩

def neighbour : Identity := ⟨"y", ".", .search, some "b"⟩

theorem resolve_neighbour : resolver.resolve files "y" .workingDirectory =
    .ok ⟨neighbour, .file "b/y.js"⟩ := rfl

theorem reached_neighbour : resolver.Reached files neighbour.baseDir :=
  .step .workingDirectory "y" ⟨neighbour, .file "b/y.js"⟩ .start resolve_neighbour

/-- The name and the neighbour have one key and are two files. -/
theorem key_of_two_files :
    resolver.table = .empty ∧ resolver.Reached files .workingDirectory ∧
      resolver.Reached files neighbour.baseDir ∧
      ∃ found found', resolver.resolve files "x" .workingDirectory = .ok found ∧
        resolver.resolve files "./x" neighbour.baseDir = .ok found' ∧
        found.identity.key = found'.identity.key ∧
        found.content = .file "a/x.js" ∧ found'.content = .file "b/x.js" :=
  ⟨rfl, .start, reached_neighbour, ⟨⟨"x", ".", .search, some "a"⟩, .file "a/x.js"⟩,
    ⟨⟨"x", ".", .search, some "b"⟩, .file "b/x.js"⟩, rfl, rfl, rfl, rfl, rfl⟩

end SharedName

open SharedName in
/-- The neighbour imported by itself is the file that its name leads to. -/
theorem file_of_shared_key_sample :
    ∃ found found' path path', resolver.resolve files "y" .workingDirectory = .ok found ∧
      resolver.resolve files "./y" neighbour.baseDir = .ok found' ∧
      found.content = .file path ∧ found'.content = .file path' ∧ path = path' := by
  have hself : resolver.resolve files "./y" neighbour.baseDir =
      .ok ⟨neighbour, .file "b/y.js"⟩ := rfl
  refine ⟨_, _, "b/y.js", "b/y.js", resolve_neighbour, hself, rfl, rfl, ?_⟩
  refine (file_of_shared_key resolver files rfl .workingDirectory neighbour.baseDir .start
    reached_neighbour "y" "./y" _ _ "b/y.js" "b/y.js" resolve_neighbour hself rfl rfl rfl).1 ?_
  intro hclash
  cases hclash with
  | spaces hspace => exact hspace rfl
  | roots root root' hroot hroot' hne => exact hne (Option.some.inj (hroot.symm.trans hroot'))
  | orders root hroot hroot' hkind hexact hother =>
    obtain rfl : "b" = root := Option.some.inj hroot
    cases hexact

end ModuleLoading
