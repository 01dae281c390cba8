import ModuleLoading.Proofs.SharedKeys

/-!
How far relative imports reach. A module found under a search root hands its root
on to what it imports by relative specifiers, and a key that is a name does not step
up, so whatever such imports lead to lies below that root. What the engine supplies
has no root: a chain of imports that passes it goes on from the working directory.
-/
namespace ModuleLoading

namespace Key

theorem up_notMem_ofName (name : String) : up ∉ Text.split '/' (Key.ofName name).toList := by
  obtain ⟨idle, hidle, hkey, hform⟩ := ofName_form name
  have hne : idle ++ segments true name.toList ≠ [] := by
    rcases hform with h | ⟨_, h⟩
    · simp [h]
    · simp [h]
  rw [hkey, Text.split_join '/' _ hne (slash_notMem_of_mem_append true name.toList idle hidle)]
  intro hmem
  rcases List.mem_append.1 hmem with hmem | hmem
  · rcases hidle up hmem with h | h
    · cases h
    · cases h
  · exact (plain_of_mem_segments name.toList up hmem).2.2 rfl

/-- No form of a name steps up either. -/
theorem up_notMem_candidate (name : String) (form : Form) :
    up ∉ Text.split '/' (Key.ofName name ++ form.suffix).toList := by
  have hname := up_notMem_ofName name
  rw [String.toList_append]
  cases form with
  | exact => simpa [Form.suffix] using hname
  | index =>
    have hsuffix : Form.index.suffix.toList = '/' :: "index.js".toList := by decide
    rw [hsuffix, Text.split_append_sep, List.mem_append, not_or]
    exact ⟨hname, by decide⟩
  | extension =>
    obtain ⟨pieces, last, hsplit, happend⟩ :=
      Text.split_append '/' (Key.ofName name).toList Form.extension.suffix.toList (by decide)
    rw [hsplit, List.mem_append, not_or] at hname
    rw [happend, List.mem_append, not_or]
    constructor
    · exact hname.1
    · intro hmem
      have hlength := congrArg List.length (List.mem_singleton.1 hmem)
      rw [List.length_append] at hlength
      have hup : up.length = 2 := rfl
      have hsuffix : Form.extension.suffix.toList.length = 3 := by decide
      omega

end Key

/-- A file found under a root, at a path that does not lead out of it. -/
structure Below (root : String) (found : Resolved) : Prop where
  space_eq : found.identity.space = .search
  root_eq : found.identity.root = some root
  content_eq : ∃ inner, found.content = .file (root ++ "/" ++ inner) ∧
    Key.up ∉ Text.split '/' inner.toList

/-- The modules that relative specifiers lead to, each seen from the one before. Those
passed on the way are listed, the first one included. -/
inductive Follows (resolver : Resolver) (files : FileView) (first : Resolved) :
    List Resolved → Resolved → Prop
  | start : Follows resolver files first [] first
  | step (passed : List Resolved) (found next : Resolved) (raw : String)
      (h : Follows resolver files first passed found)
      (hkind : (⟨raw⟩ : Specifier).kind = .relative)
      (hresolve : resolver.resolve files raw found.identity.baseDir = .ok next) :
      Follows resolver files first (passed ++ [found]) next

section Roots

variable (resolver : Resolver) (files : FileView)

theorem below_of_underRoots (request : Request) (name : String)
    (hname : request.key = Key.ofName name) (order : List Form) (roots : List String)
    (found : Resolved) (h : resolver.underRoots files request order roots = .ok (some found)) :
    ∃ root ∈ roots, Below root found := by
  obtain ⟨root, hroot, hit, hprobe, rfl⟩ :=
    resolver.underRoots_probe files request order roots found h
  have hpath : hit.path = root ++ "/" ++ request.key ++ hit.form.suffix :=
    path_of_probe files _ _ order hit hprobe
  refine ⟨root, hroot, rfl, rfl, request.key ++ hit.form.suffix, ?_, ?_⟩
  · rw [hpath, String.append_assoc]
  · rw [hname]
    exact Key.up_notMem_candidate name hit.form

/-- A name that is found under a root is found below it. -/
theorem below_of_bare (raw : String) (base : BaseDir) (hempty : resolver.table = .empty)
    (hkind : (⟨raw⟩ : Specifier).kind = .bare) (found : Resolved)
    (h : resolver.resolve files raw base = .ok found) (root : String)
    (hroot : found.identity.root = some root) : Below root found := by
  rcases resolver.finds_or_engine files raw base hempty found h with hfinds | ⟨_, hengine⟩
  · cases hfinds with
    | name _ h =>
      have hkey : (Request.make raw base).key = Key.ofName (⟨raw⟩ : Specifier).effective := by
        rw [Request.make_bare raw base hkind]
      obtain ⟨root', _, hbelow⟩ := below_of_underRoots resolver files _ _ hkey _ _ found h
      have hsame : root' = root := Option.some.inj (hbelow.root_eq.symm.trans hroot)
      exact hsame ▸ hbelow
    | fallback _ _ _ h =>
      obtain ⟨_, _, _, rfl⟩ := resolver.atPath_eq_some _ _ found h
      cases hroot
    | sibling hrelative => simp [hkind] at hrelative
    | path hother => exact absurd hkind hother
  · rw [(resolver.identity_of_fromEngine raw found hengine).1] at hroot
    cases hroot

/-- A relative import stays below the root of its importer, unless the engine answers. -/
theorem below_of_relative (raw : String) (base : BaseDir) (hempty : resolver.table = .empty)
    (hkind : (⟨raw⟩ : Specifier).kind = .relative) (hspace : base.space = .search)
    (root : String) (hroot : base.root = some root) (found : Resolved)
    (h : resolver.resolve files raw base = .ok found)
    (horigin : found.content.origin ≠ .engine) : Below root found := by
  have hrequest := Request.make_relative raw base hkind
  cases resolver.finds_of_resolve files raw base hempty found h horigin with
  | name hbare => simp [hkind] at hbare
  | fallback hbare => simp [hkind] at hbare
  | path _ hfilesystem =>
    rw [hrequest] at hfilesystem
    simp [hspace] at hfilesystem
  | sibling _ _ h =>
    have hkey : (Request.make raw base).key =
        Key.ofName (base.dir ++ "/" ++ (⟨raw⟩ : Specifier).effective) := by
      rw [hrequest]
      simp only [hspace, Key.join]
    have hroots : resolver.siblingRoots (Request.make raw base) = [root] := by
      rw [hrequest, Resolver.siblingRoots]
      simp only [hroot]
    rw [Resolver.siblingFile, hroots] at h
    obtain ⟨root', hmem, hbelow⟩ := below_of_underRoots resolver files _ _ hkey _ _ found h
    exact List.mem_singleton.1 hmem ▸ hbelow

end Roots

/-- Relative imports that start below a root stay below it, as long as the engine
answers none of them. -/
theorem below_of_follows (resolver : Resolver) (files : FileView)
    (hempty : resolver.table = .empty) (raw : String) (base : BaseDir)
    (hkind : (⟨raw⟩ : Specifier).kind = .bare) (first : Resolved)
    (hfirst : resolver.resolve files raw base = .ok first) (root : String)
    (hroot : first.identity.root = some root) (passed : List Resolved) (found : Resolved)
    (h : Follows resolver files first passed found)
    (hpassed : ∀ m ∈ passed, m.content.origin ≠ .engine)
    (horigin : found.content.origin ≠ .engine) : Below root found := by
  induction h with
  | start => exact below_of_bare resolver files raw base hempty hkind first hfirst root hroot
  | step passed found next raw' _ hrelative hresolve ih =>
    have hbelow : Below root found := by
      apply ih
      · intro m hm
        exact hpassed m (List.mem_append_left _ hm)
      · exact hpassed found (by simp)
    exact below_of_relative resolver files raw' _ hempty hrelative hbelow.space_eq root
      hbelow.root_eq next hresolve horigin

-- A package whose imports pass a module of the engine.
namespace EngineDetour

def files : FileView
  | "mods/pkg.js" => .ok (.file (Utf8.encode "import './host';\n"))
  | "mods/main.js" => .ok (.file (Utf8.encode "export default 1;\n"))
  | "main.js" => .ok (.file (Utf8.encode "export default 2;\n"))
  | "./main.js" => .ok (.file (Utf8.encode "export default 2;\n"))
  | _ => .error .noSuchFile

def builtins : Builtins := Builtins.none.register "./host" (Utf8.encode "import './main';\n")

def resolver : Resolver := ⟨{ searchPath := ⟨["mods"]⟩ }, .empty, builtins⟩

def pkg : Resolved := ⟨⟨"pkg", ".", .search, some "mods"⟩, .file "mods/pkg.js"⟩

def sibling : Resolved := ⟨⟨"main", ".", .search, some "mods"⟩, .file "mods/main.js"⟩

def host : Resolved := ⟨.ofEngine "./host", .engine (Utf8.encode "import './main';\n")⟩

def main : Resolved := ⟨⟨"./main", ".", .filesystem, none⟩, .file "./main.js"⟩

theorem resolve_pkg : resolver.resolve files "pkg" .workingDirectory = .ok pkg := rfl

theorem follows_host : Follows resolver files pkg [pkg] host :=
  .step [] pkg host "./host" .start rfl rfl

/-- The engine's module imports a file beside the working directory's. -/
theorem follows_main : Follows resolver files pkg [pkg, host] main :=
  .step [pkg] host main "./main" follows_host rfl rfl

/-- A chain that passes the engine comes out of the root. -/
theorem not_below_main : resolver.table = .empty ∧
    resolver.resolve files "pkg" .workingDirectory = .ok pkg ∧
    pkg.identity.root = some "mods" ∧
    ¬ ∀ passed found, Follows resolver files pkg passed found →
      found.content.origin ≠ .engine → Below "mods" found := by
  refine ⟨rfl, resolve_pkg, rfl, ?_⟩
  intro hall
  have hbelow := hall [pkg, host] main follows_main (by decide)
  cases hbelow.space_eq

end EngineDetour

open EngineDetour in
/-- Steps up lead no further than the root. -/
theorem below_of_follows_sample : Below "mods" sibling :=
  below_of_follows resolver files rfl "pkg" .workingDirectory rfl pkg resolve_pkg "mods" rfl
    [pkg] sibling (.step [] pkg sibling "../../main" .start rfl rfl) (by simp [pkg, Content.origin])
    (by decide)

end ModuleLoading
