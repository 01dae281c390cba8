import ModuleLoading.Resolve

/-!
The prospects of a specifier are all the modules it could turn out to name,
whatever files there are. Resolution looks at their paths and at no others, so two
file systems that hold files at the same of these paths give the same resolution.
A program that is to resolve in one go can thus read ahead.
-/
namespace ModuleLoading

namespace Resolver

variable (resolver : Resolver)

def prospectsAt (base key : String) (space : Namespace) (root : Option String)
    (forms : List Form) : List Resolved :=
  forms.filterMap fun form =>
    match form.candidate resolver.settings.candidateLimit base with
    | .ok path => some ⟨.ofProbe key space form root, .file path⟩
    | .error _ => none

def prospectsUnder (request : Request) (order : List Form) (roots : List String) :
    List Resolved :=
  roots.flatMap fun root =>
    resolver.prospectsAt (root ++ "/" ++ request.key) request.key .search (some root) order

def prospectsOnPath (key : String) : List Resolved :=
  resolver.prospectsAt key key .filesystem none Form.direct

def prospectFiles (request : Request) : List Resolved :=
  match request.space, request.specifier.kind with
  | .filesystem, _ => resolver.prospectsOnPath (request.fallbackKey.getD request.key)
  | .search, .relative =>
    resolver.prospectsUnder request Form.direct (resolver.siblingRoots request)
  | .search, _ =>
    resolver.prospectsUnder request Form.search resolver.settings.searchPath.roots ++
      resolver.prospectsOnPath (request.fallbackKey.getD request.key)

def prospects (raw : String) (base : BaseDir) : List Resolved :=
  let request := Request.make raw base
  match resolver.embedded? request with
  | some m => [⟨m.identity, .embedded m.code⟩]
  | none => resolver.prospectFiles request

end Resolver

/-- Two file systems hold loadable files at the same of some prospects' paths. -/
def AgreeOn (files files' : FileView) (prospects : List Resolved) : Prop :=
  ∀ prospect ∈ prospects, ∀ path, prospect.content = .file path →
    files.isLoadable path = files'.isLoadable path

variable {resolver : Resolver} {files files' : FileView}

private theorem probe_congr {limit : Nat} {base : String} {forms : List Form}
    (h : ∀ form ∈ forms, ∀ path, form.candidate limit base = .ok path →
      files.isLoadable path = files'.isLoadable path) :
    probe files limit base forms = probe files' limit base forms := by
  induction forms with
  | nil => rfl
  | cons form forms ih =>
    have hrest := ih fun f hf => h f (List.mem_cons_of_mem _ hf)
    unfold probe
    split
    · rfl
    · next path hpath => rw [h form List.mem_cons_self path hpath, hrest]

private theorem probe_congr_of_agreeOn {base key : String} {space : Namespace}
    {root : Option String} {forms : List Form}
    (h : AgreeOn files files' (resolver.prospectsAt base key space root forms)) :
    probe files resolver.settings.candidateLimit base forms =
      probe files' resolver.settings.candidateLimit base forms := by
  refine probe_congr fun form hform path hpath => ?_
  refine h ⟨.ofProbe key space form root, .file path⟩ ?_ path rfl
  exact List.mem_filterMap.2 ⟨form, hform, by rw [hpath]⟩

private theorem probeRoots_congr {request : Request} {order : List Form} {roots : List String}
    (h : AgreeOn files files' (resolver.prospectsUnder request order roots)) :
    probeRoots files resolver.settings.candidateLimit order request.key roots =
      probeRoots files' resolver.settings.candidateLimit order request.key roots := by
  induction roots with
  | nil => rfl
  | cons root roots ih =>
    have hroot := probe_congr_of_agreeOn fun p hp => h p (List.mem_append_left _ hp)
    have hrest := ih fun p hp => h p (List.mem_append_right _ hp)
    simp only [probeRoots, probeRoot, hroot, hrest]

private theorem underRoots_congr {request : Request} {order : List Form} {roots : List String}
    (h : AgreeOn files files' (resolver.prospectsUnder request order roots)) :
    resolver.underRoots files request order roots =
      resolver.underRoots files' request order roots := by
  simp only [Resolver.underRoots, probeRoots_congr h]

private theorem atPath_congr {key : String}
    (h : AgreeOn files files' (resolver.prospectsOnPath key)) :
    resolver.atPath files key = resolver.atPath files' key := by
  simp only [Resolver.atPath, probe_congr_of_agreeOn h]

private theorem bareFile_congr {request : Request}
    (h : AgreeOn files files'
      (resolver.prospectsUnder request Form.search resolver.settings.searchPath.roots ++
        resolver.prospectsOnPath (request.fallbackKey.getD request.key))) :
    resolver.bareFile files request = resolver.bareFile files' request := by
  simp only [Resolver.bareFile, underRoots_congr fun p hp => h p (List.mem_append_left _ hp),
    atPath_congr fun p hp => h p (List.mem_append_right _ hp)]

private theorem file?_congr {request : Request}
    (h : AgreeOn files files' (resolver.prospectFiles request)) :
    resolver.file? files request = resolver.file? files' request := by
  unfold Resolver.prospectFiles at h
  unfold Resolver.file?
  cases hspace : request.space with
  | filesystem => exact atPath_congr (by simpa only [hspace] using h)
  | search =>
    cases hkind : request.specifier.kind with
    | relative => exact underRoots_congr (by simpa only [hspace, hkind] using h)
    | bare | absolute => exact bareFile_congr (by simpa only [hspace, hkind] using h)

/-- Resolution looks at nothing but its prospects. -/
theorem resolve_congr {raw : String} {base : BaseDir}
    (h : AgreeOn files files' (resolver.prospects raw base)) :
    resolver.resolve files raw base = resolver.resolve files' raw base := by
  unfold Resolver.prospects at h
  unfold Resolver.resolve
  simp only at h ⊢
  split
  · rfl
  · next hnone => simp only [hnone] at h; rw [file?_congr h]

end ModuleLoading
