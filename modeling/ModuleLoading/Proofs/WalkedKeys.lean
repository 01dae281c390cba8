import Mathlib.Data.List.Basic
import ModuleLoading.FileTree
import ModuleLoading.Proofs.NormalKeys
import ModuleLoading.Proofs.Utf8Codec
import ModuleLoading.Proofs.WrittenFiles

/-!
Where no symbolic links are, the key of a path leads to the same place as the path. A key is
what is left of the path's segments on a stack. A step up takes a name off the stack, and it
goes back to where that name was entered from, so that walking the stack keeps leading to the
place that walking the segments has come to.
-/
namespace ModuleLoading

namespace Key

/-- The name in a directory tree that a segment stands for. -/
def fileName (segment : Segment) : FileName := segment.flatMap String.utf8EncodeChar

theorem fileName_injective {left right : Segment} (h : fileName left = fileName right) :
    left = right := by
  have hencode : Utf8.encode (String.ofList left) = Utf8.encode (String.ofList right) := by
    rw [Utf8.encode, Utf8.encode, String.toList_ofList, String.toList_ofList]
    exact h
  have hdecode := congrArg Utf8.decode hencode
  rw [Utf8.decode_encode, Utf8.decode_encode] at hdecode
  exact String.ofList_injective (Except.ok.inj hdecode)

theorem fileName_idle_iff (segment : Segment) :
    fileName segment = [] ∨ fileName segment = FileTree.stay ↔ Idle segment := by
  have hempty : fileName segment = [] ↔ segment = [] :=
    ⟨fun h => fileName_injective (h.trans rfl), fun h => h ▸ rfl⟩
  have hstay : fileName segment = FileTree.stay ↔ segment = stay :=
    ⟨fun h => fileName_injective (h.trans rfl), fun h => h ▸ rfl⟩
  rw [hempty, hstay, Idle]

theorem fileName_up_iff (segment : Segment) : fileName segment = FileTree.up ↔ segment = up :=
  ⟨fun h => fileName_injective (h.trans rfl), fun h => h ▸ rfl⟩

/-- The names of an encoded path are its segments. -/
theorem split_flatMap (path : List Char) :
    Text.split FileTree.slash (path.flatMap String.utf8EncodeChar) =
      (Text.split '/' path).map fileName :=
  Utf8.split_flatMap '/' (by decide) path

end Key

namespace FileTree

/-- How a walk takes one name after the other. A place that can be left can be stayed at. -/
structure Steps (step : Place → FileName → Option Place) : Prop where
  stays : ∀ place name next other, step place name = some next → (other = [] ∨ other = stay) →
    step place other = some place
  up : ∀ place next, step place up = some next → next = place.dropLast
  enters : ∀ place name next, name ≠ [] → name ≠ stay → name ≠ FileTree.up →
    step place name = some next → next = place ++ [name]

section Stack

open Key

variable {step : Place → FileName → Option Place}

def walkSegments (step : Place → FileName → Option Place) (start : Place)
    (segments : List Segment) : Option Place :=
  segments.foldlM (fun place segment => step place (fileName segment)) start

theorem walkSegments_append (start : Place) (segments more : List Segment) :
    walkSegments step start (segments ++ more) =
      (walkSegments step start segments).bind fun place => walkSegments step place more :=
  List.foldlM_append

/-- Walking the stack leads where the walk has come to. -/
theorem walkSegments_push (hsteps : Steps step) {clamped : Bool} {start place next : Place}
    {kept : List Segment} {segment : Segment} (hstart : clamped = true → start = [])
    (hkept : Folded clamped kept) (hwalk : walkSegments step start kept.reverse = some place)
    (hstep : step place (fileName segment) = some next) :
    walkSegments step start (push clamped kept segment).reverse = some next := by
  have hlonger : walkSegments step start (segment :: kept).reverse = some next := by
    rw [List.reverse_cons, walkSegments_append, hwalk, Option.bind_some]
    simpa [walkSegments] using hstep
  by_cases hidle : Idle segment
  · have hstays := hsteps.stays place _ next _ hstep ((fileName_idle_iff segment).2 hidle)
    rw [push_idle clamped kept segment hidle, hwalk, ← hstep, hstays]
  · by_cases hup : segment = Key.up
    · subst hup
      obtain ⟨names, ups, rfl, hups, hnames⟩ := hkept
      have hnext : next = place.dropLast := hsteps.up place next hstep
      cases names with
      | nil =>
        rw [List.nil_append] at hwalk hlonger ⊢
        rw [push_up_of_ups clamped ups hups]
        cases clamped with
        | true =>
          -- nothing is above the root
          rw [hups rfl, hstart rfl] at hwalk
          have hroot : [] = place := Option.some.inj hwalk
          rw [hnext, ← hroot, hstart rfl]
          rfl
        | false => exact hlonger
      | cons top below =>
        obtain ⟨hempty, hstay, hup⟩ := hnames top List.mem_cons_self
        rw [List.cons_append, push_up_of_name clamped _ top ⟨hempty, hstay, hup⟩]
        rw [List.cons_append, List.reverse_cons, walkSegments_append] at hwalk
        obtain ⟨before, hbefore, htop⟩ := Option.bind_eq_some_iff.1 hwalk
        have htop : step before (fileName top) = some place := by
          simpa [walkSegments] using htop
        have hidle : ¬ (fileName top = [] ∨ fileName top = FileTree.stay) := by
          rw [fileName_idle_iff]
          rintro (h | h)
          · exact hempty h
          · exact hstay h
        have hplace : place = before ++ [fileName top] :=
          hsteps.enters before _ place (fun h => hidle (.inl h)) (fun h => hidle (.inr h))
            (fun h => hup ((fileName_up_iff top).1 h)) htop
        rw [hbefore, hnext, hplace, List.dropLast_concat]
    · rw [push_plain clamped kept segment (plain_of_not_idle segment hidle hup)]
      exact hlonger

/-- A walk along the pieces of a path is a walk along what folding leaves of them. -/
theorem walkSegments_foldl (hsteps : Steps step) {clamped : Bool} {start place last : Place}
    {kept : List Segment} (pieces : List Segment) (hstart : clamped = true → start = [])
    (hkept : Folded clamped kept) (hwalk : walkSegments step start kept.reverse = some place)
    (hpieces : walkSegments step place pieces = some last) :
    walkSegments step start (pieces.foldl (push clamped) kept).reverse = some last := by
  induction pieces generalizing kept place with
  | nil =>
    rw [← hpieces]
    exact hwalk
  | cons piece rest ih =>
    rw [walkSegments, List.foldlM_cons] at hpieces
    obtain ⟨next, hstep, hrest⟩ := Option.bind_eq_some_iff.1 hpieces
    have hnext := walkSegments_push hsteps hstart hkept hwalk hstep
    exact ih (folded_push clamped kept piece hkept) hnext hrest

theorem walkSegments_idle (hsteps : Steps step) {place next : Place} {name : FileName}
    (hleft : step place name = some next) (idle : List Segment)
    (hidle : ∀ segment ∈ idle, Idle segment) : walkSegments step place idle = some place := by
  induction idle with
  | nil => rfl
  | cons segment rest ih =>
    have hstays := hsteps.stays place name next _ hleft
      ((fileName_idle_iff segment).2 (hidle segment List.mem_cons_self))
    rw [walkSegments, List.foldlM_cons, hstays]
    exact ih fun other hother => hidle other (List.mem_cons_of_mem segment hother)

end Stack

section Paths

variable (tree : FileTree) (step : Place → FileName → Option Place)

/-- Where a path leads. -/
def walkPath (path : String) : Option Place :=
  (Text.split slash (Utf8.encode path)).foldlM step (tree.origin (Utf8.encode path))

theorem origin_encode (path : String) : tree.origin (Utf8.encode path) =
    if Key.isAbsolute path.toList then [] else tree.here := by
  have hhead : (Utf8.encode path).head? = some slash ↔ Key.isAbsolute path.toList = true := by
    rw [Key.isAbsolute, Utf8.encode, beq_iff_eq]
    cases path.toList with
    | nil => simp
    | cons c rest =>
      obtain ⟨b, tail, heq, -⟩ := Utf8.spells_encodeChar c
      rw [List.flatMap_cons, heq, List.cons_append, List.head?_cons, List.head?_cons,
        Option.some.injEq, Option.some.injEq]
      constructor
      · rintro rfl
        exact Utf8.eq_of_mem_encodeChar c '/' (by decide) (heq ▸ List.mem_cons_self)
      · rintro rfl
        exact (List.cons.inj heq).1.symm
  simp only [origin, hhead]

theorem walkPath_eq (path : String) : tree.walkPath step path =
    walkSegments step (if Key.isAbsolute path.toList then [] else tree.here)
      (Text.split '/' path.toList) := by
  rw [walkPath, origin_encode, Utf8.encode, Key.split_flatMap, List.foldlM_map]
  rfl

variable {tree step}

/-- The key of a path leads where the path does. -/
theorem walkPath_ofPath (hsteps : Steps step) {path : String} {place : Place}
    (h : tree.walkPath step path = some place) :
    tree.walkPath step (Key.ofPath path) = some place := by
  rw [walkPath_eq] at h ⊢
  rw [Key.isAbsolute_ofPath]
  generalize hstart : (if Key.isAbsolute path.toList then [] else tree.here) = start at h ⊢
  have hroot : Key.isAbsolute path.toList = true → start = [] := by
    intro habsolute
    rw [← hstart, if_pos habsolute]
  obtain ⟨idle, hidle, hkey, hform⟩ := Key.ofPath_form path
  have hne : idle ++ Key.segments (Key.isAbsolute path.toList) path.toList ≠ [] := by
    split at hform
    · obtain ⟨rest, -, heq⟩ := hform
      simp [heq]
    · obtain ⟨first, rest, -, heq⟩ := hform
      simp [heq]
  -- the first piece of the path leaves the start
  obtain ⟨name, next, hleft⟩ : ∃ name next, step start name = some next := by
    cases hsplit : Text.split '/' path.toList with
    | nil => exact absurd hsplit (Text.split_ne_nil '/' _)
    | cons piece rest =>
      rw [hsplit, walkSegments, List.foldlM_cons] at h
      obtain ⟨next, hleft, -⟩ := Option.bind_eq_some_iff.1 h
      exact ⟨_, next, hleft⟩
  have hkept : Key.Folded (Key.isAbsolute path.toList) [] := ⟨[], 0, rfl, fun _ => rfl, by simp⟩
  have hsegments := walkSegments_foldl hsteps (Text.split '/' path.toList) hroot hkept rfl h
  rw [hkey, Text.split_join '/' _ hne (Key.slash_notMem_of_mem_append _ _ idle hidle),
    walkSegments_append, walkSegments_idle hsteps hleft idle hidle, Option.bind_some]
  exact hsegments

end Paths

/-- A step that asks of a name only that it is in a directory. -/
def plainStep (tree : FileTree) (place : Place) (name : FileName) : Option Place :=
  if name = [] ∨ name = stay then some place
  else if name = up then some place.dropLast
  else if tree.entry? place = some .directory ∧ tree.entry? (place ++ [name]) ≠ none then
    some (place ++ [name])
  else none

theorem steps_plainStep (tree : FileTree) : Steps tree.plainStep where
  stays place name next other _ hother := if_pos hother
  up place next h := (Option.some.inj h).symm
  enters place name next hempty hstay hup h := by
    rw [plainStep, if_neg (not_or.2 ⟨hempty, hstay⟩), if_neg hup] at h
    split at h
    · exact (Option.some.inj h).symm
    · cases h

/-- A step that also asks that every name leave a directory, be no longer than names may be,
and that follows links. -/
def strictStep (tree : FileTree) (place : Place) (name : FileName) : Option Place :=
  (tree.walk place [name]).toOption

theorem walk_eq_ok_iff (tree : FileTree) (start last : Place) (names : List FileName) :
    tree.walk start names = .ok last ↔ names.foldlM tree.strictStep start = some last := by
  induction names generalizing start with
  | nil => simp [walk]
  | cons name rest ih =>
    have hcons : tree.walk start (name :: rest) = _ := tree.walk_append start [name] rest
    rw [hcons, List.foldlM_cons, strictStep]
    cases tree.walk start [name] with
    | error e => simp [Except.toOption]
    | ok next => exact ih next

theorem walk_path_eq_ok_iff (tree : FileTree) (path : String) (place : Place) :
    tree.walk (tree.origin (Utf8.encode path)) (Text.split slash (Utf8.encode path)) = .ok place ↔
      tree.walkPath tree.strictStep path = some place :=
  walk_eq_ok_iff tree _ place _

/-- A tree without symbolic links. -/
def Unlinked (tree : FileTree) : Prop := ∀ place target, (place, Entry.link target) ∉ tree.entries

theorem Unlinked.entry?_ne {tree : FileTree} (h : tree.Unlinked) (place target : Place) :
    tree.entry? place ≠ some (.link target) := by
  intro heq
  unfold entry? at heq
  split at heq
  · cases heq
  · obtain ⟨⟨found, entry⟩, hfind, rfl⟩ := Option.map_eq_some_iff.1 heq
    exact h found target (List.mem_of_find?_eq_some hfind)

theorem steps_strictStep {tree : FileTree} (h : tree.Unlinked) : Steps tree.strictStep where
  stays place name next other hstep hother := by
    have hdirectory : tree.entry? place = some .directory := by
      by_contra hne
      rw [strictStep, walk, if_pos hne] at hstep
      cases hstep
    rw [strictStep, walk, if_neg (not_not.2 hdirectory), if_pos hother]
    rfl
  up place next hstep := by
    rw [strictStep, walk] at hstep
    split at hstep
    · cases hstep
    · exact (Option.some.inj hstep).symm
  enters place name next hempty hstay hup hstep := by
    rw [strictStep, walk, if_neg (not_or.2 ⟨hempty, hstay⟩), if_neg hup] at hstep
    split at hstep
    · cases hstep
    · split at hstep
      · cases hstep
      · split at hstep
        · cases hstep
        · next target hlink => exact absurd hlink (h.entry?_ne _ target)
        · exact (Option.some.inj hstep).symm

end FileTree

/-- In a directory tree without symbolic links the key of a path leads to the place that the path
leads to, whether a walk asks of names only to be in a directory or goes by the rules of the
file system. -/
theorem ofPath_leads_there (tree : FileTree) (hlinks : tree.Unlinked) (path : String)
    (place : Place) :
    (tree.walkPath tree.plainStep path = some place →
      tree.walkPath tree.plainStep (Key.ofPath path) = some place) ∧
    (tree.walk (tree.origin (Utf8.encode path)) (Text.split FileTree.slash (Utf8.encode path)) =
        .ok place →
      tree.walk (tree.origin (Utf8.encode (Key.ofPath path)))
        (Text.split FileTree.slash (Utf8.encode (Key.ofPath path))) = .ok place) := by
  refine ⟨FileTree.walkPath_ofPath tree.steps_plainStep, fun h => ?_⟩
  rw [FileTree.walk_path_eq_ok_iff] at h ⊢
  exact FileTree.walkPath_ofPath (FileTree.steps_strictStep hlinks) h

-- A working directory "w" with a file in a directory below it.
namespace SampleTree

def w : FileName := Utf8.encode "w"

def a : FileName := Utf8.encode "a"

def f : FileName := Utf8.encode "f"

def tree : FileTree := ⟨[([w], .directory), ([w, a], .directory), ([w, a, f], .file [])], [w]⟩

end SampleTree

theorem ofPath_leads_there_sample :
    let tree := SampleTree.tree
    let file := [SampleTree.w, SampleTree.a, SampleTree.f]
    let path := "../w/./a/../a//f"
    tree.Unlinked ∧ tree.walkPath tree.plainStep path = some file ∧
      tree.walk (tree.origin (Utf8.encode path)) (Text.split FileTree.slash (Utf8.encode path)) =
        .ok file ∧
      Key.ofPath path = "../w/a/f" ∧ tree.walkPath tree.plainStep (Key.ofPath path) = some file ∧
      tree.walk (tree.origin (Utf8.encode (Key.ofPath path)))
        (Text.split FileTree.slash (Utf8.encode (Key.ofPath path))) = .ok file := by
  intro tree file path
  have hlinks : tree.Unlinked := by
    intro place target hmem
    simp [tree, SampleTree.tree] at hmem
  have hplain : tree.walkPath tree.plainStep path = some file := by decide
  have hwalk : tree.walk (tree.origin (Utf8.encode path))
      (Text.split FileTree.slash (Utf8.encode path)) = .ok file := by decide
  obtain ⟨hplainKey, hwalkKey⟩ := ofPath_leads_there tree hlinks path file
  exact ⟨hlinks, hplain, hwalk, by decide, hplainKey hplain, hwalkKey hwalk⟩

/-- A link breaks it: the parent of the place that it stands for is not where it is. -/
example :
    let linked : FileTree := ⟨([SampleTree.f], .link [SampleTree.w, SampleTree.a]) ::
      SampleTree.tree.entries, []⟩
    linked.walk linked.here [SampleTree.f, FileTree.up] = .ok [SampleTree.w] ∧
      linked.walk linked.here [FileTree.stay] = .ok [] ∧ Key.ofPath "f/.." = "." := by
  decide

end ModuleLoading
