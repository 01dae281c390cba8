import Mathlib.Data.List.Basic
import Mathlib.Data.List.TakeWhile
import ModuleLoading.Proofs.Requests

/-!
How keys compose. The key of a text keeps all that folding left of it, so that more can be
joined to the key instead of to the text: a directory joined with one specifier after the other
has the key that it has when joined with all of them at once. The parent of a key drops its last
segment. It is a key again, and takes back the joining of a segment that names something.
-/
namespace ModuleLoading

theorem Text.join_concat {α : Type} (sep : α) (pieces : List (List α)) (last : List α)
    (hne : pieces ≠ []) : join sep (pieces ++ [last]) = join sep pieces ++ sep :: last := by
  induction pieces with
  | nil => exact absurd rfl hne
  | cons piece rest ih =>
    cases rest with
    | nil => rfl
    | cons next rest =>
      have hrest := ih (by simp)
      simp only [List.cons_append, join] at hrest ⊢
      rw [hrest, List.append_assoc, List.cons_append]

namespace Key

/-- The segments of the second text are folded onto those of the first. -/
theorem segments_append_slash (clamped : Bool) (front back : List Char) :
    segments clamped (front ++ '/' :: back) =
      ((Text.split '/' back).foldl (push clamped) (segments clamped front).reverse).reverse := by
  rw [segments, Text.split_append_sep, List.foldl_append, segments, List.reverse_reverse]

theorem segments_append_plain (clamped : Bool) (front : List Char) (last : Segment)
    (hplain : Plain last) (hslash : '/' ∉ last) :
    segments clamped (front ++ '/' :: last) = segments clamped front ++ [last] := by
  rw [segments_append_slash, Text.split_of_notMem '/' last hslash, List.foldl_cons,
    List.foldl_nil, push_plain clamped _ last hplain, List.reverse_cons, List.reverse_reverse]

theorem isAbsolute_append (front back : List Char) (hne : front ≠ []) :
    isAbsolute (front ++ back) = isAbsolute front := by
  cases front with
  | nil => exact absurd rfl hne
  | cons c rest => rfl

theorem toList_joined (front back : String) :
    (front ++ "/" ++ back).toList = front.toList ++ '/' :: back.toList := by
  simp

/-- A name may be replaced by its key where more is joined to it. -/
theorem ofName_append (name more : String) :
    Key.ofName (Key.ofName name ++ "/" ++ more) = Key.ofName (name ++ "/" ++ more) := by
  have hsegments : segments true (Key.ofName name ++ "/" ++ more).toList =
      segments true (name ++ "/" ++ more).toList := by
    rw [toList_joined, toList_joined, segments_append_slash, segments_ofName,
      ← segments_append_slash]
  rw [Key.ofName, hsegments, ← Key.ofName]

theorem ofPathSegments_ne_nil (absolute : Bool) (parts : List Segment) :
    ofPathSegments absolute parts ≠ [] := by
  cases parts with
  | nil => cases absolute <;> simp [ofPathSegments, stay]
  | cons first rest =>
    simp only [ofPathSegments]
    split
    · simp
    · split
      · next hup => cases rest <;> simp [Text.join, hup, up]
      · simp

theorem toList_ofPath_ne_nil (path : String) : (Key.ofPath path).toList ≠ [] := by
  rw [Key.ofPath, String.toList_ofList]
  exact ofPathSegments_ne_nil _ _

/-- A path may be replaced by its key. Nothing in front of a slash would be the root. -/
theorem ofPath_append (path more : String) (hne : path ≠ "") :
    Key.ofPath (Key.ofPath path ++ "/" ++ more) = Key.ofPath (path ++ "/" ++ more) := by
  have hpath : path.toList ≠ [] := fun h => hne (String.toList_eq_nil_iff.1 h)
  apply ofPath_congr
  · rw [toList_joined, toList_joined, isAbsolute_append _ _ (toList_ofPath_ne_nil path),
      isAbsolute_append _ _ hpath, isAbsolute_ofPath]
  · rw [toList_joined, toList_joined, isAbsolute_append _ _ hpath, segments_append_slash,
      segments_ofPath, ← segments_append_slash]

private theorem bne_slash (segment : Segment) (h : '/' ∉ segment) :
    ∀ c ∈ segment.reverse, (c != '/') = true := by
  intro c hc
  have hne : c ≠ '/' := fun heq => h (heq ▸ List.mem_reverse.1 hc)
  simpa using hne

theorem parent_of_slash_notMem (key : String) (h : '/' ∉ key.toList) :
    parent key = workingDirectory := by
  rw [parent, List.dropWhile_eq_nil_iff.2 (bne_slash key.toList h)]

/-- What stands before the last slash, which is the root if nothing does. -/
theorem parent_append_slash (directory last : List Char) (h : '/' ∉ last) :
    parent (String.ofList (directory ++ '/' :: last)) =
      if directory = [] then "/" else String.ofList directory := by
  have hdrop : (directory ++ '/' :: last).reverse.dropWhile (· != '/') =
      '/' :: directory.reverse := by
    rw [List.reverse_append, List.reverse_cons, List.append_assoc,
      List.dropWhile_append_of_pos (bne_slash last h)]
    rfl
  rw [parent, String.toList_ofList, hdrop]
  rcases List.eq_nil_or_concat' directory with rfl | ⟨rest, c, rfl⟩
  · rfl
  · simp

theorem join_ne_nil (parts : List Segment) (hne : parts ≠ []) (hempty : [] ∉ parts) :
    Text.join '/' parts ≠ [] := by
  cases parts with
  | nil => exact absurd rfl hne
  | cons first rest =>
    have hfirst : first ≠ [] := fun heq => hempty (heq ▸ List.mem_cons_self)
    cases rest <;> simp [Text.join, hfirst]

theorem nil_notMem_segments (path : List Char) : [] ∉ segments true path :=
  fun hmem => (plain_of_mem_segments path [] hmem).1 rfl

theorem toList_ofName_ne_nil (name : String) : (Key.ofName name).toList ≠ [] := by
  have hempty := nil_notMem_segments name.toList
  rw [Key.ofName, String.toList_ofList]
  cases hs : segments true name.toList with
  | nil => simp [ofNameSegments, stay]
  | cons first rest => exact join_ne_nil (first :: rest) (by simp) (hs ▸ hempty)

/-- What has no slash changes nothing behind a key. -/
theorem parent_append_of_slash_notMem (key more : String) (h : '/' ∉ more.toList) :
    parent (key ++ more) = parent key := by
  rw [parent, String.toList_append, List.reverse_append,
    List.dropWhile_append_of_pos (bne_slash more.toList h), ← parent]

/-- The parent of a name is made of all of its segments but the last. -/
theorem parent_ofNameSegments (parts : List Segment) (last : Segment) (hempty : [] ∉ parts)
    (hlast : '/' ∉ last) :
    parent (String.ofList (ofNameSegments (parts ++ [last]))) =
      String.ofList (ofNameSegments parts) := by
  cases parts with
  | nil =>
    apply parent_of_slash_notMem
    rwa [String.toList_ofList]
  | cons first rest =>
    have hjoin : ofNameSegments (first :: rest ++ [last]) =
        Text.join '/' (first :: rest) ++ '/' :: last :=
      Text.join_concat '/' (first :: rest) last (by simp)
    rw [hjoin, parent_append_slash _ last hlast,
      if_neg (join_ne_nil (first :: rest) (by simp) hempty)]
    rfl

theorem ofPathSegments_concat (absolute : Bool) (first : Segment) (rest : List Segment)
    (last : Segment) :
    ofPathSegments absolute (first :: rest ++ [last]) =
      ofPathSegments absolute (first :: rest) ++ '/' :: last := by
  have hjoin := Text.join_concat '/' (first :: rest) last (by simp)
  rw [List.cons_append] at hjoin ⊢
  simp only [ofPathSegments, hjoin]
  split
  · rfl
  · split <;> rfl

/-- The parent of a path is, too. -/
theorem parent_ofPathSegments (absolute : Bool) (parts : List Segment) (last : Segment)
    (hlast : '/' ∉ last) :
    parent (String.ofList (ofPathSegments absolute (parts ++ [last]))) =
      String.ofList (ofPathSegments absolute parts) := by
  cases parts with
  | cons first rest =>
    rw [ofPathSegments_concat, parent_append_slash _ last hlast,
      if_neg (ofPathSegments_ne_nil absolute (first :: rest))]
  | nil =>
    cases absolute with
    | true =>
      have hroot := parent_append_slash [] last hlast
      simpa [ofPathSegments, Text.join] using hroot
    | false =>
      by_cases hup : last = up
      · subst hup
        decide
      · have hstay := parent_append_slash stay last hlast
        simpa [ofPathSegments, Text.join, hup, stay] using hstay

theorem Normal.of_concat {clamped : Bool} {parts : List Segment} {last : Segment}
    (h : Normal clamped (parts ++ [last])) : Normal clamped parts where
  folded := by
    obtain ⟨names, ups, heq, hups, hnames⟩ := h.folded
    rw [List.reverse_concat] at heq
    cases names with
    | cons top below =>
      refine ⟨below, ups, (List.cons.inj heq).2, hups, ?_⟩
      intro name hname
      exact hnames name (List.mem_cons_of_mem top hname)
    | nil =>
      cases ups with
      | zero => cases heq
      | succ ups =>
        refine ⟨[], ups, (List.cons.inj heq).2, ?_, by simp⟩
        intro hclamped
        cases hups hclamped
  slash_notMem segment hsegment := h.slash_notMem segment (List.mem_append_left _ hsegment)

/-- The parent of a name is a name again. -/
theorem ofName_parent (name : String) :
    Key.ofName (parent (Key.ofName name)) = parent (Key.ofName name) := by
  have hnormal := normal_segments true name.toList
  have hempty := nil_notMem_segments name.toList
  generalize hkey : Key.ofName name = key
  rw [Key.ofName] at hkey
  rcases List.eq_nil_or_concat' (segments true name.toList) with hnil | ⟨parts, last, hconcat⟩
  · rw [hnil] at hkey
    subst hkey
    decide
  · rw [hconcat] at hnormal hempty hkey
    rw [← hkey, parent_ofNameSegments parts last (fun h => hempty (List.mem_append_left _ h))
      (hnormal.slash_notMem last (by simp)), Key.ofName, String.toList_ofList,
      hnormal.of_concat.segments_ofNameSegments]

theorem ofPath_parent (path : String) :
    Key.ofPath (parent (Key.ofPath path)) = parent (Key.ofPath path) := by
  have hnormal := normal_segments (isAbsolute path.toList) path.toList
  generalize hkey : Key.ofPath path = key
  simp only [Key.ofPath] at hkey
  generalize isAbsolute path.toList = absolute at hnormal hkey
  rcases List.eq_nil_or_concat' (segments absolute path.toList) with
    hnil | ⟨parts, last, hconcat⟩
  · rw [hnil] at hkey
    subst hkey
    cases absolute <;> decide
  · rw [hconcat] at hnormal hkey
    rw [← hkey, parent_ofPathSegments _ parts last (hnormal.slash_notMem last (by simp)),
      Key.ofPath, String.toList_ofList, isAbsolute_ofPathSegments,
      hnormal.of_concat.segments_ofPathSegments]

end Key

namespace Namespace

variable (space : Namespace)

theorem keyOf_keyOf (text : String) : space.keyOf (space.keyOf text) = space.keyOf text := by
  cases space with
  | search => exact Key.ofName_ofName text
  | filesystem => exact Key.ofPath_ofPath text

theorem toList_keyOf_ne_nil (text : String) : (space.keyOf text).toList ≠ [] := by
  cases space with
  | search => exact Key.toList_ofName_ne_nil text
  | filesystem => exact Key.toList_ofPath_ne_nil text

theorem keyOf_parent (text : String) :
    space.keyOf (Key.parent (space.keyOf text)) = Key.parent (space.keyOf text) := by
  cases space with
  | search => exact Key.ofName_parent text
  | filesystem => exact Key.ofPath_parent text

end Namespace

namespace Key

variable (space : Namespace)

theorem join_eq_keyOf (directory path : String) :
    join space directory path = space.keyOf (directory ++ "/" ++ path) := by
  cases space <;> rfl

/-- Joined one after the other and at once. -/
theorem join_join (directory path more : String) :
    join space (join space directory path) more = join space directory (path ++ "/" ++ more) := by
  have hassoc : directory ++ "/" ++ (path ++ "/" ++ more) =
      directory ++ "/" ++ path ++ "/" ++ more := by
    simp only [String.append_assoc]
  cases space with
  | search =>
    simp only [join, hassoc]
    exact ofName_append (directory ++ "/" ++ path) more
  | filesystem =>
    simp only [join, hassoc]
    apply ofPath_append
    intro hempty
    have hlist := congrArg String.toList hempty
    simp at hlist

theorem foldl_join (directory path : String) (paths : List String) :
    (path :: paths).foldl (join space) directory =
      join space directory ("/".intercalate (path :: paths)) := by
  induction paths generalizing directory path with
  | nil => simp
  | cons next rest ih =>
    rw [List.foldl_cons, ih, join_join, String.intercalate_cons_cons]

/-- A segment that names something is the last of the key it is joined to. -/
theorem parent_join (directory segment : String) (hdirectory : space.keyOf directory = directory)
    (hplain : Plain segment.toList) (hslash : '/' ∉ segment.toList) :
    parent (join space directory segment) = directory := by
  cases space with
  | search =>
    rw [join, Key.ofName, toList_joined, segments_append_plain true _ _ hplain hslash,
      parent_ofNameSegments _ _ (nil_notMem_segments _) hslash]
    exact hdirectory
  | filesystem =>
    have hne : directory.toList ≠ [] := by
      rw [← hdirectory]
      exact toList_ofPath_ne_nil directory
    rw [join, Key.ofPath, toList_joined, isAbsolute_append _ _ hne,
      segments_append_plain _ _ _ hplain hslash, parent_ofPathSegments _ _ _ hslash]
    exact hdirectory

end Key

/-- A key is its own key, and may stand for its text where more is joined to it, so that
specifiers are joined to a directory one by one as well as at once. A segment that names something
is taken off again by the parent. -/
theorem keys_compose :
    (∀ text : String, Key.ofName (Key.ofName text) = Key.ofName text ∧
      Key.ofPath (Key.ofPath text) = Key.ofPath text) ∧
    (∀ name more : String,
      Key.ofName (Key.ofName name ++ "/" ++ more) = Key.ofName (name ++ "/" ++ more)) ∧
    (∀ path more : String, path ≠ "" →
      Key.ofPath (Key.ofPath path ++ "/" ++ more) = Key.ofPath (path ++ "/" ++ more)) ∧
    (∀ (space : Namespace) (directory path : String) (paths : List String),
      (path :: paths).foldl (Key.join space) directory =
        Key.join space directory ("/".intercalate (path :: paths))) ∧
    (∀ (space : Namespace) (directory segment : String), space.keyOf directory = directory →
      Key.Plain segment.toList → '/' ∉ segment.toList →
      Key.parent (Key.join space directory segment) = directory) := by
  refine ⟨?_, Key.ofName_append, Key.ofPath_append, Key.foldl_join, Key.parent_join⟩
  intro text
  exact ⟨Key.ofName_ofName text, Key.ofPath_ofPath text⟩

theorem keys_compose_sample :
    Key.ofPath (Key.ofPath "a/../.." ++ "/" ++ "../b") = Key.ofPath ("a/../.." ++ "/" ++ "../b") ∧
      Key.parent (Key.join .filesystem "../.." "a:b") = "../.." ∧
      Key.parent (Key.join .filesystem "/" "b") = "/" ∧
      Key.parent (Key.join .search "." "b") = "." := by
  obtain ⟨-, -, happend, -, hparent⟩ := keys_compose
  have hb : Key.Plain "b".toList := ⟨by decide, by decide, by decide⟩
  have hcolon : Key.Plain "a:b".toList := ⟨by decide, by decide, by decide⟩
  exact ⟨happend "a/../.." "../b" (by decide),
    hparent .filesystem "../.." "a:b" (by decide) hcolon (by decide),
    hparent .filesystem "/" "b" (by decide) hb (by decide),
    hparent .search "." "b" (by decide) hb (by decide)⟩

/-- An empty path is the working directory, but with a slash behind it the root. -/
example : Key.ofPath (Key.ofPath "" ++ "/" ++ "a") = "./a" ∧
    Key.ofPath ("" ++ "/" ++ "a") = "/a" := by
  decide

end ModuleLoading
