import ModuleLoading.Key
import ModuleLoading.Specifier

/-!
Keys are normal forms. Folding drops empty segments and ".", and steps up stay
only at the beginning, where the path may leave its start. A list of this shape
is folded to itself, so a key that is read as a path again gives the same key.
The first segment of a key shows its space, except for the key ".".
-/
namespace ModuleLoading.Key

open Text (split)

/-- A segment that names something. -/
def Plain (segment : Segment) : Prop := segment ≠ [] ∧ segment ≠ stay ∧ segment ≠ up

/-- A segment that folding leaves out. -/
def Idle (segment : Segment) : Prop := segment = [] ∨ segment = stay

/-- A stack that folding can leave: names on top of steps up, of which a clamped
one has none. -/
def Folded (clamped : Bool) (kept : List Segment) : Prop :=
  ∃ (names : List Segment) (ups : Nat), kept = names ++ List.replicate ups up ∧
    (clamped = true → ups = 0) ∧ ∀ name ∈ names, Plain name

theorem plain_of_not_idle (segment : Segment) (hidle : ¬ Idle segment) (hup : segment ≠ up) :
    Plain segment :=
  ⟨fun h => hidle (.inl h), fun h => hidle (.inr h), hup⟩

theorem push_idle (clamped : Bool) (kept : List Segment) (segment : Segment)
    (h : Idle segment) : push clamped kept segment = kept := if_pos h

theorem push_plain (clamped : Bool) (kept : List Segment) (segment : Segment)
    (h : Plain segment) : push clamped kept segment = segment :: kept := by
  obtain ⟨hempty, hstay, hup⟩ := h
  simp [push, hempty, hstay, hup]

theorem push_up_of_ups (clamped : Bool) (ups : Nat) (h : clamped = true → ups = 0) :
    push clamped (List.replicate ups up) up =
      List.replicate (if clamped then 0 else ups + 1) up := by
  cases clamped with
  | true => simp [h, push, up, stay]
  | false => cases ups <;> simp [push, up, stay, List.replicate_succ]

theorem push_up_of_name (clamped : Bool) (below : List Segment) (top : Segment)
    (h : Plain top) : push clamped (top :: below) up = below := by
  have htop : top ≠ ['.', '.'] := h.2.2
  simp [push, up, stay, htop]

theorem mem_push (clamped : Bool) (kept : List Segment) (segment x : Segment)
    (h : x ∈ push clamped kept segment) : x ∈ kept ∨ x = segment := by
  unfold push at h
  split at h
  · exact .inl h
  · split at h
    · split at h <;> grind
    · simpa [or_comm] using h

theorem folded_push (clamped : Bool) (kept : List Segment) (segment : Segment)
    (h : Folded clamped kept) : Folded clamped (push clamped kept segment) := by
  obtain ⟨names, ups, rfl, hups, hnames⟩ := h
  by_cases hidle : Idle segment
  · rw [push_idle clamped _ segment hidle]
    exact ⟨names, ups, rfl, hups, hnames⟩
  · by_cases hup : segment = up
    · subst hup
      cases names with
      | nil =>
        refine ⟨[], if clamped then 0 else ups + 1, ?_, by simp_all, by simp⟩
        simpa using push_up_of_ups clamped ups hups
      | cons top below =>
        have htop : Plain top := hnames top List.mem_cons_self
        refine ⟨below, ups, ?_, hups, fun n hn => hnames n (List.mem_cons_of_mem _ hn)⟩
        exact push_up_of_name clamped _ top htop
    · have hplain : Plain segment := plain_of_not_idle segment hidle hup
      refine ⟨segment :: names, ups, push_plain clamped _ segment hplain, hups, fun n hn => ?_⟩
      rcases List.mem_cons.1 hn with hn | hn
      · exact hn ▸ hplain
      · exact hnames n hn

theorem folded_foldl (clamped : Bool) (pieces kept : List Segment) (h : Folded clamped kept) :
    Folded clamped (pieces.foldl (push clamped) kept) := by
  induction pieces generalizing kept with
  | nil => exact h
  | cons piece rest ih => exact ih _ (folded_push clamped kept piece h)

theorem mem_foldl_push (clamped : Bool) (pieces kept : List Segment) (x : Segment)
    (h : x ∈ pieces.foldl (push clamped) kept) : x ∈ kept ∨ x ∈ pieces := by
  induction pieces generalizing kept with
  | nil => exact .inl h
  | cons piece rest ih =>
    rcases ih _ h with h | h
    · rcases mem_push clamped kept piece x h with h | h
      · exact .inl h
      · exact .inr (h ▸ List.mem_cons_self)
    · exact .inr (List.mem_cons_of_mem _ h)

theorem foldl_push_idle (clamped : Bool) (pieces kept : List Segment)
    (h : ∀ piece ∈ pieces, Idle piece) : pieces.foldl (push clamped) kept = kept := by
  induction pieces with
  | nil => rfl
  | cons piece rest ih =>
    rw [List.foldl_cons, push_idle clamped kept piece (h piece List.mem_cons_self)]
    exact ih fun p hp => h p (List.mem_cons_of_mem _ hp)

theorem foldl_push_plain (clamped : Bool) (pieces kept : List Segment)
    (h : ∀ piece ∈ pieces, Plain piece) :
    pieces.foldl (push clamped) kept = pieces.reverse ++ kept := by
  induction pieces generalizing kept with
  | nil => rfl
  | cons piece rest ih =>
    rw [List.foldl_cons, push_plain clamped kept piece (h piece List.mem_cons_self),
      ih _ fun p hp => h p (List.mem_cons_of_mem _ hp)]
    simp

theorem foldl_push_ups (clamped : Bool) (ups : Nat) (h : clamped = true → ups = 0) :
    (List.replicate ups up).foldl (push clamped) [] = List.replicate ups up := by
  induction ups with
  | zero => rfl
  | succ ups ih =>
    have hfree : clamped = false := by
      cases clamped with
      | true => simpa using h rfl
      | false => rfl
    rw [List.replicate_succ', List.foldl_append, ih (by simp [hfree]), List.foldl_cons,
      List.foldl_nil, push_up_of_ups clamped ups (by simp [hfree]), hfree]
    exact List.replicate_succ'

/-- What folding leaves is folded to itself. -/
theorem foldl_push_of_folded (clamped : Bool) (parts : List Segment)
    (h : Folded clamped parts.reverse) : parts.foldl (push clamped) [] = parts.reverse := by
  obtain ⟨names, ups, hparts, hups, hnames⟩ := h
  have hforward : parts = List.replicate ups up ++ names.reverse := by
    simpa using congrArg List.reverse hparts
  rw [hparts, hforward, List.foldl_append, foldl_push_ups clamped ups hups,
    foldl_push_plain clamped _ _ fun n hn => hnames n (List.mem_reverse.1 hn),
    List.reverse_reverse]

theorem folded_segments (clamped : Bool) (path : List Char) :
    Folded clamped (segments clamped path).reverse := by
  rw [segments, List.reverse_reverse]
  exact folded_foldl clamped _ [] ⟨[], 0, rfl, fun _ => rfl, by simp⟩

theorem mem_split_of_mem_segments (clamped : Bool) (path : List Char) (segment : Segment)
    (h : segment ∈ segments clamped path) : segment ∈ split '/' path := by
  rcases mem_foldl_push clamped _ [] segment (List.mem_reverse.1 h) with h | h
  · cases h
  · exact h

theorem slash_notMem_of_mem_segments (clamped : Bool) (path : List Char) (segment : Segment)
    (h : segment ∈ segments clamped path) : '/' ∉ segment :=
  Text.notMem_of_mem_split '/' path segment (mem_split_of_mem_segments clamped path segment h)

theorem plain_of_mem_segments (path : List Char) (segment : Segment)
    (h : segment ∈ segments true path) : Plain segment := by
  obtain ⟨names, ups, hparts, hups, hnames⟩ := folded_segments true path
  refine hnames segment ?_
  simpa [hparts, hups rfl] using List.mem_reverse.2 h

/-- Segments that folding leaves as they are. -/
structure Normal (clamped : Bool) (parts : List Segment) : Prop where
  folded : Folded clamped parts.reverse
  slash_notMem : ∀ segment ∈ parts, '/' ∉ segment

theorem normal_segments (clamped : Bool) (path : List Char) :
    Normal clamped (segments clamped path) where
  folded := folded_segments clamped path
  slash_notMem := slash_notMem_of_mem_segments clamped path

namespace Normal

variable {clamped : Bool} {parts : List Segment}

theorem slash_notMem_append (h : Normal clamped parts) (idle : List Segment)
    (hidle : ∀ segment ∈ idle, Idle segment) : ∀ segment ∈ idle ++ parts, '/' ∉ segment := by
  intro segment hmem
  rcases List.mem_append.1 hmem with hmem | hmem
  · rcases hidle segment hmem with h | h <;> simp [h, stay]
  · exact h.slash_notMem segment hmem

/-- Segments that were joined behind idle ones are found again. -/
theorem segments_join (h : Normal clamped parts) (idle : List Segment)
    (hidle : ∀ segment ∈ idle, Idle segment) (hne : idle ++ parts ≠ []) :
    segments clamped (Text.join '/' (idle ++ parts)) = parts := by
  rw [segments, Text.split_join '/' _ hne (h.slash_notMem_append idle hidle),
    List.foldl_append, foldl_push_idle clamped idle [] hidle,
    foldl_push_of_folded clamped _ h.folded, List.reverse_reverse]

end Normal

theorem slash_notMem_of_mem_append (clamped : Bool) (path : List Char) (idle : List Segment)
    (hidle : ∀ segment ∈ idle, Idle segment) :
    ∀ segment ∈ idle ++ segments clamped path, '/' ∉ segment :=
  (normal_segments clamped path).slash_notMem_append idle hidle

theorem segments_stay_slash (clamped : Bool) (path : List Char) :
    segments clamped ('.' :: '/' :: path) = segments clamped path := by
  have hsplit : split '/' ('.' :: '/' :: path) = stay :: split '/' path :=
    Text.split_append_sep '/' stay path
  rw [segments, hsplit, List.foldl_cons, push_idle clamped [] stay (.inr rfl), segments]

theorem ofNameSegments_form (parts : List Segment) : ∃ idle : List Segment,
    (∀ segment ∈ idle, Idle segment) ∧ ofNameSegments parts = Text.join '/' (idle ++ parts) ∧
    (idle ++ parts = [stay] ∨ idle = [] ∧ parts ≠ []) := by
  cases parts with
  | nil => exact ⟨[stay], by simp [Idle], rfl, by simp⟩
  | cons first rest => exact ⟨[], by simp, rfl, by simp⟩

theorem ofPathSegments_form (absolute : Bool) (parts : List Segment) : ∃ idle : List Segment,
    (∀ segment ∈ idle, Idle segment) ∧
    ofPathSegments absolute parts = Text.join '/' (idle ++ parts) ∧
    if absolute then ∃ rest, rest ≠ [] ∧ idle ++ parts = [] :: rest
    else ∃ first rest, (first = stay ∨ first = up) ∧ idle ++ parts = first :: rest := by
  cases absolute with
  | true =>
    cases parts with
    | nil => exact ⟨[[], []], by simp [Idle], rfl, by simp⟩
    | cons first rest => exact ⟨[[]], by simp [Idle], rfl, by simp⟩
  | false =>
    cases parts with
    | nil => exact ⟨[stay], by simp [Idle], rfl, by simp⟩
    | cons first rest =>
      by_cases hup : first = up
      · exact ⟨[], by simp, by simp [ofPathSegments, hup], by simp [hup]⟩
      · exact ⟨[stay], by simp [Idle],
          by simp [ofPathSegments, hup, Text.join, stay], by simp⟩

theorem ofName_form (name : String) : ∃ idle : List Segment, (∀ segment ∈ idle, Idle segment) ∧
    (Key.ofName name).toList = Text.join '/' (idle ++ segments true name.toList) ∧
    (idle ++ segments true name.toList = [stay] ∨
      idle = [] ∧ segments true name.toList ≠ []) := by
  rw [Key.ofName, String.toList_ofList]
  exact ofNameSegments_form _

theorem ofPath_form (path : String) : ∃ idle : List Segment, (∀ segment ∈ idle, Idle segment) ∧
    (Key.ofPath path).toList =
      Text.join '/' (idle ++ segments (isAbsolute path.toList) path.toList) ∧
    if isAbsolute path.toList then
      ∃ rest, rest ≠ [] ∧ idle ++ segments (isAbsolute path.toList) path.toList = [] :: rest
    else
      ∃ first rest, (first = stay ∨ first = up) ∧
        idle ++ segments (isAbsolute path.toList) path.toList = first :: rest := by
  rw [Key.ofPath, String.toList_ofList]
  exact ofPathSegments_form _ _

theorem Normal.segments_ofNameSegments {parts : List Segment} (h : Normal true parts) :
    segments true (ofNameSegments parts) = parts := by
  obtain ⟨idle, hidle, hkey, hform⟩ := ofNameSegments_form parts
  rw [hkey]
  apply h.segments_join idle hidle
  rcases hform with hdot | ⟨_, hne⟩
  · simp [hdot]
  · simp [hne]

theorem segments_ofName (name : String) :
    segments true (Key.ofName name).toList = segments true name.toList := by
  rw [Key.ofName, String.toList_ofList]
  exact (normal_segments true name.toList).segments_ofNameSegments

/-- A key is its own key. -/
theorem ofName_ofName (name : String) : Key.ofName (Key.ofName name) = Key.ofName name := by
  rw [Key.ofName, segments_ofName, ← Key.ofName]

theorem isAbsolute_join (first : Segment) (rest : List Segment) (hslash : '/' ∉ first) :
    isAbsolute (Text.join '/' (first :: rest)) = decide (first = [] ∧ rest ≠ []) := by
  cases first with
  | nil => cases rest <;> simp [isAbsolute, Text.join]
  | cons c tail =>
    have hc : c ≠ '/' := fun heq => hslash (heq ▸ List.mem_cons_self)
    cases rest <;> simp [isAbsolute, Text.join, hc]

theorem isAbsolute_ofPathSegments (absolute : Bool) (parts : List Segment) :
    isAbsolute (ofPathSegments absolute parts) = absolute := by
  obtain ⟨idle, _, hkey, hform⟩ := ofPathSegments_form absolute parts
  rw [hkey]
  split at hform
  · next habs =>
    obtain ⟨rest, hrest, heq⟩ := hform
    rw [heq, isAbsolute_join [] rest (by simp), habs]
    simp [hrest]
  · next habs =>
    obtain ⟨first, rest, hfirst, heq⟩ := hform
    have hname : first ≠ [] ∧ '/' ∉ first := by
      rcases hfirst with rfl | rfl <;> simp [stay, up]
    rw [heq, isAbsolute_join first rest hname.2]
    simp [hname.1, habs]

theorem isAbsolute_ofPath (path : String) :
    isAbsolute (Key.ofPath path).toList = isAbsolute path.toList := by
  rw [Key.ofPath, String.toList_ofList]
  exact isAbsolute_ofPathSegments _ _

theorem Normal.segments_ofPathSegments {absolute : Bool} {parts : List Segment}
    (h : Normal absolute parts) : segments absolute (ofPathSegments absolute parts) = parts := by
  obtain ⟨idle, hidle, hkey, hform⟩ := ofPathSegments_form absolute parts
  rw [hkey]
  apply h.segments_join idle hidle
  split at hform
  · obtain ⟨rest, _, heq⟩ := hform
    simp [heq]
  · obtain ⟨first, rest, _, heq⟩ := hform
    simp [heq]

theorem segments_ofPath (path : String) :
    segments (isAbsolute path.toList) (Key.ofPath path).toList =
      segments (isAbsolute path.toList) path.toList := by
  rw [Key.ofPath, String.toList_ofList]
  exact (normal_segments _ path.toList).segments_ofPathSegments

/-- The key of a path depends on its segments and on whether it is absolute. -/
theorem ofPath_congr (left right : String)
    (habs : isAbsolute left.toList = isAbsolute right.toList)
    (hsegments : segments (isAbsolute right.toList) left.toList =
      segments (isAbsolute right.toList) right.toList) : Key.ofPath left = Key.ofPath right := by
  simp only [Key.ofPath, habs, hsegments]

theorem ofPath_ofPath (path : String) : Key.ofPath (Key.ofPath path) = Key.ofPath path :=
  ofPath_congr _ _ (isAbsolute_ofPath path) (segments_ofPath path)

/-- A relative key seen from the working directory is itself. -/
theorem join_workingDirectory (key : String) (h : isAbsolute key.toList = false) :
    Key.join .filesystem workingDirectory key = Key.ofPath key := by
  have hlist : (workingDirectory ++ "/" ++ key).toList = '.' :: '/' :: key.toList := by
    simp [workingDirectory]
  refine ofPath_congr _ _ ?_ ?_
  · rw [hlist, h]
    rfl
  · rw [hlist, segments_stay_slash]

open Specifier (kindOf classify)

private theorem kindOf_letter (c : Char) (text : List Char) (hdot : c ≠ '.') (hslash : '/' ≠ c) :
    kindOf (c :: text) = .bare := by
  unfold kindOf
  split <;> simp_all

private theorem kindOf_dot (c : Char) (text : List Char) (hdot : c ≠ '.') (hslash : '/' ≠ c) :
    kindOf ('.' :: c :: text) = .bare := by
  unfold kindOf
  split <;> simp_all

private theorem kindOf_dots (c : Char) (text : List Char) (hslash : '/' ≠ c) :
    kindOf ('.' :: '.' :: c :: text) = .bare := by
  unfold kindOf
  split <;> simp_all

/-- Three characters decide the kind, and the first segment holds them or ends before. -/
theorem kindOf_join (first : Segment) (rest : List Segment) (hslash : '/' ∉ first) :
    kindOf (Text.join '/' (first :: rest)) =
      if first = stay ∨ first = up then .relative
      else if first = [] ∧ rest ≠ [] then .absolute else .bare := by
  have htail : ∃ tail, Text.join '/' (first :: rest) = first ++ tail ∧
      (tail = [] ∧ rest = [] ∨ (∃ more, tail = '/' :: more) ∧ rest ≠ []) := by
    cases rest with
    | nil => exact ⟨[], by simp [Text.join], by simp⟩
    | cons next rest => exact ⟨_, rfl, by simp⟩
  obtain ⟨tail, heq, htail⟩ := htail
  rw [heq]
  rcases first with _ | ⟨c, _ | ⟨d, _ | ⟨e, more⟩⟩⟩
  · rcases htail with ⟨rfl, rfl⟩ | ⟨⟨_, rfl⟩, hrest⟩
    · simp [kindOf, stay, up]
    · simp [kindOf, stay, up, hrest]
  all_goals
    simp only [List.mem_cons, List.not_mem_nil, not_or] at hslash
    by_cases hc : c = '.'
    case neg => simp [kindOf_letter c _ hc hslash.1, stay, up, hc]
  · rcases htail with ⟨rfl, rfl⟩ | ⟨⟨_, rfl⟩, _⟩ <;> simp [kindOf, stay, hc]
  · by_cases hd : d = '.'
    · rcases htail with ⟨rfl, rfl⟩ | ⟨⟨_, rfl⟩, _⟩ <;> simp [kindOf, up, hc, hd]
    · simp [hc, kindOf_dot d _ hd hslash.2.1, stay, up, hd]
  · by_cases hd : d = '.'
    · simp [hc, hd, kindOf_dots e _ hslash.2.2.1, stay, up]
    · simp [hc, kindOf_dot d _ hd hslash.2.1, stay, up]

theorem classify_ofName (name : String) (h : Key.ofName name ≠ workingDirectory) :
    classify (Key.ofName name) = .bare := by
  obtain ⟨idle, _, hkey, hform⟩ := ofName_form name
  rcases hform with hdot | ⟨hnone, hne⟩
  · have : Key.ofName name = workingDirectory := by
      rw [hdot] at hkey
      exact String.toList_injective (hkey.trans rfl)
    exact absurd this h
  · cases hs : segments true name.toList with
    | nil => exact absurd hs hne
    | cons first rest =>
      have hmem : first ∈ segments true name.toList := hs ▸ List.mem_cons_self
      obtain ⟨hempty, hstay, hup⟩ := plain_of_mem_segments name.toList first hmem
      have hslash := slash_notMem_of_mem_segments true name.toList first hmem
      rw [classify, hkey, hnone, hs, List.nil_append, kindOf_join first rest hslash]
      simp [hempty, hstay, hup]

theorem classify_ofPath (path : String) :
    classify (Key.ofPath path) = if isAbsolute path.toList then .absolute else .relative := by
  obtain ⟨idle, _, hkey, hform⟩ := ofPath_form path
  rw [classify, hkey]
  split at hform
  · next habs =>
    obtain ⟨rest, hrest, heq⟩ := hform
    rw [heq, kindOf_join [] rest (by simp), habs]
    simp [hrest, stay, up]
  · next habs =>
    obtain ⟨first, rest, hfirst, heq⟩ := hform
    have hslash : '/' ∉ first := by rcases hfirst with rfl | rfl <;> simp [stay, up]
    rw [heq, kindOf_join first rest hslash]
    simp [hfirst, habs]

/-- The spaces share no key but the working directory's. -/
theorem ofName_ne_ofPath (name path : String) (h : Key.ofName name ≠ workingDirectory) :
    Key.ofName name ≠ Key.ofPath path := by
  intro heq
  have hbare := classify_ofName name h
  rw [heq, classify_ofPath] at hbare
  split at hbare <;> cases hbare

private theorem mem_joined (clamped : Bool) (path : List Char) (idle : List Segment) (c : Char)
    (hidle : ∀ segment ∈ idle, Idle segment)
    (h : c ∈ Text.join '/' (idle ++ segments clamped path)) : c ∈ path ∨ c = '/' ∨ c = '.' := by
  rcases Text.mem_join '/' c _ h with h | ⟨segment, hmem, hc⟩
  · exact .inr (.inl h)
  · rcases List.mem_append.1 hmem with hmem | hmem
    · rcases hidle segment hmem with h | h
      · simp [h] at hc
      · exact .inr (.inr (by simpa [h, stay] using hc))
    · exact .inl (Text.mem_of_mem_split '/' c path segment
        (mem_split_of_mem_segments clamped path segment hmem) hc)

theorem mem_ofName (name : String) (c : Char) (h : c ∈ (Key.ofName name).toList) :
    c ∈ name.toList ∨ c = '/' ∨ c = '.' := by
  obtain ⟨idle, hidle, hkey, _⟩ := ofName_form name
  exact mem_joined true name.toList idle c hidle (hkey ▸ h)

theorem mem_ofPath (path : String) (c : Char) (h : c ∈ (Key.ofPath path).toList) :
    c ∈ path.toList ∨ c = '/' ∨ c = '.' := by
  obtain ⟨idle, hidle, hkey, _⟩ := ofPath_form path
  exact mem_joined _ path.toList idle c hidle (hkey ▸ h)

theorem mem_parent (key : String) (c : Char) (h : c ∈ (Key.parent key).toList) :
    c ∈ key.toList ∨ c = '/' ∨ c = '.' := by
  unfold parent at h
  split at h
  · exact .inr (.inr (by simpa [workingDirectory] using h))
  · exact .inr (.inl (by simpa using h))
  · next slash directory _ hdrop =>
    have hmem : c ∈ slash :: directory := List.mem_cons_of_mem _ (by simpa using h)
    have hsub := (List.dropWhile_suffix (· != '/')).subset (hdrop ▸ hmem)
    exact .inl (by simpa using hsub)

end ModuleLoading.Key
