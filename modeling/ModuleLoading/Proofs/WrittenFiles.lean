import ModuleLoading.System

/-!
What is written is read back, and nothing else changes. A path that can be written
leads through directories to a last name at which no directory stands. Putting a file
there closes no way that led to a directory, so every path that could be written before
can be written after, and leads to the same place.
-/
namespace ModuleLoading

namespace Text

variable {α : Type} [DecidableEq α]

/-- The last piece is empty only if nothing comes after the last separator. -/
theorem getLastD_split_eq_nil_iff (sep : α) (list : List α) :
    (split sep list).getLastD [] = [] ↔ list = [] ∨ list.getLast? = some sep := by
  induction list with
  | nil => simp [split]
  | cons a rest ih =>
    have hjoin := join_split sep rest
    rcases split_cons_cases sep a rest with ⟨ha, heq⟩ | ⟨ha, piece, pieces, hsplit, heq⟩
    · cases hrest : split sep rest with
      | nil => exact absurd hrest (split_ne_nil sep rest)
      | cons piece pieces =>
        rw [hrest] at ih heq
        have hlast : ([] :: piece :: pieces).getLastD [] = (piece :: pieces).getLastD [] := by
          rw [List.getLastD_cons]
        rw [heq, hlast, ih]
        cases rest with
        | nil => simp [ha]
        | cons b rest => simp
    · rw [hsplit] at ih hjoin
      rw [heq]
      cases pieces with
      | nil =>
        simp only [join] at hjoin
        subst hjoin
        cases piece with
        | nil => simp [ha]
        | cons b piece => simpa using ih
      | cons next pieces =>
        cases rest with
        | nil => simp [split] at hsplit
        | cons b rest => simpa using ih

end Text

namespace FileTree

/-- No slashes come off the end of a path exactly if it does not end in one. -/
theorem reverse_dropWhile_eq_iff (path : Bytes) :
    (path.reverse.dropWhile (· == slash)).reverse = path ↔ path.getLast? ≠ some slash := by
  rw [← List.head?_reverse, List.reverse_eq_iff]
  cases path.reverse with
  | nil => simp
  | cons b rest =>
    by_cases hb : b = slash
    · have hshorter : rest.dropWhile (· == slash) ≠ b :: rest := by
        intro heq
        have hle := (List.dropWhile_sublist (l := rest) (· == slash)).length_le
        rw [heq, List.length_cons] at hle
        omega
      simpa [hb] using hb ▸ hshorter
    · simp [hb]

section

variable (tree : FileTree)

theorem entry?_nil : tree.entry? [] = some .directory := if_pos rfl

theorem walk_append (start : Place) (names more : List FileName) :
    tree.walk start (names ++ more) =
      match tree.walk start names with
      | .error e => .error e
      | .ok place => tree.walk place more := by
  induction names generalizing start with
  | nil => rfl
  | cons name rest ih =>
    rw [List.cons_append, walk, walk]
    split
    · rfl
    · split
      · exact ih start
      · split
        · exact ih start.dropLast
        · split
          · rfl
          · split
            · rfl
            · exact ih _
            · exact ih _

/-- No directory stands at the place, neither itself nor by a link. -/
structure Leaf (place : Place) : Prop where
  ne_directory : tree.entry? place ≠ some .directory
  ne_link : ∀ target, tree.entry? place ≠ some (.link target)

/-- A path that can be written: it goes through directories, and its last name names a
file or nothing. -/
inductive LeadsTo (path : Bytes) : Place → Prop
  | mk (above : List FileName) (name : FileName) (parent : Place) (hdefect : defect? path = none)
      (hnames : Text.split slash path = above ++ [name]) (hname : name ≠ [])
      (hstay : name ≠ stay) (hup : name ≠ up) (hlength : name.length ≤ longestName)
      (hwalk : tree.walk (tree.origin path) above = .ok parent)
      (hparent : tree.entry? parent = some .directory) (hleaf : tree.Leaf (parent ++ [name])) :
    LeadsTo path (parent ++ [name])

end

variable {tree : FileTree} {path : Bytes} {place : Place}

theorem Leaf.ne_nil (h : tree.Leaf place) : place ≠ [] := by
  intro hnil
  exact h.ne_directory (hnil ▸ tree.entry?_nil)

theorem LeadsTo.leaf (h : tree.LeadsTo path place) : tree.Leaf place := by
  cases h with
  | mk above name parent _ _ _ _ _ _ _ _ hleaf => exact hleaf

theorem ne_nil_of_defect? (h : defect? path = none) : path ≠ [] := by
  intro hnil
  simp [defect?, hnil] at h

/-- The names of a path that does not end in a slash, the last one apart. -/
theorem split_eq_concat (path : Bytes) :
    Text.split slash path =
      (Text.split slash path).dropLast ++ [(Text.split slash path).getLastD []] := by
  have hne := Text.split_ne_nil slash path
  rw [List.getLastD_eq_getLast?, List.getLast?_eq_some_getLast hne, Option.getD_some,
    List.dropLast_concat_getLast]

theorem leadsTo_of_destination (h : tree.destination path = .ok place) :
    tree.LeadsTo path place := by
  unfold destination at h
  split at h
  · cases h
  · next hdefect =>
    simp only at h
    split at h
    · cases h
    · next parent hwalk =>
      split at h
      · cases h
      · next hparent =>
        split at h
        · cases h
        · next hlast =>
          split at h
          · cases h
          · next hlength =>
            simp only [not_or, Classical.not_not] at hlast hparent
            obtain ⟨hbare, hstay, hup⟩ := hlast
            rw [hbare] at hwalk hstay hup hlength h
            have hname : (Text.split slash path).getLastD [] ≠ [] := by
              rw [Ne, Text.getLastD_split_eq_nil_iff, not_or]
              exact ⟨ne_nil_of_defect? hdefect, (reverse_dropWhile_eq_iff path).1 hbare⟩
            have hnames := split_eq_concat path
            generalize (Text.split slash path).getLastD [] = name at *
            generalize (Text.split slash path).dropLast = above at *
            have hleaf : tree.Leaf (parent ++ [name]) := by
              constructor
              · intro hentry
                simp [hentry] at h
              · intro target hentry
                simp [hentry] at h
            have hplace : parent ++ [name] = place := by
              split at h
              · cases h
              · cases h
              · exact Except.ok.inj h
              · exact Except.ok.inj h
              · exact Except.ok.inj h
            rw [← hplace]
            exact .mk above name parent hdefect hnames hname hstay hup (Nat.le_of_not_lt hlength)
              hwalk hparent hleaf

theorem LeadsTo.destination_eq (h : tree.LeadsTo path place) :
    tree.destination path = .ok place := by
  cases h with
  | mk above name parent hdefect hnames hname hstay hup hlength hwalk hparent hleaf =>
    have hlast : (Text.split slash path).getLastD [] = name := by
      rw [hnames]
      simp
    have habove : (Text.split slash path).dropLast = above := by
      rw [hnames, List.dropLast_concat]
    have hbare : (path.reverse.dropWhile (· == slash)).reverse = path := by
      rw [reverse_dropWhile_eq_iff]
      intro hslash
      exact hname (hlast ▸ (Text.getLastD_split_eq_nil_iff slash path).2 (.inr hslash))
    unfold destination
    simp only [hdefect, hbare, hlast, habove, hwalk, hparent, hstay, hup, Nat.not_lt.2 hlength,
      ne_eq, not_true_eq_false, or_self, if_false]
    cases hentry : tree.entry? (parent ++ [name]) with
    | none => rfl
    | some entry =>
      cases entry with
      | file content => rfl
      | device => rfl
      | directory => exact absurd hentry hleaf.ne_directory
      | link target => exact absurd hentry (hleaf.ne_link target)

theorem entry?_set (tree : FileTree) (place other : Place) (entry : Entry) (hplace : place ≠ []) :
    entry? (tree.set place entry) other =
      if other = place then some entry else tree.entry? other := by
  by_cases hother : other = place
  · subst hother
    simp [set, entry?, hplace]
  · have hfind : (tree.entries.filter fun e => decide (e.1 ≠ place)).find?
        (fun e => decide (e.1 = other)) = tree.entries.find? fun e => decide (e.1 = other) := by
      rw [List.find?_filter]
      congr 1
      funext e
      by_cases he : e.1 = other
      · simp [he, hother]
      · simp [he]
    rw [if_neg hother]
    unfold entry? set
    rw [List.find?_cons_of_neg (by simpa using Ne.symm hother), hfind]

theorem set_set (tree : FileTree) (place : Place) (first second : Entry) :
    (tree.set place first).set place second = tree.set place second := by
  simp [set]

/-- Bytes at the end of the file at a place. What a device is given is lost. -/
def appendAt (tree : FileTree) (place : Place) (bytes : Bytes) : FileTree :=
  match tree.entry? place with
  | some (.file content) => tree.set place (.file (content ++ bytes))
  | _ => tree

theorem appendAt_writeAt (tree : FileTree) (place : Place) (content bytes : Bytes)
    (hplace : place ≠ []) :
    (tree.writeAt place content).appendAt place bytes = tree.writeAt place (content ++ bytes) := by
  unfold writeAt
  by_cases hdevice : tree.entry? place = some .device
  · simp only [hdevice, if_true, appendAt]
  · have hentry := tree.entry?_set place place (.file content) hplace
    rw [if_pos rfl] at hentry
    simp only [hdevice, if_false, appendAt, hentry, set_set]

/-- A file was put at the place, and nothing else was changed. -/
structure Holds (before after : FileTree) (place : Place) (content : Bytes) : Prop where
  here_eq : after.here = before.here
  written : after.entry? place = some (.file content)
  kept : ∀ other, other ≠ place → after.entry? other = before.entry? other

theorem holds_writeAt {tree : FileTree} {place : Place} (hplace : place ≠ [])
    (hdevice : tree.entry? place ≠ some .device) (content : Bytes) :
    Holds tree (tree.writeAt place content) place content := by
  unfold writeAt
  rw [if_neg hdevice]
  refine ⟨rfl, ?_, fun other hother => ?_⟩
  · rw [entry?_set _ _ _ _ hplace, if_pos rfl]
  · rw [entry?_set _ _ _ _ hplace, if_neg hother]

section

variable {after : FileTree} {content : Bytes} (hholds : Holds tree after place content)
include hholds

/-- Directories stay where they are. -/
theorem Holds.directory (hleaf : tree.Leaf place) {other : Place}
    (h : tree.entry? other = some .directory) : after.entry? other = some .directory := by
  rw [hholds.kept other, h]
  intro hother
  exact hleaf.ne_directory (hother ▸ h)

theorem Holds.leaf (hleaf : tree.Leaf place) {other : Place} (h : tree.Leaf other) :
    after.Leaf other := by
  by_cases hother : other = place
  · subst hother
    exact ⟨by simp [hholds.written], by simp [hholds.written]⟩
  · exact ⟨hholds.kept other hother ▸ h.ne_directory,
      fun target => hholds.kept other hother ▸ h.ne_link target⟩

end

/-- A walk that ends at a directory started at one, and so did every part of it. -/
theorem directory_of_walk {start last : Place} {names : List FileName}
    (hwalk : tree.walk start names = .ok last) (hlast : tree.entry? last = some .directory) :
    tree.entry? start = some .directory := by
  cases names with
  | nil =>
    cases hwalk
    exact hlast
  | cons name rest =>
    rw [walk] at hwalk
    split at hwalk
    · cases hwalk
    · next hstart => exact Classical.not_not.1 hstart

/-- A name leads to a directory as it did before. -/
theorem Holds.walk_one {after : FileTree} {content : Bytes}
    (hholds : Holds tree after place content) (hleaf : tree.Leaf place) {start next : Place}
    {name : FileName} (hwalk : tree.walk start [name] = .ok next)
    (hnext : tree.entry? next = some .directory) : after.walk start [name] = .ok next := by
  have hbefore := directory_of_walk hwalk hnext
  have hafter := hholds.directory hleaf hbefore
  simp only [walk, hbefore, hafter, ne_eq, not_true_eq_false, if_false] at hwalk ⊢
  -- Only the case in which the name is looked up can depend on what was put there.
  split at hwalk
  · next hstay =>
    rw [if_pos hstay]
    exact hwalk
  · next hstay =>
    rw [if_neg hstay]
    split at hwalk
    · next hup =>
      rw [if_pos hup]
      exact hwalk
    · next hup =>
      rw [if_neg hup]
      split at hwalk
      · cases hwalk
      · next hlength =>
        rw [if_neg hlength]
        split at hwalk
        · cases hwalk
        · next target hentry =>
          have hother : start ++ [name] ≠ place := fun heq => hleaf.ne_link target (heq ▸ hentry)
          rw [hholds.kept _ hother, hentry]
          exact hwalk
        · cases hwalk
          rw [hholds.directory hleaf hnext]

/-- A walk to a directory does not pass a place where none stands. -/
theorem Holds.walk {after : FileTree} {content : Bytes} (hholds : Holds tree after place content)
    (hleaf : tree.Leaf place) {start last : Place} {names : List FileName}
    (hwalk : tree.walk start names = .ok last) (hlast : tree.entry? last = some .directory) :
    after.walk start names = .ok last := by
  induction names generalizing start with
  | nil => exact hwalk
  | cons name rest ih =>
    rw [← List.singleton_append, walk_append] at hwalk ⊢
    cases hnext : tree.walk start [name] with
    | error e => simp [hnext] at hwalk
    | ok next =>
      rw [hnext] at hwalk
      have hdirectory := directory_of_walk hwalk hlast
      rw [hholds.walk_one hleaf hnext hdirectory]
      exact ih hwalk

/-- A path that could be written leads to the same place after another one was written. -/
theorem Holds.leadsTo {after : FileTree} {content path : Bytes} {other : Place}
    (hholds : Holds tree after place content) (hleaf : tree.Leaf place)
    (h : tree.LeadsTo path other) : after.LeadsTo path other := by
  cases h with
  | mk above name parent hdefect hnames hname hstay hup hlength hwalk hparent hother =>
    have horigin : after.origin path = tree.origin path := by
      unfold origin
      rw [hholds.here_eq]
    exact .mk above name parent hdefect hnames hname hstay hup hlength
      (horigin ▸ hholds.walk hleaf hwalk hparent) (hholds.directory hleaf hparent)
      (hholds.leaf hleaf hother)

/-- A file is found under the path that it was written by. -/
theorem LeadsTo.look_eq {content : Bytes} (h : tree.LeadsTo path place)
    (hfile : tree.entry? place = some (.file content)) : tree.look path = .ok (.file content) := by
  cases h with
  | mk above name parent hdefect hnames hname hstay hup hlength hwalk hparent hleaf =>
    have hlocate : tree.locate path = .ok (parent ++ [name]) := by
      have hlast : tree.walk parent [name] = .ok (parent ++ [name]) := by
        simp [walk, hparent, hname, hstay, hup, Nat.not_lt.2 hlength, hfile]
      simp only [locate, hdefect, hnames, walk_append, hwalk, hlast]
    simp only [look, hlocate, nodeAt, hfile]

theorem Holds.look_eq {after : FileTree} {content : Bytes}
    (hholds : Holds tree after place content) (h : tree.LeadsTo path place) :
    after.look path = .ok (.file content) :=
  (hholds.leadsTo h.leaf h).look_eq hholds.written

/-- A path that was written leads to where it led before. -/
theorem destination_write (h : tree.destination path = .ok place) (content : Bytes) :
    (tree.write ⟨path, content⟩).destination path = .ok place := by
  have hleads := leadsTo_of_destination h
  simp only [write, h]
  by_cases hdevice : tree.entry? place = some .device
  · rw [writeAt, if_pos hdevice]
    exact h
  · have hholds := holds_writeAt hleads.leaf.ne_nil hdevice content
    exact (hholds.leadsTo hleads.leaf hleads).destination_eq

theorem obstacle?_eq_of_destination (h : tree.destination path = .ok place)
    (reason : Place → Option OsError) : tree.obstacle? reason path = reason place := by
  simp only [obstacle?, h]

theorem obstacle?_eq_none_iff (tree : FileTree) (reason : Place → Option OsError) (path : Bytes) :
    tree.obstacle? reason path = none ↔
      ∃ place, tree.destination path = .ok place ∧ reason place = none := by
  unfold obstacle?
  cases tree.destination path with
  | error e => simp
  | ok place => simp

/-- Writing a file puts nothing in its own way. -/
theorem obstacle?_write (h : tree.destination path = .ok place) (reason : Place → Option OsError)
    (content : Bytes) :
    (tree.write ⟨path, content⟩).obstacle? reason path = tree.obstacle? reason path := by
  rw [obstacle?_eq_of_destination (destination_write h content), obstacle?_eq_of_destination h]

end FileTree

end ModuleLoading
