import ModuleLoading.Proofs.SealedImage
import ModuleLoading.Proofs.StepwiseRun

/-!
The table that is packed last is the one that an executable carries. What comes off an
executable before a table goes onto it is all that the packing before it put there, so
that tables never pile up: after any number of rounds the image is that of a single one.
No round takes away a path that could be written before it, and the path that it reads
from may be the one that it writes to.
-/
namespace ModuleLoading

open Bytes (capacity)

namespace Table

/-- A table that has a payload, of a length that a trailer has room for. -/
def Packable (table : Table) : Prop :=
  ∃ payload, table.encode = .ok payload ∧ payload.length < capacity 8

/-- What is put at the end of an image is read from there and comes off again. -/
theorem Packable.sealed_eq {table : Table} (h : table.Packable) :
    ∃ sealed, table.sealed = .ok sealed ∧
      ∀ base, ofImage (base ++ sealed) = .ok (some table) ∧ strip (base ++ sealed) = .ok base := by
  obtain ⟨payload, hencode, hlength⟩ := h
  obtain ⟨hfits, hpayload⟩ := (encode_eq_ok_iff table payload).1 hencode
  have hdecode := decode_payload table hfits
  rw [← hpayload] at hdecode
  refine ⟨sealPayload payload, ?_, ?_⟩
  · rw [sealed, hencode]
    rfl
  · intro base
    exact ⟨ofImage_append_sealPayload base payload hlength table hdecode,
      strip_append_sealPayload base payload hlength⟩

end Table

/-- An executable can be written at the path and is kept there: the path can be opened, what
is written can be made executable, and no device stands at its end. -/
def Guard.Admits (guard : Guard) (tree : FileTree) (path : Bytes) : Prop :=
  ∃ place, tree.destination path = .ok place ∧ guard.refusal? place = none ∧
    guard.fixed place = none ∧ tree.entry? place ≠ some .device

namespace Guard.Admits

variable {guard : Guard} {tree : FileTree} {path : Bytes}

theorem refusal_eq (h : guard.Admits tree path) :
    (System.guarded tree guard).refusal path = none := by
  obtain ⟨place, hplace, hfree, _⟩ := h
  exact (System.refusal_eq_none_iff tree guard path).2 ⟨place, hplace, hfree⟩

theorem makeExecutable_eq (h : guard.Admits tree path) :
    (System.guarded tree guard).makeExecutable path = .ok () := by
  obtain ⟨place, hplace, _, hloose, _⟩ := h
  have hfixed : (System.guarded tree guard).fixed path = none :=
    (tree.obstacle?_eq_none_iff guard.fixed path).2 ⟨place, hplace, hloose⟩
  rw [System.makeExecutable, hfixed]

theorem holds_write (h : guard.Admits tree path) (content : Bytes) :
    ∃ place, tree.LeadsTo path place ∧ tree.Holds (tree.write ⟨path, content⟩) place content := by
  obtain ⟨place, hplace, _, _, hdevice⟩ := h
  have hleads := FileTree.leadsTo_of_destination hplace
  refine ⟨place, hleads, ?_⟩
  simp only [FileTree.write, hplace]
  exact FileTree.holds_writeAt hleads.leaf.ne_nil hdevice content

theorem look_write (h : guard.Admits tree path) (content : Bytes) :
    (tree.write ⟨path, content⟩).look path = .ok (.file content) := by
  obtain ⟨place, hleads, hholds⟩ := h.holds_write content
  exact hholds.look_eq hleads

/-- Writing one file takes no other path away. -/
theorem write (h : guard.Admits tree path) (content : Bytes) {other : Bytes}
    (hother : guard.Admits tree other) : guard.Admits (tree.write ⟨path, content⟩) other := by
  obtain ⟨place, hleads, hholds⟩ := h.holds_write content
  obtain ⟨place', hplace', hfree, hloose, hdevice⟩ := hother
  have hleads' := FileTree.leadsTo_of_destination hplace'
  refine ⟨place', (hholds.leadsTo hleads.leaf hleads').destination_eq, hfree, hloose, ?_⟩
  by_cases hsame : place' = place
  · rw [hsame, hholds.written]
    simp
  · rw [hholds.kept place' hsame]
    exact hdevice

end Guard.Admits

/-- What a packing leaves behind: the executable at its path is a base with one table on it,
and all paths that could be written can still be written. -/
structure Repacked (guard : Guard) (before after : FileTree) (path base sealed : Bytes) : Prop where
  look_eq : after.look path = .ok (.file (base ++ sealed))
  admits : ∀ other, guard.Admits before other → guard.Admits after other

theorem Repacked.read_eq {guard : Guard} {before after : FileTree} {path base sealed : Bytes}
    (h : Repacked guard before after path base sealed) :
    (System.guarded after guard).read path = .ok (base ++ sealed) := by
  simp only [System.read, System.guarded, h.look_eq]
  rfl

namespace Table

theorem repacked_writeExecutable {table : Table} {guard : Guard} {tree : FileTree}
    (runtime : System → Except LoadError Bytes) {out image base sealed : Bytes}
    (himage : runtime (.guarded tree guard) = .ok image) (hstrip : strip image = .ok base)
    (hsealed : table.sealed = .ok sealed) (hout : guard.Admits tree out) :
    ∃ after, (table.writeExecutable guard runtime out).startingAt tree =
        (.ok (base ++ sealed).length, after) ∧ Repacked guard tree after out base sealed := by
  have hemit := (emit_eq_ok_iff table (.guarded tree guard) image out _).2
    ⟨base, sealed, hstrip, hsealed, hout.refusal_eq, rfl⟩
  refine ⟨tree.write ⟨out, base ++ sealed⟩, ?_, hout.look_write _, ?_⟩
  · simp only [startingAt_writeExecutable, himage, pack, hemit, hout.makeExecutable_eq, Except.map]
  · exact fun other hother => hout.write _ hother

end Table

/-- A table to be packed, and the path of the executable that is to carry it. -/
structure Repacking where
  table : Table
  out : Bytes

/-- Packs table after table, the first onto the executable at the given path and each one
after it onto the executable written before. Answers the sizes of what was written. -/
def repackAll (guard : Guard) : Bytes → List Repacking → Step LoadError (List Nat)
  | _, [] => return []
  | runtime, round :: rest => do
    let size ← round.table.writeExecutable guard (fun system => system.read runtime) round.out
    let sizes ← repackAll guard round.out rest
    return size :: sizes

/-- Rounds before the last one leave no trace in what the last one writes. -/
theorem repacked_repackAll (guard : Guard) (rounds : List Repacking) (last : Repacking)
    (tree : FileTree) (runtime image base sealed : Bytes)
    (himage : (System.guarded tree guard).read runtime = .ok image)
    (hstrip : Table.strip image = .ok base)
    (htables : ∀ round ∈ rounds, round.table.Packable)
    (houts : ∀ round ∈ rounds, guard.Admits tree round.out)
    (hsealed : last.table.sealed = .ok sealed) (hlast : guard.Admits tree last.out) :
    ∃ sizes after, (repackAll guard runtime (rounds ++ [last])).startingAt tree =
        (.ok (sizes ++ [(base ++ sealed).length]), after) ∧
      Repacked guard tree after last.out base sealed := by
  induction rounds generalizing tree runtime image with
  | nil =>
    obtain ⟨after, hstep, hrepacked⟩ := Table.repacked_writeExecutable
      (fun system => system.read runtime) himage hstrip hsealed hlast
    refine ⟨[], after, ?_, hrepacked⟩
    simp only [List.nil_append, repackAll, Step.startingAt_bind, hstep, Step.startingAt_pure]
  | cons round rest ih =>
    obtain ⟨htable, htables⟩ := List.forall_mem_cons.1 htables
    obtain ⟨hout, houts⟩ := List.forall_mem_cons.1 houts
    obtain ⟨own, hown, hoff⟩ := htable.sealed_eq
    obtain ⟨between, hstep, hrepacked⟩ := Table.repacked_writeExecutable
      (fun system => system.read runtime) himage hstrip hown hout
    -- What the round wrote is read by the next one, and its table comes off again.
    obtain ⟨sizes, after, hrest, hafter⟩ := ih between round.out (base ++ own) hrepacked.read_eq
      (hoff base).2 htables (fun next hnext => hrepacked.admits _ (houts next hnext))
      (hrepacked.admits _ hlast)
    refine ⟨(base ++ own).length :: sizes, after, ?_, hafter.look_eq, ?_⟩
    · simp only [List.cons_append, repackAll, Step.startingAt_bind, hstep, hrest,
        Step.startingAt_pure]
    · exact fun other hother => hafter.admits other (hrepacked.admits other hother)

/-- A chain of packings ends with the image that the last one alone would have written,
whatever the first executable carried and wherever the others were written. The table of the
last one is read from it, and the size it answered is that of the image. -/
theorem last_table_wins (guard : Guard) (tree : FileTree) (runtime image base : Bytes)
    (rounds : List Repacking) (last : Repacking)
    (himage : (System.guarded tree guard).read runtime = .ok image)
    (hstrip : Table.strip image = .ok base)
    (htables : ∀ round ∈ rounds ++ [last], round.table.Packable)
    (houts : ∀ round ∈ rounds ++ [last], guard.Admits tree round.out) :
    ∃ sealed sizes after alone, last.table.sealed = .ok sealed ∧
      (repackAll guard runtime (rounds ++ [last])).startingAt tree =
        (.ok (sizes ++ [(base ++ sealed).length]), after) ∧
      (last.table.writeExecutable guard (fun system => system.read runtime) last.out).startingAt
        tree = (.ok (base ++ sealed).length, alone) ∧
      after.look last.out = .ok (.file (base ++ sealed)) ∧
      alone.look last.out = .ok (.file (base ++ sealed)) ∧
      Table.ofExecutable (.guarded after guard) last.out = .ok (some last.table) ∧
      Table.strip (base ++ sealed) = .ok base := by
  obtain ⟨htables, hlast⟩ := List.forall_mem_append.1 htables
  obtain ⟨houts, hout⟩ := List.forall_mem_append.1 houts
  obtain ⟨sealed, hsealed, hread⟩ := (hlast last (List.mem_singleton_self last)).sealed_eq
  have hadmits := hout last (List.mem_singleton_self last)
  obtain ⟨sizes, after, hchain, hafter⟩ := repacked_repackAll guard rounds last tree runtime image
    base sealed himage hstrip htables houts hsealed hadmits
  obtain ⟨alone, hstep, halone⟩ := Table.repacked_writeExecutable
    (fun system => system.read runtime) himage hstrip hsealed hadmits
  refine ⟨sealed, sizes, after, alone, hsealed, hchain, hstep, hafter.look_eq, halone.look_eq,
    ?_, (hread base).2⟩
  unfold Table.ofExecutable
  rw [hafter.read_eq]
  exact (hread base).1

namespace PackedInPlace

def path : Bytes := [97]

/-- The program itself ends like an executable that carries a table. -/
def program : Bytes := 1 :: Table.closingMagic

def tree : FileTree := ⟨[([path], .file program)], []⟩

def guard : Guard := ⟨none, fun _ => none, fun _ => none⟩

def first : Repacking := ⟨Table.empty.addEntry "a", path⟩

def second : Repacking := ⟨Table.empty.insert ⟨"b", ".", .search, []⟩, path⟩

theorem last_table_wins_in_place : ∃ sealed sizes after, second.table.sealed = .ok sealed ∧
    (repackAll guard path [first, second]).startingAt tree =
      (.ok (sizes ++ [(program ++ sealed).length]), after) ∧
    after.look path = .ok (.file (program ++ sealed)) := by
  have himage : (System.guarded tree guard).read path = .ok program := by decide
  have hstrip : Table.strip program = .ok program := by decide
  have hadmits : guard.Admits tree path := ⟨[path], by decide⟩
  have htables : ∀ round ∈ [first] ++ [second], round.table.Packable := by
    intro round hround
    rcases List.mem_pair.1 hround with rfl | rfl
    · exact ⟨first.table.payload, by decide, by decide⟩
    · exact ⟨second.table.payload, by decide, by decide⟩
  have houts : ∀ round ∈ [first] ++ [second], guard.Admits tree round.out := by
    intro round hround
    rcases List.mem_pair.1 hround with rfl | rfl
    · exact hadmits
    · exact hadmits
  obtain ⟨sealed, sizes, after, alone, hsealed, hchain, _, hlook, _⟩ :=
    last_table_wins guard tree path program program [first] second himage hstrip htables houts
  exact ⟨sealed, sizes, after, hsealed, hchain, hlook⟩

end PackedInPlace

end ModuleLoading
