import ModuleLoading.SearchPath
import ModuleLoading.Proofs.Utf8Codec

/-!
The value of a search path, piece by piece. Whether the whole value is text decides how it is read,
and makes no difference to what is read: no character but the colon has the colon's byte in it, so
that the pieces of a text are the pieces of its bytes, each of them text. Whatever stands between
two colons therefore gives its root, or none, by itself. The byte of a colon is 58, and that of a
slash 47.
-/
namespace ModuleLoading

namespace Utf8

theorem decode?_eq_some_iff (bytes : Bytes) (text : String) :
    decode? bytes = some text ↔ bytes = encode text := by
  rw [← decode_eq_ok_iff, decode?]
  cases decode bytes with
  | error fault => simp [Except.toOption]
  | ok other => simp [Except.toOption]

theorem decode?_encode (text : String) : decode? (encode text) = some text :=
  (decode?_eq_some_iff _ text).2 rfl

theorem filterMap_map_encode (texts : List String) :
    (texts.map encode).filterMap decode? = texts := by
  rw [List.filterMap_map]
  simp [decode?_encode]

def isText (bytes : Bytes) : Bool := (decode? bytes).isSome

/-- What can be read of some byte strings are those of them that are text. -/
theorem map_encode_filterMap (pieces : List Bytes) :
    (pieces.filterMap decode?).map encode = pieces.filter isText := by
  induction pieces with
  | nil => rfl
  | cons piece rest ih =>
    cases hpiece : decode? piece with
    | none => simp [isText, hpiece, ih]
    | some text => simp [isText, hpiece, ih, ← (decode?_eq_some_iff piece text).1 hpiece]

end Utf8

namespace SearchPath

/-- The root that an entry stands for. An empty entry stands for none. -/
def textRoot? (entry : String) : Option String :=
  if entry = "" then none else some (String.ofList (withoutTrailingSlashes entry.toList))

/-- The root that a piece of a value stands for, if it is text. -/
def root? (piece : Bytes) : Option String := (Utf8.decode? piece).bind textRoot?

/-- A value that is cut first and read piece by piece. -/
def readApart (value : Bytes) : SearchPath :=
  ofRoots ((Text.split 58 value).filterMap Utf8.decode?)

/-- What is left of a value when the pieces that are no text are taken out. -/
def textual (value : Bytes) : Bytes := Text.join 58 ((Text.split 58 value).filter Utf8.isText)

theorem roots_ofRoots (entries : List String) :
    (ofRoots entries).roots = entries.filterMap textRoot? := by
  induction entries with
  | nil => rfl
  | cons entry rest ih =>
    rw [ofRoots] at ih
    by_cases hempty : entry = ""
    · simpa [ofRoots, textRoot?, hempty] using ih
    · simpa [ofRoots, textRoot?, hempty] using ih

theorem roots_readApart (value : Bytes) :
    (readApart value).roots = (Text.split 58 value).filterMap root? := by
  rw [readApart, roots_ofRoots, List.filterMap_filterMap]
  rfl

theorem split_encode (text : String) : Text.split 58 (Utf8.encode text) =
    ((Text.split ':' text.toList).map String.ofList).map Utf8.encode := by
  have hsplit := Utf8.split_flatMap ':' (by decide) text.toList
  rw [List.map_map]
  refine hsplit.trans (List.map_congr_left fun piece _ => ?_)
  rw [Function.comp_apply, Utf8.encode, String.toList_ofList]

theorem map_decode?_split_encode (text : String) :
    (Text.split 58 (Utf8.encode text)).map Utf8.decode? =
      ((Text.split ':' text.toList).map String.ofList).map some := by
  rw [split_encode, List.map_map]
  exact List.map_congr_left fun entry _ => Utf8.decode?_encode entry

theorem parse_eq_readApart (text : String) : parse text = readApart (Utf8.encode text) := by
  rw [readApart, split_encode, Utf8.filterMap_map_encode, parse]

/-- Both ways of reading a value come to the same. -/
theorem ofBytes_eq_readApart (value : Bytes) : ofBytes value = readApart value := by
  cases hvalue : Utf8.decode? value with
  | none => simp only [ofBytes, hvalue, readApart]
  | some text =>
    obtain rfl := (Utf8.decode?_eq_some_iff value text).1 hvalue
    simp only [ofBytes, hvalue, parse_eq_readApart]

theorem exists_encode_eq_textual (value : Bytes) : ∃ text, Utf8.encode text = textual value := by
  have hpieces := Utf8.map_encode_filterMap (Text.split 58 value)
  generalize (Text.split 58 value).filterMap Utf8.decode? = texts at hpieces
  refine ⟨String.ofList (Text.join ':' (texts.map String.toList)), ?_⟩
  have hjoin := Utf8.flatMap_join ':' (by decide) (texts.map String.toList)
  rw [List.map_map] at hjoin
  rw [textual, ← hpieces, Utf8.encode, String.toList_ofList]
  exact hjoin

theorem readApart_textual (value : Bytes) : readApart (textual value) = readApart value := by
  have hread : ((Text.split 58 value).filter Utf8.isText).filterMap Utf8.decode? =
      (Text.split 58 value).filterMap Utf8.decode? := by
    rw [← Utf8.map_encode_filterMap, Utf8.filterMap_map_encode]
  have hcolon : ∀ piece ∈ (Text.split 58 value).filter Utf8.isText, 58 ∉ piece := by
    intro piece hpiece
    exact Text.notMem_of_mem_split 58 value piece (List.mem_filter.1 hpiece).1
  rw [readApart, readApart, textual, ← hread]
  by_cases hnone : (Text.split 58 value).filter Utf8.isText = []
  · -- The empty value that is left has one piece, which is empty.
    have hempty : Utf8.decode? [] = some "" := Utf8.decode?_encode ""
    simp [hnone, Text.join, Text.split, hempty, ofRoots]
  · rw [Text.split_join 58 _ hnone hcolon]

theorem withoutTrailingSlashes_replicate (n : Nat) :
    withoutTrailingSlashes (List.replicate n '/') = [] := by
  simp [withoutTrailingSlashes]

theorem root?_slashes (n : Nat) : root? (List.replicate (n + 1) 47) = some "" := by
  have hencode : List.replicate (n + 1) 47 =
      Utf8.encode (String.ofList (List.replicate (n + 1) '/')) := by
    rw [Utf8.encode, String.toList_ofList, List.flatMap_replicate]
    exact List.flatten_replicate_singleton.symm
  have hne : String.ofList (List.replicate (n + 1) '/') ≠ "" := by
    intro hempty
    have hlist := congrArg String.toList hempty
    simp at hlist
  rw [root?, hencode, Utf8.decode?_encode, Option.bind_some, textRoot?, if_neg hne,
    String.toList_ofList, withoutTrailingSlashes_replicate]

end SearchPath

open SearchPath in
/-- The roots of two values put together with a colon are those of the one and then those of the
other, text or not. Every piece between colons gives the same root, or none, whichever way the value
is read; a value with pieces that are no text has the roots of the text that is left without them. -/
theorem roots_piece_by_piece :
    (∀ front back : Bytes,
      (ofBytes (front ++ 58 :: back)).roots = (ofBytes front).roots ++ (ofBytes back).roots) ∧
    (∀ value, ofBytes value = readApart value ∧
      (ofBytes value).roots = (Text.split 58 value).filterMap root?) ∧
    (∀ text, parse text = readApart (Utf8.encode text) ∧
      (Text.split 58 (Utf8.encode text)).map Utf8.decode? =
        ((Text.split ':' text.toList).map String.ofList).map some) ∧
    (∀ value, ∃ text, Utf8.encode text = textual value ∧ ofBytes value = parse text) ∧
    root? [] = none ∧ (∀ n, root? (List.replicate (n + 1) 47) = some "") := by
  have hroots : ∀ value, (ofBytes value).roots = (Text.split 58 value).filterMap root? := by
    intro value
    rw [ofBytes_eq_readApart, roots_readApart]
  refine ⟨?_, fun value => ⟨ofBytes_eq_readApart value, hroots value⟩, ?_, ?_, ?_, root?_slashes⟩
  · intro front back
    rw [hroots, hroots, hroots, Text.split_append_sep, List.filterMap_append]
  · intro text
    exact ⟨parse_eq_readApart text, map_decode?_split_encode text⟩
  · intro value
    obtain ⟨text, htext⟩ := exists_encode_eq_textual value
    refine ⟨text, htext, ?_⟩
    rw [parse_eq_readApart, htext, readApart_textual, ofBytes_eq_readApart]
  · rw [root?, show Utf8.decode? [] = some "" from Utf8.decode?_encode ""]
    rfl

/-- One root of slashes, one that is empty, one that is no text, and one like any other. -/
example : (SearchPath.ofBytes (Utf8.encode "/::" ++ 255 :: Utf8.encode ":lib//")).roots =
    ["", "lib"] := by cbv

end ModuleLoading
