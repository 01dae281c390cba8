/-!
A reading finds something at the front of a text. It lists every way to find it,
the preferred one first, each with the text that is left; a sequence of readings
prefers by its first part, then by the next. Runs take all they can and have no
other way, which loses nothing where what follows cannot begin with the run's
own characters.
-/
namespace ModuleLoading.Source

def Reading (α : Type) : Type := List Char → List (α × List Char)

namespace Reading

instance : Monad Reading where
  pure a := fun text => [(a, text)]
  bind first next := fun text => (first text).flatMap fun (a, rest) => next a rest

variable {α : Type}

def exactly : List Char → Reading Unit
  | [], text => [((), text)]
  | c :: word, d :: text => if c = d then exactly word text else []
  | _ :: _, [] => []

def one (accepts : Char → Bool) : Reading Char
  | c :: text => if accepts c then [(c, text)] else []
  | [] => []

def run (accepts : Char → Bool) : Reading (List Char) :=
  fun text => [(text.takeWhile accepts, text.dropWhile accepts)]

def nonemptyRun (accepts : Char → Bool) : Reading (List Char) := fun text =>
  if text.takeWhile accepts = [] then []
  else [(text.takeWhile accepts, text.dropWhile accepts)]

/-- A run up to the `ending` that it ends in. -/
def nonemptyRunBefore (accepts : Char → Bool) (ending : List Char) : Reading (List Char) :=
  fun text =>
    let whole := text.takeWhile accepts
    let size := whole.length - ending.length
    if 0 < size ∧ whole.drop size = ending then [(whole.take size, text.drop size)] else []

def either (first second : Reading α) : Reading α := fun text => first text ++ second text

/-- Prefers to read over leaving out. -/
def optionally (reading : Reading α) : Reading (Option α) :=
  either (some <$> reading) (pure none)

/-- Nothing, where the text does not go on with an accepted character. -/
def unlessNext (accepts : Char → Bool) : Reading Unit
  | c :: text => if accepts c then [] else [((), c :: text)]
  | [] => [((), [])]

end Reading

/-- A reading's preferred find at some place of a text. -/
structure Occurrence (α : Type) where
  offset : Nat
  value : α
  rest : List Char

variable {α : Type}

/-- Goes through a text after `previous`, leaving out the next `skip` characters,
which belong to the occurrence before. -/
def occurrencesFrom (begins : Char → Bool) (reading : Reading α) (offset : Nat) (previous : Char)
    (skip : Nat) : List Char → List (Occurrence α)
  | [] => []
  | c :: text =>
    match skip with
    | skip + 1 => occurrencesFrom begins reading (offset + 1) c skip text
    | 0 =>
      match if begins previous then (reading (c :: text)).head? else none with
      | some (value, rest) =>
        ⟨offset, value, rest⟩ ::
          occurrencesFrom begins reading (offset + 1) c (text.length - rest.length) text
      | none => occurrencesFrom begins reading (offset + 1) c 0 text

/-- The occurrences that do not overlap, from left to right. An occurrence is
looked for where the character before it satisfies `begins`; a text begins as if
after a line end. -/
def occurrences (begins : Char → Bool) (reading : Reading α) (text : List Char) :
    List (Occurrence α) :=
  occurrencesFrom begins reading 0 '\n' 0 text

end ModuleLoading.Source
