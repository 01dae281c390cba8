import ModuleLoading.Text.Utf8

/-!
The words of a command line. It has two levels: options common to all commands
may stand before the name of the command, and all options of the command behind
it, between its operands. An option is given by its long name, or by a letter in a
cluster of letters; its value is attached or is the next word, which must not look
like an option. After "--" every word is an operand.
-/
namespace ModuleLoading

inductive Opt
  | verbose
  | searchPath
  | noFallback
  | directory
  | embed
  | json
  | output
  | runtime
  | imported
  deriving Repr, DecidableEq

namespace Opt

def long : Opt → String
  | verbose => "verbose"
  | searchPath => "path"
  | noFallback => "no-bare-fallback"
  | directory => "from"
  | embed => "embed"
  | json => "json"
  | output => "output"
  | runtime => "runtime"
  | imported => "import"

def letter? : Opt → Option Char
  | verbose => some 'v'
  | embed => some 'M'
  | output => some 'o'
  | _ => none

def takesValue : Opt → Bool
  | verbose | noFallback | json => false
  | _ => true

/-- Whether it can be given more than once at one level. -/
def isList : Opt → Bool
  | embed | imported => true
  | _ => false

def common : List Opt := [verbose, searchPath, noFallback]

end Opt

/-- An option as it is given. One that takes no value has an empty one. -/
structure GivenOpt where
  opt : Opt
  value : Bytes
  deriving Repr, DecidableEq

namespace CommandLine

def dash : UInt8 := 45

def equals : UInt8 := 61

/-- What a word is where an option may stand. -/
inductive Word
  | operand
  | endOfOptions
  | options (given : List GivenOpt)
  /-- The value of the last option is the next word. -/
  | awaiting (given : List GivenOpt) (last : Opt)
  deriving Repr, DecidableEq

def Word.after (one : GivenOpt) : Word → Word
  | options given => options (one :: given)
  | awaiting given last => awaiting (one :: given) last
  | word => word

variable (known : List Opt)

/-- A long option without its dashes. -/
def longOption (body : Bytes) : Option Word :=
  let name := body.takeWhile (· ≠ equals)
  match known.find? fun opt => decide (Utf8.encode opt.long = name), body.drop name.length with
  | none, _ => none
  | some opt, [] => some (if opt.takesValue then .awaiting [] opt else .options [⟨opt, []⟩])
  | some opt, _ :: value => if opt.takesValue then some (.options [⟨opt, value⟩]) else none

/-- The letters of a cluster. What follows an option that takes a value is its
value, with or without an equals sign. -/
def cluster : Bytes → Option Word
  | [] => some (.options [])
  | letter :: rest =>
    match known.find? fun opt => decide (opt.letter?.map Char.toUInt8 = some letter) with
    | none => none
    | some opt =>
      if opt.takesValue then
        match rest with
        | [] => some (.awaiting [] opt)
        | first :: others =>
          some (.options [⟨opt, if first = equals then others else first :: others⟩])
      else (cluster rest).map (Word.after ⟨opt, []⟩)

/-- None for a word that looks like an option but is none of the known ones. -/
def word? : Bytes → Option Word
  | first :: second :: body =>
    if first ≠ dash then some .operand
    else if second ≠ dash then cluster known (second :: body)
    else if body = [] then some .endOfOptions
    else longOption known body
  | _ => some .operand

def isOperand (word : Bytes) : Bool := word? [] word == some .operand

/-- The options among the words and the operands. Unless options may stand
between operands, the words from the first operand on are handed back as they are,
and so are those from "--" on. -/
def gather (mixed : Bool) : List Bytes → Option (List GivenOpt × List Bytes)
  | [] => some ([], [])
  | word :: rest =>
    match word? known word with
    | none => none
    | some .operand =>
      if mixed then (gather mixed rest).map fun (given, operands) => (given, word :: operands)
      else some ([], word :: rest)
    | some .endOfOptions => some ([], if mixed then rest else word :: rest)
    | some (.options given) =>
      (gather mixed rest).map fun (others, operands) => (given ++ others, operands)
    | some (.awaiting given last) =>
      match rest with
      | [] => none
      | value :: rest =>
        if isOperand value then
          (gather mixed rest).map fun (others, operands) =>
            (given ++ ⟨last, value⟩ :: others, operands)
        else none

/-- One level of a command line. -/
structure Level where
  given : List GivenOpt
  operands : List Bytes
  deriving Repr, DecidableEq

namespace Level

def values (level : Level) (opt : Opt) : List Bytes :=
  (level.given.filter fun one => one.opt = opt).map GivenOpt.value

def value? (level : Level) (opt : Opt) : Option Bytes := (level.values opt).head?

def has (level : Level) (opt : Opt) : Bool := !(level.values opt).isEmpty

/-- Only the options that make a list can be repeated. -/
def repeats (level : Level) : Bool :=
  !decide ((level.given.map GivenOpt.opt).filter fun opt => !opt.isList).Nodup

def read? (mixed : Bool) (words : List Bytes) : Option Level :=
  match gather known mixed words with
  | none => none
  | some (given, operands) =>
    let level : Level := ⟨given, operands⟩
    if level.repeats then none else some level

end Level

end CommandLine

inductive Command
  /-- Shows where a specifier leads, seen from a directory. -/
  | resolve (specifier : String) (directory : Option String)
  /-- Shows the dependency graph of some roots. -/
  | dependencies (entries forced : List String) (json : Bool)
  /-- Writes an executable that carries the modules of its roots. -/
  | pack (entries forced : List String) (output : Bytes) (runtime : Option Bytes)
  /-- Links a module and what it is to import at run time. -/
  | link (entry : String) (imported : List String)
  /-- Shows the content of a module. -/
  | print (specifier : String)
  deriving Repr, DecidableEq

namespace Command

inductive Name
  | resolve
  | dependencies
  | pack
  | link
  | print
  deriving Repr, DecidableEq

namespace Name

def ofWord? (word : Bytes) : Option Name :=
  match Utf8.decode? word with
  | some "resolve" => some resolve
  | some "deps" | some "graph" => some dependencies
  | some "compile" | some "build" => some pack
  | some "load" => some link
  | some "cat" => some print
  | _ => none

def options : Name → List Opt
  | resolve => [.directory]
  | dependencies => [.embed, .json]
  | pack => [.output, .embed, .runtime]
  | link => [.imported]
  | print => []

end Name

/-- A file is not named by an empty word. -/
def fileName? (word : Bytes) : Option Bytes := if word = [] then none else some word

/-- The command that its level spells out. Everything but the names of files to
be read or written has to be text. -/
def ofLevel? (name : Name) (level : CommandLine.Level) : Option Command := do
  let operands ← level.operands.mapM Utf8.decode?
  match name, operands with
  | .resolve, [specifier] =>
    return resolve specifier (← (level.value? .directory).mapM Utf8.decode?)
  | .dependencies, first :: rest =>
    return dependencies (first :: rest) (← (level.values .embed).mapM Utf8.decode?)
      (level.has .json)
  | .pack, first :: rest =>
    return pack (first :: rest) (← (level.values .embed).mapM Utf8.decode?)
      (← (level.value? .output).bind fileName?) (← (level.value? .runtime).mapM fileName?)
  | .link, [entry] => return link entry (← (level.values .imported).mapM Utf8.decode?)
  | .print, [specifier] => return print specifier
  | _, _ => none

end Command

structure Arguments where
  searchPath : Option Bytes
  pathFallback : Bool
  /-- None when the program is started without a command. -/
  command : Option Command
  deriving Repr, DecidableEq

namespace Arguments

/-- What is set behind the name of the command goes before what is set in front
of it. -/
def ofWords? (words : List Bytes) : Option Arguments := do
  let outer ← CommandLine.Level.read? Opt.common false words
  match outer.operands with
  | [] | [[45, 45]] => return ⟨outer.value? .searchPath, !outer.has .noFallback, none⟩
  | word :: rest =>
    let name ← Command.Name.ofWord? word
    let inner ← CommandLine.Level.read? (Opt.common ++ name.options) true rest
    let command ← Command.ofLevel? name inner
    return ⟨(inner.value? .searchPath).or (outer.value? .searchPath),
      !(outer.has .noFallback || inner.has .noFallback), some command⟩

end Arguments

end ModuleLoading
