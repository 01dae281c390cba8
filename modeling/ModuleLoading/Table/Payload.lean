import ModuleLoading.Table.Basic

/-!
The encoded form of a table. A magic is followed by the counted entries and the
counted modules. Counts and lengths are 32-bit numbers, least significant byte
first, and every text or byte string has its length before it. A module is its
key, the tag of its space, its directory and its code. Keys are checked while
they are read, and nothing may follow the last module.
-/
namespace ModuleLoading.Table

def magic : Bytes := Utf8.encode "SPCYMOD1"

/-- The bytes of a count or a length. -/
def lengthWidth : Nat := 4

def chunk (bytes : Bytes) : Bytes := Bytes.ofNat lengthWidth bytes.length ++ bytes

def textChunk (text : String) : Bytes := chunk (Utf8.encode text)

def record (m : EmbeddedModule) : Bytes :=
  textChunk m.key ++ m.space.tag :: (textChunk m.dirname ++ chunk m.code)

def payload (table : Table) : Bytes :=
  magic ++ Bytes.ofNat lengthWidth table.entries.length ++ table.entries.flatMap textChunk ++
    Bytes.ofNat lengthWidth table.modules.length ++ table.modules.flatMap record

/-- Every count and length of the payload, in the order they are written. -/
def lengths (table : Table) : List Nat :=
  table.entries.length :: table.entries.map (fun entry => (Utf8.encode entry).length) ++
    table.modules.length :: table.modules.flatMap fun m =>
      [(Utf8.encode m.key).length, (Utf8.encode m.dirname).length,
        m.code.length]

def encode (table : Table) : Except LoadError Bytes :=
  match table.lengths.find? fun length => decide (Bytes.capacity lengthWidth ≤ length) with
  | some length => .error (.malformedTable (.lengthTooLarge length))
  | none => .ok table.payload

def takeBytes (count : Nat) (bytes : Bytes) : Except TableFault (Bytes × Bytes) :=
  if bytes.length < count then .error (.missingBytes count bytes.length)
  else .ok (bytes.take count, bytes.drop count)

def takeLength (bytes : Bytes) : Except TableFault (Nat × Bytes) :=
  if bytes.length < lengthWidth then .error .truncatedLength
  else .ok (Bytes.toNat (bytes.take lengthWidth), bytes.drop lengthWidth)

def takeTag : Bytes → Except TableFault (UInt8 × Bytes)
  | [] => .error .truncatedTag
  | tag :: rest => .ok (tag, rest)

def takeChunk (bytes : Bytes) : Except TableFault (Bytes × Bytes) := do
  let (length, bytes) ← takeLength bytes
  takeBytes length bytes

def takeText (bytes : Bytes) : Except TableFault (String × Bytes) := do
  let (encoded, bytes) ← takeChunk bytes
  match Utf8.decode encoded with
  | .ok text => .ok (text, bytes)
  | .error fault => .error (.keyNotUtf8 fault)

def takeRecord (bytes : Bytes) : Except TableFault (EmbeddedModule × Bytes) := do
  let (key, bytes) ← takeText bytes
  let (tag, bytes) ← takeTag bytes
  match Namespace.ofTag? tag with
  | none => .error (.unknownTag tag key)
  | some space =>
    let (dirname, bytes) ← takeText bytes
    let (code, bytes) ← takeChunk bytes
    .ok (⟨key, dirname, space, code⟩, bytes)

def takeEntries : Nat → Table → Bytes → Except TableFault (Table × Bytes)
  | 0, table, bytes => .ok (table, bytes)
  | count + 1, table, bytes => do
    let (key, bytes) ← takeText bytes
    takeEntries count (table.addEntry key) bytes

def takeModules : Nat → Table → Bytes → Except TableFault (Table × Bytes)
  | 0, table, bytes => .ok (table, bytes)
  | count + 1, table, bytes => do
    let (m, bytes) ← takeRecord bytes
    if table.contains m.key then .error (.duplicateKey m.key)
    else takeModules count (table.insert m) bytes

def takeTable (bytes : Bytes) : Except TableFault (Table × Bytes) := do
  let (found, bytes) ← takeBytes magic.length bytes
  if found ≠ magic then .error .badMagic
  else
    let (entryCount, bytes) ← takeLength bytes
    let (table, bytes) ← takeEntries entryCount empty bytes
    let (moduleCount, bytes) ← takeLength bytes
    takeModules moduleCount table bytes

def decode (bytes : Bytes) : Except LoadError Table :=
  match takeTable bytes with
  | .ok (table, []) => .ok table
  | .ok (_, rest) => .error (.malformedTable (.trailingBytes rest.length))
  | .error fault => .error (.malformedTable fault)

end ModuleLoading.Table
