import ModuleLoading.OsError
import ModuleLoading.Text.Utf8
import ModuleLoading.Text.Escape

/-!
Everything that can go wrong between a specifier and a loaded or packed module,
by cause. The wording is in `message` alone.
-/
namespace ModuleLoading

/-- Why bytes are not an encoded module table. -/
inductive TableFault
  | badMagic
  | truncatedTag
  | truncatedLength
  | missingBytes (needed left : Nat)
  | keyNotUtf8 (fault : Utf8.Fault)
  | unknownTag (tag : UInt8) (key : String)
  | duplicateKey (key : String)
  | trailingBytes (count : Nat)
  | payloadExceedsImage (payload body : Nat)
  | lengthTooLarge (length : Nat)
  deriving Repr, DecidableEq

def TableFault.message : TableFault → String
  | badMagic => "bad payload magic"
  | truncatedTag => "truncated namespace tag"
  | truncatedLength => "truncated length field"
  | missingBytes needed left =>
    "needed " ++ toString needed ++ " bytes, " ++ toString left ++ " left"
  | keyNotUtf8 fault => "key is not UTF-8: " ++ fault.message
  | unknownTag tag key =>
    "unknown namespace tag " ++ toString tag.toNat ++ " for '" ++ key ++ "'"
  | duplicateKey key => "duplicate key '" ++ key ++ "'"
  | trailingBytes count => toString count ++ " trailing bytes after last module"
  | payloadExceedsImage payload body =>
    "payload length " ++ toString payload ++ " exceeds image body of " ++ toString body ++ " bytes"
  | lengthTooLarge length => "length " ++ toString length ++ " does not fit in u32"

inductive LoadError
  | notFound (specifier : String)
  | notEmbeddable (specifier : String)
  | unreadable (path : String) (cause : OsError)
  | candidateTooLong (length limit : Nat)
  | candidateHasNul (base : String)
  | malformedTable (fault : TableFault)
  | digestMismatch (expected actual : Bytes)
  | rejectedSource (key : String) (fault : Utf8.Fault)
  | fileSystem (cause : OsError)
  deriving Repr, DecidableEq

def LoadError.message : LoadError → String
  | notFound specifier => "Cannot find module '" ++ specifier ++ "'"
  | notEmbeddable specifier =>
    "Cannot embed module '" ++ specifier ++
      "': it does not resolve against the build search path"
  | unreadable path cause => "Error reading module '" ++ path ++ "': " ++ cause.message
  | candidateTooLong length limit =>
    "Candidate path is " ++ toString length ++ " bytes long, limit is " ++ toString limit
  | candidateHasNul base =>
    "Invalid module path: '" ++ Text.escape base ++ "' contains a NUL byte"
  | malformedTable fault => "Invalid embedded module table: " ++ fault.message
  | digestMismatch expected actual =>
    "Embedded module table is corrupt: expected digest " ++ expected.hex ++ ", got " ++ actual.hex
  | rejectedSource key fault =>
    "Engine error for module '" ++ key ++ "': module source is not valid UTF-8: " ++ fault.message
  | fileSystem cause => "File system error: " ++ cause.message

end ModuleLoading
