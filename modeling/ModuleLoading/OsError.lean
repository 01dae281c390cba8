/-!
Why the operating system refuses to open a file, with the texts it reports.
-/
namespace ModuleLoading

inductive OsError
  | noSuchFile
  | notDirectory
  | isDirectory
  | nameTooLong
  /-- The file is a program that is running. -/
  | textFileBusy
  | nulInPath
  | other (text : String)
  deriving Repr, DecidableEq

def OsError.message : OsError → String
  | noSuchFile => "No such file or directory (os error 2)"
  | notDirectory => "Not a directory (os error 20)"
  | isDirectory => "Is a directory (os error 21)"
  | nameTooLong => "File name too long (os error 36)"
  | textFileBusy => "Text file busy (os error 26)"
  | nulInPath => "file name contained an unexpected NUL byte"
  | other text => text

end ModuleLoading
