/-!
# What can go wrong with a file

* `FileFault.kind`: the name of the kind of fault.
* `FileFault.message`: its wording, with the number that the operating system gives it.
-/

namespace OntologyCompiler

/-- A fault of the file system. -/
inductive FileFault where
  | notFound
  | notADirectory
  | isADirectory
  | alreadyExists
  | permissionDenied
  /-- The path leads to a directory by dots. -/
  | busy
  /-- The path has a character that no name has. -/
  | invalidName
  /-- A name of the path, or the whole path, is too long. -/
  | nameTooLong
  /-- The bytes of the file are no text. -/
  | notText
  | other (words : String)
  deriving DecidableEq, Inhabited

namespace FileFault

/-- The name of the kind. -/
def kind : FileFault → String
  | notFound => "NotFound"
  | notADirectory => "NotADirectory"
  | isADirectory => "IsADirectory"
  | alreadyExists => "AlreadyExists"
  | permissionDenied => "PermissionDenied"
  | busy => "ResourceBusy"
  | invalidName => "InvalidInput"
  | nameTooLong => "InvalidFilename"
  | notText => "InvalidData"
  | other _ => "Other"

/-- The wording. -/
def message : FileFault → String
  | notFound => "No such file or directory (os error 2)"
  | notADirectory => "Not a directory (os error 20)"
  | isADirectory => "Is a directory (os error 21)"
  | alreadyExists => "File exists (os error 17)"
  | permissionDenied => "Permission denied (os error 13)"
  | busy => "Device or resource busy (os error 16)"
  | invalidName => "file name contained an unexpected NUL byte"
  | nameTooLong => "File name too long (os error 36)"
  | notText => "stream did not contain valid UTF-8"
  | other words => words

end FileFault
end OntologyCompiler
