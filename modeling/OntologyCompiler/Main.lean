import OntologyCompiler.CommandLine.Run

/-!
# The program

Follows its command line on the files of the machine.
-/

namespace OntologyCompiler

/-- The fault behind an error of the machine. -/
def FileFault.ofError : IO.Error → FileFault
  | .noFileOrDirectory .. => .notFound
  | .alreadyExists .. => .alreadyExists
  | .permissionDenied .. => .permissionDenied
  | .inappropriateType _ code _ => if code = 20 then .notADirectory else .isADirectory
  | .invalidArgument _ 36 _ => .nameTooLong
  | .resourceBusy .. => .busy
  | e => .other e.toString

/-- The result of an action, or its fault. -/
def FileFault.caught {α : Type} (act : IO α) : IO (Except FileFault α) := do
  try return .ok (← act)
  catch e => return .error (.ofError e)

/-- Whether a path leads to something of which `p` holds. -/
def FileFault.holdsAt (path : String) (p : IO.FS.FileType → Bool) : IO Bool := do
  try return p (← (← IO.FS.realPath path).metadata).type
  catch _ => return false

instance : Files IO where
  current := return (← IO.currentDir).toString
  read path := do
    match ← FileFault.caught (IO.FS.readBinFile path) with
    | .error fault => return .error fault
    | .ok bytes =>
      match String.fromUTF8? bytes with
      | some text => return .ok text
      | none => return .error .notText
  isFile path := FileFault.holdsAt path (· == .file)
  isPresent path := FileFault.holdsAt path fun _ => true
  makeDirectories path := FileFault.caught (IO.FS.createDirAll path)
  replace path text := FileFault.caught do
    let staged := path ++ ".tmp"
    IO.FS.writeFile staged text
    IO.FS.rename staged path

end OntologyCompiler

open OntologyCompiler CommandLine in
/-- Follow a command line; the result is the exit code. -/
def main (args : List String) : IO UInt32 := do
  match Invocation.ofArguments (← IO.getEnv "ONTOLOGY_CONFIG") args with
  | .error .misuse =>
    IO.eprint usageText
    return 2
  | .error .help =>
    IO.print usageText
    return 0
  | .error (.version command) =>
    IO.print (versionText command)
    return 0
  | .ok invocation =>
    let outcome ← run invocation
    IO.print outcome.output
    IO.eprint outcome.errorText
    return UInt32.ofNat outcome.code
