import OntologyCompiler.Files.Access

/-!
# A tree of files

Directories and files by the names that lead to them from the root. A path is followed name by name,
so each name but the last has to be that of a directory.

* `FileTree.locate`: what a path leads to.
* `FileTree.get?_put_self`: a file that has been put has its text.
-/

namespace OntologyCompiler

/-- The names that lead to a place from the root. -/
abbrev Names := List String

/-- Files and directories, and the directory that paths start from. -/
structure FileTree where
  current : Names
  directories : List Names
  /-- The files with their texts; none if the bytes of a file are no text. -/
  files : Ordered Names (Option String)

namespace FileTree

/-- What a path leads to. -/
inductive Spot where
  | directory (names : Names)
  | file (names : Names) (text : Option String)
  /-- A name that is free in a directory. -/
  | free (names : Names)

/-- A tree without files, with one directory and those around it. -/
def empty (current : Names) : FileTree :=
  ⟨current, (List.range (current.length + 1)).map (current.take ·), []⟩

/-- How many bytes a name may have. -/
def nameLimit : Nat := 255

/-- How many bytes a path may have. -/
def pathLimit : Nat := 4095

/-- Follow names from a directory; a name that is too long is met no later than any other. -/
def follow (t : FileTree) : Names → List String → Except FileFault Spot
  | here, [] => .ok (.directory here)
  | here, name :: rest =>
    if name = "" ∨ name = "." then t.follow here rest
    else if name = ".." then t.follow here.dropLast rest
    else if nameLimit < name.utf8ByteSize then .error .nameTooLong
    else
      let there := here ++ [name]
      if there ∈ t.directories then t.follow there rest
      else
        match t.files.get? there, rest with
        | some text, [] => .ok (.file there text)
        | some _, _ => .error .notADirectory
        | none, [] => .ok (.free there)
        | none, _ => .error .notFound

/-- What a path leads to. -/
def locate (t : FileTree) (path : String) : Except FileFault Spot :=
  if path = "" then .error .notFound
  else if path.contains '\x00' then .error .invalidName
  else if pathLimit < path.utf8ByteSize then .error .nameTooLong
  else t.follow (if Path.isAbsolute path then [] else t.current) (Path.pieces path)

/-- The text of a file. -/
def read (t : FileTree) (path : String) : Except FileFault String := do
  match ← t.locate path with
  | .file _ (some text) => return text
  | .file _ none => throw .notText
  | .directory _ => throw .isADirectory
  | .free _ => throw .notFound

/-- Whether a path leads to a file. -/
def isFile (t : FileTree) (path : String) : Bool :=
  match t.locate path with
  | .ok (.file ..) => true
  | _ => false

/-- Whether a path leads to anything. -/
def isPresent (t : FileTree) (path : String) : Bool :=
  match t.locate path with
  | .ok (.file ..) => true
  | .ok (.directory _) => true
  | _ => false

/-- Make one directory. -/
def makeDirectory (t : FileTree) (path : String) : Except FileFault FileTree := do
  match ← t.locate path with
  | .free names => return { t with directories := t.directories ++ [names] }
  | .file .. => throw .alreadyExists
  | .directory _ => return t

/-- Make the first of some directories, each of which is in the next one, and as many of the others
as it takes. -/
def makeFirst (t : FileTree) : List String → FileTree × Except FileFault Unit
  | [] => (t, .ok ())
  | path :: outer =>
    match t.makeDirectory path with
    | .ok t => (t, .ok ())
    | .error .notFound =>
      match t.makeFirst outer with
      | (t, .error fault) => (t, .error fault)
      | (t, .ok ()) =>
        match t.makeDirectory path with
        | .ok t => (t, .ok ())
        | .error fault => (t, .error fault)
    | .error fault => (t, .error fault)

/-- Make a directory and those around it. -/
def makeDirectories (t : FileTree) (path : String) : FileTree × Except FileFault Unit :=
  t.makeFirst ((Path.ancestors path).filter (· != ""))

/-- Put a file where a path leads to. Dots lead to a directory that is in use, and a slash at the
end asks for a directory. -/
def replace (t : FileTree) (path text : String) : Except FileFault FileTree := do
  let bare := Path.withoutSlashes path
  if path != "" && bare == "" then throw .busy
  let spot ← t.locate bare
  let last := (Path.pieces bare).getLast?
  if last = some "." ∨ last = some ".." then throw .busy
  if bare != path then throw .notADirectory
  match spot with
  | .free names => return { t with files := t.files.put names (some text) }
  | .file names _ => return { t with files := t.files.put names (some text) }
  | .directory _ => throw .isADirectory

theorem get?_put_self (t : FileTree) (names : Names) (text : String) :
    (t.files.put names (some text)).get? names = some (some text) := by
  simp [Ordered.get?_put_self]

instance : Files (StateM FileTree) where
  current := return Path.ofSteps true (← get).current
  read path := return (← get).read path
  isFile path := return (← get).isFile path
  isPresent path := return (← get).isPresent path
  makeDirectories path := modifyGet fun t =>
    let (t, result) := t.makeDirectories path
    (result, t)
  replace path text := modifyGet fun t =>
    match t.replace path text with
    | .ok t => (.ok (), t)
    | .error fault => (.error fault, t)

end FileTree
end OntologyCompiler
