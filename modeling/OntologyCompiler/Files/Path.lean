/-!
# Paths of files

A path is a text of names between slashes. Empty names and `.` say nothing; a path that begins with
a slash starts at the root.

* `fileName?`: the last name of a path; `..` is no name.
* `parent?`, `ancestors`: a path without its last names.
* `extension?`: what follows the last dot of it, where something precedes that dot.
-/

namespace OntologyCompiler.Path

/-- The names of a path between its slashes. -/
def pieces (path : String) : List String :=
  (path.toList.splitOn '/').map String.ofList

/-- The names that say something. -/
def steps (path : String) : List String :=
  (pieces path).filter fun s => s != "" && s != "."

/-- Whether a path starts at the root. -/
def isAbsolute (path : String) : Bool :=
  path.toList.head? == some '/'

/-- A path below another one; an absolute one stands alone. -/
def join (base path : String) : String :=
  if isAbsolute path then path
  else if base.isEmpty then path
  else if base.toList.getLast? == some '/' then base ++ path
  else base ++ "/" ++ path

/-- A path without the slashes at its end. -/
def withoutSlashes (path : String) : String :=
  String.ofList (path.toList.reverse.dropWhile (· == '/')).reverse

/-- Names as a path, from the root or not. -/
def ofSteps (absolute : Bool) (names : List String) : String :=
  (if absolute then "/" else "") ++ "/".intercalate names

/-- A path without its last name; none if nothing is left. -/
def parent? (path : String) : Option String :=
  let names := steps path
  if names.isEmpty || (names.length = 1 && !isAbsolute path) then none
  else some (ofSteps (isAbsolute path) names.dropLast)

/-- A path, and the paths of the directories around it, the nearest first. -/
def ancestors (path : String) : List String :=
  let names := steps path
  (List.range (names.length + 1)).reverse.map fun n => ofSteps (isAbsolute path) (names.take n)

/-- The name of the file at the end of a path. -/
def fileName? (path : String) : Option String :=
  match (steps path).getLast? with
  | some s => if s = ".." then none else some s
  | none => none

/-- The extension of the file at the end of a path. -/
def extension? (path : String) : Option String := do
  let name ← fileName? path
  let parts := name.toList.splitOn '.'
  let last ← parts.getLast?
  if parts.length < 2 ∨ (parts.length = 2 ∧ parts.head? = some []) then none
  else some (String.ofList last)

end OntologyCompiler.Path
