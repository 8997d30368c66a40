import OntologyCompiler.Reading.Fault

/-!
# Reading typed values out of a document

A `Medium` says how a node of a document is looked at: as a text, a flag, a list, a record and so
on. JSON values, JSON text and YAML text are media; a type is read in the same way from each of
them. Nodes are read in document order, and the first fault ends the reading. What else a reading
has to keep track of is up to the medium: it chooses the monad.

* `Record.read`: a record given by names in any order, or by position. Names that are no field are
  skipped; a field given twice is a fault; a field that is not given keeps its blank value or, if it
  is required, is a fault once the whole record has been read.
-/

namespace OntologyCompiler

/-- The monads of readings: what is read may have a fault. -/
class abbrev Reads (m : Type → Type) := Monad m, MonadExceptOf Fault m

/-- The parts of a node in document order, and what is found where they end. -/
structure Run (m : Type → Type) (α : Type) where
  list : List α
  ending : m Unit

/-- The members of a record or map, each with its name. -/
abbrev Members (m : Type → Type) (ν : Type) :=
  Run m (m String × ν)

/-- A record is given by position or by name. -/
inductive Layout (m : Type → Type) (ν : Type) where
  | positional (items : Run m ν)
  | named (members : Members m ν)

/-- A variant by its name, and what is left to check once the name is known. -/
structure Choice (m : Type → Type) where
  name : String
  payload : m Unit

/-- How the nodes of a document are looked at. -/
class Medium (ν : Type) (m : outParam (Type → Type)) where
  /-- A text. -/
  text : ν → m String
  /-- A truth value. -/
  flag : ν → m Bool
  /-- A whole number below 256. -/
  byte : ν → m UInt8
  /-- The node of a value that may be absent, unless it is. -/
  present? : ν → m (Option ν)
  /-- Any value at all. -/
  free : ν → m Json
  /-- Pass over a node that is not wanted. -/
  skip : ν → m Unit
  /-- One of several variants. -/
  choice : ν → m (Choice m)
  /-- A list. -/
  items : ν → m (Run m ν)
  /-- A map from texts. -/
  members : ν → m (Members m ν)
  /-- A record of the given name. -/
  layout : String → ν → m (Layout m ν)
  /-- How deep lists, maps and records may be nested in a node. -/
  height : ν → Nat
  /-- The fault of a positional record with `count` items, more than it has fields. -/
  surplus : (count : Nat) → Fault

namespace Reading

variable {ν α : Type} {m : Type → Type} [Reads m] [Medium ν m]

/-- A value that may be absent. -/
def optional (read : ν → m α) (node : ν) : m (Option α) := do
  match ← Medium.present? node with
  | some node => some <$> read node
  | none => return none

/-- A list of values. -/
def list (read : ν → m α) (node : ν) : m (List α) := do
  let run ← Medium.items node
  let values ← run.list.mapM read
  run.ending
  return values

/-- The members of a map, read in order; of a repeated name the last value counts. -/
def entries (read : ν → m α) :
    Ordered String α → List (m String × ν) → m (Ordered String α)
  | map, [] => return map
  | map, (key, value) :: rest => do
    let k ← key
    let v ← read value
    entries read (Ordered.put map k v) rest

/-- A map from texts to values. -/
def map (read : ν → m α) (node : ν) : m (Ordered String α) := do
  let run ← Medium.members node
  let values ← entries read [] run.list
  run.ending
  return values

/-- One of the variants in a table of names. -/
def variant (table : List (String × α)) (node : ν) : m α := do
  let choice ← Medium.choice node
  match table.lookup choice.name with
  | some a => choice.payload; return a
  | none => throw (Fault.unknownVariant choice.name (table.map Prod.fst))

/-- One of the variants in a table of names, or `other` for every other name. -/
def variantOr (table : List (String × α)) (other : α) (node : ν) : m α := do
  let choice ← Medium.choice node
  choice.payload
  return (table.lookup choice.name).getD other

end Reading

/-- A field of a record `σ`: the names it answers to and how its value enters the record. -/
structure Field (ν : Type) (m : Type → Type) (σ : Type) where
  name : String
  otherName : Option String
  required : Bool
  read : ν → σ → m σ

namespace Field

variable {ν σ α : Type} {m : Type → Type}

/-- A field that may be left out. -/
def plain [Functor m] (name : String) (read : ν → m α) (set : σ → α → σ) : Field ν m σ :=
  ⟨name, none, false, fun node r => set r <$> read node⟩

/-- A field that has to be given. -/
def must [Functor m] (name : String) (read : ν → m α) (set : σ → α → σ) : Field ν m σ :=
  { plain name read set with required := true }

/-- The same field under a second name. -/
def orNamed (f : Field ν m σ) (name : String) : Field ν m σ :=
  { f with otherName := some name }

/-- Whether a member of the given name is this field. -/
def answers (f : Field ν m σ) (name : String) : Bool :=
  f.name == name || f.otherName == some name

end Field

namespace Record

variable {ν σ : Type} {m : Type → Type} [Reads m] [Medium ν m]

/-- Read members into a record; `seen` holds the fields read so far. -/
def readNamed (fields : List (Field ν m σ)) :
    List String → σ → List (m String × ν) → m (List String × σ)
  | seen, r, [] => return (seen, r)
  | seen, r, (key, value) :: rest => do
    let name ← key
    match fields.find? (·.answers name) with
    | none =>
      Medium.skip value
      readNamed fields seen r rest
    | some f =>
      if f.name ∈ seen then throw (Fault.duplicate f.name)
      else
        let r' ← f.read value r
        readNamed fields (f.name :: seen) r' rest

/-- Read items into the fields one by one; `index` counts the fields before these. -/
def readItems (label : String) (size : Nat) :
    Nat → List (Field ν m σ) → σ → List ν → m Unit → m σ
  | _, [], r, [], ending => do
    ending
    return r
  | _, [], _, extra, _ => throw (Medium.surplus ν (size + extra.length))
  | index, f :: fields, r, [], ending => do
    ending
    if f.required then throw (Fault.tooShort index label size)
    else readItems label size (index + 1) fields r [] ending
  | index, f :: fields, r, item :: items, ending => do
    let r' ← f.read item r
    readItems label size (index + 1) fields r' items ending

/-- Read a record, starting from its blank form. -/
def read (label : String) (fields : List (Field ν m σ)) (blank : σ) (node : ν) : m σ := do
  match ← Medium.layout label node with
  | .positional run => readItems label fields.length 0 fields blank run.list run.ending
  | .named run =>
    let (seen, r) ← readNamed fields [] blank run.list
    run.ending
    match fields.find? fun f => f.required && !(f.name ∈ seen) with
    | some f => throw (Fault.missing f.name)
    | none => return r

end Record
end OntologyCompiler
