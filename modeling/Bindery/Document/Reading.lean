import Bindery.Document.Fault
import Bindery.OrderedMap

/-!
Reading the values of a document. A reader takes a node apart in the order of the text, so that of
several faults the first one is reported.
-/

namespace Bindery

/-- How a node is read. -/
structure Reading where
  format : Format
  /-- The node was taken in as a whole before, so its text is known to be sound. -/
  held : Bool
  /-- How many containers may still be opened; JSON has a limit. -/
  room : Nat

namespace Reading

def json : Reading := ⟨.json, false, 127⟩

def toml : Reading := ⟨.toml, false, 0⟩

/-- Reading what stands in a container. -/
def enter (r : Reading) : Reading := { r with room := r.room - 1 }

def mismatch (r : Reading) (node : Node) (expected : String) : Fault :=
  let _ := r
  match node with
  | .malformed | .unreadable => .malformed
  | .null => .invalidType .null expected
  | .bool value => .invalidType (.bool value) expected
  | .integer value => .invalidType (.integer value) expected
  | .real value => .invalidType (.real value) expected
  | .nonFinite name => .invalidType (.nonFinite name) expected
  | .string value => .invalidType (.string value) expected
  | .list _ => .invalidType .list expected
  | .table _ => .invalidType .table expected

def string (r : Reading) : Node → Except Fault String
  | .string value => pure value
  | node => throw (r.mismatch node "a string")

/-- The text of a path. -/
def path (r : Reading) : Node → Except Fault String
  | .string value => pure value
  | node => throw (r.mismatch node "path string")

def bool (r : Reading) : Node → Except Fault Bool
  | .bool value => pure value
  | node => throw (r.mismatch node "a boolean")

/-- A whole number that 64 bits hold without a sign; `type` is what messages call it. -/
def natural (type : String) (r : Reading) : Node → Except Fault Nat
  | .integer value =>
    if 0 ≤ value && value < Nat.pow 2 64 then pure value.toNat
    else throw (.invalidValue (.integer value) type)
  | node => throw (r.mismatch node type)

def option {α : Type} (read : Reading → Node → Except Fault α) (r : Reading) :
    Node → Except Fault (Option α)
  | .null => pure none
  | node => some <$> read r node

/-- The items of a list, one after the other. -/
def items {α : Type} (read : Node → Except Fault α) : List Node → Except Fault (List α)
  | [] => pure []
  | node :: nodes => do
    let value ← read node
    let values ← items read nodes
    pure (value :: values)

def list {α : Type} (read : Reading → Node → Except Fault α) (r : Reading) :
    Node → Except Fault (List α)
  | .list nodes => items (read r.enter) nodes
  | node => throw (r.mismatch node "a sequence")

/-- The entries of a table, where a repeated name keeps its first place and gets the last value. -/
def entries {α : Type} (read : Node → Except Fault α) :
    List (Option String × Node) → OrderedMap α → Except Fault (OrderedMap α)
  | [], acc => pure acc
  | (none, _) :: _, _ => throw .malformed
  | (some name, node) :: rest, acc => do
    let value ← read node
    entries read rest (acc.insert name value)

def map {α : Type} (read : Reading → Node → Except Fault α) (r : Reading) :
    Node → Except Fault (OrderedMap α)
  | .table nodes => entries (read r.enter) nodes ∅
  | node => throw (r.mismatch node "a map")

/-- Passes over a value that nobody asks for: only its grammar counts. -/
def skip (r : Reading) (node : Node) : Except Fault Unit :=
  if r.held || node.wellFormed then pure () else throw .malformed

/-- Takes in a value as a whole before it is read. -/
def hold (r : Reading) (node : Node) : Except Fault Unit :=
  if r.held then pure ()
  else if node.readable && (r.format == .toml || node.height ≤ r.room) then pure ()
  else throw .malformed

/-- Reading what has been taken in. -/
def afterHold (r : Reading) : Reading := { r with held := true }

/-- The variant that a tag names, by its place among the names. Held JSON may give the place
itself. -/
def variant (r : Reading) (names : List String) : Node → Except Fault Nat
  | .string name =>
    match names.findIdx? (· == name) with
    | some i => pure i
    | none => throw (.unknownVariant name names)
  | .integer i =>
    if r.held && r.format == .json && 0 ≤ i then
      if i < names.length then pure i.toNat
      else throw (.invalidValue (.integer i) s!"variant index 0 <= i < {names.length}")
    else throw (r.mismatch (.integer i) "variant identifier")
  | node => throw (r.mismatch node "variant identifier")

/-- One of several words. JSON may also wrap it, as the only member of an object, with nothing in
it. -/
def word (names : List String) (r : Reading) : Node → Except Fault Nat
  | .string name => r.variant names (.string name)
  | .table ((some name, node) :: rest) => do
    let i ← r.variant names (.string name)
    match node, rest with
    | .null, [] => pure i
    | .null, _ :: _ => throw .malformed
    | node, _ => throw (r.mismatch node "unit")
  | _ => throw .malformed

end Reading

/-- One field of a record: reading it stores its value. -/
structure Schema.Field (σ : Type) where
  name : String
  required : Bool
  read : Reading → Node → σ → Except Fault σ

/-- The fields of a record in their order; `title` is what messages call it. -/
structure Schema (σ : Type) where
  title : String
  fields : List (Schema.Field σ)

namespace Schema

variable {σ : Type}

/-- A field that must be there. -/
def Field.must {α : Type} (name : String) (read : Reading → Node → Except Fault α)
    (set : σ → α → σ) : Field σ :=
  ⟨name, true, fun r node x => set x <$> read r node⟩

/-- A field that keeps its first value if it is not there. -/
def Field.may {α : Type} (name : String) (read : Reading → Node → Except Fault α)
    (set : σ → α → σ) : Field σ :=
  ⟨name, false, fun r node x => set x <$> read r node⟩

def named? (s : Schema σ) (name : String) : Option (Field σ) :=
  s.fields.find? (·.name == name)

/-- Reads the entries of a table in order. A known name may come once; an unknown one is passed
over. -/
def readEntries (s : Schema σ) (r : Reading) :
    List (Option String × Node) → List String → σ → Except Fault (List String × σ)
  | [], seen, x => pure (seen, x)
  | (none, _) :: _, _, _ => throw .malformed
  | (some name, node) :: rest, seen, x =>
    match s.named? name with
    | none => do
      r.skip node
      readEntries s r rest seen x
    | some field =>
      if seen.contains name then throw (.duplicateField name) else do
        let x ← field.read r node x
        readEntries s r rest (name :: seen) x

/-- The first required field that did not occur. -/
def missing? (s : Schema σ) (seen : List String) : Option String :=
  (s.fields.find? fun field => field.required && !seen.contains field.name).map Field.name

def plural (n : Nat) : String :=
  if n == 1 then s!"{n} element" else s!"{n} elements"

/-- Reads the fields from the items of a list, in their order. Fields with a default may be left
off. -/
def readItems (s : Schema σ) (r : Reading) : Nat → List (Field σ) → List Node → σ → Except Fault σ
  | _, [], [], x => pure x
  | index, [], surplus, x =>
    if r.held then
      throw (.invalidLength (index + surplus.length) (plural index ++ " in sequence"))
    else if r.format == .json then throw .malformed
    else pure x
  | index, field :: fields, [], x =>
    if field.required then
      throw (.invalidLength index (s.title ++ " with " ++ plural s.fields.length))
    else readItems s r (index + 1) fields [] x
  | index, field :: fields, node :: nodes, x => do
    let x ← field.read r node x
    readItems s r (index + 1) fields nodes x

/-- Reads a record from a table of its fields, or from a list of them. -/
def read (s : Schema σ) (start : σ) (r : Reading) : Node → Except Fault σ
  | .table nodes => do
    let (seen, x) ← s.readEntries r.enter nodes [] start
    match s.missing? seen with
    | some name => throw (.missingField name)
    | none => pure x
  | .list nodes => s.readItems r.enter 0 s.fields nodes start
  | node => throw (r.mismatch node s.title)

end Schema

end Bindery
