import Bindery.Document.Node
import Bindery.Number.Shortest
import Bindery.Text.Shown

/-!
Why a document is refused, and the words for it.
-/

namespace Bindery

/-- The formats a document can have. -/
inductive Format where
  | json
  | toml
  deriving DecidableEq, Repr

/-- What a message says it found. -/
inductive Found where
  | null
  | bool (value : Bool)
  | integer (value : Int)
  | real (value : Double)
  | nonFinite (name : String)
  | string (value : String)
  | list
  | table
  deriving DecidableEq, Repr

inductive Fault where
  /-- The text is not a document of its format. -/
  | malformed
  | invalidType (found : Found) (expected : String)
  | invalidValue (found : Found) (expected : String)
  | invalidLength (length : Nat) (expected : String)
  | missingField (name : String)
  | duplicateField (name : String)
  | unknownVariant (name : String) (known : List String)
  | noVariant (type : String)
  deriving DecidableEq, Repr

namespace Found

/-- The formats differ in how they call an empty value and write a number with a fraction. -/
def text (format : Format) : Found → String
  | .null => if format = .json then "null" else "unit value"
  | .bool value => s!"boolean `{value}`"
  | .integer value => s!"integer `{value}`"
  | .real value =>
    "floating point `" ++ value.text (if format = .json then .compact else .plain) ++ "`"
  | .nonFinite name => s!"floating point `{name}`"
  | .string value => "string " ++ Text.shown value
  | .list => "sequence"
  | .table => "map"

end Found

namespace Fault

/-- Two names are joined by `or`, more are listed. -/
def oneOf : List String → String
  | [] => "there are no variants"
  | [a] => s!"expected `{a}`"
  | [a, b] => s!"expected `{a}` or `{b}`"
  | names => "expected one of " ++ ", ".intercalate (names.map fun n => s!"`{n}`")

/-- Malformed text has no wording of its own. -/
def message (format : Format) : Fault → String
  | .malformed => ""
  | .invalidType found expected => s!"invalid type: {found.text format}, expected {expected}"
  | .invalidValue found expected => s!"invalid value: {found.text format}, expected {expected}"
  | .invalidLength length expected => s!"invalid length {length}, expected {expected}"
  | .missingField name => s!"missing field `{name}`"
  | .duplicateField name => s!"duplicate field `{name}`"
  | .unknownVariant name known => s!"unknown variant `{name}`, {oneOf known}"
  | .noVariant type => s!"data did not match any variant of untagged enum {type}"

end Fault

end Bindery
