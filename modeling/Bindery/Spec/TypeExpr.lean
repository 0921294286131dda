import Bindery.Text.Split

/-!
Type expressions: one occurrence of a type in a field, an argument, a result or an alias.
-/

namespace Bindery

/-- By what means a name is handed over. -/
structure Indirection where
  pointer : Bool := false
  reference : Bool := false
  rvalueReference : Bool := false
  deriving DecidableEq, Repr, Inhabited

inductive TypeExpr where
  /-- A name with its scopes, outermost first. -/
  | name (path : List String) (isConst : Bool) (indirection : Indirection)
  /-- A template applied to types. -/
  | template (path : List String) (arguments : List TypeExpr) (isConst : Bool)
  /-- A function used as a value. -/
  | function (arguments : List (String × TypeExpr)) (result : TypeExpr) (isConst isNoExcept : Bool)
  deriving Repr

instance : Inhabited TypeExpr := ⟨.name [] false {}⟩

namespace TypeExpr

mutual
/-- Whether two types are written alike, down to the last argument. -/
def same : TypeExpr → TypeExpr → Bool
  | .name path isConst indirection, .name path' isConst' indirection' =>
    path = path' && isConst = isConst' && indirection = indirection'
  | .template path arguments isConst, .template path' arguments' isConst' =>
    path = path' && sameTypes arguments arguments' && isConst = isConst'
  | .function arguments result isConst noExcept, .function arguments' result' isConst' noExcept' =>
    sameArguments arguments arguments' && result.same result' && isConst = isConst' &&
      noExcept = noExcept'
  | _, _ => false

def sameTypes : List TypeExpr → List TypeExpr → Bool
  | [], [] => true
  | t :: ts, u :: us => t.same u && sameTypes ts us
  | _, _ => false

def sameArguments : List (String × TypeExpr) → List (String × TypeExpr) → Bool
  | [], [] => true
  | (x, t) :: ts, (y, u) :: us => x = y && t.same u && sameArguments ts us
  | _, _ => false
end

mutual
theorem same_iff : (t u : TypeExpr) → (t.same u = true ↔ t = u)
  | .name .., u => by cases u <;> simp [same, and_assoc]
  | .template _ arguments _, u => by cases u <;> simp [same, sameTypes_iff arguments, and_assoc]
  | .function arguments result _ _, u => by
      cases u <;> simp [same, sameArguments_iff arguments, same_iff result, and_assoc]

theorem sameTypes_iff : (ts us : List TypeExpr) → (sameTypes ts us = true ↔ ts = us)
  | [], us => by cases us <;> simp [sameTypes]
  | t :: ts, us => by cases us <;> simp [sameTypes, same_iff t, sameTypes_iff ts]

theorem sameArguments_iff : (ts us : List (String × TypeExpr)) →
    (sameArguments ts us = true ↔ ts = us)
  | [], us => by cases us <;> simp [sameArguments]
  | (_, t) :: ts, us => by
      cases us <;> simp [sameArguments, same_iff t, sameArguments_iff ts, Prod.ext_iff]
end

instance : DecidableEq TypeExpr := fun t u => decidable_of_iff _ (same_iff t u)

end TypeExpr

/-- What stands between the parts of a path. -/
def scopeSeparator : String := "::"

/-- The parts of a path. The empty text has none. -/
def splitPath (fullName : String) : List String :=
  if fullName.isEmpty then [] else Text.pieces scopeSeparator fullName

def joinPath (path : List String) : String :=
  Text.joined scopeSeparator path

namespace Indirection

def names (i : Indirection) : List String :=
  (if i.pointer then ["pointer"] else []) ++ (if i.reference then ["reference"] else []) ++
    (if i.rvalueReference then ["rvalue-reference"] else [])

end Indirection

namespace TypeExpr

/-- A name without modifiers. -/
def named (fullName : String) : TypeExpr :=
  .name (splitPath fullName) false {}

def applied (fullName : String) (arguments : List TypeExpr) : TypeExpr :=
  .template (splitPath fullName) arguments false

/-- The path in one text; functions have none. -/
def fullName? : TypeExpr → Option String
  | .name path _ _ => some (joinPath path)
  | .template path _ _ => some (joinPath path)
  | .function .. => none

def isConst : TypeExpr → Bool
  | .name _ c _ => c
  | .template _ _ c => c
  | .function _ _ c _ => c

def withConst (c : Bool) : TypeExpr → TypeExpr
  | .name path _ indirection => .name path c indirection
  | .template path arguments _ => .template path arguments c
  | .function arguments result _ noExcept => .function arguments result c noExcept

/-- Changes how a name is handed over; other types have no such marks. -/
def mapIndirection (f : Indirection → Indirection) : TypeExpr → TypeExpr
  | .name path isConst indirection => .name path isConst (f indirection)
  | t => t

/-- The modifiers of the outermost node, `const` first. -/
def modifiers (t : TypeExpr) : List String :=
  (if t.isConst then ["const"] else []) ++
    match t with
    | .name _ _ indirection => indirection.names
    | .template .. => []
    | .function _ _ _ noExcept => if noExcept then ["noexcept"] else []

end TypeExpr

/-- What a method takes and gives back. -/
structure Signature where
  arguments : List (String × TypeExpr) := []
  result : TypeExpr
  isConst : Bool := false
  isNoExcept : Bool := false
  deriving DecidableEq, Repr, Inhabited

namespace Signature

/-- A signature used as a type. -/
def type (s : Signature) : TypeExpr :=
  .function s.arguments s.result s.isConst s.isNoExcept

end Signature

end Bindery
