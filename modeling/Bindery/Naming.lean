import Bindery.Text.Blank
import Bindery.Text.Case
import Bindery.Text.Split

/-!
From the names of a spec to identifiers: words, cases, and the rules of a target.
-/

namespace Bindery

namespace Naming

/-- Separators stand between words and belong to none. -/
def isSeparator (c : Char) : Bool :=
  c = '_' || c = '-' || Text.isBlank c

/-- Whether an upper-case letter begins a word inside a run of letters: behind a lower-case letter
or a digit, and at the end of an acronym. -/
def beginsWord (previous next : Option Char) : Bool :=
  previous.any (fun p => Text.isLower p || p.isDigit || (Text.isUpper p && next.any Text.isLower))

/-- The words of a text, where `current` has been read of the first one and `previous` is the
character before. -/
def wordsFrom (previous : Option Char) (current : List Char) : List Char → List (List Char)
  | [] => if current.isEmpty then [] else [current]
  | c :: cs =>
    if isSeparator c then
      if current.isEmpty then wordsFrom (some c) [] cs else current :: wordsFrom (some c) [] cs
    else if Text.isUpper c && !current.isEmpty && beginsWord previous cs.head? then
      current :: wordsFrom (some c) (Text.toLower c) cs
    else wordsFrom (some c) (current ++ Text.toLower c) cs

/-- The words of a name, in lower case. Digits stay with the word before them. -/
def words (name : List Char) : List (List Char) :=
  wordsFrom none [] name

def capitalized : List Char → List Char
  | [] => []
  | c :: cs => Text.toUpper c ++ cs

def camelWords : List (List Char) → List Char
  | [] => []
  | word :: rest => word ++ rest.flatMap capitalized

/-- `get_object_schema` becomes `getObjectSchema`. -/
def camelCase (name : String) : String :=
  String.ofList (camelWords (words name.toList))

/-- `getObjectSchema` becomes `get_object_schema`. -/
def snakeCase (name : String) : String :=
  String.ofList (Text.join ['_'] (words name.toList))

end Naming

/-- How a target cases members, fields and arguments. -/
inductive NamingConvention where
  | camelCase
  | snakeCase
  | verbatim
  deriving DecidableEq, Repr

namespace NamingConvention

def all : List NamingConvention := [.camelCase, .snakeCase, .verbatim]

def apply : NamingConvention → String → String
  | .camelCase => Naming.camelCase
  | .snakeCase => Naming.snakeCase
  | .verbatim => id

/-- The convention as documents write it. -/
def tag : NamingConvention → String
  | .camelCase => "camel_case"
  | .snakeCase => "snake_case"
  | .verbatim => "verbatim"

/-- The convention as listings show it. -/
def title : NamingConvention → String
  | .camelCase => "CamelCase"
  | .snakeCase => "SnakeCase"
  | .verbatim => "Verbatim"

end NamingConvention

/-- How a target makes identifiers: first the case, then an escape, which keeps reserved words
off. -/
structure IdentifierRules where
  naming : NamingConvention
  escape : String → String := id

namespace IdentifierRules

/-- The identifier of a field, a member or an argument. -/
def member (rules : IdentifierRules) (name : String) : String :=
  rules.escape (rules.naming.apply name)

/-- The identifier of a member of an enumeration, which keeps its case. -/
def enumMember (rules : IdentifierRules) (name : String) : String :=
  rules.escape name

end IdentifierRules

/-- The identifier of an entity: its scopes are joined by underscores. -/
def entityIdentifier (name : String) : String :=
  Text.replaced "::" "_" name

end Bindery
