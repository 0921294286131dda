import Bindery.Document.Text
import Bindery.Toml.Moment
import Bindery.Toml.Numeral
import Bindery.Toml.Table
import Bindery.Toml.Text

/-!
Reading TOML text, line by line, into a root table.
-/

namespace Bindery.Toml

/-- Blanks, comments and line ends between the items of a list. The number bounds the lines. -/
def skipLines : Nat → List Char → Option (List Char)
  | 0, _ => none
  | n + 1, cs =>
    match skipBlanks cs with
    | '#' :: cs =>
      match lineEnd? (cs.dropWhile isPlain) with
      | none => none
      | some cs => skipLines n cs
    | cs =>
      match lineEnd? cs with
      | none => some cs
      | some cs => skipLines n cs

/-- The name under which a date is found. No field that is read has it. -/
def momentName : String := "$moment"

def momentNode (m : Moment) : Node :=
  .table [(some momentName, .string m.text)]

/-- A date, a time or a number. -/
def scanPlain (cs : List Char) : Option (Node × List Char) :=
  match scanMoment cs with
  | some (m, cs) => some (momentNode m, cs)
  | none => scanNumber cs

/-- The parts of a key before the last one, and that. -/
def splitKey : List String → Option (List String × String)
  | [] => none
  | key :: keys => some ((key :: keys).dropLast, (key :: keys).getLast (by simp))

mutual
/-- The value at the start of a text, inside `depth` containers. The first number bounds the
steps. -/
def scanValue : Nat → Nat → List Char → Option (Node × List Char)
  | 0, _, _ => none
  | n + 1, depth, cs =>
    match cs with
    | 't' :: 'r' :: 'u' :: 'e' :: cs => some (.bool true, cs)
    | 'f' :: 'a' :: 'l' :: 's' :: 'e' :: cs => some (.bool false, cs)
    | '[' :: cs =>
      if depth + 1 < depthLimit then
        (scanItems n (depth + 1) cs).map fun (items, cs) => (.list items, cs)
      else none
    | '\x7b' :: cs =>
      if depth + 1 < depthLimit then
        match skipBlanks cs with
        | '\x7d' :: cs => some (.table [], cs)
        | cs => (scanEntries n (depth + 1) [] cs).map fun (entries, cs) =>
          (.table (Item.entryNodes entries), cs)
      else none
    | c :: cs =>
      if c = '"' || c = '\'' then
        (scanString (c :: cs)).map fun (text, cs) => (.string (String.ofList text), cs)
      else scanPlain (c :: cs)
    | [] => none

/-- The items of a list up to its end. -/
def scanItems : Nat → Nat → List Char → Option (List Node × List Char)
  | 0, _, _ => none
  | n + 1, depth, cs =>
    match skipLines (cs.length + 1) cs with
    | none => none
    | some (']' :: cs) => some ([], cs)
    | some cs =>
      match scanValue n depth cs with
      | none => none
      | some (item, cs) =>
        match skipLines (cs.length + 1) cs with
        | some (',' :: cs) => (scanItems n depth cs).map fun (items, cs) => (item :: items, cs)
        | some (']' :: cs) => some ([item], cs)
        | _ => none

/-- The entries of a table on one line, at least one, up to its end. -/
def scanEntries : Nat → Nat → Entries → List Char → Option (Entries × List Char)
  | 0, _, _, _ => none
  | n + 1, depth, acc, cs =>
    match scanKey cs with
    | some (keys, '=' :: cs) =>
      match scanValue n depth (skipBlanks cs) with
      | none => none
      | some (node, cs) =>
        match splitKey keys with
        | none => none
        | some (path, name) =>
          match acc.addEntry path name (.value node) with
          | none => none
          | some acc =>
            match skipBlanks cs with
            | ',' :: cs => scanEntries n depth acc cs
            | '\x7d' :: cs => some (acc, cs)
            | _ => none
    | _ => none
end

/-- Where reading stands: all finished tables, and the one that a header has opened. -/
structure Progress where
  root : Entries
  current : Entries
  path : List String
  repeated : Bool

namespace Progress

def start : Progress := ⟨[], [], [], false⟩

/-- Puts the open table in its place. -/
def finish (p : Progress) : Option Entries :=
  match splitKey p.path with
  | none => some p.current
  | some (path, name) =>
    if p.repeated then p.root.closeElement path name p.current
    else p.root.closeTable path name p.current

def header (p : Progress) (keys : List String) (repeated : Bool) : Option Progress := do
  let root ← p.finish
  let (path, name) ← splitKey keys
  if repeated then
    let root ← root.openElement path name
    pure ⟨root, [], keys, true⟩
  else
    let (current, root) ← root.openTable path name
    pure ⟨root, current, keys, false⟩

def entry (p : Progress) (keys : List String) (node : Node) : Option Progress := do
  let (path, name) ← splitKey keys
  let current ← p.current.addEntry path name (.value node)
  pure { p with current }

end Progress

def scanHeader (p : Progress) : List Char → Option (Progress × List Char)
  | '[' :: cs => do
    match ← scanKey cs with
    | (keys, ']' :: ']' :: cs) => pure (← p.header keys true, ← endLine cs)
    | _ => none
  | cs => do
    match ← scanKey cs with
    | (keys, ']' :: cs) => pure (← p.header keys false, ← endLine cs)
    | _ => none

def scanEntry (p : Progress) (cs : List Char) : Option (Progress × List Char) := do
  match ← scanKey cs with
  | (keys, '=' :: cs) =>
    let (node, cs) ← scanValue (2 * cs.length + 2) 0 (skipBlanks cs)
    let cs ← endLine cs
    pure (← p.entry keys node, cs)
  | _ => none

/-- Reads line after line. The number bounds the lines. -/
def scanDocument : Nat → Progress → List Char → Option Entries
  | 0, _, _ => none
  | n + 1, p, cs =>
    match skipBlanks cs with
    | [] => p.finish
    | '#' :: cs =>
      match skipComment cs with
      | none => none
      | some cs => scanDocument n p cs
    | '[' :: cs =>
      match scanHeader p cs with
      | none => none
      | some (p, cs) => scanDocument n p cs
    | cs =>
      match lineEnd? cs with
      | some cs => scanDocument n p cs
      | none =>
        match scanEntry p cs with
        | none => none
        | some (p, cs) => scanDocument n p cs

/-- A mark of the byte order at the very start is passed over. -/
def dropByteOrderMark : List Char → List Char
  | '\ufeff' :: cs => cs
  | cs => cs

/-- The document that a text is. -/
def document (text : String) : Document :=
  let cs := dropByteOrderMark text.toList
  match scanDocument (cs.length + 1) .start cs with
  | none => ⟨.toml, .malformed, false⟩
  | some entries => ⟨.toml, .table (Item.entryNodes entries), true⟩

end Bindery.Toml
