import Bindery.Document.Text
import Bindery.Json.Numeral
import Bindery.Text.Hex

/-!
Reading JSON text. The result is a node, which shows itself where the text breaks off or has no
value, and what follows it, unless the text broke off.
-/

namespace Bindery.Json

def isBlank (c : Char) : Bool :=
  c = ' ' || c = '\n' || c = '\t' || c = '\r'

def skipBlanks (cs : List Char) : List Char :=
  cs.dropWhile isBlank

/-- What a text between quotes is made of. -/
inductive Piece where
  | char (c : Char)
  /-- A UTF-16 unit, given by its number. -/
  | unit (n : Nat)
  deriving DecidableEq, Repr

/-- The character that a letter after a backslash stands for. -/
def escaped? (c : Char) : Option Char :=
  if c = '"' || c = '\\' || c = '/' then some c
  else if c = 'b' then some '\x08'
  else if c = 'f' then some '\x0c'
  else if c = 'n' then some '\n'
  else if c = 'r' then some '\r'
  else if c = 't' then some '\t'
  else none

/-- The pieces up to the closing quote, and the rest. -/
def scanQuoted : List Char → Option (List Piece × List Char)
  | [] => none
  | '"' :: rest => some ([], rest)
  | '\\' :: 'u' :: a :: b :: c :: d :: rest => do
    let n ← Text.hexNumber? [a, b, c, d]
    let (pieces, rest) ← scanQuoted rest
    pure (.unit n :: pieces, rest)
  | '\\' :: c :: rest => do
    let e ← escaped? c
    let (pieces, rest) ← scanQuoted rest
    pure (.char e :: pieces, rest)
  | c :: rest => do
    if c.toNat < 32 || c = '\\' then none
    let (pieces, rest) ← scanQuoted rest
    pure (.char c :: pieces, rest)

def isHighSurrogate (n : Nat) : Bool := 0xD800 ≤ n && n < 0xDC00

def isLowSurrogate (n : Nat) : Bool := 0xDC00 ≤ n && n < 0xE000

/-- The characters that pieces spell: a high and a low surrogate make one, alone they make none. -/
def spelled : List Piece → Option (List Char)
  | [] => some []
  | .char c :: pieces => (spelled pieces).map (c :: ·)
  | .unit n :: .unit m :: pieces =>
    if isHighSurrogate n then
      if isLowSurrogate m then
        (spelled pieces).map (Char.ofNat (0x10000 + (n - 0xD800) * 0x400 + (m - 0xDC00)) :: ·)
      else none
    else if isLowSurrogate n then none
    else (spelled (.unit m :: pieces)).map (Char.ofNat n :: ·)
  | .unit n :: pieces =>
    if isHighSurrogate n || isLowSurrogate n then none
    else (spelled pieces).map (Char.ofNat n :: ·)

def spelledString (pieces : List Piece) : Option String :=
  (spelled pieces).map String.ofList

mutual
/-- The value at the start of a text. The number bounds the steps; two per character suffice. -/
def readValue : Nat → List Char → Node × Option (List Char)
  | 0, _ => (.malformed, none)
  | n + 1, cs =>
    match skipBlanks cs with
    | 'n' :: 'u' :: 'l' :: 'l' :: rest => (.null, some rest)
    | 't' :: 'r' :: 'u' :: 'e' :: rest => (.bool true, some rest)
    | 'f' :: 'a' :: 'l' :: 's' :: 'e' :: rest => (.bool false, some rest)
    | '"' :: rest =>
      match scanQuoted rest with
      | none => (.malformed, none)
      | some (pieces, rest) =>
        (match spelledString pieces with
          | some s => .string s
          | none => .unreadable, some rest)
    | '[' :: rest =>
      let (items, rest) := readItems n true rest
      (.list items, rest)
    | '\x7b' :: rest =>
      let (entries, rest) := readMembers n true rest
      (.table entries, rest)
    | cs =>
      match Numeral.scan cs with
      | none => (.malformed, none)
      | some (numeral, rest) => (numeral.node, some rest)

/-- The items of a list up to its end. Only before the first one may the end stand. -/
def readItems : Nat → Bool → List Char → List Node × Option (List Char)
  | 0, _, _ => ([.malformed], none)
  | n + 1, first, cs =>
    match skipBlanks cs with
    | ']' :: rest => if first then ([], some rest) else ([.malformed], none)
    | cs =>
      match readValue n cs with
      | (item, none) => ([item], none)
      | (item, some rest) =>
        match skipBlanks rest with
        | ',' :: rest =>
          let (items, rest) := readItems n false rest
          (item :: items, rest)
        | ']' :: rest => ([item], some rest)
        | _ => ([item, .malformed], none)

/-- The members of an object up to its end. -/
def readMembers : Nat → Bool → List Char → List (Option String × Node) × Option (List Char)
  | 0, _, _ => ([(none, .malformed)], none)
  | n + 1, first, cs =>
    match skipBlanks cs with
    | '\x7d' :: rest => if first then ([], some rest) else ([(none, .malformed)], none)
    | '"' :: cs =>
      match scanQuoted cs with
      | none => ([(none, .malformed)], none)
      | some (pieces, rest) =>
        let name := spelledString pieces
        match skipBlanks rest with
        | ':' :: rest =>
          match readValue n rest with
          | (value, none) => ([(name, value)], none)
          | (value, some rest) =>
            match skipBlanks rest with
            | ',' :: rest =>
              let (members, rest) := readMembers n false rest
              ((name, value) :: members, rest)
            | '\x7d' :: rest => ([(name, value)], some rest)
            | _ => ([(name, value), (none, .malformed)], none)
        | _ => ([(name, .malformed)], none)
    | _ => ([(none, .malformed)], none)
end

/-- The document that a text is. Nothing but blanks may follow its value. -/
def document (text : String) : Document :=
  let cs := text.toList
  match readValue (2 * cs.length + 2) cs with
  | (root, none) => ⟨.json, root, false⟩
  | (root, some rest) => ⟨.json, root, (skipBlanks rest).isEmpty⟩

end Bindery.Json
