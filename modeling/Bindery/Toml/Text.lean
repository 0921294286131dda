import Bindery.Text.Hex

/-!
Blanks, line ends, comments, quoted texts and keys of TOML. Every scanner takes the longest text
of its kind from the start and gives back the rest.
-/

namespace Bindery.Toml

def isBlank (c : Char) : Bool :=
  c = ' ' || c = '\t'

def skipBlanks (cs : List Char) : List Char :=
  cs.dropWhile isBlank

def lineEnd? : List Char → Option (List Char)
  | '\n' :: cs => some cs
  | '\r' :: '\n' :: cs => some cs
  | _ => none

/-- No control characters other than the tab. -/
def isPlain (c : Char) : Bool :=
  c = '\t' || (32 ≤ c.toNat && c.toNat ≠ 127)

/-- A comment ends with its line or with the text. -/
def skipComment (cs : List Char) : Option (List Char) :=
  match cs.dropWhile isPlain with
  | [] => some []
  | cs => lineEnd? cs

/-- Nothing but blanks and a comment may stand before the line ends. -/
def endLine (cs : List Char) : Option (List Char) :=
  match skipBlanks cs with
  | [] => some []
  | '#' :: cs => skipComment cs
  | cs => lineEnd? cs

/-- The character with a number of `places` hexadecimal digits. -/
def scalar? (places : Nat) (cs : List Char) : Option Char := do
  let digits := cs.take places
  if digits.length < places then none
  let n ← Text.hexNumber? digits
  if h : n.isValidChar then some (Char.ofNatAux n h) else none

/-- The character that an escape stands for and the number of characters it takes. -/
def escape? : List Char → Option (Char × Nat)
  | 'u' :: cs => (scalar? 4 cs).map (·, 5)
  | 'U' :: cs => (scalar? 8 cs).map (·, 9)
  | 'b' :: _ => some ('\x08', 1)
  | 't' :: _ => some ('\t', 1)
  | 'n' :: _ => some ('\n', 1)
  | 'f' :: _ => some ('\x0c', 1)
  | 'r' :: _ => some ('\r', 1)
  | '"' :: _ => some ('"', 1)
  | '\\' :: _ => some ('\\', 1)
  | _ => none

def consTo (c : Char) : Option (List Char × List Char) → Option (List Char × List Char) :=
  Option.map fun (text, rest) => (c :: text, rest)

/-- A text in quotes on one line, from behind its opening quote. The first `skip` characters are
done. -/
def scanBasic : Nat → List Char → Option (List Char × List Char)
  | _, [] => none
  | skip + 1, _ :: cs => scanBasic skip cs
  | 0, '"' :: cs => some ([], cs)
  | 0, '\\' :: cs =>
    match escape? cs with
    | none => none
    | some (c, n) => consTo c (scanBasic n cs)
  | 0, c :: cs => if isPlain c then consTo c (scanBasic 0 cs) else none

def scanLiteral : List Char → Option (List Char × List Char)
  | [] => none
  | '\'' :: cs => some ([], cs)
  | c :: cs => if isPlain c then consTo c (scanLiteral cs) else none

/-- How many of the quotes at the start belong to the text; none if they do not end it. Three
quotes end a long text, and up to two before them belong to it. -/
def closing? (quote : Char) (cs : List Char) : Option Nat :=
  let run := (cs.takeWhile (· = quote)).length
  if run < 3 then none else some (min (run - 3) 2)

def isLineEnd (cs : List Char) : Bool :=
  (lineEnd? cs).isSome

/-- A text in three quotes. While `trimming`, blanks and line ends are dropped: they follow a
backslash at the end of a line. -/
def scanLongBasic : Nat → Bool → List Char → Option (List Char × List Char)
  | _, _, [] => none
  | skip + 1, trimming, _ :: cs => scanLongBasic skip trimming cs
  | 0, trimming, c :: cs =>
    if trimming && (isBlank c || isLineEnd (c :: cs)) then
      scanLongBasic (if c = '\r' then 1 else 0) true cs
    else if isLineEnd (c :: cs) then
      consTo '\n' (scanLongBasic (if c = '\r' then 1 else 0) false cs)
    else if c = '\\' then
      if isLineEnd (skipBlanks cs) then scanLongBasic 0 true cs
      else
        match escape? cs with
        | none => none
        | some (e, n) => consTo e (scanLongBasic n false cs)
    else if c = '"' then
      match closing? '"' (c :: cs) with
      | some n => some (List.replicate n '"', cs.drop (n + 2))
      | none => consTo '"' (scanLongBasic 0 false cs)
    else if isPlain c then consTo c (scanLongBasic 0 false cs)
    else none

def scanLongLiteral : Nat → List Char → Option (List Char × List Char)
  | _, [] => none
  | skip + 1, _ :: cs => scanLongLiteral skip cs
  | 0, c :: cs =>
    if isLineEnd (c :: cs) then consTo '\n' (scanLongLiteral (if c = '\r' then 1 else 0) cs)
    else if c = '\'' then
      match closing? '\'' (c :: cs) with
      | some n => some (List.replicate n '\'', cs.drop (n + 2))
      | none => consTo '\'' (scanLongLiteral 0 cs)
    else if isPlain c then consTo c (scanLongLiteral 0 cs)
    else none

/-- A line end right behind the opening quotes does not count. -/
def dropLineEnd (cs : List Char) : List Char :=
  (lineEnd? cs).getD cs

def scanString : List Char → Option (List Char × List Char)
  | '"' :: '"' :: '"' :: cs => scanLongBasic 0 false (dropLineEnd cs)
  | '\'' :: '\'' :: '\'' :: cs => scanLongLiteral 0 (dropLineEnd cs)
  | '"' :: cs => scanBasic 0 cs
  | '\'' :: cs => scanLiteral cs
  | _ => none

def isBareKey (c : Char) : Bool :=
  c.isAlphanum || c = '_' || c = '-'

/-- One part of a key. -/
def scanKeyPart : List Char → Option (List Char × List Char)
  | '"' :: cs => scanBasic 0 cs
  | '\'' :: cs => scanLiteral cs
  | cs =>
    match cs.takeWhile isBareKey with
    | [] => none
    | key => some (key, cs.dropWhile isBareKey)

/-- Parts with points between them, blanks around each. The number bounds the parts. -/
def scanKeyParts : Nat → List Char → Option (List String × List Char)
  | 0, _ => none
  | n + 1, cs => do
    let (key, cs) ← scanKeyPart (skipBlanks cs)
    match skipBlanks cs with
    | '.' :: cs =>
      let (keys, cs) ← scanKeyParts n cs
      pure (String.ofList key :: keys, cs)
    | cs => pure ([String.ofList key], cs)

/-- Neither keys nor values may reach this depth. -/
def depthLimit : Nat := 80

def scanKey (cs : List Char) : Option (List String × List Char) :=
  scanKeyParts (depthLimit - 1) cs

end Bindery.Toml
