/-!
The contents of files: text, or bytes that are no text.
-/

namespace Bindery

inductive Content where
  | text (s : String)
  /-- Bytes that are not UTF-8. -/
  | raw (bytes : List UInt8)
  deriving DecidableEq, Repr

namespace Content

def ofBytes (bytes : List UInt8) : Content :=
  match String.fromUTF8? ⟨bytes.toArray⟩ with
  | some s => .text s
  | none => .raw bytes

def bytes : Content → List UInt8
  | .text s => s.toUTF8.data.toList
  | .raw bytes => bytes

def append (c : Content) (s : String) : Content :=
  match c with
  | .text t => .text (t ++ s)
  | .raw bytes => ofBytes (bytes ++ s.toUTF8.data.toList)

/-- The lengths of a sequence and the range of its second byte, by the first byte. -/
def sequence? (first : UInt8) : Option (Nat × UInt8 × UInt8) :=
  if first < 0x80 then some (1, 0x80, 0xBF)
  else if 0xC2 ≤ first && first ≤ 0xDF then some (2, 0x80, 0xBF)
  else if first = 0xE0 then some (3, 0xA0, 0xBF)
  else if first = 0xED then some (3, 0x80, 0x9F)
  else if 0xE1 ≤ first && first ≤ 0xEF then some (3, 0x80, 0xBF)
  else if first = 0xF0 then some (4, 0x90, 0xBF)
  else if 0xF1 ≤ first && first ≤ 0xF3 then some (4, 0x80, 0xBF)
  else if first = 0xF4 then some (4, 0x80, 0x8F)
  else none

/-- How many bytes at the start belong to one character or to the start of one. -/
def run (first : UInt8) (rest : List UInt8) : Nat × Bool :=
  match sequence? first with
  | none => (1, false)
  | some (n, low, high) =>
    match rest with
    | second :: others =>
      if n = 1 then (1, true)
      else if second < low || high < second then (1, false)
      else
        let more := ((others.take (n - 2)).takeWhile fun b => 0x80 ≤ b && b ≤ 0xBF).length
        (2 + more, more + 2 = n)
    | [] => (1, n = 1)

/-- Every stretch that is no character becomes one replacement character. The number bounds them. -/
def lossyFrom : Nat → List UInt8 → String
  | 0, _ => ""
  | _, [] => ""
  | n + 1, first :: rest =>
    let (length, whole) := run first rest
    let piece :=
      if whole then (String.fromUTF8? ⟨(first :: rest.take (length - 1)).toArray⟩).getD "\ufffd"
      else "\ufffd"
    piece ++ lossyFrom n (rest.drop (length - 1))

/-- The content as text, whatever it is. -/
def lossy : Content → String
  | .text s => s
  | .raw bytes => lossyFrom bytes.length bytes

end Content

end Bindery
