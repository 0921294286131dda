import Bindery.Document.Reading

/-!
Reading values of several variants. An entry names the variant; the content stands beside it, either
in the same table or as an entry of its own.
-/

namespace Bindery.Reading

/-- Takes a table apart into the variant that its tag names and the other entries, which are
held. -/
def taggedEntries (tag : String) (names : List String) (r : Reading) :
    List (Option String × Node) → Option Nat → List (Option String × Node) →
      Except Fault (Nat × List (Option String × Node))
  | [], none, _ => throw (.missingField tag)
  | [], some kind, held => pure (kind, held.reverse)
  | (none, _) :: _, _, _ => throw .malformed
  | (some name, node) :: rest, kind, held =>
    if name = tag then
      if kind.isSome then throw (.duplicateField tag) else do
        let i ← r.variant names node
        taggedEntries tag names r rest (some i) held
    else do
      r.hold node
      taggedEntries tag names r rest kind ((some name, node) :: held)

/-- Takes in the items of a list one after the other. -/
def holdItems (r : Reading) : List Node → Except Fault Unit
  | [] => pure ()
  | node :: nodes => do
    r.hold node
    holdItems r nodes

/-- A value whose variant an entry names, or the first item if it is a list. What is left is read
as that variant. -/
def tagged {α : Type} (title tag : String) (names : List String)
    (read : Nat → Reading → Node → Except Fault α) (r : Reading) : Node → Except Fault α
  | .table entries => do
    let (kind, held) ← taggedEntries tag names r.enter entries none []
    read kind r.afterHold (.table held)
  | .list [] => throw (.missingField tag)
  | .list (node :: nodes) => do
    let kind ← r.enter.variant names node
    r.enter.holdItems nodes
    read kind r.afterHold (.list nodes)
  | node => throw (r.mismatch node title)

/-- Reads on behind the parts of a value whose kind and content are entries: neither may come
again. -/
def noMore (r : Reading) (tag content : String) : List (Option String × Node) → Except Fault Unit
  | [] => pure ()
  | (none, _) :: _ => throw .malformed
  | (some name, node) :: rest =>
    if name = tag then throw (.duplicateField tag)
    else if name = content then throw (.duplicateField content)
    else do
      r.skip node
      noMore r tag content rest

/-- Reads on to the content, when the kind is known. -/
def contentAfter {α : Type} (r : Reading) (tag content : String)
    (read : Reading → Node → Except Fault α) :
    List (Option String × Node) → Except Fault α
  | [] => throw (.missingField content)
  | (none, _) :: _ => throw .malformed
  | (some name, node) :: rest =>
    if name = tag then throw (.duplicateField tag)
    else if name = content then do
      let a ← read r node
      r.noMore tag content rest
      pure a
    else do
      r.skip node
      contentAfter r tag content read rest

/-- Reads on to the kind, when the content is known. -/
def kindAfter {α : Type} (r : Reading) (tag content : String) (names : List String) (held : Node)
    (read : Nat → Reading → Node → Except Fault α) : List (Option String × Node) → Except Fault α
  | [] => throw (.missingField tag)
  | (none, _) :: _ => throw .malformed
  | (some name, node) :: rest =>
    if name = content then throw (.duplicateField content)
    else if name = tag then do
      let i ← r.word names node
      let a ← read i r.afterHold held
      r.noMore tag content rest
      pure a
    else do
      r.skip node
      kindAfter r tag content names held read rest

/-- A value that is given by two entries, its kind and its content, in either order. -/
def paired {α : Type} (tag content : String) (names : List String)
    (read : Nat → Reading → Node → Except Fault α) (r : Reading) :
    List (Option String × Node) → Except Fault α
  | [] => throw (.missingField tag)
  | (none, _) :: _ => throw .malformed
  | (some name, node) :: rest =>
    if name = tag then do
      let i ← r.word names node
      r.contentAfter tag content (read i) rest
    else if name = content then do
      r.hold node
      r.kindAfter tag content names node read rest
    else do
      r.skip node
      paired tag content names read r rest

end Bindery.Reading
