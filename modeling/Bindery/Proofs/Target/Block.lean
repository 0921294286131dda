import Bindery.Target.Block

/-!
# Blocks: lines and issues of composed blocks
-/

namespace Bindery.Block

variable {α : Type}

@[simp] theorem lines_append (a b : Block) : (a ++ b).lines = a.lines ++ b.lines := rfl

@[simp] theorem issues_append (a b : Block) : (a ++ b).issues = a.issues ++ b.issues := rfl

@[simp] theorem lines_ofLines (lines : List String) : (ofLines lines).lines = lines := rfl

@[simp] theorem issues_ofLines (lines : List String) : (ofLines lines).issues = [] := rfl

@[simp] theorem lines_ofLine (line : String) : (ofLine line).lines = [line] := rfl

@[simp] theorem issues_ofLine (line : String) : (ofLine line).issues = [] := rfl

@[simp] theorem lines_ofResolved (r : Resolved α) (write : α → String) :
    (ofResolved r write).lines = [write r.value] := rfl

@[simp] theorem issues_ofResolved (r : Resolved α) (write : α → String) :
    (ofResolved r write).issues = r.issues := rfl

@[simp] theorem lines_concat (blocks : List Block) : (concat blocks).lines = blocks.flatMap lines :=
  rfl

@[simp] theorem issues_concat (blocks : List Block) :
    (concat blocks).issues = blocks.flatMap issues := rfl

@[simp] theorem lines_ofMap (m : OrderedMap α) (f : String → α → Block) :
    (ofMap m f).lines = m.entries.flatMap fun entry => (f entry.1 entry.2).lines :=
  List.flatMap_map ..

@[simp] theorem issues_ofMap (m : OrderedMap α) (f : String → α → Block) :
    (ofMap m f).issues = m.entries.flatMap fun entry => (f entry.1 entry.2).issues :=
  List.flatMap_map ..

end Bindery.Block
