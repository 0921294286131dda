import Bindery.Files.Operations
import Bindery.Proofs.Files.Tree

/-!
# What is where

Two trees are the same for a user if at every location there is the same: a file of the same
content, a directory, or nothing. The order of the entries of a directory does not count.
-/

namespace Bindery

/-- What an entry is, apart from what is in it. -/
inductive Entry.Kind where
  | file (content : Content)
  | directory
  deriving DecidableEq, Repr

def Entry.Kind.isFile : Entry.Kind → Bool
  | .file _ => true
  | .directory => false

namespace Entry

def kind : Entry → Kind
  | .file content => .file content
  | .directory _ => .directory

/-- An entry that nothing is in. -/
def leaf : Kind → Entry
  | .file content => .file content
  | .directory => .directory []

def kindAt (root : Entry) (l : Location) : Option Kind :=
  (root.get? l).map kind

@[simp] theorem kind_file (content : Content) : (file content).kind = .file content := rfl

@[simp] theorem kind_directory (entries : List (String × Entry)) :
    (directory entries).kind = .directory := rfl

@[simp] theorem kind_leaf (k : Kind) : (leaf k).kind = k := by
  cases k <;> rfl

@[simp] theorem kindAt_nil (root : Entry) : root.kindAt [] = some root.kind := rfl

@[simp] theorem kindAt_file_cons (content : Content) (name : String) (l : Location) :
    (file content).kindAt (name :: l) = none := rfl

theorem kindAt_directory_cons (entries : List (String × Entry)) (name : String) (l : Location) :
    (directory entries).kindAt (name :: l) =
      (entries.lookup name).bind fun e => e.kindAt l := by
  rw [kindAt, get?]
  cases entries.lookup name <;> rfl

@[simp] theorem kindAt_leaf_cons (k : Kind) (name : String) (l : Location) :
    (leaf k).kindAt (name :: l) = none := by
  cases k <;> rfl

theorem kindAt_append (root : Entry) (l m : Location) :
    root.kindAt (l ++ m) = (root.get? l).bind fun e => e.kindAt m := by
  rw [kindAt, get?_append]
  cases root.get? l <;> rfl

theorem kindAt_eq_directory_iff {root : Entry} {l : Location} :
    root.kindAt l = some .directory ↔ ∃ entries, root.get? l = some (.directory entries) := by
  rw [kindAt]
  cases root.get? l with
  | none => simp
  | some e => cases e <;> simp

theorem kindAt_eq_none_iff {root : Entry} {l : Location} :
    root.kindAt l = none ↔ root.get? l = none := by
  simp [kindAt]

/-- Only in a directory there is something. -/
theorem kindAt_append_eq_none {root : Entry} {l m : Location}
    (h : root.kindAt l ≠ some .directory) (hm : m ≠ []) : root.kindAt (l ++ m) = none := by
  obtain ⟨name, m, rfl⟩ := List.exists_cons_of_ne_nil hm
  rw [kindAt_append]
  cases hget : root.get? l with
  | none => rfl
  | some e =>
      cases e with
      | file content => rfl
      | directory entries => exact absurd (kindAt_eq_directory_iff.2 ⟨entries, hget⟩) h

/-- What stands before something is a directory. -/
theorem kindAt_eq_directory_of_append {root : Entry} {l m : Location} (hm : m ≠ [])
    (h : root.kindAt (l ++ m) ≠ none) : root.kindAt l = some .directory := by
  by_contra hl
  exact h (kindAt_append_eq_none hl hm)

/-! ## Changes -/

theorem kindAt_remove {l : Location} (hl : l ≠ []) (root : Entry) (m : Location) :
    (root.remove l).kindAt m = if l <+: m then none else root.kindAt m := by
  induction l generalizing root m with
  | nil => exact absurd rfl hl
  | cons name l ih =>
      cases root with
      | file content => cases m <;> simp [remove]
      | directory entries =>
          cases m with
          | nil =>
              rw [remove]
              split <;> simp
          | cons key m =>
              rw [remove]
              split
              next hempty =>
                obtain rfl := List.isEmpty_iff.1 hempty
                rw [kindAt_directory_cons, kindAt_directory_cons, lookup_filter]
                by_cases hkey : key = name
                · subst hkey
                  simp
                · simp [hkey, Ne.symm hkey, List.cons_prefix_cons]
              next hempty =>
                rw [kindAt_directory_cons, kindAt_directory_cons, lookup_change]
                by_cases hkey : key = name
                · subst hkey
                  have hrest : l ≠ [] := fun heq => hempty (List.isEmpty_iff.2 heq)
                  cases entries.lookup key with
                  | none => simp
                  | some e => simp [ih hrest, List.cons_prefix_cons]
                · simp [hkey, Ne.symm hkey, List.cons_prefix_cons]

/-- An entry that nothing is in is put in a directory, where no directory was. -/
theorem kindAt_put {l : Location} {name : String} {root : Entry}
    (hdirectory : root.kindAt l = some .directory)
    (hvacant : root.kindAt (l ++ [name]) ≠ some .directory) (k : Kind) (m : Location) :
    (root.put (l ++ [name]) (leaf k)).kindAt m =
      if m = l ++ [name] then some k else root.kindAt m := by
  induction l generalizing root m with
  | nil =>
      obtain ⟨entries, hentries⟩ := kindAt_eq_directory_iff.1 hdirectory
      obtain rfl : root = .directory entries := by simpa [get?] using hentries
      obtain ⟨entries', hput, hlookup⟩ := exists_put_singleton name (leaf k) entries
      rw [List.nil_append] at hvacant ⊢
      rw [hput]
      cases m with
      | nil => simp
      | cons key m =>
          rw [kindAt_directory_cons, kindAt_directory_cons, hlookup]
          by_cases hkey : key = name
          · subst hkey
            cases m with
            | nil => simp
            | cons name' m =>
                have hnone := kindAt_append_eq_none hvacant (List.cons_ne_nil name' m)
                rw [List.singleton_append, kindAt_directory_cons] at hnone
                simp [hnone]
          · simp [hkey]
  | cons first l ih =>
      cases root with
      | file content => simp at hdirectory
      | directory entries =>
          rw [kindAt_directory_cons] at hdirectory
          rw [List.cons_append, kindAt_directory_cons] at hvacant
          cases hlookup : entries.lookup first with
          | none => simp [hlookup] at hdirectory
          | some e =>
              rw [hlookup] at hdirectory hvacant
              rw [List.cons_append, put, hlookup, Option.isSome_some, if_pos rfl]
              cases m with
              | nil => simp
              | cons key m =>
                  rw [kindAt_directory_cons, kindAt_directory_cons, lookup_change]
                  by_cases hkey : key = first
                  · subst hkey
                    simp [hlookup, ih hdirectory hvacant]
                  · simp [hkey]

end Entry

namespace FileSystem

/-- What is at a location. -/
def kindAt (fs : FileSystem) (l : Location) : Option Entry.Kind :=
  fs.root.kindAt l

/-- The same files with the same contents, and the same directories. -/
structure SameFiles (fs fs' : FileSystem) : Prop where
  working : fs'.working = fs.working
  kindAt : ∀ l, fs'.kindAt l = fs.kindAt l

theorem SameFiles.refl (fs : FileSystem) : SameFiles fs fs :=
  ⟨rfl, fun _ => rfl⟩

theorem SameFiles.symm {fs fs' : FileSystem} (h : SameFiles fs fs') : SameFiles fs' fs :=
  ⟨h.working.symm, fun l => (h.kindAt l).symm⟩

theorem SameFiles.trans {fs fs' fs'' : FileSystem} (h : SameFiles fs fs')
    (h' : SameFiles fs' fs'') : SameFiles fs fs'' :=
  ⟨h'.working.trans h.working, fun l => (h'.kindAt l).trans (h.kindAt l)⟩

end FileSystem

end Bindery
