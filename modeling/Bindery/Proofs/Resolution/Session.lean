import Bindery.Proofs.Resolution.Misses

/-!
# Resolving as a fold

A session resolves one type after the other: it has a place, keeps a list of issues, and takes the
mark off a constant type by resolving the same type again without it. `resolve_eq_fold`: it comes to
an end; its text is a fold over the type, which knows neither the place nor the list; and all that
it changes is that the list grows at its end.
-/

namespace Bindery

/-! ## The mark of a constant type -/

namespace TypeExpr

theorem isConst_withConst (c : Bool) (t : TypeExpr) : (t.withConst c).isConst = c := by
  cases t <;> rfl

theorem withConst_withConst (c d : Bool) (t : TypeExpr) :
    (t.withConst c).withConst d = t.withConst d := by
  cases t <;> rfl

theorem withConst_isConst (t : TypeExpr) : t.withConst t.isConst = t := by
  cases t <;> rfl

theorem misses_withConst (s : Spec) (v : Vocabulary) (location : String) (c : Bool)
    (t : TypeExpr) : (t.withConst c).misses s v location = t.misses s v location := by
  cases t <;> simp only [withConst, misses]

/-- The mark takes no room. -/
theorem sizeOf_withConst (c : Bool) (t : TypeExpr) : sizeOf (t.withConst c) = sizeOf t := by
  have hbool (b : Bool) : sizeOf b = 1 := by cases b <;> rfl
  cases t <;> simp [withConst, hbool]

end TypeExpr

/-! ## Folds over types -/

namespace TypeExpr

/-- What is made of a node, from what is made of the types inside it. A template also shows its
arguments as they are. -/
structure Algebra (α : Type) where
  name : List String → Indirection → α
  template : List String → List TypeExpr → List α → α
  function : List (String × α) → α → Bool → α
  /-- What becomes of a constant type. -/
  const : α → α

namespace Algebra

def guarded {α : Type} (a : Algebra α) (isConst : Bool) (x : α) : α :=
  if isConst then a.const x else x

end Algebra

mutual
def fold {α : Type} (a : Algebra α) : TypeExpr → α
  | .name path isConst indirection => a.guarded isConst (a.name path indirection)
  | .template path arguments isConst =>
    a.guarded isConst (a.template path arguments (foldAll a arguments))
  | .function arguments result isConst isNoExcept =>
    a.guarded isConst (a.function (foldArguments a arguments) (fold a result) isNoExcept)

def foldAll {α : Type} (a : Algebra α) : List TypeExpr → List α
  | [] => []
  | t :: ts => fold a t :: foldAll a ts

def foldArguments {α : Type} (a : Algebra α) : List (String × TypeExpr) → List (String × α)
  | [] => []
  | (argument, t) :: rest => (argument, fold a t) :: foldArguments a rest
end

theorem foldAll_eq_map {α : Type} (a : Algebra α) (ts : List TypeExpr) :
    foldAll a ts = ts.map (fold a) := by
  induction ts with
  | nil => rfl
  | cons t ts ih => simp [foldAll, ih]

theorem foldArguments_eq_map {α : Type} (a : Algebra α) (arguments : List (String × TypeExpr)) :
    foldArguments a arguments = arguments.map fun x => (x.1, fold a x.2) := by
  induction arguments with
  | nil => rfl
  | cons x arguments ih => simp [foldArguments, ih]

/-- The mark of a constant type counts once, and last. -/
theorem fold_withConst_true {α : Type} (a : Algebra α) (t : TypeExpr) :
    (t.withConst true).fold a = a.const ((t.withConst false).fold a) := by
  cases t <;> simp [withConst, fold, Algebra.guarded]

end TypeExpr

namespace Mapping

/-- Modifiers behind a text, if there are any. -/
def noted (m : Mapping) (modifiers : List String) (text : String) : String :=
  if modifiers.isEmpty then text else m.annotate text modifiers

/-- The text of a name without modifiers. -/
def nameText (m : Mapping) (s : Spec) (fullName : String) : String :=
  if s.declares fullName then m.declared fullName
  else (m.primitive? fullName).getD (m.placeholder fullName)

/-- The text of a template, from those of its arguments. -/
def templateText (m : Mapping) (fullName : String) (arguments : List TypeExpr)
    (inner : List String) : String :=
  match m.template? fullName with
  | none => m.placeholder (Resolver.templateDetail fullName arguments)
  | some rule =>
    if arguments.length = rule.arity then rule.render inner
    else m.placeholder (Resolver.templateDetail fullName arguments)

/-- How a target writes a type, node by node. -/
def texts (m : Mapping) (s : Spec) : TypeExpr.Algebra String where
  name path indirection := m.noted indirection.names (m.nameText s (joinPath path))
  template path arguments inner := m.templateText (joinPath path) arguments inner
  function arguments result isNoExcept :=
    m.noted (if isNoExcept then ["noexcept"] else [])
      (m.function (arguments.map fun a => (m.naming.apply a.1, a.2)) result)
  const := m.readonly

end Mapping

/-- The issues of a type, node by node. -/
def Vocabulary.issues (v : Vocabulary) (s : Spec) (location : String) :
    TypeExpr.Algebra (List Issue) where
  name path _ := TypeExpr.nameMisses s v location (joinPath path)
  template path arguments inner :=
    TypeExpr.templateMisses v location (joinPath path) arguments.length inner.flatten
  function arguments result _ := arguments.flatMap Prod.snd ++ result
  const := id

namespace Resolver

variable (r : Resolver)

theorem value_resolveName_eq_nameText (fullName : String) :
    (r.resolveName fullName).value = r.mapping.nameText r.spec fullName := by
  rw [resolveName, Mapping.nameText]
  by_cases hd : r.spec.declares fullName = true
  · simp [hd]
  · cases r.mapping.primitive? fullName <;> simp [hd]

/-- The text of a type is a fold over it. -/
theorem value_resolve_eq_fold (t : TypeExpr) :
    (r.resolve t).value = t.fold (r.mapping.texts r.spec) := by
  induction t with
  | name path isConst indirection =>
      rw [resolve, TypeExpr.fold, value_resolveName_eq_nameText]
      rfl
  | template path arguments isConst ih =>
      have hinner : (arguments.map fun a => (r.resolve a).value) =
          TypeExpr.foldAll (r.mapping.texts r.spec) arguments := by
        rw [TypeExpr.foldAll_eq_map]
        exact List.map_congr_left ih
      rw [value_resolve_template, hinner, TypeExpr.fold]
      rfl
  | function arguments result isConst isNoExcept hargs hresult =>
      have hinputs : (r.resolveArguments arguments).value =
          (TypeExpr.foldArguments (r.mapping.texts r.spec) arguments).map
            fun a => (r.mapping.naming.apply a.1, a.2) := by
        rw [value_resolveArguments, TypeExpr.foldArguments_eq_map, List.map_map]
        refine List.map_congr_left fun a ha => ?_
        rw [hargs a ha]
        rfl
      rw [resolve, TypeExpr.fold, hinputs, hresult]
      rfl

/-- A constant type is what it is without its mark, and readonly around it. -/
theorem resolve_of_isConst {t : TypeExpr} (h : t.isConst = true) :
    r.resolve t = ⟨r.mapping.readonly (r.resolve (t.withConst false)).value,
      (r.resolve (t.withConst false)).issues⟩ := by
  have hvalue : (r.resolve t).value =
      r.mapping.readonly (r.resolve (t.withConst false)).value := by
    rw [value_resolve_eq_fold, value_resolve_eq_fold, ← TypeExpr.withConst_isConst t, h,
      TypeExpr.fold_withConst_true, TypeExpr.withConst_withConst]
    rfl
  have hissues : (r.resolve t).issues = (r.resolve (t.withConst false)).issues := by
    rw [issues_resolve, issues_resolve, TypeExpr.misses_withConst]
  rw [← hvalue, ← hissues]

end Resolver

/-! ## Sessions -/

/-- A resolver at work: what it resolves against and where, and the issues up to now. -/
structure Session where
  resolver : Resolver
  issues : List Issue

namespace Session

/-- Records an issue for the present place. -/
def record (kind : IssueKind) (identifier : String) (detail : Option String) :
    StateM Session Unit :=
  modify fun ses =>
    { ses with issues := ses.issues ++ [⟨kind, identifier, ses.resolver.location, detail⟩] }

def renderName (fullName : String) : StateM Session String := do
  let r := (← get).resolver
  if r.spec.declares fullName then
    return r.mapping.declared fullName
  match r.mapping.primitive? fullName with
  | some text => return text
  | none =>
    record (if r.spec.isPrimitive fullName then .unmappablePrimitive else .unresolvedIdentifier)
      fullName none
    return r.mapping.placeholder fullName

/-- Records that a template has no text, and shows it with its arguments. -/
def degrade (fullName : String) (arguments : List TypeExpr) (detail : Option String) :
    StateM Session String := do
  record .unmappableTemplate fullName detail
  return (← get).resolver.mapping.placeholder (Resolver.templateDetail fullName arguments)

/-- Notes all modifiers of the outermost node. -/
def annotate (t : TypeExpr) (text : String) : StateM Session String := do
  return (← get).resolver.annotated text t.modifiers

mutual
/-- A constant type is resolved again without its mark. It stays as large as it is, so the mark
counts where the size is the same. -/
def resolve (t : TypeExpr) : StateM Session String :=
  if t.isConst = true then do
    let inner ← resolve (t.withConst false)
    return (← get).resolver.mapping.readonly inner
  else
    match t with
    | .name path _ _ => do
      annotate t (← renderName (joinPath path))
    | .template path arguments _ => do
      match (← get).resolver.mapping.template? (joinPath path) with
      | none => degrade (joinPath path) arguments none
      | some rule =>
        let inner ← resolveAll arguments
        if inner.length = rule.arity then
          return rule.render inner
        degrade (joinPath path) arguments (some (Resolver.arityDetail rule.arity inner.length))
    | .function arguments result _ _ => do
      let inputs ← resolveArguments arguments
      let output ← resolve result
      annotate t ((← get).resolver.mapping.function inputs output)
termination_by (sizeOf t, t.isConst.toNat)
decreasing_by
  -- only the mark is gone, so the flag decreases and not the size
  · rw [TypeExpr.sizeOf_withConst, TypeExpr.isConst_withConst, ‹t.isConst = true›]
    exact Prod.Lex.right _ Nat.zero_lt_one
  all_goals
    refine Prod.Lex.left _ _ ?_
    simp only [TypeExpr.template.sizeOf_spec, TypeExpr.function.sizeOf_spec]
    omega

def resolveAll (ts : List TypeExpr) : StateM Session (List String) :=
  match ts with
  | [] => return []
  | t :: ts => do
    let first ← resolve t
    let rest ← resolveAll ts
    return first :: rest
termination_by (sizeOf ts, 0)
decreasing_by
  all_goals
    refine Prod.Lex.left _ _ ?_
    simp only [List.cons.sizeOf_spec]
    omega

def resolveArguments (arguments : List (String × TypeExpr)) :
    StateM Session (List (String × String)) :=
  match arguments with
  | [] => return []
  | (name, t) :: rest => do
    let first ← resolve t
    let others ← resolveArguments rest
    return ((← get).resolver.mapping.naming.apply name, first) :: others
termination_by (sizeOf arguments, 0)
decreasing_by
  all_goals
    refine Prod.Lex.left _ _ ?_
    simp only [List.cons.sizeOf_spec, Prod.mk.sizeOf_spec]
    omega
end

/-! ## What a session does -/

/-- The session after more issues. -/
def noting (ses : Session) (issues : List Issue) : Session :=
  { ses with issues := ses.issues ++ issues }

@[simp] theorem resolver_noting (ses : Session) (issues : List Issue) :
    (ses.noting issues).resolver = ses.resolver := rfl

@[simp] theorem noting_nil (ses : Session) : ses.noting [] = ses := by
  simp [noting]

@[simp] theorem noting_noting (ses : Session) (first others : List Issue) :
    (ses.noting first).noting others = ses.noting (first ++ others) := by
  simp [noting]

/-- What is left with a value whose issues are noted. -/
def after {α : Type} (ses : Session) (x : Resolved α) : α × Session :=
  (x.value, ses.noting x.issues)

theorem run_pure {α : Type} (ses : Session) (x : α) :
    (pure x : StateM Session α).run ses = ses.after ⟨x, []⟩ :=
  congrArg (Prod.mk x) ses.noting_nil.symm

/-- Behind an action that leaves `y`, the session goes on with its value. -/
theorem run_bind_of_run {α β : Type} {action : StateM Session α} {ses : Session} {y : Resolved α}
    (h : action.run ses = ses.after y) (next : α → StateM Session β) :
    (action >>= next).run ses = (next y.value).run (ses.noting y.issues) := by
  rw [StateT.run_bind, h]
  rfl

theorem run_renderName (ses : Session) (fullName : String) :
    (renderName fullName).run ses = ses.after (ses.resolver.resolveName fullName) := by
  show (if ses.resolver.spec.declares fullName then _ else _ : StateM Session String).run ses = _
  rw [Resolver.resolveName]
  by_cases hd : ses.resolver.spec.declares fullName = true
  · rw [if_pos hd, if_pos hd]
    exact run_pure ses _
  · rw [if_neg hd, if_neg hd]
    cases ses.resolver.mapping.primitive? fullName with
    | some text => exact run_pure ses _
    | none => rfl

theorem run_degrade (ses : Session) (fullName : String) (arguments : List TypeExpr)
    (detail : Option String) :
    (degrade fullName arguments detail).run ses =
      ses.after ⟨ses.resolver.mapping.placeholder (Resolver.templateDetail fullName arguments),
        [⟨.unmappableTemplate, fullName, ses.resolver.location, detail⟩]⟩ :=
  rfl

/-- In every session, a type leaves what it resolves to at the place of the session. -/
def Runs (t : TypeExpr) : Prop :=
  ∀ ses : Session, (resolve t).run ses = ses.after (ses.resolver.resolve t)

theorem run_resolveAll {ts : List TypeExpr} (hts : ∀ t ∈ ts, Runs t) (ses : Session) :
    (resolveAll ts).run ses = ses.after (ses.resolver.resolveAll ts) := by
  induction ts generalizing ses with
  | nil =>
      rw [resolveAll]
      exact run_pure ses _
  | cons t ts ih =>
      obtain ⟨ht, hts⟩ := List.forall_mem_cons.1 hts
      rw [resolveAll, run_bind_of_run (ht ses), run_bind_of_run (ih hts _)]
      simp only [resolver_noting, noting_noting]
      rfl

theorem run_resolveArguments {arguments : List (String × TypeExpr)}
    (hargs : ∀ a ∈ arguments, Runs a.2) (ses : Session) :
    (resolveArguments arguments).run ses = ses.after (ses.resolver.resolveArguments arguments) := by
  induction arguments generalizing ses with
  | nil =>
      rw [resolveArguments]
      exact run_pure ses _
  | cons a arguments ih =>
      obtain ⟨ha, hargs⟩ := List.forall_mem_cons.1 hargs
      rw [resolveArguments, run_bind_of_run (ha ses), run_bind_of_run (ih hargs _)]
      simp only [resolver_noting, noting_noting]
      rfl

/-- The mark is taken off once: behind it stands the type without it. -/
theorem Runs.of_bare {t : TypeExpr} (h : Runs (t.withConst false)) : Runs t := by
  intro ses
  cases hc : t.isConst with
  | false =>
      rw [← t.withConst_isConst, hc]
      exact h ses
  | true =>
      rw [resolve.eq_def, if_pos hc, run_bind_of_run (h ses), Resolver.resolve_of_isConst _ hc]
      rfl

theorem run_resolve_template (path : List String) {arguments : List TypeExpr}
    (hargs : ∀ a ∈ arguments, Runs a) (ses : Session) :
    (resolve (.template path arguments false)).run ses =
      ses.after (ses.resolver.resolve (.template path arguments false)) := by
  have hlength : (ses.resolver.resolveAll arguments).value.length = arguments.length := by
    rw [Resolver.value_resolveAll, List.length_map]
  rw [resolve, if_neg (by exact Bool.false_ne_true), Resolver.resolve]
  show (match ses.resolver.mapping.template? (joinPath path) with
    | none => _
    | some rule => _ : StateM Session String).run ses = _
  cases ses.resolver.mapping.template? (joinPath path) with
  | none => rfl
  | some rule =>
      dsimp only
      rw [run_bind_of_run (run_resolveAll hargs ses), hlength]
      by_cases ha : arguments.length = rule.arity
      · rw [if_pos ha, if_pos ha]
        rfl
      · rw [if_neg ha, if_neg ha, run_degrade]
        simp only [after, resolver_noting, noting_noting]
        rfl

/-- What a session does with a type: its text and its issues are those at the place. -/
theorem run_resolve (t : TypeExpr) : Runs t := by
  -- `Runs.of_bare` takes the mark off in every case; what is left follows the constructor
  induction t with
  | name path isConst indirection =>
      refine Runs.of_bare fun ses => ?_
      rw [TypeExpr.withConst, resolve, if_neg (by exact Bool.false_ne_true),
        run_bind_of_run (ses.run_renderName _)]
      rfl
  | template path arguments isConst ih =>
      exact Runs.of_bare (run_resolve_template path ih)
  | function arguments result isConst isNoExcept hargs hresult =>
      refine Runs.of_bare fun ses => ?_
      rw [TypeExpr.withConst, resolve, if_neg (by exact Bool.false_ne_true),
        run_bind_of_run (run_resolveArguments hargs ses), run_bind_of_run (hresult _)]
      simp only [resolver_noting, noting_noting]
      rfl

end Session

end Bindery
