import Bindery.Proofs.Spec.PlainNames

/-!
# The names of a spec

What holds of every name that a spec gives or uses.
-/

namespace Bindery

/-- Every name has the property: those of entities, members and arguments, and those in types. -/
structure Spec.EveryName (p : String → Prop) (s : Spec) : Prop where
  entities : ∀ name ∈ s.declaredNames, p name
  constants : ∀ e ∈ s.enumerations.values, ∀ name ∈ e.memberNames, p name
  fields : ∀ r ∈ s.records.values, ∀ name ∈ r.fields.keys, p name
  properties : ∀ c ∈ s.classes.values, ∀ name ∈ c.properties.keys, p name
  methods : ∀ c ∈ s.classes.values, ∀ name ∈ c.methods.keys, p name
  staticMethods : ∀ c ∈ s.classes.values, ∀ name ∈ c.staticMethods.keys, p name
  interfaceMethods : ∀ i ∈ s.interfaces.values, ∀ name ∈ i.methods.keys, p name
  arguments : ∀ sig, s.HasSignature sig → ∀ name ∈ sig.arguments.map Prod.fst, p name
  types : ∀ t, s.HasType t → ∀ name ∈ t.names, p name

theorem Spec.EveryName.mono {p q : String → Prop} {s : Spec} (h : s.EveryName p)
    (hpq : ∀ name, p name → q name) : s.EveryName q where
  entities name hname := hpq name (h.entities name hname)
  constants e he name hname := hpq name (h.constants e he name hname)
  fields r hr name hname := hpq name (h.fields r hr name hname)
  properties c hc name hname := hpq name (h.properties c hc name hname)
  methods c hc name hname := hpq name (h.methods c hc name hname)
  staticMethods c hc name hname := hpq name (h.staticMethods c hc name hname)
  interfaceMethods i hi name hname := hpq name (h.interfaceMethods i hi name hname)
  arguments sig hsig name hname := hpq name (h.arguments sig hsig name hname)
  types t ht name hname := hpq name (h.types t ht name hname)

namespace Naming

/-- A name without gaps. Identifiers are such names, with scopes or without. -/
structure IsWord (name : String) : Prop where
  nonempty : name ≠ ""
  noBlank : ' ' ∉ name.toList
  noLineFeed : '\n' ∉ name.toList

instance (name : String) : Decidable (IsWord name) :=
  decidable_of_iff (name ≠ "" ∧ ' ' ∉ name.toList ∧ '\n' ∉ name.toList)
    ⟨fun h => ⟨h.1, h.2.1, h.2.2⟩, fun h => ⟨h.nonempty, h.noBlank, h.noLineFeed⟩⟩

end Naming

end Bindery
