import LocalSearch.Datum.Basic
/-!
# Writing structured data

* `ToDatum`: the types whose values have a form as structured data.
* `datum`: that form. A tuple becomes one list of all its components, and what is absent becomes
  `null`.
-/

namespace LocalSearch

/-- Types whose values have a form as structured data with numbers of type `α`. -/
class ToDatum (α β : Type) where
  /-- A value as structured data. -/
  datum : β → Datum α

/-- Types whose values are the components of a tuple from some place on. -/
class ToData (α β : Type) where
  /-- The components, each as structured data. -/
  data : β → List (Datum α)

export ToDatum (datum)

variable {α β γ : Type}

instance : ToDatum α (Datum α) := ⟨id⟩

instance : ToDatum α Unit := ⟨fun _ => .null⟩

instance : ToDatum α Nat := ⟨.ofNat⟩

instance : ToDatum α Int := ⟨.integer⟩

instance : ToDatum α Bool := ⟨.flag⟩

instance : ToDatum α String := ⟨.text⟩

instance [Scalar α] : ToDatum α α := ⟨.number⟩

instance [ToDatum α β] : ToDatum α (Option β) := ⟨Datum.ofOptional datum⟩

instance [ToDatum α β] : ToDatum α (List β) := ⟨fun xs => .list (xs.map datum)⟩

instance (priority := low) [ToDatum α β] : ToData α β := ⟨fun b => [datum b]⟩

instance [ToDatum α β] [ToData α γ] : ToData α (β × γ) :=
  ⟨fun (b, c) => datum b :: ToData.data c⟩

instance [ToDatum α β] [ToData α γ] : ToDatum α (β × γ) := ⟨fun p => .list (ToData.data p)⟩

end LocalSearch
