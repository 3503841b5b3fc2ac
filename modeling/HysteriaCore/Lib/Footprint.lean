import Mathlib.Data.Option.Basic

/-!
# Computations and the places they read

A `Traced` computation lists the places it reads, up to an exception that leaves it. `Within`
says that all of them satisfy a predicate; it distributes over `bind`.
-/

namespace HysteriaCore.Lib

structure Traced (ι α : Type*) where
  reads : List ι
  result : Option α

namespace Traced

variable {ι α β : Type*}

def pure (a : α) : Traced ι α := ⟨[], some a⟩

def throw : Traced ι α := ⟨[], none⟩

def reading (places : List ι) (a : α) : Traced ι α := ⟨places, some a⟩

def bind (m : Traced ι α) (f : α → Traced ι β) : Traced ι β where
  reads := m.reads ++ (m.result.map fun a => (f a).reads).getD []
  result := m.result.bind fun a => (f a).result

def map (f : α → β) (m : Traced ι α) : Traced ι β := ⟨m.reads, m.result.map f⟩

@[simp] theorem result_pure (a : α) : (pure a : Traced ι α).result = some a := rfl

@[simp] theorem result_throw : (throw : Traced ι α).result = none := rfl

@[simp] theorem result_reading (places : List ι) (a : α) : (reading places a).result = some a := rfl

@[simp] theorem result_bind (m : Traced ι α) (f : α → Traced ι β) :
    (m.bind f).result = m.result.bind fun a => (f a).result := rfl

@[simp] theorem result_map (f : α → β) (m : Traced ι α) : (m.map f).result = m.result.map f := rfl

def Within (P : ι → Prop) (m : Traced ι α) : Prop := ∀ i ∈ m.reads, P i

variable {P : ι → Prop}

@[simp] theorem within_pure (a : α) : (pure a : Traced ι α).Within P := by simp [Within, pure]

@[simp] theorem within_throw : (throw : Traced ι α).Within P := by simp [Within, throw]

@[simp] theorem within_reading (places : List ι) (a : α) :
    (reading places a).Within P ↔ ∀ i ∈ places, P i := Iff.rfl

@[simp] theorem within_map (f : α → β) (m : Traced ι α) : (m.map f).Within P ↔ m.Within P := Iff.rfl

@[simp] theorem within_bind (m : Traced ι α) (f : α → Traced ι β) :
    (m.bind f).Within P ↔ m.Within P ∧ ∀ a, m.result = some a → (f a).Within P := by
  unfold Within bind
  cases hm : m.result with
  | none => simp
  | some a => simp [or_imp, forall_and]

end Traced

end HysteriaCore.Lib
