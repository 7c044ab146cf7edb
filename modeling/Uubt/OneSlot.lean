import Mathlib.Data.List.Basic
import Mathlib.Logic.Relation

namespace Uubt.OneSlot

/-- A one-place store with its books: what was put in, what was taken out,
and what is inside. The books always balance. -/
structure Ledger (α : Type) where
  accepted : List α
  ended : List α
  pending : Option α
  balanced : accepted = ended ++ pending.toList

variable {α : Type}

def Ledger.empty : Ledger α := ⟨[], [], none, rfl⟩

def Ledger.put (l : Ledger α) (a : α) (h : l.pending = none) : Ledger α :=
  ⟨l.accepted ++ [a], l.ended, some a, by simp [l.balanced, h]⟩

def Ledger.take (l : Ledger α) (a : α) (h : l.pending = some a) : Ledger α :=
  ⟨l.accepted, l.ended ++ [a], none, by simp [l.balanced, h]⟩

/-- An entry is put into an empty store only, and only the entry that is
inside is taken out. -/
inductive Step : Ledger α → Ledger α → Prop
  | put (l : Ledger α) (a : α) (h : l.pending = none) : Step l (l.put a h)
  | take (l : Ledger α) (a : α) (h : l.pending = some a) : Step l (l.take a h)

abbrev Steps (l l' : Ledger α) : Prop := Relation.ReflTransGen Step l l'

end Uubt.OneSlot
