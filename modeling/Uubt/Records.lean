import Mathlib.Data.List.Basic

namespace Uubt.Records

variable {α β : Type}

/-- A format in which records can be written in a row: the end of a record
shows in the record itself. -/
structure Format (α β : Type) where
  encode : α → List β
  next : List β → Option (α × List β)
  next_encode : ∀ a rest, next (encode a ++ rest) = some (a, rest)
  next_part : ∀ a s, s <+: encode a → s.length < (encode a).length → next s = none
  next_shorter : ∀ {s a rest}, next s = some (a, rest) → rest.length < s.length

/-- The records at the start of a string, and what is left of it. -/
def Format.parse (F : Format α β) (s : List β) : List α × List β :=
  match _h : F.next s with
  | none => ([], s)
  | some (a, rest) => (a :: (F.parse rest).1, (F.parse rest).2)
termination_by s.length
decreasing_by
  all_goals exact F.next_shorter _h

variable (F : Format α β)

theorem Format.parse_none {s : List β} (h : F.next s = none) : F.parse s = ([], s) := by
  rw [Format.parse]
  split
  · rfl
  · next hs => simp [h] at hs

theorem Format.parse_some {s : List β} {a : α} {rest : List β} (h : F.next s = some (a, rest)) :
    F.parse s = (a :: (F.parse rest).1, (F.parse rest).2) := by
  rw [Format.parse]
  split
  · next hs => simp [h] at hs
  · next b rest' hs =>
      obtain ⟨rfl, rfl⟩ := Prod.mk.inj (Option.some.inj (h.symm.trans hs))
      rfl

theorem Format.next_nil : F.next [] = none := by
  cases h : F.next [] with
  | none => rfl
  | some r => exact absurd (F.next_shorter h) (Nat.not_lt_zero _)

theorem Format.parse_nil : F.parse [] = ([], []) := F.parse_none F.next_nil

theorem Format.parse_encode (a : α) (s : List β) :
    F.parse (F.encode a ++ s) = (a :: (F.parse s).1, (F.parse s).2) :=
  F.parse_some (F.next_encode a s)

/-- Records that are written in a row are read back. -/
theorem Format.parse_flatMap (records : List α) : F.parse (records.flatMap F.encode) = (records, []) := by
  induction records with
  | nil => exact F.parse_nil
  | cons a records ih => rw [List.flatMap_cons, F.parse_encode, ih]

/-- As much of them as has come so far gives the first ones. -/
theorem Format.parse_initial {records : List α} {s : List β} (h : s <+: records.flatMap F.encode) :
    (F.parse s).1 <+: records := by
  induction records generalizing s with
  | nil =>
      rw [List.flatMap_nil, List.prefix_nil] at h
      have hp : (F.parse s).1 = [] := by rw [h, F.parse_nil]
      exact hp ▸ List.nil_prefix
  | cons a records ih =>
      rw [List.flatMap_cons] at h
      by_cases hlt : s.length < (F.encode a).length
      · have hs : s <+: F.encode a :=
          List.prefix_of_prefix_length_le h (List.prefix_append _ _) (Nat.le_of_lt hlt)
        rw [F.parse_none (F.next_part a s hs hlt)]
        exact List.nil_prefix
      · obtain ⟨rest, rfl⟩ := List.prefix_of_prefix_length_le (List.prefix_append _ _) h (Nat.le_of_not_lt hlt)
        rw [F.parse_encode]
        exact List.cons_prefix_cons.mpr ⟨rfl, ih ((List.prefix_append_right_inj _).mp h)⟩

end Uubt.Records
