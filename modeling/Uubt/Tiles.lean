import Mathlib.Data.List.Basic
import Mathlib.Tactic.Ring

namespace Uubt.Tiles

variable {α : Type}

def tile (size : Nat) (image : List α) (off : Nat) : List α := (image.drop off).take size

theorem length_tile (size : Nat) (image : List α) (off : Nat) :
    (tile size image off).length = min size (image.length - off) := by
  simp [tile]

/-- Pieces that cover the image from its start, none of them behind its
end. -/
structure Tiled (size : Nat) (image : List α) (pieces : List (List α)) : Prop where
  flatten : pieces.flatten = image.take (size * pieces.length)
  tight : pieces.length ≠ 0 → size * (pieces.length - 1) < image.length

theorem tiled_nil (size : Nat) (image : List α) : Tiled size image [] :=
  ⟨by simp, fun h => absurd rfl h⟩

variable {size : Nat} {image : List α} {pieces : List (List α)}

theorem Tiled.length_flatten (h : Tiled size image pieces) :
    pieces.flatten.length = min (size * pieces.length) image.length := by
  rw [h.flatten, List.length_take]

theorem Tiled.flatten_eq_take (h : Tiled size image pieces) :
    pieces.flatten = image.take pieces.flatten.length := by
  rw [h.length_flatten, h.flatten]
  rcases Nat.le_total (size * pieces.length) image.length with hle | hle
  · rw [Nat.min_eq_left hle]
  · rw [Nat.min_eq_right hle, List.take_of_length_le hle, List.take_length]

theorem Tiled.offset (h : Tiled size image pieces) (hlt : pieces.flatten.length < image.length) :
    pieces.flatten.length = size * pieces.length := by
  have hl := h.length_flatten
  omega

theorem Tiled.concat (h : Tiled size image pieces) (hlt : pieces.flatten.length < image.length) :
    Tiled size image (pieces ++ [tile size image pieces.flatten.length]) := by
  have hoff := h.offset hlt
  constructor
  · rw [List.flatten_append, List.flatten_singleton, List.length_append, List.length_singleton, Nat.mul_add,
      Nat.mul_one, tile, hoff, h.flatten, List.take_add]
  · intro _
    rw [List.length_append, List.length_singleton, Nat.add_sub_cancel, ← hoff]
    exact hlt

theorem Tiled.complete (h : Tiled size image pieces) (hsize : 0 < size)
    (hge : image.length ≤ pieces.flatten.length) :
    pieces.flatten = image ∧ pieces.length = (image.length + size - 1) / size := by
  have hl := h.length_flatten
  refine ⟨by rw [h.flatten_eq_take, List.take_of_length_le hge], ?_⟩
  generalize hk : pieces.length = k at hl ⊢
  cases k with
  | zero =>
      have hz : image.length = 0 := by omega
      rw [hz, Nat.zero_add, Nat.div_eq_of_lt (Nat.sub_lt hsize Nat.one_pos)]
  | succ k =>
      have ht := h.tight (by omega)
      rw [hk, Nat.add_sub_cancel] at ht
      have hsucc : size * (k + 1) = size * k + size := by ring
      symm
      rw [Nat.div_eq_iff hsize]
      have hm : (k + 1) * size = size * k + size := by ring
      omega

/-- The pieces in which a string is sent that is closed by a piece shorter
than the others, an empty one if need be. -/
def segments (size : Nat) (xs : List α) : List (List α) :=
  if _h : 0 < size ∧ size ≤ xs.length then xs.take size :: segments size (xs.drop size) else [xs]
termination_by xs.length
decreasing_by
  rw [List.length_drop]
  omega

theorem segments_short {xs : List α} (h : xs.length < size) : segments size xs = [xs] := by
  rw [segments, dif_neg (by omega)]

theorem segments_long (hsize : 0 < size) {xs : List α} (h : size ≤ xs.length) :
    segments size xs = xs.take size :: segments size (xs.drop size) := by
  rw [segments, dif_pos ⟨hsize, h⟩]

theorem segments_ne_nil (size : Nat) (xs : List α) : segments size xs ≠ [] := by
  rw [segments]
  split <;> simp

theorem flatten_segments (size : Nat) (xs : List α) : (segments size xs).flatten = xs := by
  fun_induction segments size xs with
  | case1 xs hs ih => rw [List.flatten_cons, ih, List.take_append_drop]
  | case2 xs hs => simp

theorem length_le_of_mem_segments (hsize : 0 < size) {xs piece : List α} (h : piece ∈ segments size xs) :
    piece.length ≤ size := by
  fun_induction segments size xs with
  | case1 xs hs ih =>
      rcases List.mem_cons.mp h with rfl | h
      · rw [List.length_take]
        exact Nat.min_le_left _ _
      · exact ih h
  | case2 xs hs =>
      obtain rfl := List.mem_singleton.mp h
      omega

theorem length_segments_eq_one (hsize : 0 < size) (xs : List α) :
    (segments size xs).length = 1 ↔ xs.length < size := by
  constructor
  · intro h
    by_contra hlong
    rw [segments_long hsize (Nat.le_of_not_lt hlong), List.length_cons] at h
    exact segments_ne_nil size (xs.drop size) (List.length_eq_zero_iff.mp (Nat.succ.inj h))
  · intro h
    rw [segments_short h, List.length_singleton]

theorem length_le_flatMap_segments (size : Nat) (strings : List (List α)) :
    strings.length ≤ (strings.flatMap (segments size)).length := by
  induction strings with
  | nil => exact Nat.le_refl _
  | cons xs strings ih =>
      have hpos := List.length_pos_iff.mpr (segments_ne_nil size xs)
      rw [List.flatMap_cons, List.length_append, List.length_cons]
      omega

/-- Strings that are sent in a row arrive as they are exactly if each of
them is shorter than a piece. -/
theorem flatMap_segments_eq_self_iff (hsize : 0 < size) (strings : List (List α)) :
    strings.flatMap (segments size) = strings ↔ ∀ xs ∈ strings, xs.length < size := by
  induction strings with
  | nil => simp
  | cons xs strings ih =>
      rw [List.flatMap_cons]
      constructor
      · intro h
        have hlen := congrArg List.length h
        rw [List.length_append, List.length_cons] at hlen
        have hle := length_le_flatMap_segments size strings
        have hpos := List.length_pos_iff.mpr (segments_ne_nil size xs)
        have hshort := (length_segments_eq_one hsize xs).mp (by omega)
        rw [segments_short hshort] at h
        exact List.forall_mem_cons.mpr ⟨hshort, ih.mp (List.cons.inj h).2⟩
      · intro h
        obtain ⟨hshort, hrest⟩ := List.forall_mem_cons.mp h
        rw [segments_short hshort, ih.mpr hrest]
        rfl

end Uubt.Tiles
