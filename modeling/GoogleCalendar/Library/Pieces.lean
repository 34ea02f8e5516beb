import Mathlib.Data.List.Basic

/-!
# A list cut into pieces of one size

Reading a list a fixed number of elements at a time yields its pieces: full ones
while elements last, one shorter piece when the size does not divide the length,
and empty ones from then on. A cursor that hands out pieces is exact when the
pieces it handed out concatenate to a prefix of the list.
-/

namespace GoogleCalendar.Library

universe u
variable {α : Type u}

/-- The piece at a position, counted in pieces from zero. -/
def piece (size position : Nat) (list : List α) : List α :=
  (list.drop (position * size)).take size

/-- The first pieces of a list, in order. -/
def pieces (size count : Nat) (list : List α) : List (List α) :=
  (List.range count).map (fun position => piece size position list)

/-- A piece is as long as its size, or as what is left. -/
theorem piece_length (size position : Nat) (list : List α) :
    (piece size position list).length = min size (list.length - position * size) := by
  simp [piece]

/-- The later pieces of a list are the pieces of what its first one leaves. -/
theorem pieces_succ (size count : Nat) (list : List α) :
    pieces size (count + 1) list = list.take size :: pieces size count (list.drop size) := by
  simp only [pieces, List.range_succ_eq_map, List.map_cons, List.map_map, piece, Nat.zero_mul,
    List.drop_zero]
  congr 1
  apply List.map_congr_left
  intro position _
  simp only [Function.comp_apply, List.drop_drop, Nat.succ_mul, Nat.add_comm]

/-- The first pieces concatenate to a prefix of the list. -/
theorem pieces_flatten (size count : Nat) (list : List α) :
    (pieces size count list).flatten = list.take (count * size) := by
  induction count generalizing list with
  | zero => simp [pieces]
  | succ count ih =>
    rw [pieces_succ, List.flatten_cons, ih, Nat.succ_mul, Nat.add_comm, List.take_add]

/-- Enough pieces concatenate to the whole list. -/
theorem pieces_complete (size count : Nat) (list : List α) (positive : 0 < size)
    (enough : list.length ≤ count) : (pieces size count list).flatten = list := by
  rw [pieces_flatten]
  exact List.take_of_length_le (Nat.le_trans enough (Nat.le_mul_of_pos_right count positive))

/-- A piece that is not full ends the list: the pieces up to it are the whole. -/
theorem pieces_end (size position : Nat) (list : List α)
    (short : (piece size position list).length < size) :
    (pieces size (position + 1) list).flatten = list := by
  rw [piece_length] at short
  rw [pieces_flatten, Nat.succ_mul]
  exact List.take_of_length_le (by omega)

/-- An empty piece is preceded by the whole list and followed by empty pieces. -/
theorem piece_empty (size position : Nat) (list : List α) (positive : 0 < size)
    (empty : piece size position list = []) :
    (pieces size position list).flatten = list ∧
      ∀ later, position ≤ later → piece size later list = [] := by
  have length : list.length ≤ position * size := by
    have none := congrArg List.length empty
    rw [piece_length, List.length_nil] at none
    omega
  refine ⟨by rw [pieces_flatten]; exact List.take_of_length_le length, ?_⟩
  intro later after
  have beyond : list.length ≤ later * size :=
    Nat.le_trans length (Nat.mul_le_mul_right size after)
  simp [piece, List.drop_eq_nil_of_le beyond]

end GoogleCalendar.Library
