import Mathlib.Data.List.Basic
import Mathlib.Tactic.Common

/-!
# Blocks

A list that is taken in blocks of `n` elements, and what is left behind the last whole block. A part
that is appended only meets what is left of the parts before.
-/

namespace Framework

variable {β : Type*} {n : Nat} {l m x : List β} {b : β}

/-- The whole blocks of a list. -/
def blocks (n : Nat) (l : List β) : List (List β) :=
  (List.range (l.length / n)).map fun i => (l.drop (i * n)).take n

/-- What is left behind them. -/
def blocksRest (n : Nat) (l : List β) : List β := l.drop (l.length / n * n)

theorem blocks_of_short (h : l.length < n) : blocks n l = [] := by
  rw [blocks, Nat.div_eq_of_lt h, List.range_zero, List.map_nil]

theorem blocksRest_of_short (h : l.length < n) : blocksRest n l = l := by
  rw [blocksRest, Nat.div_eq_of_lt h, Nat.zero_mul, List.drop_zero]

theorem blocksRest_length (n : Nat) (l : List β) : (blocksRest n l).length = l.length % n := by
  rw [blocksRest, List.length_drop, Nat.mod_eq_sub, Nat.mul_comm]

theorem blocksRest_length_lt (hn : 0 < n) (l : List β) : (blocksRest n l).length < n := by
  rw [blocksRest_length]
  exact Nat.mod_lt _ hn

theorem blocks_append_block (hn : 0 < n) (hx : x.length = n) (l : List β) :
    blocks n (x ++ l) = x :: blocks n l := by
  have hcount : (x ++ l).length / n = l.length / n + 1 := by
    rw [List.length_append, hx, Nat.add_comm, Nat.add_div_right _ hn]
  rw [blocks, hcount, List.range_succ_eq_map, List.map_cons, List.map_map, Nat.zero_mul, List.drop_zero,
    List.take_append_of_le_length (Nat.le_of_eq hx.symm), List.take_of_length_le (Nat.le_of_eq hx)]
  congr 1
  apply List.map_congr_left
  intro i _
  show ((x ++ l).drop ((i + 1) * n)).take n = _
  rw [Nat.succ_mul, Nat.add_comm, ← List.drop_drop, ← hx, List.drop_left]

theorem blocksRest_append_block (hn : 0 < n) (hx : x.length = n) (l : List β) :
    blocksRest n (x ++ l) = blocksRest n l := by
  rw [blocksRest, List.length_append, hx, Nat.add_comm n, Nat.add_div_right _ hn, Nat.succ_mul,
    Nat.add_comm _ n, ← List.drop_drop, ← hx, List.drop_left]
  rfl

/-- A list is shorter than a block, or a block in front of a list. -/
theorem blocks_induction {P : List β → Prop} (hn : 0 < n) (short : ∀ l, l.length < n → P l)
    (block : ∀ x l, x.length = n → P l → P (x ++ l)) (l : List β) : P l := by
  induction hlen : l.length using Nat.strongRecOn generalizing l with
  | ind k ih =>
    by_cases hshort : l.length < n
    · exact short l hshort
    · have hfront : (l.take n).length = n := List.length_take_of_le (Nat.not_lt.mp hshort)
      rw [← List.take_append_drop n l]
      refine block _ _ hfront (ih (l.drop n).length ?_ _ rfl)
      rw [List.length_drop]
      omega

theorem blocks_append (hn : 0 < n) (l m : List β) :
    blocks n (l ++ m) = blocks n l ++ blocks n (blocksRest n l ++ m) := by
  induction l using blocks_induction hn with
  | short l h => rw [blocks_of_short h, blocksRest_of_short h, List.nil_append]
  | block x l hx ih =>
    rw [List.append_assoc, blocks_append_block hn hx, blocks_append_block hn hx,
      blocksRest_append_block hn hx, ih, List.cons_append]

theorem blocksRest_append (hn : 0 < n) (l m : List β) :
    blocksRest n (l ++ m) = blocksRest n (blocksRest n l ++ m) := by
  induction l using blocks_induction hn with
  | short l h => rw [blocksRest_of_short h]
  | block x l hx ih =>
    rw [List.append_assoc, blocksRest_append_block hn hx, blocksRest_append_block hn hx, ih]

theorem blocks_whole (hn : 0 < n) (hx : x.length = n) : blocks n x = [x] := by
  have h := blocks_append_block hn hx []
  rwa [List.append_nil, blocks_of_short (l := []) hn] at h

/-- One more element that does not complete a block. -/
theorem blocks_push_of_lt (h : (blocksRest n l).length + 1 < n) (b : β) :
    blocks n (l ++ [b]) = blocks n l ∧ blocksRest n (l ++ [b]) = blocksRest n l ++ [b] := by
  have hn : 0 < n := Nat.lt_of_le_of_lt (Nat.zero_le _) h
  have hshort : (blocksRest n l ++ [b]).length < n := by rwa [List.length_append, List.length_singleton]
  rw [blocks_append hn, blocksRest_append hn, blocks_of_short hshort, blocksRest_of_short hshort,
    List.append_nil]
  exact ⟨rfl, rfl⟩

/-- One more element that completes a block. -/
theorem blocks_push_of_eq (h : (blocksRest n l).length + 1 = n) (b : β) :
    blocks n (l ++ [b]) = blocks n l ++ [blocksRest n l ++ [b]] ∧ blocksRest n (l ++ [b]) = [] := by
  have hn : 0 < n := h ▸ Nat.succ_pos _
  have hfull : (blocksRest n l ++ [b]).length = n := by rwa [List.length_append, List.length_singleton]
  have hrest := blocksRest_append_block hn hfull []
  rw [List.append_nil, blocksRest_of_short (l := []) hn] at hrest
  rw [blocks_append hn, blocksRest_append hn, blocks_whole hn hfull, hrest]
  exact ⟨rfl, rfl⟩

end Framework
