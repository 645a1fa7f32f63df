import Mathlib.Data.List.Basic
import Mathlib.Tactic.Common

/-!
# Gathering from a stream

A reader asks for what it still lacks until it has `n` elements of a stream. Each call may bring less
than was asked for, be interrupted or fail; at the end of the stream it brings nothing. Whatever the
calls do, the elements that are gathered are the first ones of the stream.
-/

namespace Framework

/-- `brings k` brings up to `k + 1` elements. -/
inductive Delivery
  | brings (k : Nat)
  | interrupted
  | fails
  deriving DecidableEq, Repr

/-- There may be no more calls before there are enough elements. -/
inductive Gathered (β : Type*)
  | waiting
  | failed
  | done (got rest : List β) (calls : List Delivery)
  deriving DecidableEq, Repr

variable {β : Type*} {n : Nat} {got rest got' rest' : List β} {calls calls' : List Delivery}

/-- The loop, with `got` read before and `rest` ahead. -/
def gather (n : Nat) (got rest : List β) : List Delivery → Gathered β
  | [] => if n ≤ got.length then .done got rest [] else .waiting
  | call :: calls =>
    if n ≤ got.length then .done got rest (call :: calls)
    else
      match call with
      | .interrupted => gather n got rest calls
      | .fails => .failed
      | .brings k =>
        let count := min (k + 1) (n - got.length)
        gather n (got ++ rest.take count) (rest.drop count) calls

theorem gather_enough (h : n ≤ got.length) : gather n got rest calls = .done got rest calls := by
  cases calls with
  | nil => exact if_pos h
  | cons call calls => exact if_pos h

theorem gather_cons (h : ¬ n ≤ got.length) (call : Delivery) :
    gather n got rest (call :: calls) =
      match call with
      | .interrupted => gather n got rest calls
      | .fails => .failed
      | .brings k => gather n (got ++ rest.take (min (k + 1) (n - got.length)))
          (rest.drop (min (k + 1) (n - got.length))) calls :=
  if_neg h

/-- What a call brings is the next part of the stream. -/
theorem take_in_parts {count m : Nat} (hcount : count ≤ m) (l : List β) :
    l.take count ++ (l.drop count).take (m - (l.take count).length) = l.take m ∧
      (l.drop count).drop (m - (l.take count).length) = l.drop m := by
  by_cases hshort : l.length ≤ count
  · rw [List.drop_of_length_le hshort, List.take_of_length_le hshort,
      List.take_of_length_le (Nat.le_trans hshort hcount), List.take_nil, List.append_nil, List.drop_nil,
      List.drop_of_length_le (Nat.le_trans hshort hcount)]
    exact ⟨rfl, rfl⟩
  · have hlen : (l.take count).length = count := List.length_take_of_le (by omega)
    rw [hlen, ← List.take_add, List.drop_drop, Nat.add_sub_cancel' hcount]
    exact ⟨rfl, rfl⟩

/-- The first elements of the stream. -/
theorem gather_done (h : gather n got rest calls = .done got' rest' calls') :
    got' = got ++ rest.take (n - got.length) ∧ rest' = rest.drop (n - got.length) ∧
      n ≤ got'.length ∧ calls' <:+ calls := by
  induction calls generalizing got rest with
  | nil =>
    by_cases hn : n ≤ got.length
    · rw [gather_enough hn] at h
      cases h
      simpa [Nat.sub_eq_zero_of_le hn] using hn
    · rw [gather, if_neg hn] at h
      cases h
  | cons call calls ih =>
    by_cases hn : n ≤ got.length
    · rw [gather_enough hn] at h
      cases h
      simpa [Nat.sub_eq_zero_of_le hn] using hn
    · rw [gather_cons hn] at h
      cases call with
      | fails => cases h
      | interrupted =>
        obtain ⟨hgot, hrest, hlen, hsuffix⟩ := ih h
        exact ⟨hgot, hrest, hlen, hsuffix.trans (List.suffix_cons _ _)⟩
      | brings k =>
        obtain ⟨hgot, hrest, hlen, hsuffix⟩ := ih h
        obtain ⟨htake, hdrop⟩ :=
          take_in_parts (Nat.min_le_right (k + 1) (n - got.length)) rest
        rw [List.length_append, ← Nat.sub_sub] at hgot hrest
        exact ⟨by rw [hgot, List.append_assoc, htake], by rw [hrest, hdrop], hlen,
          hsuffix.trans (List.suffix_cons _ _)⟩

theorem gather_failed (h : gather n got rest calls = .failed) : .fails ∈ calls := by
  induction calls generalizing got rest with
  | nil =>
    rw [gather] at h
    split at h
    · cases h
    · cases h
  | cons call calls ih =>
    by_cases hn : n ≤ got.length
    · rw [gather_enough hn] at h
      cases h
    · rw [gather_cons hn] at h
      cases call with
      | fails => exact List.mem_cons_self
      | interrupted => exact List.mem_cons_of_mem _ (ih h)
      | brings k => exact List.mem_cons_of_mem _ (ih h)

/-- The calls that are not interrupted. -/
def deliveries (calls : List Delivery) : Nat := calls.countP fun call => call ≠ .interrupted

theorem deliveries_interrupted (calls : List Delivery) :
    deliveries (.interrupted :: calls) = deliveries calls :=
  List.countP_cons_of_neg (by simp)

theorem deliveries_brings (k : Nat) (calls : List Delivery) :
    deliveries (.brings k :: calls) = deliveries calls + 1 :=
  List.countP_cons_of_pos (by simp)

/-- Each call brings something, as long as the stream has it. -/
theorem gather_cost (h : gather n got rest calls = .done got' rest' calls')
    (hlong : n ≤ got.length + rest.length) : deliveries calls ≤ deliveries calls' + (n - got.length) := by
  induction calls generalizing got rest with
  | nil => exact Nat.zero_le _
  | cons call calls ih =>
    by_cases hn : n ≤ got.length
    · rw [gather_enough hn] at h
      cases h
      exact Nat.le_add_right _ _
    · rw [gather_cons hn] at h
      cases call with
      | fails => cases h
      | interrupted =>
        rw [deliveries_interrupted]
        exact ih h hlong
      | brings k =>
        have hleft := ih h (by rw [List.length_append, List.length_take, List.length_drop]; omega)
        rw [List.length_append, List.length_take] at hleft
        rw [deliveries_brings]
        omega

/-- As many calls as elements are lacking are enough, if none fails and the stream is long enough. -/
theorem gather_of_calls (hlong : n ≤ got.length + rest.length) (hnone : .fails ∉ calls)
    (hcalls : n ≤ got.length + deliveries calls) :
    ∃ got' rest' calls', gather n got rest calls = .done got' rest' calls' := by
  induction calls generalizing got rest with
  | nil => exact ⟨got, rest, [], gather_enough hcalls⟩
  | cons call calls ih =>
    by_cases hn : n ≤ got.length
    · exact ⟨got, rest, _, gather_enough hn⟩
    · rw [gather_cons hn]
      obtain ⟨hcall, hothers⟩ := not_or.mp (List.mem_cons.not.mp hnone)
      cases call with
      | fails => exact absurd rfl hcall
      | interrupted => exact ih hlong hothers (by rwa [deliveries_interrupted] at hcalls)
      | brings k =>
        rw [deliveries_brings] at hcalls
        apply ih _ hothers
        · rw [List.length_append, List.length_take]
          omega
        · rw [List.length_append, List.length_take, List.length_drop]
          omega

end Framework
