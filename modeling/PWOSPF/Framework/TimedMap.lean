import Mathlib.Order.Basic

/-!
# Maps whose bindings expire

A partial map with a last time for every binding. A look-up sees the bindings that have not expired,
and a key gets a new binding only if it has no such one.
-/

namespace Framework

variable {κ ν τ : Type*}

def TimedMap (κ ν τ : Type*) := κ → Option (ν × τ)

namespace TimedMap

def empty : TimedMap κ ν τ := fun _ => none

variable [DecidableEq κ] [LE τ] [DecidableLE τ]

def lookup (m : TimedMap κ ν τ) (t : τ) (k : κ) : Option ν :=
  match m k with
  | some (v, last) => if t ≤ last then some v else none
  | none => none

/-- Binds the key until `last`, unless it has an unexpired binding at `t`. -/
def insert (m : TimedMap κ ν τ) (t last : τ) (k : κ) (v : ν) : TimedMap κ ν τ :=
  match m.lookup t k with
  | some _ => m
  | none => fun k' => if k' = k then some (v, last) else m k'

variable {m : TimedMap κ ν τ} {t last : τ} {k k' : κ} {v : ν}

omit [DecidableEq κ] in
theorem lookup_eq_some : m.lookup t k = some v ↔ ∃ last, m k = some (v, last) ∧ t ≤ last := by
  rw [lookup]
  cases m k with
  | none => simp
  | some b =>
    obtain ⟨w, last⟩ := b
    by_cases ht : t ≤ last
    · simp only [if_pos ht, Option.some.injEq, Prod.mk.injEq]
      constructor
      · intro hw
        exact ⟨last, ⟨hw, rfl⟩, ht⟩
      · intro hb
        exact hb.choose_spec.1.1
    · simp only [if_neg ht, Option.some.injEq, Prod.mk.injEq]
      constructor
      · intro hw
        cases hw
      · intro hb
        obtain ⟨last', ⟨-, rfl⟩, ht'⟩ := hb
        exact absurd ht' ht

omit [DecidableEq κ] in
theorem lookup_eq_none :
    m.lookup t k = none ↔ ∀ v last, m k = some (v, last) → ¬ t ≤ last := by
  constructor
  · intro h v last hk ht
    have hsome : m.lookup t k = some v := lookup_eq_some.mpr ⟨last, hk, ht⟩
    rw [h] at hsome
    cases hsome
  · intro h
    cases hv : m.lookup t k with
    | none => rfl
    | some v =>
      obtain ⟨last, hk, ht⟩ := lookup_eq_some.mp hv
      exact absurd ht (h v last hk)

theorem insert_bound (h : m.lookup t k = some v) {w : ν} : m.insert t last k w = m := by
  rw [insert, h]

theorem insert_self (h : m.lookup t k = none) : m.insert t last k v k = some (v, last) := by
  rw [insert, h]
  exact if_pos rfl

theorem insert_other (hk : k' ≠ k) : m.insert t last k v k' = m k' := by
  rw [insert]
  cases m.lookup t k with
  | some w => rfl
  | none => exact if_neg hk

end TimedMap

end Framework
