import Mathlib.Algebra.BigOperators.Group.List.Basic
import Mathlib.Algebra.GroupWithZero.Nat
import Mathlib.Data.List.Forall2

/-!
# Tallies over lists

Counting the entries with a property and adding up a number for every entry, when a single entry of
the list changes.
-/

namespace Framework

variable {α : Type*} {p : α → Bool} {l : List α}

/-- A property that at most one entry has holds at one position. -/
theorem eq_of_countP_le_one (h : l.countP p ≤ 1) {j k : Nat}
    {a b : α} (hj : l[j]? = some a) (hk : l[k]? = some b) (ha : p a = true) (hb : p b = true) :
    j = k := by
  induction l generalizing j k with
  | nil => cases hj
  | cons x l ih =>
    rw [List.countP_cons] at h
    have hlater : ∀ {i : Nat} {c : α}, l[i]? = some c → p c = true → 0 < l.countP p :=
      fun hi hc => List.countP_pos_iff.mpr ⟨_, List.mem_of_getElem? hi, hc⟩
    cases j with
    | zero =>
      cases k with
      | zero => rfl
      | succ k =>
        cases hj
        have hpos := hlater hk hb
        rw [if_pos ha] at h
        omega
    | succ j =>
      cases k with
      | zero =>
        cases hk
        have hpos := hlater hj ha
        rw [if_pos hb] at h
        omega
      | succ k => rw [ih (by omega) hj hk]

/-- What is found after one entry of a list was replaced. -/
theorem getElem?_set_some {j k : Nat} {a b : α} (h : (l.set k a)[j]? = some b) :
    j = k ∧ b = a ∨ j ≠ k ∧ l[j]? = some b := by
  rw [List.getElem?_set] at h
  by_cases hkj : k = j
  · rw [if_pos hkj] at h
    split at h
    · cases h
      exact .inl ⟨hkj.symm, rfl⟩
    · cases h
  · rw [if_neg hkj] at h
    exact .inr ⟨Ne.symm hkj, h⟩

theorem countP_of_forall₂ {β : Type*} {q : β → Bool} {r : List β} {R : α → β → Prop}
    (h : List.Forall₂ R l r) (hpq : ∀ a b, R a b → p a = q b) : l.countP p = r.countP q := by
  induction h with
  | nil => rfl
  | cons hab _ ih => rw [List.countP_cons, List.countP_cons, ih, hpq _ _ hab]

/-- What holds of each related pair or of none holds of all exactly if it holds or there is none. -/
theorem forall₂_iff_of_const {β : Type*} {Q P : α → β → Prop} {q : Prop} {l' : List β}
    (h : List.Forall₂ Q l l') (hiff : ∀ a b, Q a b → (P a b ↔ q)) :
    List.Forall₂ P l l' ↔ l' = [] ∨ q := by
  induction h with
  | nil => simp
  | cons hab hrest ih =>
    rw [List.forall₂_cons, ih, hiff _ _ hab, or_iff_right (List.cons_ne_nil _ _)]
    exact ⟨fun h => h.1, fun hq => ⟨hq, Or.inr hq⟩⟩

theorem exists_of_forall₂ {β : Type*} {r : List β} {R : α → β → Prop} (h : List.Forall₂ R l r) {b : β}
    (hb : b ∈ r) : ∃ a ∈ l, R a b := by
  induction h with
  | nil => cases hb
  | cons hab _ ih =>
    cases List.mem_cons.mp hb with
    | inl heq => exact ⟨_, List.mem_cons_self, heq ▸ hab⟩
    | inr hmem =>
      obtain ⟨a, ha, hR⟩ := ih hmem
      exact ⟨a, List.mem_cons_of_mem _ ha, hR⟩

theorem exists_of_forall₂_left {β : Type*} {r : List β} {R : α → β → Prop} (h : List.Forall₂ R l r)
    {a : α} (ha : a ∈ l) : ∃ b ∈ r, R a b := by
  induction h with
  | nil => cases ha
  | cons hab _ ih =>
    cases List.mem_cons.mp ha with
    | inl heq => exact ⟨_, List.mem_cons_self, heq ▸ hab⟩
    | inr ha =>
      obtain ⟨b, hb, hrel⟩ := ih ha
      exact ⟨b, List.mem_cons_of_mem _ hb, hrel⟩

theorem sum_map_set {f : α → Nat} {i : Nat} {a b : α} (h : l[i]? = some a) :
    ((l.set i b).map f).sum + f a = (l.map f).sum + f b := by
  induction l generalizing i with
  | nil => cases h
  | cons x l ih =>
    cases i with
    | zero =>
      cases h
      simp only [List.set_cons_zero, List.map_cons, List.sum_cons]
      omega
    | succ i =>
      have hrest := ih h
      simp only [List.set_cons_succ, List.map_cons, List.sum_cons]
      omega

theorem sum_map_zero {f : α → Nat} (h : ∀ a ∈ l, f a = 0) : (l.map f).sum = 0 := by
  apply List.sum_eq_zero
  intro n hn
  obtain ⟨a, ha, rfl⟩ := List.mem_map.mp hn
  exact h a ha

end Framework
