import Mathlib.Order.Lattice
import Mathlib.Data.List.Basic

/-!
# The first least entry of a list

A search for a minimum that only replaces its candidate by a strictly smaller one returns the first
entry, in list order, among those with the least key. The lemmas follow such a search as the part of
the list it has seen grows by one entry.
-/

namespace Framework

variable {α κ : Type*} [LinearOrder κ]

/-- `a` is the first entry of `l` with the least key among the entries that satisfy `p`. -/
structure FirstLeast (p : α → Prop) (key : α → κ) (l : List α) (a : α) : Prop where
  holds : p a
  split : ∃ pre post, l = pre ++ a :: post ∧ (∀ x ∈ pre, p x → key a < key x) ∧
    ∀ x ∈ post, p x → key a ≤ key x

namespace FirstLeast

variable {p : α → Prop} {key : α → κ} {l : List α} {a b : α}

theorem mem (h : FirstLeast p key l a) : a ∈ l := by
  obtain ⟨pre, post, rfl, -, -⟩ := h.split
  simp

theorem le (h : FirstLeast p key l a) {x : α} (hx : x ∈ l) (hp : p x) : key a ≤ key x := by
  obtain ⟨pre, post, rfl, hpre, hpost⟩ := h.split
  rcases List.mem_append.mp hx with hx | hx
  · exact (hpre x hx hp).le
  · rcases List.mem_cons.mp hx with rfl | hx
    · exact le_rfl
    · exact hpost x hx hp

/-- The next entry does not qualify, or is not smaller. -/
theorem keep (h : FirstLeast p key l a) (hb : p b → key a ≤ key b) :
    FirstLeast p key (l ++ [b]) a := by
  obtain ⟨pre, post, rfl, hpre, hpost⟩ := h.split
  refine ⟨h.holds, pre, post ++ [b], by simp, hpre, ?_⟩
  intro x hx hp
  rcases List.mem_append.mp hx with hx | hx
  · exact hpost x hx hp
  · rw [List.mem_singleton] at hx
    subst hx
    exact hb hp

/-- The next entry is smaller than all that qualified before it. -/
theorem take (hb : p b) (hlt : ∀ x ∈ l, p x → key b < key x) : FirstLeast p key (l ++ [b]) b :=
  ⟨hb, l, [], rfl, hlt, by simp⟩

end FirstLeast

end Framework
