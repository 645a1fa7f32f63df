import Mathlib.Data.List.Perm.Basic
import Mathlib.Data.List.Nodup

/-!
# Deletion by moving the last element

An unordered array drops one position by copying its last element over it and shrinking by one.
The result is a permutation of the ordinary order-preserving deletion, which is all that the
membership, duplicate and counting arguments need.
-/

namespace Framework

variable {α : Type*}

/-- Overwrite position `i` with the last element and drop the last position. -/
def swapErase (l : List α) (i : Nat) : List α :=
  match l.getLast? with
  | none => l
  | some x => (l.set i x).dropLast

/-- Swap-delete the first element that satisfies `p`, if there is one. -/
def swapEraseP (p : α → Bool) (l : List α) : List α :=
  match l.findIdx? p with
  | none => l
  | some i => swapErase l i

theorem swapErase_perm (l : List α) (i : Nat) (hi : i < l.length) :
    (swapErase l i).Perm (l.eraseIdx i) := by
  rcases List.eq_nil_or_concat l with rfl | ⟨init, x, rfl⟩
  · simp at hi
  · have hdef : swapErase (init.concat x) i = ((init.concat x).set i x).dropLast := by
      simp [swapErase]
    rw [hdef]
    simp only [List.concat_eq_append, List.length_append, List.length_singleton] at hi ⊢
    by_cases hlast : i < init.length
    · rw [List.set_append_left _ _ hlast, List.dropLast_concat,
        List.eraseIdx_append_of_lt_length hlast]
      exact (List.set_perm_cons_eraseIdx hlast x).trans (List.perm_append_singleton _ _).symm
    · have he : i = init.length := by omega
      subst he
      rw [List.set_append_right _ _ (Nat.le_refl _), List.eraseIdx_append_of_length_le (Nat.le_refl _)]
      simp

theorem length_swapErase (l : List α) (i : Nat) (hi : i < l.length) :
    (swapErase l i).length = l.length - 1 := by
  rw [(swapErase_perm l i hi).length_eq, List.length_eraseIdx_of_lt hi]

theorem swapEraseP_perm (p : α → Bool) (l : List α) : (swapEraseP p l).Perm (l.eraseP p) := by
  rw [List.eraseP_eq_eraseIdx, swapEraseP]
  cases hi : l.findIdx? p with
  | none => rfl
  | some i => exact swapErase_perm l i (List.findIdx?_eq_some_iff_findIdx_eq.mp hi).1

theorem length_swapEraseP_lt {p : α → Bool} {l : List α} {a : α} (ha : a ∈ l)
    (hp : p a = true) : (swapEraseP p l).length < l.length := by
  rw [(swapEraseP_perm p l).length_eq, List.length_eraseP, if_pos (List.any_eq_true.mpr ⟨a, ha, hp⟩)]
  have := List.length_pos_of_mem ha
  omega

theorem length_swapEraseP_le (p : α → Bool) (l : List α) :
    (swapEraseP p l).length ≤ l.length := by
  rw [(swapEraseP_perm p l).length_eq]
  exact List.length_eraseP_le

theorem mem_of_mem_swapEraseP {p : α → Bool} {l : List α} {a : α} (ha : a ∈ swapEraseP p l) :
    a ∈ l :=
  List.mem_of_mem_eraseP ((swapEraseP_perm p l).mem_iff.mp ha)

theorem mem_swapEraseP_of_not {p : α → Bool} {l : List α} {a : α} (ha : a ∈ l)
    (hp : p a = false) : a ∈ swapEraseP p l := by
  rw [(swapEraseP_perm p l).mem_iff, List.mem_eraseP_of_neg (by simp [hp])]
  exact ha

theorem nodup_swapEraseP {p : α → Bool} {l : List α} (hl : l.Nodup) : (swapEraseP p l).Nodup :=
  (swapEraseP_perm p l).nodup_iff.mpr (hl.sublist List.eraseP_sublist)

theorem swapEraseP_of_forall_not {p : α → Bool} {l : List α} (h : ∀ a ∈ l, p a = false) :
    swapEraseP p l = l := by
  have hnone : l.findIdx? p = none := List.findIdx?_eq_none_iff.mpr h
  simp [swapEraseP, hnone]

/-- Where `p` holds of at most one element, that element is gone afterwards and no other is. -/
theorem mem_swapEraseP_iff_of_unique {p : α → Bool} {l : List α} (hl : l.Nodup)
    (hu : ∀ a ∈ l, ∀ b ∈ l, p a → p b → a = b) {a : α} :
    a ∈ swapEraseP p l ↔ a ∈ l ∧ p a = false := by
  rw [(swapEraseP_perm p l).mem_iff]
  constructor
  · intro ha
    have hmem := List.mem_of_mem_eraseP ha
    refine ⟨hmem, ?_⟩
    by_contra hpa
    have hpa' : p a := by simpa using hpa
    obtain ⟨b, l₁, l₂, -, hb, hsplit, herase⟩ := List.exists_of_eraseP hmem hpa'
    have hab : a = b := hu a hmem b (by simp [hsplit]) hpa' hb
    subst hab
    rw [hsplit] at hl
    rw [herase] at ha
    exact (List.nodup_middle.mp hl).notMem ha
  · rintro ⟨ha, hp⟩
    rwa [List.mem_eraseP_of_neg (by simp [hp])]

theorem countP_swapEraseP_le (p q : α → Bool) (l : List α) :
    (swapEraseP p l).countP q ≤ l.countP q := by
  rw [(swapEraseP_perm p l).countP_eq]
  exact List.eraseP_sublist.countP_le

/-- A part in front without a match is left alone. -/
theorem swapEraseP_append {p : α → Bool} {pre : List α} (hpre : ∀ a ∈ pre, p a = false)
    (l : List α) : swapEraseP p (pre ++ l) = pre ++ swapEraseP p l := by
  have hnone : pre.findIdx? p = none := List.findIdx?_eq_none_iff.mpr hpre
  rw [swapEraseP, swapEraseP, List.findIdx?_append, hnone, Option.none_or]
  cases hi : l.findIdx? p with
  | none => rfl
  | some i =>
    obtain ⟨hlt, -⟩ := List.findIdx?_eq_some_iff_findIdx_eq.mp hi
    obtain ⟨init, x, rfl⟩ := List.eq_nil_or_concat l |>.resolve_left (by rintro rfl; simp at hlt)
    simp only [Option.map_some, swapErase, List.concat_eq_append,
      ← List.append_assoc, List.getLast?_concat]
    rw [List.append_assoc, Nat.add_comm, List.set_append_right _ _ (Nat.le_add_right _ _),
      Nat.add_sub_cancel_left, List.dropLast_append_of_ne_nil]
    simp

/-- What is kept is all there if the deleted element is not to be kept. -/
theorem filter_swapEraseP_of_find {p q : α → Bool} {l : List α}
    (h : ∀ a ∈ l.find? p, q a = false) : ((swapEraseP p l).filter q).Perm (l.filter q) := by
  apply ((swapEraseP_perm p l).filter q).trans
  induction l with
  | nil => rfl
  | cons a l ih =>
    by_cases hp : p a
    · have hq := h a (by simp [hp])
      rw [List.eraseP_cons_of_pos hp, List.filter_cons_of_neg (by simp [hq])]
    · rw [List.eraseP_cons_of_neg hp, List.filter_cons, List.filter_cons]
      have ih' := ih (by simpa [hp] using h)
      split
      · exact ih'.cons a
      · exact ih'

theorem countP_swapEraseP_of_find {p q : α → Bool} {l : List α} {a : α} (h : l.find? p = some a)
    (hq : q a = true) : (swapEraseP p l).countP q < l.countP q := by
  rw [(swapEraseP_perm p l).countP_eq]
  induction l with
  | nil => cases h
  | cons x l ih =>
    by_cases hp : p x
    · rw [List.find?_cons_of_pos hp, Option.some.injEq] at h
      subst h
      rw [List.eraseP_cons_of_pos hp, List.countP_cons_of_pos hq]
      exact Nat.lt_succ_self _
    · rw [List.find?_cons_of_neg hp] at h
      rw [List.eraseP_cons_of_neg hp, List.countP_cons, List.countP_cons]
      exact Nat.add_lt_add_right (ih h) _

/-- A swap-deletion takes exactly one of the matching elements away. -/
theorem countP_swapEraseP (p : α → Bool) (l : List α) :
    (swapEraseP p l).countP p = l.countP p - 1 := by
  rw [(swapEraseP_perm p l).countP_eq]
  induction l with
  | nil => rfl
  | cons a l ih =>
    by_cases hp : p a
    · simp [hp]
    · simp [hp, ih]

/-- Elements that cannot be the deleted one are all still there. -/
theorem filter_swapEraseP_perm {p q : α → Bool} (h : ∀ a, p a → q a = false) (l : List α) :
    ((swapEraseP p l).filter q).Perm (l.filter q) :=
  filter_swapEraseP_of_find fun a ha => h a (List.find?_some ha)

theorem countP_swapEraseP_of_disjoint {p q : α → Bool} (h : ∀ a, p a → q a = false) (l : List α) :
    (swapEraseP p l).countP q = l.countP q := by
  rw [List.countP_eq_length_filter, List.countP_eq_length_filter,
    (filter_swapEraseP_perm h l).length_eq]

/-- The same for a weaker property than the one the deleted element was looked up by. -/
theorem countP_swapEraseP_of_imp {p q : α → Bool} {l : List α} (hpq : ∀ a, p a → q a) {a : α}
    (ha : a ∈ l) (hp : p a = true) : (swapEraseP p l).countP q = l.countP q - 1 := by
  rw [(swapEraseP_perm p l).countP_eq]
  obtain ⟨b, l₁, l₂, -, hb, hsplit, herase⟩ := List.exists_of_eraseP ha hp
  rw [herase, hsplit, List.countP_append, List.countP_append, List.countP_cons, if_pos (hpq b hb)]
  omega

/-- With distinct keys, a list is the entry for a key and the entries for the others. -/
theorem perm_cons_filter_ne {κ : Type*} [DecidableEq κ] {key : α → κ} {l : List α} {a : α}
    (hnd : (l.map key).Nodup) (ha : a ∈ l) : l.Perm (a :: l.filter fun x => key x ≠ key a) := by
  induction l with
  | nil => cases ha
  | cons b l ih =>
    obtain ⟨hb, hnd⟩ := List.nodup_cons.mp hnd
    have hne : ∀ x ∈ l, key x ≠ key b := fun x hx heq => hb (List.mem_map.mpr ⟨x, hx, heq⟩)
    cases List.mem_cons.mp ha with
    | inl heq =>
      rw [heq, List.filter_cons_of_neg (by simp), List.filter_eq_self.mpr (by simpa using hne)]
    | inr hmem =>
      rw [List.filter_cons_of_pos (by simpa using (hne a hmem).symm)]
      exact ((ih hnd hmem).cons b).trans (.swap a b _)
end Framework
