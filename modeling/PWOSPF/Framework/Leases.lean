import Mathlib.Data.List.DropRight
import Mathlib.Order.Basic

/-!
# Lists of leases

A list whose entries stand for a key and are live up to some time. A list has at most one live entry
for each key if it starts so, entries die for good, a new entry is added only for a key without a
live one, and only live entries are renewed.
-/

namespace Framework

variable {α κ τ : Type*} {key : α → κ} {live : τ → α → Prop} {t t' : τ} {l : List α}

/-- At time `t`, no two entries with the same key are live. -/
def OneLive (key : α → κ) (live : τ → α → Prop) (t : τ) (l : List α) : Prop :=
  l.Pairwise fun a b => key a = key b → live t a → ¬ live t b

theorem OneLive.nil : OneLive key live t [] := List.Pairwise.nil

theorem OneLive.sublist {l' : List α} (h : OneLive key live t l) (hsub : l'.Sublist l) :
    OneLive key live t l' :=
  List.Pairwise.sublist hsub h

theorem OneLive.later [Preorder τ] (hdie : ∀ a, ∀ t t' : τ, t ≤ t' → live t' a → live t a)
    (h : OneLive key live t l) (ht : t ≤ t') : OneLive key live t' l := by
  apply List.Pairwise.imp _ h
  intro a b hab hkey ha hb
  exact hab hkey (hdie a t t' ht ha) (hdie b t t' ht hb)

theorem OneLive.concat {x : α} (h : OneLive key live t l)
    (hnew : ∀ a ∈ l, key a = key x → ¬ live t a) : OneLive key live t (l ++ [x]) := by
  apply List.pairwise_append.mpr
  refine ⟨h, List.pairwise_singleton _ _, ?_⟩
  intro a ha b hb hkey hlive
  rw [List.mem_singleton.mp hb] at hkey
  exact absurd hlive (hnew a ha hkey)

theorem OneLive.unique {i j : Nat} {a b : α} (h : OneLive key live t l) (ha : l[i]? = some a)
    (hb : l[j]? = some b) (hkey : key a = key b) (hlivea : live t a) (hliveb : live t b) : i = j := by
  obtain ⟨hi, rfl⟩ := List.getElem?_eq_some_iff.mp ha
  obtain ⟨hj, rfl⟩ := List.getElem?_eq_some_iff.mp hb
  rw [OneLive, List.pairwise_iff_getElem] at h
  by_contra hne
  cases Nat.lt_or_gt_of_ne hne with
  | inl hlt => exact h i j hi hj hlt hkey hlivea hliveb
  | inr hgt => exact h j i hj hi hgt hkey.symm hliveb hlivea

/-- The other entries with the key of a live entry are dead, whatever becomes of it. -/
theorem OneLive.modify {i : Nat} {f : α → α} (h : OneLive key live t l)
    (hkey : ∀ a, key (f a) = key a) (hlive : ∀ a, l[i]? = some a → live t a) :
    OneLive key live t (l.modify i f) := by
  rw [OneLive, List.pairwise_iff_getElem] at h ⊢
  intro j k hj hk hjk
  rw [List.length_modify] at hj hk
  have hjk' := h j k hj hk hjk
  rw [List.getElem_modify, List.getElem_modify]
  by_cases hij : i = j
  · have hi : live t l[j] := hlive _ (hij ▸ List.getElem?_eq_getElem hj)
    rw [if_pos hij, if_neg (by omega), hkey]
    intro heq _
    exact hjk' heq hi
  · rw [if_neg hij]
    by_cases hik : i = k
    · have hi : live t l[k] := hlive _ (hik ▸ List.getElem?_eq_getElem hk)
      rw [if_pos hik, hkey]
      intro heq hj'
      exact absurd hi (hjk' heq hj')
    · rw [if_neg hik]
      exact hjk'

/-- The end of a list on which `p` holds is that of its tail, unless `p` holds on all of it. -/
theorem rtakeWhile_cons {p : α → Bool} {x : α} (h : ∃ y ∈ x :: l, p y = false) :
    (x :: l).rtakeWhile p = l.rtakeWhile p := by
  induction l using List.reverseRecOn with
  | nil =>
    obtain ⟨y, hy, hp⟩ := h
    rw [List.mem_singleton.mp hy] at hp
    simp [List.rtakeWhile, hp]
  | append_singleton l z ih =>
    rw [← List.cons_append, List.rtakeWhile_concat, List.rtakeWhile_concat]
    by_cases hz : p z = true
    · rw [if_pos hz, if_pos hz, ih]
      obtain ⟨y, hy, hp⟩ := h
      rw [← List.cons_append] at hy
      cases List.mem_append.mp hy with
      | inl hy => exact ⟨y, hy, hp⟩
      | inr hy =>
        rw [List.mem_singleton.mp hy, hz] at hp
        cases hp
    · rw [if_neg hz, if_neg hz]

/-- The end of a list on which `p` holds is all that `p` holds on, unless an entry with `p` stands in
front of one without. -/
theorem rtakeWhile_eq_filter_iff {p : α → Bool} :
    l.rtakeWhile p = l.filter p ↔ l.Pairwise fun x y => p x = true → p y = true := by
  induction l using List.reverseRecOn with
  | nil => simp
  | append_singleton l z ih =>
    rw [List.rtakeWhile_concat, List.filter_append, List.pairwise_append]
    by_cases hz : p z = true
    · simp [hz, ih]
    · have hlast : [z].filter p = [] := by simp [hz]
      rw [if_neg hz, hlast, List.append_nil, eq_comm, List.filter_eq_nil_iff]
      constructor
      · intro hnone
        refine ⟨List.pairwise_of_forall_mem_list ?_, List.pairwise_singleton _ _, ?_⟩
        · exact fun x hx _ _ hpx => absurd hpx (hnone x hx)
        · exact fun x hx _ _ hpx => absurd hpx (hnone x hx)
      · exact fun h x hx hpx => hz (h.2.2 x hx z List.mem_cons_self hpx)

end Framework
