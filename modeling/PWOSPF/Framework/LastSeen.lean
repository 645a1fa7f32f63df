import Mathlib.Data.List.Chain
import Mathlib.Data.List.Nodup

/-!
# Receivers that remember the last number of every source

Such a receiver refuses a number equal to the last one it accepted from the source. Its log never
has the same number of a source twice in a row, and if the numbers of every source arrive in order
this already makes all entries distinct.
-/

namespace Framework

variable {κ σ τ : Type*} [DecidableEq κ] {log : List (κ × σ)} {k : κ} {s : σ}

/-- The numbers of one source, oldest first. -/
def numbersOf (k : κ) (log : List (κ × σ)) : List σ := (log.filter fun x => x.1 = k).map Prod.snd

theorem numbersOf_append (k : κ) (log log' : List (κ × σ)) :
    numbersOf k (log ++ log') = numbersOf k log ++ numbersOf k log' := by
  rw [numbersOf, List.filter_append, List.map_append]
  rfl

theorem numbersOf_cons_self (k : κ) (s : σ) (log : List (κ × σ)) :
    numbersOf k ((k, s) :: log) = s :: numbersOf k log := by
  rw [numbersOf, List.filter_cons_of_pos (by simp), List.map_cons]
  rfl

theorem numbersOf_concat (k k' : κ) (s : σ) (log : List (κ × σ)) :
    numbersOf k (log ++ [(k', s)]) =
      if k' = k then numbersOf k log ++ [s] else numbersOf k log := by
  rw [numbersOf_append]
  by_cases h : k' = k
  · rw [if_pos h, h, numbersOf_cons_self]
    rfl
  · rw [if_neg h, numbersOf, numbersOf, List.filter_cons_of_neg (by simpa using h)]
    simp

theorem mem_numbersOf : s ∈ numbersOf k log ↔ (k, s) ∈ log := by
  simp [numbersOf]

theorem numbersOf_sublist {log' : List (κ × σ)} (h : log.Sublist log') (k : κ) :
    (numbersOf k log).Sublist (numbersOf k log') :=
  (h.filter _).map _

/-- No source has the same number twice in a row. -/
def NeverRepeats (log : List (κ × σ)) : Prop := ∀ k, (numbersOf k log).IsChain (· ≠ ·)

namespace NeverRepeats

theorem concat (h : NeverRepeats log)
    (hnew : ∀ s', (numbersOf k log).getLast? = some s' → s' ≠ s) :
    NeverRepeats (log ++ [(k, s)]) := by
  intro k'
  rw [numbersOf_concat]
  by_cases hk : k = k'
  · subst hk
    rw [if_pos rfl]
    apply (h k).append (.singleton s)
    intro s' hs' y hy
    cases hy
    exact hnew s' hs'
  · rw [if_neg hk]
    exact h k'

/-- Between two equal entries the source got another number accepted. -/
theorem separated {pre mid post : List (κ × σ)}
    (h : NeverRepeats (pre ++ (k, s) :: mid ++ (k, s) :: post)) :
    ∃ s', (k, s') ∈ mid ∧ s' ≠ s := by
  have hchain := h k
  rw [numbersOf_append, numbersOf_append, numbersOf_cons_self, numbersOf_cons_self,
    List.append_assoc] at hchain
  have htail := hchain.right_of_append
  cases hmid : numbersOf k mid with
  | nil =>
    rw [hmid] at htail
    exact absurd rfl (List.isChain_cons_cons.mp htail).1
  | cons s' rest =>
    rw [hmid] at htail
    exact ⟨s', mem_numbersOf.mp (by simp [hmid]), Ne.symm (List.isChain_cons_cons.mp htail).1⟩

/-- A sorted list without equal neighbors is strictly sorted. -/
theorem pairwise_lt [PartialOrder τ] {f : σ → τ} (hf : Function.Injective f) {l : List σ}
    (hne : l.IsChain (· ≠ ·)) (hle : l.Pairwise fun a b => f a ≤ f b) :
    l.Pairwise fun a b => f a < f b := by
  induction l with
  | nil => exact .nil
  | cons a l ih =>
    obtain ⟨ha, hle'⟩ := List.pairwise_cons.mp hle
    apply List.Pairwise.cons _ (ih hne.tail hle')
    cases l with
    | nil =>
      intro c hc
      cases hc
    | cons b l =>
      have hab : f a < f b :=
        lt_of_le_of_ne (ha b List.mem_cons_self) (hf.ne (List.isChain_cons_cons.mp hne).1)
      intro c hc
      rcases List.mem_cons.mp hc with rfl | hc
      · exact hab
      · exact lt_of_lt_of_le hab ((List.pairwise_cons.mp hle').1 c hc)

/-- With the numbers of every source in order, no entry occurs twice. -/
theorem nodup [PartialOrder τ] {f : σ → τ} (h : NeverRepeats log) (hf : Function.Injective f)
    (hsorted : ∀ k, (numbersOf k log).Pairwise fun a b => f a ≤ f b) : log.Nodup := by
  have hnumbers : ∀ k, (numbersOf k log).Nodup := by
    intro k
    apply (pairwise_lt hf (h k) (hsorted k)).imp
    intro a b hab heq
    rw [heq] at hab
    exact lt_irrefl _ hab
  rw [List.nodup_iff_sublist]
  intro x hx
  have hpair := numbersOf_sublist hx x.1
  rw [numbersOf_cons_self, numbersOf_cons_self] at hpair
  exact List.nodup_iff_sublist.mp (hnumbers x.1) x.2 hpair

end NeverRepeats

end Framework
