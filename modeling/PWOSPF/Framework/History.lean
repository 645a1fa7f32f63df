import Mathlib.Logic.Relation
import PWOSPF.Framework.Execution

/-!
# Histories

A history of a run lists the state before each step together with the input of the step.
`History.always_iff` decides from the inputs whether every state of a run has a property: where a
step keeps the property exactly if its input is admitted, the whole run keeps it exactly if all of
its inputs were.
-/

namespace Framework

variable {σ ι : Type*}

/-- `past` are the states and inputs a run from `s₀` went through. -/
inductive History (step : σ → ι → σ → Prop) (s₀ : σ) : List (σ × ι) → σ → Prop
  | start : History step s₀ [] s₀
  | next {past : List (σ × ι)} {s s' : σ} {i : ι} : History step s₀ past s → step s i s' →
      History step s₀ (past ++ [(s, i)]) s'

namespace History

variable {step : σ → ι → σ → Prop} {s₀ s s' : σ} {past : List (σ × ι)}

theorem trans {past' : List (σ × ι)} (h : History step s₀ past s) (h' : History step s past' s') :
    History step s₀ (past ++ past') s' := by
  induction h' with
  | start => simpa using h
  | next _ hstep ih =>
    rw [← List.append_assoc]
    exact .next ih hstep

theorem single {i : ι} (h : step s i s') : History step s [(s, i)] s' := .next .start h

/-- A computed run has a history with the inputs that were given. -/
theorem of_runAll {ε κ : Type*} {run : σ → κ → Except ε σ} {allow : σ → κ → Bool} {f : κ → ι}
    (hallow : ∀ s k s', allow s k = true → run s k = .ok s' → step s (f k) s') {ks : List κ}
    (h : runAll run allow ks s = some s') :
    ∃ past, History step s past s' ∧ past.map Prod.snd = ks.map f := by
  induction ks generalizing s with
  | nil =>
    cases h
    exact ⟨[], .start, rfl⟩
  | cons k ks ih =>
    rw [runAll] at h
    by_cases hc : allow s k = true
    · rw [if_pos hc] at h
      cases hrun : run s k with
      | error e =>
        rw [hrun] at h
        cases h
      | ok s₁ =>
        rw [hrun] at h
        obtain ⟨past, hpast, hinputs⟩ := ih h
        refine ⟨_, (single (hallow s k s₁ hc hrun)).trans hpast, ?_⟩
        rw [List.map_append, hinputs]
        rfl
    · rw [if_neg hc] at h
      cases h

theorem invariant {J : σ → Prop} (h₀ : J s₀) (hstep : ∀ s i s', J s → step s i s' → J s')
    (h : History step s₀ past s) : J s := by
  induction h with
  | start => exact h₀
  | next _ hs ih => exact hstep _ _ _ ih hs

/-- `J` holds throughout; a step from a state with `P` leads to one with `P` exactly if its input is
admitted. -/
theorem always_iff {J P : σ → Prop} {ok : σ → ι → Prop} (h₀ : J s₀)
    (hJ : ∀ s i s', J s → step s i s' → J s')
    (hP : ∀ s i s', J s → P s → step s i s' → (P s' ↔ ok s i)) (h : History step s₀ past s) :
    ((∀ x ∈ past, P x.1) ∧ P s) ↔ P s₀ ∧ ∀ x ∈ past, ok x.1 x.2 := by
  induction h with
  | start => simp
  | @next past s s' i hpast hs ih =>
    have hJs := hpast.invariant h₀ hJ
    simp only [List.forall_mem_append, List.forall_mem_singleton]
    constructor
    · rintro ⟨⟨hall, hPs⟩, hPs'⟩
      obtain ⟨hPs₀, hok⟩ := ih.mp ⟨hall, hPs⟩
      exact ⟨hPs₀, hok, (hP s i s' hJs hPs hs).mp hPs'⟩
    · rintro ⟨hPs₀, hok, hoki⟩
      obtain ⟨hall, hPs⟩ := ih.mpr ⟨hPs₀, hok⟩
      exact ⟨⟨hall, hPs⟩, (hP s i s' hJs hPs hs).mpr hoki⟩

end History

end Framework
