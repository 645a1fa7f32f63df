import Mathlib.Tactic.Common

/-!
# Fallible steps and guarded runs

Computations that may fail are values of `Except`; the lemmas here take a sequence of them apart.
`Reach` is the set of states a relation reaches when every step taken meets a side condition on
the state before it, and `Reach.invariant` is its induction principle. `runAll` computes such runs.
-/

namespace Framework

universe u v

section Except

variable {ε : Type u} {α β : Type v}

@[simp] theorem ok_bind (a : α) (f : α → Except ε β) : (Except.ok a >>= f) = f a := rfl

@[simp] theorem error_bind (e : ε) (f : α → Except ε β) :
    ((Except.error e : Except ε α) >>= f) = Except.error e := rfl

@[simp] theorem pure_eq_ok (a : α) : (pure a : Except ε α) = Except.ok a := rfl

theorem bind_eq_ok {x : Except ε α} {f : α → Except ε β} {b : β} :
    (x >>= f) = Except.ok b ↔ ∃ a, x = Except.ok a ∧ f a = Except.ok b := by
  cases x with
  | error e => simp
  | ok a => simp

theorem bind_eq_error {x : Except ε α} {f : α → Except ε β} {e : ε} :
    (x >>= f) = Except.error e ↔
      x = Except.error e ∨ ∃ a, x = Except.ok a ∧ f a = Except.error e := by
  cases x with
  | error e' => simp
  | ok a => simp

theorem map_eq_ok {x : Except ε α} {f : α → β} {b : β} :
    x.map f = Except.ok b ↔ ∃ a, x = Except.ok a ∧ f a = b := by
  cases x with
  | error e => simp [Except.map]
  | ok a => simp [Except.map]

theorem mapM_eq_ok {f : α → Except ε β} {l : List α} {r : List β} (h : l.mapM f = Except.ok r) :
    List.Forall₂ (fun a b => f a = Except.ok b) l r := by
  induction l generalizing r with
  | nil =>
    rw [List.mapM_nil] at h
    cases h
    exact .nil
  | cons a l ih =>
    rw [List.mapM_cons] at h
    obtain ⟨b, hb, h⟩ := bind_eq_ok.mp h
    obtain ⟨bs, hbs, h⟩ := bind_eq_ok.mp h
    cases h
    exact .cons hb (ih hbs)

theorem mapM_ok {f : α → Except ε β} {g : α → β} {l : List α}
    (h : ∀ a ∈ l, f a = Except.ok (g a)) : l.mapM f = Except.ok (l.map g) := by
  induction l with
  | nil => rfl
  | cons a l ih =>
    obtain ⟨ha, hl⟩ := List.forall_mem_cons.mp h
    rw [List.mapM_cons, ha, ok_bind, ih hl]
    rfl

/-- A property of the result, when there is one, is decided by running the computation. -/
instance decidableForallOk {x : Except ε α} {P : α → Prop} [∀ a, Decidable (P a)] :
    Decidable (∀ a, x = Except.ok a → P a) :=
  match x with
  | .error _ => .isTrue fun _ h => nomatch h
  | .ok a => decidable_of_iff (P a) ⟨fun h _ ha => Except.ok.inj ha ▸ h, fun h => h a rfl⟩

end Except

section Reach

variable {σ ι : Type*}

/-- States reached from `s₀` by steps whose input is admitted by `ok` in the state before. -/
inductive Reach (step : σ → ι → σ → Prop) (ok : σ → ι → Prop) (s₀ : σ) : σ → Prop
  | start : Reach step ok s₀ s₀
  | next {s s' : σ} {i : ι} : Reach step ok s₀ s → ok s i → step s i s' → Reach step ok s₀ s'

variable {step : σ → ι → σ → Prop} {ok : σ → ι → Prop} {s₀ : σ}

theorem Reach.invariant {I : σ → Prop} (hstart : I s₀)
    (hstep : ∀ s i s', I s → ok s i → step s i s' → I s') {s : σ}
    (h : Reach step ok s₀ s) : I s := by
  induction h with
  | start => exact hstart
  | next _ hok hs ih => exact hstep _ _ _ ih hok hs

theorem Reach.mono {ok' : σ → ι → Prop} (hle : ∀ s i, ok s i → ok' s i) {s : σ}
    (h : Reach step ok s₀ s) : Reach step ok' s₀ s := by
  induction h with
  | start => exact .start
  | next _ hok hs ih => exact .next ih (hle _ _ hok) hs

theorem Reach.trans {s s' : σ} (h : Reach step ok s₀ s) (h' : Reach step ok s s') :
    Reach step ok s₀ s' := by
  induction h' with
  | start => exact h
  | next _ hok hs ih => exact .next ih hok hs

/-- Runs the inputs one after the other as long as `allow` lets them pass. -/
def runAll {ε : Type*} (run : σ → ι → Except ε σ) (allow : σ → ι → Bool) : List ι → σ → Option σ
  | [], s => some s
  | i :: is, s =>
    if allow s i then
      match run s i with
      | .ok s' => runAll run allow is s'
      | .error _ => none
    else none

theorem Reach.of_runAll {ε : Type*} {run : σ → ι → Except ε σ} {allow : σ → ι → Bool}
    (hallow : ∀ s i s', allow s i = true → run s i = .ok s' → ok s i ∧ step s i s') {is : List ι}
    {s s' : σ} (hs : Reach step ok s₀ s) (h : runAll run allow is s = some s') :
    Reach step ok s₀ s' := by
  induction is generalizing s with
  | nil =>
    cases h
    exact hs
  | cons i is ih =>
    rw [runAll] at h
    by_cases hc : allow s i = true
    · rw [if_pos hc] at h
      cases hrun : run s i with
      | error f =>
        rw [hrun] at h
        cases h
      | ok s₁ =>
        rw [hrun] at h
        obtain ⟨hok, hstep⟩ := hallow s i s₁ hc hrun
        exact ih (.next hs hok hstep) h
    · rw [if_neg hc] at h
      cases h

end Reach

end Framework
