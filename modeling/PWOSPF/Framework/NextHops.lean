import Mathlib.Data.Nat.Find
import PWOSPF.Framework.HopDistance

/-!
# Next hops

Every node of a graph passes on what is meant for the nearest of some targets. Next hops that are
edges to a node one step nearer bring it there, over a shortest walk and without a loop, although each
of them is chosen by another node.
-/

namespace Framework

variable {α β : Type*} {E : α → α → Prop} {target : α → Prop} {n m : Nat} {u v w : α}

theorem Walk.head (h : Walk E (n + 1) u v) : ∃ w, E u w ∧ Walk E n w v := by
  induction n generalizing v with
  | zero =>
    cases h with
    | snoc hnil he =>
      cases hnil
      exact ⟨v, he, .nil v⟩
  | succ n ih =>
    cases h with
    | snoc hwalk he =>
      obtain ⟨w, hw, hrest⟩ := ih hwalk
      exact ⟨w, hw, .snoc hrest he⟩

/-- A walk is followed by one between related nodes. -/
theorem Walk.simulate {F : β → β → Prop} {R : α → β → Prop}
    (hstep : ∀ u v a, E u v → R u a → ∃ b, R v b ∧ F a b) (h : Walk E n u v) {a : β} (hu : R u a) :
    ∃ b, R v b ∧ Walk F n a b := by
  induction h with
  | nil => exact ⟨a, hu, .nil a⟩
  | snoc _ he ih =>
    obtain ⟨b, hb, hwalk⟩ := ih hu
    obtain ⟨c, hc, hbc⟩ := hstep _ _ _ he hb
    exact ⟨c, hc, .snoc hwalk hbc⟩

/-- Some walk is a shortest one. -/
theorem Walk.hopDist (h : Walk E m u v) : ∃ n ≤ m, HopDist E u v n := by
  classical
  have hex : ∃ n, Walk E n u v := ⟨m, h⟩
  exact ⟨Nat.find hex, Nat.find_min' hex h, Nat.find_spec hex, fun _ hk => Nat.find_min' hex hk⟩

/-- `n` is the length of a shortest walk from `u` to a target. -/
structure Nearest (E : α → α → Prop) (target : α → Prop) (u : α) (n : Nat) : Prop where
  walk : ∃ v, target v ∧ Walk E n u v
  le : ∀ v m, target v → Walk E m u v → n ≤ m

theorem Nearest.unique (h : Nearest E target u n) (h' : Nearest E target u m) : n = m := by
  obtain ⟨v, hv, hwalk⟩ := h.walk
  obtain ⟨v', hv', hwalk'⟩ := h'.walk
  exact Nat.le_antisymm (h.le v' m hv' hwalk') (h'.le v n hv hwalk)

theorem Nearest.zero (h : target u) : Nearest E target u 0 :=
  ⟨⟨u, h, .nil u⟩, fun _ m _ _ => Nat.zero_le m⟩

theorem Nearest.target_of_zero (h : Nearest E target u 0) : target u := by
  obtain ⟨v, hv, hwalk⟩ := h.walk
  cases hwalk
  exact hv

/-- The second node of a shortest walk is one nearer. -/
theorem Nearest.step (h : Nearest E target u (n + 1)) (he : E u w) (hv : target v)
    (hwalk : Walk E n w v) : Nearest E target w n := by
  refine ⟨⟨v, hv, hwalk⟩, ?_⟩
  intro v' m hv' hwalk'
  exact Nat.le_of_succ_le_succ (h.le v' (m + 1) hv' (.cons he hwalk'))

theorem Nearest.congr {target' : α → Prop} (h : Nearest E target u n)
    (ht : ∀ v, target v ↔ target' v) : Nearest E target' u n := by
  have heq : target = target' := funext fun v => propext (ht v)
  exact heq ▸ h

/-- The nodes of two graphs correspond, with their edges and the targets. -/
theorem Nearest.transfer {F : β → β → Prop} {R : α → β → Prop} {target' : β → Prop}
    (h : Nearest E target u n) {a : β} (hu : R u a)
    (hto : ∀ u v a, E u v → R u a → ∃ b, R v b ∧ F a b)
    (hfrom : ∀ a b u, F a b → R u a → ∃ v, R v b ∧ E u v)
    (htarget : ∀ u a, R u a → (target u ↔ target' a)) : Nearest F target' a n := by
  constructor
  · obtain ⟨v, hv, hwalk⟩ := h.walk
    obtain ⟨b, hb, hwalk'⟩ := hwalk.simulate hto hu
    exact ⟨b, (htarget v b hb).mp hv, hwalk'⟩
  · intro b m hb hwalk
    obtain ⟨v, hv, hwalk'⟩ :=
      hwalk.simulate (R := fun b v => R v b) (fun a b u hab hua => hfrom a b u hab hua) hu
    exact h.le v m ((htarget v b hv).mpr hb) hwalk'

/-- Every node that is no target has a next hop, and next hops are edges to a node that is one step
nearer. -/
structure NextHops (E : α → α → Prop) (target : α → Prop) (next : α → α → Prop) : Prop where
  edge : ∀ u w, next u w → E u w
  nearer : ∀ u w, next u w → ∃ n, Nearest E target u (n + 1) ∧ Nearest E target w n
  passes : ∀ u n, Nearest E target u (n + 1) → ∃ w, next u w

section NextHops

variable {next : α → α → Prop} (h : NextHops E target next)
include h

/-- What is passed on arrives. -/
theorem NextHops.arrives (hu : Nearest E target u n) : ∃ v, target v ∧ Walk next n u v := by
  induction n generalizing u with
  | zero => exact ⟨u, hu.target_of_zero, .nil u⟩
  | succ n ih =>
    obtain ⟨w, hw⟩ := h.passes u n hu
    obtain ⟨k, hk, hnearer⟩ := h.nearer u w hw
    obtain rfl : k = n := Nat.succ.inj (hk.unique hu)
    obtain ⟨v, hv, hwalk⟩ := ih hnearer
    exact ⟨v, hv, .cons hw hwalk⟩

/-- It is nearer by as many steps as it has been passed on. -/
theorem NextHops.nearest_of_walk (hu : Nearest E target u n) (hwalk : Walk next m u v) :
    m ≤ n ∧ Nearest E target v (n - m) := by
  induction hwalk with
  | nil => exact ⟨Nat.zero_le n, hu⟩
  | @snoc m u v w _ hvw ih =>
    obtain ⟨hle, hv⟩ := ih hu
    obtain ⟨k, hk, hw⟩ := h.nearer v w hvw
    have hlen : n - m = k + 1 := hv.unique hk
    refine ⟨by omega, ?_⟩
    rw [Nat.sub_succ, hlen]
    exact hw

end NextHops

end Framework
