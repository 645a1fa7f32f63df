import Mathlib.Logic.Function.Basic
import Mathlib.Tactic.Common

/-!
# Hop distances and label-setting search

Walks in an arbitrary directed relation, their least length, and the classical single-source
search with unit weights: a node carries a settled flag, a signed distance label (negative while
unreached) and a predecessor. `Labels.Sound` is the search invariant; it is kept by settling a
nearest reached node and by relaxing its edges one at a time, in any order.
-/

namespace Framework

variable {α : Type*}

/-- A walk of `n` edges. -/
inductive Walk (E : α → α → Prop) : Nat → α → α → Prop
  | nil (u : α) : Walk E 0 u u
  | snoc {n : Nat} {u v w : α} : Walk E n u v → E v w → Walk E (n + 1) u w

def Connected (E : α → α → Prop) (u v : α) : Prop := ∃ n, Walk E n u v

/-- `n` is the length of a shortest walk from `u` to `v`. -/
structure HopDist (E : α → α → Prop) (u v : α) (n : Nat) : Prop where
  walk : Walk E n u v
  le : ∀ m, Walk E m u v → n ≤ m

/-- `v` lies on a shortest walk from `u` to `w`. -/
def OnShortestWalk (E : α → α → Prop) (u v w : α) : Prop :=
  ∃ m n, Walk E m u v ∧ Walk E n v w ∧ HopDist E u w (m + n)

theorem HopDist.of_edge {E : α → α → Prop} {u v : α} (he : E u v) (hne : u ≠ v) :
    HopDist E u v 1 := by
  refine ⟨.snoc (.nil u) he, fun m hm => ?_⟩
  cases hm with
  | nil => exact absurd rfl hne
  | snoc _ _ => omega

theorem Walk.cons {E : α → α → Prop} {n : Nat} {u v w : α} (he : E u v) (hw : Walk E n v w) :
    Walk E (n + 1) u w := by
  induction hw with
  | nil => exact .snoc (.nil u) he
  | snoc _ hlast ih => exact .snoc (ih he) hlast

theorem Walk.congr {E F : α → α → Prop} (h : ∀ u v, E u v ↔ F u v) {n : Nat} {u v : α}
    (hw : Walk E n u v) : Walk F n u v := by
  induction hw with
  | nil u => exact .nil u
  | snoc _ he ih => exact .snoc ih ((h _ _).mp he)

theorem HopDist.congr {E F : α → α → Prop} (h : ∀ u v, E u v ↔ F u v) {n : Nat} {u v : α}
    (hd : HopDist E u v n) : HopDist F u v n :=
  ⟨hd.walk.congr h, fun m hm => hd.le m (hm.congr fun a b => (h a b).symm)⟩

/-- What the search records about every node. -/
structure Labels (α : Type*) where
  known : α → Bool
  dist : α → Int
  prev : α → Option α

namespace Labels

/-- The search invariant; `pending` holds the edges out of settled nodes not yet offered. -/
structure Sound (E : α → α → Prop) (s : α) (L : Labels α) (pending : α → α → Prop) : Prop where
  source : L.dist s = 0
  sourcePrev : L.prev s = none
  unreached : ∀ v, L.dist v < 0 → L.dist v = -1
  walk : ∀ v, 0 ≤ L.dist v → Walk E (L.dist v).toNat s v
  prevEdge : ∀ v u, L.prev v = some u →
    L.known u = true ∧ E u v ∧ L.dist v = L.dist u + 1
  prevNone : ∀ v, L.prev v = none ↔ v = s ∨ L.dist v < 0
  reached : ∀ v, L.known v = true → 0 ≤ L.dist v
  mono : ∀ v w, L.known v = true → L.known w = false → 0 ≤ L.dist w → L.dist v ≤ L.dist w
  relaxed : ∀ u w, L.known u = true → E u w → ¬ pending u w →
    0 ≤ L.dist w ∧ L.dist w ≤ L.dist u + 1

section Back

variable {E : α → α → Prop} {s : α} {L : Labels α} {pending : α → α → Prop}
  (h : Sound E s L pending) {v : α}
include h

theorem Sound.exists_prev (hpos : 0 < L.dist v) :
    ∃ u, L.prev v = some u ∧ E u v ∧ L.dist v = L.dist u + 1 := by
  have hne : L.prev v ≠ none := by
    intro hnone
    cases (h.prevNone v).mp hnone with
    | inl heq =>
      rw [heq, h.source] at hpos
      exact absurd hpos (Int.lt_irrefl 0)
    | inr hneg => exact absurd hneg (Int.not_lt.mpr (Int.le_of_lt hpos))
  obtain ⟨u, hu⟩ := Option.ne_none_iff_exists'.mp hne
  obtain ⟨-, hedge, hdist⟩ := h.prevEdge v u hu
  exact ⟨u, hu, hedge, hdist⟩

/-- Only the source has the label 0. -/
theorem Sound.eq_source (hzero : L.dist v = 0) : v = s := by
  have hw := h.walk v (Int.le_of_eq hzero.symm)
  rw [hzero] at hw
  cases hw
  rfl

end Back

section Final

variable {E : α → α → Prop} {s : α} {L : Labels α} (h : Sound E s L (fun _ _ => False))
  (hdone : ∀ v, 0 ≤ L.dist v → L.known v = true)
include h hdone

/-- Once no reached node is left unsettled, no walk is shorter than its end's label. -/
theorem Sound.dist_le {n : Nat} {v : α} (hw : Walk E n s v) :
    0 ≤ L.dist v ∧ L.dist v ≤ n := by
  suffices ∀ u, Walk E n u v → u = s → 0 ≤ L.dist v ∧ L.dist v ≤ n from this s hw rfl
  intro u hwu
  induction hwu with
  | nil =>
    rintro rfl
    rw [h.source]
    simp
  | snoc _ he ih =>
    intro hus
    obtain ⟨h0, hle⟩ := ih (hus ▸ by assumption) hus
    have hr := h.relaxed _ _ (hdone _ h0) he id
    push_cast
    omega

theorem Sound.hopDist_iff {n : Nat} {v : α} : HopDist E s v n ↔ L.dist v = n := by
  constructor
  · intro hd
    obtain ⟨h0, hle⟩ := h.dist_le hdone hd.walk
    have hge := hd.le _ (h.walk v h0)
    omega
  · intro hd
    have hw := h.walk v (by omega)
    rw [hd, Int.toNat_natCast] at hw
    refine ⟨hw, fun m hm => ?_⟩
    have := (h.dist_le hdone hm).2
    omega

theorem Sound.connected_iff {v : α} : Connected E s v ↔ 0 ≤ L.dist v :=
  ⟨fun ⟨_, hw⟩ => (h.dist_le hdone hw).1, fun h0 => ⟨_, h.walk v h0⟩⟩

end Final

variable [DecidableEq α]

/-- Every node unreached except the source. -/
def start (s : α) : Labels α :=
  ⟨fun _ => false, Function.update (fun _ => -1) s 0, fun _ => none⟩

def settle (L : Labels α) (u : α) : Labels α :=
  { L with known := Function.update L.known u true }

@[simp] theorem settle_known_self (L : Labels α) (u : α) : (L.settle u).known u = true := by
  simp [settle]

theorem settle_known_of_ne (L : Labels α) {u v : α} (h : v ≠ u) :
    (L.settle u).known v = L.known v := by
  simp [settle, h]

/-- Offer the edge from `u` to `w`. -/
def relax (L : Labels α) (u w : α) : Labels α :=
  if L.known w = false ∧ (L.dist u + 1 < L.dist w ∨ L.dist w < 0) then
    { L with
      dist := Function.update L.dist w (L.dist u + 1)
      prev := Function.update L.prev w (some u) }
  else L

theorem sound_start (E : α → α → Prop) (s : α) : Sound E s (start s) (fun _ _ => False) := by
  have hne : ∀ v, v ≠ s → (start s).dist v = -1 := by
    intro v hv
    simp [start, hv]
  have hs : (start s).dist s = 0 := by simp [start]
  refine ⟨hs, rfl, ?_, ?_, ?_, ?_, ?_, ?_, ?_⟩
  · intro v hv
    by_cases h : v = s
    · subst h; rw [hs] at hv; omega
    · exact hne v h
  · intro v hv
    by_cases h : v = s
    · subst h; rw [hs]; exact .nil v
    · rw [hne v h] at hv; omega
  · intro v u h; cases h
  · intro v
    refine ⟨fun _ => ?_, fun _ => rfl⟩
    by_cases h : v = s
    · exact Or.inl h
    · right; rw [hne v h]; omega
  · intro v h; cases h
  · intro v w h; cases h
  · intro u w h; cases h

/-- Settling a nearest reached node leaves only its own edges to be offered. -/
theorem Sound.settle {E : α → α → Prop} {s : α} {L : Labels α}
    (h : Sound E s L (fun _ _ => False)) {u : α} (hu : 0 ≤ L.dist u)
    (hmin : ∀ w, L.known w = false → 0 ≤ L.dist w → L.dist u ≤ L.dist w) :
    Sound E s (L.settle u) (fun a _ => a = u) := by
  have hknown : ∀ v, (L.settle u).known v = true → v = u ∨ L.known v = true := by
    intro v hv
    by_cases hvu : v = u
    · exact Or.inl hvu
    · simp only [Labels.settle, Function.update_of_ne hvu] at hv
      exact Or.inr hv
  refine ⟨h.source, h.sourcePrev, h.unreached, h.walk, ?_, h.prevNone, ?_, ?_, ?_⟩
  · intro v w hv
    obtain ⟨hk, he, hd⟩ := h.prevEdge v w hv
    refine ⟨?_, he, hd⟩
    by_cases hwu : w = u
    · subst hwu; simp [Labels.settle]
    · simpa [Labels.settle, hwu] using hk
  · intro v hv
    rcases hknown v hv with rfl | hk
    · exact hu
    · exact h.reached v hk
  · intro v w hv hw hr
    have hwu : w ≠ u := by
      rintro rfl
      simp [Labels.settle] at hw
    have hw' : L.known w = false := by simpa [Labels.settle, hwu] using hw
    rcases hknown v hv with rfl | hk
    · exact hmin w hw' hr
    · exact h.mono v w hk hw' hr
  · intro a w ha he hp
    rcases hknown a ha with rfl | hk
    · exact absurd rfl hp
    · exact h.relaxed a w hk he id

@[simp] theorem relax_known (L : Labels α) (u w : α) : (L.relax u w).known = L.known := by
  unfold relax
  split <;> rfl

theorem relax_dist_of_ne (L : Labels α) (u : α) {v w : α} (hv : v ≠ w) :
    (L.relax u w).dist v = L.dist v := by
  unfold relax
  split
  · exact Function.update_of_ne hv _ _
  · rfl

theorem relax_prev_of_ne (L : Labels α) (u : α) {v w : α} (hv : v ≠ w) :
    (L.relax u w).prev v = L.prev v := by
  unfold relax
  split
  · exact Function.update_of_ne hv _ _
  · rfl

theorem relax_dist_of_known (L : Labels α) (u w : α) {v : α} (hv : L.known v = true) :
    (L.relax u w).dist v = L.dist v := by
  by_cases hvw : v = w
  · subst hvw
    rw [relax, if_neg]
    simp [hv]
  · exact relax_dist_of_ne L u hvw

/-- Offering an edge of the node settled last that labels its end keeps the invariant. -/
theorem Sound.relax_labels {E : α → α → Prop} {s : α} {L : Labels α} {pending : α → α → Prop}
    (h : Sound E s L pending) {u w : α} (hu : L.known u = true) (he : E u w)
    (hlast : ∀ v, L.known v = true → L.dist v ≤ L.dist u)
    (hc : L.known w = false ∧ (L.dist u + 1 < L.dist w ∨ L.dist w < 0)) :
    Sound E s (L.relax u w) (fun a b => pending a b ∧ ¬ (a = u ∧ b = w)) := by
  have hu0 := h.reached u hu
  have hws : w ≠ s := by
    rintro rfl
    have := h.source
    omega
  have hdist : (L.relax u w).dist w = L.dist u + 1 := by
    rw [Labels.relax, if_pos hc]
    exact Function.update_self ..
  have hprev : (L.relax u w).prev w = some u := by
    rw [Labels.relax, if_pos hc]
    exact Function.update_self ..
  have hkept := fun {v} => relax_dist_of_known L u w (v := v)
  refine ⟨?_, ?_, ?_, ?_, ?_, ?_, ?_, ?_, ?_⟩
  · rw [relax_dist_of_ne L u hws.symm, h.source]
  · rw [relax_prev_of_ne L u hws.symm, h.sourcePrev]
  · intro v hv
    by_cases hvw : v = w
    · subst hvw
      omega
    · rw [relax_dist_of_ne L u hvw] at hv ⊢
      exact h.unreached v hv
  · intro v hv
    by_cases hvw : v = w
    · subst hvw
      have hlen : (L.dist u + 1).toNat = (L.dist u).toNat + 1 := by omega
      rw [hdist, hlen]
      exact .snoc (h.walk u hu0) he
    · rw [relax_dist_of_ne L u hvw] at hv ⊢
      exact h.walk v hv
  · intro v a hv
    rw [relax_known]
    by_cases hvw : v = w
    · subst hvw
      rw [hprev, Option.some.injEq] at hv
      subst hv
      rw [hdist, hkept hu]
      exact ⟨hu, he, rfl⟩
    · rw [relax_prev_of_ne L u hvw] at hv
      obtain ⟨hk, hea, hd⟩ := h.prevEdge v a hv
      rw [relax_dist_of_ne L u hvw, hkept hk]
      exact ⟨hk, hea, hd⟩
  · intro v
    by_cases hvw : v = w
    · subst hvw
      rw [hprev, hdist]
      simp only [reduceCtorEq, hws, false_or, false_iff]
      omega
    · rw [relax_prev_of_ne L u hvw, relax_dist_of_ne L u hvw]
      exact h.prevNone v
  · intro v hv
    rw [relax_known] at hv
    rw [hkept hv]
    exact h.reached v hv
  · intro v x hv hx hr
    rw [relax_known] at hv hx
    rw [hkept hv]
    by_cases hxw : x = w
    · subst hxw
      rw [hdist]
      have := hlast v hv
      omega
    · rw [relax_dist_of_ne L u hxw] at hr ⊢
      exact h.mono v x hv hx hr
  · intro a b ha hab hp
    rw [relax_known] at ha
    rw [hkept ha]
    by_cases hbw : b = w
    · subst hbw
      rw [hdist]
      by_cases hau : a = u
      · subst hau
        omega
      · have hold := h.relaxed a b ha hab (fun hpab => hp ⟨hpab, fun hh => hau hh.1⟩)
        omega
    · rw [relax_dist_of_ne L u hbw]
      exact h.relaxed a b ha hab (fun hpab => hp ⟨hpab, fun hh => hbw hh.2⟩)

/-- An edge whose end stays as it was had a label good enough, or a settled one. -/
theorem Sound.relax_skips {E : α → α → Prop} {s : α} {L : Labels α} {pending : α → α → Prop}
    (h : Sound E s L pending) {u w : α} (hlast : ∀ v, L.known v = true → L.dist v ≤ L.dist u)
    (hc : ¬ (L.known w = false ∧ (L.dist u + 1 < L.dist w ∨ L.dist w < 0))) :
    Sound E s L (fun a b => pending a b ∧ ¬ (a = u ∧ b = w)) := by
  refine ⟨h.source, h.sourcePrev, h.unreached, h.walk, h.prevEdge, h.prevNone, h.reached,
    h.mono, ?_⟩
  intro a b ha hab hp
  by_cases hnew : a = u ∧ b = w
  · obtain ⟨rfl, rfl⟩ := hnew
    by_cases hk : L.known b = true
    · have := h.reached b hk
      have := hlast b hk
      omega
    · have hf : L.known b = false := by simpa using hk
      have : ¬ (L.dist a + 1 < L.dist b ∨ L.dist b < 0) := fun hh => hc ⟨hf, hh⟩
      omega
  · exact h.relaxed a b ha hab (fun hpab => hp ⟨hpab, hnew⟩)

/-- Offering one edge of the node settled last keeps the invariant and completes that edge. -/
theorem Sound.relax {E : α → α → Prop} {s : α} {L : Labels α} {pending : α → α → Prop}
    (h : Sound E s L pending) {u w : α} (hu : L.known u = true) (he : E u w)
    (hlast : ∀ v, L.known v = true → L.dist v ≤ L.dist u) :
    Sound E s (L.relax u w) (fun a b => pending a b ∧ ¬ (a = u ∧ b = w)) := by
  by_cases hc : L.known w = false ∧ (L.dist u + 1 < L.dist w ∨ L.dist w < 0)
  · exact h.relax_labels hu he hlast hc
  · rw [Labels.relax, if_neg hc]
    exact h.relax_skips hlast hc

/-- Offering all edges of the node settled last completes the round. -/
theorem Sound.relaxAll {E : α → α → Prop} {s : α} {L : Labels α} {u : α} (ws : List α)
    (h : Sound E s L (fun a b => a = u ∧ b ∈ ws)) (hu : L.known u = true)
    (he : ∀ w ∈ ws, E u w) (hlast : ∀ v, L.known v = true → L.dist v ≤ L.dist u) :
    Sound E s (ws.foldl (fun L w => L.relax u w) L) (fun _ _ => False) := by
  induction ws generalizing L with
  | nil =>
    refine ⟨h.source, h.sourcePrev, h.unreached, h.walk, h.prevEdge, h.prevNone, h.reached,
      h.mono, ?_⟩
    intro a b ha hab _
    exact h.relaxed a b ha hab (by simp)
  | cons w ws ih =>
    rw [List.foldl_cons]
    have hstep := h.relax hu (he w (by simp)) hlast
    refine ih ?_ (by simpa using hu) (fun x hx => he x (List.mem_cons_of_mem _ hx)) ?_
    · refine ⟨hstep.source, hstep.sourcePrev, hstep.unreached, hstep.walk, hstep.prevEdge,
        hstep.prevNone, hstep.reached, hstep.mono, ?_⟩
      intro a b ha hab hp
      refine hstep.relaxed a b ha hab ?_
      rintro ⟨⟨rfl, hb⟩, hn⟩
      rcases List.mem_cons.mp hb with rfl | hb
      · exact hn ⟨rfl, rfl⟩
      · exact hp ⟨rfl, hb⟩
    · intro v hv
      rw [relax_known] at hv
      rw [relax_dist_of_known L u w hv, relax_dist_of_known L u w hu]
      exact hlast v hv

theorem foldl_relax_known (ws : List α) (u : α) (L : Labels α) :
    (ws.foldl (fun L w => L.relax u w) L).known = L.known := by
  induction ws generalizing L with
  | nil => rfl
  | cons w ws ih => rw [List.foldl_cons, ih, relax_known]

/-- A round settles a nearest unsettled node and offers all its edges. -/
theorem Sound.round {E : α → α → Prop} {s : α} {L : Labels α} {u : α} (ws : List α)
    (h : Sound E s L (fun _ _ => False)) (hu : 0 ≤ L.dist u) (hunknown : L.known u = false)
    (hmin : ∀ w, L.known w = false → 0 ≤ L.dist w → L.dist u ≤ L.dist w)
    (hws : ∀ w, E u w ↔ w ∈ ws) :
    Sound E s (ws.foldl (fun L w => L.relax u w) (L.settle u)) (fun _ _ => False) := by
  have hsettled := h.settle hu hmin
  apply Sound.relaxAll ws
  · exact ⟨hsettled.source, hsettled.sourcePrev, hsettled.unreached, hsettled.walk,
      hsettled.prevEdge, hsettled.prevNone, hsettled.reached, hsettled.mono,
      fun a b ha hab hp => hsettled.relaxed a b ha hab fun hau => hp ⟨hau, (hws b).mp (hau ▸ hab)⟩⟩
  · exact settle_known_self L u
  · exact fun w hw => (hws w).mpr hw
  · intro v hv
    by_cases hvu : v = u
    · exact Int.le_of_eq (congrArg L.dist hvu)
    · rw [settle_known_of_ne L hvu] at hv
      exact h.mono v u hv hunknown hu

theorem countP_settle {l : List α} {L : Labels α} {u : α} (hu : u ∈ l)
    (hunknown : L.known u = false) :
    (l.countP fun v => !(L.settle u).known v) < l.countP fun v => !L.known v := by
  have hle : ∀ l : List α, (l.countP fun v => !(L.settle u).known v) ≤ l.countP fun v => !L.known v := by
    intro l
    apply List.countP_mono_left
    intro v _ hv
    by_cases hvu : v = u
    · rw [hvu, hunknown]
      rfl
    · rwa [settle_known_of_ne L hvu] at hv
  obtain ⟨l₁, l₂, rfl⟩ := List.append_of_mem hu
  have h₁ := hle l₁
  have h₂ := hle l₂
  simp only [List.countP_append, List.countP_cons, settle_known_self, hunknown, Bool.not_true,
    Bool.not_false, Bool.false_eq_true, if_false, if_true]
  omega

end Labels

end Framework
