import PWOSPF.Topology.WellFormed

/-!
# Expiring routers

`remove_from_topo` and the loop of `check_top_invalid`. A router that has not been heard of is
taken out of every other router's arrays before it is freed and unlinked.
-/

namespace PWOSPF

open Framework Topo

def Router.clearSubnets (r : Router) : Router :=
  { r with subnets := { r.subnets with elems := [] } }

/-- The loop of `removeFromTopo` over the network list. -/
def removeEverywhere (id : UInt32) : List Ptr → Topo → Exec Topo
  | [], T => .ok T
  | p :: ps, T => do
    let T ← removeRtSnUsingId T p id
    let T ← removeRtAdjUsingId T p id
    removeEverywhere id ps T

def removeFromTopo (T : Topo) (rt : Ptr) : Exec Topo := do
  let r ← T.deref rt
  removeEverywhere r.rid T.addrs (T.modify rt Router.clearSubnets)

/-- The list node is freed, and the router with it. -/
def unlinkRouter (T : Topo) (rt : Ptr) : Topo :=
  { T with network := T.network.filter fun r => r.addr ≠ rt }

/-- The loop of `check_top_invalid` and its variable `changed`. -/
def expiryLoop : (Nat → Time) → List Ptr → Topo → Bool → Exec (Topo × Bool)
  | _, [], T, changed => .ok (T, changed)
  | clock, p :: ps, T, changed => do
    let r ← T.deref p
    let this ← T.deref T.thisRouter
    if r.expired ≤ clock 0 ∧ r.rid ≠ this.rid then
      let T ← removeFromTopo T p
      expiryLoop (fun k => clock (k + 1)) ps (unlinkRouter T p) true
    else expiryLoop (fun k => clock (k + 1)) ps T changed

/-! ## Effect -/

/-- `T'` is `T` without the router at `p`, whose id is `id`, and without all links to it. -/
structure RouterRemoved (T : Topo) (p : Ptr) (id : UInt32) (T' : Topo) : Prop where
  addrs : T'.addrs = T.addrs.filter fun q => q ≠ p
  thisRouter : T'.thisRouter = T.thisRouter
  core : ∀ q, q ≠ p → (T'.find q).map Router.core = (T.find q).map Router.core
  subs : ∀ q, T'.subs q = if q = p then [] else swapEraseP (fun s => s.rId = id) (T.subs q)
  adj : ∀ a b, b ∈ T'.adj a ↔ b ∈ T.adj a ∧ a ≠ p ∧ b ≠ p

theorem RouterRemoved.ridOf {T T' : Topo} {p : Ptr} {id : UInt32} (h : RouterRemoved T p id T')
    {q : Ptr} (hq : q ≠ p) : T'.ridOf q = T.ridOf q := by
  have hc := congrArg (Option.map Router.rid) (h.core q hq)
  rw [Option.map_map, Option.map_map] at hc
  exact hc

theorem removeEverywhere_spec {T : Topo} (hT : T.Wf) (id : UInt32) {ps : List Ptr}
    (hps : ∀ p ∈ ps, p ∈ T.addrs) (hnd : ps.Nodup) :
    ∃ T', removeEverywhere id ps T = .ok T' ∧ SameCore T T' ∧ T'.Wf ∧
      (∀ q, T'.subs q =
        if q ∈ ps then swapEraseP (fun s => s.rId = id) (T.subs q) else T.subs q) ∧
      ∀ a b, b ∈ T'.adj a ↔ b ∈ T.adj a ∧ ¬ (a ∈ ps ∧ T.ridOf b = some id) := by
  induction ps generalizing T with
  | nil => exact ⟨T, rfl, .refl T, hT, by simp, by simp⟩
  | cons p ps ih =>
    obtain ⟨hnot, hnd'⟩ := List.nodup_cons.mp hnd
    obtain ⟨T₁, hrun₁, hcore₁, hadj₁, hsubs₁⟩ := removeRtSnUsingId_spec (hps p (by simp)) id
    have hT₁ := hT.of_sameAdj hcore₁ hadj₁
    obtain ⟨T₂, hrun₂, hcore₂, hT₂, hsubs₂, hadj₂⟩ := removeRtAdjUsingId_spec hT₁
      (p := p) (by rw [hcore₁.addrs]; exact hps p (by simp)) id
    have hcore := hcore₁.trans hcore₂
    obtain ⟨T', hrun, hcore', hT', hsubs', hadj'⟩ := ih hT₂
      (by rw [hcore.addrs]; exact fun q hq => hps q (List.mem_cons_of_mem _ hq)) hnd'
    refine ⟨T', ?_, hcore.trans hcore', hT', ?_, ?_⟩
    · rw [removeEverywhere, hrun₁, ok_bind, hrun₂, ok_bind, hrun]
    · intro q
      rw [hsubs', hsubs₂, hsubs₁]
      by_cases hq : q = p
      · subst hq
        simp [hnot]
      · simp [hq]
    · intro a b
      rw [hadj', hadj₂, hadj₁, hcore.ridOf, hcore₁.ridOf, List.mem_cons]
      tauto

theorem find_unlinkRouter (T : Topo) (p q : Ptr) :
    (unlinkRouter T p).find q = if q = p then none else T.find q := by
  simp only [unlinkRouter, find, List.find?_filter]
  by_cases hq : q = p
  · subst hq
    rw [if_pos rfl, List.find?_eq_none]
    simp
  · rw [if_neg hq]
    congr 1
    funext r
    by_cases hr : r.addr = q <;> simp [hr, hq]

theorem addrs_unlinkRouter (T : Topo) (p : Ptr) :
    (unlinkRouter T p).addrs = T.addrs.filter fun q => q ≠ p := by
  simp only [unlinkRouter, addrs, List.filter_map]
  rfl

theorem adj_unlinkRouter (T : Topo) (p q : Ptr) :
    (unlinkRouter T p).adj q = if q = p then [] else T.adj q := by
  by_cases hq : q = p
  · simp [adj, find_unlinkRouter, hq]
  · simp [adj, find_unlinkRouter, hq]

theorem subs_unlinkRouter (T : Topo) (p q : Ptr) :
    (unlinkRouter T p).subs q = if q = p then [] else T.subs q := by
  by_cases hq : q = p
  · simp [subs, find_unlinkRouter, hq]
  · simp [subs, find_unlinkRouter, hq]

/-- A router that no other one has in its adjacencies can be unlinked. -/
theorem Topo.Wf.unlinked {T : Topo} (hT : T.Wf) {p : Ptr} (hne : p ≠ T.thisRouter)
    (hfree : ∀ a, a ≠ p → p ∉ T.adj a) : (unlinkRouter T p).Wf := by
  refine ⟨⟨?_, ?_, ?_, ?_⟩, ?_, ?_⟩
  · rw [addrs_unlinkRouter]
    exact hT.addrsNodup.filter _
  · exact hT.ridsNodup.sublist (List.filter_sublist.map _)
  · rw [addrs_unlinkRouter]
    exact List.mem_filter.mpr ⟨hT.thisListed, decide_eq_true hne.symm⟩
  · intro a b hb
    rw [adj_unlinkRouter] at hb
    by_cases ha : a = p
    · rw [if_pos ha] at hb
      cases hb
    · rw [if_neg ha] at hb
      rw [addrs_unlinkRouter]
      refine List.mem_filter.mpr ⟨hT.adjListed a b hb, decide_eq_true ?_⟩
      rintro rfl
      exact hfree a ha hb
  · intro a
    rw [adj_unlinkRouter]
    split
    · exact List.nodup_nil
    · exact hT.adjNodup a
  · intro q hq
    rw [addrs_unlinkRouter] at hq
    exact hT.fresh q (List.mem_filter.mp hq).1

theorem removeRouter_spec {T : Topo} (hT : T.Wf) {p : Ptr} {id : UInt32}
    (hp : T.ridOf p = some id) (hne : p ≠ T.thisRouter) :
    ∃ T₁, removeFromTopo T p = .ok T₁ ∧ (unlinkRouter T₁ p).Wf ∧
      RouterRemoved T p id (unlinkRouter T₁ p) := by
  obtain ⟨r, hr, hrid⟩ := Option.map_eq_some_iff.mp hp
  have hcore₀ : SameCore T (T.modify p Router.clearSubnets) := modify_agree T p _ fun _ => rfl
  have hadj₀ : (T.modify p Router.clearSubnets).adj = T.adj := by
    rw [adj_modify hr Router.clearSubnets fun _ => rfl]
    exact Function.update_eq_self_iff.mpr (adj_of_find hr).symm
  have hsubs₀ : (T.modify p Router.clearSubnets).subs = Function.update T.subs p [] :=
    subs_modify hr Router.clearSubnets fun _ => rfl
  have hT₀ := hT.of_sameAdj hcore₀ hadj₀
  obtain ⟨T₁, hrun, hcore₁, hT₁, hsubs₁, hadj₁⟩ := removeEverywhere_spec hT₀ id
    (show ∀ q ∈ T.addrs, q ∈ _ by rw [hcore₀.addrs]; exact fun q hq => hq) hT.addrsNodup
  have hcore := hcore₀.trans hcore₁
  have hadj : ∀ a b, b ∈ T₁.adj a ↔ b ∈ T.adj a ∧ b ≠ p := by
    intro a b
    have hb : (T.modify p Router.clearSubnets).ridOf b = some id ↔ b = p := by
      rw [hcore₀.ridOf]
      exact ⟨fun h => hT.ridOf_injective h hp, fun h => h ▸ hp⟩
    rw [hadj₁, hadj₀, hb]
    constructor
    · rintro ⟨hm, hn⟩
      exact ⟨hm, fun h => hn ⟨mem_adj_listed hm, h⟩⟩
    · rintro ⟨hm, hn⟩
      exact ⟨hm, fun h => hn h.2⟩
  refine ⟨T₁, ?_, hT₁.unlinked (hcore.thisRouter ▸ hne) fun a _ hm => ((hadj a p).mp hm).2 rfl,
    ?_, hcore.thisRouter, ?_, ?_, ?_⟩
  · rw [removeFromTopo, deref_of_find hr, ok_bind, hrid, hrun]
  · rw [addrs_unlinkRouter, hcore.addrs]
  · intro q hq
    rw [find_unlinkRouter, if_neg hq]
    exact hcore.find_field _ (fun _ => rfl) q
  · intro q
    rw [subs_unlinkRouter]
    by_cases hq : q = p
    · rw [if_pos hq, if_pos hq]
    · rw [if_neg hq, if_neg hq, hsubs₁, hsubs₀, Function.update_of_ne hq]
      by_cases hl : q ∈ T.addrs
      · rw [if_pos hl]
      · rw [if_neg hl, Topo.subs, find_eq_none_iff.mpr hl]
        rfl
  · intro a b
    rw [adj_unlinkRouter]
    by_cases ha : a = p
    · simp [ha]
    · rw [if_neg ha, hadj]
      exact ⟨fun h => ⟨h.1, ha, h.2⟩, fun h => ⟨h.1, h.2.2⟩⟩

/-- Every expiry keeps `I`; when nothing expired nothing changed. -/
theorem expiryLoop_invariant {I : Topo → Prop}
    (hstep : ∀ T p id T', T.Wf → T.ridOf p = some id → p ≠ T.thisRouter → I T → T'.Wf →
      RouterRemoved T p id T' → I T')
    {ps : List Ptr} (clock : Nat → Time) {T : Topo} (changed : Bool) (hT : T.Wf)
    (hps : ∀ p ∈ ps, p ∈ T.addrs) (hnd : ps.Nodup) (hinv : I T) :
    ∃ T' changed', expiryLoop clock ps T changed = .ok (T', changed') ∧ T'.Wf ∧
      T'.thisRouter = T.thisRouter ∧ I T' ∧ (changed' = false → changed = false ∧ T' = T) := by
  induction ps generalizing clock T changed with
  | nil => exact ⟨T, changed, rfl, hT, rfl, hinv, fun h => ⟨h, rfl⟩⟩
  | cons p ps ih =>
    obtain ⟨hnot, hnd'⟩ := List.nodup_cons.mp hnd
    obtain ⟨r, hr⟩ := mem_addrs_iff.mp (hps p (by simp))
    obtain ⟨this, hthis⟩ := mem_addrs_iff.mp hT.thisListed
    rw [expiryLoop, deref_of_find hr, ok_bind, deref_of_find hthis, ok_bind]
    by_cases hc : r.expired ≤ clock 0 ∧ r.rid ≠ this.rid
    · have hne : p ≠ T.thisRouter := by
        rintro rfl
        rw [hthis, Option.some.injEq] at hr
        exact hc.2 (by rw [hr])
      obtain ⟨T₁, hrun, hT₁, hrem⟩ := removeRouter_spec hT (ridOf_of_find hr) hne
      have hinv₁ := hstep T p r.rid _ hT (ridOf_of_find hr) hne hinv hT₁ hrem
      obtain ⟨T', changed', hrun', hT', hthis', hinv', hsame⟩ := ih
        (fun k => clock (k + 1)) true hT₁ (by
          intro q hq
          have hqp : q ≠ p := by
            rintro rfl
            exact hnot hq
          rw [hrem.addrs]
          exact List.mem_filter.mpr ⟨hps q (List.mem_cons_of_mem _ hq), by simpa using hqp⟩)
        hnd' hinv₁
      refine ⟨T', changed', ?_, hT', hthis'.trans hrem.thisRouter, hinv', fun h => ?_⟩
      · rw [if_pos hc, hrun, ok_bind, hrun']
      · exact absurd (hsame h).1 (by decide)
    · rw [if_neg hc]
      exact ih _ _ hT (fun q hq => hps q (List.mem_cons_of_mem _ hq)) hnd' hinv

end PWOSPF
