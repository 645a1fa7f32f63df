import PWOSPF.Topology.Advert

/-!
# Effects of merging advertisements

One specification for every operation of `Topology.Advert`, on well-formed databases: it succeeds,
and it changes the two arrays of the routers involved as stated and nothing else.
-/

namespace PWOSPF

open Framework Topo

theorem modify_findIdx_split {α : Type} {p : α → Bool} {l : List α} {a : α}
    (h : l.find? p = some a) (f : α → α) :
    ∃ pre post, l = pre ++ a :: post ∧ l.modify (l.findIdx p) f = pre ++ f a :: post := by
  induction l with
  | nil => simp at h
  | cons x l ih =>
    by_cases hx : p x
    · simp only [List.find?_cons, hx, Option.some.injEq] at h
      subst h
      exact ⟨[], l, rfl, by simp [List.findIdx_cons, hx]⟩
    · simp only [List.find?_cons, hx] at h
      obtain ⟨pre, post, hl, hm⟩ := ih h
      refine ⟨x :: pre, post, by rw [hl]; rfl, ?_⟩
      simp only [List.findIdx_cons, hx, cond_false, List.modify_succ_cons, hm, List.cons_append]

/-- A router without its two arrays and its expiry time. -/
def Router.ident (r : Router) : Router := { r.core with expired := 0 }

/-- Every router of `T` is still listed, with the same fields outside its arrays and timer, and
routers listed since come after them. -/
structure Topo.Extends (T T' : Topo) : Prop where
  thisRouter : T'.thisRouter = T.thisRouter
  addrs : T.addrs <+: T'.addrs
  ident : ∀ p ∈ T.addrs, (T'.find p).map Router.ident = (T.find p).map Router.ident

namespace Topo.Extends

variable {T T' T'' : Topo}

theorem of_sameCore (h : SameCore T T') : Extends T T' :=
  ⟨h.thisRouter, ⟨[], by simp [h.addrs]⟩, fun p _ => h.find_field _ (fun _ => rfl) p⟩

theorem field (h : Extends T T') {β : Type} (f : Router → β) (hf : ∀ r, f r.ident = f r) {p : Ptr}
    (hp : p ∈ T.addrs) : (T'.find p).map f = (T.find p).map f := by
  have hc := congrArg (Option.map f) (h.ident p hp)
  simpa only [Option.map_map, Function.comp_def, hf] using hc

theorem ridOf (h : Extends T T') {p : Ptr} (hp : p ∈ T.addrs) : T'.ridOf p = T.ridOf p :=
  h.field _ (fun _ => rfl) hp

theorem listed (h : Extends T T') {p : Ptr} (hp : p ∈ T.addrs) : p ∈ T'.addrs :=
  h.addrs.subset hp

theorem trans (h : Extends T T') (h' : Extends T' T'') : Extends T T'' :=
  ⟨h'.thisRouter.trans h.thisRouter, h.addrs.trans h'.addrs,
    fun p hp => (h'.ident p (h.listed hp)).trans (h.ident p hp)⟩

end Topo.Extends

variable {T : Topo}

theorem addNewRoute_spec {p : Ptr} (hp : p ∈ T.addrs) (s : Route) :
    ∃ T', addNewRoute T s p = .ok T' ∧ SameCore T T' ∧ T'.adj = T.adj ∧
      T'.subs = Function.update T.subs p (T.subs p ++ [s]) := by
  obtain ⟨r, hr⟩ := mem_addrs_iff.mp hp
  refine ⟨T.modify p (Router.pushSubnet s), ?_, modify_agree T p _ fun _ => rfl, ?_, ?_⟩
  · rw [addNewRoute, deref_of_find hr, ok_bind, pure_eq_ok]
  · rw [adj_modify hr (Router.pushSubnet s) fun _ => rfl]
    exact Function.update_eq_self_iff.mpr (adj_of_find hr).symm
  · rw [subs_modify hr (Router.pushSubnet s) fun _ => rfl, subs_of_find hr, Router.pushSubnet,
      DynArray.push_elems]

theorem setRId_spec {p : Ptr} {r : Router} (hr : T.find p = some r) {pfix : InAddr} {old : Route}
    (hold : routerContainsSubnet r pfix = some old) (id : UInt32) :
    SameCore T (T.modify p (Router.setRId pfix id)) ∧
      (T.modify p (Router.setRId pfix id)).adj = T.adj ∧
      ∃ pre post, T.subs p = pre ++ old :: post ∧
        (T.modify p (Router.setRId pfix id)).subs =
          Function.update T.subs p (pre ++ { old with rId := id } :: post) := by
  refine ⟨modify_agree T p _ fun _ => rfl, ?_, ?_⟩
  · rw [adj_modify hr (Router.setRId pfix id) fun _ => rfl]
    exact Function.update_eq_self_iff.mpr (adj_of_find hr).symm
  · obtain ⟨pre, post, hsplit, hmod⟩ := modify_findIdx_split hold fun s => { s with rId := id }
    refine ⟨pre, post, by rw [subs_of_find hr, hsplit], ?_⟩
    rw [subs_modify hr (Router.setRId pfix id) fun _ => rfl, Router.setRId, DynArray.modify_elems,
      hmod]

theorem removeSubnetFromRouter_spec (hT : T.Wf) {p : Ptr} (hp : p ∈ T.addrs) (s : Route) :
    ∃ T', removeSubnetFromRouter T p s = .ok T' ∧ SameCore T T' ∧ T'.Wf ∧
      T'.subs = Function.update T.subs p (swapEraseP (fun x => routeCmp x s = 0) (T.subs p)) ∧
      ∀ a b, b ∈ T'.adj a ↔ b ∈ T.adj a ∧ ¬ (s.rId ≠ 0 ∧ a = p ∧ T.ridOf b = some s.rId) := by
  obtain ⟨r, hr⟩ := mem_addrs_iff.mp hp
  let T₁ := T.modify p (Router.dropSubnet fun x => routeCmp x s = 0)
  have hcore : SameCore T T₁ := modify_agree T p _ fun _ => rfl
  have hadj : T₁.adj = T.adj := by
    rw [adj_modify hr (Router.dropSubnet _) fun _ => rfl]
    exact Function.update_eq_self_iff.mpr (adj_of_find hr).symm
  have hsubs : T₁.subs =
      Function.update T.subs p (swapEraseP (fun x => routeCmp x s = 0) (T.subs p)) := by
    rw [subs_modify hr (Router.dropSubnet _) fun _ => rfl, subs_of_find hr]
    rfl
  have hT₁ : T₁.Wf := hT.of_sameAdj hcore hadj
  by_cases h0 : s.rId = 0
  · refine ⟨T₁, ?_, hcore, hT₁, hsubs, ?_⟩
    · rw [removeSubnetFromRouter, deref_of_find hr, ok_bind, if_neg (by simpa using h0),
        pure_eq_ok]
    · intro a b
      rw [hadj]
      simp [h0]
  · obtain ⟨T', hrun, hcore', hWf, hsubs', hadj'⟩ :=
      removeRtAdjUsingId_spec hT₁ (p := p) (by rw [hcore.addrs]; exact hp) s.rId
    refine ⟨T', ?_, hcore.trans hcore', hWf, hsubs'.trans hsubs, ?_⟩
    · rw [removeSubnetFromRouter, deref_of_find hr, ok_bind, if_pos h0]
      exact hrun
    · intro a b
      rw [hadj', hadj, hcore.ridOf]
      simp [h0]

theorem routerHasAdjacency_eq (hT : T.Wf) {p q : Ptr} (hp : p ∈ T.addrs) (hq : q ∈ T.addrs) :
    routerHasAdjacency T p q = .ok (decide (q ∈ T.adj p)) := by
  obtain ⟨r, hr⟩ := mem_addrs_iff.mp hp
  obtain ⟨c, hc⟩ := mem_addrs_iff.mp hq
  have hadj := adj_of_find hr
  have hfind := findAdj_eq c.rid (hT.adjListed p)
  rw [hadj] at hfind
  have hmem : (r.adjacencies.elems.findIdx? fun x => T.ridOf x = some c.rid).isSome =
      decide (q ∈ T.adj p) := by
    rw [List.findIdx?_isSome, Bool.eq_iff_iff, List.any_eq_true, decide_eq_true_iff, hadj]
    constructor
    · rintro ⟨x, hx, hrid⟩
      rw [hT.ridOf_injective (ridOf_of_find hc) (by simpa using hrid)]
      exact hx
    · intro hx
      exact ⟨q, hx, by simpa using ridOf_of_find hc⟩
  rw [routerHasAdjacency, deref_of_find hr, ok_bind, deref_of_find hc, ok_bind, hfind, ok_bind,
    pure_eq_ok, hmem]

theorem addAdjacency_spec (hT : T.Wf) {p q : Ptr} (hp : p ∈ T.addrs) (hq : q ∈ T.addrs) :
    ∃ T', addAdjacency T p q = .ok T' ∧ SameCore T T' ∧ T'.Wf ∧ T'.subs = T.subs ∧
      ∀ a b, b ∈ T'.adj a ↔ b ∈ T.adj a ∨ (a = p ∧ b = q) := by
  obtain ⟨r, hr⟩ := mem_addrs_iff.mp hp
  have hrun : addAdjacency T p q =
      if q ∈ T.adj p then .ok T else .ok (T.modify p (Router.pushAdj q)) := by
    rw [addAdjacency, routerHasAdjacency_eq hT hp hq, ok_bind]
    simp only [decide_eq_true_eq, pure_eq_ok]
  by_cases hmem : q ∈ T.adj p
  · refine ⟨T, by rw [hrun, if_pos hmem], .refl T, hT, rfl, ?_⟩
    intro a b
    refine ⟨Or.inl, ?_⟩
    rintro (h | ⟨rfl, rfl⟩)
    exacts [h, hmem]
  · have hcore : SameCore T (T.modify p (Router.pushAdj q)) := modify_agree T p _ fun _ => rfl
    have hadj : (T.modify p (Router.pushAdj q)).adj = Function.update T.adj p (T.adj p ++ [q]) := by
      rw [adj_modify hr (Router.pushAdj q) fun _ => rfl, adj_of_find hr, Router.pushAdj,
        DynArray.push_elems]
    have hiff : ∀ a b, b ∈ (T.modify p (Router.pushAdj q)).adj a ↔
        b ∈ T.adj a ∨ (a = p ∧ b = q) := by
      intro a b
      rw [hadj]
      by_cases ha : a = p
      · subst ha
        simp
      · simp [ha]
    refine ⟨_, by rw [hrun, if_neg hmem], hcore, hT.of_sameCore hcore ?_ ?_, ?_, hiff⟩
    · intro a b hb
      rcases (hiff a b).mp hb with h | ⟨-, rfl⟩
      exacts [hT.adjListed a b h, hq]
    · intro a
      rw [hadj]
      by_cases ha : a = p
      · subst ha
        rw [Function.update_self, List.nodup_append]
        exact ⟨hT.adjNodup a, by simp, by rintro x hx y hy rfl; simp at hy; exact hmem (hy ▸ hx)⟩
      · rw [Function.update_of_ne ha]
        exact hT.adjNodup a
    · rw [subs_modify hr (Router.pushAdj q) fun _ => rfl]
      exact Function.update_eq_self_iff.mpr (subs_of_find hr).symm

/-! ## Recording a route -/

/-- The subnet of the sender that gives way, together with its link, to an advertisement that
cannot be recorded beside it: the first one with the advertised prefix, when that one already
names an attached router and is not the advertised route. -/
def conflictingSubnet (subs : List Route) (ad : Route) : Option Route :=
  if subs.any (fun s => routeCmp s ad = 0) then none
  else match subs.find? (fun s => s.pfix = ad.pfix) with
    | none => none
    | some old =>
      if old.rId = 0 ∨ (ad.mask ≠ old.mask ∧ ad.rId = 0) then none else some old

/-- The attached router refuses the opposite route: its first subnet with that prefix names
another router. -/
def peerConflict (subs : List Route) (oppRoute : Route) : Bool :=
  !subs.any (fun s => routeCmp s oppRoute = 0) &&
    match subs.find? (fun s => s.pfix = oppRoute.pfix) with
    | none => false
    | some old => old.rId ≠ 0

/-- What recording a route does to the subnets of one router; it is added only where `A` holds. -/
inductive Recorded (A : Prop) (subs : List Route) (ad : Route) : List Route → Prop
  | kept (s : Route) (hmem : s ∈ subs)
      (heq : s.pfix = ad.pfix ∧ s.mask = ad.mask ∧ s.rId = ad.rId) : Recorded A subs ad subs
  | added (h : A) : Recorded A subs ad (subs ++ [ad])
  | relabelled (pre post : List Route) (old : Route) (hsplit : subs = pre ++ old :: post)
      (hp : old.pfix = ad.pfix) (h0 : old.rId = 0) :
      Recorded A subs ad (pre ++ { old with rId := ad.rId } :: post)

/-- The ways through `recordAtHost`. -/
inductive HostCase (T : Topo) (p : Ptr) (ad : Route) : Prop
  | listed (hany : (T.subs p).any (fun s => routeCmp s ad = 0) = true)
      (hrun : recordAtHost T p ad = .ok (T, true))
  | added (hany : (T.subs p).any (fun s => routeCmp s ad = 0) = false)
      (hold : ∀ old, (T.subs p).find? (fun s => s.pfix = ad.pfix) = some old →
        ad.mask ≠ old.mask ∧ (ad.rId = 0 ∨ old.rId = 0))
      (hrun : recordAtHost T p ad = (addNewRoute T ad p).map (·, true))
  | relabelled (hany : (T.subs p).any (fun s => routeCmp s ad = 0) = false) (old : Route)
      (hold : (T.subs p).find? (fun s => s.pfix = ad.pfix) = some old)
      (hbeside : ¬ (ad.mask ≠ old.mask ∧ (ad.rId = 0 ∨ old.rId = 0))) (h0 : old.rId = 0)
      (hrun : recordAtHost T p ad = .ok (T.modify p (Router.setRId ad.pfix ad.rId), true))
  | refused (hany : (T.subs p).any (fun s => routeCmp s ad = 0) = false) (old : Route)
      (hold : (T.subs p).find? (fun s => s.pfix = ad.pfix) = some old)
      (hbeside : ¬ (ad.mask ≠ old.mask ∧ (ad.rId = 0 ∨ old.rId = 0))) (h0 : old.rId ≠ 0)
      (hrun : recordAtHost T p ad = (removeSubnetFromRouter T p old).map (·, false))

theorem recordAtHost_cases {p : Ptr} (hp : p ∈ T.addrs) (ad : Route) : HostCase T p ad := by
  obtain ⟨r, hr⟩ := mem_addrs_iff.mp hp
  have hany : (T.subs p).any (fun s => routeCmp s ad = 0) = routerContains ad r := by
    rw [subs_of_find hr]
    rfl
  have hfind : (T.subs p).find? (fun s => s.pfix = ad.pfix) = routerContainsSubnet r ad.pfix := by
    rw [subs_of_find hr]
    rfl
  by_cases hc : routerContains ad r
  · apply HostCase.listed (hany.trans hc)
    rw [recordAtHost, deref_of_find hr, ok_bind, if_pos hc]
    rfl
  · have hnone := hany.trans (Bool.eq_false_iff.mpr hc)
    cases hold : routerContainsSubnet r ad.pfix with
    | none =>
      apply HostCase.added hnone
      · intro old h
        rw [hfind, hold] at h
        cases h
      · rw [recordAtHost, deref_of_find hr, ok_bind, if_neg hc, hold]
        rfl
    | some old =>
      by_cases hbeside : ad.mask ≠ old.mask ∧ (ad.rId = 0 ∨ old.rId = 0)
      · apply HostCase.added hnone
        · intro old' h
          rw [hfind, hold] at h
          cases h
          exact hbeside
        · rw [recordAtHost, deref_of_find hr, ok_bind, if_neg hc, hold]
          simp only [if_pos hbeside]
          rfl
      · by_cases h0 : old.rId = 0
        · apply HostCase.relabelled hnone old (hfind.trans hold) hbeside h0
          rw [recordAtHost, deref_of_find hr, ok_bind, if_neg hc, hold]
          simp only [if_neg hbeside, if_pos h0]
          rfl
        · apply HostCase.refused hnone old (hfind.trans hold) hbeside h0
          rw [recordAtHost, deref_of_find hr, ok_bind, if_neg hc, hold]
          simp only [if_neg hbeside, if_neg h0]
          rfl

theorem recordAtHost_spec (hT : T.Wf) {p : Ptr} (hp : p ∈ T.addrs) (ad : Route) :
    ∃ T', SameCore T T' ∧ T'.Wf ∧
      ((conflictingSubnet (T.subs p) ad = none ∧ recordAtHost T p ad = .ok (T', true) ∧
          T'.adj = T.adj ∧
          ∃ subs, Recorded True (T.subs p) ad subs ∧ T'.subs = Function.update T.subs p subs) ∨
        ∃ old, conflictingSubnet (T.subs p) ad = some old ∧
          recordAtHost T p ad = .ok (T', false) ∧
          old ∈ T.subs p ∧ old.pfix = ad.pfix ∧ old.rId ≠ 0 ∧
          T'.subs = Function.update T.subs p
            (swapEraseP (fun x => routeCmp x old = 0) (T.subs p)) ∧
          ∀ a b, b ∈ T'.adj a ↔ b ∈ T.adj a ∧ ¬ (a = p ∧ T.ridOf b = some old.rId)) := by
  have hconf : ∀ {old}, (T.subs p).any (fun s => routeCmp s ad = 0) = false →
      (T.subs p).find? (fun s => s.pfix = ad.pfix) = some old →
      conflictingSubnet (T.subs p) ad =
        if old.rId = 0 ∨ (ad.mask ≠ old.mask ∧ ad.rId = 0) then none else some old := by
    intro old hany hold
    rw [conflictingSubnet, hany, hold]
    rfl
  cases recordAtHost_cases hp ad with
  | listed hany hrun =>
    obtain ⟨s, hs, heq⟩ := List.any_eq_true.mp hany
    exact ⟨T, .refl T, hT, Or.inl ⟨by rw [conflictingSubnet, if_pos hany], hrun, rfl,
      _, .kept s hs (by simpa using heq), (Function.update_eq_self_iff.mpr rfl).symm⟩⟩
  | added hany hold hrun =>
    obtain ⟨T', hadd, hcore, hadj, hsubs⟩ := addNewRoute_spec hp ad
    rw [hadd] at hrun
    refine ⟨T', hcore, hT.of_sameAdj hcore hadj, Or.inl ⟨?_, hrun, hadj, _, .added True.intro, hsubs⟩⟩
    cases hfind : (T.subs p).find? fun s => s.pfix = ad.pfix with
    | none =>
      rw [conflictingSubnet, hany, hfind]
      rfl
    | some old =>
      have hbeside := hold old hfind
      rw [hconf hany hfind, if_pos (by tauto)]
  | relabelled hany old hold hbeside h0 hrun =>
    obtain ⟨r, hr⟩ := mem_addrs_iff.mp hp
    have hold' : routerContainsSubnet r ad.pfix = some old := by
      rw [subs_of_find hr] at hold
      exact hold
    obtain ⟨hcore, hadj, pre, post, hsplit, hsubs⟩ := setRId_spec hr hold' ad.rId
    exact ⟨_, hcore, hT.of_sameAdj hcore hadj, Or.inl ⟨by rw [hconf hany hold, if_pos (Or.inl h0)],
      hrun, hadj, _, .relabelled pre post old hsplit (by simpa using List.find?_some hold) h0, hsubs⟩⟩
  | refused hany old hold hbeside h0 hrun =>
    obtain ⟨T', hrem, hcore, hWf, hsubs, hadj⟩ := removeSubnetFromRouter_spec hT hp old
    rw [hrem] at hrun
    refine ⟨T', hcore, hWf, Or.inr ⟨old, by rw [hconf hany hold, if_neg (by tauto)], hrun,
      List.mem_of_find?_eq_some hold, by simpa using List.find?_some hold, h0, hsubs, ?_⟩⟩
    intro a b
    rw [hadj]
    simp [h0]

theorem recordAtPeer_spec (hT : T.Wf) {p : Ptr} (hp : p ∈ T.addrs) (opp : Route) :
    ∃ T', recordAtPeer T p opp = .ok T' ∧ SameCore T T' ∧ T'.Wf ∧
      ((peerConflict (T.subs p) opp = false ∧ T'.adj = T.adj ∧
          ∃ subs, Recorded (∀ s ∈ T.subs p, s.pfix ≠ opp.pfix) (T.subs p) opp subs ∧
            T'.subs = Function.update T.subs p subs) ∨
        (peerConflict (T.subs p) opp = true ∧ T'.subs = T.subs ∧
          ∀ a b, b ∈ T'.adj a ↔
            b ∈ T.adj a ∧ ¬ (opp.rId ≠ 0 ∧ a = p ∧ T.ridOf b = some opp.rId))) := by
  obtain ⟨r, hr⟩ := mem_addrs_iff.mp hp
  have hsub : T.subs p = r.subnets.elems := subs_of_find hr
  have hrun : recordAtPeer T p opp =
      if routerContains opp r then .ok T
      else match routerContainsSubnet r opp.pfix with
        | none => addNewRoute T opp p
        | some old =>
          if old.rId = 0 then .ok (T.modify p (Router.setRId opp.pfix opp.rId))
          else removeSubnetFromRouter T p opp := by
    rw [recordAtPeer, deref_of_find hr, ok_bind]
    rfl
  have hconf : peerConflict (T.subs p) opp =
      (!routerContains opp r && match routerContainsSubnet r opp.pfix with
        | none => false
        | some old => old.rId ≠ 0) := by
    rw [hsub]
    rfl
  by_cases hc : routerContains opp r
  · obtain ⟨s, hs, heq⟩ := (routerContains_iff opp r).mp hc
    rw [← hsub] at hs
    exact ⟨T, by rw [hrun, if_pos hc], .refl T, hT, Or.inl ⟨by rw [hconf, hc]; rfl, rfl,
      _, .kept s hs heq, (Function.update_eq_self_iff.mpr rfl).symm⟩⟩
  · rw [if_neg hc] at hrun
    have hnot : (!routerContains opp r) = true := by simpa using hc
    rw [hnot, Bool.true_and] at hconf
    cases hold : routerContainsSubnet r opp.pfix with
    | none =>
      rw [hold] at hrun hconf
      obtain ⟨T', hadd, hcore, hadj, hsubs⟩ := addNewRoute_spec hp opp
      have hnew : ∀ s ∈ T.subs p, s.pfix ≠ opp.pfix := by
        intro s hs
        rw [hsub] at hs
        simpa using List.find?_eq_none.mp hold s hs
      exact ⟨T', hrun.trans hadd, hcore, hT.of_sameAdj hcore hadj,
        Or.inl ⟨hconf, hadj, _, .added hnew, hsubs⟩⟩
    | some old =>
      rw [hold] at hrun hconf
      simp only at hrun hconf
      have hpfix : old.pfix = opp.pfix := by simpa using List.find?_some hold
      by_cases h0 : old.rId = 0
      · rw [if_pos h0] at hrun
        obtain ⟨hcore, hadj, pre, post, hsplit, hsubs⟩ := setRId_spec hr hold opp.rId
        exact ⟨_, hrun, hcore, hT.of_sameAdj hcore hadj, Or.inl ⟨by simpa [h0] using hconf, hadj,
          _, .relabelled pre post old hsplit hpfix h0, hsubs⟩⟩
      · rw [if_neg h0] at hrun
        obtain ⟨T', hrem, hcore, hWf, hsubs, hadj⟩ := removeSubnetFromRouter_spec hT hp opp
        -- the route to delete is the one just found missing
        have hkeep : swapEraseP (fun x => routeCmp x opp = 0) (T.subs p) = T.subs p := by
          apply swapEraseP_of_forall_not
          intro s hs
          rw [hsub] at hs
          by_contra hs0
          exact hc (List.any_eq_true.mpr ⟨s, hs, by simpa using hs0⟩)
        rw [hkeep, Function.update_eq_self] at hsubs
        exact ⟨T', hrun.trans hrem, hcore, hWf, Or.inr ⟨by simpa [h0] using hconf, hsubs, hadj⟩⟩

end PWOSPF
