import PWOSPF.Topology.AdvertSpec

/-!
# One iteration of the merge loops

The effect of one advertisement and of one pruned subnet on a well-formed database, and the
induction rules that carry an invariant through the two loops of `add_to_top`.
-/

namespace PWOSPF

open Framework Topo

variable {T T' : Topo} {host : Ptr} {hostRid : UInt32}

/-! ## Listing a router -/

theorem addNewRouter_addrs (T : Topo) (id : UInt32) (now : Time) :
    (addNewRouter T id now).1.addrs = T.addrs ++ [T.nextAddr] := by
  simp [addNewRouter, addrs, newRouter]

theorem addNewRouter_find (id : UInt32) (now : Time) (hfresh : T.nextAddr ∉ T.addrs) (p : Ptr) :
    (addNewRouter T id now).1.find p =
      if p = T.nextAddr then some (newRouter T.nextAddr id now) else T.find p := by
  simp only [addNewRouter, find, List.find?_append]
  by_cases hp : p = T.nextAddr
  · subst hp
    have hnone := find_eq_none_iff.mpr hfresh
    rw [find] at hnone
    rw [hnone, if_pos rfl, Option.none_or]
    simp [newRouter]
  · have hone : [newRouter T.nextAddr id now].find? (fun r => decide (r.addr = p)) = none := by
      simp [newRouter, Ne.symm hp]
    rw [hone, if_neg hp, Option.or_none]

/-- The new router has no links and no subnets, as an address that is not listed. -/
theorem addNewRouter_records (id : UInt32) (now : Time) (hfresh : T.nextAddr ∉ T.addrs) :
    (addNewRouter T id now).1.adj = T.adj ∧ (addNewRouter T id now).1.subs = T.subs := by
  have hfind := addNewRouter_find id now hfresh
  constructor
  · funext p
    by_cases hp : p = T.nextAddr
    · subst hp
      simp [adj, hfind, find_eq_none_iff.mpr hfresh, newRouter]
    · simp [adj, hfind, hp]
  · funext p
    by_cases hp : p = T.nextAddr
    · subst hp
      simp [subs, hfind, find_eq_none_iff.mpr hfresh, newRouter]
    · simp [subs, hfind, hp]

theorem addNewRouter_wf (hT : T.Wf) {id : UInt32} (hid : adjListContains T id = none) (now : Time) :
    (addNewRouter T id now).1.Wf := by
  have hfresh : T.nextAddr ∉ T.addrs := fun h => Nat.lt_irrefl _ (hT.fresh _ h)
  have haddrs := addNewRouter_addrs T id now
  have hadj := (addNewRouter_records id now hfresh).1
  have hrids : id ∉ T.network.map Router.rid := by
    intro h
    obtain ⟨r, hr, hrid⟩ := List.mem_map.mp h
    have hf := find_of_mem hT.addrsNodup hr
    exact adjListContains_none hid r.addr (by rw [ridOf_of_find hf, hrid])
  refine ⟨⟨?_, ?_, ?_, ?_⟩, ?_, ?_⟩
  · rw [haddrs, List.nodup_append]
    exact ⟨hT.addrsNodup, by simp, by rintro a ha b hb rfl; simp at hb; exact hfresh (hb ▸ ha)⟩
  · have hlast : (addNewRouter T id now).1.network.map Router.rid =
        T.network.map Router.rid ++ [id] := by
      simp [addNewRouter, newRouter]
    rw [hlast, List.nodup_append]
    exact ⟨hT.ridsNodup, by simp, by rintro a ha b hb rfl; simp at hb; exact hrids (hb ▸ ha)⟩
  · rw [haddrs]
    exact List.mem_append_left _ hT.thisListed
  · intro p q hq
    rw [haddrs]
    rw [hadj] at hq
    exact List.mem_append_left _ (hT.adjListed p q hq)
  · rw [hadj]
    exact hT.adjNodup
  · intro p hp
    rw [haddrs] at hp
    have hnext : (addNewRouter T id now).1.nextAddr = T.nextAddr + 1 := rfl
    rw [hnext]
    rcases List.mem_append.mp hp with h | h
    · exact Nat.lt_succ_of_lt (hT.fresh p h)
    · rw [List.mem_singleton.mp h]
      exact Nat.lt_succ_self _

theorem addNewRouter_spec (hT : T.Wf) {id : UInt32} (hid : adjListContains T id = none)
    (now : Time) :
    (addNewRouter T id now).1.Wf ∧ T.Extends (addNewRouter T id now).1 ∧
      (addNewRouter T id now).1.adj = T.adj ∧ (addNewRouter T id now).1.subs = T.subs ∧
      (addNewRouter T id now).1.ridOf T.nextAddr = some id ∧ T.nextAddr ∉ T.addrs ∧
      ∀ q ∈ (addNewRouter T id now).1.addrs, q ∈ T.addrs ∨ q = T.nextAddr := by
  have hfresh : T.nextAddr ∉ T.addrs := fun h => Nat.lt_irrefl _ (hT.fresh _ h)
  have hfind := addNewRouter_find id now hfresh
  have haddrs := addNewRouter_addrs T id now
  obtain ⟨hadj, hsubs⟩ := addNewRouter_records id now hfresh
  refine ⟨addNewRouter_wf hT hid now, ⟨rfl, ⟨_, haddrs.symm⟩, ?_⟩, hadj, hsubs, ?_, hfresh,
    by rw [haddrs]; simp⟩
  · intro p hp
    rw [hfind, if_neg (by rintro rfl; exact hfresh hp)]
  · rw [ridOf, hfind, if_pos rfl]
    rfl

theorem conRouterOf_core (T : Topo) (id : UInt32) (now : Time) {p : Ptr} (hp : p ∈ T.addrs) :
    (conRouterOf T id now).1.find p = T.find p := by
  obtain ⟨r, hr⟩ := mem_addrs_iff.mp hp
  unfold conRouterOf
  split
  · rfl
  · rw [find] at hr ⊢
    rw [addNewRouter, List.find?_append, hr, Option.some_or, find, hr]

theorem conRouterOf_spec (hT : T.Wf) (id : UInt32) (now : Time) :
    (conRouterOf T id now).1.Wf ∧ T.Extends (conRouterOf T id now).1 ∧
      (conRouterOf T id now).1.adj = T.adj ∧ (conRouterOf T id now).1.subs = T.subs ∧
      (conRouterOf T id now).1.ridOf (conRouterOf T id now).2 = some id ∧
      (adjListContains T id = some (conRouterOf T id now).2 ∨
        adjListContains T id = none ∧ (conRouterOf T id now).2 ∉ T.addrs) ∧
      ∀ q ∈ (conRouterOf T id now).1.addrs, q ∈ T.addrs ∨ q = (conRouterOf T id now).2 := by
  unfold conRouterOf
  cases hc : adjListContains T id with
  | some p =>
    exact ⟨hT, .of_sameCore (.refl T), rfl, rfl, hT.adjListContains_iff.mp hc, Or.inl rfl,
      fun q hq => Or.inl hq⟩
  | none =>
    obtain ⟨hWf, hext, hadj, hsubs, hrid, hfresh, haddrs⟩ := addNewRouter_spec hT hc now
    exact ⟨hWf, hext, hadj, hsubs, hrid, Or.inr ⟨rfl, hfresh⟩, haddrs⟩

/-! ## One advertisement -/

/-- What one advertisement of `host` does to the two arrays of all routers. -/
inductive AdvertEffect (T : Topo) (host : Ptr) (hostRid : UInt32) (ad : Route) (T' : Topo) : Prop
  | conflict (old : Route) (hconf : conflictingSubnet (T.subs host) ad = some old)
      (hcore : SameCore T T') (hmem : old ∈ T.subs host) (hpfix : old.pfix = ad.pfix)
      (h0 : old.rId ≠ 0)
      (hsubs : T'.subs = Function.update T.subs host
        (swapEraseP (fun x => routeCmp x old = 0) (T.subs host)))
      (hadj : ∀ a b, b ∈ T'.adj a ↔ b ∈ T.adj a ∧ ¬ (a = host ∧ T.ridOf b = some old.rId))
  | stub (hconf : conflictingSubnet (T.subs host) ad = none) (h0 : ad.rId = 0)
      (hcore : SameCore T T') (subs : List Route) (hrec : Recorded True (T.subs host) ad subs)
      (hsubs : T'.subs = Function.update T.subs host subs) (hadj : T'.adj = T.adj)
  | linked (hconf : conflictingSubnet (T.subs host) ad = none) (h0 : ad.rId ≠ 0)
      (subs : List Route) (hrec : Recorded True (T.subs host) ad subs) (con : Ptr)
      (hcon : T'.ridOf con = some ad.rId)
      (hlist : adjListContains T ad.rId = some con ∨
        adjListContains T ad.rId = none ∧ con ∉ T.addrs)
      (haddrs : ∀ q ∈ T'.addrs, q ∈ T.addrs ∨ q = con)
      (hpeer : peerConflict (Function.update T.subs host subs con) { ad with rId := hostRid } =
        false)
      (subs' : List Route)
      (hrec' : Recorded (∀ s ∈ Function.update T.subs host subs con, s.pfix ≠ ad.pfix)
        (Function.update T.subs host subs con) { ad with rId := hostRid } subs')
      (hsubs : T'.subs = Function.update (Function.update T.subs host subs) con subs')
      (hadj : ∀ a b, b ∈ T'.adj a ↔
        b ∈ T.adj a ∨ (a = host ∧ b = con) ∨ (a = con ∧ b = host))
  | refused (hconf : conflictingSubnet (T.subs host) ad = none) (h0 : ad.rId ≠ 0)
      (subs : List Route) (hrec : Recorded True (T.subs host) ad subs) (con : Ptr)
      (hcon : T'.ridOf con = some ad.rId)
      (hlist : adjListContains T ad.rId = some con ∨
        adjListContains T ad.rId = none ∧ con ∉ T.addrs)
      (haddrs : ∀ q ∈ T'.addrs, q ∈ T.addrs ∨ q = con)
      (hpeer : peerConflict (Function.update T.subs host subs con) { ad with rId := hostRid } =
        true)
      (hsubs : T'.subs = Function.update T.subs host subs)
      (hadj : ∀ a b, b ∈ T'.adj a ↔
        (b ∈ T.adj a ∨ (a = host ∧ b = con) ∨ (a = con ∧ b = host)) ∧
          ¬ (hostRid ≠ 0 ∧ a = con ∧ b = host))

theorem linkAdvert_spec (hT : T.Wf) (hhost : T.ridOf host = some hostRid) (ad : Route)
    (now : Time) :
    ∃ T', linkAdvert T host ad now = .ok T' ∧ T'.Wf ∧ T.Extends T' ∧
      (∀ p ∈ T.addrs, (T'.find p).map Router.core = (T.find p).map Router.core) ∧
      ∃ con, T'.ridOf con = some ad.rId ∧
        (adjListContains T ad.rId = some con ∨ adjListContains T ad.rId = none ∧ con ∉ T.addrs) ∧
        (∀ q ∈ T'.addrs, q ∈ T.addrs ∨ q = con) ∧
        ((peerConflict (T.subs con) { ad with rId := hostRid } = false ∧
            (∃ subs', Recorded (∀ s ∈ T.subs con, s.pfix ≠ ad.pfix) (T.subs con)
                { ad with rId := hostRid } subs' ∧
              T'.subs = Function.update T.subs con subs') ∧
            ∀ a b, b ∈ T'.adj a ↔
              b ∈ T.adj a ∨ (a = host ∧ b = con) ∨ (a = con ∧ b = host)) ∨
          (peerConflict (T.subs con) { ad with rId := hostRid } = true ∧ T'.subs = T.subs ∧
            ∀ a b, b ∈ T'.adj a ↔
              (b ∈ T.adj a ∨ (a = host ∧ b = con) ∨ (a = con ∧ b = host)) ∧
                ¬ (hostRid ≠ 0 ∧ a = con ∧ b = host))) := by
  obtain ⟨hT₁, hext₁, hadj₁, hsubs₁, hcon₁, hlist, haddrs₁⟩ := conRouterOf_spec hT ad.rId now
  generalize hR : conRouterOf T ad.rId now = R at hT₁ hext₁ hadj₁ hsubs₁ hcon₁ hlist haddrs₁
  obtain ⟨T₁, con⟩ := R
  simp only at hT₁ hext₁ hadj₁ hsubs₁ hcon₁ hlist haddrs₁
  have hhost₁ : T₁.ridOf host = some hostRid := by
    rw [hext₁.ridOf (listed_of_ridOf hhost), hhost]
  have hp₁ := listed_of_ridOf hhost₁
  have hc₁ := listed_of_ridOf hcon₁
  obtain ⟨T₂, hrun₂, hcore₂, hT₂, hsubs₂, hadj₂⟩ := addAdjacency_spec hT₁ hp₁ hc₁
  have hp₂ : host ∈ T₂.addrs := by rw [hcore₂.addrs]; exact hp₁
  have hc₂ : con ∈ T₂.addrs := by rw [hcore₂.addrs]; exact hc₁
  obtain ⟨T₃, hrun₃, hcore₃, hT₃, hsubs₃, hadj₃⟩ := addAdjacency_spec hT₂ hc₂ hp₂
  have hcore₁₃ := hcore₂.trans hcore₃
  have hc₃ : con ∈ T₃.addrs := by rw [hcore₁₃.addrs]; exact hc₁
  have hhost₃ : T₃.ridOf host = some hostRid := by rw [hcore₁₃.ridOf, hhost₁]
  obtain ⟨h, hh, hrid⟩ := Option.map_eq_some_iff.mp hhost₃
  have hrun : linkAdvert T host ad now = recordAtPeer T₃ con { ad with rId := hostRid } := by
    rw [linkAdvert, hR]
    simp only
    rw [hrun₂, ok_bind, hrun₃, ok_bind, deref_of_find hh, ok_bind, hrid]
  have hsubs₃' : T₃.subs = T.subs := hsubs₃.trans (hsubs₂.trans hsubs₁)
  have hadj₃' : ∀ a b, b ∈ T₃.adj a ↔
      b ∈ T.adj a ∨ (a = host ∧ b = con) ∨ (a = con ∧ b = host) := by
    intro a b
    rw [hadj₃, hadj₂, hadj₁, or_assoc]
  obtain ⟨T', hrun', hcore', hT', hcase⟩ :=
    recordAtPeer_spec hT₃ hc₃ { ad with rId := hostRid }
  have hcore₁ := hcore₁₃.trans hcore'
  have hfield : ∀ p ∈ T.addrs, (T'.find p).map Router.core = (T.find p).map Router.core := by
    intro p hp
    have hsame := conRouterOf_core T ad.rId now hp
    rw [hR] at hsame
    rw [hcore₁.find_field Router.core (fun _ => rfl) p, hsame]
  refine ⟨T', hrun.trans hrun', hT', hext₁.trans (.of_sameCore hcore₁), hfield, con,
    by rw [hcore₁.ridOf, hcon₁], hlist, by rw [hcore₁.addrs]; exact haddrs₁, ?_⟩
  rw [hsubs₃'] at hcase
  rcases hcase with ⟨hpeer, hadj', subs', hrec, hsubs'⟩ | ⟨hpeer, hsubs', hadj'⟩
  · refine Or.inl ⟨hpeer, ⟨subs', hrec, hsubs'⟩, ?_⟩
    intro a b
    rw [hadj', hadj₃']
  · refine Or.inr ⟨hpeer, hsubs', ?_⟩
    intro a b
    have hb : T₃.ridOf b = some hostRid ↔ b = host :=
      ⟨fun hb => hT₃.ridOf_injective hb hhost₃, fun hb => hb ▸ hhost₃⟩
    rw [hadj', hadj₃', hb]

theorem addAdvert_spec (hT : T.Wf) (hhost : T.ridOf host = some hostRid) (ad : Route)
    (now : Time) :
    ∃ T', addAdvert T host ad now = .ok T' ∧ T'.Wf ∧ T.Extends T' ∧
      AdvertEffect T host hostRid ad T' := by
  obtain ⟨T₁, hcore, hT₁, hcase⟩ := recordAtHost_spec hT (listed_of_ridOf hhost) ad
  rcases hcase with ⟨hconf, hrun, hadj, subs, hrec, hsubs⟩ | ⟨old, hconf, hrun, hmem, hpfix, h0,
    hsubs, hadj⟩
  · by_cases h0 : ad.rId = 0
    · refine ⟨T₁, ?_, hT₁, .of_sameCore hcore, .stub hconf h0 hcore subs hrec hsubs hadj⟩
      rw [addAdvert, hrun, ok_bind]
      simp [h0]
    · have hhost₁ : T₁.ridOf host = some hostRid := by rw [hcore.ridOf, hhost]
      obtain ⟨T', hrun', hT', hext, -, con, hcon, hlist, haddrs, hcase⟩ :=
        linkAdvert_spec hT₁ hhost₁ ad now
      rw [hcore.adjListContains, hcore.addrs] at hlist
      rw [hcore.addrs] at haddrs
      rw [hsubs, hadj] at hcase
      refine ⟨T', ?_, hT', (Extends.of_sameCore hcore).trans hext, ?_⟩
      · rw [addAdvert, hrun, ok_bind]
        simp only [h0, ne_eq, not_false_eq_true, and_self, if_true]
        exact hrun'
      · rcases hcase with ⟨hpeer, ⟨subs', hrec', hsubs'⟩, hadj'⟩ | ⟨hpeer, hsubs', hadj'⟩
        · exact .linked hconf h0 subs hrec con hcon hlist haddrs hpeer subs' hrec' hsubs' hadj'
        · exact .refused hconf h0 subs hrec con hcon hlist haddrs hpeer hsubs' hadj'
  · refine ⟨T₁, ?_, hT₁, .of_sameCore hcore, .conflict old hconf hcore hmem hpfix h0 hsubs hadj⟩
    rw [addAdvert, hrun, ok_bind]
    simp

/-- Of the routers listed before, an advertisement changes only the two arrays. -/
theorem addAdvert_core (hT : T.Wf) (hhost : T.ridOf host = some hostRid) {ad : Route} {now : Time}
    (hrun : addAdvert T host ad now = .ok T') {p : Ptr} (hp : p ∈ T.addrs) :
    (T'.find p).map Router.core = (T.find p).map Router.core := by
  obtain ⟨T₁, hcore, hT₁, hcase⟩ := recordAtHost_spec hT (listed_of_ridOf hhost) ad
  have hfield := hcore.find_field Router.core (fun _ => rfl) p
  have hhost₁ : T₁.ridOf host = some hostRid := by rw [hcore.ridOf, hhost]
  obtain ⟨goOn, hrec⟩ : ∃ goOn, recordAtHost T host ad = .ok (T₁, goOn) := by
    rcases hcase with ⟨-, hrec, -⟩ | ⟨old, -, hrec, -⟩
    · exact ⟨true, hrec⟩
    · exact ⟨false, hrec⟩
  rw [addAdvert, hrec, ok_bind] at hrun
  simp only at hrun
  split at hrun
  · obtain ⟨T₂, hlink, -, -, hfield₂, -⟩ := linkAdvert_spec hT₁ hhost₁ ad now
    rw [hlink, Except.ok.injEq] at hrun
    rw [← hrun, hfield₂ p (by rw [hcore.addrs]; exact hp), hfield]
  · rw [pure_eq_ok, Except.ok.injEq] at hrun
    rw [← hrun, hfield]

theorem addAdverts_core {ads : List Route} {clock : Nat → Time} (hT : T.Wf)
    (hhost : T.ridOf host = some hostRid) (hrun : addAdverts host clock ads T = .ok T') {p : Ptr}
    (hp : p ∈ T.addrs) : (T'.find p).map Router.core = (T.find p).map Router.core := by
  induction ads generalizing T clock with
  | nil =>
    cases hrun
    rfl
  | cons ad ads ih =>
    obtain ⟨T₁, hrun₁, hT₁, hext, -⟩ := addAdvert_spec hT hhost ad (clock 0)
    rw [addAdverts, hrun₁, ok_bind] at hrun
    rw [ih hT₁ (by rw [hext.ridOf (listed_of_ridOf hhost), hhost]) hrun (hext.listed hp),
      addAdvert_core hT hhost hrun₁ hp]

/-- `P` holds at the start of every iteration of the loop. -/
def AdvertsAll (P : Topo → Route → Prop) (host : Ptr) :
    (Nat → Time) → List Route → Topo → Prop
  | _, [], _ => True
  | clock, ad :: ads, T =>
    P T ad ∧ ∀ T', addAdvert T host ad (clock 0) = .ok T' →
      AdvertsAll P host (fun k => clock (k + 1)) ads T'

theorem AdvertsAll.of_forall {P : Topo → Route → Prop} {ads : List Route}
    (h : ∀ ad ∈ ads, ∀ T, P T ad) (host : Ptr) (clock : Nat → Time) (T : Topo) :
    AdvertsAll P host clock ads T := by
  induction ads generalizing clock T with
  | nil => exact True.intro
  | cons ad ads ih =>
    obtain ⟨had, hads⟩ := List.forall_mem_cons.mp h
    exact ⟨had T, fun T' _ => ih hads _ T'⟩

theorem AdvertsAll.trivial (host : Ptr) (clock : Nat → Time) (ads : List Route) (T : Topo) :
    AdvertsAll (fun _ _ => True) host clock ads T :=
  .of_forall (fun _ _ _ => True.intro) host clock T

theorem AdvertsAll.mono {P P' : Topo → Route → Prop} (hle : ∀ T ad, P T ad → P' T ad)
    {clock : Nat → Time} {ads : List Route} (h : AdvertsAll P host clock ads T) :
    AdvertsAll P' host clock ads T := by
  induction ads generalizing clock T with
  | nil => exact True.intro
  | cons ad ads ih => exact ⟨hle T ad h.1, fun T' hrun => ih (h.2 T' hrun)⟩

instance AdvertsAll.decidable {P : Topo → Route → Prop} [∀ T ad, Decidable (P T ad)] (host : Ptr) :
    ∀ clock ads T, Decidable (AdvertsAll P host clock ads T)
  | _, [], _ => .isTrue True.intro
  | clock, ad :: ads, T =>
    have := AdvertsAll.decidable (P := P) host (fun k => clock (k + 1)) ads
    inferInstanceAs (Decidable (P T ad ∧ ∀ T', addAdvert T host ad (clock 0) = .ok T' →
      AdvertsAll P host (fun k => clock (k + 1)) ads T'))

theorem addAdverts_invariant {I : Topo → Prop} {P : Topo → Route → Prop}
    (hstep : ∀ T ad T', T.Wf → T.ridOf host = some hostRid → I T → P T ad → T'.Wf →
      T.Extends T' → AdvertEffect T host hostRid ad T' → I T')
    {ads : List Route} {clock : Nat → Time} (hT : T.Wf) (hhost : T.ridOf host = some hostRid)
    (hinv : I T) (hP : AdvertsAll P host clock ads T) :
    ∃ T', addAdverts host clock ads T = .ok T' ∧ T'.Wf ∧ T.Extends T' ∧ I T' := by
  induction ads generalizing clock T with
  | nil => exact ⟨T, rfl, hT, .of_sameCore (.refl T), hinv⟩
  | cons ad ads ih =>
    obtain ⟨T₁, hrun, hT₁, hext, heff⟩ := addAdvert_spec hT hhost ad (clock 0)
    have hinv₁ := hstep T ad T₁ hT hhost hinv hP.1 hT₁ hext heff
    have hhost₁ : T₁.ridOf host = some hostRid := by
      rw [hext.ridOf (listed_of_ridOf hhost), hhost]
    obtain ⟨T', hrun', hT', hext', hinv'⟩ := ih hT₁ hhost₁ hinv₁ (hP.2 T₁ hrun)
    refine ⟨T', ?_, hT', hext.trans hext', hinv'⟩
    rw [addAdverts, hrun, ok_bind, hrun']

/-! ## One pruned subnet -/

/-- What the removal of the link from `host` to the router with the given id does. -/
structure LinkRemoved (T : Topo) (host : Ptr) (hostRid id : UInt32) (T' : Topo) : Prop where
  core : SameCore T T'
  subs : T'.subs =
    let subs₁ := Function.update T.subs host (swapEraseP (fun s => s.rId = id) (T.subs host))
    match adjListContains T id with
    | none => subs₁
    | some n => Function.update subs₁ n (swapEraseP (fun s => s.rId = hostRid) (subs₁ n))
  adj : ∀ a b, b ∈ T'.adj a ↔ b ∈ T.adj a ∧
    ∀ n, adjListContains T id = some n → ¬ (a = n ∧ b = host) ∧ ¬ (a = host ∧ b = n)

theorem removeLink_spec (hT : T.Wf) (hhost : T.ridOf host = some hostRid) (id : UInt32) :
    ∃ T', removeLink T host hostRid id = .ok T' ∧ T'.Wf ∧ LinkRemoved T host hostRid id T' := by
  have hp := listed_of_ridOf hhost
  obtain ⟨T₁, hrun₁, hcore₁, hadj₁, hsubs₁⟩ := removeRtSnUsingId_spec hp id
  have hT₁ := hT.of_sameAdj hcore₁ hadj₁
  cases hn : adjListContains T id with
  | none =>
    refine ⟨T₁, ?_, hT₁, hcore₁, ?_, ?_⟩
    · rw [removeLink, hn, hrun₁, ok_bind]
      rfl
    · simpa only [hn] using hsubs₁
    · intro a b
      simp [hadj₁, hn]
  | some n =>
    have hnid := hT.adjListContains_iff.mp hn
    have hn₁ : n ∈ T₁.addrs := by rw [hcore₁.addrs]; exact listed_of_ridOf hnid
    obtain ⟨T₂, hrun₂, hcore₂, hadj₂, hsubs₂⟩ := removeRtSnUsingId_spec hn₁ hostRid
    have hT₂ := hT₁.of_sameAdj hcore₂ hadj₂
    have hn₂ : n ∈ T₂.addrs := by rw [hcore₂.addrs]; exact hn₁
    obtain ⟨T₃, hrun₃, hcore₃, hT₃, hsubs₃, hadj₃⟩ := removeRtAdjUsingId_spec hT₂ hn₂ hostRid
    have hcore := (hcore₁.trans hcore₂).trans hcore₃
    have hnid₃ : T₃.ridOf n = some id := by rw [hcore.ridOf, hnid]
    obtain ⟨r, hr, hrid⟩ := Option.map_eq_some_iff.mp hnid₃
    have hp₃ : host ∈ T₃.addrs := by rw [hcore.addrs]; exact hp
    obtain ⟨T₄, hrun₄, hcore₄, hT₄, hsubs₄, hadj₄⟩ := removeRtAdjUsingId_spec hT₃ hp₃ id
    refine ⟨T₄, ?_, hT₄, hcore.trans hcore₄, ?_, ?_⟩
    · rw [removeLink, hn, hrun₁, ok_bind]
      simp only
      rw [hrun₂, ok_bind, hrun₃, ok_bind, deref_of_find hr, ok_bind, hrid, hrun₄]
    · rw [hsubs₄, hsubs₃, hsubs₂, hsubs₁]
      simp only [hn]
    · intro a b
      have hb : T₂.ridOf b = some hostRid ↔ b = host := by
        rw [(hcore₁.trans hcore₂).ridOf]
        exact ⟨fun h => hT.ridOf_injective h hhost, fun h => h ▸ hhost⟩
      have hb' : T₃.ridOf b = some id ↔ b = n := by
        rw [hcore.ridOf]
        exact ⟨fun h => hT.ridOf_injective h hnid, fun h => h ▸ hnid⟩
      rw [hadj₄, hadj₃, hadj₂, hadj₁, hb, hb']
      simp [hn, and_assoc]

/-- `P` holds at every removal of the prune loop. -/
def PruneAll (P : Topo → Route → Prop) (host : Ptr) (hostRid : UInt32) (ads : List Route) :
    Nat → Nat → Topo → Prop
  | 0, _, _ => True
  | fuel + 1, i, T =>
    match (T.subs host)[i]? with
    | none => True
    | some s =>
      if subInAdv ads s then PruneAll P host hostRid ads fuel (i + 1) T
      else P T s ∧ ∀ T', removeLink T host hostRid s.rId = .ok T' →
        PruneAll P host hostRid ads fuel i T'

theorem PruneAll.trivial (host : Ptr) (hostRid : UInt32) (ads : List Route) (fuel i : Nat)
    (T : Topo) : PruneAll (fun _ _ => True) host hostRid ads fuel i T := by
  induction fuel generalizing i T with
  | zero => exact True.intro
  | succ fuel ih =>
    rw [PruneAll]
    split
    · exact True.intro
    · split
      · exact ih _ _
      · exact ⟨True.intro, fun T' _ => ih _ T'⟩

theorem PruneAll.mono {P P' : Topo → Route → Prop} (hle : ∀ T s, P T s → P' T s)
    {ads : List Route} {fuel i : Nat} (h : PruneAll P host hostRid ads fuel i T) :
    PruneAll P' host hostRid ads fuel i T := by
  induction fuel generalizing i T with
  | zero => exact True.intro
  | succ fuel ih =>
    rw [PruneAll] at h ⊢
    cases hs : (T.subs host)[i]? with
    | none => exact True.intro
    | some s =>
      rw [hs] at h
      simp only at h ⊢
      split
      · next hin =>
        rw [if_pos hin] at h
        exact ih h
      · next hin =>
        rw [if_neg hin] at h
        exact ⟨hle T s h.1, fun T' hrun => ih (h.2 T' hrun)⟩

instance PruneAll.decidable {P : Topo → Route → Prop} [∀ T s, Decidable (P T s)] (host : Ptr)
    (hostRid : UInt32) (ads : List Route) :
    ∀ fuel i T, Decidable (PruneAll P host hostRid ads fuel i T)
  | 0, _, _ => .isTrue True.intro
  | fuel + 1, i, T =>
    have := PruneAll.decidable (P := P) host hostRid ads fuel
    have : ∀ o : Option Route, Decidable (match o with
        | none => True
        | some s =>
          if subInAdv ads s then PruneAll P host hostRid ads fuel (i + 1) T
          else P T s ∧ ∀ T', removeLink T host hostRid s.rId = .ok T' →
            PruneAll P host hostRid ads fuel i T')
      | none => .isTrue True.intro
      | some _ => inferInstance
    this (T.subs host)[i]?

theorem LinkRemoved.length_lt {id : UInt32} (h : LinkRemoved T host hostRid id T') {s : Route}
    (hs : s ∈ T.subs host) (hid : s.rId = id) : (T'.subs host).length < (T.subs host).length := by
  have hlt := length_swapEraseP_lt (p := fun x => x.rId = id) hs (by simpa using hid)
  rw [h.subs]
  cases adjListContains T id with
  | none => simpa using hlt
  | some n =>
    simp only
    by_cases hn : n = host
    · subst hn
      simp only [Function.update_self]
      exact Nat.lt_of_le_of_lt (length_swapEraseP_le _ _) hlt
    · rw [Function.update_of_ne (Ne.symm hn), Function.update_self]
      exact hlt

/-- The prune loop ends: an iteration that does not move on shortens the array. -/
theorem pruneLoop_invariant {I : Topo → Prop} {P : Topo → Route → Prop} {ads : List Route}
    (hstep : ∀ T s T', T.Wf → T.ridOf host = some hostRid → I T → s ∈ T.subs host →
      subInAdv ads s = false → P T s → T'.Wf → LinkRemoved T host hostRid s.rId T' → I T')
    {fuel i : Nat} (hT : T.Wf) (hhost : T.ridOf host = some hostRid) (hinv : I T)
    (hP : PruneAll P host hostRid ads fuel i T) (hfuel : (T.subs host).length < fuel + i)
    (hpos : 0 < fuel) :
    ∃ T', pruneLoop host hostRid ads fuel i T = .ok T' ∧ T'.Wf ∧ SameCore T T' ∧ I T' := by
  induction fuel generalizing i T with
  | zero => exact absurd hpos (Nat.lt_irrefl 0)
  | succ fuel ih =>
    obtain ⟨h, hh⟩ := mem_addrs_iff.mp (listed_of_ridOf hhost)
    rw [PruneAll] at hP
    rw [pruneLoop, deref_of_find hh, ok_bind, ← subs_of_find hh]
    cases hs : (T.subs host)[i]? with
    | none => exact ⟨T, rfl, hT, .refl T, hinv⟩
    | some s =>
      have hi : i < (T.subs host).length := (List.getElem?_eq_some_iff.mp hs).1
      have hmem : s ∈ T.subs host := List.mem_of_getElem? hs
      rw [hs] at hP
      simp only at hP ⊢
      by_cases hin : subInAdv ads s
      · rw [if_pos hin] at hP ⊢
        exact ih hT hhost hinv hP (by omega) (by omega)
      · rw [if_neg hin] at hP ⊢
        obtain ⟨T₁, hrun, hT₁, hrem⟩ := removeLink_spec hT hhost s.rId
        have hinv₁ := hstep T s T₁ hT hhost hinv hmem (by simpa using hin) hP.1 hT₁ hrem
        have hhost₁ : T₁.ridOf host = some hostRid := by rw [hrem.core.ridOf, hhost]
        have hlen := hrem.length_lt hmem rfl
        rw [hrun, ok_bind]
        obtain ⟨T', hrun', hT', hcore', hinv'⟩ :=
          ih hT₁ hhost₁ hinv₁ (hP.2 T₁ hrun) (by omega) (by omega)
        exact ⟨T', hrun', hT', hrem.core.trans hcore', hinv'⟩

/-! ## The whole merge -/

theorem setExpired_spec (T : Topo) (p : Ptr) (now : Time) :
    SameLinks T (T.modify p (setExpired now)) ∧ T.Extends (T.modify p (setExpired now)) := by
  have hlinks : SameLinks T (T.modify p (setExpired now)) := modify_agree T p _ fun _ => rfl
  refine ⟨hlinks, rfl, ⟨[], by simp [hlinks.addrs]⟩, fun q _ => ?_⟩
  have h : Agree Router.ident T (T.modify p (setExpired now)) := modify_agree T p _ fun _ => rfl
  exact h.find?_map_eq _ (fun _ => rfl) _ fun _ => rfl

/-- The database the loop of `add_to_existing_router` starts from. -/
def mergeStart (T : Topo) (clock : Nat → Time) (hostRid : UInt32) : Topo :=
  (conRouterOf T hostRid (clock 0)).1.modify (conRouterOf T hostRid (clock 0)).2
    (setExpired (clock 1))

/-- `P` holds at the start of every iteration over the advertisements, `Q` at every removal of
the prune loop. -/
def MergeAll (P Q : Ptr → Topo → Route → Prop) (T : Topo) (initTime : Time) (clock : Nat → Time)
    (hostRid : UInt32) (ads : List Route) : Prop :=
  let host := (conRouterOf T hostRid (clock 0)).2
  let T₁ := mergeStart T clock hostRid
  AdvertsAll (P host) host (fun k => clock (k + 2)) ads T₁ ∧
    ∀ T₂, addAdverts host (fun k => clock (k + 2)) ads T₁ = .ok T₂ →
      initTime < clock (ads.length + 2) →
        PruneAll (Q host) host hostRid ads ((T₂.subs host).length + 1) 0 T₂

theorem MergeAll.mono {P P' Q Q' : Ptr → Topo → Route → Prop}
    (hP : ∀ h T ad, P h T ad → P' h T ad) (hQ : ∀ h T s, Q h T s → Q' h T s) {initTime : Time}
    {clock : Nat → Time} {ads : List Route} (h : MergeAll P Q T initTime clock hostRid ads) :
    MergeAll P' Q' T initTime clock hostRid ads :=
  ⟨h.1.mono (hP _), fun T₂ hrun hlate => (h.2 T₂ hrun hlate).mono (hQ _)⟩

instance MergeAll.decidable {P Q : Ptr → Topo → Route → Prop} [∀ h T ad, Decidable (P h T ad)]
    [∀ h T s, Decidable (Q h T s)] (T : Topo) (initTime : Time) (clock : Nat → Time)
    (hostRid : UInt32) (ads : List Route) : Decidable (MergeAll P Q T initTime clock hostRid ads) :=
  inferInstanceAs (Decidable (_ ∧ _))

theorem MergeAll.trivial (T : Topo) (initTime : Time) (clock : Nat → Time) (hostRid : UInt32)
    (ads : List Route) :
    MergeAll (fun _ _ _ => True) (fun _ _ _ => True) T initTime clock hostRid ads :=
  ⟨.trivial _ _ _ _, fun _ _ _ => .trivial _ _ _ _ _ _⟩

theorem mergeStart_spec (hT : T.Wf) (clock : Nat → Time) (hostRid : UInt32) :
    (mergeStart T clock hostRid).Wf ∧ T.Extends (mergeStart T clock hostRid) ∧
      (mergeStart T clock hostRid).adj = T.adj ∧ (mergeStart T clock hostRid).subs = T.subs ∧
      (mergeStart T clock hostRid).ridOf (conRouterOf T hostRid (clock 0)).2 = some hostRid ∧
      (adjListContains T hostRid = some (conRouterOf T hostRid (clock 0)).2 ∨
        adjListContains T hostRid = none ∧
          (conRouterOf T hostRid (clock 0)).2 ∉ T.addrs) ∧
      ∀ q ∈ (mergeStart T clock hostRid).addrs,
        q ∈ T.addrs ∨ q = (conRouterOf T hostRid (clock 0)).2 := by
  obtain ⟨hT₁, hext₁, hadj₁, hsubs₁, hrid₁, hlist, haddrs⟩ :=
    conRouterOf_spec hT hostRid (clock 0)
  obtain ⟨hlinks, hext₂⟩ := setExpired_spec (conRouterOf T hostRid (clock 0)).1
    (conRouterOf T hostRid (clock 0)).2 (clock 1)
  refine ⟨hT₁.of_sameLinks hlinks, hext₁.trans hext₂, hlinks.adj.trans hadj₁,
    hlinks.subs.trans hsubs₁, ?_, hlist, ?_⟩
  · rw [mergeStart, hlinks.ridOf, hrid₁]
  · rw [mergeStart, hlinks.addrs]
    exact haddrs

/-- The prune loop of `add_to_top` keeps `I` from the state the first loop ends in. -/
theorem mergePrune_invariant {I : Topo → Prop} {Q : Ptr → Topo → Route → Prop}
    (hprune : ∀ host ads T s T', T.Wf → T.ridOf host = some hostRid → I T →
      s ∈ T.subs host → subInAdv ads s = false → Q host T s → T'.Wf →
      LinkRemoved T host hostRid s.rId T' → I T')
    (hT : T.Wf) {initTime : Time} {clock : Nat → Time} {ads : List Route} {T₂ : Topo}
    (hrun₂ : addAdverts (conRouterOf T hostRid (clock 0)).2 (fun k => clock (k + 2)) ads
      (mergeStart T clock hostRid) = .ok T₂)
    (hT₂ : T₂.Wf) (hext₂ : (mergeStart T clock hostRid).Extends T₂) (hinv₂ : I T₂)
    (hprunes : initTime < clock (ads.length + 2) →
      PruneAll (Q (conRouterOf T hostRid (clock 0)).2) (conRouterOf T hostRid (clock 0)).2 hostRid
        ads ((T₂.subs (conRouterOf T hostRid (clock 0)).2).length + 1) 0 T₂) :
    ∃ T', mergeAdverts T initTime clock hostRid ads = .ok T' ∧ T'.Wf ∧ T.Extends T' ∧
      I T' := by
  obtain ⟨-, hext₁, -, -, hhost₁, -⟩ := mergeStart_spec hT clock hostRid
  obtain ⟨-, -, -, -, hhost₀, -⟩ := conRouterOf_spec hT hostRid (clock 0)
  obtain ⟨h₀, hh₀⟩ := mem_addrs_iff.mp (listed_of_ridOf hhost₀)
  have hext := hext₁.trans hext₂
  have hhost₂ : T₂.ridOf (conRouterOf T hostRid (clock 0)).2 = some hostRid := by
    rw [hext₂.ridOf (listed_of_ridOf hhost₁), hhost₁]
  obtain ⟨h₂, hh₂⟩ := mem_addrs_iff.mp (listed_of_ridOf hhost₂)
  have hrun : mergeAdverts T initTime clock hostRid ads =
      if initTime < clock (ads.length + 2) then
        pruneLoop (conRouterOf T hostRid (clock 0)).2 hostRid ads
          ((T₂.subs (conRouterOf T hostRid (clock 0)).2).length + 1) 0 T₂
      else .ok T₂ := by
    simp only [mergeAdverts, addToExistingRouter]
    rw [deref_of_find hh₀, ok_bind]
    have hmid : addAdverts (conRouterOf T hostRid (clock 0)).2 (fun k => clock (k + 1 + 1)) ads
        ((conRouterOf T hostRid (clock 0)).1.modify (conRouterOf T hostRid (clock 0)).2
          (setExpired (clock (0 + 1)))) = .ok T₂ := hrun₂
    rw [hmid, ok_bind]
    split
    · rw [deref_of_find hh₂, ok_bind, subs_of_find hh₂]
      rfl
    · rfl
  rw [hrun]
  by_cases hlate : initTime < clock (ads.length + 2)
  · rw [if_pos hlate]
    obtain ⟨T', hrun', hT', hcore, hinv'⟩ := pruneLoop_invariant
      (fun T s T' => hprune _ ads T s T') hT₂ hhost₂ hinv₂ (hprunes hlate) (by omega) (by omega)
    exact ⟨T', hrun', hT', hext.trans (.of_sameCore hcore), hinv'⟩
  · rw [if_neg hlate]
    exact ⟨T₂, rfl, hT₂, hext, hinv₂⟩

/-- The loops of `add_to_top` keep `I` from the state they start in. -/
theorem mergeLoops_invariant {I : Topo → Prop} {P Q : Ptr → Topo → Route → Prop}
    (hadvert : ∀ host T ad T', T.Wf → T.ridOf host = some hostRid → I T → P host T ad →
      T'.Wf → T.Extends T' → AdvertEffect T host hostRid ad T' → I T')
    (hprune : ∀ host ads T s T', T.Wf → T.ridOf host = some hostRid → I T →
      s ∈ T.subs host → subInAdv ads s = false → Q host T s → T'.Wf →
      LinkRemoved T host hostRid s.rId T' → I T')
    (hT : T.Wf) {initTime : Time} {clock : Nat → Time} {ads : List Route}
    (hinv : I (mergeStart T clock hostRid))
    (hall : MergeAll P Q T initTime clock hostRid ads) :
    ∃ T', mergeAdverts T initTime clock hostRid ads = .ok T' ∧ T'.Wf ∧ T.Extends T' ∧
      I T' := by
  obtain ⟨hT₁, -, -, -, hhost₁, -⟩ := mergeStart_spec hT clock hostRid
  obtain ⟨T₂, hrun₂, hT₂, hext₂, hinv₂⟩ :=
    addAdverts_invariant (hadvert _) hT₁ hhost₁ hinv hall.1
  exact mergePrune_invariant hprune hT hrun₂ hT₂ hext₂ hinv₂ (hall.2 T₂ hrun₂)

theorem mergeAdverts_wf (hT : T.Wf) (initTime : Time) (clock : Nat → Time) (hostRid : UInt32)
    (ads : List Route) :
    ∃ T', mergeAdverts T initTime clock hostRid ads = .ok T' ∧ T'.Wf ∧ T.Extends T' := by
  obtain ⟨T', hrun, hT', hext, -⟩ := mergeLoops_invariant (I := fun _ => True)
    (fun _ _ _ _ _ _ _ _ _ _ _ => True.intro) (fun _ _ _ _ _ _ _ _ _ _ _ _ _ => True.intro)
    hT True.intro (MergeAll.trivial T initTime clock hostRid ads)
  exact ⟨T', hrun, hT', hext⟩

/-- A merge changes timers of no router but the sender. -/
theorem mergeAdverts_core (hT : T.Wf) {initTime : Time} {clock : Nat → Time} {ads : List Route}
    (hrun : mergeAdverts T initTime clock hostRid ads = .ok T') {p : Ptr} (hp : p ∈ T.addrs)
    (hne : T.ridOf p ≠ some hostRid) :
    (T'.find p).map Router.core = (T.find p).map Router.core := by
  obtain ⟨hT₁, hext₁, -, -, hhost₁, -⟩ := mergeStart_spec hT clock hostRid
  have hstart : (mergeStart T clock hostRid).find p = T.find p := by
    have hph : p ≠ (conRouterOf T hostRid (clock 0)).2 := by
      rintro rfl
      rw [hext₁.ridOf hp] at hhost₁
      exact hne hhost₁
    rw [mergeStart, find_modify _ _ _ (setExpired (clock 1)) fun _ => rfl, if_neg hph,
      conRouterOf_core T hostRid (clock 0) hp]
  obtain ⟨T₂, hrun₂, hT₂, hext₂, -⟩ := addAdverts_invariant (I := fun _ => True)
    (fun _ _ _ _ _ _ _ _ _ _ => True.intro) hT₁ hhost₁ True.intro
    (AdvertsAll.trivial _ (fun k => clock (k + 2)) ads _)
  have hmid : (T₂.find p).map Router.core = (T.find p).map Router.core := by
    rw [addAdverts_core hT₁ hhost₁ hrun₂ (hext₁.listed hp), hstart]
  obtain ⟨T'', hrun', -, -, hcore⟩ := mergePrune_invariant
    (I := fun X => (X.find p).map Router.core = (T.find p).map Router.core)
    (Q := fun _ _ _ => True)
    (fun _ _ _ _ _ _ _ h _ _ _ _ hrem => (hrem.core.find_field _ (fun _ => rfl) p).trans h)
    hT hrun₂ hT₂ hext₂ hmid
    (fun _ : initTime < clock (ads.length + 2) => PruneAll.trivial _ _ _ _ _ _)
  rw [hrun', Except.ok.injEq] at hrun
  exact hrun ▸ hcore

end PWOSPF
