import PWOSPF.Topology.Pruning

/-!
# Advertised routes at their sender

`add_to_existing_router` edits the sender's array as one function of an advertised route, which
touches only the subnets with the advertised prefix. The route is there afterwards unless it made
another one give way.
-/

namespace PWOSPF

open Framework Topo

/-- The array holds the advertised prefix, mask and router id. -/
def Lists (subs : List Route) (ad : Route) : Prop :=
  ∃ s ∈ subs, s.pfix = ad.pfix ∧ s.mask = ad.mask ∧ s.rId = ad.rId

instance (subs : List Route) (ad : Route) : Decidable (Lists subs ad) :=
  inferInstanceAs (Decidable (∃ s ∈ subs, _))

/-- `recordAtHost` on the array of the sender alone. -/
def recordRoute (subs : List Route) (ad : Route) : List Route :=
  if subs.any (fun s => routeCmp s ad = 0) then subs
  else match subs.find? (fun s => s.pfix = ad.pfix) with
    | none => subs ++ [ad]
    | some old =>
      if ad.mask ≠ old.mask ∧ (ad.rId = 0 ∨ old.rId = 0) then subs ++ [ad]
      else if old.rId = 0 then
        subs.modify (subs.findIdx fun s => s.pfix = ad.pfix) fun s => { s with rId := ad.rId }
      else swapEraseP (fun x => routeCmp x old = 0) subs

/-- The outcomes of `recordRoute`, with the subnet that gives way. -/
inductive RouteRecorded (subs : List Route) (ad : Route) : Option Route → List Route → Prop
  | kept (h : Lists subs ad) : RouteRecorded subs ad none subs
  | added : RouteRecorded subs ad none (subs ++ [ad])
  | relabelled (pre post : List Route) (old : Route) (hsplit : subs = pre ++ old :: post)
      (hpfix : old.pfix = ad.pfix) (hmask : old.mask = ad.mask) :
      RouteRecorded subs ad none (pre ++ { old with rId := ad.rId } :: post)
  | removed (old : Route) (hnot : ¬ Lists subs ad) (hpfix : old.pfix = ad.pfix) :
      RouteRecorded subs ad (some old) (swapEraseP (fun x => routeCmp x old = 0) subs)

section Array

variable {subs subs' : List Route} {ad r : Route} {gone : Option Route}

theorem any_routeCmp_iff : subs.any (fun s => routeCmp s ad = 0) = true ↔ Lists subs ad := by
  simp [Lists]

theorem recordRoute_cases (subs : List Route) (ad : Route) :
    RouteRecorded subs ad (conflictingSubnet subs ad) (recordRoute subs ad) := by
  rw [conflictingSubnet, recordRoute]
  by_cases hany : subs.any (fun s => routeCmp s ad = 0) = true
  · rw [if_pos hany, if_pos hany]
    exact .kept (any_routeCmp_iff.mp hany)
  · have hnot : ¬ Lists subs ad := fun h => hany (any_routeCmp_iff.mpr h)
    rw [if_neg hany, if_neg hany]
    cases hfind : subs.find? (fun s => s.pfix = ad.pfix) with
    | none => exact .added
    | some old =>
      have hpfix : old.pfix = ad.pfix := by simpa using List.find?_some hfind
      simp only
      by_cases hmask : ad.mask ≠ old.mask ∧ (ad.rId = 0 ∨ old.rId = 0)
      · rw [if_pos hmask, if_pos (by tauto)]
        exact .added
      · rw [if_neg hmask]
        by_cases h0 : old.rId = 0
        · rw [if_pos (Or.inl h0), if_pos h0]
          have hsame : old.mask = ad.mask := by
            by_contra hne
            exact hmask ⟨Ne.symm hne, Or.inr h0⟩
          obtain ⟨pre, post, hsplit, hmod⟩ := modify_findIdx_split hfind fun s => { s with rId := ad.rId }
          rw [hmod]
          exact .relabelled pre post old hsplit hpfix hsame
        · rw [if_neg (by tauto), if_neg h0]
          exact .removed old hnot hpfix

/-- The advertised route is there afterwards exactly if it made no other subnet give way. -/
theorem RouteRecorded.lists_iff (h : RouteRecorded subs ad gone subs') :
    Lists subs' ad ↔ gone = none := by
  cases h with
  | kept h => exact iff_of_true h rfl
  | added => exact iff_of_true ⟨ad, by simp, rfl, rfl, rfl⟩ rfl
  | relabelled pre post old _ hpfix hmask =>
    exact iff_of_true ⟨_, List.mem_append_right _ List.mem_cons_self, hpfix, hmask, rfl⟩ rfl
  | removed old hnot =>
    refine iff_of_false ?_ (by simp)
    intro ⟨s, hs, heq⟩
    exact hnot ⟨s, mem_of_mem_swapEraseP hs, heq⟩

/-- Routes with another prefix are neither added nor removed. -/
theorem RouteRecorded.lists_other (h : RouteRecorded subs ad gone subs') (hr : r.pfix ≠ ad.pfix) :
    Lists subs' r ↔ Lists subs r := by
  cases h with
  | kept => exact Iff.rfl
  | added =>
    simp only [Lists, List.mem_append, List.mem_singleton, or_and_right, exists_or, exists_eq_left]
    exact or_iff_left fun heq => hr heq.1.symm
  | relabelled pre post old hsplit hpfix =>
    subst hsplit
    have hold : ∀ id, ¬ (old.pfix = r.pfix ∧ old.mask = r.mask ∧ id = r.rId) :=
      fun _ heq => hr (heq.1.symm.trans hpfix)
    simp only [Lists, List.mem_append, List.mem_cons, or_and_right, exists_or, exists_eq_left, hold,
      false_or]
  | removed old _ hpfix =>
    constructor
    · rintro ⟨s, hs, heq⟩
      exact ⟨s, mem_of_mem_swapEraseP hs, heq⟩
    · rintro ⟨s, hs, heq⟩
      refine ⟨s, mem_swapEraseP_of_not hs (decide_eq_false ?_), heq⟩
      rw [routeCmp_eq_zero]
      exact fun hcmp => hr (by rw [← heq.1, hcmp.1, hpfix])

/-- If nothing gives way, the subnets with another prefix stay in their order. -/
theorem RouteRecorded.filter_other (h : RouteRecorded subs ad none subs') {pfix : InAddr}
    (hne : pfix ≠ ad.pfix) :
    subs'.filter (fun s => s.pfix = pfix) = subs.filter (fun s => s.pfix = pfix) := by
  cases h with
  | kept => rfl
  | added => simp [Ne.symm hne]
  | relabelled pre post old hsplit hpfix =>
    subst hsplit
    have hold : ¬ old.pfix = pfix := fun heq => hne (heq.symm.trans hpfix)
    simp [hold]

/-- Which subnet gives way depends on those with the advertised prefix only. -/
theorem conflictingSubnet_filter (subs : List Route) (ad : Route) :
    conflictingSubnet (subs.filter fun s => s.pfix = ad.pfix) ad = conflictingSubnet subs ad := by
  have hany : (subs.filter fun s => s.pfix = ad.pfix).any (fun s => routeCmp s ad = 0) =
      subs.any (fun s => routeCmp s ad = 0) := by
    rw [List.any_filter]
    congr 1
    funext s
    by_cases hs : s.pfix = ad.pfix <;> simp [hs]
  have hfind : (subs.filter fun s => s.pfix = ad.pfix).find? (fun s => s.pfix = ad.pfix) =
      subs.find? (fun s => s.pfix = ad.pfix) := by
    rw [List.find?_filter]
    simp
  rw [conflictingSubnet, conflictingSubnet, hany, hfind]

theorem conflictingSubnet_recordRoute (hconf : conflictingSubnet subs ad = none)
    (hr : r.pfix ≠ ad.pfix) : conflictingSubnet (recordRoute subs ad) r = conflictingSubnet subs r := by
  have hcases := recordRoute_cases subs ad
  rw [hconf] at hcases
  rw [← conflictingSubnet_filter, hcases.filter_other hr, conflictingSubnet_filter]

theorem lists_foldl_recordRoute {ads : List Route} (hother : ∀ ad ∈ ads, r.pfix ≠ ad.pfix) :
    Lists (ads.foldl recordRoute subs) r ↔ Lists subs r := by
  induction ads generalizing subs with
  | nil => rfl
  | cons ad ads ih =>
    obtain ⟨had, hads⟩ := List.forall_mem_cons.mp hother
    rw [List.foldl_cons, ih hads]
    exact (recordRoute_cases subs ad).lists_other had

theorem foldl_recordRoute_lists_iff {ads : List Route} (hpfix : (ads.map Route.pfix).Nodup) :
    (∀ ad ∈ ads, Lists (ads.foldl recordRoute subs) ad) ↔
      ∀ ad ∈ ads, conflictingSubnet subs ad = none := by
  induction ads generalizing subs with
  | nil => simp
  | cons ad ads ih =>
    rw [List.map_cons, List.nodup_cons] at hpfix
    have hother : ∀ r ∈ ads, r.pfix ≠ ad.pfix :=
      fun r hr heq => hpfix.1 (heq ▸ List.mem_map_of_mem hr)
    have hfirst : Lists (ads.foldl recordRoute (recordRoute subs ad)) ad ↔
        conflictingSubnet subs ad = none := by
      rw [lists_foldl_recordRoute fun r hr => Ne.symm (hother r hr)]
      exact (recordRoute_cases subs ad).lists_iff
    rw [List.foldl_cons, List.forall_mem_cons, List.forall_mem_cons, hfirst, ih hpfix.2]
    apply and_congr_right
    intro hconf
    apply forall₂_congr
    intro r hr
    rw [conflictingSubnet_recordRoute hconf (hother r hr)]

end Array

/-! ## The loop on the sender's array -/

section Loop

variable {T T' : Topo} {host : Ptr} {hostRid : UInt32}

theorem recordAtHost_subs (hT : T.Wf) (hhost : host ∈ T.addrs) {ad : Route} {goOn : Bool}
    (hrun : recordAtHost T host ad = .ok (T', goOn)) :
    T'.subs host = recordRoute (T.subs host) ad := by
  cases recordAtHost_cases hhost ad with
  | listed hany hlisted =>
    rw [hlisted] at hrun
    cases hrun
    rw [recordRoute, if_pos hany]
  | added hany hold hadded =>
    obtain ⟨Ta, hadd, -, -, hsubs⟩ := addNewRoute_spec hhost ad
    rw [hadded, hadd] at hrun
    cases hrun
    rw [hsubs, Function.update_self, recordRoute, hany]
    cases hfind : (T.subs host).find? fun s => s.pfix = ad.pfix with
    | none => rfl
    | some old => simp [hold old hfind]
  | relabelled hany old hold hbeside h0 hlabelled =>
    obtain ⟨h, hh⟩ := mem_addrs_iff.mp hhost
    rw [hlabelled] at hrun
    cases hrun
    rw [subs_modify hh (Router.setRId ad.pfix ad.rId) fun _ => rfl, Function.update_self,
      recordRoute, hany, hold]
    simp only [if_neg hbeside, if_pos h0]
    rw [subs_of_find hh]
    rfl
  | refused hany old hold hbeside h0 hrefused =>
    obtain ⟨Tr, hrem, -, -, hleft, -⟩ := removeSubnetFromRouter_spec hT hhost old
    rw [hrefused, hrem] at hrun
    cases hrun
    rw [hleft, Function.update_self, recordRoute, hany, hold]
    simp only [if_neg hbeside, if_neg h0]
    rfl
/-- The opposite route goes to another router. -/
theorem addAdvert_subs (hT : T.Wf) (hhost : T.ridOf host = some hostRid) {ad : Route}
    (hne : ad.rId ≠ hostRid) {now : Time} (hrun : addAdvert T host ad now = .ok T') :
    T'.subs host = recordRoute (T.subs host) ad := by
  obtain ⟨T₁, hcore, hT₁, hcase⟩ := recordAtHost_spec hT (listed_of_ridOf hhost) ad
  have hhost₁ : T₁.ridOf host = some hostRid := by rw [hcore.ridOf, hhost]
  rcases hcase with ⟨-, hrec, -⟩ | ⟨old, -, hrec, -⟩
  · have hsubs := recordAtHost_subs hT (listed_of_ridOf hhost) hrec
    rw [addAdvert, hrec, ok_bind] at hrun
    by_cases h0 : ad.rId = 0
    · simp only [h0, ne_eq, not_true_eq_false, and_false, if_false, pure_eq_ok, Except.ok.injEq] at hrun
      rw [← hrun, hsubs]
    · simp only [h0, ne_eq, not_false_eq_true, and_self, if_true] at hrun
      obtain ⟨T₂, hlink, -, hext, -, con, hcon, -, -, hpeer⟩ := linkAdvert_spec hT₁ hhost₁ ad now
      rw [hlink, Except.ok.injEq] at hrun
      subst hrun
      have hcne : host ≠ con := by
        rintro rfl
        rw [hext.ridOf (listed_of_ridOf hhost₁), hhost₁, Option.some.injEq] at hcon
        exact hne hcon.symm
      rcases hpeer with ⟨-, ⟨subs', -, hsubs'⟩, -⟩ | ⟨-, hsubs', -⟩
      · rw [hsubs', Function.update_of_ne hcne, hsubs]
      · rw [hsubs', hsubs]
  · have hsubs := recordAtHost_subs hT (listed_of_ridOf hhost) hrec
    rw [addAdvert, hrec, ok_bind] at hrun
    simp only [Bool.false_eq_true, false_and, if_false, pure_eq_ok, Except.ok.injEq] at hrun
    rw [← hrun, hsubs]

theorem addAdverts_subs (hT : T.Wf) (hhost : T.ridOf host = some hostRid) {ads : List Route}
    (hne : ∀ ad ∈ ads, ad.rId ≠ hostRid) (clock : Nat → Time) :
    ∃ T', addAdverts host clock ads T = .ok T' ∧
      T'.subs host = ads.foldl recordRoute (T.subs host) := by
  induction ads generalizing T clock with
  | nil => exact ⟨T, rfl, rfl⟩
  | cons ad ads ih =>
    obtain ⟨had, hads⟩ := List.forall_mem_cons.mp hne
    obtain ⟨T₁, hrun, hT₁, hext, -⟩ := addAdvert_spec hT hhost ad (clock 0)
    have hhost₁ : T₁.ridOf host = some hostRid := by rw [hext.ridOf (listed_of_ridOf hhost), hhost]
    obtain ⟨T', hrun', hsubs⟩ := ih hT₁ hhost₁ hads fun k => clock (k + 1)
    refine ⟨T', ?_, ?_⟩
    · rw [addAdverts, hrun, ok_bind, hrun']
    · rw [hsubs, addAdvert_subs hT hhost had hrun, List.foldl_cons]

end Loop

/-- Every advertised route is held by its sender afterwards exactly if none of them makes a subnet
give way that the sender held before. -/
theorem advertised_recorded_iff {T : Topo} (hT : T.Wf) {host : Ptr} {hostRid : UInt32}
    (hhost : T.ridOf host = some hostRid) (clock : Nat → Time) {ads : List Route}
    (hpfix : (ads.map Route.pfix).Nodup) (hne : ∀ ad ∈ ads, ad.rId ≠ hostRid) :
    ∃ T', addToExistingRouter T clock ads host = .ok T' ∧
      ((∀ ad ∈ ads, Lists (T'.subs host) ad) ↔
        ∀ ad ∈ ads, conflictingSubnet (T.subs host) ad = none) := by
  obtain ⟨h, hh⟩ := mem_addrs_iff.mp (listed_of_ridOf hhost)
  obtain ⟨hlinks, -⟩ := setExpired_spec T host (clock 0)
  obtain ⟨T', hrun, hsubs⟩ := addAdverts_subs (hT.of_sameLinks hlinks)
    (by rw [hlinks.ridOf, hhost]) hne fun k => clock (k + 1)
  refine ⟨T', ?_, ?_⟩
  · rw [addToExistingRouter, deref_of_find hh, ok_bind, hrun]
  · rw [hsubs, hlinks.subs]
    exact foldl_recordRoute_lists_iff hpfix

theorem advertised_recorded_iff_sender :
    ∃ T', addToExistingRouter (senderTopo [⟨1, 0xffffffff, 0, 0⟩, ⟨2, 0xfffffffe, 0, 0⟩]) (fun _ => 0)
        [⟨1, 0xffffffff, 0, 9⟩, ⟨2, 0xffffffff, 0, 9⟩, ⟨3, 0xffffffff, 0, 0⟩] 1 = .ok T' ∧
      ∀ ad ∈ [⟨1, 0xffffffff, 0, 9⟩, ⟨2, 0xffffffff, 0, 9⟩, ⟨3, 0xffffffff, 0, 0⟩],
        Lists (T'.subs 1) ad := by
  have hsender : (senderTopo [⟨1, 0xffffffff, 0, 0⟩, ⟨2, 0xfffffffe, 0, 0⟩]).ridOf 1 = some 7 := by
    decide
  obtain ⟨T', hrun, hiff⟩ := advertised_recorded_iff (by decide) hsender (fun _ => 0)
    (by decide : ([⟨1, 0xffffffff, 0, 9⟩, ⟨2, 0xffffffff, 0, 9⟩, ⟨3, 0xffffffff, 0, 0⟩].map
      Route.pfix).Nodup) (by decide)
  exact ⟨T', hrun, hiff.mpr (by decide)⟩

/-- The sender's link to router 5 has become a stub. -/
theorem advertised_not_recorded :
    ¬ ∀ (T T' : Topo) (host : Ptr) (hostRid : UInt32) (clock : Nat → Time) (ads : List Route),
      T.Wf → T.ridOf host = some hostRid → host ≠ T.thisRouter → (ads.map Route.pfix).Nodup →
      (∀ ad ∈ ads, ad.rId ≠ hostRid) → addToExistingRouter T clock ads host = .ok T' →
      ∀ ad ∈ ads, Lists (T'.subs host) ad := by
  intro hall
  have hleft : (addToExistingRouter (senderTopo [⟨1, 0xffffffff, 0, 5⟩]) (fun _ => 0)
      [⟨1, 0xffffffff, 0, 0⟩] 1).map (fun T' => T'.subs 1) = .ok [] := by decide
  obtain ⟨T', hrun, hsubs⟩ := map_eq_ok.mp hleft
  have hlists := hall _ T' 1 7 (fun _ => 0) [⟨1, 0xffffffff, 0, 0⟩] (by decide) (by decide) (by decide)
    (by decide) (by decide) hrun ⟨1, 0xffffffff, 0, 0⟩ (by simp)
  rw [hsubs] at hlists
  exact absurd hlists (by decide)

end PWOSPF
