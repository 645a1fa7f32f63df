import PWOSPF.Subsystem.Runs

/-!
# This router's own subnets

`pwospf_init` gives this router one subnet an interface, and `update_ftable` asserts that every
subnet of this router still has its interface. The reverse route of somebody else's advertisement
is the one place that adds a subnet to this router; runs in which it adds none but those of the
interfaces keep the correspondence, and meet no failing assertion.
-/

namespace PWOSPF

open Framework Topo

/-- The subnet has the prefix, mask and peer next hop of the interface. -/
def SubnetOf (i : PwospfIflist) (s : Route) : Prop :=
  s.pfix = i.address &&& i.mask ∧ s.mask = i.mask ∧ s.nextHop = peerNextHop i

instance (i : PwospfIflist) (s : Route) : Decidable (SubnetOf i s) :=
  inferInstanceAs (Decidable (_ ∧ _))

def OwnSubnets (interfaces : List PwospfIflist) (T : Topo) : Prop :=
  ∀ s ∈ T.subs T.thisRouter, ∃ i ∈ interfaces, SubnetOf i s

/-- The reverse route of the advertisement adds no subnet to this router, unless it is that of an
interface: it is added where the advertisement names this router, its sender keeps it, and this
router has no subnet with its prefix. -/
def AddsNoForeign (interfaces : List PwospfIflist) (host : Ptr) (T : Topo) (ad : Route) : Prop :=
  T.ridOf T.thisRouter = some ad.rId → ad.rId ≠ 0 → conflictingSubnet (T.subs host) ad = none →
    (∀ s ∈ T.subs T.thisRouter, s.pfix ≠ ad.pfix) → ∃ i ∈ interfaces, SubnetOf i ad

instance (interfaces : List PwospfIflist) (host : Ptr) (T : Topo) (ad : Route) :
    Decidable (AddsNoForeign interfaces host T ad) :=
  inferInstanceAs (Decidable (_ → _))

def AddsNoForeignEvent (S : PwospfSubsys) : Event → Prop
  | .lsu clock hostRid ads =>
    MergeAll (AddsNoForeign S.interfaces) (fun _ _ _ => True) S.top S.initTime clock hostRid ads
  | _ => True

instance (S : PwospfSubsys) : (e : Event) → Decidable (AddsNoForeignEvent S e)
  | .lsu clock hostRid ads => inferInstanceAs (Decidable (MergeAll (AddsNoForeign S.interfaces)
      (fun _ _ _ => True) S.top S.initTime clock hostRid ads))
  | .seq _ _ => .isTrue True.intro
  | .hello _ _ => .isTrue True.intro
  | .timeout _ => .isTrue True.intro

variable {T T' : Topo} {host : Ptr} {hostRid id : UInt32} {interfaces interfaces' : List PwospfIflist}

theorem exists_of_static {p : PwospfIflist → Prop} (hp : ∀ i, p i.static ↔ p i)
    (h : interfaces'.map PwospfIflist.static = interfaces.map PwospfIflist.static)
    (hex : ∃ i ∈ interfaces, p i) : ∃ i ∈ interfaces', p i := by
  obtain ⟨i, hi, hpi⟩ := hex
  have hmem : i.static ∈ interfaces'.map PwospfIflist.static := by
    rw [h]
    exact List.mem_map_of_mem hi
  obtain ⟨j, hj, hji⟩ := List.mem_map.mp hmem
  exact ⟨j, hj, (hp j).mp (hji ▸ (hp i).mpr hpi)⟩

theorem OwnSubnets.of_static (h : OwnSubnets interfaces T)
    (hst : interfaces'.map PwospfIflist.static = interfaces.map PwospfIflist.static) :
    OwnSubnets interfaces' T :=
  fun s hs => exists_of_static (p := fun i => SubnetOf i s) (fun _ => Iff.rfl) hst (h s hs)

theorem OwnSubnets.ownMatched (h : OwnSubnets interfaces T) : OwnMatched T interfaces := by
  intro s hs hnone
  obtain ⟨i, hi, hpfix, -⟩ := h s hs
  have := List.find?_eq_none.mp hnone i hi
  rw [hpfix, UInt32.and_comm] at this
  simp at this

theorem OwnSubnets.of_subset (h : OwnSubnets interfaces T) (hthis : T'.thisRouter = T.thisRouter)
    (hsub : ∀ s ∈ T'.subs T.thisRouter, s ∈ T.subs T.thisRouter) : OwnSubnets interfaces T' := by
  intro s hs
  rw [hthis] at hs
  exact h s (hsub s hs)

theorem Recorded.exists_core {A : Prop} {subs subs' : List Route} {ad : Route}
    (h : Recorded A subs ad subs') {s : Route} (hs : s ∈ subs') :
    (∃ x ∈ subs, x.pfix = s.pfix ∧ x.mask = s.mask ∧ x.nextHop = s.nextHop) ∨ A ∧ s = ad := by
  cases h with
  | kept => exact Or.inl ⟨s, hs, rfl, rfl, rfl⟩
  | added hA =>
    rcases List.mem_append.mp hs with hs | hs
    · exact Or.inl ⟨s, hs, rfl, rfl, rfl⟩
    · exact Or.inr ⟨hA, List.mem_singleton.mp hs⟩
  | relabelled pre post old hsplit =>
    left
    rcases List.mem_append.mp hs with hm | hm
    · exact ⟨s, by rw [hsplit]; exact List.mem_append_left _ hm, rfl, rfl, rfl⟩
    · rcases List.mem_cons.mp hm with rfl | hm
      · exact ⟨old, by simp [hsplit], rfl, rfl, rfl⟩
      · exact ⟨s, by simp [hsplit, hm], rfl, rfl, rfl⟩

theorem OwnSubnets.advert (hT : T.Wf) (hne : host ≠ T.thisRouter) (h : OwnSubnets interfaces T) {ad : Route}
    (hok : AddsNoForeign interfaces host T ad) (hext : T.Extends T')
    (heff : AdvertEffect T host hostRid ad T') : OwnSubnets interfaces T' := by
  have hthis := hext.thisRouter
  cases heff with
  | conflict old _ _ _ _ _ hsubs _ =>
    refine h.of_subset hthis fun s hs => ?_
    rwa [hsubs, Function.update_of_ne (Ne.symm hne)] at hs
  | stub _ _ _ subs _ hsubs _ =>
    refine h.of_subset hthis fun s hs => ?_
    rwa [hsubs, Function.update_of_ne (Ne.symm hne)] at hs
  | refused _ _ subs _ _ _ _ _ _ hsubs _ =>
    refine h.of_subset hthis fun s hs => ?_
    rwa [hsubs, Function.update_of_ne (Ne.symm hne)] at hs
  | linked hconf h0 subs _ con hcon _ _ _ subs' hrec' hsubs _ =>
    by_cases hct : con = T.thisRouter
    · subst hct
      rw [Function.update_of_ne (Ne.symm hne)] at hrec'
      intro s hs
      rw [hthis, hsubs, Function.update_self] at hs
      rcases hrec'.exists_core hs with ⟨x, hx, hp, hm, hn⟩ | ⟨hnew, rfl⟩
      · obtain ⟨i, hi, hip, him, hin⟩ := h x hx
        exact ⟨i, hi, hp ▸ hip, hm ▸ him, hn ▸ hin⟩
      · exact hok (by rw [← hext.ridOf hT.thisListed, hcon]) h0 hconf hnew
    · refine h.of_subset hthis fun s hs => ?_
      rwa [hsubs, Function.update_of_ne (Ne.symm hct), Function.update_of_ne (Ne.symm hne)] at hs

theorem LinkRemoved.subs_subset (h : LinkRemoved T host hostRid id T') (p : Ptr) :
    ∀ s ∈ T'.subs p, s ∈ T.subs p := by
  intro s hs
  rw [h.subs] at hs
  have hone : ∀ (f : Ptr → List Route) (q : Ptr) (pr : Route → Bool),
      s ∈ Function.update f q (swapEraseP pr (f q)) p → s ∈ f p := by
    intro f q pr hm
    by_cases hpq : p = q
    · subst hpq
      rw [Function.update_self] at hm
      exact mem_of_mem_swapEraseP hm
    · rwa [Function.update_of_ne hpq] at hm
  cases hn : adjListContains T id with
  | none =>
    rw [hn] at hs
    exact hone _ _ _ hs
  | some n =>
    rw [hn] at hs
    exact hone _ _ _ (hone _ _ _ hs)

theorem OwnSubnets.linkRemoved (h : OwnSubnets interfaces T)
    (hrem : LinkRemoved T host hostRid id T') : OwnSubnets interfaces T' :=
  h.of_subset hrem.core.thisRouter (hrem.subs_subset _)

theorem OwnSubnets.routerRemoved (h : OwnSubnets interfaces T) {p : Ptr}
    (hrem : RouterRemoved T p id T') : OwnSubnets interfaces T' := by
  refine h.of_subset hrem.thisRouter fun s hs => ?_
  rw [hrem.subs] at hs
  split at hs
  · cases hs
  · exact mem_of_mem_swapEraseP hs

theorem OwnSubnets.subnetLabelled {msg : HelloMsg} (h : OwnSubnets interfaces T)
    (hlab : SubnetLabelled T msg T') : OwnSubnets interfaces T' := by
  obtain ⟨pre, old, post, hsplit, -, -, -, hsubs⟩ := hlab.subs
  intro s hs
  rw [hlab.core.thisRouter, hsubs, Function.update_self] at hs
  rcases List.mem_append.mp hs with hm | hm
  · exact h s (by rw [hsplit]; exact List.mem_append_left _ hm)
  · rcases List.mem_cons.mp hm with rfl | hm
    · exact h old (by simp [hsplit])
    · exact h s (by simp [hsplit, hm])

theorem OwnSubnets.merge {S : PwospfSubsys} {clock : Nat → Time} {ads : List Route} (hS : S.Wf)
    (hne : S.top.ridOf S.top.thisRouter ≠ some hostRid) (h : OwnSubnets interfaces S.top)
    (hok : MergeAll (AddsNoForeign interfaces) (fun _ _ _ => True) S.top S.initTime clock
      hostRid ads)
    (hrun : mergeAdverts S.top S.initTime clock hostRid ads = .ok T') :
    OwnSubnets interfaces T' := by
  obtain ⟨-, hext, -, hsubs, -⟩ := mergeStart_spec hS.top clock hostRid
  -- the sender is another router throughout
  let I := fun T : Topo => OwnSubnets interfaces T ∧ T.ridOf T.thisRouter ≠ some hostRid
  have hstart : I (mergeStart S.top clock hostRid) := by
    refine ⟨h.of_subset hext.thisRouter fun s hs => by rwa [hsubs] at hs, ?_⟩
    rw [hext.thisRouter, hext.ridOf hS.top.thisListed]
    exact hne
  obtain ⟨T'', hrun', -, -, h', -⟩ := mergeLoops_invariant (I := I)
    (fun host T ad T' hT hhost hI hok hT' hext heff => by
      have hhne : host ≠ T.thisRouter := by
        rintro rfl
        exact hI.2 hhost
      refine ⟨hI.1.advert hT hhne hok hext heff, ?_⟩
      rw [hext.thisRouter, hext.ridOf hT.thisListed]
      exact hI.2)
    (fun host ads T s T' hT hhost hI _ _ _ _ hrem => by
      refine ⟨hI.1.linkRemoved hrem, ?_⟩
      rw [hrem.core.thisRouter, hrem.core.ridOf]
      exact hI.2)
    hS.top hstart hok
  rw [hrun', Except.ok.injEq] at hrun
  exact hrun ▸ h'

theorem pwospfInit_ownSubnets {sr : SrInstance} {clock : Nat → Time} {areaId : UInt32}
    {S₀ : PwospfSubsys} (h : pwospfInit sr clock areaId = .ok S₀) :
    OwnSubnets S₀.interfaces S₀.top := by
  obtain ⟨r, hnet, hthis, -, -, -, hsubs, hif, -⟩ := pwospfInit_spec h
  have hfind : S₀.top.find S₀.top.thisRouter = some r := by
    rw [find, hnet, hthis]
    simp
  intro s hs
  rw [subs_of_find hfind, hsubs] at hs
  obtain ⟨i, hi, rfl⟩ := List.mem_map.mp hs
  exact ⟨i, hif ▸ hi, rfl, rfl, rfl⟩

section Own

variable {sr : SrInstance} {clock : Nat → Time} {areaId : UInt32} {S₀ S : PwospfSubsys}

/-- The conditions of the invariant rule, for the interfaces the run started with. -/
theorem addsNoForeign_meets (hconf : SameConfig S₀ S) {e : Event} (hok : AddsNoForeignEvent S e) :
    e.Meets (fun S clock hostRid ads => MergeAll (AddsNoForeign S₀.interfaces) (fun _ _ _ => True)
      S.top S.initTime clock hostRid ads) (fun _ _ => True) (fun _ _ => True) S := by
  cases e with
  | lsu clock hostRid ads =>
    have hmerge : MergeAll (AddsNoForeign S.interfaces) (fun _ _ _ => True) S.top S.initTime clock
        hostRid ads := hok
    refine hmerge.mono (fun host T ad h => ?_) fun _ _ _ h => h
    intro hself h0 hnone hnew
    exact exists_of_static (p := fun i => SubnetOf i ad) (fun _ => Iff.rfl) hconf.interfaces.symm
      (h hself h0 hnone hnew)
  | hello => exact fun _ => .trivial _ _ _ _ _ _
  | seq => exact True.intro
  | timeout => exact True.intro

/-- The rule for one event, with the invariant of the interfaces the run started with. -/
theorem ownSubnets_event (hWf : S.Wf) (hconf : SameConfig S₀ S)
    (h : OwnSubnets S₀.interfaces S.top) {e : Event} (hadm : e.Admitted S)
    (hok : AddsNoForeignEvent S e) :
    ∃ S', e.run S = .ok S' ∧ S'.Wf ∧ SameConfig S S' ∧ OwnSubnets S₀.interfaces S'.top := by
  rcases Event.run_invariant (I := OwnSubnets S₀.interfaces)
    (fun T T' _ h hl => h.of_subset hl.thisRouter fun s hs => by rwa [hl.subs] at hs)
    (fun S clock hostRid ads T' hS hne h hok hrun => h.merge hS hne hok hrun)
    (fun T thisRid id T' _ _ h _ _ hrem => h.linkRemoved hrem)
    (fun T msg T' _ h _ _ hlab => h.subnetLabelled hlab)
    (fun T p id T' _ _ _ h _ hrem => h.routerRemoved hrem)
    hWf h hadm (addsNoForeign_meets hconf hok) with hrun | ⟨-, T, hT, hnot⟩
  · exact hrun
  · exact absurd (hT.of_static hconf.interfaces).ownMatched hnot

/-- In every run that adds no foreign subnet to this router, all its subnets are those of its
interfaces, and no assertion of `update_ftable` fails. -/
theorem ownSubnets_matched (h₀ : pwospfInit sr clock areaId = .ok S₀)
    (hS : Reach Step AddsNoForeignEvent S₀ S) :
    (∀ s ∈ S.top.subs S.top.thisRouter,
      (∃ i ∈ S.interfaces, SubnetOf i s) ∧ getSubnetIf S.interfaces s ≠ none) ∧
    ∀ e : Event, e.Admitted S → AddsNoForeignEvent S e → e.run S ≠ .error .assertion := by
  obtain ⟨hWf, hconf, h⟩ :
      S.Wf ∧ SameConfig S₀ S ∧ OwnSubnets S₀.interfaces S.top := by
    obtain ⟨hWf, hconf⟩ := run_wf (pwospfInit_wf h₀) hS
    refine ⟨hWf, hconf, (Reach.invariant (I := fun S => S.Wf ∧ SameConfig S₀ S ∧
      OwnSubnets S₀.interfaces S.top) ⟨pwospfInit_wf h₀, .refl S₀, pwospfInit_ownSubnets h₀⟩
      ?_ hS).2.2⟩
    rintro S e S' ⟨hWf, hconf, h⟩ hok ⟨hadm, hrun⟩
    obtain ⟨S'', hrun', hWf', hconf', h'⟩ := ownSubnets_event hWf hconf h hadm hok
    rw [hrun', Except.ok.injEq] at hrun
    subst hrun
    exact ⟨hWf', hconf.trans hconf', h'⟩
  have hown := h.of_static hconf.interfaces
  refine ⟨fun s hs => ⟨hown s hs, hown.ownMatched s hs⟩, fun e hadm hok hfault => ?_⟩
  obtain ⟨S', hrun, -⟩ := ownSubnets_event hWf hconf h hadm hok
  rw [hrun] at hfault
  cases hfault

end Own

theorem ownSubnets_matched_demo :
    ∃ S, Reach Step AddsNoForeignEvent demoStart S ∧ S.top.network.length = 2 ∧
      ∀ s ∈ S.top.subs S.top.thisRouter, ∃ i ∈ S.interfaces, SubnetOf i s := by
  have hlen : (runAll Event.run (fun S e => decide (e.Admitted S ∧ AddsNoForeignEvent S e)) demoEvents
      demoStart).map (fun S => S.top.network.length) = some 2 := by decide
  obtain ⟨S, hrun, hnet⟩ := Option.map_eq_some_iff.mp hlen
  have hS : Reach Step AddsNoForeignEvent demoStart S :=
    reach_of_runAll (fun S e h => by simpa using h) hrun
  exact ⟨S, hS, hnet, fun s hs => ((ownSubnets_matched demoStart_init hS).1 s hs).1⟩

/-- Router 7 advertises a link to this router over a subnet that this router does not have. -/
theorem ownSubnets_not_matched :
    ¬ ∀ (sr : SrInstance) (clock : Nat → Time) (areaId : UInt32) (S₀ S : PwospfSubsys),
      pwospfInit sr clock areaId = .ok S₀ → Reach Step (fun _ _ => True) S₀ S →
        (∀ s ∈ S.top.subs S.top.thisRouter,
          (∃ i ∈ S.interfaces, SubnetOf i s) ∧ getSubnetIf S.interfaces s ≠ none) ∧
        ∀ e : Event, e.Admitted S → e.run S ≠ .error .assertion := by
  intro hall
  have h := (hall demoSr _ 0 demoStart demoStart demoStart_init .start).2
    (.lsu (fun _ => 1) 7 [⟨0x20, 0xfeffffff, 0, 0x0100000a⟩]) (by decide)
  exact h (by decide)

end PWOSPF
