import PWOSPF.Subsystem.Runs

/-!
# Undirected adjacencies

Every operation adds and removes an adjacency together with its reverse, except
`remove_subnet_from_router`, which an advertisement reaches in two ways: its sender gives up a
conflicting subnet, or the attached router refuses the opposite route. Runs without such a one-sided
removal keep the adjacency relation symmetric.
-/

namespace PWOSPF

open Framework Topo

def Topo.Symmetric (T : Topo) : Prop := ∀ a b, b ∈ T.adj a ↔ a ∈ T.adj b

/-- The advertisement takes no adjacency away on one side only: the subnet its sender gives up
leads to no other adjacent router, and no other attached router refuses the opposite route. -/
def TwoSided (hostRid : UInt32) (host : Ptr) (T : Topo) (ad : Route) : Prop :=
  (∀ old ∈ conflictingSubnet (T.subs host) ad,
    ∀ x ∈ T.adj host, T.ridOf x = some old.rId → x = host) ∧
  (conflictingSubnet (T.subs host) ad = none → ad.rId ≠ 0 → hostRid ≠ 0 →
    ∀ con ∈ adjListContains T ad.rId, con ≠ host →
      peerConflict (T.subs con) { ad with rId := hostRid } = false)

instance (hostRid : UInt32) (host : Ptr) (T : Topo) (ad : Route) :
    Decidable (TwoSided hostRid host T ad) :=
  inferInstanceAs (Decidable (_ ∧ _))

/-- Every advertisement of a received LSU is two-sided when its turn comes. -/
def TwoSidedMerge (S : PwospfSubsys) (clock : Nat → Time) (hostRid : UInt32) (ads : List Route) :
    Prop :=
  MergeAll (TwoSided hostRid) (fun _ _ _ => True) S.top S.initTime clock hostRid ads

def TwoSidedEvent (S : PwospfSubsys) : Event → Prop
  | .lsu clock hostRid ads => TwoSidedMerge S clock hostRid ads
  | _ => True

variable {T T' : Topo} {host : Ptr} {hostRid id : UInt32}

/-- A link between two routers is one link from either end. -/
theorem link_swap {a b x y : Ptr} :
    (a = x ∧ b = y) ∨ (a = y ∧ b = x) ↔ (b = x ∧ a = y) ∨ (b = y ∧ a = x) :=
  or_comm.trans (or_congr and_comm and_comm)

theorem Topo.Symmetric.advert (h : T.Symmetric) {ad : Route}
    (hok : TwoSided hostRid host T ad) (heff : AdvertEffect T host hostRid ad T') :
    T'.Symmetric := by
  cases heff with
  | conflict old hconf _ _ _ _ _ hadj =>
    intro a b
    rw [hadj, hadj, h a b]
    -- both restrictions speak of the adjacency of the sender to itself
    have hself : ∀ x, x ∈ T.adj host → T.ridOf x = some old.rId → x = host := hok.1 old hconf
    constructor
    · rintro ⟨hm, hn⟩
      refine ⟨hm, ?_⟩
      rintro ⟨rfl, hrid⟩
      have := hself a hm hrid
      exact hn ⟨this, this ▸ hrid⟩
    · rintro ⟨hm, hn⟩
      refine ⟨hm, ?_⟩
      rintro ⟨rfl, hrid⟩
      have := hself b ((h a b).mpr hm) hrid
      exact hn ⟨this, this ▸ hrid⟩
  | stub _ _ _ _ _ _ hadj =>
    intro a b
    rw [hadj]
    exact h a b
  | linked _ _ _ _ con _ _ _ _ _ _ _ hadj =>
    intro a b
    rw [hadj, hadj, h a b]
    exact or_congr_right link_swap
  | refused hconf h0 subs _ con hcon hlist _ hpeer _ hadj =>
    have hone : con = host ∨ hostRid = 0 := by
      by_contra hne
      obtain ⟨hch, hr0⟩ := not_or.mp hne
      rw [Function.update_of_ne hch] at hpeer
      rcases hlist with hl | ⟨-, hfresh⟩
      · rw [hok.2 hconf h0 hr0 con hl hch] at hpeer
        cases hpeer
      · rw [Topo.subs, find_eq_none_iff.mpr hfresh] at hpeer
        cases hpeer
    intro a b
    rw [hadj, hadj, h a b]
    refine and_congr (or_congr_right link_swap) (not_congr (and_congr_right fun hr0 => ?_))
    cases hone with
    | inl hself =>
      rw [hself]
      exact and_comm
    | inr hzero => exact absurd hzero hr0

theorem Topo.Symmetric.linkRemoved (h : T.Symmetric) (hrem : LinkRemoved T host hostRid id T') :
    T'.Symmetric := by
  intro a b
  rw [hrem.adj, hrem.adj, h a b]
  refine and_congr_right fun _ => forall_congr' fun n => imp_congr_right fun _ => ?_
  rw [← not_or, ← not_or, link_swap]

theorem Topo.Symmetric.routerRemoved (h : T.Symmetric) {p : Ptr} (hrem : RouterRemoved T p id T') :
    T'.Symmetric := by
  intro a b
  rw [hrem.adj, hrem.adj, h a b]
  exact and_congr_right fun _ => and_comm

theorem Topo.Symmetric.merge {S : PwospfSubsys} {clock : Nat → Time} {ads : List Route} (hS : S.Wf)
    (h : S.top.Symmetric) (hok : TwoSidedMerge S clock hostRid ads)
    (hrun : mergeAdverts S.top S.initTime clock hostRid ads = .ok T') : T'.Symmetric := by
  obtain ⟨-, -, hadj, -⟩ := mergeStart_spec hS.top clock hostRid
  have hstart : (mergeStart S.top clock hostRid).Symmetric := by
    intro a b
    rw [hadj]
    exact h a b
  obtain ⟨T'', hrun', -, -, h'⟩ := mergeLoops_invariant (I := Topo.Symmetric)
    (fun _ _ _ _ _ _ h hok _ _ heff => Topo.Symmetric.advert h hok heff)
    (fun _ _ _ _ _ _ _ h _ _ _ _ hrem => Topo.Symmetric.linkRemoved h hrem) hS.top hstart hok
  rw [hrun', Except.ok.injEq] at hrun
  exact hrun ▸ h'

/-- In every run whose advertisements are two-sided the adjacency relation is symmetric. -/
theorem adjacencies_symmetric {sr : SrInstance} {clock : Nat → Time} {areaId : UInt32}
    {S₀ S : PwospfSubsys} (h₀ : pwospfInit sr clock areaId = .ok S₀)
    (hS : Reach Step TwoSidedEvent S₀ S) : ∀ a b, b ∈ S.top.adj a ↔ a ∈ S.top.adj b := by
  refine (run_invariant (I := Topo.Symmetric) (M := TwoSidedMerge) (Q := fun _ _ => True)
    (L := fun _ _ => True) ?_ ?_ ?_ ?_ ?_ ?_ (pwospfInit_wf h₀) ?_ hS).2.2
  · intro T T' _ h hl a b
    rw [hl.adj]
    exact h a b
  · exact fun S clock hostRid ads T' hWf _ h hok hrun => Topo.Symmetric.merge hWf h hok hrun
  · exact fun T thisRid id T' _ _ h _ _ hrem => Topo.Symmetric.linkRemoved h hrem
  · intro T msg T' _ h _ _ hlab a b
    rw [hlab.adj]
    exact h a b
  · exact fun T p id T' _ _ _ h _ hrem => Topo.Symmetric.routerRemoved h hrem
  · intro S e _ _ hok
    cases e with
    | lsu => exact hok
    | hello => exact fun _ => .trivial _ _ _ _ _ _
    | seq => exact True.intro
    | timeout => exact True.intro
  · intro a b
    simp [pwospfInit_adj h₀]

instance (S : PwospfSubsys) : (e : Event) → Decidable (TwoSidedEvent S e)
  | .lsu clock hostRid ads => inferInstanceAs (Decidable (MergeAll (TwoSided hostRid)
      (fun _ _ _ => True) S.top S.initTime clock hostRid ads))
  | .seq _ _ => .isTrue True.intro
  | .hello _ _ => .isTrue True.intro
  | .timeout _ => .isTrue True.intro

theorem adjacencies_symmetric_demo :
    ∃ S, Reach Step TwoSidedEvent demoStart S ∧ S.top.adj 1 = [0] ∧
      ∀ a b, b ∈ S.top.adj a ↔ a ∈ S.top.adj b := by
  have hadj : (runAll Event.run (fun S e => decide (e.Admitted S ∧ TwoSidedEvent S e)) demoEvents
      demoStart).map (fun S => S.top.adj 1) = some [0] := by decide
  obtain ⟨S, hrun, hS⟩ := Option.map_eq_some_iff.mp hadj
  have hreach : Reach Step TwoSidedEvent demoStart S :=
    reach_of_runAll (fun S e h => by simpa using h) hrun
  exact ⟨S, hreach, hS, adjacencies_symmetric demoStart_init hreach⟩

/-- Router 7 moves its link on one subnet from router 8 to router 9; router 8 keeps its
adjacency to 7. -/
theorem adjacencies_not_symmetric :
    ¬ ∀ (sr : SrInstance) (clock : Nat → Time) (areaId : UInt32) (S₀ S : PwospfSubsys),
      pwospfInit sr clock areaId = .ok S₀ → Reach Step (fun _ _ => True) S₀ S →
        ∀ a b, b ∈ S.top.adj a ↔ a ∈ S.top.adj b := by
  intro hall
  have hadj : (runAll Event.run (fun S e => decide (e.Admitted S))
      [.lsu (fun _ => 1) 7 [⟨0x10, 0xfeffffff, 0, 8⟩], .lsu (fun _ => 2) 7 [⟨0x10, 0xfeffffff, 0, 9⟩]]
      demoStart).map (fun S => (S.top.adj 1, S.top.adj 2)) = some ([], [1]) := by decide
  obtain ⟨S, hrun, hS⟩ := Option.map_eq_some_iff.mp hadj
  have hreach : Reach Step (fun _ _ => True) demoStart S :=
    reach_of_runAll (fun S e h => ⟨by simpa using h, True.intro⟩) hrun
  rw [Prod.mk.injEq] at hS
  have h := hall demoSr _ 0 demoStart S demoStart_init hreach 1 2
  rw [hS.1, hS.2] at h
  simp at h

end PWOSPF
