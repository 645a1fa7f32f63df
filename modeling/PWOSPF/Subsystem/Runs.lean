import PWOSPF.Subsystem.HelloSpec

/-!
# Runs of the subsystem

The subsystem as a state machine: an event is what one critical section handles. Every reachable
link-state database is well formed, and a handler that does not return stopped at an assertion.
-/

namespace PWOSPF

open Framework Topo

inductive Event
  | lsu (clock : Nat → Time) (hostRid : UInt32) (ads : List Route)
  | seq (routerId : UInt32) (lastSeq : UInt16)
  | hello (clock : Nat → Time) (msg : HelloMsg)
  | timeout (clock : Nat → Time)

def Event.run (S : PwospfSubsys) : Event → Exec PwospfSubsys
  | .lsu clock hostRid ads => addToTop S clock hostRid ads
  | .seq routerId lastSeq => .ok (setSequence S routerId lastSeq)
  | .hello clock msg => handleHello S clock msg
  | .timeout clock => checkTopInvalid S clock

/-- `handle_lsu` drops this router's own LSUs before it merges them. -/
def Event.Admitted (S : PwospfSubsys) : Event → Prop
  | .lsu _ hostRid _ => S.top.ridOf S.top.thisRouter ≠ some hostRid
  | _ => True

def Step (S : PwospfSubsys) (e : Event) (S' : PwospfSubsys) : Prop :=
  e.Admitted S ∧ e.run S = .ok S'

structure PwospfSubsys.Wf (S : PwospfSubsys) : Prop where
  top : S.top.Wf
  prevListed : ∀ r ∈ S.top.network, ∀ q, r.prev = some q → q ∈ S.top.addrs
  buffers : ∀ i ∈ S.interfaces, 0 < i.neighbors.bufSize

/-- What no event changes. -/
structure SameConfig (S S' : PwospfSubsys) : Prop where
  thisRouter : S'.top.thisRouter = S.top.thisRouter
  thisRid : S'.top.ridOf S.top.thisRouter = S.top.ridOf S.top.thisRouter
  interfaces : S'.interfaces.map PwospfIflist.static = S.interfaces.map PwospfIflist.static
  initTime : S'.initTime = S.initTime
  areaId : S'.areaId = S.areaId
  autype : S'.autype = S.autype

theorem SameConfig.refl (S : PwospfSubsys) : SameConfig S S := ⟨rfl, rfl, rfl, rfl, rfl, rfl⟩

theorem SameConfig.trans {S S' S'' : PwospfSubsys} (h : SameConfig S S') (h' : SameConfig S' S'') :
    SameConfig S S'' := by
  have hrid := h'.thisRid
  rw [h.thisRouter] at hrid
  exact ⟨h'.thisRouter.trans h.thisRouter, hrid.trans h.thisRid,
    h'.interfaces.trans h.interfaces, h'.initTime.trans h.initTime, h'.areaId.trans h.areaId,
    h'.autype.trans h.autype⟩

/-- Conditions on the single steps of an event: `M` on a merge, `Q` on the removal of a link of
this router, `L` on the labelling of one of its subnets. -/
def Event.Meets (M : PwospfSubsys → (Nat → Time) → UInt32 → List Route → Prop)
    (Q : Topo → UInt32 → Prop) (L : Topo → HelloMsg → Prop) (S : PwospfSubsys) : Event → Prop
  | .lsu clock hostRid ads => M S clock hostRid ads
  | .hello clock msg =>
    helloLen ≤ msg.len → HelloAll Q L S.initTime msg clock false S.interfaces S.top
  | _ => True

instance {M : PwospfSubsys → (Nat → Time) → UInt32 → List Route → Prop} {Q : Topo → UInt32 → Prop}
    {L : Topo → HelloMsg → Prop} [∀ S clock hostRid ads, Decidable (M S clock hostRid ads)]
    [∀ T id, Decidable (Q T id)] [∀ T msg, Decidable (L T msg)] (S : PwospfSubsys) :
    (e : Event) → Decidable (e.Meets M Q L S)
  | .lsu clock hostRid ads => inferInstanceAs (Decidable (M S clock hostRid ads))
  | .seq _ _ => .isTrue True.intro
  | .hello _ _ => inferInstanceAs (Decidable (_ → _))
  | .timeout _ => .isTrue True.intro

theorem Event.meets_trivial (S : PwospfSubsys) (e : Event) :
    e.Meets (fun _ _ _ _ => True) (fun _ _ => True) (fun _ _ => True) S := by
  cases e with
  | lsu => exact True.intro
  | hello => exact fun _ => .trivial _ _ _ _ _ _
  | seq => exact True.intro
  | timeout => exact True.intro

/-! ## Recomputing the routes -/

/-- Either the routes are recomputed, and only they change, or an assertion failed because one of
this router's subnets has no interface. -/
theorem recompute_spec {S : PwospfSubsys} (hT : S.top.Wf) :
    (∃ T ft, rebuild S.top S.interfaces = .ok (T, ft) ∧
        recompute S = .ok { S with top := T, fwrdTable := ft } ∧
        SameRecords S.top T ∧ Searched T) ∨
      recompute S = .error .assertion ∧ ¬ OwnMatched S.top S.interfaces := by
  obtain ⟨T, hrun, hsame, hsearch⟩ := dijkstra_spec hT.toLinked
  have hT' := hT.toLinked.of_sameLinks hsame.sameLinks
  cases hft : updateFtable T S.interfaces with
  | ok x =>
    have hrebuild : rebuild S.top S.interfaces = .ok (T, x.1) := by
      rw [rebuild, hrun, ok_bind, hft]
      rfl
    exact Or.inl ⟨T, x.1, hrebuild, by rw [recompute, hrebuild]; rfl, hsame, hsearch⟩
  | error f =>
    refine Or.inr ⟨?_, fun hown => ?_⟩
    · rw [recompute, rebuild, hrun, ok_bind, hft, updateFtable_fault hT' hsearch hft]
      rfl
    · obtain ⟨_, _, hrebuild, -⟩ := rebuild_spec hT.toLinked hown
      rw [rebuild, hrun, ok_bind, hft] at hrebuild
      cases hrebuild

theorem Searched.prevListed {T : Topo} (hT : T.addrs.Nodup) (h : Searched T) :
    ∀ r ∈ T.network, ∀ q, r.prev = some q → q ∈ T.addrs := by
  intro r hr q hq
  have hprev : T.labels.prev r.addr = some q := by rw [prev_of_find (find_of_mem hT hr), hq]
  exact mem_adj_listed (h.sound.prevEdge _ _ hprev).2.1

theorem prevListed_of_agree {g : Router → Router} {T T' : Topo} (h : Agree g T T')
    (hg : ∀ r, (g r).addr = r.addr ∧ (g r).prev = r.prev)
    (hp : ∀ r ∈ T.network, ∀ q, r.prev = some q → q ∈ T.addrs) :
    ∀ r ∈ T'.network, ∀ q, r.prev = some q → q ∈ T'.addrs := by
  have haddrs : T'.addrs = T.addrs := h.map_eq _ fun r => (hg r).1
  have hprevs := h.map_eq Router.prev fun r => (hg r).2
  intro r hr q hq
  have hmem : some q ∈ T.network.map Router.prev := by
    rw [← hprevs, ← hq]
    exact List.mem_map_of_mem hr
  obtain ⟨r', hr', hq'⟩ := List.mem_map.mp hmem
  rw [haddrs]
  exact hp r' hr' q hq'

/-! ## One event -/

section Rule

variable {I : Topo → Prop} {M : PwospfSubsys → (Nat → Time) → UInt32 → List Route → Prop}
  {Q : Topo → UInt32 → Prop} {L : Topo → HelloMsg → Prop}
  (hlinks : ∀ T T', T.Wf → I T → SameLinks T T' → I T')
  (hmerge : ∀ S clock hostRid ads T', S.Wf → S.top.ridOf S.top.thisRouter ≠ some hostRid →
    I S.top → M S clock hostRid ads →
    mergeAdverts S.top S.initTime clock hostRid ads = .ok T' → I T')
  (hremove : ∀ T thisRid id T', T.Wf → T.ridOf T.thisRouter = some thisRid → I T → Q T id →
    T'.Wf → LinkRemoved T T.thisRouter thisRid id T' → I T')
  (hlabel : ∀ T msg T', T.Wf → I T → L T msg → T'.Wf → SubnetLabelled T msg T' → I T')
  (hexpire : ∀ T p id T', T.Wf → T.ridOf p = some id → p ≠ T.thisRouter → I T → T'.Wf →
    RouterRemoved T p id T' → I T')

include hlinks in
theorem recompute_invariant {S : PwospfSubsys} (hT : S.top.Wf)
    (hbuf : ∀ i ∈ S.interfaces, 0 < i.neighbors.bufSize) (hinv : I S.top) :
    (∃ S', recompute S = .ok S' ∧ S'.Wf ∧ SameConfig S S' ∧ I S'.top) ∨
      recompute S = .error .assertion ∧ ∃ T, I T ∧ ¬ OwnMatched T S.interfaces := by
  rcases recompute_spec hT with ⟨T, ft, -, hrun, hsame, hsearch⟩ | ⟨hfault, hnot⟩
  · have hl := hsame.sameLinks
    have hT' := hT.of_sameLinks hl
    exact Or.inl ⟨_, hrun, ⟨hT', hsearch.prevListed hT'.addrsNodup, hbuf⟩,
      ⟨hl.thisRouter, hl.ridOf _, rfl, rfl, rfl, rfl⟩, hlinks _ _ hT hinv hl⟩
  · exact Or.inr ⟨hfault, S.top, hinv, hnot⟩

include hlinks hmerge in
theorem addToTop_invariant {S : PwospfSubsys} {clock : Nat → Time} {hostRid : UInt32}
    {ads : List Route} (hS : S.Wf) (hinv : I S.top)
    (hhost : S.top.ridOf S.top.thisRouter ≠ some hostRid) (hM : M S clock hostRid ads) :
    (∃ S', addToTop S clock hostRid ads = .ok S' ∧ S'.Wf ∧ SameConfig S S' ∧ I S'.top) ∨
      addToTop S clock hostRid ads = .error .assertion ∧
        ∃ T, I T ∧ ¬ OwnMatched T S.interfaces := by
  obtain ⟨T, hrun, hT, hext⟩ := mergeAdverts_wf hS.top S.initTime clock hostRid ads
  have hinvT := hmerge S clock hostRid ads T hS hhost hinv hM hrun
  have hadd : addToTop S clock hostRid ads = recompute { S with top := T } := by
    rw [addToTop, hrun, ok_bind]
  rw [hadd]
  rcases recompute_invariant hlinks (S := { S with top := T }) hT hS.buffers hinvT with
    ⟨S', hrun', hS', hsame, hinv'⟩ | hfault
  · exact Or.inl ⟨S', hrun', hS', ⟨hsame.thisRouter.trans hext.thisRouter,
      by rw [← hext.ridOf hS.top.thisListed, ← hext.thisRouter]; exact hsame.thisRid,
      hsame.interfaces, hsame.initTime, hsame.areaId, hsame.autype⟩, hinv'⟩
  · exact Or.inr hfault

include hlinks in
theorem setSequence_invariant {S : PwospfSubsys} (routerId : UInt32) (lastSeq : UInt16) (hS : S.Wf)
    (hinv : I S.top) :
    (setSequence S routerId lastSeq).Wf ∧ SameConfig S (setSequence S routerId lastSeq) ∧
      I (setSequence S routerId lastSeq).top := by
  unfold setSequence
  cases adjListContains S.top routerId with
  | none => exact ⟨hS, .refl S, hinv⟩
  | some p =>
    have hl : SameLinks S.top (S.top.modify p (Router.setLastSeq lastSeq)) :=
      modify_agree S.top p _ fun _ => rfl
    have hprev : Agree (Router.setLastSeq 0) S.top
        (S.top.modify p (Router.setLastSeq lastSeq)) := modify_agree S.top p _ fun _ => rfl
    exact ⟨⟨hS.top.of_sameLinks hl, prevListed_of_agree hprev (fun _ => ⟨rfl, rfl⟩)
      hS.prevListed, hS.buffers⟩, ⟨rfl, hl.ridOf _, rfl, rfl, rfl, rfl⟩,
      hlinks _ _ hS.top hinv hl⟩

include hremove hlabel in
theorem handleHello_invariant {S : PwospfSubsys} {clock : Nat → Time} {msg : HelloMsg} (hS : S.Wf)
    (hinv : I S.top)
    (hall : helloLen ≤ msg.len → HelloAll Q L S.initTime msg clock false S.interfaces S.top) :
    ∃ S', handleHello S clock msg = .ok S' ∧ S'.Wf ∧ SameConfig S S' ∧ I S'.top := by
  rw [handleHello]
  by_cases hlen : msg.len < helloLen
  · exact ⟨S, by rw [if_pos hlen]; rfl, hS, .refl S, hinv⟩
  · obtain ⟨interfaces, T, hrun, hstatic, hbuf, hT, hcore, hinv'⟩ :=
      helloLoop_invariant hremove hlabel hS.top hinv hS.buffers (hall (Nat.not_lt.mp hlen))
    refine ⟨{ S with interfaces := interfaces, top := T }, ?_, ⟨hT, ?_, hbuf⟩,
      ⟨hcore.thisRouter, hcore.ridOf _, hstatic, rfl, rfl, rfl⟩, hinv'⟩
    · rw [if_neg hlen, hrun]
      rfl
    · exact prevListed_of_agree hcore (fun _ => ⟨rfl, rfl⟩) hS.prevListed

include hlinks hexpire in
theorem checkTopInvalid_invariant {S : PwospfSubsys} (clock : Nat → Time) (hS : S.Wf)
    (hinv : I S.top) :
    (∃ S', checkTopInvalid S clock = .ok S' ∧ S'.Wf ∧ SameConfig S S' ∧ I S'.top) ∨
      checkTopInvalid S clock = .error .assertion ∧ ∃ T, I T ∧ ¬ OwnMatched T S.interfaces := by
  obtain ⟨thisRid, hthis⟩ := ridOf_isSome hS.top.thisListed
  -- this router is never removed, so its id stays what it is
  obtain ⟨T, changed, hrun, hT, hthisRouter, ⟨hinvT, hrid⟩, hsame⟩ :=
    expiryLoop_invariant (I := fun T => I T ∧ T.ridOf S.top.thisRouter = some thisRid ∧
        T.thisRouter = S.top.thisRouter)
      (fun T p id T' hT hid hne hI hT' hrem =>
        ⟨hexpire T p id T' hT hid hne hI.1 hT' hrem,
          by rw [hrem.ridOf (by rw [← hI.2.2]; exact Ne.symm hne)]; exact hI.2.1,
          hrem.thisRouter.trans hI.2.2⟩)
      (later 1 clock) false hS.top (fun _ h => h) hS.top.addrsNodup ⟨hinv, hthis, rfl⟩
  have hcheck : checkTopInvalid S clock =
      if changed then recompute { S with top := T } else .ok { S with top := T } := by
    rw [checkTopInvalid, hrun, ok_bind]
    rfl
  rw [hcheck]
  cases changed with
  | false =>
    left
    obtain ⟨-, rfl⟩ := hsame rfl
    exact ⟨S, rfl, hS, .refl S, hinv⟩
  | true =>
    rw [if_pos rfl]
    rcases recompute_invariant hlinks (S := { S with top := T }) hT hS.buffers hinvT with
      ⟨S', hrun', hS', hconf, hinv'⟩ | hfault
    · have hcr : S'.top.ridOf T.thisRouter = T.ridOf T.thisRouter := hconf.thisRid
      exact Or.inl ⟨S', hrun', hS', ⟨hconf.thisRouter.trans hthisRouter,
        by rw [hthisRouter] at hcr; rw [hcr, hrid.1, hthis],
        hconf.interfaces, hconf.initTime, hconf.areaId, hconf.autype⟩, hinv'⟩
    · exact Or.inr hfault

include hlinks hmerge hremove hlabel hexpire in
theorem Event.run_invariant {S : PwospfSubsys} {e : Event} (hS : S.Wf) (hinv : I S.top)
    (hadm : e.Admitted S) (hmeets : e.Meets M Q L S) :
    (∃ S', e.run S = .ok S' ∧ S'.Wf ∧ SameConfig S S' ∧ I S'.top) ∨
      e.run S = .error .assertion ∧ ∃ T, I T ∧ ¬ OwnMatched T S.interfaces := by
  cases e with
  | lsu => exact addToTop_invariant hlinks hmerge hS hinv hadm hmeets
  | seq routerId lastSeq =>
    exact Or.inl ⟨_, rfl, setSequence_invariant hlinks routerId lastSeq hS hinv⟩
  | hello => exact Or.inl (handleHello_invariant hremove hlabel hS hinv hmeets)
  | timeout clock => exact checkTopInvalid_invariant hlinks hexpire clock hS hinv

include hlinks hmerge hremove hlabel hexpire in
/-- The invariant rule for runs whose events all meet the conditions. -/
theorem run_invariant {S₀ S : PwospfSubsys} {ok : PwospfSubsys → Event → Prop}
    (hok : ∀ S e, S.Wf → SameConfig S₀ S → ok S e → e.Meets M Q L S) (h₀ : S₀.Wf) (hinv : I S₀.top)
    (hS : Reach Step ok S₀ S) : S.Wf ∧ SameConfig S₀ S ∧ I S.top := by
  refine Reach.invariant (I := fun S => S.Wf ∧ SameConfig S₀ S ∧ I S.top)
    ⟨h₀, .refl S₀, hinv⟩ ?_ hS
  rintro S e S' ⟨hWf, hconf, hI⟩ hmeets ⟨hadm, hrun⟩
  rcases Event.run_invariant hlinks hmerge hremove hlabel hexpire hWf hI hadm
    (hok S e hWf hconf hmeets) with ⟨S'', hrun', hWf', hconf', hI'⟩ | ⟨hfault, -⟩
  · rw [hrun', Except.ok.injEq] at hrun
    subst hrun
    exact ⟨hWf', hconf.trans hconf', hI'⟩
  · rw [hrun] at hfault
    cases hfault

end Rule

/-- Every event keeps the subsystem well formed or stops at an assertion. -/
theorem Event.run_wf {S : PwospfSubsys} {e : Event} (hS : S.Wf) (hadm : e.Admitted S) :
    (∃ S', e.run S = .ok S' ∧ S'.Wf ∧ SameConfig S S') ∨ e.run S = .error .assertion := by
  rcases Event.run_invariant (I := fun _ => True) (M := fun _ _ _ _ => True)
    (Q := fun _ _ => True) (L := fun _ _ => True) (by simp) (by simp) (by simp) (by simp) (by simp)
    hS True.intro hadm (Event.meets_trivial S e) with ⟨S', hrun, hS', hconf, -⟩ | ⟨hfault, -⟩
  · exact Or.inl ⟨S', hrun, hS', hconf⟩
  · exact Or.inr hfault

theorem run_wf {S₀ S : PwospfSubsys} {ok : PwospfSubsys → Event → Prop} (h₀ : S₀.Wf)
    (hS : Reach Step ok S₀ S) : S.Wf ∧ SameConfig S₀ S := by
  obtain ⟨hWf, hconf, -⟩ := run_invariant (I := fun _ => True) (M := fun _ _ _ _ => True)
    (Q := fun _ _ => True) (L := fun _ _ => True) (by simp) (by simp) (by simp) (by simp) (by simp)
    (fun S e _ _ _ => Event.meets_trivial S e) h₀ True.intro hS
  exact ⟨hWf, hconf⟩

/-! ## Start -/

theorem foldl_store_elems {α β : Type} (l : List β) (f : β → α) (a : DynArray α) :
    (l.foldl (fun a i => a.store (f i)) a).elems = a.elems ++ l.map f := by
  induction l generalizing a with
  | nil => simp
  | cons x l ih => simp [ih]

/-- The start state: this router alone, with one subnet and one table entry an interface. -/
theorem pwospfInit_spec {sr : SrInstance} {clock : Nat → Time} {areaId : UInt32}
    {S₀ : PwospfSubsys} (h : pwospfInit sr clock areaId = .ok S₀) :
    ∃ r, S₀.top.network = [r] ∧ S₀.top.thisRouter = r.addr ∧ r.addr < S₀.top.nextAddr ∧
      r.adjacencies.elems = [] ∧ r.prev = none ∧
      r.subnets.elems = (createPwospfIfaces sr).map initSubnet ∧
      S₀.interfaces = createPwospfIfaces sr ∧
      S₀.fwrdTable = (createPwospfIfaces sr).map initFtableEntry := by
  unfold pwospfInit at h
  cases hz : srGetInterface sr eth0Interface with
  | none =>
    rw [hz] at h
    cases h
  | some zero =>
    rw [hz] at h
    cases h
    refine ⟨_, rfl, rfl, Nat.zero_lt_one, rfl, rfl, ?_, rfl, rfl⟩
    simp only [newRouter, if_true]
    rw [foldl_store_elems]
    rfl

theorem pwospfInit_wf {sr : SrInstance} {clock : Nat → Time} {areaId : UInt32}
    {S₀ : PwospfSubsys} (h : pwospfInit sr clock areaId = .ok S₀) : S₀.Wf := by
  obtain ⟨r, hnet, hthis, hnext, hadj, hprev, -, hif, -⟩ := pwospfInit_spec h
  have haddrs : S₀.top.addrs = [r.addr] := by simp [addrs, hnet]
  refine ⟨wf_iff.mpr ⟨linked_iff.mpr ⟨?_, ?_, ?_, ?_⟩, ?_, ?_⟩, ?_, ?_⟩
  · simp [haddrs]
  · simp [hnet]
  · simp [haddrs, hthis]
  · simp [hnet, hadj]
  · simp [hnet, hadj]
  · simpa [haddrs] using hnext
  · simp [hnet, hprev]
  · rw [hif, createPwospfIfaces]
    intro i hi
    obtain ⟨s, -, rfl⟩ := List.mem_map.mp hi
    exact Nat.zero_lt_succ _

theorem pwospfInit_adj {sr : SrInstance} {clock : Nat → Time} {areaId : UInt32}
    {S₀ : PwospfSubsys} (h : pwospfInit sr clock areaId = .ok S₀) (p : Ptr) :
    S₀.top.adj p = [] := by
  obtain ⟨r, hnet, -, -, hadj, -⟩ := pwospfInit_spec h
  unfold adj
  split
  · next r' hr' =>
    have hmem := find_mem hr'
    rw [hnet, List.mem_singleton] at hmem
    rw [hmem, hadj]
  · rfl

/-! ## Running events -/

theorem reach_of_runAll {allow : PwospfSubsys → Event → Bool} {ok : PwospfSubsys → Event → Prop}
    (hallow : ∀ S e, allow S e = true → e.Admitted S ∧ ok S e) {es : List Event}
    {S₀ S : PwospfSubsys} (h : runAll Event.run allow es S₀ = some S) : Reach Step ok S₀ S := by
  apply Reach.of_runAll _ .start h
  intro S e S' hc hrun
  exact ⟨(hallow S e hc).2, (hallow S e hc).1, hrun⟩

instance (S : PwospfSubsys) : (e : Event) → Decidable (e.Admitted S)
  | .lsu _ hostRid _ => inferInstanceAs (Decidable (S.top.ridOf S.top.thisRouter ≠ some hostRid))
  | .seq _ _ => .isTrue True.intro
  | .hello _ _ => .isTrue True.intro
  | .timeout _ => .isTrue True.intro

/-- A router with the interface `eth0` at 10.0.0.1. -/
def demoSr : SrInstance := ⟨[⟨eth0Interface, #v[0, 0, 0, 0, 0, 1], 0x0100000a⟩], []⟩

def demoStart : PwospfSubsys where
  top :=
    { network := [{ newRouter 0 0x0100000a 0 with
        subnets := ⟨[⟨0x0000000a, 0xfeffffff, 0x0000000a, 0⟩], 10, 80⟩ }]
      thisRouter := 0
      nextAddr := 1 }
  fwrdTable := [⟨0x0000000a, 0xfeffffff, 0x0000000a, eth0Interface, 0⟩]
  interfaces := createPwospfIfaces demoSr
  lastSeqSent := 0
  areaId := 0
  autype := 0
  initTime := 90

theorem demoStart_init : pwospfInit demoSr (fun _ => 0) 0 = .ok demoStart := by decide

/-- The neighbor 10.0.0.0 says hello and advertises the shared subnet and a stub. -/
def demoEvents : List Event :=
  [.hello (fun _ => 1) ⟨32, eth0Interface, 0xfffffffe, 0x0500, 7, 0x0000000a⟩,
    .lsu (fun _ => 2) 7
      [⟨0x0000000a, 0xfeffffff, 0, 0x0100000a⟩, ⟨0x0000010a, 0xfeffffff, 0, 0⟩],
    .seq 7 0x0100, .timeout fun _ => 3]

/-! ## Well-formed topologies -/

/-- In every reachable state router ids are distinct, this router is listed, and neither an
adjacency nor a predecessor dangles; no handler reads through a dangling pointer. -/
theorem topology_wellFormed {sr : SrInstance} {clock : Nat → Time} {areaId : UInt32}
    {S₀ S : PwospfSubsys} (h₀ : pwospfInit sr clock areaId = .ok S₀)
    (hS : Reach Step (fun _ _ => True) S₀ S) :
    (S.top.network.map Router.rid).Nodup ∧ S.top.thisRouter ∈ S.top.addrs ∧
      (∀ r ∈ S.top.network, (∀ q ∈ r.adjacencies.elems, q ∈ S.top.addrs) ∧
        (∀ q, r.prev = some q → q ∈ S.top.addrs) ∧ r.adjacencies.elems.Nodup) ∧
      ∀ e : Event, e.Admitted S → e.run S ≠ .error .dangling := by
  obtain ⟨hWf, -⟩ := run_wf (pwospfInit_wf h₀) hS
  have hT := hWf.top
  refine ⟨hT.ridsNodup, hT.thisListed, fun r hr => ?_, fun e hadm hfault => ?_⟩
  · have hadj := adj_of_find (find_of_mem hT.addrsNodup hr)
    exact ⟨fun q hq => hT.adjListed r.addr q (hadj ▸ hq), hWf.prevListed r hr,
      hadj ▸ hT.adjNodup r.addr⟩
  · rcases Event.run_wf hWf hadm with ⟨S', hrun, -⟩ | hassert
    · rw [hrun] at hfault
      cases hfault
    · rw [hassert] at hfault
      cases hfault

theorem topology_wellFormed_demo :
    ∃ S, Reach Step (fun _ _ => True) demoStart S ∧ S.top.network.length = 2 ∧
      (S.top.network.map Router.rid).Nodup := by
  have hlen : (runAll Event.run (fun S e => decide (e.Admitted S)) demoEvents demoStart).map
      (fun S => S.top.network.length) = some 2 := by decide
  obtain ⟨S, hrun, hnet⟩ := Option.map_eq_some_iff.mp hlen
  have hS : Reach Step (fun _ _ => True) demoStart S :=
    reach_of_runAll (fun S e h => ⟨by simpa using h, True.intro⟩) hrun
  exact ⟨S, hS, hnet, (topology_wellFormed demoStart_init hS).1⟩

end PWOSPF
