import PWOSPF.Framework.LastSeen
import PWOSPF.Subsystem.LsuSurvival
import PWOSPF.Subsystem.PacketRuns
import PWOSPF.Subsystem.Rebuilds

/-!
# Duplicate LSUs

A router remembers the sequence number it merged last from every originator, and drops an LSU with
that number. It remembers nothing older, so an LSU that arrives again after a newer one is merged
and flooded again.
-/

namespace PWOSPF

open Framework Topo

/-! ## What is remembered -/

/-- The sequence number stored for a router id, if a router with that id is listed. -/
def lastSeqOf (T : Topo) (id : UInt32) : Option UInt16 :=
  (T.network.find? fun r => r.rid = id).map Router.lastSeq

variable {T T' : Topo} {S S' : PwospfSubsys} {id : UInt32} {seq : UInt16}

theorem getSequence_of_lastSeqOf (h : lastSeqOf S.top id = some seq) : getSequence S id = seq := by
  unfold lastSeqOf at h
  rw [getSequence]
  cases hfind : S.top.network.find? fun r => r.rid = id with
  | none =>
    rw [hfind] at h
    cases h
  | some r =>
    rw [hfind] at h
    exact Option.some.inj h

theorem lastSeqOf_of_agree {g : Router → Router} (h : Agree g T T') (hrid : ∀ r, (g r).rid = r.rid)
    (hseq : ∀ r, (g r).lastSeq = r.lastSeq) (id : UInt32) : lastSeqOf T' id = lastSeqOf T id :=
  h.find?_map_eq _ (fun r => by rw [hrid]) _ hseq

theorem lastSeqOf_iff (hT : T.Wf) :
    lastSeqOf T id = some seq ↔ ∃ p r, T.find p = some r ∧ r.rid = id ∧ r.lastSeq = seq := by
  constructor
  · intro h
    obtain ⟨r, hr, hseq⟩ := Option.map_eq_some_iff.mp h
    exact ⟨r.addr, r, find_of_mem hT.addrsNodup (List.mem_of_find?_eq_some hr),
      by simpa using List.find?_some hr, hseq⟩
  · intro h
    obtain ⟨p, r, hr, hrid, hseq⟩ := h
    cases hfind : T.network.find? fun r => r.rid = id with
    | none =>
      have := List.find?_eq_none.mp hfind r (find_mem hr)
      simp [hrid] at this
    | some r' =>
      have hrid' : r'.rid = id := by simpa using List.find?_some hfind
      have hsame : r' = r := List.inj_on_of_nodup_map hT.ridsNodup
        (List.mem_of_find?_eq_some hfind) (find_mem hr) (hrid'.trans hrid.symm)
      rw [lastSeqOf, hfind, hsame, Option.map_some, hseq]

theorem lastSeqOf_of_extends (hT : T.Wf) (hT' : T'.Wf) (hext : T.Extends T')
    (h : lastSeqOf T id = some seq) : lastSeqOf T' id = some seq := by
  obtain ⟨p, r, hr, hrid, hseq⟩ := (lastSeqOf_iff hT).mp h
  have hp : p ∈ T.addrs := mem_addrs_iff.mpr ⟨r, hr⟩
  obtain ⟨r', hr'⟩ := mem_addrs_iff.mp (hext.listed hp)
  have hrid' := hext.field Router.rid (fun _ => rfl) hp
  have hseq' := hext.field Router.lastSeq (fun _ => rfl) hp
  rw [hr, hr', Option.map_some, Option.map_some, Option.some.injEq] at hrid' hseq'
  exact (lastSeqOf_iff hT').mpr ⟨p, r', hr', hrid'.trans hrid, hseq'.trans hseq⟩

/-- A merge forgets no sequence number, and lists the originator. -/
theorem mergeAdverts_lastSeq (hT : T.Wf) {initTime : Time} {clock : Nat → Time} {hostRid : UInt32}
    {ads : List Route} (h : mergeAdverts T initTime clock hostRid ads = .ok T') :
    T'.Wf ∧ (∀ id seq, lastSeqOf T id = some seq → lastSeqOf T' id = some seq) ∧
      ∃ p, T'.ridOf p = some hostRid := by
  let host := (conRouterOf T hostRid (clock 0)).2
  obtain ⟨-, -, -, -, hhost, -⟩ := mergeStart_spec hT clock hostRid
  obtain ⟨T'', hrun, hT'', hext, hhost'⟩ := mergeLoops_invariant (P := fun _ _ _ => True)
    (Q := fun _ _ _ => True) (I := fun T => T.ridOf host = some hostRid)
    (fun _ T ad T' _ _ hI _ _ hext _ => (hext.ridOf (listed_of_ridOf hI)).trans hI)
    (fun _ _ T s T' _ _ hI _ _ _ _ hrem => (hrem.core.ridOf host).trans hI)
    hT hhost (MergeAll.trivial T initTime clock hostRid ads)
  rw [hrun, Except.ok.injEq] at h
  subst h
  exact ⟨hT'', fun id seq hseq => lastSeqOf_of_extends hT hT'' hext hseq, host, hhost'⟩

theorem recompute_lastSeq (hT : S.top.Wf) (h : recompute S = .ok S') (id : UInt32) :
    lastSeqOf S'.top id = lastSeqOf S.top id := by
  rcases recompute_spec hT with ⟨T, ft, -, hrun, hsame, -⟩ | ⟨hfault, -⟩
  · rw [hrun, Except.ok.injEq] at h
    subst h
    exact lastSeqOf_of_agree hsame (fun _ => rfl) (fun _ => rfl) id
  · rw [h] at hfault
    cases hfault

theorem handleHello_lastSeq (hS : S.Wf) {clock : Nat → Time} {msg : HelloMsg}
    (h : handleHello S clock msg = .ok S') (id : UInt32) :
    lastSeqOf S'.top id = lastSeqOf S.top id := by
  rw [handleHello] at h
  by_cases hlen : msg.len < helloLen
  · rw [if_pos hlen] at h
    cases h
    rfl
  · obtain ⟨interfaces, T, hrun, -, -, -, hcore, -⟩ := helloLoop_invariant (I := fun _ => True)
      (Q := fun _ _ => True) (L := fun _ _ => True) (fun _ _ _ _ _ _ _ _ _ _ => True.intro)
      (fun _ _ _ _ _ _ _ _ => True.intro) hS.top True.intro hS.buffers
      (HelloAll.trivial S.initTime msg clock false S.interfaces S.top)
    rw [if_neg hlen, hrun] at h
    cases h
    exact lastSeqOf_of_agree hcore (fun _ => rfl) (fun _ => rfl) id

/-- The number is stored for the listed router with that id and for no other. -/
theorem setSequence_lastSeq (hT : S.top.Wf) {p : Ptr} (hp : S.top.ridOf p = some id) :
    lastSeqOf (setSequence S id seq).top id = some seq ∧
      ∀ id', id' ≠ id → ∀ seq', lastSeqOf S.top id' = some seq' →
        lastSeqOf (setSequence S id seq).top id' = some seq' := by
  obtain ⟨r, hr⟩ := mem_addrs_iff.mp (listed_of_ridOf hp)
  have hrid : r.rid = id := by
    rw [ridOf, hr] at hp
    exact Option.some.inj hp
  have hset : setSequence S id seq =
      { S with top := S.top.modify p (Router.setLastSeq seq) } := by
    rw [setSequence, hT.adjListContains_iff.mpr hp]
  have hfind : ∀ q, (S.top.modify p (Router.setLastSeq seq)).find q =
      if q = p then (S.top.find q).map (Router.setLastSeq seq) else S.top.find q :=
    fun q => find_modify S.top p q (Router.setLastSeq seq) fun _ => rfl
  have hT' : (S.top.modify p (Router.setLastSeq seq)).Wf :=
    hT.of_sameLinks (modify_agree S.top p _ fun _ => rfl)
  rw [hset]
  constructor
  · apply (lastSeqOf_iff hT').mpr
    exact ⟨p, Router.setLastSeq seq r, by rw [hfind, if_pos rfl, hr]; rfl, hrid, rfl⟩
  · intro id' hne seq' h
    obtain ⟨q, r', hr', hrid', hseq'⟩ := (lastSeqOf_iff hT).mp h
    have hq : q ≠ p := by
      rintro rfl
      rw [hr, Option.some.injEq] at hr'
      exact hne (by rw [← hrid', ← hr', hrid])
    apply (lastSeqOf_iff hT').mpr
    exact ⟨q, r', by rw [hfind, if_neg hq, hr'], hrid', hseq'⟩

/-! ## The log -/

/-- The router stores the number it merged last from every originator, it merged none twice in a
row, and it merged only what arrived. -/
structure Remembers (n : Node) : Prop where
  last : ∀ rid seq, (numbersOf rid n.applied).getLast? = some seq →
    lastSeqOf n.subsys.top rid = some seq
  neverRepeats : NeverRepeats n.applied
  sublist : n.applied.Sublist n.arrived

/-- No router has expired. -/
def Input.Quiet (n : Node) : Input → Prop
  | .packet _ _ => True
  | .timeout clock => (Event.timeout clock).rebuilt n.subsys = none
  | .send _ _ => True

theorem Remembers.start (S : PwospfSubsys) : Remembers (.start S) where
  last := by
    intro rid seq h
    cases h
  neverRepeats := fun _ => .nil
  sublist := .refl _

/-- Nothing was merged, and no stored number changed. -/
theorem Remembers.of_same {n n' : Node} (h : Remembers n) (happlied : n'.applied = n.applied)
    (harrived : n.arrived.Sublist n'.arrived)
    (hlast : ∀ id, lastSeqOf n'.subsys.top id = lastSeqOf n.subsys.top id) : Remembers n' where
  last := by
    intro rid seq hrid
    rw [happlied] at hrid
    rw [hlast]
    exact h.last rid seq hrid
  neverRepeats := by
    rw [happlied]
    exact h.neverRepeats
  sublist := by
    rw [happlied]
    exact h.sublist.trans harrived

/-- A merge of a number that is not the stored one, which is stored then. -/
theorem Remembers.merged {n n' : Node} (h : Remembers n) (hWf : n.subsys.Wf) {clock : Nat → Time}
    {rid : UInt32} {ads : List Route} {S₁ : PwospfSubsys} (hnew : getSequence n.subsys rid ≠ seq)
    (hmerge : addToTop n.subsys clock rid ads = .ok S₁)
    (hsubsys : n'.subsys = setSequence S₁ rid seq) (happlied : n'.applied = n.applied ++ [(rid, seq)])
    (harrived : n'.arrived = n.arrived ++ [(rid, seq)]) : Remembers n' := by
  obtain ⟨T, hT, hrecompute⟩ := bind_eq_ok.mp hmerge
  obtain ⟨hTWf, hkept, p, hp⟩ := mergeAdverts_lastSeq hWf.top hT
  have hS₁ : S₁.top.Wf ∧ S₁.top.ridOf p = some rid := by
    rcases recompute_spec (S := { n.subsys with top := T }) hTWf with
      ⟨T', ft, -, hrun, hsame, -⟩ | ⟨hfault, -⟩
    · rw [hrun, Except.ok.injEq] at hrecompute
      subst hrecompute
      exact ⟨hTWf.of_sameLinks hsame.sameLinks, (hsame.sameLinks.ridOf p).trans hp⟩
    · rw [hrecompute] at hfault
      cases hfault
  have hkept₁ : ∀ id s, lastSeqOf n.subsys.top id = some s → lastSeqOf S₁.top id = some s := by
    intro id s hs
    rw [recompute_lastSeq (S := { n.subsys with top := T }) hTWf hrecompute]
    exact hkept id s hs
  obtain ⟨hself, hothers⟩ := @setSequence_lastSeq _ rid seq hS₁.1 _ hS₁.2
  constructor
  · intro rid' seq' hlast
    rw [happlied, numbersOf_concat] at hlast
    rw [hsubsys]
    by_cases hrid : rid = rid'
    · subst hrid
      rw [if_pos rfl, List.getLast?_concat, Option.some.injEq] at hlast
      rw [hself, hlast]
    · rw [if_neg hrid] at hlast
      exact hothers rid' (Ne.symm hrid) seq' (hkept₁ rid' seq' (h.last rid' seq' hlast))
  · rw [happlied]
    apply h.neverRepeats.concat
    intro s' hs' heq
    exact hnew ((getSequence_of_lastSeqOf (h.last rid s' hs')).trans heq)
  · rw [happlied, harrived]
    exact h.sublist.append (.refl _)

theorem Remembers.step {n n' : Node} {i : Input} (h : Remembers n) (hWf : n.subsys.Wf)
    (hquiet : i.Quiet n) (hstep : NodeStep n i n') : Remembers n' := by
  cases i with
  | packet env ps =>
    obtain ⟨out, hrun, hn'⟩ := bind_eq_ok.mp hstep
    cases hn'
    cases handlePwospf_effect hrun with
    | dropped hout =>
      rw [hout]
      exact h.of_same (List.append_nil _) (List.sublist_append_left _ _) fun _ => rfl
    | hello msg hhello hcopies happlied =>
      exact h.of_same (by rw [happlied]; exact List.append_nil _) (List.sublist_append_left _ _)
        (handleHello_lastSeq hWf hhello)
    | lsu rid seq ads S₁ harrived hother hnew hmerge hsubsys happlied =>
      exact h.merged hWf hnew hmerge hsubsys (by rw [happlied]; rfl) (by rw [harrived]; rfl)
  | timeout clock =>
    obtain ⟨S', hrun, hn'⟩ := bind_eq_ok.mp hstep
    cases hn'
    rcases Event.run_rebuilt (e := .timeout clock) hWf hrun with ⟨T, hT, -⟩ | ⟨-, -, hsame⟩
    · rw [Input.Quiet, hT] at hquiet
      cases hquiet
    · rw [hsame clock rfl]
      exact h
  | send sr env =>
    obtain ⟨x, hrun, hn'⟩ := bind_eq_ok.mp hstep
    cases hn'
    have hsame : ∀ id, lastSeqOf x.1.top id = lastSeqOf n.subsys.top id := by
      intro id
      rw [sendLsu_subsys hrun]
      rfl
    exact @Remembers.of_same n ⟨x.1, n.arrived, n.applied⟩ h rfl (.refl _) hsame

theorem remembers {S₀ : PwospfSubsys} (h₀ : S₀.Wf) {n : Node}
    (hn : Reach NodeStep (fun n i => i.Quiet n) (.start S₀) n) : Remembers n := by
  induction hn with
  | start => exact .start S₀
  | next hreach hquiet hstep ih => exact ih.step (node_wf h₀ hreach) hquiet hstep

/-- An LSU with the number merged last from its originator is dropped: two merges of one LSU are
separated by the merge of another one of the same originator. If the LSUs of every originator
arrive in the order of their numbers, however often, each is merged and flooded at most once. -/
theorem lsu_dropped {sr : SrInstance} {clock : Nat → Time} {areaId : UInt32} {S₀ : PwospfSubsys}
    (h₀ : pwospfInit sr clock areaId = .ok S₀) {n : Node}
    (hn : Reach NodeStep (fun n i => i.Quiet n) (.start S₀) n) :
    (∀ rid seq pre mid post, n.applied = pre ++ (rid, seq) :: mid ++ (rid, seq) :: post →
        ∃ seq', (rid, seq') ∈ mid ∧ seq' ≠ seq) ∧
      ((∀ rid, (numbersOf rid n.arrived).Pairwise fun a b => ntohs a ≤ ntohs b) →
        n.applied.Nodup) ∧
      ∀ env ps out, handlePwospf n.subsys env ps = .ok out → out.applied = none →
        out.copies = [] := by
  have h := remembers (pwospfInit_wf h₀) hn
  refine ⟨?_, ?_, ?_⟩
  · intro rid seq pre mid post happlied
    have hrepeats := h.neverRepeats
    rw [happlied] at hrepeats
    exact hrepeats.separated
  · intro hsorted
    apply h.neverRepeats.nodup (f := fun s => (ntohs s).toNat)
      fun _ _ heq => htons_injective (UInt16.toNat_inj.mp heq)
    intro rid
    exact ((hsorted rid).sublist (numbersOf_sublist h.sublist rid)).imp UInt16.le_iff_toNat_le.mp
  · intro env ps out hrun hnone
    exact (handlePwospf_effect hrun).copies hnone

section Demo

/-- The interface `eth0` at 10.0.0.0, across from `demoSr`. -/
def demoPeerSr : SrInstance := ⟨[⟨eth0Interface, #v[0, 0, 0, 0, 0, 4], 0x0000000a⟩], []⟩

/-- What 10.0.0.1 sends after `k` LSUs. -/
def demoPackets (k : UInt16) : List Input :=
  match sendLsu demoRouted { demoOrigin with lastSeqSent := k } demoEnv with
  | .ok x => x.2.map fun c => .packet demoEnv ⟨c.frame, eth0Interface⟩
  | .error _ => []

/-- The run of 10.0.0.0 on what it receives. -/
def demoNode (inputs : List Input) : Option Node :=
  match pwospfInit demoPeerSr (fun _ => 0) 0 with
  | .ok S₀ => runAll Node.run (fun _ i => match i with | .packet _ _ => true | _ => false) inputs
      (.start S₀)
  | .error _ => none

theorem demoNode_reach {inputs : List Input} {n : Node} (h : demoNode inputs = some n) :
    ∃ S₀, pwospfInit demoPeerSr (fun _ => 0) 0 = .ok S₀ ∧
      Reach NodeStep (fun n i => i.Quiet n) (.start S₀) n := by
  unfold demoNode at h
  cases hS₀ : pwospfInit demoPeerSr (fun _ => 0) 0 with
  | error e =>
    rw [hS₀] at h
    cases h
  | ok S₀ =>
    rw [hS₀] at h
    refine ⟨S₀, rfl, Reach.of_runAll ?_ .start h⟩
    intro n i n' hallow hrun
    cases i with
    | packet env ps => exact ⟨True.intro, hrun⟩
    | timeout => cases hallow
    | send => cases hallow

theorem lsu_dropped_demo :
    ∃ S₀ n, pwospfInit demoPeerSr (fun _ => 0) 0 = .ok S₀ ∧
      Reach NodeStep (fun n i => i.Quiet n) (.start S₀) n ∧
      n.arrived = [(0x0100000a, 0x0100), (0x0100000a, 0x0100), (0x0100000a, 0x0200)] ∧
      n.applied.Nodup := by
  have hlog : (demoNode (demoPackets 0 ++ demoPackets 0 ++ demoPackets 1)).map Node.arrived =
      some [(0x0100000a, 0x0100), (0x0100000a, 0x0100), (0x0100000a, 0x0200)] := by
    decide +kernel
  obtain ⟨n, hn, harrived⟩ := Option.map_eq_some_iff.mp hlog
  obtain ⟨S₀, h₀, hreach⟩ := demoNode_reach hn
  refine ⟨S₀, n, h₀, hreach, harrived, (lsu_dropped h₀ hreach).2.1 ?_⟩
  intro rid
  rw [harrived]
  by_cases hrid : 0x0100000a = rid
  · subst hrid
    decide
  · simp [numbersOf, hrid]

/-- The second LSU overtakes a copy of the first. -/
theorem lsu_merged_twice :
    ∃ S₀ n, pwospfInit demoPeerSr (fun _ => 0) 0 = .ok S₀ ∧
      Reach NodeStep (fun n i => i.Quiet n) (.start S₀) n ∧
      n.applied = [(0x0100000a, 0x0100), (0x0100000a, 0x0200), (0x0100000a, 0x0100)] ∧
      ¬ n.applied.Nodup := by
  have hlog : (demoNode (demoPackets 0 ++ demoPackets 1 ++ demoPackets 0)).map Node.applied =
      some [(0x0100000a, 0x0100), (0x0100000a, 0x0200), (0x0100000a, 0x0100)] := by
    decide +kernel
  obtain ⟨n, hn, happlied⟩ := Option.map_eq_some_iff.mp hlog
  obtain ⟨S₀, h₀, hreach⟩ := demoNode_reach hn
  refine ⟨S₀, n, h₀, hreach, happlied, ?_⟩
  rw [happlied]
  decide

end Demo

end PWOSPF
