import PWOSPF.Subsystem.UsableHops

/-!
# The table in step with the topology

LSUs and expiring routers recompute the routes before the lock is released; `handle_HELLO` changes
subnets, adjacencies and neighbor records and recomputes nothing. The table stays the one a
recomputation would give as long as every HELLO received after the first recomputation only
refreshes records, or adds one that no route can use.
-/

namespace PWOSPF

open Framework Topo

/-- A recomputation from the current state would give the current table. -/
def InStep (S : PwospfSubsys) : Prop :=
  Prod.snd <$> rebuild S.top S.interfaces = .ok S.fwrdTable

/-- The id is that of a router adjacent to this one. -/
def Adjacent (T : Topo) (id : UInt32) : Prop := ∃ n ∈ T.adj T.thisRouter, T.ridOf n = some id

instance (T : Topo) (id : UInt32) : Decidable (Adjacent T id) :=
  inferInstanceAs (Decidable (∃ n ∈ T.adj T.thisRouter, _))

/-- No record of an interface the loop gets to has expired, and a record is added for an adjacent
router only where an earlier one is found first. -/
def HelloQuiet (T : Topo) (msg : HelloMsg) :
    (Nat → Time) → Bool → List PwospfIflist → List PwospfIflist → Prop
  | _, _, _, [] => True
  | clock, found, seen, iface :: rest =>
    (∀ j, (hj : j < iface.neighbors.elems.length) →
      ¬ iface.neighbors.elems[j].timenotvalid < clock (2 * j)) ∧
    if iface.name ≠ msg.interface then
      HelloQuiet T msg (later (helloTicks iface) clock) found (seen ++ [iface]) rest
    else if helloMismatch iface msg then True
    else
      let found' := found || iface.neighbors.elems.any fun nbr => nbr.ipAddress = msg.ipSrc
      (found' = false → Adjacent T msg.rid → HasNeighbor (seen ++ [iface]) msg.rid) ∧
        HelloQuiet T msg (later (helloTicks iface) clock) found' (seen ++ [iface]) rest

def QuietEvent (S : PwospfSubsys) : Event → Prop
  | .hello clock msg =>
    helloLen ≤ msg.len → HelloQuiet S.top msg clock false [] S.interfaces
  | _ => True

instance HelloQuiet.decidable (T : Topo) (msg : HelloMsg) :
    ∀ clock found seen interfaces, Decidable (HelloQuiet T msg clock found seen interfaces)
  | _, _, _, [] => .isTrue True.intro
  | clock, _, seen, iface :: rest =>
    have := fun found =>
      HelloQuiet.decidable T msg (later (helloTicks iface) clock) found (seen ++ [iface]) rest
    inferInstanceAs (Decidable ((∀ j, (hj : j < iface.neighbors.elems.length) →
        ¬ iface.neighbors.elems[j].timenotvalid < clock (2 * j)) ∧
      if iface.name ≠ msg.interface then HelloQuiet _ _ _ _ _ _
      else if helloMismatch iface msg then True
      else
        (_ → Adjacent T msg.rid → HasNeighbor (seen ++ [iface]) msg.rid) ∧ HelloQuiet _ _ _ _ _ _))

instance (S : PwospfSubsys) : (e : Event) → Decidable (QuietEvent S e)
  | .lsu _ _ _ => .isTrue True.intro
  | .seq _ _ => .isTrue True.intro
  | .hello _ _ => inferInstanceAs (Decidable (_ → _))
  | .timeout _ => .isTrue True.intro

/-! ## Neighbor records -/

/-- The part of a neighbor record that routes depend on. -/
def NeighborList.key (n : NeighborList) : UInt32 × InAddr := (n.id, n.ipAddress)

theorem hopOf_cons (i : PwospfIflist) (rest : List PwospfIflist) (id : UInt32) :
    hopOf (i :: rest) id =
      match (i.neighbors.elems.map NeighborList.key).find? fun k => k.1 = id with
      | some k => (k.2, i.name)
      | none => hopOf rest id := by
  have hkey : (fun k : UInt32 × InAddr => decide (k.1 = id)) ∘ NeighborList.key =
      fun n => decide (n.id = id) := rfl
  rw [List.find?_map, hkey, hopOf, getIfAndNeighbor]
  cases i.neighbors.elems.find? fun n => n.id = id <;> rfl

theorem hasNeighbor_append_singleton {seen : List PwospfIflist} {i : PwospfIflist} {id : UInt32} :
    HasNeighbor (seen ++ [i]) id ↔ HasNeighbor seen id ∨ ∃ n ∈ i.neighbors.elems, n.id = id := by
  simp only [HasNeighbor, List.mem_append, List.mem_singleton]
  constructor
  · intro h
    obtain ⟨j, hj | rfl, hn⟩ := h
    · exact Or.inl ⟨j, hj, hn⟩
    · exact Or.inr hn
  · intro h
    cases h with
    | inl h =>
      obtain ⟨j, hj, hn⟩ := h
      exact ⟨j, Or.inl hj, hn⟩
    | inr hn => exact ⟨i, Or.inr rfl, hn⟩

theorem not_hasNeighbor_append {seen : List PwospfIflist} {i : PwospfIflist} {id : UInt32}
    (hseen : ¬ HasNeighbor seen id)
    (hnone : (i.neighbors.elems.map NeighborList.key).find? (fun k => k.1 = id) = none) :
    ¬ HasNeighbor (seen ++ [i]) id := by
  rw [hasNeighbor_append_singleton]
  intro h
  cases h with
  | inl h => exact hseen h
  | inr h =>
    obtain ⟨n, hn, hid⟩ := h
    exact List.find?_eq_none.mp hnone _ (List.mem_map_of_mem hn) (decide_eq_true hid)

theorem recordNeighbor_spec (clock : Nat → Time) (msg : HelloMsg) (found : Bool)
    (neighbors : DynArray NeighborList) :
    let found' := found || neighbors.elems.any fun nbr => nbr.ipAddress = msg.ipSrc
    (recordNeighbor clock msg found neighbors).2 = found' ∧
      (recordNeighbor clock msg found neighbors).1.elems.map NeighborList.key =
        neighbors.elems.map NeighborList.key ++
          if found' then [] else [(msg.rid, msg.ipSrc)] := by
  refine ⟨recordNeighbor_found, ?_⟩
  rw [recordNeighbor_elems, List.map_append, refresh_map fun _ _ => rfl]
  split <;> rfl

/-- A record added behind another one with its id, or for an id that is not asked for, is not
found. -/
theorem find?_key_append {keys : List (UInt32 × InAddr)} {id id' : UInt32} {ip : InAddr}
    (h : id' = id → ∃ k ∈ keys, k.1 = id) :
    (keys ++ [(id', ip)]).find? (fun k => k.1 = id) = keys.find? fun k => k.1 = id := by
  rw [List.find?_append]
  by_cases hid : id' = id
  · obtain ⟨k, hk, hkid⟩ := h hid
    cases hfind : keys.find? fun k => k.1 = id with
    | none => exact absurd hkid (by simpa using List.find?_eq_none.mp hfind k hk)
    | some k' => rfl
  · simp [hid]

/-! ## A quiet HELLO -/

theorem expireNeighbors_quiet {initTime : Time} {clock : Nat → Time} {n i : Nat}
    {neighbors : DynArray NeighborList} (T : Topo) (hlen : i + n = neighbors.elems.length)
    (hquiet : ∀ j, i ≤ j → (hj : j < neighbors.elems.length) →
      ¬ neighbors.elems[j].timenotvalid < clock (2 * (j - i))) :
    expireNeighbors initTime clock n i neighbors T = .ok (neighbors, T) := by
  induction n generalizing clock i with
  | zero => rfl
  | succ n ih =>
    have hi : i < neighbors.elems.length := by omega
    have hnow := hquiet i (Nat.le_refl i) hi
    rw [Nat.sub_self, Nat.mul_zero] at hnow
    rw [expireNeighbors, List.getElem?_eq_getElem hi]
    simp only
    rw [if_neg hnow]
    apply ih (by omega)
    intro j hij hj
    have hlater := hquiet j (by omega) hj
    rwa [show 2 * (j - i) = 2 * (j - (i + 1)) + 2 by omega] at hlater

theorem helloIface_quiet {initTime : Time} {clock : Nat → Time} {msg : HelloMsg}
    {iface : PwospfIflist} (T : Topo) (found : Bool)
    (hquiet : ∀ j, (hj : j < iface.neighbors.elems.length) →
      ¬ iface.neighbors.elems[j].timenotvalid < clock (2 * j)) :
    helloIface initTime clock msg iface T found =
      if iface.name ≠ msg.interface then .ok (iface, T, found, true)
      else if helloMismatch iface msg then .ok (iface, T, found, false)
      else if iface.neighbors.bufSize = 0 then .error .assertion
      else
        let x := recordNeighbor (later (2 * iface.neighbors.size) clock) msg found iface.neighbors
        labelSubnet T msg >>= fun T => .ok ({ iface with neighbors := x.1 }, T, x.2, true) := by
  have hexpire : expireNeighbors initTime clock iface.neighbors.size 0 iface.neighbors T =
      .ok (iface.neighbors, T) :=
    expireNeighbors_quiet T (Nat.zero_add _) fun j _ hj => hquiet j hj
  simp only [helloIface, hexpire, ok_bind]
  rfl

theorem labelSubnet_sameRoutes {T T' : Topo} {msg : HelloMsg} (h : labelSubnet T msg = .ok T') :
    SameRoutes T T' := by
  obtain ⟨this, -, hbranch⟩ := bind_eq_ok.mp h
  simp only at hbranch
  split at hbranch
  · cases hbranch
    exact .refl T
  · split at hbranch
    · cases hbranch
      apply modify_agree
      intro r
      simp only [Router.routes, Router.routeData, Router.setRId, DynArray.modify_elems,
        Router.resetLabels, Router.mk.injEq, DynArray.mk.injEq, and_true, true_and]
      apply List.ext_getElem
      · simp
      · intro i _ _
        simp only [List.getElem_map, List.getElem_modify]
        split <;> rfl
    · cases hbranch
      exact .refl T

/-- The first record with an id stays the first one, unless the HELLO brings the id. -/
theorem recordNeighbor_first {clock : Nat → Time} {msg : HelloMsg} {found : Bool}
    {neighbors : DynArray NeighborList} {id : UInt32}
    (hknown : (found || neighbors.elems.any fun nbr => nbr.ipAddress = msg.ipSrc) = false →
      msg.rid = id → ∃ nbr ∈ neighbors.elems, nbr.id = id) :
    ((recordNeighbor clock msg found neighbors).1.elems.map NeighborList.key).find?
        (fun k => k.1 = id) =
      (neighbors.elems.map NeighborList.key).find? fun k => k.1 = id := by
  rw [(recordNeighbor_spec clock msg found neighbors).2]
  cases hfound : found || neighbors.elems.any fun nbr => nbr.ipAddress = msg.ipSrc with
  | true => simp
  | false =>
    apply find?_key_append
    intro hid
    obtain ⟨nbr, hnbr, hnid⟩ := hknown hfound hid
    exact ⟨nbr.key, List.mem_map_of_mem hnbr, hnid⟩

/-- A quiet HELLO changes nothing that routes depend on, nor the first record with the id of an
adjacent router. -/
theorem helloLoop_quiet {T₀ T T' : Topo} {initTime : Time} {msg : HelloMsg} {clock : Nat → Time}
    {found : Bool} {seen interfaces interfaces' : List PwospfIflist}
    (hquiet : HelloQuiet T₀ msg clock found seen interfaces)
    (hrun : helloLoop initTime msg clock found interfaces T = .ok (interfaces', T')) :
    SameRoutes T T' ∧
      interfaces'.map PwospfIflist.static = interfaces.map PwospfIflist.static ∧
      ∀ id, Adjacent T₀ id → ¬ HasNeighbor seen id → hopOf interfaces' id = hopOf interfaces id := by
  induction interfaces generalizing clock found seen interfaces' T with
  | nil =>
    cases hrun
    exact ⟨.refl _, rfl, fun _ _ _ => rfl⟩
  | cons iface rest ih =>
    rw [HelloQuiet] at hquiet
    obtain ⟨hlive, hquiet⟩ := hquiet
    rw [helloLoop, helloIface_quiet T found hlive] at hrun
    by_cases hname : iface.name ≠ msg.interface
    · -- another interface: untouched
      rw [if_pos hname] at hquiet hrun
      simp only [ok_bind, if_true] at hrun
      obtain ⟨⟨rest', T₁⟩, hrest, heq⟩ := bind_eq_ok.mp hrun
      cases heq
      obtain ⟨hsame, hstatic, hhop⟩ := ih hquiet hrest
      refine ⟨hsame, by simp [hstatic], fun id hadj hseen => ?_⟩
      rw [hopOf_cons, hopOf_cons]
      split
      · rfl
      · next hnone =>
        exact hhop id hadj (not_hasNeighbor_append hseen hnone)
    · rw [if_neg hname] at hquiet hrun
      by_cases hmis : helloMismatch iface msg
      · -- dropped
        rw [if_pos hmis] at hrun
        cases hrun
        exact ⟨.refl _, rfl, fun _ _ _ => rfl⟩
      · rw [if_neg hmis] at hquiet hrun
        obtain ⟨hadd, hquiet⟩ := hquiet
        by_cases hbuf : iface.neighbors.bufSize = 0
        · rw [if_pos hbuf] at hrun
          cases hrun
        · rw [if_neg hbuf] at hrun
          obtain ⟨hfound, -⟩ := recordNeighbor_spec
            (later (2 * iface.neighbors.size) clock) msg found iface.neighbors
          simp only [bind_assoc] at hrun
          obtain ⟨T₁, hlabel, hrun⟩ := bind_eq_ok.mp hrun
          simp only [ok_bind, if_true, hfound] at hrun
          obtain ⟨⟨rest', T₂⟩, hrest, heq⟩ := bind_eq_ok.mp hrun
          cases heq
          obtain ⟨hsame, hstatic, hhop⟩ := ih hquiet hrest
          refine ⟨Agree.trans (labelSubnet_sameRoutes hlabel) hsame, by simp [hstatic]; rfl,
            fun id hadj hseen => ?_⟩
          rw [hopOf_cons, hopOf_cons, recordNeighbor_first]
          · split
            · rfl
            · next hnone =>
              exact hhop id hadj (not_hasNeighbor_append hseen hnone)
          · rintro hnew rfl
            exact (hasNeighbor_append_singleton.mp (hadd hnew hadj)).resolve_left hseen

/-! ## Events -/

theorem InStep.congr {S S' : PwospfSubsys} (hT : S.top.Linked) (h : InStep S)
    (hsame : SameRoutes S.top S'.top)
    (hstatic : S'.interfaces.map PwospfIflist.static = S.interfaces.map PwospfIflist.static)
    (hhop : ∀ n ∈ S.top.adj S.top.thisRouter, ∀ id ∈ S.top.ridOf n,
      hopOf S'.interfaces id = hopOf S.interfaces id)
    (htable : S'.fwrdTable = S.fwrdTable) : InStep S' := by
  rw [InStep, rebuild_congr hstatic hT hsame hhop, htable]
  exact h

theorem recompute_inStep {S S' : PwospfSubsys} (hT : S.top.Wf) (hrun : recompute S = .ok S') :
    InStep S' := by
  rcases recompute_spec hT with ⟨T, ft, hrebuild, hrun', hsame, -⟩ | ⟨hfault, -⟩
  · rw [hrun', Except.ok.injEq] at hrun
    subst hrun
    have hroutes : SameRoutes S.top T :=
      ⟨hsame.map_eq Router.routes fun _ => rfl, hsame.thisRouter, hsame.nextAddr⟩
    rw [InStep, hroutes.rebuild_eq, hrebuild]
    rfl
  · rw [hrun] at hfault
    cases hfault

/-- A quiet event that does not rebuild the table keeps it in step. -/
theorem Event.run_inStep {S S' : PwospfSubsys} {e : Event} (hS : S.Wf) (h : InStep S)
    (hquiet : QuietEvent S e) (hnone : e.rebuilt S = none) (hrun : e.run S = .ok S') :
    InStep S' := by
  obtain ⟨-, htable, htimeout⟩ : e.rebuilt S = none ∧ S'.fwrdTable = S.fwrdTable ∧
      ∀ clock, e = .timeout clock → S' = S := by
    rcases Event.run_rebuilt hS hrun with ⟨T, hT, -⟩ | hkeep
    · rw [hnone] at hT
      cases hT
    · exact hkeep
  cases e with
  | lsu clock hostRid ads =>
    obtain ⟨T, hmerge, -⟩ := mergeAdverts_wf hS.top S.initTime clock hostRid ads
    rw [Event.rebuilt, hmerge] at hnone
    cases hnone
  | seq routerId lastSeq =>
    rw [Event.run, Except.ok.injEq, setSequence] at hrun
    split at hrun
    · subst hrun
      exact h.congr hS.top.toLinked (modify_agree _ _ _ fun _ => rfl) rfl (fun _ _ _ _ => rfl) rfl
    · exact hrun ▸ h
  | hello clock msg =>
    rw [Event.run, handleHello] at hrun
    split at hrun
    · cases hrun
      exact h
    · next hlen =>
      obtain ⟨⟨interfaces, T⟩, hloop, heq⟩ := bind_eq_ok.mp hrun
      cases heq
      obtain ⟨hsame, hstatic, hhop⟩ := helloLoop_quiet (hquiet (Nat.not_lt.mp hlen)) hloop
      refine InStep.congr (S := S) hS.top.toLinked h hsame hstatic ?_ rfl
      intro n hn id hid
      apply hhop id ⟨n, hn, hid⟩
      intro hseen
      obtain ⟨i, hi, -⟩ := hseen
      cases hi
  | timeout clock => exact (htimeout clock rfl) ▸ h

/-- In every run whose HELLOs are quiet after the first recomputation, the table is the one a
recomputation from the current state would give. -/
theorem ftable_inStep {sr : SrInstance} {clock : Nat → Time} {areaId : UInt32} {S₀ : PwospfSubsys}
    {t : Traced} (h₀ : pwospfInit sr clock areaId = .ok S₀)
    (ht : Reach TracedStep (fun t e => t.built.isSome → QuietEvent t.subsys e) (.start S₀) t)
    (hbuilt : t.built.isSome) :
    ∃ T, rebuild t.subsys.top t.subsys.interfaces = .ok (T, t.subsys.fwrdTable) := by
  obtain ⟨-, -, h⟩ := traced_invariant (I := fun t => t.built.isSome → InStep t.subsys)
    (fun t e T S' _ _ _ _ _ hT _ hrec _ => recompute_inStep (S := { t.subsys with top := T }) hT hrec)
    (fun t e S' hWf _ hI hok hnone hrun hsome =>
      Event.run_inStep hWf (hI hsome) (hok hsome) hnone hrun)
    (pwospfInit_wf h₀) (pwospfInit_thisFirst h₀) (fun h => by cases h) ht
  have hstep := h hbuilt
  rw [InStep] at hstep
  cases hrebuild : rebuild t.subsys.top t.subsys.interfaces with
  | error f =>
    rw [hrebuild] at hstep
    cases hstep
  | ok x =>
    rw [hrebuild] at hstep
    have htable : x.2 = t.subsys.fwrdTable := Except.ok.inj hstep
    exact ⟨x.1, by rw [← htable]⟩

/-- Router 7 says hello again after it was linked. -/
theorem ftable_inStep_demo :
    ∃ t, Reach TracedStep (fun t e => t.built.isSome → QuietEvent t.subsys e) (.start demoStart) t ∧
      t.subsys.fwrdTable.map FtableEntry.numHops = [0, 1] ∧
      ∃ T, rebuild t.subsys.top t.subsys.interfaces = .ok (T, t.subsys.fwrdTable) := by
  have hrun : ((runAll Traced.run (fun t e => decide (e.Admitted t.subsys ∧
      (t.built.isSome → QuietEvent t.subsys e))) (demoEvents ++
        [.hello (fun _ => 4) ⟨32, eth0Interface, 0xfffffffe, 0x0500, 7, 0x0000000a⟩])
      (.start demoStart)).map fun t =>
        (t.built.isSome, t.subsys.fwrdTable.map FtableEntry.numHops)) = some (true, [0, 1]) := by
    decide
  obtain ⟨t, hrun, ht⟩ := Option.map_eq_some_iff.mp hrun
  rw [Prod.mk.injEq] at ht
  have hreach : Reach TracedStep (fun t e => t.built.isSome → QuietEvent t.subsys e)
      (.start demoStart) t :=
    reach_of_tracedRunAll (fun t e h => of_decide_eq_true h) hrun
  exact ⟨t, hreach, ht.2, ftable_inStep demoStart_init hreach ht.1⟩

/-- The record of router 7 expires: its link and this router's own subnet go, the table stays. -/
theorem ftable_not_inStep :
    ¬ ∀ (sr : SrInstance) (clock : Nat → Time) (areaId : UInt32) (S₀ : PwospfSubsys) (t : Traced),
      pwospfInit sr clock areaId = .ok S₀ → Reach TracedStep (fun _ _ => True) (.start S₀) t →
        t.built.isSome → ∀ T ft, rebuild t.subsys.top t.subsys.interfaces = .ok (T, ft) →
          ∀ e, e ∈ t.subsys.fwrdTable ↔ e ∈ ft := by
  intro hall
  have hrun : ((runAll Traced.run (fun t e => decide (e.Admitted t.subsys)) (demoEvents ++
        [.hello (fun _ => 91) ⟨32, eth0Interface, 0xfffffffe, 0x0500, 9, 0x0000000a⟩])
      (.start demoStart)).map fun t => (t.built.isSome, t.subsys.fwrdTable.length,
        Prod.snd <$> rebuild t.subsys.top t.subsys.interfaces)) = some (true, 2, .ok []) := by
    decide
  obtain ⟨t, hrun, ht⟩ := Option.map_eq_some_iff.mp hrun
  simp only [Prod.mk.injEq] at ht
  obtain ⟨hbuilt, hlen, hrebuild⟩ := ht
  have hreach : Reach TracedStep (fun _ _ => True) (.start demoStart) t :=
    reach_of_tracedRunAll (fun t e h => ⟨by simpa using h, True.intro⟩) hrun
  cases hnow : rebuild t.subsys.top t.subsys.interfaces with
  | error f =>
    rw [hnow] at hrebuild
    cases hrebuild
  | ok x =>
    rw [hnow] at hrebuild
    have hempty : x.2 = [] := Except.ok.inj hrebuild
    have hsame := hall demoSr _ 0 demoStart t demoStart_init hreach hbuilt x.1 x.2 hnow
    rw [hempty] at hsame
    have hnil := List.eq_nil_iff_forall_not_mem.mpr fun e he => List.not_mem_nil ((hsame e).mp he)
    rw [hnil] at hlen
    cases hlen

end PWOSPF
