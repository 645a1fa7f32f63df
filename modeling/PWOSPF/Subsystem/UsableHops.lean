import PWOSPF.Subsystem.Rebuilds
import PWOSPF.Subsystem.OwnSubnets

/-!
# Usable next hops

The first hop of a route is an adjacency, learned from LSUs; its address and interface are those of
a neighbor record, made by HELLOs. `update_ftable` drops the result of the look-up, so an entry is
usable only if the record was there when the table was built.
-/

namespace PWOSPF

open Framework Topo

/-- The entry names an interface and the address of a neighbor recorded on it. -/
def UsableOn (interfaces : List PwospfIflist) (e : FtableEntry) : Prop :=
  ∃ i ∈ interfaces, i.name = e.interface ∧ ∃ n ∈ i.neighbors.elems, n.ipAddress = e.nextHop

instance (interfaces : List PwospfIflist) (e : FtableEntry) : Decidable (UsableOn interfaces e) :=
  inferInstanceAs (Decidable (∃ i ∈ interfaces, _ ∧ ∃ n ∈ i.neighbors.elems, _))

/-- Every first hop on a shortest path to a router with a subnet that this router does not hold
itself has a neighbor record. -/
def HopsRecorded (T : Topo) (interfaces : List PwospfIflist) : Prop :=
  ∀ n ∈ T.adj T.thisRouter, ∀ p k, HopDist T.Edge T.thisRouter p (k + 1) → Walk T.Edge k n p →
    (∃ s ∈ T.subs p, ¬ T.Holds T.thisRouter s.pfix s.mask) →
      ∀ id, T.ridOf n = some id → HasNeighbor interfaces id

/-- The first hops are recorded if the event rebuilds the table. -/
def HopsRecordedEvent (S : PwospfSubsys) (e : Event) : Prop :=
  ∀ T ∈ e.rebuilt S, HopsRecorded T S.interfaces

section Usable

variable {T T' : Topo} {interfaces : List PwospfIflist} {ft : List FtableEntry}

theorem hopsRecorded_of_adj
    (h : ∀ n ∈ T.adj T.thisRouter, ∀ id ∈ T.ridOf n, HasNeighbor interfaces id) :
    HopsRecorded T interfaces :=
  fun n hn _ _ _ _ _ id hid => h n hn id hid

/-- An entry for a subnet that this router holds too is the entry of this router. -/
theorem TableOf.numHops_of_holds (hT : T.Linked) (hsearch : Searched T) (hfirst : ThisFirst T)
    (h : TableOf T interfaces (offers (visited T.network)) ft) {e : FtableEntry} (he : e ∈ ft)
    (hown : T.Holds T.thisRouter e.pfix e.mask) : e.numHops ≤ 0 := by
  obtain ⟨this, rest, hnet, hthis⟩ := hfirst.network_eq hT
  obtain ⟨s, hs, hpfix, hmask⟩ := hown
  rw [subs_of_find hthis] at hs
  have hdist : this.dist = 0 := by
    rw [← dist_of_find hthis]
    exact hsearch.sound.source
  have hvisited : this ∈ visited T.network := by
    rw [hnet, visited, List.takeWhile_cons_of_pos (by simp [hdist])]
    simp
  obtain ⟨e', he', hpfix', hmask', hle⟩ := h.covers (this, s) (mem_offers.mpr ⟨hvisited, hs⟩)
  have hsame : e' = e := by
    apply List.inj_on_of_nodup_map h.keys he' he
    rw [hpfix', hmask', hpfix, hmask]
  rw [← hsame, ← hdist]
  exact hle

theorem rebuild_usable (hT : T.Linked) (hfirst : ThisFirst T) (hhops : HopsRecorded T interfaces)
    (hrun : rebuild T interfaces = .ok (T', ft)) {e : FtableEntry} (he : e ∈ ft)
    (hpos : 0 < e.numHops) : UsableOn interfaces e := by
  obtain ⟨hsame, hsearch, htable⟩ := rebuild_table hT hfirst hrun
  have hlinks := hsame.sameLinks
  have hT' := hT.of_sameLinks hlinks
  obtain ⟨⟨R, s⟩, -, hfor⟩ := htable.source e he
  have hR := find_of_mem hT'.addrsNodup hfor.listed
  have hdist : T'.labels.dist R.addr = R.dist := dist_of_find hR
  rcases hfor.yields with ⟨hself, -⟩ | ⟨-, n, -, hn, hadj, hwalk, hnext, hif⟩
  · have hzero : R.dist = 0 := by
      rw [← hdist, hself]
      exact hsearch.sound.source
    rw [hfor.numHops, hzero] at hpos
    exact absurd hpos (Int.lt_irrefl 0)
  · have hlen : 0 < R.dist := by
      rw [← hfor.numHops]
      exact hpos
    have hhop : HopDist T.Edge T.thisRouter R.addr (R.dist.toNat - 1 + 1) := by
      rw [← hlinks.edge, ← hlinks.thisRouter, hsearch.hopDist_iff, hdist]
      omega
    have hforeign : ∃ s ∈ T.subs R.addr, ¬ T.Holds T.thisRouter s.pfix s.mask := by
      refine ⟨s, by rw [← hlinks.subs, subs_of_find hR]; exact hfor.held, ?_⟩
      rw [← hfor.pfix, ← hfor.mask]
      intro hown
      have hle := htable.numHops_of_holds hT' hsearch (hfirst.of_sameLinks hlinks) he (by
        rw [Holds, hlinks.subs, hlinks.thisRouter]
        exact hown)
      omega
    rw [hlinks.adj, hlinks.thisRouter] at hadj
    rw [hlinks.edge] at hwalk
    have hid : T.ridOf n.addr = some n.rid := by rw [← hlinks.ridOf, ridOf_of_find hn]
    have hneighbor := hhops n.addr hadj R.addr _ hhop hwalk hforeign n.rid hid
    obtain ⟨i, hi, nbr, hnbr, -, hget⟩ := getIfAndNeighbor_spec hneighbor .zero .zero
    rw [hget] at hnext hif
    exact ⟨i, hi, hif.symm, nbr, hnbr, hnext.symm⟩

end Usable

/-- The names of the interfaces are those of the machine. -/
theorem srGetInterface_of_static {sr : SrInstance} {interfaces : List PwospfIflist}
    (h : interfaces.map PwospfIflist.static = (createPwospfIfaces sr).map PwospfIflist.static)
    {i : PwospfIflist} (hi : i ∈ interfaces) : srGetInterface sr i.name ≠ none := by
  obtain ⟨j, hj, hname⟩ := exists_of_static (p := fun j => j.name = i.name) (fun _ => Iff.rfl)
    h.symm ⟨i, hi, rfl⟩
  rw [createPwospfIfaces] at hj
  obtain ⟨s, hs, rfl⟩ := List.mem_map.mp hj
  rw [srGetInterface]
  intro hnone
  exact absurd hname (by simpa using List.find?_eq_none.mp hnone s hs)

/-- In every run in which the first hops are recorded whenever the table is built, an entry with
hops names an interface of this router and a neighbor recorded on it when the table was built. -/
theorem ftable_usable {sr : SrInstance} {clock : Nat → Time} {areaId : UInt32} {S₀ : PwospfSubsys}
    {t : Traced} (h₀ : pwospfInit sr clock areaId = .ok S₀)
    (ht : Reach TracedStep (fun t e => HopsRecordedEvent t.subsys e) (.start S₀) t) :
    ∀ e ∈ t.subsys.fwrdTable, 0 < e.numHops →
      (∃ built ∈ t.built, UsableOn built e) ∧ (∃ i ∈ t.subsys.interfaces, i.name = e.interface) ∧
        srGetInterface sr e.interface ≠ none := by
  obtain ⟨r, -, -, -, -, -, -, hif, htable⟩ := pwospfInit_spec h₀
  obtain ⟨-, hconf, h⟩ := traced_invariant
    (I := fun t => ∀ e ∈ t.subsys.fwrdTable, 0 < e.numHops → ∃ built ∈ t.built,
      built.map PwospfIflist.static = S₀.interfaces.map PwospfIflist.static ∧ UsableOn built e)
    (by
      intro t e T S' _ hconf _ hok hT hTWf hfirst hrec e' he' hpos
      refine ⟨t.subsys.interfaces, rfl, hconf.interfaces, ?_⟩
      rcases recompute_spec (S := { t.subsys with top := T }) hTWf with
        ⟨T', ft, hrun, hrec', -⟩ | ⟨hfault, -⟩
      · rw [hrec', Except.ok.injEq] at hrec
        subst hrec
        exact rebuild_usable hTWf.toLinked hfirst (hok T hT) hrun he' hpos
      · rw [hrec] at hfault
        cases hfault)
    (by
      intro t e S' hWf _ hI _ hnone hrun e' he' hpos
      rcases Event.run_rebuilt hWf hrun with ⟨T, hT, -⟩ | ⟨-, hft, -⟩
      · rw [hnone] at hT
        cases hT
      · rw [hft] at he'
        exact hI e' he' hpos)
    (pwospfInit_wf h₀) (pwospfInit_thisFirst h₀)
    (by
      intro e he hpos
      rw [Traced.start, htable] at he
      obtain ⟨i, -, rfl⟩ := List.mem_map.mp he
      exact absurd hpos (Int.lt_irrefl 0))
    ht
  intro e he hpos
  obtain ⟨built, hbuilt, hstatic, i, hi, hname, hnbr⟩ := h e he hpos
  refine ⟨⟨built, hbuilt, i, hi, hname, hnbr⟩, ?_, ?_⟩
  · exact exists_of_static (p := fun i => i.name = e.interface) (fun _ => Iff.rfl)
      (hconf.interfaces.trans hstatic.symm) ⟨i, hi, hname⟩
  · rw [← hname]
    exact srGetInterface_of_static (hif ▸ hstatic) hi

/-! ## Runs on demonstration events -/

theorem reach_of_tracedRunAll {allow : Traced → Event → Bool} {ok : Traced → Event → Prop}
    (hallow : ∀ t e, allow t e = true → e.Admitted t.subsys ∧ ok t e) {es : List Event}
    {t₀ t : Traced} (h : runAll Traced.run allow es t₀ = some t) : Reach TracedStep ok t₀ t := by
  apply Reach.of_runAll _ .start h
  intro t e t' hc hrun
  exact ⟨(hallow t e hc).2, (hallow t e hc).1, hrun⟩

theorem ftable_usable_demo :
    ∃ t, Reach TracedStep (fun t e => HopsRecordedEvent t.subsys e) (.start demoStart) t ∧
      (∃ e ∈ t.subsys.fwrdTable, 0 < e.numHops) ∧
      ∀ e ∈ t.subsys.fwrdTable, 0 < e.numHops → ∃ built ∈ t.built, UsableOn built e := by
  have hhops : ((runAll Traced.run (fun t e => decide (e.Admitted t.subsys ∧
      ∀ T ∈ e.rebuilt t.subsys, ∀ n ∈ T.adj T.thisRouter,
        (T.ridOf n).all fun id => HasNeighbor t.subsys.interfaces id)) demoEvents (.start demoStart)).map
      fun t => t.subsys.fwrdTable.map FtableEntry.numHops) = some [0, 1] := by decide
  obtain ⟨t, hrun, ht⟩ := Option.map_eq_some_iff.mp hhops
  have hreach : Reach TracedStep (fun t e => HopsRecordedEvent t.subsys e) (.start demoStart) t := by
    apply reach_of_tracedRunAll _ hrun
    intro t e h
    obtain ⟨hadm, hrec⟩ := of_decide_eq_true h
    refine ⟨hadm, fun T hT => hopsRecorded_of_adj ?_⟩
    intro n hn id hid
    have hall := hrec T hT n hn
    rw [Option.mem_def.mp hid] at hall
    exact of_decide_eq_true hall
  have hfar : (1 : Int) ∈ t.subsys.fwrdTable.map FtableEntry.numHops := by
    rw [ht]
    simp
  obtain ⟨e, he, hnum⟩ := List.mem_map.mp hfar
  exact ⟨t, hreach, ⟨e, he, by omega⟩, fun e he hpos => (ftable_usable demoStart_init hreach e he hpos).1⟩

/-- Router 7 advertises its link to this router and a stub without ever saying hello. -/
theorem ftable_not_usable :
    ¬ ∀ (sr : SrInstance) (clock : Nat → Time) (areaId : UInt32) (S₀ : PwospfSubsys) (t : Traced),
      pwospfInit sr clock areaId = .ok S₀ → Reach TracedStep (fun _ _ => True) (.start S₀) t →
        ∀ e ∈ t.subsys.fwrdTable, 0 < e.numHops →
          (∃ built ∈ t.built, UsableOn built e) ∧
            (∃ i ∈ t.subsys.interfaces, i.name = e.interface) ∧
            srGetInterface sr e.interface ≠ none := by
  intro hall
  have htable : ((runAll Traced.run (fun t e => decide (e.Admitted t.subsys))
      [.lsu (fun _ => 1) 7
        [⟨0x0000000a, 0xfeffffff, 0, 0x0100000a⟩, ⟨0x0000010a, 0xfeffffff, 0, 0⟩]]
      (.start demoStart)).map fun t => t.subsys.fwrdTable) =
      some [⟨0x0000000a, 0xfeffffff, 0x0000000a, eth0Interface, 0⟩,
        ⟨0x0000010a, 0xfeffffff, 0, [], 1⟩] := by decide
  obtain ⟨t, hrun, ht⟩ := Option.map_eq_some_iff.mp htable
  have hreach : Reach TracedStep (fun _ _ => True) (.start demoStart) t :=
    reach_of_tracedRunAll (fun t e h => ⟨by simpa using h, True.intro⟩) hrun
  have h := (hall demoSr _ 0 demoStart t demoStart_init hreach ⟨0x0000010a, 0xfeffffff, 0, [], 1⟩
    (by rw [ht]; simp) (by decide)).2.2
  exact h (by decide)

end PWOSPF
