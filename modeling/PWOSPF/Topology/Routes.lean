import PWOSPF.Topology.Ftable

/-!
# Rebuilding the forwarding table

`dijkstra` followed by `update_ftable`, as every operation that changes the topology runs them.
The table is sound: each entry is a shortest route to a router that holds the subnet. It covers the
routers listed before the first unreachable one, and is complete when those hold everything.
-/

namespace PWOSPF

open Framework Topo

/-- `dijkstra(sr, this_router); update_ftable(sr);` -/
def rebuild (T : Topo) (interfaces : List PwospfIflist) : Exec (Topo × List FtableEntry) := do
  let T ← dijkstra T
  let (ft, _) ← updateFtable T interfaces
  return (T, ft)

/-- `p` holds a subnet with the prefix and mask of `s`. -/
def Topo.Holds (T : Topo) (p : Ptr) (pfix mask : InAddr) : Prop :=
  ∃ s ∈ T.subs p, s.pfix = pfix ∧ s.mask = mask

/-- The table has, for every subnet of a reachable router, an entry that is at most as far. -/
def Complete (T : Topo) (ft : List FtableEntry) : Prop :=
  ∀ p n, HopDist T.Edge T.thisRouter p n → ∀ s ∈ T.subs p,
    ∃ e ∈ ft, e.pfix = s.pfix ∧ e.mask = s.mask ∧ e.numHops ≤ n

/-- Every subnet of a reachable router is also held, no farther away, by a router that comes
before all unreachable ones in the network list. -/
def HeldEarly (T : Topo) : Prop :=
  ∀ p n, HopDist T.Edge T.thisRouter p n → ∀ s ∈ T.subs p,
    ∃ pre q post, T.addrs = pre ++ q :: post ∧
      (∀ x ∈ q :: pre, Connected T.Edge T.thisRouter x) ∧
      T.Holds q s.pfix s.mask ∧ ∃ m ≤ n, HopDist T.Edge T.thisRouter q m

theorem mem_takeWhile_iff {α : Type*} {p : α → Bool} {l : List α} {a : α} :
    a ∈ l.takeWhile p ↔ ∃ pre post, l = pre ++ a :: post ∧ ∀ x ∈ a :: pre, p x = true := by
  constructor
  · intro ha
    obtain ⟨pre, post, hsplit⟩ := List.append_of_mem ha
    refine ⟨pre, post ++ l.dropWhile p, ?_, fun x hx => ?_⟩
    · conv_lhs => rw [← List.takeWhile_append_dropWhile (p := p) (l := l), hsplit]
      simp
    · have hall : (l.takeWhile p).all p = true := List.all_takeWhile
      refine List.all_eq_true.mp hall x ?_
      rw [hsplit]
      simp only [List.mem_cons, List.mem_append] at hx ⊢
      tauto
  · rintro ⟨pre, post, rfl, hall⟩
    rw [List.takeWhile_append_of_pos fun x hx => hall x (List.mem_cons_of_mem _ hx),
      List.takeWhile_cons_of_pos (hall a (by simp))]
    simp

section Rebuild

variable {T : Topo} {interfaces : List PwospfIflist}

theorem rebuild_spec (hT : T.Linked) (hown : OwnMatched T interfaces) :
    ∃ T' ft, rebuild T interfaces = .ok (T', ft) ∧ SameRecords T T' ∧ Searched T' ∧
      TableOf T' interfaces (offers (visited T'.network)) ft := by
  obtain ⟨T', hrun, hsame, hsearch⟩ := dijkstra_spec hT
  have hlinks := hsame.sameLinks
  have hown' : OwnMatched T' interfaces := by
    rw [OwnMatched, hlinks.thisRouter, hlinks.subs]
    exact hown
  obtain ⟨ft, ret, hrun', htable⟩ := updateFtable_spec (hT.of_sameLinks hlinks) hsearch hown'
  refine ⟨T', ft, ?_, hsame, hsearch, htable⟩
  rw [rebuild, hrun, ok_bind, hrun', ok_bind]
  rfl

theorem Searched.hopDist_iff (h : Searched T) {p : Ptr} {n : Nat} :
    HopDist T.Edge T.thisRouter p n ↔ T.labels.dist p = n :=
  h.sound.hopDist_iff h.done

theorem Searched.connected_iff (h : Searched T) {p : Ptr} :
    Connected T.Edge T.thisRouter p ↔ 0 ≤ T.labels.dist p :=
  h.sound.connected_iff h.done

theorem Searched.hopDist_iff_of_mem (h : Searched T) (hT : T.Linked) {R : Router}
    (hR : R ∈ T.network) {n : Nat} : HopDist T.Edge T.thisRouter R.addr n ↔ R.dist = n := by
  rw [h.hopDist_iff, dist_of_find (find_of_mem hT.addrsNodup hR)]

theorem Searched.connected_iff_of_mem (h : Searched T) (hT : T.Linked) {R : Router}
    (hR : R ∈ T.network) : Connected T.Edge T.thisRouter R.addr ↔ 0 ≤ R.dist := by
  rw [h.connected_iff, dist_of_find (find_of_mem hT.addrsNodup hR)]

/-- Soundness of the forwarding table. -/
theorem rebuild_sound (hT : T.Linked) (hown : OwnMatched T interfaces) :
    ∃ T' ft, rebuild T interfaces = .ok (T', ft) ∧
      (ft.map fun e => (e.pfix, e.mask)).Nodup ∧
      ∀ e ∈ ft, ∃ p, ∃ s ∈ T.subs p, ∃ n : Nat,
        e.pfix = s.pfix ∧ e.mask = s.mask ∧ e.numHops = n ∧
        HopDist T.Edge T.thisRouter p n ∧
        (n = 0 → p = T.thisRouter ∧ e.nextHop = s.nextHop ∧
          ∃ iface, getSubnetIf interfaces s = some iface ∧ e.interface = iface.name) ∧
        (0 < n → ∃ q id, q ∈ T.adj T.thisRouter ∧ T.ridOf q = some id ∧
          Walk T.Edge (n - 1) q p ∧
          e.nextHop = (getIfAndNeighbor .zero .zero id interfaces).2.1.ipAddress ∧
          e.interface = (getIfAndNeighbor .zero .zero id interfaces).1.name) := by
  obtain ⟨T', ft, hrun, hsame, hsearch, htable⟩ := rebuild_spec hT hown
  have hlinks := hsame.sameLinks
  have hT' := hT.of_sameLinks hlinks
  refine ⟨T', ft, hrun, htable.keys, ?_⟩
  intro e he
  obtain ⟨⟨R, s⟩, -, hfor⟩ := htable.source e he
  have hR := find_of_mem hT'.addrsNodup hfor.listed
  have hdist : T'.labels.dist R.addr = R.dist := dist_of_find hR
  have hn : (R.dist.toNat : Int) = R.dist := Int.toNat_of_nonneg hfor.reached
  have hhop := hsearch.hopDist_iff.mpr (hdist.trans hn.symm)
  rw [hlinks.edge, hlinks.thisRouter] at hhop
  have hself : R.dist.toNat = 0 ↔ R.addr = T.thisRouter := by
    constructor
    · intro h0
      rw [h0] at hhop
      generalize R.addr = a at hhop
      have hw := hhop.walk
      cases hw
      rfl
    · intro heq
      have := hsearch.sound.source
      rw [hlinks.thisRouter, ← heq] at this
      omega
  refine ⟨R.addr, s, ?_, R.dist.toNat, hfor.pfix, hfor.mask, by rw [hn, hfor.numHops], hhop, ?_, ?_⟩
  · rw [← hlinks.subs, subs_of_find hR]
    exact hfor.held
  · intro h0
    have heq := hself.mp h0
    rcases hfor.yields with ⟨-, hnext, hif⟩ | ⟨hne, -⟩
    · exact ⟨heq, hnext, hif⟩
    · rw [hlinks.thisRouter] at hne
      exact absurd heq hne
  · intro hpos
    rcases hfor.yields with ⟨heq, -⟩ | ⟨-, n, -, hn, hadj, hwalk, hnext, hif⟩
    · rw [hlinks.thisRouter] at heq
      have := hself.mpr heq
      omega
    · rw [hlinks.adj, hlinks.thisRouter] at hadj
      rw [hlinks.edge] at hwalk
      exact ⟨n.addr, n.rid, hadj, by rw [← hlinks.ridOf, ridOf_of_find hn], hwalk, hnext, hif⟩

/-- This router, a router without links and a neighbor of this router, listed in that order. -/
def strandedTopo : Topo where
  network := [
    { newRouter 0 1 0 with
      adjacencies := ⟨[2], 10, 80⟩
      subnets := ⟨[⟨0x10, 0xfffffffe, 0x11, 3⟩], 10, 80⟩ },
    newRouter 1 2 0,
    { newRouter 2 3 0 with
      adjacencies := ⟨[0], 10, 80⟩
      subnets := ⟨[⟨0x10, 0xfffffffe, 0, 1⟩, ⟨0x20, 0xfffffffe, 0, 0⟩], 10, 80⟩ }]
  thisRouter := 0
  nextAddr := 3

def strandedIfaces : List PwospfIflist :=
  [⟨0x10, 0xfffffffe, [101], 5, .replicate 6 0, ⟨[⟨3, 0x11, 20⟩], 5, 40⟩⟩]

theorem rebuild_sound_stranded :
    ∃ T' ft, rebuild strandedTopo strandedIfaces = .ok (T', ft) ∧
      (ft.map fun e => (e.pfix, e.mask)).Nodup := by
  have hlinked : strandedTopo.Linked := by decide
  have hown : OwnMatched strandedTopo strandedIfaces := by decide
  obtain ⟨T', ft, hrun, hkeys, -⟩ := rebuild_sound hlinked hown
  exact ⟨T', ft, hrun, hkeys⟩

theorem mem_visited {network : List Router} {R : Router} :
    R ∈ visited network ↔ ∃ pre post, network = pre ++ R :: post ∧ ∀ X ∈ R :: pre, 0 ≤ X.dist := by
  rw [visited, mem_takeWhile_iff]
  simp

section Covered

variable {ft : List FtableEntry}

theorem HeldEarly.of_complete (hT : T.Linked) (hs : Searched T)
    (ht : TableOf T interfaces (offers (visited T.network)) ft) (hcomplete : Complete T ft) :
    HeldEarly T := by
  intro p n hp s hsub
  obtain ⟨e, he, hpfix, hmask, hle⟩ := hcomplete p n hp s hsub
  obtain ⟨⟨R, s'⟩, hx, hfor⟩ := ht.source e he
  obtain ⟨pre, post, hsplit, hreached⟩ := mem_visited.mp (mem_offers.mp hx).1
  have hmem : ∀ X ∈ R :: pre, X ∈ T.network := by
    intro X hX
    rw [hsplit]
    simp only [List.mem_cons, List.mem_append] at hX ⊢
    tauto
  refine ⟨pre.map Router.addr, R.addr, post.map Router.addr, ?_, ?_, ⟨s', ?_, ?_, ?_⟩,
    R.dist.toNat, ?_, ?_⟩
  · rw [addrs, hsplit, List.map_append, List.map_cons]
  · rw [← List.map_cons]
    intro x hx
    obtain ⟨X, hX, rfl⟩ := List.mem_map.mp hx
    exact (hs.connected_iff_of_mem hT (hmem X hX)).mpr (hreached X hX)
  · rw [subs_of_find (find_of_mem hT.addrsNodup hfor.listed)]
    exact hfor.held
  · rw [← hpfix, hfor.pfix]
  · rw [← hmask, hfor.mask]
  · have hhops : e.numHops = R.dist := hfor.numHops
    have h0 : 0 ≤ R.dist := hfor.reached
    omega
  · exact (hs.hopDist_iff_of_mem hT hfor.listed).mpr (Int.toNat_of_nonneg hfor.reached).symm

theorem Complete.of_heldEarly (hT : T.Linked) (hs : Searched T)
    (ht : TableOf T interfaces (offers (visited T.network)) ft) (hearly : HeldEarly T) :
    Complete T ft := by
  intro p n hp s hsub
  obtain ⟨pre, q, post, hsplit, hreached, ⟨s', hs', hpfix, hmask⟩, m, hmn, hm⟩ :=
    hearly p n hp s hsub
  rw [addrs] at hsplit
  obtain ⟨pre', rest, hnet, rfl, hrest⟩ := List.map_eq_append_iff.mp hsplit
  obtain ⟨R, post', rfl, rfl, rfl⟩ := List.map_eq_cons_iff.mp hrest
  have hmem : ∀ X ∈ R :: pre', X ∈ T.network := by
    intro X hX
    rw [hnet]
    simp only [List.mem_cons, List.mem_append] at hX ⊢
    tauto
  have hR := hmem R (by simp)
  have hvis : R ∈ visited T.network := by
    refine mem_visited.mpr ⟨pre', post', hnet, fun X hX => ?_⟩
    refine (hs.connected_iff_of_mem hT (hmem X hX)).mp (hreached X.addr ?_)
    rw [← List.map_cons]
    exact List.mem_map_of_mem hX
  rw [subs_of_find (find_of_mem hT.addrsNodup hR)] at hs'
  obtain ⟨e, he, hep, hem, hen⟩ := ht.covers (R, s') (mem_offers.mpr ⟨hvis, hs'⟩)
  have hd := (hs.hopDist_iff_of_mem hT hR).mp hm
  refine ⟨e, he, hep.trans hpfix, hem.trans hmask, Int.le_trans hen ?_⟩
  change R.dist ≤ n
  omega

end Covered

/-- The table covers exactly what the routers before the first unreachable one hold. -/
theorem rebuild_complete_iff (hT : T.Linked) (hown : OwnMatched T interfaces) :
    ∃ T' ft, rebuild T interfaces = .ok (T', ft) ∧ (Complete T ft ↔ HeldEarly T) := by
  obtain ⟨T', ft, hrun, hsame, hsearch, htable⟩ := rebuild_spec hT hown
  have hlinks := hsame.sameLinks
  have hT' := hT.of_sameLinks hlinks
  have hcomplete : Complete T' ft ↔ Complete T ft := by
    simp only [Complete, hlinks.edge, hlinks.thisRouter, hlinks.subs]
  have hearly : HeldEarly T' ↔ HeldEarly T := by
    simp only [HeldEarly, Holds, hlinks.edge, hlinks.thisRouter, hlinks.subs, hlinks.addrs]
  refine ⟨T', ft, hrun, ?_⟩
  rw [← hcomplete, ← hearly]
  exact ⟨.of_complete hT' hsearch htable, .of_heldEarly hT' hsearch htable⟩

/-- The walk over the network list ends at the router without links, one before the neighbor. -/
theorem rebuild_not_complete :
    ¬ ∀ (T : Topo) (interfaces : List PwospfIflist), T.Linked → OwnMatched T interfaces →
      ∀ T' ft, rebuild T interfaces = .ok (T', ft) → Complete T ft := by
  intro hall
  have htable : (rebuild strandedTopo strandedIfaces).map Prod.snd =
      .ok [⟨0x10, 0xfffffffe, 0x11, [101], 0⟩] := by decide
  cases hrun : rebuild strandedTopo strandedIfaces with
  | error f =>
    rw [hrun] at htable
    cases htable
  | ok x =>
    rw [hrun] at htable
    have hft : x.2 = [⟨0x10, 0xfffffffe, 0x11, [101], 0⟩] := Except.ok.inj htable
    have hhop : HopDist strandedTopo.Edge strandedTopo.thisRouter 2 1 :=
      .of_edge (by decide) (by decide)
    obtain ⟨e, he, hpfix, -⟩ := hall strandedTopo strandedIfaces (by decide) (by decide) x.1 x.2
      hrun 2 1 hhop ⟨0x20, 0xfffffffe, 0, 0⟩ (by decide)
    rw [hft, List.mem_singleton] at he
    subst he
    exact absurd hpfix (by decide)

theorem rebuild_complete_iff_stranded :
    ∃ T' ft, rebuild strandedTopo strandedIfaces = .ok (T', ft) ∧
      (Complete strandedTopo ft ↔ HeldEarly strandedTopo) :=
  rebuild_complete_iff (by decide) (by decide)

end Rebuild

end PWOSPF
