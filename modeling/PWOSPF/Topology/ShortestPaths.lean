import PWOSPF.Topology.Dijkstra

/-!
# Shortest paths over the network list

What the search leaves in the routers, read in the terms of the adjacencies it ran over: distances
are lengths of shortest paths, `prev` pointers go one hop back, and the router `find_next_hop`
returns is an adjacency on a shortest path.
-/

namespace PWOSPF

open Framework Topo

/-- The labels `T'` carries are the shortest paths from this router over the adjacencies of `T`. -/
structure ShortestPaths (T T' : Topo) : Prop where
  same : SameRecords T T'
  source : ∀ r ∈ T'.network, r.addr = T.thisRouter → r.dist = 0
  reachable : ∀ r ∈ T'.network, Connected T.Edge T.thisRouter r.addr →
    ∃ n : Nat, r.dist = n ∧ HopDist T.Edge T.thisRouter r.addr n
  unreachable : ∀ r ∈ T'.network, r.dist = -1 ↔ ¬ Connected T.Edge T.thisRouter r.addr
  prevNone : ∀ r ∈ T'.network,
    r.prev = none ↔ r.addr = T.thisRouter ∨ ¬ Connected T.Edge T.thisRouter r.addr
  prevSome : ∀ r ∈ T'.network, ∀ p, r.prev = some p →
    ∃ u ∈ T'.network, u.addr = p ∧ r.addr ∈ u.adjacencies.elems ∧ u.dist = r.dist - 1

section Search

variable {T T' : Topo}

theorem Searched.reachable_iff (h : Searched T) {v : Ptr} :
    Connected T.Edge T.thisRouter v ↔ 0 ≤ T.labels.dist v :=
  h.sound.connected_iff h.done

theorem Searched.unreachable_iff (h : Searched T) {v : Ptr} :
    ¬ Connected T.Edge T.thisRouter v ↔ T.labels.dist v < 0 := by
  rw [h.reachable_iff, Int.not_le]

theorem Searched.shortestPaths (hT : T.Linked) (hsame : SameRecords T T') (h : Searched T') :
    ShortestPaths T T' := by
  have hlinks := hsame.sameLinks
  have hT' := hT.of_sameLinks hlinks
  have hfind : ∀ r ∈ T'.network, T'.find r.addr = some r := fun r hr => find_of_mem hT'.addrsNodup hr
  refine ⟨hsame, ?_, ?_, ?_, ?_, ?_⟩ <;> intro r hr
  · intro hself
    rw [← dist_of_find (hfind r hr), hself, ← hlinks.thisRouter]
    exact h.sound.source
  · rw [← hlinks.edge, ← hlinks.thisRouter]
    intro hconn
    have hnonneg := h.reachable_iff.mp hconn
    refine ⟨r.dist.toNat, ?_, ?_⟩
    · rw [dist_of_find (hfind r hr)] at hnonneg
      omega
    · rw [h.sound.hopDist_iff h.done, ← dist_of_find (hfind r hr)]
      omega
  · rw [← hlinks.edge, ← hlinks.thisRouter, h.unreachable_iff, ← dist_of_find (hfind r hr)]
    constructor
    · intro hneg
      omega
    · exact h.sound.unreached r.addr
  · rw [← hlinks.edge, ← hlinks.thisRouter, h.unreachable_iff, ← prev_of_find (hfind r hr)]
    exact h.sound.prevNone r.addr
  · intro p hp
    rw [← prev_of_find (hfind r hr)] at hp
    obtain ⟨-, hedge, hdist⟩ := h.sound.prevEdge r.addr p hp
    obtain ⟨u, hu⟩ := mem_addrs_iff.mp (mem_adj_listed hedge)
    refine ⟨u, find_mem hu, find_addr hu, ?_, ?_⟩
    · rw [← adj_of_find hu]
      exact hedge
    · rw [← dist_of_find hu, ← dist_of_find (hfind r hr), hdist]
      omega

end Search

/-- Routers 1 and 2 are adjacencies of this router 0, which also lists itself, and both lead to 3;
4 is not reached. -/
def diamondTopo : Topo where
  network :=
    [{ newRouter 0 10 0 with adjacencies := ⟨[0, 2, 1], 10, 80⟩ },
      { newRouter 4 14 0 with adjacencies := ⟨[0, 3], 10, 80⟩ },
      { newRouter 3 13 0 with adjacencies := ⟨[0], 10, 80⟩ },
      { newRouter 1 11 0 with adjacencies := ⟨[3, 3], 10, 80⟩ },
      { newRouter 2 12 0 with adjacencies := ⟨[1, 3], 10, 80⟩ }]
  thisRouter := 0
  nextAddr := 5

/-- `dijkstra` ends, and leaves the shortest paths in the labels. -/
theorem dijkstra_shortestPaths {T : Topo} (hT : T.Linked) :
    ∃ T', dijkstra T = .ok T' ∧ ShortestPaths T T' := by
  obtain ⟨T', hrun, hsame, hsearch⟩ := dijkstra_spec hT
  exact ⟨T', hrun, hsearch.shortestPaths hT hsame⟩

theorem dijkstra_shortestPaths_diamond :
    ∃ T', dijkstra diamondTopo = .ok T' ∧ T'.network.map Router.dist = [0, -1, 2, 1, 1] ∧
      ShortestPaths diamondTopo T' := by
  have hdist : (dijkstra diamondTopo).map (fun T' => T'.network.map Router.dist) =
      .ok [0, -1, 2, 1, 1] := by decide
  obtain ⟨T', hrun, hpaths⟩ := dijkstra_shortestPaths (T := diamondTopo) (by decide)
  rw [hrun] at hdist
  exact ⟨T', hrun, Except.ok.inj hdist, hpaths⟩

/-- After `dijkstra`, `find_next_hop` ends for every listed router. -/
theorem findNextHop_onShortestWalk {T T' : Topo} (hT : T.Linked) (hrun : dijkstra T = .ok T')
    {dest : Router} (hdest : dest ∈ T'.network) :
    (dest.addr = T.thisRouter → findNextHop T' dest = .ok (none, 0)) ∧
      (¬ Connected T.Edge T.thisRouter dest.addr → findNextHop T' dest = .ok (none, -1)) ∧
      (dest.addr ≠ T.thisRouter → Connected T.Edge T.thisRouter dest.addr →
        ∃ n ∈ T'.network, findNextHop T' dest = .ok (some n, dest.dist) ∧
          n.addr ∈ T.adj T.thisRouter ∧ OnShortestWalk T.Edge T.thisRouter n.addr dest.addr) := by
  obtain ⟨T₁, hrun₁, hsame, hsearch⟩ := dijkstra_spec hT
  rw [hrun, Except.ok.injEq] at hrun₁
  subst hrun₁
  have hlinks := hsame.sameLinks
  have hT' := hT.of_sameLinks hlinks
  have hfind := find_of_mem hT'.addrsNodup hdest
  have hdist := dist_of_find hfind
  rw [← hlinks.edge, ← hlinks.thisRouter, ← hlinks.adj, hsearch.reachable_iff, hdist]
  rcases findNextHop_spec hT' hsearch hfind with ⟨hself, hnext⟩ | ⟨hne, hneg, hnext⟩ |
    ⟨hne, hpos, n, hnext, hn, hadj, hwalk⟩
  · have hzero : dest.dist = 0 := by
      rw [← hdist, hself]
      exact hsearch.sound.source
    exact ⟨fun _ => hnext, fun h => absurd (Int.le_of_eq hzero.symm) h, fun h => absurd hself h⟩
  · exact ⟨fun h => absurd h hne, fun _ => hnext, fun _ h => absurd hneg (Int.not_lt.mpr h)⟩
  · refine ⟨fun h => absurd h hne, fun h => absurd (Int.le_of_lt hpos) h, fun _ _ => ?_⟩
    refine ⟨n, find_mem hn, hnext, hadj, 1, dest.dist.toNat - 1, ?_, hwalk, ?_⟩
    · exact .snoc (.nil _) hadj
    · rw [hsearch.sound.hopDist_iff hsearch.done, hdist]
      omega

theorem findNextHop_onShortestWalk_diamond :
    ∃ T', dijkstra diamondTopo = .ok T' ∧ ∃ dest ∈ T'.network, dest.addr = 3 ∧
      ∃ n ∈ T'.network, findNextHop T' dest = .ok (some n, dest.dist) ∧
        OnShortestWalk diamondTopo.Edge 0 n.addr 3 := by
  obtain ⟨T', hrun, hsame, -⟩ := dijkstra_spec (T := diamondTopo) (by decide)
  have hlisted : 3 ∈ T'.addrs := by
    rw [hsame.sameLinks.addrs]
    decide
  obtain ⟨dest, hdest⟩ := mem_addrs_iff.mp hlisted
  have haddr := find_addr hdest
  have hwalk : Walk diamondTopo.Edge 2 0 3 :=
    .snoc (v := 1) (.snoc (.nil 0) (by decide)) (by decide)
  obtain ⟨-, -, hnext⟩ := findNextHop_onShortestWalk (by decide) hrun (find_mem hdest)
  rw [haddr] at hnext
  obtain ⟨n, hn, hfound, -, hon⟩ := hnext (by decide) ⟨2, hwalk⟩
  exact ⟨T', hrun, dest, find_mem hdest, haddr, n, hn, hfound, hon⟩

end PWOSPF
