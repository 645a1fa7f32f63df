import PWOSPF.Topology.Routes

/-!
# What the routes depend on

Neither `dijkstra` nor `update_ftable` looks at timers, sequence numbers or the router ids in
subnets, and both commute with erasing these. The table is therefore a function of what is left,
and of the interface and address that the neighbor records give for every adjacent router.
-/

namespace PWOSPF

open Framework Topo

def Route.unnamed (s : Route) : Route := { s with rId := 0 }

/-- A router without the data that no route depends on. -/
def Router.routeData (r : Router) : Router :=
  { r with lastSeq := 0, expired := 0, subnets := ⟨r.subnets.elems.map Route.unnamed, 0, 0⟩ }

namespace Router

variable (r : Router)

@[simp] theorem routeData_addr : r.routeData.addr = r.addr := rfl
@[simp] theorem routeData_rid : r.routeData.rid = r.rid := rfl
@[simp] theorem routeData_known : r.routeData.known = r.known := rfl
@[simp] theorem routeData_dist : r.routeData.dist = r.dist := rfl
@[simp] theorem routeData_prev : r.routeData.prev = r.prev := rfl
@[simp] theorem routeData_adjacencies : r.routeData.adjacencies = r.adjacencies := rfl

@[simp] theorem routeData_subnets :
    r.routeData.subnets.elems = r.subnets.elems.map Route.unnamed := rfl

end Router

def Topo.routeData (T : Topo) : Topo := { T with network := T.network.map Router.routeData }

@[simp] theorem routeData_thisRouter (T : Topo) : T.routeData.thisRouter = T.thisRouter := rfl

section Commute

variable (T : Topo)

theorem find_routeData (p : Ptr) : T.routeData.find p = (T.find p).map Router.routeData := by
  rw [Topo.routeData, find, List.find?_map]
  rfl

theorem deref_routeData (p : Ptr) : T.routeData.deref p = Router.routeData <$> T.deref p := by
  rw [deref, deref, find_routeData]
  cases T.find p with
  | none => rfl
  | some r => rfl

theorem modify_routeData (p : Ptr) (f : Router → Router)
    (hf : ∀ r, (f r).routeData = f r.routeData) :
    (T.modify p f).routeData = T.routeData.modify p f := by
  simp only [Topo.routeData, Topo.modify, List.map_map, Topo.mk.injEq, and_true]
  apply List.map_congr_left
  intro r _
  simp only [Function.comp_apply]
  split
  · next h => rw [hf, Router.routeData_addr, if_pos h]
  · next h => rw [Router.routeData_addr, if_neg h]

theorem smallestUnknownLoop_routeData (fuel : Nat) (l : List Router) (minDist : Int)
    (least : Option Ptr) :
    smallestUnknownLoop fuel (l.map Router.routeData) minDist least =
      smallestUnknownLoop fuel l minDist least := by
  induction fuel generalizing l minDist least with
  | zero => rfl
  | succ fuel ih =>
    cases l with
    | nil => rfl
    | cons r rs =>
      have hcons := ih (r :: rs)
      rw [List.map_cons] at hcons ⊢
      simp only [smallestUnknownLoop, ih rs, hcons]
      rfl

theorem relaxEdge_routeData (u w : Ptr) :
    relaxEdge u T.routeData w = Topo.routeData <$> relaxEdge u T w := by
  simp only [relaxEdge, deref_routeData, map_bind, bind_map_left]
  apply bind_congr
  intro lu
  apply bind_congr
  intro r
  have hmod := modify_routeData T w (Router.setLabel (lu.dist + 1) u) fun _ => rfl
  simp only [Router.routeData_known, Router.routeData_dist, ← hmod]
  split <;> rfl

theorem relaxEdges_routeData (u : Ptr) (ws : List Ptr) :
    relaxEdges u ws T.routeData = Topo.routeData <$> relaxEdges u ws T := by
  induction ws generalizing T with
  | nil => rfl
  | cons w ws ih =>
    simp only [relaxEdges, relaxEdge_routeData, map_bind, bind_map_left]
    apply bind_congr
    intro T'
    exact ih T'

theorem dijkstraLoop_routeData (fuel : Nat) :
    dijkstraLoop fuel T.routeData = Topo.routeData <$> dijkstraLoop fuel T := by
  induction fuel generalizing T with
  | zero => rfl
  | succ fuel ih =>
    have hchoice : getSmallestUnknown T.routeData.network = getSmallestUnknown T.network := by
      rw [getSmallestUnknown, getSmallestUnknown, Topo.routeData, smallestUnknownLoop_routeData,
        List.length_map]
    simp only [dijkstraLoop, hchoice, map_bind]
    apply bind_congr
    intro choice
    cases choice with
    | none => rfl
    | some u =>
      simp only [← modify_routeData T u Router.setKnown fun _ => rfl, deref_routeData, map_bind,
        bind_map_left, Router.routeData_adjacencies, relaxEdges_routeData]
      apply bind_congr
      intro lu
      apply bind_congr
      intro T'
      exact ih T'

theorem dijkstra_routeData : dijkstra T.routeData = Topo.routeData <$> dijkstra T := by
  have hreset : resetNetwork T.routeData = (resetNetwork T).routeData := by
    simp only [resetNetwork, Topo.routeData, List.map_map]
    rfl
  simp only [dijkstra, hreset, deref_routeData, map_bind, bind_map_left]
  apply bind_congr
  intro this
  rw [← dijkstraLoop_routeData, modify_routeData _ _ (Router.setDist 0) fun _ => rfl]
  simp only [Topo.routeData, List.length_map]

theorem walkPrev_routeData (thisRid : UInt32) (fuel : Nat) (hops : Int) (cur : Router) :
    walkPrev T.routeData thisRid fuel hops cur.routeData =
      (fun x => (x.1.routeData, x.2)) <$> walkPrev T thisRid fuel hops cur := by
  induction fuel generalizing hops cur with
  | zero => rfl
  | succ fuel ih =>
    rw [walkPrev, walkPrev]
    rw [Router.routeData_prev]
    cases cur.prev with
    | none => rfl
    | some p =>
      simp only [deref_routeData, map_bind, bind_map_left]
      apply bind_congr
      intro r
      rw [Router.routeData_rid, ih]
      split <;> rfl

theorem findNextHop_routeData (dest : Router) :
    findNextHop T.routeData dest.routeData =
      (fun x => (x.1.map Router.routeData, x.2)) <$> findNextHop T dest := by
  have hlen : T.routeData.network.length = T.network.length := by
    rw [Topo.routeData, List.length_map]
  simp only [findNextHop, routeData_thisRouter, hlen, deref_routeData, map_bind, bind_map_left]
  apply bind_congr
  intro this
  simp only [Router.routeData_rid, walkPrev_routeData, bind_map_left]
  split
  · rfl
  · rw [map_bind]
    apply bind_congr
    intro x
    rw [Router.routeData_prev]
    cases x.1.prev <;> rfl

theorem enterAll_unnamed {enter : List FtableEntry → Route → Exec (List FtableEntry)}
    (henter : ∀ ft s, enter ft s.unnamed = enter ft s) (ss : List Route) (ft : List FtableEntry) :
    enterAll enter (ss.map Route.unnamed) ft = enterAll enter ss ft := by
  induction ss generalizing ft with
  | nil => rfl
  | cons s ss ih =>
    rw [List.map_cons, enterAll, enterAll, henter]
    apply bind_congr
    intro ft'
    exact ih ft'

theorem updateLoop_routeData (interfaces : List PwospfIflist) (l : List Router)
    (ft : List FtableEntry) :
    updateLoop T.routeData interfaces (l.map Router.routeData) ft =
      updateLoop T interfaces l ft := by
  induction l generalizing ft with
  | nil => rfl
  | cons dest rest ih =>
    rw [List.map_cons, updateLoop, updateLoop, findNextHop_routeData, bind_map_left]
    apply bind_congr
    intro x
    obtain ⟨nextHop, numhops⟩ := x
    cases nextHop with
    | none =>
      simp only [Option.map_none, routeData_thisRouter, deref_routeData, bind_map_left]
      split
      · apply bind_congr
        intro this
        rw [Router.routeData_subnets, enterAll_unnamed fun _ _ => rfl]
        apply bind_congr
        intro ft'
        exact ih ft'
      · rfl
    | some n =>
      simp only [Option.map_some]
      rw [Router.routeData_subnets, Router.routeData_rid, enterAll_unnamed fun _ _ => rfl]
      apply bind_congr
      intro ft'
      exact ih ft'

theorem rebuild_routeData (interfaces : List PwospfIflist) :
    rebuild T.routeData interfaces =
      (fun x => (x.1.routeData, x.2)) <$> rebuild T interfaces := by
  simp only [rebuild, dijkstra_routeData, map_bind, bind_map_left]
  apply bind_congr
  intro T'
  have hupdate : updateFtable T'.routeData interfaces = updateFtable T' interfaces :=
    updateLoop_routeData T' interfaces T'.network []
  rw [hupdate]
  apply bind_congr
  intro x
  rfl

end Commute

/-! ## Equal tables -/

def Router.routes (r : Router) : Router := r.routeData.resetLabels

/-- The same routers, as far as routes depend on them. -/
abbrev SameRoutes (T T' : Topo) : Prop := Agree Router.routes T T'

/-- The address and the interface that the neighbor records give for a router id. -/
def hopOf (interfaces : List PwospfIflist) (id : UInt32) : InAddr × IfName :=
  ((getIfAndNeighbor .zero .zero id interfaces).2.1.ipAddress,
    (getIfAndNeighbor .zero .zero id interfaces).1.name)

/-- An interface without its neighbor records. -/
def PwospfIflist.static (i : PwospfIflist) : PwospfIflist := { i with neighbors := .alloc 0 }

theorem dijkstra_eq_of_reset {T T' : Topo} (h : resetNetwork T' = resetNetwork T) :
    dijkstra T' = dijkstra T := by
  rw [dijkstra, dijkstra, h]

theorem SameRoutes.rebuild_eq {T T' : Topo} (h : SameRoutes T T')
    (interfaces : List PwospfIflist) :
    Prod.snd <$> rebuild T' interfaces = Prod.snd <$> rebuild T interfaces := by
  have hreset : resetNetwork T'.routeData = resetNetwork T.routeData := by
    simp only [resetNetwork, Topo.routeData, List.map_map, Topo.mk.injEq]
    exact ⟨h.routers, h.thisRouter, h.nextAddr⟩
  have herase : ∀ T : Topo,
      Prod.snd <$> rebuild T.routeData interfaces = Prod.snd <$> rebuild T interfaces := by
    intro T
    rw [rebuild_routeData, Functor.map_map]
  rw [← herase T, ← herase T', rebuild, rebuild, dijkstra_eq_of_reset hreset]

section Interfaces

variable {T T' : Topo} {interfaces interfaces' : List PwospfIflist}
  (hstatic : interfaces'.map PwospfIflist.static = interfaces.map PwospfIflist.static)

include hstatic in
theorem enterOwn_congr (ft : List FtableEntry) (s : Route) :
    enterOwn interfaces' ft s = enterOwn interfaces ft s := by
  have hfind : ∀ l : List PwospfIflist, (getSubnetIf l s).map PwospfIflist.name =
      ((l.map PwospfIflist.static).find? fun i => i.mask &&& i.address = s.pfix).map
        PwospfIflist.name := by
    intro l
    rw [List.find?_map, Option.map_map]
    rfl
  have hname : (getSubnetIf interfaces' s).map PwospfIflist.name =
      (getSubnetIf interfaces s).map PwospfIflist.name := by
    rw [hfind, hfind, hstatic]
  unfold enterOwn
  cases hif : getSubnetIf interfaces s with
  | none =>
    rw [hif, Option.map_none, Option.map_eq_none_iff] at hname
    rw [hname]
  | some i =>
    rw [hif, Option.map_some, Option.map_eq_some_iff] at hname
    obtain ⟨i', hif', heq⟩ := hname
    simp only [hif', heq]

theorem enterOther_congr {nbr nbr' : NeighborList} {iface iface' : PwospfIflist}
    (hip : nbr'.ipAddress = nbr.ipAddress) (hname : iface'.name = iface.name) (numhops : Int) :
    enterOther nbr' iface' numhops = enterOther nbr iface numhops := by
  funext ft s
  rw [enterOther, enterOther, hip, hname]

include hstatic in
theorem updateLoop_congr (hT : T.Linked) (hsearch : Searched T)
    (hhop : ∀ n ∈ T.adj T.thisRouter, ∀ id ∈ T.ridOf n,
      hopOf interfaces' id = hopOf interfaces id)
    (routers : List Router) (hsub : ∀ R ∈ routers, R ∈ T.network) (ft : List FtableEntry) :
    updateLoop T interfaces' routers ft = updateLoop T interfaces routers ft := by
  induction routers generalizing ft with
  | nil => rfl
  | cons R rest ih =>
    have hrest := ih fun X hX => hsub X (List.mem_cons_of_mem _ hX)
    rw [updateLoop, updateLoop]
    rcases findNextHop_spec hT hsearch (find_of_mem hT.addrsNodup (hsub R (by simp))) with
      ⟨-, hrun⟩ | ⟨-, -, hrun⟩ | ⟨-, -, n, hrun, hn, hadj, -⟩
    · have hown : enterOwn interfaces' = enterOwn interfaces :=
        funext fun ft => funext (enterOwn_congr hstatic ft)
      simp only [hrun, ok_bind, if_true, hown, hrest]
    · rw [hrun]
      rfl
    · obtain ⟨hip, hname⟩ := Prod.mk.injEq .. ▸ hhop n.addr hadj n.rid (ridOf_of_find hn)
      simp only [hrun, ok_bind, hrest, enterOther_congr hip hname]

include hstatic in
/-- Databases that agree on what routes depend on, and neighbor records that agree on the adjacent
routers, give the same table. -/
theorem rebuild_congr (hT : T.Linked) (hsame : SameRoutes T T')
    (hhop : ∀ n ∈ T.adj T.thisRouter, ∀ id ∈ T.ridOf n,
      hopOf interfaces' id = hopOf interfaces id) :
    Prod.snd <$> rebuild T' interfaces' = Prod.snd <$> rebuild T interfaces := by
  rw [hsame.rebuild_eq]
  obtain ⟨T₁, hrun, hrec, hsearch⟩ := dijkstra_spec hT
  have hlinks := hrec.sameLinks
  have hupdate : updateFtable T₁ interfaces' = updateFtable T₁ interfaces := by
    apply updateLoop_congr hstatic (hT.of_sameLinks hlinks) hsearch _ T₁.network fun _ hR => hR
    rw [hlinks.adj, hlinks.thisRouter]
    intro n hn id hid
    rw [hlinks.ridOf] at hid
    exact hhop n hn id hid
  rw [rebuild, rebuild, hrun, ok_bind, ok_bind, hupdate]

end Interfaces

end PWOSPF
