import PWOSPF.Topology.WellFormed

/-!
# Merging the advertisements of an LSU

`add_to_existing_router` and the prune loop of `add_to_top`. The values `time(NULL)` returns are
read from a stream: `clock k` is what the `k`-th call of the function returns.
-/

namespace PWOSPF

open Framework Topo

/-- The block that makes `conRouter` an adjacency of `host` unless it already is one. -/
def addAdjacency (T : Topo) (host conRouter : Ptr) : Exec Topo := do
  if ← routerHasAdjacency T host conRouter then return T
  return T.modify host (Router.pushAdj conRouter)

/-- Records an advertised route at its sender. The flag is false where the C loop goes on with
the next advertisement (`continue`). -/
def recordAtHost (T : Topo) (host : Ptr) (ad : Route) : Exec (Topo × Bool) := do
  let h ← T.deref host
  if routerContains ad h then return (T, true)
  match routerContainsSubnet h ad.pfix with
  | none => return (← addNewRoute T ad host, true)
  | some old =>
    if ad.mask ≠ old.mask ∧ (ad.rId = 0 ∨ old.rId = 0) then
      return (← addNewRoute T ad host, true)
    else if old.rId = 0 then
      return (T.modify host (Router.setRId ad.pfix ad.rId), true)
    else
      return (← removeSubnetFromRouter T host old, false)

/-- Records the opposite route at the attached router. -/
def recordAtPeer (T : Topo) (conRouter : Ptr) (oppRoute : Route) : Exec Topo := do
  let c ← T.deref conRouter
  if routerContains oppRoute c then return T
  match routerContainsSubnet c oppRoute.pfix with
  | none => addNewRoute T oppRoute conRouter
  | some old =>
    if old.rId = 0 then return T.modify conRouter (Router.setRId oppRoute.pfix oppRoute.rId)
    else removeSubnetFromRouter T conRouter oppRoute

/-- The attached router, listed first if it is not known yet. -/
def conRouterOf (T : Topo) (id : UInt32) (now : Time) : Topo × Ptr :=
  match adjListContains T id with
  | some p => (T, p)
  | none => addNewRouter T id now

/-- The part of one iteration that runs when the advertisement names an attached router. -/
def linkAdvert (T : Topo) (host : Ptr) (ad : Route) (now : Time) : Exec Topo := do
  let (T, con) := conRouterOf T ad.rId now
  let T ← addAdjacency T host con
  let T ← addAdjacency T con host
  let h ← T.deref host
  recordAtPeer T con { ad with rId := h.rid }

/-- One iteration of the loop of `add_to_existing_router`. -/
def addAdvert (T : Topo) (host : Ptr) (ad : Route) (now : Time) : Exec Topo := do
  let (T, goOn) ← recordAtHost T host ad
  if goOn ∧ ad.rId ≠ 0 then linkAdvert T host ad now else return T

def addAdverts (host : Ptr) : (Nat → Time) → List Route → Topo → Exec Topo
  | _, [], T => .ok T
  | clock, ad :: ads, T => do
    let T ← addAdvert T host ad (clock 0)
    addAdverts host (fun k => clock (k + 1)) ads T

def setExpired (now : Time) (r : Router) : Router :=
  { r with expired := now + 3 * ospfDefaultLsuint }

def addToExistingRouter (T : Topo) (clock : Nat → Time) (routes : List Route) (host : Ptr) :
    Exec Topo := do
  let _ ← T.deref host
  addAdverts host (fun k => clock (k + 1)) routes (T.modify host (setExpired (clock 0)))

def subInAdv (advs : List Route) (route : Route) : Bool := advs.any fun ad => routeCmp route ad = 0

/-- The prune loop of `add_to_top` from index `i` on. -/
def pruneLoop (host : Ptr) (hostRid : UInt32) (ads : List Route) :
    Nat → Nat → Topo → Exec Topo
  | 0, _, _ => .error .outOfFuel
  | fuel + 1, i, T => do
    let h ← T.deref host
    match h.subnets.elems[i]? with
    | none => return T
    | some s =>
      if subInAdv ads s then pruneLoop host hostRid ads fuel (i + 1) T
      else
        -- `i--` undoes the `i++` of the loop header: the slot now holds another subnet
        let T ← removeLink T host hostRid s.rId
        pruneLoop host hostRid ads fuel i T

/-- `add_to_top` up to the recomputation of the routes. -/
def mergeAdverts (T : Topo) (initTime : Time) (clock : Nat → Time) (hostRid : UInt32)
    (ads : List Route) : Exec Topo := do
  let (T, host) := conRouterOf T hostRid (clock 0)
  let T ← addToExistingRouter T (fun k => clock (k + 1)) ads host
  if initTime < clock (ads.length + 2) then
    let h ← T.deref host
    pruneLoop host hostRid ads (h.subnets.size + 1) 0 T
  else return T

end PWOSPF
