import PWOSPF.Topology.Advert
import PWOSPF.Topology.Expiry
import PWOSPF.Topology.RouteData

/-!
# The handlers of the PWOSPF subsystem

What happens to the subsystem between taking and releasing its lock: the start, an LSU merged into
the topology, a received HELLO, and the expiry of routers. Time stamps come from a stream; a handler
may skip values of it, so any stream of readings the machine can produce is covered.
-/

namespace PWOSPF

open Framework Topo

/-! ## Start -/

def ifMask : UInt32 := 0xfffffffe

def createPwospfIfaces (sr : SrInstance) : List PwospfIflist :=
  sr.ifList.map fun curSrIf =>
    { address := curSrIf.ip
      mask := ntohl ifMask
      name := curSrIf.name
      helloint := ospfDefaultHelloint
      mac := curSrIf.addr
      neighbors := .alloc defNbrBuf }

/-- The next hop `pwospf_init` enters for the other end of a point-to-point subnet. -/
def peerNextHop (curIf : PwospfIflist) : InAddr :=
  if curIf.address &&& curIf.mask = curIf.address then ntohl (htonl curIf.address ||| 1)
  else curIf.address &&& curIf.mask

/-- The subnet `pwospf_init` gives this router for an interface. -/
def initSubnet (curIf : PwospfIflist) : Route where
  pfix := curIf.address &&& curIf.mask
  mask := curIf.mask
  nextHop := peerNextHop curIf
  rId := 0

def initFtableEntry (curIf : PwospfIflist) : FtableEntry where
  pfix := curIf.address &&& curIf.mask
  mask := curIf.mask
  nextHop := peerNextHop curIf
  interface := curIf.name
  numHops := 0

/-- The characters of `"eth0"`. -/
def eth0Interface : IfName := [101, 116, 104, 48]

/-- `areaId` is what `read_config` returns. -/
def pwospfInit (sr : SrInstance) (clock : Nat → Time) (areaId : UInt32) : Exec PwospfSubsys :=
  match srGetInterface sr eth0Interface with
  | none => .error .dangling
  | some zero =>
    let interfaces := createPwospfIfaces sr
    let (T, thisRouter) := addNewRouter ⟨[], 0, 0⟩ zero.ip (clock 0)
    let storeAll := fun r : Router =>
      { r with subnets := interfaces.foldl (fun a i => a.store (initSubnet i)) r.subnets }
    .ok
      { top := { T.modify thisRouter storeAll with thisRouter := thisRouter }
        fwrdTable := interfaces.map initFtableEntry
        interfaces := interfaces
        lastSeqSent := 0
        areaId := areaId
        autype := 0
        initTime := clock 1 + topInitialization }

/-! ## Received LSUs and timeouts -/

/-- `dijkstra(sr, this_router); update_ftable(sr);` -/
def recompute (S : PwospfSubsys) : Exec PwospfSubsys := do
  let (T, ft) ← rebuild S.top S.interfaces
  return { S with top := T, fwrdTable := ft }

def addToTop (S : PwospfSubsys) (clock : Nat → Time) (hostRid : UInt32) (ads : List Route) :
    Exec PwospfSubsys := do
  let T ← mergeAdverts S.top S.initTime clock hostRid ads
  recompute { S with top := T }

def checkTopInvalid (S : PwospfSubsys) (clock : Nat → Time) : Exec PwospfSubsys := do
  let (T, changed) ← expiryLoop (later 1 clock) S.top.addrs S.top false
  if changed then recompute { S with top := T } else return { S with top := T }

def getSequence (S : PwospfSubsys) (routerId : UInt32) : UInt16 :=
  match S.top.network.find? fun r => r.rid = routerId with
  | some r => r.lastSeq
  | none => 0

def Router.setLastSeq (sequence : UInt16) (r : Router) : Router := { r with lastSeq := sequence }

def setSequence (S : PwospfSubsys) (routerId : UInt32) (sequence : UInt16) : PwospfSubsys :=
  match adjListContains S.top routerId with
  | some p => { S with top := S.top.modify p (Router.setLastSeq sequence) }
  | none => S

/-! ## Received HELLOs -/

/-- What `handle_HELLO` reads of a packet: the length handed to it, the receiving interface, the
fields of the two headers as loaded, and the source address. -/
structure HelloMsg where
  len : Nat
  interface : IfName
  nmask : UInt32
  helloint : UInt16
  rid : UInt32
  ipSrc : InAddr
  deriving DecidableEq, Repr

/-- `sizeof(struct ospfv2_hdr) + sizeof(struct ospfv2_hello_hdr)` -/
def helloLen : Nat := 32

/-- The first inner loop of `handle_HELLO`, with `n` neighbors left to look at from position `i`
on. A deleted neighbor is replaced by the last one, which is looked at next. -/
def expireNeighbors (initTime : Time) :
    (Nat → Time) → Nat → Nat → DynArray NeighborList → Topo →
      Exec (DynArray NeighborList × Topo)
  | _, 0, _, neighbors, T => .ok (neighbors, T)
  | clock, n + 1, i, neighbors, T =>
    match neighbors.elems[i]? with
    | none => .error .outOfBounds
    | some nbr =>
      if nbr.timenotvalid < clock 0 then
        if initTime < clock 1 then do
          let this ← T.deref T.thisRouter
          let T ← removeLink T T.thisRouter this.rid nbr.id
          expireNeighbors initTime (later 2 clock) n i (neighbors.swapErase i) T
        else expireNeighbors initTime (later 2 clock) n i (neighbors.swapErase i) T
      else expireNeighbors initTime (later 2 clock) n (i + 1) neighbors T

/-- The neighbor records of the receiving interface after an accepted HELLO. -/
def recordNeighbor (clock : Nat → Time) (msg : HelloMsg) (found : Bool)
    (neighbors : DynArray NeighborList) : DynArray NeighborList × Bool :=
  let neighbors := if neighbors.bufSize ≤ neighbors.size then neighbors.grow else neighbors
  let refreshed := neighbors.elems.mapIdx fun i nbr =>
    if nbr.ipAddress = msg.ipSrc then
      { nbr with timenotvalid := clock i + ospfNeighborTimeout }
    else nbr
  let found := found || neighbors.elems.any fun nbr => nbr.ipAddress = msg.ipSrc
  let neighbors := { neighbors with elems := refreshed }
  if found then (neighbors, true)
  else
    let now := clock neighbors.size
    (neighbors.store ⟨msg.rid, msg.ipSrc, now + ospfNeighborTimeout⟩, false)

/-- Gives the subnet the HELLO came over the id of its sender, if it has none yet. -/
def labelSubnet (T : Topo) (msg : HelloMsg) : Exec Topo := do
  let this ← T.deref T.thisRouter
  let newPref := msg.ipSrc &&& htonl msg.nmask
  match routerContainsSubnet this newPref with
  | none => return T
  | some oldSub =>
    if oldSub.rId = 0 ∧ oldSub.mask = ntohl msg.nmask then
      return T.modify T.thisRouter (Router.setRId newPref msg.rid)
    else return T

/-- The interface does not accept the HELLO. -/
def helloMismatch (iface : PwospfIflist) (msg : HelloMsg) : Bool :=
  iface.mask ≠ ntohl msg.nmask || iface.helloint ≠ ntohs msg.helloint

/-- One iteration of the loop over the interfaces; the last flag is false where the C function
drops the packet and returns. -/
def helloIface (initTime : Time) (clock : Nat → Time) (msg : HelloMsg) (iface : PwospfIflist)
    (T : Topo) (found : Bool) : Exec (PwospfIflist × Topo × Bool × Bool) := do
  let n := iface.neighbors.size
  let (neighbors, T) ← expireNeighbors initTime clock n 0 iface.neighbors T
  let iface := { iface with neighbors := neighbors }
  if iface.name ≠ msg.interface then return (iface, T, found, true)
  else if helloMismatch iface msg then return (iface, T, found, false)
  else if neighbors.bufSize = 0 then .error .assertion
  else
    let (neighbors, found) := recordNeighbor (later (2 * n) clock) msg found neighbors
    let T ← labelSubnet T msg
    return ({ iface with neighbors := neighbors }, T, found, true)

/-- Readings of the clock set aside for one interface. -/
def helloTicks (iface : PwospfIflist) : Nat := 3 * iface.neighbors.size + 1

def helloLoop (initTime : Time) (msg : HelloMsg) :
    (Nat → Time) → Bool → List PwospfIflist → Topo → Exec (List PwospfIflist × Topo)
  | _, _, [], T => .ok ([], T)
  | clock, found, iface :: rest, T => do
    let (iface', T, found, goOn) ← helloIface initTime clock msg iface T found
    if goOn then
      let (rest', T) ← helloLoop initTime msg (later (helloTicks iface) clock) found rest T
      return (iface' :: rest', T)
    else return (iface' :: rest, T)

def handleHello (S : PwospfSubsys) (clock : Nat → Time) (msg : HelloMsg) : Exec PwospfSubsys := do
  if msg.len < helloLen then return S
  let (interfaces, T) ← helloLoop S.initTime msg clock false S.interfaces S.top
  return { S with interfaces := interfaces, top := T }

end PWOSPF
