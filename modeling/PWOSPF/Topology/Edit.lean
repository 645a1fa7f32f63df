import PWOSPF.Topology.State

/-!
# Editing the link-state database

The helpers of `top_info.c` that search and edit the two unordered arrays of a router.
-/

namespace PWOSPF

/-- Compares prefix, mask and attached router id; `0` is equality. -/
def routeCmp (r1 r2 : Route) : Int :=
  if r1.pfix = r2.pfix ∧ r1.mask = r2.mask ∧ r1.rId = r2.rId then 0 else -1

def routerContains (rt : Route) (host : Router) : Bool :=
  host.subnets.elems.any fun s => routeCmp s rt = 0

/-- The first subnet with the given prefix; the C function returns a pointer to it. -/
def routerContainsSubnet (host : Router) (pfix : InAddr) : Option Route :=
  host.subnets.elems.find? fun s => s.pfix = pfix

/-- `old_sub->r_id = rId` through the pointer `routerContainsSubnet host pfix` returned. -/
def Router.setRId (pfix : InAddr) (rId : UInt32) (r : Router) : Router :=
  let k := r.subnets.elems.findIdx fun s => s.pfix = pfix
  { r with subnets := r.subnets.modify k fun s => { s with rId := rId } }

def Router.pushSubnet (s : Route) (r : Router) : Router := { r with subnets := r.subnets.push s }

def Router.pushAdj (q : Ptr) (r : Router) : Router := { r with adjacencies := r.adjacencies.push q }

/-- Delete the first subnet that satisfies `p`. -/
def Router.dropSubnet (p : Route → Bool) (r : Router) : Router :=
  { r with subnets := r.subnets.swapEraseP p }

/-- Delete position `i` of the adjacencies. -/
def Router.dropAdj (i : Nat) (r : Router) : Router :=
  { r with adjacencies := r.adjacencies.swapErase i }

def adjListContains (T : Topo) (id : UInt32) : Option Ptr :=
  (T.network.find? fun r => r.rid = id).map Router.addr

def addNewRoute (T : Topo) (current : Route) (host : Ptr) : Exec Topo := do
  let _ ← T.deref host
  return T.modify host (Router.pushSubnet current)

def newRouter (addr : Ptr) (hostRid : UInt32) (now : Time) : Router where
  addr := addr
  adjacencies := .alloc initAdjlistSize
  subnets := .alloc initSubnetSize
  lastSeq := 0
  expired := now + 3 * ospfDefaultLsuint
  rid := hostRid
  known := false
  dist := -1
  prev := none

/-- Appends a router without links to the network list and returns its address. -/
def addNewRouter (T : Topo) (hostRid : UInt32) (now : Time) : Topo × Ptr :=
  ({ T with
      network := T.network ++ [newRouter T.nextAddr hostRid now]
      nextAddr := T.nextAddr + 1 }, T.nextAddr)

/-- Index of the first adjacency whose router has the given id. -/
def findAdj (T : Topo) (id : UInt32) : List Ptr → Exec (Option Nat)
  | [] => .ok none
  | q :: qs => do
    let r ← T.deref q
    if r.rid = id then return some 0
    return (← findAdj T id qs).map (· + 1)

def removeRtSnUsingId (T : Topo) (rt : Ptr) (id : UInt32) : Exec Topo := do
  let _ ← T.deref rt
  return T.modify rt (Router.dropSubnet fun s => s.rId = id)

def removeRtAdjUsingId (T : Topo) (host : Ptr) (id : UInt32) : Exec Topo := do
  let h ← T.deref host
  match ← findAdj T id h.adjacencies.elems with
  | none => return T
  | some i => return T.modify host (Router.dropAdj i)

/-- The loop over the adjacencies is the one of `removeRtAdjUsingId`; the peer keeps its own
adjacency to `rt`. -/
def removeSubnetFromRouter (T : Topo) (rt : Ptr) (subnet : Route) : Exec Topo := do
  let _ ← T.deref rt
  let T := T.modify rt (Router.dropSubnet fun s => routeCmp s subnet = 0)
  if subnet.rId ≠ 0 then removeRtAdjUsingId T rt subnet.rId else return T

def routerHasAdjacency (T : Topo) (host conRouter : Ptr) : Exec Bool := do
  let h ← T.deref host
  let c ← T.deref conRouter
  return (← findAdj T c.rid h.adjacencies.elems).isSome

/-- The clean-up shared by the prune loop of `add_to_top` and the neighbor expiry of
`handle_HELLO`: the first subnet of `host` that carries `id` goes, and if a router with that id
is listed, so do its first subnet that carries `hostRid` and both adjacencies. -/
def removeLink (T : Topo) (host : Ptr) (hostRid id : UInt32) : Exec Topo := do
  let nbor := adjListContains T id
  let T ← removeRtSnUsingId T host id
  match nbor with
  | none => return T
  | some n =>
    let T ← removeRtSnUsingId T n hostRid
    let T ← removeRtAdjUsingId T n hostRid
    let r ← T.deref n
    removeRtAdjUsingId T host r.rid

@[simp] theorem routeCmp_eq_zero (r1 r2 : Route) :
    routeCmp r1 r2 = 0 ↔ r1.pfix = r2.pfix ∧ r1.mask = r2.mask ∧ r1.rId = r2.rId := by
  unfold routeCmp
  split <;> simp_all

theorem routerContains_iff (rt : Route) (host : Router) :
    routerContains rt host = true ↔
      ∃ s ∈ host.subnets.elems, s.pfix = rt.pfix ∧ s.mask = rt.mask ∧ s.rId = rt.rId := by
  simp [routerContains]

/-! ## Reading and writing through pointers -/

namespace Topo

theorem find_addr {T : Topo} {p : Ptr} {r : Router} (h : T.find p = some r) : r.addr = p := by
  simpa using List.find?_some h

theorem find_mem {T : Topo} {p : Ptr} {r : Router} (h : T.find p = some r) : r ∈ T.network :=
  List.mem_of_find?_eq_some h

theorem mem_addrs_iff {T : Topo} {p : Ptr} : p ∈ T.addrs ↔ ∃ r, T.find p = some r := by
  constructor
  · intro hp
    obtain ⟨r, hr, rfl⟩ := List.mem_map.mp hp
    rw [← Option.isSome_iff_exists, find, List.find?_isSome]
    exact ⟨r, hr, by simp⟩
  · rintro ⟨r, hr⟩
    exact List.mem_map.mpr ⟨r, find_mem hr, find_addr hr⟩

theorem find_eq_none_iff {T : Topo} {p : Ptr} : T.find p = none ↔ p ∉ T.addrs := by
  rw [mem_addrs_iff, not_exists, Option.eq_none_iff_forall_not_mem]
  rfl

theorem deref_of_find {T : Topo} {p : Ptr} {r : Router} (h : T.find p = some r) :
    T.deref p = .ok r := by
  simp [deref, h]

theorem deref_eq_ok_iff {T : Topo} {p : Ptr} {r : Router} :
    T.deref p = .ok r ↔ T.find p = some r := by
  unfold deref
  cases T.find p <;> simp

theorem ridOf_of_find {T : Topo} {p : Ptr} {r : Router} (h : T.find p = some r) :
    T.ridOf p = some r.rid := by
  simp [ridOf, h]

theorem adj_of_find {T : Topo} {p : Ptr} {r : Router} (h : T.find p = some r) :
    T.adj p = r.adjacencies.elems := by
  simp [adj, h]

theorem subs_of_find {T : Topo} {p : Ptr} {r : Router} (h : T.find p = some r) :
    T.subs p = r.subnets.elems := by
  simp [subs, h]

theorem find_modify (T : Topo) (p q : Ptr) (f : Router → Router)
    (hf : ∀ r, (f r).addr = r.addr) :
    (T.modify p f).find q = if q = p then (T.find q).map f else T.find q := by
  have hpred : ((fun r : Router => decide (r.addr = q)) ∘ fun r => if r.addr = p then f r else r) =
      fun r => decide (r.addr = q) := by
    funext r
    by_cases h : r.addr = p <;> simp [h, hf]
  simp only [find, modify, List.find?_map, hpred]
  cases hr : T.network.find? (fun r => decide (r.addr = q)) with
  | none => split <;> rfl
  | some r =>
    have ha : r.addr = q := by simpa using List.find?_some hr
    simp only [Option.map_some, ha]
    split <;> rfl

@[simp] theorem modify_thisRouter (T : Topo) (p : Ptr) (f : Router → Router) :
    (T.modify p f).thisRouter = T.thisRouter := rfl

@[simp] theorem modify_nextAddr (T : Topo) (p : Ptr) (f : Router → Router) :
    (T.modify p f).nextAddr = T.nextAddr := rfl

end Topo

end PWOSPF
