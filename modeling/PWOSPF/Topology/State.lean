import PWOSPF.Framework.Execution
import PWOSPF.Framework.SwapErase
import PWOSPF.Packet.ByteOrder

/-!
# State of the PWOSPF subsystem

The records of `sr_pwospf.h`, `sr_if.h` and `sr_rt.h`. A `struct router *` is an address that is
never handed out twice, and the live routers are those in the network list: a router is linked
into the list when it is allocated and unlinked when it is freed, so an address that is no
longer listed is dangling and reading through it is a fault.
-/

namespace PWOSPF

open Framework

/-- `in_addr.s_addr` and router ids, as loaded from network byte order. -/
abbrev InAddr := UInt32
/-- `time_t` seconds. -/
abbrev Time := Int

/-- The readings of a clock after the first `k`. -/
def later (k : Nat) (clock : Nat → Time) : Nat → Time := fun j => clock (j + k)

/-- The characters of an interface name before the terminating zeros. -/
abbrev IfName := List UInt8
/-- `ETHER_ADDR_LEN` bytes. -/
abbrev Mac := Vector UInt8 6
abbrev Ptr := Nat

inductive Fault
  | dangling
  | assertion
  | outOfFuel
  | outOfBounds
  deriving DecidableEq, Repr

abbrev Exec := Except Fault

def ospfDefaultHelloint : UInt16 := 5
def ospfDefaultLsuint : Time := 30
def ospfNeighborTimeout : Time := 20
def topInitialization : Time := 90
def initAdjlistSize : Nat := 10
def initSubnetSize : Nat := 10
def defNbrBuf : Nat := 5

/-- An array with its recorded capacity and the number of bytes its last allocation asked for.
Entries written behind these bytes are kept too, so that what is proved of the entries is about the code
as long as they fit. -/
structure DynArray (α : Type) where
  elems : List α
  bufSize : Nat
  bytes : Nat
  deriving DecidableEq, Repr

namespace DynArray

variable {α : Type}

/-- `malloc`/`calloc` of `n` pointers. -/
def alloc (n : Nat) : DynArray α := ⟨[], n, 8 * n⟩

/-- `a = realloc(a, 2*buf_size); buf_size *= 2` -/
def grow (a : DynArray α) : DynArray α := ⟨a.elems, 2 * a.bufSize, 2 * a.bufSize⟩

/-- `a[size] = x; size++` -/
def store (a : DynArray α) (x : α) : DynArray α := { a with elems := a.elems ++ [x] }

def size (a : DynArray α) : Nat := a.elems.length

/-- Grow when the recorded capacity is used up, then store. -/
def push (a : DynArray α) (x : α) : DynArray α :=
  if a.bufSize = a.size then a.grow.store x else a.store x

def swapErase (a : DynArray α) (i : Nat) : DynArray α :=
  { a with elems := Framework.swapErase a.elems i }

def swapEraseP (p : α → Bool) (a : DynArray α) : DynArray α :=
  { a with elems := Framework.swapEraseP p a.elems }

def modify (a : DynArray α) (i : Nat) (f : α → α) : DynArray α :=
  { a with elems := a.elems.modify i f }

@[simp] theorem alloc_elems (n : Nat) : (alloc n : DynArray α).elems = [] := rfl
@[simp] theorem grow_elems (a : DynArray α) : a.grow.elems = a.elems := rfl
@[simp] theorem store_elems (a : DynArray α) (x : α) : (a.store x).elems = a.elems ++ [x] := rfl

@[simp] theorem push_elems (a : DynArray α) (x : α) : (a.push x).elems = a.elems ++ [x] := by
  unfold push
  split <;> rfl

@[simp] theorem swapEraseP_elems (p : α → Bool) (a : DynArray α) :
    (a.swapEraseP p).elems = Framework.swapEraseP p a.elems := rfl

@[simp] theorem modify_elems (a : DynArray α) (i : Nat) (f : α → α) :
    (a.modify i f).elems = a.elems.modify i f := rfl

end DynArray

structure Route where
  pfix : InAddr
  mask : InAddr
  nextHop : InAddr
  rId : UInt32
  deriving DecidableEq, Repr

structure Router where
  addr : Ptr
  adjacencies : DynArray Ptr
  subnets : DynArray Route
  lastSeq : UInt16
  expired : Time
  rid : UInt32
  known : Bool
  dist : Int
  prev : Option Ptr
  deriving DecidableEq, Repr

structure NeighborList where
  id : UInt32
  ipAddress : InAddr
  timenotvalid : Time
  deriving DecidableEq, Repr

structure PwospfIflist where
  address : InAddr
  mask : InAddr
  name : IfName
  helloint : UInt16
  mac : Mac
  neighbors : DynArray NeighborList
  deriving DecidableEq, Repr

structure FtableEntry where
  pfix : InAddr
  mask : InAddr
  nextHop : InAddr
  interface : IfName
  numHops : Int
  deriving DecidableEq, Repr

/-- The link-state database: the `network` list, `this_router`, and the next free address. -/
structure Topo where
  network : List Router
  thisRouter : Ptr
  nextAddr : Ptr
  deriving DecidableEq, Repr

structure PwospfSubsys where
  top : Topo
  fwrdTable : List FtableEntry
  interfaces : List PwospfIflist
  lastSeqSent : UInt16
  areaId : UInt32
  autype : UInt16
  initTime : Time
  deriving DecidableEq, Repr

structure SrIf where
  name : IfName
  addr : Mac
  ip : InAddr
  deriving DecidableEq, Repr

structure SrRt where
  dest : InAddr
  gw : InAddr
  mask : InAddr
  interface : IfName
  deriving DecidableEq, Repr

structure SrInstance where
  ifList : List SrIf
  routingTable : List SrRt
  deriving DecidableEq, Repr

def srGetInterface (sr : SrInstance) (name : IfName) : Option SrIf :=
  sr.ifList.find? fun i => i.name = name

namespace Topo

def addrs (T : Topo) : List Ptr := T.network.map Router.addr

def find (T : Topo) (p : Ptr) : Option Router := T.network.find? fun r => r.addr = p

/-- Read the router behind a pointer. -/
def deref (T : Topo) (p : Ptr) : Exec Router :=
  match T.find p with
  | some r => .ok r
  | none => .error .dangling

/-- Write the router behind a pointer. -/
def modify (T : Topo) (p : Ptr) (f : Router → Router) : Topo :=
  { T with network := T.network.map fun r => if r.addr = p then f r else r }

def ridOf (T : Topo) (p : Ptr) : Option UInt32 := (T.find p).map Router.rid

/-- The adjacencies array behind a pointer. -/
def adj (T : Topo) (p : Ptr) : List Ptr :=
  match T.find p with
  | some r => r.adjacencies.elems
  | none => []

/-- The subnets array behind a pointer. -/
def subs (T : Topo) (p : Ptr) : List Route :=
  match T.find p with
  | some r => r.subnets.elems
  | none => []

end Topo

end PWOSPF
