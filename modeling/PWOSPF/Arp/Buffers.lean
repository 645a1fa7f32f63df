import PWOSPF.Packet.Checksum

/-!
# Packets that wait for a MAC

`buffer.c` and `lsu_buf.c`: the two linked lists of a next hop that is being resolved, and what
becomes of their packets. A packet is kept with the number of the call that handed it over, which the
code does not have.
-/

namespace PWOSPF

open Framework PacketField

def ethertypeArp : UInt16 := 0x0806
def arpRequest : UInt16 := 1
def arpHrdEth : UInt16 := 1
def arpProIp : UInt16 := 0x0800
def etherAddrLen : Nat := 6
def arpIpLen : Nat := 4
def ipprotoIcmp : Nat := 1
def icmptDestun : Nat := 3
def icmpcHostun : Nat := 1
def icmpDataRes : Nat := 8

/-- What `sr_send_packet` is given. -/
structure Transmission where
  frame : Frame
  iface : IfName
  deriving DecidableEq, Repr

structure PacketBuffer where
  call : Nat
  packet : Frame
  oldEth : Frame
  deriving DecidableEq, Repr

structure LsuBufEnt where
  call : Nat
  lsuPacket : Frame
  deriving DecidableEq, Repr

/-- A pointer to a linked list: the nodes that can be reached, and whether the last of them points
into freed memory. -/
structure Buf (α : Type) where
  nodes : List α
  torn : Bool
  deriving DecidableEq, Repr

namespace Buf

variable {α : Type}

def null : Buf α := ⟨[], false⟩

/-- What a function that walks the list sees of it. -/
def walk (b : Buf α) : Exec (List α) := if b.torn then .error .dangling else .ok b.nodes

/-- The pointer when the nodes it leads to have been freed. -/
def freed (b : Buf α) : Buf α := ⟨[], !b.nodes.isEmpty⟩

theorem walk_eq {b : Buf α} {l : List α} (h : b.walk = .ok l) : l = b.nodes := by
  rw [walk] at h
  split at h
  · cases h
  · exact (Except.ok.inj h).symm

end Buf

/-- To the end of the list. -/
def addToPackBuff (buff : Buf PacketBuffer) (p : PacketBuffer) : Exec (Buf PacketBuffer) := do
  return ⟨(← buff.walk) ++ [p], false⟩

theorem addToPackBuff_nodes {buff buff' : Buf PacketBuffer} {p : PacketBuffer}
    (h : addToPackBuff buff p = .ok buff') : buff'.nodes = buff.nodes ++ [p] := by
  obtain ⟨nodes, hwalk, h⟩ := bind_eq_ok.mp h
  cases h
  rw [Buf.walk_eq hwalk]

/-- To the front of the list, without looking at it. -/
def addToLsuBuff (buff : Buf LsuBufEnt) (p : LsuBufEnt) : Buf LsuBufEnt :=
  { buff with nodes := p :: buff.nodes }

def sendAllPacks (buff : Buf PacketBuffer) (mac : Mac) (iface : IfName) :
    Exec (List (Nat × Transmission)) := do
  (← buff.walk).mapM fun p => do
    return (p.call, ⟨← p.packet.store etherDhost.offset mac.toList, iface⟩)

def sendAllLsus (buff : Buf LsuBufEnt) (mac : Mac) (iface : IfName) :
    Exec (List (Nat × Transmission)) := do
  (← buff.walk).mapM fun p => do
    return (p.call, ⟨← p.lsuPacket.store etherDhost.offset mac.toList, iface⟩)

/-- The LSUs that are freed unsent. -/
def deleteAllLsu (buff : Buf LsuBufEnt) : Exec (List Nat) := do
  return (← buff.walk).map LsuBufEnt.call

theorem deleteAllLsu_eq {buff : Buf LsuBufEnt} {lsus : List Nat} (h : deleteAllLsu buff = .ok lsus) :
    lsus = buff.nodes.map LsuBufEnt.call := by
  obtain ⟨nodes, hwalk, h⟩ := bind_eq_ok.mp h
  cases h
  rw [Buf.walk_eq hwalk]

/-- `match` stays 0 after the first interface with another MAC. -/
def getIfFromMacLoop (mac : Frame) (found : Bool) : List SrIf → Option SrIf
  | [] => none
  | current :: rest =>
    let found := found && current.addr.toList = mac
    if found then some current else getIfFromMacLoop mac found rest

def getIfFromMac (sr : SrInstance) (mac : Frame) : Option SrIf := getIfFromMacLoop mac true sr.ifList

/-- The ICMP host unreachable for a packet. `bytes` are the contents of the memory it is built in. -/
def sendIcmp (sr : SrInstance) (bytes : Nat → UInt8) (packet oldEth : Frame) : Exec Transmission := do
  let oldLen := UInt16.ofNat packet.length
  let dataLen := oldLen - .ofNat (sizeofEther + sizeofIp)
  let dataLen := if dataLen.toNat ≥ icmpDataRes then icmpDataRes else dataLen.toNat
  let icmpPac : Frame := (List.range (sizeofEther + sizeofIp + sizeofIcmp + sizeofIp + icmpDataRes)).map bytes
  let icmpPac ← icmpPac.assign [(icmpType, icmptDestun), (icmpCode, icmpcHostun), (icmpOpt1, 0),
    (icmpOpt2, 0)]
  let icmpPac ← icmpPac.store (sizeofEther + sizeofIp + sizeofIcmp)
    (← packet.load sizeofEther (sizeofIp + dataLen))
  let icmpPacLen := sizeofIcmp + sizeofIp + dataLen
  let icmpPac ← icmpPac.set icmpSum 0
  let csum ← cksum (icmpPac.drop (sizeofEther + sizeofIp)) icmpPacLen
  let icmpPac ← icmpPac.set icmpSum (htons csum).toNat
  let icmpPac ← icmpPac.store sizeofEther (← packet.load sizeofEther sizeofIp)
  let icmpPac ← icmpPac.assign [(ipLen, (htons (.ofNat (sizeofIp + icmpPacLen))).toNat),
    (ipTtl, initTtl), (ipP, ipprotoIcmp)]
  match getIfFromMac sr (← oldEth.load etherDhost.offset etherAddrLen) with
  | none => .error .dangling
  | some iface =>
    let icmpPac ← icmpPac.assign [(ipSrc, iface.ip.toNat), (ipDst, ← packet.get ipSrc), (ipSum, 0)]
    let csum ← cksum (icmpPac.drop ipStart) sizeofIp
    let icmpPac ← icmpPac.set ipSum (htons csum).toNat
    let icmpPac ← icmpPac.store etherDhost.offset (← oldEth.load etherShost.offset etherAddrLen)
    let icmpPac ← icmpPac.store etherShost.offset iface.addr.toList
    let icmpPac ← icmpPac.set etherType (htons ethertypeIp).toNat
    return ⟨icmpPac.take (icmpPacLen + sizeofEther + sizeofIp), iface.name⟩

def sendAllIcmps (sr : SrInstance) (bytes : Nat → UInt8) (buff : Buf PacketBuffer) :
    Exec (List (Nat × Transmission)) := do
  (← buff.walk).mapM fun p => do return (p.call, ← sendIcmp sr bytes p.packet p.oldEth)

/-- `construct_request` of `arp.c`, which writes every byte of the packet. -/
def constructRequest (sr : SrInstance) (interface : IfName) (ipAddr : InAddr) : Exec Frame := do
  let request : Frame := List.replicate (sizeofEther + sizeofArp) 0
  let request ← request.store etherDhost.offset (List.replicate etherAddrLen 0xff)
  let request ← request.set etherType (htons ethertypeArp).toNat
  match srGetInterface sr interface with
  | none => .error .dangling
  | some iface =>
    let request ← request.store etherShost.offset iface.addr.toList
    let request ← request.assign [(arHrd, (htons arpHrdEth).toNat), (arPro, (htons arpProIp).toNat),
      (arHln, etherAddrLen), (arPln, arpIpLen), (arOp, (htons arpRequest).toNat)]
    let request ← request.store arSha.offset iface.addr.toList
    let request ← request.set arSip iface.ip.toNat
    let request ← request.store arTha.offset (List.replicate etherAddrLen 0)
    request.set arTip ipAddr.toNat

end PWOSPF
