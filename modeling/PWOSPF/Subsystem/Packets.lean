import PWOSPF.Packet.Checksum
import PWOSPF.Subsystem.Handlers

/-!
# OSPF packets

How LSUs are built, flooded and taken apart again, and what `handle_pwospf` checks. A packet stays
in one buffer that is edited in place; the pointer the source moves back and forth over it is the
offset of the field that is read or written.
-/

namespace PWOSPF

open Framework Topo PacketField

/-- What the code asks of its surroundings: the clock, its look-ups in the ARP cache (the `k`-th
for a packet, and an address), and the contents of uninitialised memory. -/
structure Env where
  clock : Nat → Time
  searchCache : Nat → InAddr → Option Mac
  bytes : Nat → UInt8
  nextHops : Nat → InAddr

/-- A copy of a packet given to `sr_send_packet`, or to `get_mac_address` to wait for the MAC of
its destination. -/
structure Handoff where
  frame : Frame
  iface : IfName
  awaits : Option InAddr
  deriving DecidableEq, Repr

structure PacketState where
  packet : Frame
  interface : IfName
  deriving DecidableEq, Repr

/-- The `len` of the source: the length of the packet without its Ethernet header. -/
def PacketState.len (ps : PacketState) : Nat := ps.packet.length - sizeofEther

def ospfV2 : Nat := 2
def ospfTypeHello : Nat := 1
def ospfTypeLsu : Nat := 4
def ospfDefaultAuthkey : Nat := 0
def ospfv2Type : Nat := 89
/-- `ip_v` is 4 and `ip_hl` is 5. -/
def ipVersionHl : Nat := 4 + 16 * 5

/-! ## Flooding -/

/-- One copy of the packet: the addresses and the IP checksum are written into the buffer, then
its first `size` bytes are handed over. -/
def copyTo (found : Option Mac) (mac : Mac) (name : IfName) (size : UInt16) (f : Frame)
    (dst : InAddr) : Exec (Frame × Handoff) := do
  let f ← f.assign [(ipDst, dst.toNat), (ipSum, 0)]
  let csum ← cksum (f.drop ipStart) sizeofIp
  let f ← f.assign [(ipSum, (htons csum).toNat), (etherType, (htons ethertypeIp).toNat)]
  let f ← f.store etherShost.offset mac.toList
  match found with
  | some dhost =>
    let f ← f.store etherDhost.offset dhost.toList
    return (f, ⟨← f.load 0 size.toNat, name, none⟩)
  | none => return (f, ⟨← f.load 0 size.toNat, name, some dst⟩)

/-- The inner loop of `send_lsu` and `forward_lsu`; `macOf` gives the source MAC. -/
def copyToNeighbors (env : Env) (macOf : PwospfIflist → Exec Mac) (size : UInt16)
    (skip : InAddr → Bool) (iface : PwospfIflist) :
    List NeighborList → Frame × List Handoff → Exec (Frame × List Handoff)
  | [], x => .ok x
  | nbr :: rest, x =>
    if skip nbr.ipAddress then copyToNeighbors env macOf size skip iface rest x
    else do
      let mac ← macOf iface
      let (f, copy) ← copyTo (env.searchCache x.2.length nbr.ipAddress) mac iface.name size x.1
        nbr.ipAddress
      copyToNeighbors env macOf size skip iface rest (f, x.2 ++ [copy])

/-- The loop over the interfaces, with the copies handed over so far. -/
def flood (env : Env) (macOf : PwospfIflist → Exec Mac) (size : UInt16) (skip : InAddr → Bool) :
    List PwospfIflist → Frame × List Handoff → Exec (Frame × List Handoff)
  | [], x => .ok x
  | iface :: rest, x => do
    let f ← x.1.set ipSrc iface.address.toNat
    let x ← copyToNeighbors env macOf size skip iface iface.neighbors.elems (f, x.2)
    flood env macOf size skip rest x

/-- The response that `icmp_response` prepares for an expired packet is never sent: `handle_ip`
returns 0 after `handle_pwospf`. -/
def forwardLsu (S : PwospfSubsys) (env : Env) (f : Frame) : Exec (List Handoff) := do
  let ttl := UInt8.ofNat (← f.get ipTtl) - 1
  let f ← f.set ipTtl ttl.toNat
  let hops := UInt8.ofNat (← f.get lsuTtl) - 1
  let f ← f.assign [(lsuTtl, hops.toNat), (ospfCsum, 0)]
  let len := ntohs (.ofNat (← f.get ospfLen))
  let csum ← cksum (f.drop ospfStart) (sizeofOspf - 8)
  let f ← f.set ospfCsum (htons csum).toNat
  if hops > 0 ∧ ttl > 0 then
    let prevSrc := UInt32.ofNat (← f.get ipSrc)
    let size := UInt16.ofNat (sizeofEther + sizeofIp + len.toNat)
    return (← flood env (fun i => .ok i.mac) size (fun a => a = prevSrc) S.interfaces (f, [])).2
  else return []

/-! ## Sending -/

structure Adv where
  subnet : UInt32
  mask : UInt32
  rid : UInt32
  deriving DecidableEq, Repr

def generateAdv (this : Router) (sr : SrInstance) : List Adv :=
  (this.subnets.elems.map fun s => ⟨s.pfix, s.mask, s.rId⟩) ++
    sr.routingTable.map fun s => ⟨s.dest, s.mask, 0⟩

/-- Copies the advertisements into the packet, the first of them to position `i`. -/
def storeAdvs : Nat → List Adv → Frame → Exec Frame
  | _, [], f => .ok f
  | i, a :: rest, f => do
    let f ← f.assign [(advSubnet i, a.subnet.toNat), (advMask i, a.mask.toNat),
      (advRid i, a.rid.toNat)]
    storeAdvs (i + 1) rest f

def sendLsu (sr : SrInstance) (S : PwospfSubsys) (env : Env) :
    Exec (PwospfSubsys × List Handoff) := do
  let this ← S.top.deref S.top.thisRouter
  let advs := generateAdv this sr
  let size := sizeofEther + sizeofIp + sizeofOspf + sizeofLsu + sizeofAdv * advs.length
  let pack ← storeAdvs 0 advs ((List.range size).map env.bytes)
  let seq := S.lastSeqSent + 1
  let len := UInt16.ofNat (sizeofOspf + sizeofLsu + sizeofAdv * advs.length)
  let pack ← pack.assign [
    (lsuSeq, (htons seq).toNat), (lsuTtl, initTtl), (lsuNumAdv, (htonl (.ofNat advs.length)).toNat),
    (ospfVersion, ospfV2), (ospfType, ospfTypeLsu), (ospfLen, (htons len).toNat),
    (ospfRid, this.rid.toNat), (ospfAid, (htonl S.areaId).toNat), (ospfAutype, ospfDefaultAuthkey),
    (ospfAudata, ospfDefaultAuthkey), (ospfCsum, 0)]
  let csum ← cksum (pack.drop ospfStart) (sizeofOspf - 8)
  let pack ← pack.assign [
    (ospfCsum, (htons csum).toNat), (ipHead, ipVersionHl), (ipTos, 0),
    (ipLen, (htons (.ofNat (sizeofIp + len.toNat))).toNat), (ipId, 0), (ipOff, 0),
    (ipTtl, initTtl), (ipP, ospfv2Type)]
  let macOf := fun i : PwospfIflist =>
    match srGetInterface sr i.name with
    | some srcIf => .ok srcIf.addr
    | none => .error .dangling
  let (_, copies) ← flood env macOf (.ofNat size) (fun _ => false) S.interfaces (pack, [])
  return ({ S with lastSeqSent := seq }, copies)

/-! ## Receiving -/

/-- The subsystem after a packet, the copies handed over, and the originator and sequence number
of the LSU that was merged and flooded, if it was one. -/
structure Outcome where
  subsys : PwospfSubsys
  copies : List Handoff
  applied : Option (UInt32 × UInt16)
  deriving DecidableEq, Repr

def Outcome.dropped (S : PwospfSubsys) : Outcome := ⟨S, [], none⟩

/-- `n` advertisements from position `i` on. The `next_hop` of a route stays what the memory held. -/
def readAdvs (env : Env) (f : Frame) : Nat → Nat → Exec (List Route)
  | 0, _ => .ok []
  | n + 1, i => do
    let subnet ← f.get (advSubnet i)
    let mask ← f.get (advMask i)
    let rid ← f.get (advRid i)
    let rest ← readAdvs env f n (i + 1)
    return ⟨.ofNat subnet, .ofNat mask, env.nextHops i, .ofNat rid⟩ :: rest

def handleLsu (S : PwospfSubsys) (env : Env) (f : Frame) : Exec Outcome := do
  let rid := UInt32.ofNat (← f.get ospfRid)
  let this ← S.top.deref S.top.thisRouter
  if rid = this.rid then return .dropped S
  let oldSeq := getSequence S rid
  let seq := UInt16.ofNat (← f.get lsuSeq)
  if oldSeq = seq then return .dropped S
  let numAds := ntohl (.ofNat (← f.get lsuNumAdv))
  let ads ← readAdvs env f numAds.toNat 0
  let S ← addToTop S env.clock rid ads
  let S := setSequence S rid seq
  let copies ← forwardLsu S env f
  return ⟨S, copies, some (rid, seq)⟩

/-- What `handle_HELLO` reads of the packet: nothing if it is too short or if no interface has the
name of the receiving one, and the HELLO interval only where the mask is the interface's. -/
def readHello (S : PwospfSubsys) (ps : PacketState) : Exec HelloMsg := do
  let msg : HelloMsg := ⟨ps.len, ps.interface, 0, 0, 0, 0⟩
  if ps.len < helloLen then return msg
  match S.interfaces.find? fun iface => iface.name = ps.interface with
  | none => return msg
  | some iface =>
    let f := ps.packet
    let msg := { msg with nmask := .ofNat (← f.get helloNmask) }
    if iface.mask ≠ ntohl msg.nmask then return msg
    return { msg with
      helloint := .ofNat (← f.get helloHelloint)
      rid := .ofNat (← f.get ospfRid)
      ipSrc := .ofNat (← f.get ipSrc) }

/-- The checks of `handle_pwospf`: the packet with its checksum cleared, if it passes them. -/
def checkPwospf (S : PwospfSubsys) (f : Frame) : Exec (Option Frame) := do
  if (← f.get ospfVersion) ≠ ospfV2 then return none
  let oldCsum := UInt16.ofNat (← f.get ospfCsum)
  let f ← f.set ospfCsum 0
  let csumCal := htons (← cksum (f.drop ospfStart) (sizeofOspf - 8))
  if csumCal ≠ oldCsum then return none
  if UInt32.ofNat (← f.get ospfAid) ≠ ntohl S.areaId then return none
  if UInt16.ofNat (← f.get ospfAutype) ≠ S.autype then return none
  return some f

def handlePwospf (S : PwospfSubsys) (env : Env) (ps : PacketState) : Exec Outcome := do
  match ← checkPwospf S ps.packet with
  | none => return .dropped S
  | some f =>
    let type ← f.get ospfType
    if type = ospfTypeHello then
      let S ← handleHello S env.clock (← readHello S { ps with packet := f })
      return ⟨S, [], none⟩
    else if type = ospfTypeLsu then handleLsu S env f
    else return .dropped S

/-! ## What the handlers do -/

variable {S : PwospfSubsys} {env : Env} {ps : PacketState} {f : Frame} {out : Outcome}

/-- An LSU is dropped, or it is new and from another router, and is merged and flooded. -/
inductive LsuHandled (S : PwospfSubsys) (env : Env) (f : Frame) (out : Outcome) : Prop
  | dropped (hout : out = .dropped S)
  | merged (rid seq : Nat) (this : Router) (ads : List Route) (S₁ : PwospfSubsys)
      (copies : List Handoff) (hrid : f.get ospfRid = .ok rid)
      (hthis : S.top.deref S.top.thisRouter = .ok this) (hother : UInt32.ofNat rid ≠ this.rid)
      (hseq : f.get lsuSeq = .ok seq)
      (hnew : getSequence S (UInt32.ofNat rid) ≠ UInt16.ofNat seq)
      (hmerge : addToTop S env.clock (UInt32.ofNat rid) ads = .ok S₁)
      (hout : out = ⟨setSequence S₁ (UInt32.ofNat rid) (UInt16.ofNat seq), copies,
        some (UInt32.ofNat rid, UInt16.ofNat seq)⟩)

theorem handleLsu_cases (h : handleLsu S env f = .ok out) : LsuHandled S env f out := by
  obtain ⟨rid, hrid, h⟩ := bind_eq_ok.mp h
  obtain ⟨this, hthis, h⟩ := bind_eq_ok.mp h
  by_cases hown : UInt32.ofNat rid = this.rid
  · rw [if_pos hown] at h
    cases h
    exact .dropped rfl
  · rw [if_neg hown] at h
    obtain ⟨seq, hseq, h⟩ := bind_eq_ok.mp h
    by_cases hold : getSequence S (UInt32.ofNat rid) = UInt16.ofNat seq
    · rw [if_pos hold] at h
      cases h
      exact .dropped rfl
    · rw [if_neg hold] at h
      obtain ⟨numAds, -, h⟩ := bind_eq_ok.mp h
      obtain ⟨ads, -, h⟩ := bind_eq_ok.mp h
      obtain ⟨S₁, hmerge, h⟩ := bind_eq_ok.mp h
      obtain ⟨copies, -, h⟩ := bind_eq_ok.mp h
      cases h
      exact .merged rid seq this ads S₁ copies hrid hthis hown hseq hold hmerge rfl

/-- A packet fails the checks, or its type says who handles it. -/
inductive PacketHandled (S : PwospfSubsys) (env : Env) (ps : PacketState) (out : Outcome) : Prop
  | refused (hcheck : checkPwospf S ps.packet = .ok none) (hout : out = .dropped S)
  | hello (f : Frame) (msg : HelloMsg) (S' : PwospfSubsys)
      (hcheck : checkPwospf S ps.packet = .ok (some f)) (htype : f.get ospfType = .ok ospfTypeHello)
      (hmsg : readHello S { ps with packet := f } = .ok msg)
      (hrun : handleHello S env.clock msg = .ok S') (hout : out = ⟨S', [], none⟩)
  | lsu (f : Frame) (hcheck : checkPwospf S ps.packet = .ok (some f))
      (htype : f.get ospfType = .ok ospfTypeLsu) (hrun : handleLsu S env f = .ok out)
  | unknown (f : Frame) (type : Nat) (hcheck : checkPwospf S ps.packet = .ok (some f))
      (htype : f.get ospfType = .ok type) (hhello : type ≠ ospfTypeHello)
      (hlsu : type ≠ ospfTypeLsu) (hout : out = .dropped S)

theorem handlePwospf_cases (h : handlePwospf S env ps = .ok out) : PacketHandled S env ps out := by
  obtain ⟨checked, hcheck, h⟩ := bind_eq_ok.mp h
  cases checked with
  | none =>
    cases h
    exact .refused hcheck rfl
  | some f =>
    obtain ⟨type, htype, h⟩ := bind_eq_ok.mp h
    by_cases hhello : type = ospfTypeHello
    · rw [if_pos hhello] at h
      obtain ⟨msg, hmsg, h⟩ := bind_eq_ok.mp h
      obtain ⟨S', hrun, h⟩ := bind_eq_ok.mp h
      cases h
      rw [hhello] at htype
      exact .hello f msg S' hcheck htype hmsg hrun rfl
    · rw [if_neg hhello] at h
      by_cases hlsu : type = ospfTypeLsu
      · rw [if_pos hlsu] at h
        rw [hlsu] at htype
        exact .lsu f hcheck htype h
      · rw [if_neg hlsu] at h
        cases h
        exact .unknown f type hcheck htype hhello hlsu rfl

end PWOSPF
