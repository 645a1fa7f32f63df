import PWOSPF.Arp.Buffers
import PWOSPF.Subsystem.Packets

/-!
# ICMP responses

`icmp.c`: the responses that `handle_ip` sends back are built in a second buffer, behind the headers
that its caller left room for.
-/

namespace PWOSPF

open Framework PacketField

def maxPacLength : Nat := 10000
def icmptEchoreply : Nat := 0
def icmptEchorequest : Nat := 8
def icmptTimeex : Nat := 11
def icmpcPortun : Nat := 3
def icmpcIntransit : Nat := 0

/-- `struct packet_state` while `handle_ip` works on it. The two buffers are kept whole, with the
positions of the pointers `packet` and `response` in them. -/
structure DatagramState where
  packet : Frame
  packetPos : Nat
  len : Nat
  interface : IfName
  response : Frame
  responsePos : Nat
  resLen : Nat
  rtEntry : Option SrRt
  dynEntry : Option FtableEntry
  forward : Bool
  okToSend : Bool
  deriving DecidableEq, Repr

/-- `leave_hdr_room` -/
def DatagramState.leaveHdrRoom (ps : DatagramState) (hdrSize : Nat) : DatagramState :=
  { ps with
    packetPos := ps.packetPos + hdrSize
    len := ps.len - hdrSize
    responsePos := ps.responsePos + hdrSize
    resLen := ps.resLen + hdrSize }

/-- The field of the ICMP header at position `pos`. -/
def PacketField.icmpAt (b : PacketField) (pos : Nat) : PacketField :=
  ⟨pos + (b.offset - icmpType.offset), b.width⟩

def createIcmpHdr (ps : DatagramState) (type code : Nat) : Exec DatagramState := do
  let resHead := ps.responsePos
  let response ← ps.response.assign [(icmpType.icmpAt resHead, type), (icmpCode.icmpAt resHead, code),
    (icmpSum.icmpAt resHead, 0), (icmpOpt1.icmpAt resHead, 0), (icmpOpt2.icmpAt resHead, 0)]
  return { ps with
    response := response
    resLen := ps.resLen + sizeofIcmp
    responsePos := ps.responsePos + sizeofIcmp }

/-- The IP header and the first 8 bytes at the pointer `packet`. -/
def createIcmpData (ps : DatagramState) : Exec DatagramState := do
  let response ← ps.response.store ps.responsePos (← ps.packet.load ipStart sizeofIp)
  let n := if ps.len < icmpDataRes then ps.len else icmpDataRes
  let response ← response.store (ps.responsePos + sizeofIp) (← ps.packet.load ps.packetPos n)
  return { ps with
    response := response
    resLen := ps.resLen + sizeofIp + n
    responsePos := ps.responsePos + sizeofIp + n }

def copyEchoData (ps : DatagramState) : Exec DatagramState := do
  let len := ps.len - sizeofIcmp
  let packetPos := ps.packetPos + sizeofIcmp
  let response ← ps.response.store ps.responsePos (← ps.packet.load packetPos len)
  return { ps with
    response := response
    packetPos := packetPos
    len := len
    resLen := ps.resLen + len }

/-- The checksum of the ICMP message at position `resHead`, which the code takes to end where the
response ends. -/
def sumIcmp (ps : DatagramState) (resHead : Nat) : Exec DatagramState := do
  let len := ps.resLen - sizeofEther - sizeofIp
  let response ← ps.response.set (icmpSum.icmpAt resHead) 0
  let csum ← cksum (response.drop resHead) len
  return { ps with response := ← response.set (icmpSum.icmpAt resHead) (ntohs csum).toNat }

def icmpResponse (ps : DatagramState) (type code : Nat) : Exec DatagramState := do
  let resHead := ps.responsePos
  if type = icmptEchoreply then
    let orig := ps.packetPos
    let ps ← createIcmpHdr ps type code
    let response ← ps.response.assign [
      (icmpOpt1.icmpAt resHead, ← ps.packet.get (icmpOpt1.icmpAt orig)),
      (icmpOpt2.icmpAt resHead, ← ps.packet.get (icmpOpt2.icmpAt orig))]
    sumIcmp (← copyEchoData { ps with response := response }) resHead
  else if type = icmptDestun ∨ type = icmptTimeex then
    sumIcmp (← createIcmpData (← createIcmpHdr ps type code)) resHead
  else return ps

def handleIcmp (ps : DatagramState) : Exec DatagramState := do
  if ps.len < sizeofIcmp then return ps
  if (← ps.packet.get (icmpType.icmpAt ps.packetPos)) = icmptEchorequest then
    icmpResponse ps icmptEchoreply icmptEchoreply
  else icmpResponse ps icmptDestun icmpcPortun

/-! ## What a response leaves alone -/

/-- The packet, where it came from and where it goes. -/
structure SameTask (ps ps' : DatagramState) : Prop where
  packet : ps'.packet = ps.packet
  interface : ps'.interface = ps.interface
  rtEntry : ps'.rtEntry = ps.rtEntry
  dynEntry : ps'.dynEntry = ps.dynEntry
  forward : ps'.forward = ps.forward
  okToSend : ps'.okToSend = ps.okToSend

variable {ps ps' ps'' : DatagramState} {type code resHead : Nat}

theorem SameTask.refl (ps : DatagramState) : SameTask ps ps := ⟨rfl, rfl, rfl, rfl, rfl, rfl⟩

theorem SameTask.trans (h : SameTask ps ps') (h' : SameTask ps' ps'') : SameTask ps ps'' :=
  ⟨h'.packet.trans h.packet, h'.interface.trans h.interface, h'.rtEntry.trans h.rtEntry,
    h'.dynEntry.trans h.dynEntry, h'.forward.trans h.forward, h'.okToSend.trans h.okToSend⟩

theorem createIcmpHdr_sameTask (h : createIcmpHdr ps type code = .ok ps') : SameTask ps ps' := by
  obtain ⟨response, -, h⟩ := bind_eq_ok.mp h
  cases h
  exact ⟨rfl, rfl, rfl, rfl, rfl, rfl⟩

theorem createIcmpData_sameTask (h : createIcmpData ps = .ok ps') : SameTask ps ps' := by
  obtain ⟨hdr, -, h⟩ := bind_eq_ok.mp h
  obtain ⟨response₁, -, h⟩ := bind_eq_ok.mp h
  obtain ⟨data, -, h⟩ := bind_eq_ok.mp h
  obtain ⟨response₂, -, h⟩ := bind_eq_ok.mp h
  cases h
  exact ⟨rfl, rfl, rfl, rfl, rfl, rfl⟩

theorem copyEchoData_sameTask (h : copyEchoData ps = .ok ps') : SameTask ps ps' := by
  obtain ⟨data, -, h⟩ := bind_eq_ok.mp h
  obtain ⟨response, -, h⟩ := bind_eq_ok.mp h
  cases h
  exact ⟨rfl, rfl, rfl, rfl, rfl, rfl⟩

theorem sumIcmp_sameTask (h : sumIcmp ps resHead = .ok ps') : SameTask ps ps' := by
  obtain ⟨response₁, -, h⟩ := bind_eq_ok.mp h
  obtain ⟨csum, -, h⟩ := bind_eq_ok.mp h
  obtain ⟨response₂, -, h⟩ := bind_eq_ok.mp h
  cases h
  exact ⟨rfl, rfl, rfl, rfl, rfl, rfl⟩

theorem icmpResponse_sameTask (h : icmpResponse ps type code = .ok ps') : SameTask ps ps' := by
  rw [icmpResponse] at h
  by_cases hecho : type = icmptEchoreply
  · rw [if_pos hecho] at h
    obtain ⟨ps₁, h₁, h⟩ := bind_eq_ok.mp h
    obtain ⟨opt1, -, h⟩ := bind_eq_ok.mp h
    obtain ⟨opt2, -, h⟩ := bind_eq_ok.mp h
    obtain ⟨response, -, h⟩ := bind_eq_ok.mp h
    obtain ⟨ps₂, h₂, h₃⟩ := bind_eq_ok.mp h
    have hsame : SameTask ps₁ { ps₁ with response := response } := ⟨rfl, rfl, rfl, rfl, rfl, rfl⟩
    have hdata := hsame.trans (copyEchoData_sameTask h₂)
    exact ((createIcmpHdr_sameTask h₁).trans hdata).trans (sumIcmp_sameTask h₃)
  · rw [if_neg hecho] at h
    by_cases herror : type = icmptDestun ∨ type = icmptTimeex
    · rw [if_pos herror] at h
      obtain ⟨ps₁, h₁, h⟩ := bind_eq_ok.mp h
      obtain ⟨ps₂, h₂, h₃⟩ := bind_eq_ok.mp h
      exact ((createIcmpHdr_sameTask h₁).trans (createIcmpData_sameTask h₂)).trans
        (sumIcmp_sameTask h₃)
    · rw [if_neg herror] at h
      cases h
      exact .refl ps

theorem handleIcmp_sameTask (h : handleIcmp ps = .ok ps') : SameTask ps ps' := by
  rw [handleIcmp] at h
  by_cases hlen : ps.len < sizeofIcmp
  · rw [if_pos hlen] at h
    cases h
    exact .refl ps
  · rw [if_neg hlen] at h
    obtain ⟨type, -, h⟩ := bind_eq_ok.mp h
    by_cases hrequest : type = icmptEchorequest
    · rw [if_pos hrequest] at h
      exact icmpResponse_sameTask h
    · rw [if_neg hrequest] at h
      exact icmpResponse_sameTask h

end PWOSPF
