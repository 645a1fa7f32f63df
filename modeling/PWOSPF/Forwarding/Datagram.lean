import PWOSPF.Firewall.FlowTable
import PWOSPF.Forwarding.Icmp
import PWOSPF.Forwarding.RouteChoice
import PWOSPF.Packet.InetChecksum

/-!
# IP datagrams

`handle_ip` of `sr_router.c` with what it is called from: a datagram is answered, given to
`handle_pwospf`, forwarded as far as the firewall lets it pass, or dropped.
-/

namespace PWOSPF

open Framework PacketField

def ipprotoTcp : Nat := 6
def ipprotoUdp : Nat := 17
def ospfAllSPFRouters : UInt32 := 0xe0000005

/-- The field `ip_hl`, which `struct ip` declares in the high half of the first byte. -/
def ipHl (head : Nat) : Nat := head / 16

/-- The fields of the IP header that decide what becomes of a datagram. -/
structure IpHdr where
  ttl : Nat
  p : Nat
  src : InAddr
  dst : InAddr
  deriving DecidableEq, Repr

def loadIpHdr (f : Frame) : Exec IpHdr := do
  let ttl ← f.get ipTtl
  let p ← f.get ipP
  let src ← f.get ipSrc
  let dst ← f.get ipDst
  return ⟨ttl, p, .ofNat src, .ofNat dst⟩

/-- What `handle_ip` leaves behind; `ret` says whether it returns 1, and `copies` are the copies of
an LSU that `handle_pwospf` handed over. -/
structure IpOutcome where
  firewall : Firewall
  subsys : PwospfSubsys
  copies : List Handoff
  ps : DatagramState
  ret : Bool
  deriving DecidableEq, Repr

def IpOutcome.refused (fw : Firewall) (S : PwospfSubsys) (ps : DatagramState) : IpOutcome :=
  ⟨fw, S, [], ps, false⟩

/-! ## Asking the firewall -/

def Flow.reverse (flow : Flow) : Flow := ⟨flow.ipD, flow.ipS, flow.protocol, flow.portD, flow.portS⟩

/-- The blocks of `handle_ip` that ask the firewall with the ports that the pointer `packet` points
to, or without ports for ICMP. -/
def askFirewall (ask : Flow → Exec (Firewall × Bool)) (fw : Firewall) (h : IpHdr)
    (ps : DatagramState) : Exec (Firewall × Bool) := do
  if h.p = ipprotoIcmp then ask ⟨h.src, h.dst, .ofNat h.p, 0, 0⟩
  else if h.p = ipprotoTcp ∨ h.p = ipprotoUdp then
    if ps.len ≥ 4 then
      let srcPort ← ps.packet.get ⟨ps.packetPos, 2⟩
      let dstPort ← ps.packet.get ⟨ps.packetPos + 2, 2⟩
      ask ⟨h.src, h.dst, .ofNat h.p, .ofNat srcPort, .ofNat dstPort⟩
    else return (fw, false)
  else return (fw, false)

/-! ## Datagrams for the router -/

def toPwospf (fw : Firewall) (S : PwospfSubsys) (env : Env) (ps : DatagramState) :
    Exec IpOutcome := do
  let out ← handlePwospf S env ⟨ps.packet, ps.interface⟩
  return ⟨fw, out.subsys, out.copies, ps, false⟩

/-- The IP header of a response. -/
def answerHdr (ps : DatagramState) : Exec DatagramState := do
  let iph ← ps.response.store ipStart (← ps.packet.load ipStart sizeofIp)
  let iph ← iph.assign [(ipLen, (htons (.ofNat (ps.resLen - sizeofEther))).toNat), (ipTtl, initTtl),
    (ipTos, ← ps.packet.get ipTos), (ipP, ipprotoIcmp), (ipSrc, ← ps.packet.get ipDst),
    (ipDst, ← ps.packet.get ipSrc), (ipSum, 0)]
  let csum ← cksum (iph.drop ipStart) sizeofIp
  return { ps with response := ← iph.set ipSum (htons csum).toNat, okToSend := true }

def answer (fw : Firewall) (S : PwospfSubsys) (env : Env) (h : IpHdr) (ps : DatagramState) :
    Exec IpOutcome := do
  if h.p = ipprotoIcmp then
    let ps ← answerHdr (← handleIcmp (ps.leaveHdrRoom sizeofIp))
    return ⟨fw, S, [], ps, true⟩
  else if h.p = ospfv2Type then toPwospf fw S env ps
  else
    let ps ← answerHdr (← icmpResponse (ps.leaveHdrRoom sizeofIp) icmptDestun icmpcPortun)
    return ⟨fw, S, [], ps, true⟩

/-- A datagram for the address of `iface`. The pointer `packet` still points to its IP header when
the firewall is asked. -/
def deliver (fw : Firewall) (S : PwospfSubsys) (env : Env) (h : IpHdr) (ps : DatagramState)
    (iface : SrIf) : Exec IpOutcome := do
  if isExternal fw ps.interface ∧ isInternal fw iface.name then
    if h.p = ospfv2Type then toPwospf fw S env ps
    else
      let (fw, allowed) ← askFirewall (fun flow => .ok (checkConnection fw env.clock flow)) fw h ps
      if allowed then answer fw S env h ps else return .refused fw S ps
  else answer fw S env h ps

/-- The loop over the interfaces; there is no outcome yet if it finds nothing. -/
def ownAddressLoop (fw : Firewall) (S : PwospfSubsys) (env : Env) (h : IpHdr) (ps : DatagramState) :
    List SrIf → Exec (Option IpOutcome)
  | [] => .ok none
  | iface :: rest => do
    if iface.ip = h.dst then return some (← deliver fw S env h ps iface)
    else if h.dst = ntohl ospfAllSPFRouters then return some (← toPwospf fw S env ps)
    else ownAddressLoop fw S env h ps rest

/-! ## Datagrams for others -/

/-- The interface and the next hop of the entry that was chosen. -/
def DatagramState.route (ps : DatagramState) : Option (IfName × InAddr) :=
  match ps.dynEntry with
  | some e => some (e.interface, e.nextHop)
  | none => ps.rtEntry.map fun e => (e.interface, e.gw)

/-- A static route is looked for if there is no dynamic one. -/
def DatagramState.chooseRoute (sr : SrInstance) (S : PwospfSubsys) (dst : InAddr)
    (ps : DatagramState) : DatagramState :=
  match getDynRoutingIf S dst with
  | some e => { ps with dynEntry := some e }
  | none => { ps with dynEntry := none, rtEntry := getStaticRoutingIf sr dst }

def updateIpHdr (f : Frame) : Exec Frame := do
  let ttl := UInt8.ofNat (← f.get ipTtl) - 1
  let f ← f.assign [(ipTtl, ttl.toNat), (ipSum, 0)]
  let csum ← cksum (f.drop ipStart) sizeofIp
  f.set ipSum (htons csum).toNat

/-- A copy of `n` bytes that may go on behind the end of the packet, into memory that is not its
own. -/
def copyBytes (env : Env) (f : Frame) (o n : Nat) : Frame :=
  (f.drop o ++ (List.range n).map env.bytes).take n

/-- The end of `handle_ip` for a datagram that may pass. What is copied are 20 bytes more than
`ps->len`, whether or not the pointer `packet` was moved behind the IP header. -/
def expireOrForward (fw : Firewall) (S : PwospfSubsys) (env : Env) (h : IpHdr) (ps : DatagramState) :
    Exec IpOutcome := do
  if h.ttl < 1 then
    let ps ← icmpResponse ps icmptTimeex icmpcIntransit
    return ⟨fw, S, [], ps, true⟩
  else
    let packet ← updateIpHdr ps.packet
    let response ← ps.response.store ipStart (copyBytes env packet ipStart (ps.len + sizeofIp))
    let ps := { ps with
      packet := packet
      response := response
      forward := true
      resLen := ps.resLen + ps.len }
    return ⟨fw, S, [], ps, true⟩

def forwardIp (sr : SrInstance) (fw : Firewall) (S : PwospfSubsys) (env : Env) (h : IpHdr)
    (ps : DatagramState) : Exec IpOutcome := do
  let ps := ps.chooseRoute sr S h.dst
  match ps.route with
  | none => return .refused fw S ps
  | some (tempIf, _) =>
    if isExternal fw ps.interface then
      if isInternal fw tempIf then
        let ps := ps.leaveHdrRoom sizeofIp
        let (fw, allowed) ← askFirewall (fun flow => .ok (checkConnection fw env.clock flow)) fw h ps
        if allowed then expireOrForward fw S env h ps else return .refused fw S ps
      else expireOrForward fw S env h ps
    else
      let (fw, allowed) ← askFirewall (fun flow => tellValid fw env.clock flow.reverse) fw h ps
      if allowed then expireOrForward fw S env h ps else return .refused fw S ps

def handleIp (sr : SrInstance) (fw : Firewall) (S : PwospfSubsys) (env : Env) (ps : DatagramState) :
    Exec IpOutcome := do
  let ps := { ps with okToSend := false }
  if ps.len < sizeofIp then return .refused fw S ps
  if ipHl (← ps.packet.get ipHead) * 4 > sizeofIp then return .refused fw S ps
  let h ← loadIpHdr ps.packet
  match ← ownAddressLoop fw S env h ps sr.ifList with
  | some out => return out
  | none => forwardIp sr fw S env h ps

/-! ## Received packets -/

/-- The packet as `sr_handlepacket` gives it to `handle_ip`. -/
def DatagramState.received (env : Env) (packet : Frame) (interface : IfName) : DatagramState :=
  DatagramState.leaveHdrRoom
    { packet := packet
      packetPos := 0
      len := packet.length
      interface := interface
      response := (List.range maxPacLength).map env.bytes
      responsePos := 0
      resLen := 0
      rtEntry := none
      dynEntry := none
      forward := false
      okToSend := false } sizeofEther

def derefInterface (sr : SrInstance) (name : IfName) : Exec SrIf :=
  match srGetInterface sr name with
  | some sif => .ok sif
  | none => .error .dangling

/-- Also the copy that is handed to `get_mac_address`, if there is one, and whether the function
returns 1. -/
def createEthHdr (sr : SrInstance) (env : Env) (ps : DatagramState) (ethRec : Frame) :
    Exec (DatagramState × List Handoff × Bool) := do
  if ps.forward then
    match ps.route with
    | none => return (ps, [], false)
    | some (name, nhop) =>
      let sif ← derefInterface sr name
      let eth ← ps.response.store etherShost.offset sif.addr.toList
      let eth ← eth.set etherType (htons ethertypeIp).toNat
      match env.searchCache 0 nhop with
      | some mac =>
        return ({ ps with response := ← eth.store etherDhost.offset mac.toList }, [], true)
      | none =>
        let copy := ⟨← eth.load 0 ps.resLen, sif.name, some nhop⟩
        return ({ ps with response := eth }, [copy], false)
  else
    let sif ← derefInterface sr ps.interface
    let eth ← ps.response.store etherDhost.offset (← ethRec.load etherShost.offset etherAddrLen)
    let eth ← eth.store etherShost.offset sif.addr.toList
    return ({ ps with response := ← eth.set etherType (htons ethertypeIp).toNat }, [], true)

/-- The interface `sr_handlepacket` sends the response to. -/
def DatagramState.sendIf (ps : DatagramState) : Option IfName :=
  match ps.route with
  | some (name, _) => some name
  | none => if ps.okToSend then some ps.interface else none

/-- What a received packet changes, and the copies handed over. -/
structure Reception where
  firewall : Firewall
  subsys : PwospfSubsys
  sent : List Handoff
  deriving DecidableEq, Repr

/-- `sr_handlepacket` for IP packets. ARP packets change neither the firewall nor the PWOSPF
subsystem. `sent` is what is handed to `sr_send_packet`, which refuses frames whose source is not the
interface, and to `get_mac_address`. -/
def srHandlepacket (sr : SrInstance) (fw : Firewall) (S : PwospfSubsys) (env : Env) (packet : Frame)
    (interface : IfName) : Exec Reception := do
  if packet.length < sizeofEther then return ⟨fw, S, []⟩
  if ntohs (.ofNat (← packet.get etherType)) ≠ ethertypeIp then return ⟨fw, S, []⟩
  let out ← handleIp sr fw S env (.received env packet interface)
  if out.ret then
    let (ps, copies, ok) ← createEthHdr sr env out.ps (packet.take sizeofEther)
    match ok, ps.sendIf with
    | true, some name =>
      let copy := ⟨← ps.response.load 0 ps.resLen, name, none⟩
      return ⟨out.firewall, out.subsys, out.copies ++ copies ++ [copy]⟩
    | _, _ => return ⟨out.firewall, out.subsys, out.copies ++ copies⟩
  else return ⟨out.firewall, out.subsys, out.copies⟩

/-! ## The path of a datagram for others -/

section Path

variable {sr : SrInstance} {fw : Firewall} {S : PwospfSubsys} {env : Env} {f f' : Frame}
  {name : IfName} {h : IpHdr} {ps : DatagramState} {out : IpOutcome}

/-- The destination is neither the address of an interface nor that of all PWOSPF routers, to which
it is compared once for every interface. -/
def ForOthers (sr : SrInstance) (dst : InAddr) : Prop :=
  ∀ iface ∈ sr.ifList, iface.ip ≠ dst ∧ dst ≠ ntohl ospfAllSPFRouters

instance (sr : SrInstance) (dst : InAddr) : Decidable (ForOthers sr dst) :=
  inferInstanceAs (Decidable (∀ iface ∈ sr.ifList, _))

theorem ownAddressLoop_none_iff {ifaces : List SrIf} :
    ownAddressLoop fw S env h ps ifaces = .ok none ↔
      ∀ iface ∈ ifaces, iface.ip ≠ h.dst ∧ h.dst ≠ ntohl ospfAllSPFRouters := by
  induction ifaces with
  | nil => simp [ownAddressLoop]
  | cons iface rest ih =>
    rw [List.forall_mem_cons, ← ih, ownAddressLoop]
    by_cases hown : iface.ip = h.dst
    · rw [if_pos hown]
      constructor
      · intro hrun
        obtain ⟨out, -, hsome⟩ := bind_eq_ok.mp hrun
        cases hsome
      · exact fun hothers => absurd hown hothers.1.1
    · rw [if_neg hown]
      by_cases hall : h.dst = ntohl ospfAllSPFRouters
      · rw [if_pos hall]
        constructor
        · intro hrun
          obtain ⟨out, -, hsome⟩ := bind_eq_ok.mp hrun
          cases hsome
        · exact fun hothers => absurd hall hothers.1.2
      · rw [if_neg hall]
        exact ⟨fun hrun => ⟨⟨hown, hall⟩, hrun⟩, fun hothers => hothers.2⟩

/-- The interface by which the route chosen for the destination leaves. -/
def chosenIf (sr : SrInstance) (S : PwospfSubsys) (dst : InAddr) : Option IfName :=
  match getDynRoutingIf S dst with
  | some e => some e.interface
  | none => (getStaticRoutingIf sr dst).map SrRt.interface

theorem chooseRoute_route (sr : SrInstance) (S : PwospfSubsys) (ps : DatagramState) (dst : InAddr) :
    (ps.chooseRoute sr S dst).route.map Prod.fst = chosenIf sr S dst := by
  unfold DatagramState.chooseRoute chosenIf DatagramState.route
  cases getDynRoutingIf S dst with
  | some e => rfl
  | none => cases getStaticRoutingIf sr dst <;> rfl

/-- The datagram as it was received, with a route or without; only the pointers may have moved. -/
structure Untouched (f : Frame) (name : IfName) (pos : Nat) (ps : DatagramState) : Prop where
  packet : ps.packet = f
  packetPos : ps.packetPos = pos
  len : ps.len = f.length - pos
  interface : ps.interface = name
  response : ps.response.length = maxPacLength
  forward : ps.forward = false

theorem Untouched.chooseRoute {pos : Nat} (h : Untouched f name pos ps) (sr : SrInstance)
    (S : PwospfSubsys) (dst : InAddr) :
    Untouched f name pos (ps.chooseRoute sr S dst) := by
  unfold DatagramState.chooseRoute
  cases getDynRoutingIf S dst with
  | some e => exact ⟨h.packet, h.packetPos, h.len, h.interface, h.response, h.forward⟩
  | none => exact ⟨h.packet, h.packetPos, h.len, h.interface, h.response, h.forward⟩

theorem Untouched.leaveHdrRoom {pos : Nat} (h : Untouched f name pos ps) (n : Nat) :
    Untouched f name (pos + n) (ps.leaveHdrRoom n) := by
  refine ⟨h.packet, congrArg (· + n) h.packetPos, ?_, h.interface, h.response, h.forward⟩
  rw [DatagramState.leaveHdrRoom, h.len, Nat.sub_sub]

theorem received_untouched (env : Env) (f : Frame) (name : IfName) :
    Untouched f name sizeofEther (.received env f name) := by
  unfold DatagramState.received
  rw [← Nat.zero_add sizeofEther]
  apply Untouched.leaveHdrRoom
  exact ⟨rfl, rfl, rfl, rfl, by simp only [List.length_map, List.length_range], rfl⟩

/-- A datagram for others is forwarded, unless the code takes its header for one with options. -/
theorem handleIp_forOthers (fw : Firewall) (S : PwospfSubsys) (env : Env)
    (hps : Untouched f name sizeofEther ps) {head : Nat}
    (hhead : f.get ipHead = .ok head) (hload : loadIpHdr f = .ok h) (hothers : ForOthers sr h.dst)
    (hlen : sizeofEther + sizeofIp ≤ f.length) :
    ∃ ps', Untouched f name sizeofEther ps' ∧ handleIp sr fw S env ps =
      if ipHl head * 4 > sizeofIp then .ok (.refused fw S ps') else forwardIp sr fw S env h ps' := by
  refine ⟨{ ps with okToSend := false },
    ⟨hps.packet, hps.packetPos, hps.len, hps.interface, hps.response, hps.forward⟩, ?_⟩
  have hlong : ¬ ps.len < sizeofIp := by
    rw [hps.len]
    exact Nat.not_lt.mpr (Nat.le_sub_of_add_le' hlen)
  simp only [handleIp, if_neg hlong, hps.packet, hhead, ok_bind]
  by_cases hoptions : ipHl head * 4 > sizeofIp
  · rw [if_pos hoptions, if_pos hoptions]
    rfl
  · rw [if_neg hoptions, if_neg hoptions, hload, ok_bind, ownAddressLoop_none_iff.mpr hothers]
    rfl

/-- The ways a datagram can take. -/
theorem handleIp_paths (hrun : handleIp sr fw S env ps = .ok out) :
    out = .refused fw S { ps with okToSend := false } ∨
      ∃ head h, ps.packet.get ipHead = .ok head ∧ ¬ ipHl head * 4 > sizeofIp ∧
        loadIpHdr ps.packet = .ok h ∧
        (ownAddressLoop fw S env h { ps with okToSend := false } sr.ifList = .ok (some out) ∨
          ForOthers sr h.dst ∧ forwardIp sr fw S env h { ps with okToSend := false } = .ok out) := by
  simp only [handleIp] at hrun
  by_cases hshort : ps.len < sizeofIp
  · rw [if_pos hshort] at hrun
    cases hrun
    exact Or.inl rfl
  · rw [if_neg hshort] at hrun
    obtain ⟨head, hhead, hrun⟩ := bind_eq_ok.mp hrun
    by_cases hoptions : ipHl head * 4 > sizeofIp
    · rw [if_pos hoptions] at hrun
      cases hrun
      exact Or.inl rfl
    · rw [if_neg hoptions] at hrun
      obtain ⟨h, hload, hrun⟩ := bind_eq_ok.mp hrun
      obtain ⟨found, hloop, hrun⟩ := bind_eq_ok.mp hrun
      right
      refine ⟨head, h, hhead, hoptions, hload, ?_⟩
      cases found with
      | some out' =>
        cases hrun
        exact Or.inl hloop
      | none => exact Or.inr ⟨ownAddressLoop_none_iff.mp hloop, hrun⟩

theorem handleIp_cases (hps : Untouched f name sizeofEther ps)
    (hrun : handleIp sr fw S env ps = .ok out) :
    ∃ ps', Untouched f name sizeofEther ps' ∧
      (out = .refused fw S ps' ∨ ∃ head h, f.get ipHead = .ok head ∧ ¬ ipHl head * 4 > sizeofIp ∧
        loadIpHdr f = .ok h ∧
        (ownAddressLoop fw S env h ps' sr.ifList = .ok (some out) ∨
          ForOthers sr h.dst ∧ forwardIp sr fw S env h ps' = .ok out)) := by
  obtain rfl := hps.packet
  exact ⟨{ ps with okToSend := false },
    ⟨rfl, hps.packetPos, hps.len, hps.interface, hps.response, hps.forward⟩, handleIp_paths hrun⟩

/-! ## Datagrams for the router -/

theorem toPwospf_ok (hrun : toPwospf fw S env ps = .ok out) : out.firewall = fw ∧ out.ps = ps := by
  obtain ⟨_, -, hrun⟩ := bind_eq_ok.mp hrun
  cases hrun
  exact ⟨rfl, rfl⟩

theorem answerHdr_forward {ps' : DatagramState} (hrun : answerHdr ps = .ok ps') :
    ps'.forward = ps.forward := by
  obtain ⟨hdr, -, hrun⟩ := bind_eq_ok.mp hrun
  obtain ⟨iph₁, -, hrun⟩ := bind_eq_ok.mp hrun
  obtain ⟨tos, -, hrun⟩ := bind_eq_ok.mp hrun
  obtain ⟨dst, -, hrun⟩ := bind_eq_ok.mp hrun
  obtain ⟨src, -, hrun⟩ := bind_eq_ok.mp hrun
  obtain ⟨iph₂, -, hrun⟩ := bind_eq_ok.mp hrun
  obtain ⟨csum, -, hrun⟩ := bind_eq_ok.mp hrun
  obtain ⟨iph₃, -, hrun⟩ := bind_eq_ok.mp hrun
  cases hrun
  rfl

theorem answer_ok (hrun : answer fw S env h ps = .ok out) :
    out.firewall = fw ∧ out.ps.forward = ps.forward := by
  rw [answer] at hrun
  by_cases hicmp : h.p = ipprotoIcmp
  · rw [if_pos hicmp] at hrun
    obtain ⟨ps₁, hbody, hrun⟩ := bind_eq_ok.mp hrun
    obtain ⟨ps₂, hhdr, hrun⟩ := bind_eq_ok.mp hrun
    cases hrun
    exact ⟨rfl, (answerHdr_forward hhdr).trans (handleIcmp_sameTask hbody).forward⟩
  · rw [if_neg hicmp] at hrun
    by_cases hospf : h.p = ospfv2Type
    · rw [if_pos hospf] at hrun
      obtain ⟨hfw, hps⟩ := toPwospf_ok hrun
      exact ⟨hfw, by rw [hps]⟩
    · rw [if_neg hospf] at hrun
      obtain ⟨ps₁, hbody, hrun⟩ := bind_eq_ok.mp hrun
      obtain ⟨ps₂, hhdr, hrun⟩ := bind_eq_ok.mp hrun
      cases hrun
      exact ⟨rfl, (answerHdr_forward hhdr).trans (icmpResponse_sameTask hbody).forward⟩

theorem askFirewall_ok {ask : Flow → Exec (Firewall × Bool)} {r : Firewall × Bool}
    (hrun : askFirewall ask fw h ps = .ok r) : r = (fw, false) ∨ ∃ flow, ask flow = .ok r := by
  rw [askFirewall] at hrun
  by_cases hicmp : h.p = ipprotoIcmp
  · rw [if_pos hicmp] at hrun
    exact Or.inr ⟨_, hrun⟩
  · rw [if_neg hicmp] at hrun
    by_cases hports : h.p = ipprotoTcp ∨ h.p = ipprotoUdp
    · rw [if_pos hports] at hrun
      by_cases hlen : ps.len ≥ 4
      · rw [if_pos hlen] at hrun
        obtain ⟨srcPort, -, hrun⟩ := bind_eq_ok.mp hrun
        obtain ⟨dstPort, -, hrun⟩ := bind_eq_ok.mp hrun
        exact Or.inr ⟨_, hrun⟩
      · rw [if_neg hlen] at hrun
        cases hrun
        exact Or.inl rfl
    · rw [if_neg hports] at hrun
      cases hrun
      exact Or.inl rfl

/-- Nothing happened to the firewall but that a connection may have been looked up. -/
def LooksUp (fw : Firewall) (env : Env) (fw' : Firewall) : Prop :=
  fw' = fw ∨ ∃ flow, fw' = (checkConnection fw env.clock flow).1

theorem askFirewall_looksUp {r : Firewall × Bool}
    (hrun : askFirewall (fun flow => .ok (checkConnection fw env.clock flow)) fw h ps = .ok r) :
    LooksUp fw env r.1 := by
  cases askFirewall_ok hrun with
  | inl hno => exact Or.inl (congrArg Prod.fst hno)
  | inr hyes =>
    obtain ⟨flow, hyes⟩ := hyes
    exact Or.inr ⟨flow, congrArg Prod.fst (Except.ok.inj hyes).symm⟩

theorem deliver_ok {iface : SrIf} (hrun : deliver fw S env h ps iface = .ok out) :
    LooksUp fw env out.firewall ∧ out.ps.forward = ps.forward := by
  rw [deliver] at hrun
  by_cases hask : isExternal fw ps.interface ∧ isInternal fw iface.name
  · rw [if_pos hask] at hrun
    by_cases hospf : h.p = ospfv2Type
    · rw [if_pos hospf] at hrun
      obtain ⟨hfw, hps⟩ := toPwospf_ok hrun
      exact ⟨Or.inl hfw, by rw [hps]⟩
    · rw [if_neg hospf] at hrun
      obtain ⟨⟨fw', allowed⟩, hanswer, hrun⟩ := bind_eq_ok.mp hrun
      have hlook : LooksUp fw env fw' := askFirewall_looksUp hanswer
      cases allowed with
      | true =>
        obtain ⟨hfw, hforward⟩ := answer_ok hrun
        rw [hfw]
        exact ⟨hlook, hforward⟩
      | false =>
        cases hrun
        exact ⟨hlook, rfl⟩
  · rw [if_neg hask] at hrun
    obtain ⟨hfw, hforward⟩ := answer_ok hrun
    exact ⟨Or.inl hfw, hforward⟩

theorem ownAddressLoop_ok {ifaces : List SrIf}
    (hrun : ownAddressLoop fw S env h ps ifaces = .ok (some out)) :
    LooksUp fw env out.firewall ∧ out.ps.forward = ps.forward := by
  induction ifaces with
  | nil => cases hrun
  | cons iface rest ih =>
    rw [ownAddressLoop] at hrun
    by_cases hown : iface.ip = h.dst
    · rw [if_pos hown] at hrun
      obtain ⟨out', hdeliver, hsome⟩ := bind_eq_ok.mp hrun
      cases hsome
      exact deliver_ok hdeliver
    · rw [if_neg hown] at hrun
      by_cases hall : h.dst = ntohl ospfAllSPFRouters
      · rw [if_pos hall] at hrun
        obtain ⟨out', hospf, hsome⟩ := bind_eq_ok.mp hrun
        cases hsome
        obtain ⟨hfw, hps⟩ := toPwospf_ok hospf
        exact ⟨Or.inl hfw, by rw [hps]⟩
      · rw [if_neg hall] at hrun
        exact ih hrun

/-- The connection of a datagram whose ports are at position `o`. -/
def flowAt (o : Nat) (f : Frame) : Option Flow :=
  match loadIpHdr f with
  | .error _ => none
  | .ok h =>
    if h.p = ipprotoIcmp then some ⟨h.src, h.dst, .ofNat h.p, 0, 0⟩
    else if h.p = ipprotoTcp ∨ h.p = ipprotoUdp then
      match f.get ⟨o, 2⟩, f.get ⟨o + 2, 2⟩ with
      | .ok srcPort, .ok dstPort =>
        some ⟨h.src, h.dst, .ofNat h.p, .ofNat srcPort, .ofNat dstPort⟩
      | _, _ => none
    else none

/-- The firewall is asked for the connection with the ports the pointer `packet` points to. -/
theorem askFirewall_eq {ask : Flow → Exec (Firewall × Bool)} {pos : Nat}
    (hps : Untouched f name pos ps) (hpos : pos ≤ f.length) (hload : loadIpHdr f = .ok h) :
    askFirewall ask fw h ps = (flowAt pos f).elim (.ok (fw, false)) ask := by
  simp only [askFirewall, flowAt, hload, hps.packet, hps.packetPos, hps.len]
  by_cases hicmp : h.p = ipprotoIcmp
  · rw [if_pos hicmp, if_pos hicmp]
    rfl
  · rw [if_neg hicmp, if_neg hicmp]
    by_cases hports : h.p = ipprotoTcp ∨ h.p = ipprotoUdp
    · rw [if_pos hports, if_pos hports]
      by_cases hlen : f.length - pos ≥ 4
      · obtain ⟨srcPort, hsrc⟩ := Frame.get_exists (f := f) (b := ⟨pos, 2⟩)
          (show pos + 2 ≤ f.length by omega)
        obtain ⟨dstPort, hdst⟩ := Frame.get_exists (f := f) (b := ⟨pos + 2, 2⟩)
          (show pos + 2 + 2 ≤ f.length by omega)
        rw [if_pos hlen, hsrc, hdst]
        rfl
      · have hover : f.get ⟨pos + 2, 2⟩ = .error .outOfBounds := by
          apply Frame.get_overread
          show f.length < pos + 2 + 2
          omega
        rw [if_neg hlen, hover]
        cases f.get ⟨pos, 2⟩ <;> rfl
    · rw [if_neg hports, if_neg hports]
      rfl

/-! ## The end of the path -/

theorem updateIpHdr_exists (hlen : sizeofEther + sizeofIp ≤ f.length) :
    ∃ f', updateIpHdr f = .ok f' := by
  have h34 : 34 ≤ f.length := hlen
  obtain ⟨ttl, httl⟩ := Frame.get_exists (f := f) (b := ipTtl) (Nat.le_trans (by decide) h34)
  obtain ⟨f₁, hassign⟩ := Frame.assign_exists (f := f)
    (l := [(ipTtl, (UInt8.ofNat ttl - 1).toNat), (ipSum, 0)]) (by
      intro a ha
      have hin : ∀ a ∈ [ipTtl, ipSum], a.offset + a.width ≤ 34 := by decide
      exact Nat.le_trans (hin a ha) h34)
  have hclear : f₁.get ipSum = .ok 0 :=
    Frame.get_assign hassign (by simp only [List.map_cons, List.map_nil]; decide) (by simp) (by decide)
  obtain ⟨csum, f₂, hcsum, hset, -⟩ :=
    ipSum_stored (by rw [Frame.assign_length hassign]; exact hlen) hclear
  refine ⟨f₂, ?_⟩
  simp only [updateIpHdr, httl, ok_bind, hassign]
  rw [hcsum, ok_bind, hset]

/-- A datagram that may pass is forwarded while it has hops left, and answered otherwise. -/
theorem expireOrForward_ok (hrun : expireOrForward fw S env h ps = .ok out)
    (hforward : ps.forward = false) :
    out.firewall = fw ∧ out.subsys = S ∧ out.copies = [] ∧ out.ret = true ∧
      (out.ps.forward = true ↔ 1 ≤ h.ttl) := by
  rw [expireOrForward] at hrun
  by_cases httl : h.ttl < 1
  · rw [if_pos httl] at hrun
    obtain ⟨ps', hicmp, hrun⟩ := bind_eq_ok.mp hrun
    cases hrun
    refine ⟨rfl, rfl, rfl, rfl, ?_⟩
    rw [(icmpResponse_sameTask hicmp).forward, hforward]
    constructor
    · intro hfalse
      cases hfalse
    · intro hle
      exact absurd httl (Nat.not_lt.mpr hle)
  · rw [if_neg httl] at hrun
    obtain ⟨packet, -, hrun⟩ := bind_eq_ok.mp hrun
    obtain ⟨response, -, hrun⟩ := bind_eq_ok.mp hrun
    cases hrun
    exact ⟨rfl, rfl, rfl, rfl, fun _ => Nat.not_lt.mp httl, fun _ => rfl⟩

/-- A packet that `sr_read_from_server_expect` reads has at most this many bytes: the message is
refused if it is longer than 10000, and 24 of them stand before the packet. -/
def maxReceived : Nat := 9976

/-- The response buffer has room for a packet as long as they can get. -/
theorem expireOrForward_exists (fw : Firewall) (S : PwospfSubsys) (env : Env) {pos : Nat}
    (hps : Untouched f name pos ps) (httl : 1 ≤ h.ttl)
    (hlen : sizeofEther + sizeofIp ≤ f.length) (hfits : f.length ≤ maxReceived)
    (hpos : sizeofEther ≤ pos) : ∃ out, expireOrForward fw S env h ps = .ok out := by
  obtain ⟨packet, hupdate⟩ := updateIpHdr_exists hlen
  have hcopy : ipStart + (copyBytes env packet ipStart (ps.len + sizeofIp)).length ≤
      ps.response.length := by
    have hle : (copyBytes env packet ipStart (ps.len + sizeofIp)).length ≤ ps.len + sizeofIp :=
      List.length_take_le _ _
    have hroom : maxReceived + sizeofIp ≤ maxPacLength := by decide
    have hstart : ipStart = sizeofEther := rfl
    rw [hps.len] at hle ⊢
    rw [hps.response]
    omega
  obtain ⟨response, hstore⟩ := Frame.store_exists hcopy
  rw [expireOrForward, if_neg (Nat.not_lt.mpr httl), hps.packet, hupdate, ok_bind, hstore]
  exact ⟨_, rfl⟩

/-- Nothing is sent for a datagram that `handle_ip` drops. -/
theorem srHandlepacket_refused (hlen : sizeofEther ≤ f.length)
    (htype : f.get etherType = .ok (htons ethertypeIp).toNat)
    (hrun : handleIp sr fw S env (.received env f name) = .ok (.refused fw S ps)) :
    srHandlepacket sr fw S env f name = .ok ⟨fw, S, []⟩ := by
  rw [srHandlepacket, if_neg (Nat.not_lt.mpr hlen), htype, ok_bind, if_neg (by decide), hrun, ok_bind]
  rfl

end Path

end PWOSPF
