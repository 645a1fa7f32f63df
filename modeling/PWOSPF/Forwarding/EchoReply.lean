import PWOSPF.Forwarding.IcmpErrors

/-!
# Echo replies

The length of a reply is taken from the frame and not from the request, so that padding behind the
request becomes data of the reply.
-/

namespace PWOSPF

open Framework PacketField

/-- An ICMP echo request that is whole, with this first byte and this field `ip_len`. -/
structure EchoRequest (f : Frame) (h : IpHdr) (head len : Nat) : Prop where
  first : f.get ipHead = .ok head
  length : f.get ipLen = .ok len
  p : h.p = ipprotoIcmp
  words : 5 ≤ head % 16
  icmp : 4 * (head % 16) + sizeofIcmp ≤ totalLen len
  whole : sizeofEther + totalLen len ≤ f.length
  type : f.get ⟨transportStart head, 1⟩ = .ok icmptEchorequest

/-- The reply has the identifier, the sequence number and the data of the request `f`, as far as its
total length goes. -/
structure MirrorsRequest (f : Frame) (head len : Nat) (g : Frame) : Prop where
  plain : NoOptions g
  type : g.get icmpType = .ok icmptEchoreply
  code : g.get icmpCode = .ok 0
  message : slice g 38 (totalLen len - 24) =
    slice f (transportStart head + 4) (totalLen len - 4 * (head % 16) - 4)
  src : g.get ipSrc = f.get ipDst
  dst : g.get ipDst = f.get ipSrc
  len : g.get ipLen = f.get ipLen
  csum : HoldsChecksum g ipSum.offset ipStart sizeofIp

def SendsReply (sr : SrInstance) (fw : Firewall) (S : PwospfSubsys) (env : Env) (f : Frame)
    (name : IfName) (head len : Nat) : Prop :=
  ∃ fw' g, srHandlepacket sr fw S env f name = .ok ⟨fw', S, [⟨g, name, none⟩]⟩ ∧
    MirrorsRequest f head len g

variable {sr : SrInstance} {fw : Firewall} {S : PwospfSubsys} {env : Env} {f g : Frame} {name : IfName}
  {h : IpHdr} {ps ps' : DatagramState} {head len n : Nat}

theorem totalLen_eq_iff (hn : n < 2 ^ 16) (hlen : len < 2 ^ 16) :
    totalLen len = n ↔ (htons (.ofNat n)).toNat = len := by
  constructor
  · intro heq
    rw [← heq, totalLen, UInt16.ofNat_toNat]
    have hback : htons (ntohs (UInt16.ofNat len)) = .ofNat len := ntohs_htons _
    rw [hback, UInt16.toNat_ofNat_of_lt' hlen]
  · intro heq
    rw [← heq, totalLen, UInt16.ofNat_toNat, ntohs_htons, UInt16.toNat_ofNat_of_lt' hn]

/-- What `handle_icmp` takes for an echo request is answered with its bytes from the identifier to the
end of the frame. -/
theorem ForRouter.echoed (hx : ForRouter sr fw env.clock f name h) (S : PwospfSubsys)
    (hp : h.p = ipprotoIcmp) (hlen : 42 ≤ f.length) (hfits : f.length ≤ maxReceived)
    (htype : f.get icmpType = .ok icmptEchorequest) :
    ∃ ps' fw' g, EchoWritten f ps' ∧ Answers f ps' g ∧
      srHandlepacket sr fw S env f name = .ok ⟨fw', S, [⟨g, name, none⟩]⟩ := by
  obtain ⟨ps, hps, hsent⟩ := hx.answered S (by rw [hp]; decide)
  obtain ⟨ps', hrun, hwritten⟩ := icmpResponse_echoWritten hps hlen hfits
  have hlong : ¬ ps.len < sizeofIcmp := by
    have hrest : ps.len = f.length - 34 := hps.len
    rw [hrest, sizeofIcmp]
    omega
  have hread : ps.packet.get (icmpType.icmpAt ps.packetPos) = .ok icmptEchorequest := by
    rw [hps.packet, hps.packetPos]
    exact htype
  have hrespond : respond h.p ps = .ok ps' := by
    rw [respond, if_pos hp, handleIcmp, if_neg hlong, hread, ok_bind, if_pos rfl, hrun]
  have hmax : f.length ≤ 9976 := hfits
  obtain ⟨fw', g, hg, hout⟩ := hsent ps' hrespond hwritten.length
    (by rw [hwritten.resLen, sizeofEther, sizeofIp]; omega)
    (by rw [hwritten.resLen, maxPacLength]; omega)
  exact ⟨ps', fw', g, hwritten, hg, hout⟩

/-- Echo request or not, an ICMP message is answered under the first byte it came with. -/
theorem ForRouter.icmpAnswered (hx : ForRouter sr fw env.clock f name h) (S : PwospfSubsys)
    (hp : h.p = ipprotoIcmp) (hlen : 42 ≤ f.length) (hfits : f.length ≤ maxReceived) :
    ∃ ps' fw' g, Answers f ps' g ∧
      srHandlepacket sr fw S env f name = .ok ⟨fw', S, [⟨g, name, none⟩]⟩ := by
  by_cases htype : f.get icmpType = .ok icmptEchorequest
  · obtain ⟨ps', fw', g, -, hg, hout⟩ := hx.echoed S hp hlen hfits htype
    exact ⟨ps', fw', g, hg, hout⟩
  · obtain ⟨ps', fw', g, -, hg, hout⟩ :=
      hx.unreachable S (by rw [hp]; decide) fun _ => ⟨hlen, htype⟩
    exact ⟨ps', fw', g, hg, hout⟩

/-- The answer mirrors the request exactly if there is nothing behind the request in the frame. -/
theorem Answers.mirrorsRequest_iff (hg : Answers f ps' g) (hwritten : EchoWritten f ps')
    (hreq : EchoRequest f h head len) (hplain : head % 16 = 5) (hfits : f.length ≤ maxReceived) :
    MirrorsRequest f head len g ↔ f.length = sizeofEther + totalLen len := by
  have hmax : f.length ≤ 9976 := hfits
  have hether : sizeofEther = 14 := rfl
  have hsize : 4 * (head % 16) + 8 ≤ totalLen len := hreq.icmp
  have hwhole := hreq.whole
  have hcut : g.length = f.length := hg.length.trans hwritten.resLen
  have hlenIff : g.get ipLen = f.get ipLen ↔ totalLen len = f.length - sizeofEther := by
    have hlt : len < 2 ^ 16 := Frame.get_lt hreq.length
    rw [hg.len, hreq.length, hcut, Except.ok.injEq, totalLen_eq_iff (by omega) hlt]
  constructor
  · intro hmirrors
    have htotal := hlenIff.mp hmirrors.len
    omega
  · intro htotal
    exact
      { plain := ⟨head, hg.head.trans hreq.first, hplain⟩
        type := hg.get_byte (by decide) (by omega) hwritten.type
        code := hg.get_byte (by decide) (by omega) hwritten.code
        message := by
          have hstart : transportStart head + 4 = 38 := by rw [transportStart, hplain]; rfl
          have hrest : totalLen len - 24 = f.length - 38 := by omega
          have hrest' : totalLen len - 4 * (head % 16) - 4 = f.length - 38 := by omega
          rw [hstart, hrest, hrest', ← hwritten.mirrored]
          exact hg.behind 38 (f.length - 38) (by decide) (by omega)
        src := hg.src
        dst := hg.dst
        len := hlenIff.mpr (by omega)
        csum := hg.csum }

/-- The reply mirrors the request exactly if the header of the request has no options and the frame no
padding behind the request. -/
theorem sendsReply_iff (hx : ForRouter sr fw env.clock f name h) (S : PwospfSubsys)
    (hreq : EchoRequest f h head len) (hfits : f.length ≤ maxReceived) :
    SendsReply sr fw S env f name head len ↔
      head % 16 = 5 ∧ f.length = sizeofEther + totalLen len := by
  have hsize := hreq.icmp
  have hwhole := hreq.whole
  have hwords := hreq.words
  have hlen : 42 ≤ f.length := by
    have hicmp : sizeofIcmp = 8 := rfl
    have hether : sizeofEther = 14 := rfl
    omega
  by_cases hplain : head % 16 = 5
  · have htype : f.get icmpType = .ok icmptEchorequest := by
      have hread := hreq.type
      rwa [transportStart, hplain] at hread
    obtain ⟨ps', fw', g, hwritten, hg, hout⟩ := hx.echoed S hreq.p hlen hfits htype
    rw [and_iff_right hplain, ← hg.mirrorsRequest_iff hwritten hreq hplain hfits]
    constructor
    · intro hsends
      obtain ⟨fw'', g', hrun, hmirrors⟩ := hsends
      rw [hout, Except.ok.injEq] at hrun
      cases hrun
      exact hmirrors
    · exact fun hmirrors => ⟨fw', g, hout, hmirrors⟩
  · obtain ⟨ps', fw', g, hg, hout⟩ := hx.icmpAnswered S hreq.p hlen hfits
    simp only [hplain, false_and, iff_false]
    intro hsends
    obtain ⟨fw'', g', hrun, hmirrors⟩ := hsends
    rw [hout, Except.ok.injEq] at hrun
    cases hrun
    obtain ⟨head', hread, hfive⟩ := hmirrors.plain
    rw [hg.head, hreq.first, Except.ok.injEq] at hread
    exact hplain (hread ▸ hfive)

section Demo

/-- An echo request of 10.0.0.9 to the router, with two bytes of data. -/
def demoPing (padding : List UInt8) : Frame :=
  [1, 1, 1, 1, 1, 1, 2, 2, 2, 2, 2, 2, 8, 0,
    0x45, 0, 0, 30, 0, 0, 0, 0, 64, 1, 102, 214, 10, 0, 0, 9, 10, 0, 0, 1,
    8, 0, 198, 204, 7, 7, 0, 1, 42, 43] ++ padding

theorem sendsReply_iff_demo :
    SendsReply demoGateway demoPolicy demoStart demoEnv (demoPing []) eth0Interface 0x45 0x1e00 := by
  have hreq : EchoRequest (demoPing []) ⟨64, 1, 0x0900000a, 0x0100000a⟩ 0x45 0x1e00 :=
    ⟨by decide, by decide, rfl, by decide, by decide, by decide, by decide⟩
  exact (sendsReply_iff (demo_forRouter (by decide) (by decide) (by decide)) demoStart hreq
    (by decide)).mpr ⟨by decide, by decide⟩

/-- Behind padding of two bytes, the reply is two bytes longer than the request. -/
theorem padding_echoed :
    ForRouter demoGateway demoPolicy demoEnv.clock (demoPing [0, 0]) eth0Interface
        ⟨64, 1, 0x0900000a, 0x0100000a⟩ ∧
      EchoRequest (demoPing [0, 0]) ⟨64, 1, 0x0900000a, 0x0100000a⟩ 0x45 0x1e00 ∧
      ¬ SendsReply demoGateway demoPolicy demoStart demoEnv (demoPing [0, 0]) eth0Interface 0x45
        0x1e00 := by
  refine ⟨demo_forRouter (by decide) (by decide) (by decide),
    ⟨by decide, by decide, rfl, by decide, by decide, by decide, by decide⟩, ?_⟩
  intro hsends
  obtain ⟨fw', g, hsent, hmirrors⟩ := hsends
  have hframes : (srHandlepacket demoGateway demoPolicy demoStart demoEnv (demoPing [0, 0])
      eth0Interface).map (fun r => r.sent.map fun copy => copy.frame.get ipLen) = .ok [.ok 0x2000] := by
    decide +kernel
  have hlen : Frame.get (demoPing [0, 0]) ipLen = .ok 0x1e00 := by decide
  rw [hsent] at hframes
  have hlong : g.get ipLen = .ok 0x2000 := List.head_eq_of_cons_eq (Except.ok.inj hframes)
  rw [hmirrors.len, hlen] at hlong
  cases hlong

end Demo

end PWOSPF
