import PWOSPF.Forwarding.Answers
import PWOSPF.Forwarding.Replies

/-!
# ICMP errors

What is sent to the sender of a datagram that cannot be delivered. If its port is unreachable, the error
is complete unless the frame has padding or an odd number of bytes is quoted, whose checksum counts a
byte that was never written. If its time is exceeded, the IP header of the error is never written.
-/

namespace PWOSPF

open Framework PacketField

/-- The field `ip_len` in host order. -/
def totalLen (len : Nat) : Nat := (ntohs (.ofNat len)).toNat

/-- The length of an IP header and of the first 8 bytes behind it. -/
def quotationLen (head len : Nat) : Nat :=
  4 * (head % 16) + min 8 (totalLen len - 4 * (head % 16))

/-- An ICMP error for the datagram `f`, from one of the addresses of the router. -/
structure IsIcmpError (sr : SrInstance) (f : Frame) (type code : Nat) (g : Frame) : Prop where
  plain : NoOptions g
  src : ∃ iface ∈ sr.ifList, g.get ipSrc = .ok iface.ip.toNat
  dst : g.get ipDst = f.get ipSrc
  p : g.get ipP = .ok ipprotoIcmp
  len : g.get ipLen = .ok (htons (.ofNat (g.length - sizeofEther))).toNat
  csum : HoldsChecksum g ipSum.offset ipStart sizeofIp
  type : g.get icmpType = .ok type
  code : g.get icmpCode = .ok code
  icmpCsum : HoldsChecksum g icmpSum.offset 34 (g.length - 34)
  quoted : ∀ head len, f.get ipHead = .ok head → f.get ipLen = .ok len →
    g.length = 42 + quotationLen head len ∧
      slice g 42 (quotationLen head len) = slice f ipStart (quotationLen head len)

/-- Nothing but an ICMP error is sent, through the interface the datagram came in by. -/
def SendsError (sr : SrInstance) (fw : Firewall) (S : PwospfSubsys) (env : Env) (f : Frame)
    (name : IfName) (type code : Nat) : Prop :=
  ∃ fw' g, srHandlepacket sr fw S env f name = .ok ⟨fw', S, [⟨g, name, none⟩]⟩ ∧
    IsIcmpError sr f type code g

/-- The datagrams that `handle_ip` answers with an ICMP error, and the type and the code of it. -/
inductive AnsweredWithError (sr : SrInstance) (fw : Firewall) (S : PwospfSubsys) (env : Env) (f : Frame)
    (name : IfName) (h : IpHdr) : Nat → Nat → Prop
  | portUnreachable (hx : ForRouter sr fw env.clock f name h) (hp : h.p ≠ ospfv2Type)
      (hicmp : h.p = ipprotoIcmp → 42 ≤ f.length ∧ f.get icmpType ≠ .ok icmptEchorequest) :
      AnsweredWithError sr fw S env f name h icmptDestun icmpcPortun
  | timeExceeded (htype : f.get etherType = .ok (htons ethertypeIp).toNat) (hload : loadIpHdr f = .ok h)
      (hothers : ForOthers sr h.dst) (httl : h.ttl = 0)
      (hkept : ∃ out, handleIp sr fw S env (.received env f name) = .ok out ∧ out.ret = true)
      (hreceived : (srGetInterface sr name).isSome = true) :
      AnsweredWithError sr fw S env f name h icmptTimeex icmpcIntransit

variable {sr : SrInstance} {fw : Firewall} {S : PwospfSubsys} {env : Env} {f g : Frame} {name : IfName}
  {h : IpHdr} {ps ps' : DatagramState} {type code head len n pos : Nat}

/-! ## Unreachable ports -/

theorem respond_unreachable (hps : AtHeader env f name (sizeofEther + sizeofIp) ps)
    (hicmp : h.p = ipprotoIcmp → 42 ≤ f.length ∧ f.get icmpType ≠ .ok icmptEchorequest) :
    respond h.p ps = icmpResponse ps icmptDestun icmpcPortun := by
  rw [respond]
  by_cases hp : h.p = ipprotoIcmp
  · obtain ⟨hmin, hnot⟩ := hicmp hp
    obtain ⟨t, ht⟩ := Frame.get_exists (f := f) (b := icmpType) (Nat.le_trans (by decide) hmin)
    have hlong : ¬ ps.len < sizeofIcmp := by
      have hrest : ps.len = f.length - 34 := hps.len
      rw [hrest, sizeofIcmp]
      omega
    have hread : ps.packet.get (icmpType.icmpAt ps.packetPos) = .ok t := by
      rw [hps.packet, hps.packetPos]
      exact ht
    have hother : ¬ t = icmptEchorequest := fun h => hnot (h ▸ ht)
    rw [if_pos hp, handleIcmp, if_neg hlong, hread, ok_bind, if_neg hother]
  · rw [if_neg hp]

theorem ForRouter.unreachable (hx : ForRouter sr fw env.clock f name h) (S : PwospfSubsys)
    (hp : h.p ≠ ospfv2Type)
    (hicmp : h.p = ipprotoIcmp → 42 ≤ f.length ∧ f.get icmpType ≠ .ok icmptEchorequest) :
    ∃ ps' fw' g, ErrorWritten env f (min 8 (f.length - 34)) icmptDestun icmpcPortun ps' ∧
      Answers f ps' g ∧ srHandlepacket sr fw S env f name = .ok ⟨fw', S, [⟨g, name, none⟩]⟩ := by
  have hlen := loadIpHdr_length hx.load
  obtain ⟨ps, hps, hsent⟩ := hx.answered S hp
  obtain ⟨ps', hrun, hwritten⟩ :=
    icmpResponse_errorWritten hps hlen (Or.inl rfl) icmpcPortun (quotedLen_eq _)
  rw [← respond_unreachable hps hicmp] at hrun
  have hmax : maxPacLength = 10000 := rfl
  obtain ⟨fw', g, hg, hout⟩ := hsent ps' hrun hwritten.length
    (by rw [hwritten.resLen, sizeofEther, sizeofIp]; omega) (by rw [hwritten.resLen, hmax]; omega)
  exact ⟨ps', fw', g, hwritten, hg, hout⟩

/-- An answer that quotes `n` bytes of the data is an ICMP error exactly if these are what there is of
the data, and the checksum is right. -/
theorem Answers.isIcmpError_iff (hg : Answers f ps' g) (hwritten : ErrorWritten env f n type code ps')
    (hn : n ≤ 8) (htype : type < 256) (hcode : code < 256)
    (hown : ∃ iface ∈ sr.ifList, f.get ipDst = .ok iface.ip.toNat)
    (hhead : f.get ipHead = .ok head) (hlen : f.get ipLen = .ok len) :
    IsIcmpError sr f type code g ↔
      head % 16 = 5 ∧ n = min 8 (totalLen len - 20) ∧ (n % 2 = 0 ∨ env.bytes (62 + n) = 0) := by
  have hcut : g.length = 62 + n := hg.length.trans hwritten.resLen
  have hbuffer : ps'.response.length = 10000 := hwritten.length
  have hquoted : slice g 42 (20 + n) = slice f ipStart (20 + n) := by
    rw [← hwritten.quoted]
    exact hg.behind 42 (20 + n) (by decide) (by omega)
  have hcsum : HoldsChecksum g icmpSum.offset 34 (g.length - 34) ↔
      n % 2 = 0 ∨ env.bytes (62 + n) = 0 := by
    rw [← hwritten.csum, show g.length - 34 = 28 + n by omega]
    exact hg.holdsChecksum_iff (Nat.le_refl 34) (by decide) (show 36 + 2 ≤ _ by omega) (by omega) (by omega)
  have hquotation : head % 16 = 5 → quotationLen head len = 20 + min 8 (totalLen len - 20) := by
    intro hplain
    rw [quotationLen, hplain]
  constructor
  · intro herror
    obtain ⟨head', hread, hplain⟩ := herror.plain
    rw [hg.head, hhead, Except.ok.injEq] at hread
    subst hread
    have hsize := (herror.quoted head len hhead hlen).1
    rw [hquotation hplain] at hsize
    exact ⟨hplain, by omega, hcsum.mp herror.icmpCsum⟩
  · intro hwhole
    obtain ⟨hplain, hdata, hsum⟩ := hwhole
    obtain ⟨iface, hmem, hip⟩ := hown
    exact
      { plain := ⟨head, hg.head.trans hhead, hplain⟩
        src := ⟨iface, hmem, hg.src.trans hip⟩
        dst := hg.dst
        p := hg.p
        len := hg.len
        csum := hg.csum
        type := by
          have hread := hg.get_byte (by decide) (by omega) hwritten.type
          rwa [UInt8.toNat_ofNat_of_lt' htype] at hread
        code := by
          have hread := hg.get_byte (by decide) (by omega) hwritten.code
          rwa [UInt8.toNat_ofNat_of_lt' hcode] at hread
        icmpCsum := hcsum.mpr hsum
        quoted := by
          intro head' len' hhead' hlen'
          rw [hhead, Except.ok.injEq] at hhead'
          rw [hlen, Except.ok.injEq] at hlen'
          subst hhead' hlen'
          rw [hquotation hplain, ← hdata]
          exact ⟨by omega, hquoted⟩ }

theorem ForRouter.sendsUnreachable_iff (hx : ForRouter sr fw env.clock f name h) (S : PwospfSubsys)
    (hp : h.p ≠ ospfv2Type)
    (hicmp : h.p = ipprotoIcmp → 42 ≤ f.length ∧ f.get icmpType ≠ .ok icmptEchorequest)
    (hhead : f.get ipHead = .ok head) (hlen : f.get ipLen = .ok len) :
    SendsError sr fw S env f name icmptDestun icmpcPortun ↔
      head % 16 = 5 ∧ min 8 (f.length - 34) = min 8 (totalLen len - 20) ∧
        (min 8 (f.length - 34) % 2 = 0 ∨ env.bytes (62 + min 8 (f.length - 34)) = 0) := by
  obtain ⟨iface, hown, -⟩ := hx.own
  have hmem : iface ∈ sr.ifList := List.mem_of_find?_eq_some hown.found
  have hdst : f.get ipDst = .ok iface.ip.toNat := by
    rw [hown.ip]
    exact (loadIpHdr_fields hx.load).2.2.2
  obtain ⟨ps', fw', g, hwritten, hg, hout⟩ := hx.unreachable S hp hicmp
  rw [← hg.isIcmpError_iff hwritten (Nat.min_le_left _ _) (by decide) (by decide) ⟨iface, hmem, hdst⟩ hhead
    hlen]
  constructor
  · intro hsends
    obtain ⟨fw'', g', hrun, herror⟩ := hsends
    rw [hout, Except.ok.injEq] at hrun
    cases hrun
    exact herror
  · exact fun herror => ⟨fw', g, hout, herror⟩

/-! ## Exceeded time -/

/-- Where the IP header should be, there is the ICMP header or nothing at all. -/
theorem expired_written (hps : AtHeader env f name pos ps)
    (hpos : pos = sizeofEther ∨ pos = sizeofEther + sizeofIp) (hlen : sizeofEther + sizeofIp ≤ f.length)
    (hrun : icmpResponse ps icmptTimeex code = .ok ps') :
    ps'.response.length = maxPacLength ∧ ipStart < ps'.resLen ∧ ps'.resLen ≤ maxPacLength ∧
      (ps'.response[ipStart]? = some 11 ∨ ps'.response[ipStart]? = some (env.bytes ipStart)) := by
  have h34 : 34 ≤ f.length := hlen
  have hle : 14 ≤ pos ∧ pos ≤ 34 := by
    rcases hpos with rfl | rfl <;> decide
  obtain ⟨hquote, hshort⟩ := quotedLen_le (f.length - pos)
  have hbuffer : ps.response.length = 10000 := hps.response
  have herror : (errorBytes f pos (quotedLen (f.length - pos)) icmptTimeex code).length =
      28 + quotedLen (f.length - pos) := errorBytes_length hlen (by omega)
  have hfits : pos + (errorBytes f pos (quotedLen (f.length - pos)) icmptTimeex code).length ≤
      ps.response.length := by
    omega
  obtain ⟨ps₁, hrun₁, hsummed⟩ := icmpResponse_error hps hpos hlen (Or.inr rfl) code rfl
    (m := pos + quotedLen (f.length - pos) - 6) (by omega)
  rw [hrun, Except.ok.injEq] at hrun₁
  subst hrun₁
  have hresLen : ps'.resLen = pos + 8 + 20 + quotedLen (f.length - pos) := by
    rw [hsummed.same]
    rfl
  refine ⟨?_, ?_, ?_, ?_⟩
  · rw [hsummed.length]
    exact (patch_length hfits).trans hps.response
  · rw [hresLen, ipStart, sizeofEther]
    omega
  · rw [hresLen, maxPacLength]
    omega
  · rw [hsummed.rest ipStart (Or.inl (show 14 < pos + 2 by omega))]
    show (patch ps.response pos _)[14]? = _ ∨ (patch ps.response pos _)[14]? = _
    rcases hpos with rfl | rfl
    · left
      rw [patch_getElem? hfits, herror, if_pos ⟨Nat.le_refl 14, by omega⟩]
      rfl
    · right
      rw [patch_getElem? hfits, if_neg fun hin => absurd hin.1 (by decide), hps.buffer, List.getElem?_map,
        List.getElem?_range (by decide)]
      rfl

theorem expired_sent {fw' : Firewall} {route : IfName × InAddr} (hps : AtHeader env f name pos ps)
    (hpos : pos = sizeofEther ∨ pos = sizeofEther + sizeofIp) (hlen : sizeofEther + sizeofIp ≤ f.length)
    (htype : f.get etherType = .ok (htons ethertypeIp).toNat)
    (hreceived : (srGetInterface sr name).isSome = true) (hroute : ps.route = some route)
    (hicmp : icmpResponse ps icmptTimeex code = .ok ps')
    (hhandle : handleIp sr fw S env (.received env f name) = .ok ⟨fw', S, [], ps', true⟩) :
    ∃ g name', srHandlepacket sr fw S env f name = .ok ⟨fw', S, [⟨g, name', none⟩]⟩ ∧ SentAs ps' g := by
  have hsame := icmpResponse_sameTask hicmp
  obtain ⟨hbuffer, -, hhi, -⟩ := expired_written hps hpos hlen hicmp
  have hroute' : ps'.route = some route := by
    rw [← hroute, DatagramState.route, DatagramState.route, hsame.dynEntry, hsame.rtEntry]
  have hsend : ps'.sendIf = some route.1 := by
    rw [DatagramState.sendIf, hroute']
  have hinterface : ps'.interface = name := hsame.interface.trans hps.interface
  obtain ⟨g, hsent, hg⟩ := srHandlepacket_answer (Nat.le_trans (by decide) hlen) htype hhandle
    (hsame.forward.trans hps.forward) (by rw [hinterface]; exact hreceived) hsend
    (by rw [hbuffer]; decide) (by rw [hbuffer]; exact hhi)
  exact ⟨g, route.1, hsent, hg⟩

/-- What is sent for a datagram whose time is exceeded has no IP header. -/
theorem expired_not_sendsError (htype : f.get etherType = .ok (htons ethertypeIp).toNat)
    (hload : loadIpHdr f = .ok h) (hothers : ForOthers sr h.dst) (httl : h.ttl = 0)
    (hreceived : (srGetInterface sr name).isSome = true) (hbytes : env.bytes ipStart = 0) :
    ¬ SendsError sr fw S env f name type code := by
  intro hsends
  obtain ⟨fw', g, hrun, herror⟩ := hsends
  have hlen := loadIpHdr_length hload
  have hether : sizeofEther ≤ f.length := Nat.le_trans (by decide) hlen
  have hhandled := hrun
  rw [srHandlepacket, if_neg (Nat.not_lt.mpr hether), htype, ok_bind, if_neg (by decide)] at hhandled
  obtain ⟨out, hhandle, hafter⟩ := bind_eq_ok.mp hhandled
  obtain ⟨fw'', ps'', hrefused⟩ | ⟨fw'', pos, ps, route, hpos, hps, hroute, hend⟩ :=
    handleIp_others hhandle hload hothers
  · rw [hrefused] at hafter
    cases hafter
  · rw [expireOrForward, if_pos (by omega)] at hend
    obtain ⟨ps', hicmp, hout⟩ := bind_eq_ok.mp hend
    cases hout
    obtain ⟨g', name', hsent, hg⟩ := expired_sent hps hpos hlen htype hreceived hroute hicmp hhandle
    rw [hsent, Except.ok.injEq] at hrun
    cases hrun
    obtain ⟨-, hlo, -, hfirst⟩ := expired_written hps hpos hlen hicmp
    obtain ⟨head, hread, hplain⟩ := herror.plain
    rw [hbytes, ← hg.rest ipStart (Nat.le_refl _) (by rw [hg.length]; exact hlo)] at hfirst
    have hhead : head = 11 ∨ head = 0 := by
      refine hfirst.imp (fun h => ?_) fun h => ?_
      · exact Except.ok.inj (hread.symm.trans (Frame.get_of_getElem? h))
      · exact Except.ok.inj (hread.symm.trans (Frame.get_of_getElem? h))
    omega

/-- Whatever was in the response buffer before, the error is complete exactly if the datagram was for the
router, its header has no options, the frame has no padding among the first 8 bytes of the data, and an
even number of these is quoted. -/
theorem sendsError_iff (hx : AnsweredWithError sr fw S env f name h type code)
    (hhead : f.get ipHead = .ok head) (hlen : f.get ipLen = .ok len) :
    (∀ bytes, SendsError sr fw S { env with bytes := bytes } f name type code) ↔
      ¬ ForOthers sr h.dst ∧ head % 16 = 5 ∧
        min 8 (f.length - 34) = min 8 (totalLen len - 20) ∧ min 8 (f.length - 34) % 2 = 0 := by
  cases hx with
  | portUnreachable hx hp hicmp =>
    have hnot : ¬ ForOthers sr h.dst := by
      obtain ⟨iface, hown, -⟩ := hx.own
      exact fun hothers => (hothers iface (List.mem_of_find?_eq_some hown.found)).1 hown.ip
    have hiff : ∀ bytes, SendsError sr fw S { env with bytes := bytes } f name icmptDestun icmpcPortun ↔
        head % 16 = 5 ∧ min 8 (f.length - 34) = min 8 (totalLen len - 20) ∧
          (min 8 (f.length - 34) % 2 = 0 ∨ bytes (62 + min 8 (f.length - 34)) = 0) := by
      intro bytes
      have hx' : ForRouter sr fw { env with bytes := bytes }.clock f name h := hx
      exact hx'.sendsUnreachable_iff S hp hicmp hhead hlen
    constructor
    · intro hall
      -- the byte behind an odd message may be any
      obtain ⟨hplain, hdata, hsum⟩ := (hiff fun _ => 1).mp (hall fun _ => 1)
      exact ⟨hnot, hplain, hdata, hsum.resolve_right (by decide)⟩
    · intro hcond bytes
      obtain ⟨-, hplain, hdata, heven⟩ := hcond
      exact (hiff bytes).mpr ⟨hplain, hdata, Or.inl heven⟩
  | timeExceeded htype hload hothers httl hkept hreceived =>
    simp only [not_true_eq_false, false_and, iff_false, hothers]
    intro hall
    exact expired_not_sendsError htype hload hothers httl hreceived rfl (hall fun _ => 0)

section Demo

/-- A UDP datagram of 10.0.0.9 to port 53 of the router. -/
def demoProbe : Frame :=
  [1, 1, 1, 1, 1, 1, 2, 2, 2, 2, 2, 2, 8, 0,
    0x45, 0, 0, 28, 0, 0, 0, 0, 64, 17, 102, 200, 10, 0, 0, 9, 10, 0, 0, 1,
    3, 232, 0, 53, 0, 8, 0, 0]

theorem demo_ownAddress :
    OwnAddress demoGateway 0x0100000a ⟨eth0Interface, .replicate 6 1, 0x0100000a⟩ :=
  ⟨by decide, rfl⟩

/-- Datagrams of 10.0.0.9 to the router are let in. -/
theorem demo_forRouter {p : Nat} (htype : f.get etherType = .ok (htons ethertypeIp).toNat)
    (hhead : f.get ipHead = .ok 0x45) (hload : loadIpHdr f = .ok ⟨64, p, 0x0900000a, 0x0100000a⟩) :
    ForRouter demoGateway demoPolicy demoEnv.clock f eth0Interface
      ⟨64, p, 0x0900000a, 0x0100000a⟩ where
  type := htype
  plain := ⟨0x45, hhead, by decide⟩
  load := hload
  own := ⟨_, demo_ownAddress, fun hexternal => absurd hexternal (by decide)⟩
  received := by decide

theorem sendsError_iff_demo :
    SendsError demoGateway demoPolicy demoStart demoEnv demoProbe eth0Interface icmptDestun
      icmpcPortun := by
  have hhead : demoProbe.get ipHead = .ok 0x45 := by decide
  have hlen : demoProbe.get ipLen = .ok 0x1c00 := by decide
  have hx : AnsweredWithError demoGateway demoPolicy demoStart demoEnv demoProbe eth0Interface
      ⟨64, 17, 0x0900000a, 0x0100000a⟩ icmptDestun icmpcPortun :=
    .portUnreachable (demo_forRouter (by decide) hhead (by decide)) (by decide) fun hicmp =>
      absurd hicmp (by decide)
  exact (sendsError_iff hx hhead hlen).mpr ⟨by decide, by decide, by decide, by decide⟩ demoEnv.bytes

/-- A UDP datagram of 10.0.0.9 to 172.16.0.9 with the TTL 0. -/
def demoExpired : Frame :=
  [1, 1, 1, 1, 1, 1, 2, 2, 2, 2, 2, 2, 8, 0,
    0x45, 0, 0, 28, 0, 0, 0, 0, 0, 17, 4, 176, 10, 0, 0, 9, 172, 16, 0, 9,
    69, 0, 0, 28, 0, 8, 4, 160]

/-- The ICMP message stands where the IP header should be. -/
theorem error_without_ipHdr :
    AnsweredWithError demoGateway demoPolicy demoStart demoEnv demoExpired eth0Interface
        ⟨0, 17, 0x0900000a, 0x090010ac⟩ icmptTimeex icmpcIntransit ∧
      ¬ SendsError demoGateway demoPolicy demoStart demoEnv demoExpired eth0Interface icmptTimeex
        icmpcIntransit := by
  have hruns : (handleIp demoGateway demoPolicy demoStart demoEnv
      (.received demoEnv demoExpired eth0Interface)).map (fun out => out.ret) = .ok true := by
    decide +kernel
  obtain ⟨out, hrun, hret⟩ := map_eq_ok.mp hruns
  refine ⟨.timeExceeded (by decide) (by decide) (by decide) rfl ⟨out, hrun, hret⟩ (by decide), ?_⟩
  intro hsends
  obtain ⟨fw', g, hsent, herror⟩ := hsends
  have hframes : (srHandlepacket demoGateway demoPolicy demoStart demoEnv demoExpired eth0Interface).map
      (fun r => r.sent.map fun copy => copy.frame.get ipP) = .ok [.ok 0] := by
    decide +kernel
  rw [hsent] at hframes
  have hp : g.get ipP = .ok 0 := List.head_eq_of_cons_eq (Except.ok.inj hframes)
  rw [herror.p] at hp
  cases hp

end Demo

end PWOSPF
