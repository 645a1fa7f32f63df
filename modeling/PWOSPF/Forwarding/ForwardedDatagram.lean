import PWOSPF.Forwarding.Paths

/-!
# Forwarded datagrams

On every path the response buffer holds the received datagram with a hop less and a new checksum. But
the hops are counted down after the test whether any are left, and the checksum is that of the first
20 bytes of the header.
-/

namespace PWOSPF

open Framework PacketField

/-- The bytes of the response that are sent. -/
def DatagramState.outgoing (ps : DatagramState) : Frame := ps.response.take ps.resLen

/-- The length of an IP header with this first byte, which is at least that of `struct ip`. -/
def headerLen (head : Nat) : Nat := max sizeofIp (4 * (head % 16))

/-- The options behind `struct ip`. -/
def ipOptions (f : Frame) (head : Nat) : List UInt8 :=
  slice f (ipStart + sizeofIp) (headerLen head - sizeofIp)

/-- The response is the received datagram, one hop further. -/
structure StaysValid (f : Frame) (ps : DatagramState) : Prop where
  resLen : ps.resLen = f.length
  ttl : ∃ t, f.get ipTtl = .ok (t + 1) ∧ 1 ≤ t ∧ ps.outgoing.get ipTtl = .ok t
  csum : ∃ head, ps.outgoing.get ipHead = .ok head ∧
    HoldsChecksum ps.outgoing ipSum.offset ipStart (headerLen head)
  rest : ∀ i, ipStart ≤ i → i < f.length → i ∉ [22, 24, 25] → ps.outgoing[i]? = f[i]?

/-- A datagram is forwarded with its hops counted down, and answered with an ICMP error if none would
be left. -/
structure ForwardsValid (x : Arrival) (out : IpOutcome) : Prop where
  forwarded : out.ps.forward = true → StaysValid x.frame out.ps
  expired : ∀ t, x.frame.get ipTtl = .ok t → t ≤ 1 → out.ps.forward = false ∧
    ∃ pos ps, (pos = sizeofEther ∨ pos = sizeofEther + sizeofIp) ∧
      AtHeader x.env x.frame x.interface pos ps ∧
        icmpResponse ps icmptTimeex icmpcIntransit = .ok out.ps

variable {sr : SrInstance} {fw : Firewall} {S : PwospfSubsys} {env : Env} {f f' g : Frame}
  {name : IfName} {h : IpHdr} {ps : DatagramState} {out : IpOutcome} {pos t head : Nat}

/-! ## The new header -/

/-- What `update_ip_hdr` leaves in the packet. -/
structure HopCounted (f : Frame) (t : Nat) (f' : Frame) : Prop where
  length : f'.length = f.length
  ttl : f'.get ipTtl = .ok (UInt8.ofNat t - 1).toNat
  csum : HoldsChecksum f' ipSum.offset ipStart sizeofIp
  rest : ∀ i, i ∉ [22, 24, 25] → f'[i]? = f[i]?

theorem updateIpHdr_ok (httl : f.get ipTtl = .ok t) (hlen : sizeofEther + sizeofIp ≤ f.length)
    (hrun : updateIpHdr f = .ok f') : HopCounted f t f' := by
  rw [updateIpHdr, httl, ok_bind] at hrun
  obtain ⟨f₂, hassign, hrun⟩ := bind_eq_ok.mp hrun
  obtain ⟨csum, hcsum, hset⟩ := bind_eq_ok.mp hrun
  obtain ⟨f₁, httl₁, hrest⟩ := bind_eq_ok.mp hassign
  obtain ⟨f₂', hclear, heq⟩ := bind_eq_ok.mp hrest
  cases heq
  have hlen₂ : f₂.length = f.length := (Frame.set_length hclear).trans (Frame.set_length httl₁)
  refine ⟨(Frame.set_length hset).trans hlen₂, ?_, ?_, ?_⟩
  · rw [Frame.get_set_apart hset (by decide), Frame.get_set_apart hclear (by decide)]
    exact Frame.get_set httl₁ (UInt8.toNat_lt _)
  · exact holdsChecksum_of_set (by decide) (by decide) (by decide) (by decide)
      (by rw [hlen₂]; exact hlen) (Frame.get_set hclear (by decide)) hcsum hset
  · intro i hi
    simp only [List.mem_cons, List.not_mem_nil, or_false] at hi
    rw [Frame.getElem?_set_apart hset (by simp only [ipSum]; omega),
      Frame.getElem?_set_apart hclear (by simp only [ipSum]; omega),
      Frame.getElem?_set_apart httl₁ (by simp only [ipTtl]; omega)]

/-- Behind the pointer the copy has the bytes of the packet, as far as it goes. -/
theorem copyBytes_getElem? (env : Env) {o n i : Nat} (hi : i < n) (hin : o + i < f.length) :
    (copyBytes env f o n)[i]? = f[o + i]? := by
  rw [copyBytes, List.getElem?_take_of_lt hi,
    List.getElem?_append_left (by rw [List.length_drop]; omega), List.getElem?_drop]

theorem copyBytes_length (env : Env) (f : Frame) (o n : Nat) : (copyBytes env f o n).length = n := by
  rw [copyBytes, List.length_take, List.length_append, List.length_map, List.length_range]
  omega

/-! ## The response -/

/-- Wherever the pointers stand, the response to a datagram with hops left is the packet with its new
header, from the IP header to the end. -/
theorem expireOrForward_copies (hps : AtHeader env f name pos ps)
    (hpos : pos = sizeofEther ∨ pos = sizeofEther + sizeofIp)
    (hlen : sizeofEther + sizeofIp ≤ f.length) (hload : f.get ipTtl = .ok h.ttl) (httl : 1 ≤ h.ttl)
    (hrun : expireOrForward fw S env h ps = .ok out) :
    ∃ packet, HopCounted f h.ttl packet ∧ out.ps.forward = true ∧ out.ps.resLen = f.length ∧
      out.ps.outgoing.length = f.length ∧
      ∀ i, ipStart ≤ i → i < f.length → out.ps.outgoing[i]? = packet[i]? := by
  rw [expireOrForward, if_neg (Nat.not_lt.mpr httl), hps.packet] at hrun
  obtain ⟨packet, hupdate, hrun⟩ := bind_eq_ok.mp hrun
  obtain ⟨response, hstore, hrun⟩ := bind_eq_ok.mp hrun
  cases hrun
  have hcounted := updateIpHdr_ok hload hlen hupdate
  obtain ⟨hin, hpatch⟩ := Frame.store_eq_ok.mp hstore
  have hmoved : pos ≤ sizeofEther + sizeofIp := by
    rcases hpos with rfl | rfl
    · exact Nat.le_add_right _ _
    · exact Nat.le_refl _
  have hresLen : ps.resLen + ps.len = f.length := by
    rw [hps.resLen, hps.len]
    omega
  have hstart : ipStart = sizeofEther := rfl
  have hcopied : f.length ≤ ipStart + (ps.len + sizeofIp) := by
    rw [hps.len]
    omega
  rw [copyBytes_length] at hin
  refine ⟨packet, hcounted, rfl, hresLen, ?_, ?_⟩
  · show (response.take (ps.resLen + ps.len)).length = f.length
    rw [hresLen, List.length_take, Frame.store_length hstore]
    omega
  · intro i hlo hhi
    show (response.take (ps.resLen + ps.len))[i]? = packet[i]?
    rw [hresLen, List.getElem?_take_of_lt hhi, hpatch,
      patch_getElem? (by rw [copyBytes_length]; exact hin), copyBytes_length,
      if_pos (by omega), copyBytes_getElem? env (by omega) (by rw [hcounted.length]; omega),
      Nat.add_sub_cancel' hlo]

/-- A header with hops left does not sum up to nothing. -/
theorem wordSum_pos_of_ttl (hlen : sizeofEther + sizeofIp ≤ g.length) (httl : g.get ipTtl = .ok t)
    (hhops : t ≠ 0) : 0 < wordSum (patch (slice g ipStart sizeofIp) (ipSum.offset - ipStart) [0, 0]) := by
  have hlen' : ipStart + sizeofIp ≤ g.length := hlen
  have hbyte : UInt8.ofNat t ∈ patch (slice g ipStart sizeofIp) (ipSum.offset - ipStart) [0, 0] := by
    apply List.mem_of_getElem? (i := 8)
    rw [patch_getElem? (by rw [slice_length hlen']; decide), if_neg (by decide), slice_getElem?,
      if_pos (by decide)]
    exact Frame.getElem?_of_get httl
  apply wordSum_pos hbyte
  intro hzero
  have hnone := congrArg UInt8.toNat hzero
  have hbound : t < 256 ^ 1 := Frame.get_lt httl
  rw [UInt8.toNat_ofNat_of_lt' hbound] at hnone
  exact hhops hnone

/-- With hops left behind, the response is valid exactly if the options sum up to nothing. -/
theorem staysValid_iff (hhead : f.get ipHead = .ok head) (httl : f.get ipTtl = .ok t)
    (hlen : sizeofEther + sizeofIp ≤ f.length) {packet : Frame} (hcounted : HopCounted f t packet)
    (hhops : 2 ≤ t) (hresLen : ps.resLen = f.length) (hout : ps.outgoing.length = f.length)
    (hsame : ∀ i, ipStart ≤ i → i < f.length → ps.outgoing[i]? = packet[i]?) :
    StaysValid f ps ↔ wordSum (ipOptions f head) % 65535 = 0 := by
  have h34 : 34 ≤ f.length := hlen
  have hhdr : slice ps.outgoing ipStart sizeofIp = slice packet ipStart sizeofIp :=
    slice_congr fun i hlo hhi => hsame i hlo (Nat.lt_of_lt_of_le hhi hlen)
  have hpacket : sizeofEther + sizeofIp ≤ packet.length := by rw [hcounted.length]; exact hlen
  have hlen' : ipStart + sizeofIp ≤ ps.outgoing.length := by rw [hout]; exact hlen
  have hget : ∀ b : PacketField, ipStart ≤ b.offset → b.offset + b.width ≤ ipStart + sizeofIp →
      ps.outgoing.get b = packet.get b := fun b => Frame.get_of_window hhdr hpacket hlen'
  have hhead' : ps.outgoing.get ipHead = .ok head := by
    rw [hget _ (by decide) (by decide), ← hhead]
    apply Frame.get_of_slice _ hcounted.length
    apply slice_congr
    intro i hlo hhi
    apply hcounted.rest
    simp only [ipHead] at hlo hhi
    simp only [List.mem_cons, List.not_mem_nil, or_false]
    omega
  have hcsum : HoldsChecksum ps.outgoing ipSum.offset ipStart sizeofIp :=
    hcounted.csum.congr (by decide) (by decide) hpacket hlen' hhdr
  have hnew := hcounted.ttl
  rw [uint8_pred (Frame.get_lt httl), if_neg (by omega)] at hnew
  have httl' : ps.outgoing.get ipTtl = .ok (t - 1) := (hget _ (by decide) (by decide)).trans hnew
  have hrest : ∀ i, ipStart ≤ i → i ∉ [22, 24, 25] → ps.outgoing[i]? = f[i]? := by
    intro i hlo hi
    by_cases hhi : i < f.length
    · rw [hsame i hlo hhi, hcounted.rest i hi]
    · rw [List.getElem?_eq_none (by rw [hout]; exact Nat.not_lt.mp hhi),
        List.getElem?_eq_none (Nat.not_lt.mp hhi)]
  have hoptions : slice ps.outgoing (ipStart + sizeofIp) (headerLen head - sizeofIp) =
      ipOptions f head := by
    apply slice_congr
    intro i hlo _
    have h34' : 34 ≤ i := hlo
    apply hrest i (Nat.le_trans (by decide) hlo)
    simp only [List.mem_cons, List.not_mem_nil, or_false]
    omega
  have hpos := wordSum_pos_of_ttl hlen' httl' (by omega)
  have hextend := hcsum.extend_iff (by decide) (by decide) (by decide) hlen' hpos
    (headerLen head - sizeofIp)
  have hle : sizeofIp ≤ headerLen head := Nat.le_max_left _ _
  rw [Nat.add_sub_cancel' hle, hoptions] at hextend
  rw [← hextend]
  constructor
  · intro hvalid
    obtain ⟨head', hh, hholds⟩ := hvalid.csum
    rw [hhead', Except.ok.injEq] at hh
    rw [hh]
    exact hholds
  · intro hholds
    refine ⟨hresLen, ⟨t - 1, ?_, by omega, httl'⟩, ⟨head, hhead', hholds⟩, ?_⟩
    · rw [httl, Nat.sub_add_cancel (by omega)]
    · exact fun i hlo _ hi => hrest i hlo hi

/-! ## Forwarding -/

theorem Arrival.passes_forOthers {x : Arrival} (hrun : x.handleIp fw = .ok out) (hret : out.ret = true)
    (hload : loadIpHdr x.frame = .ok h) (hothers : ForOthers x.sr h.dst) :
    ∃ fw' pos ps, (pos = sizeofEther ∨ pos = sizeofEther + sizeofIp) ∧
      AtHeader x.env x.frame x.interface pos ps ∧
      expireOrForward fw' x.subsys x.env h ps = .ok out := by
  obtain ⟨fw', ps', hrefused⟩ | ⟨fw', pos, ps', route, hpos, hps', -, hend⟩ :=
    handleIp_others hrun hload hothers
  · rw [hrefused] at hret
    cases hret
  · exact ⟨fw', pos, ps', hpos, hps', hend⟩

/-- What is not dropped of the datagrams for others is forwarded as it should be exactly if it had no
hops left already, or has at least one left behind the router and the sum of its IP options is a
multiple of 65535. -/
theorem forwardsValid_iff {x : Arrival} (hrun : x.handleIp fw = .ok out) (hret : out.ret = true)
    (hhead : x.frame.get ipHead = .ok head) (hload : loadIpHdr x.frame = .ok h)
    (hothers : ForOthers x.sr h.dst) :
    ForwardsValid x out ↔
      h.ttl = 0 ∨ h.ttl ≠ 1 ∧ wordSum (ipOptions x.frame head) % 65535 = 0 := by
  obtain ⟨httl, -⟩ := loadIpHdr_fields hload
  have hlen := loadIpHdr_length hload
  obtain ⟨fw', pos, ps, hpos, hps, hend⟩ := x.passes_forOthers hrun hret hload hothers
  obtain ⟨-, -, -, -, hmarked⟩ := expireOrForward_ok hend hps.forward
  by_cases hspent : h.ttl = 0
  · simp only [hspent, true_or, iff_true]
    have hnot : out.ps.forward = false := by
      rw [← Bool.not_eq_true, hmarked]
      omega
    constructor
    · intro hforward
      rw [hnot] at hforward
      cases hforward
    · intro t _ _
      rw [expireOrForward, if_pos (by omega)] at hend
      obtain ⟨ps', hicmp, hout⟩ := bind_eq_ok.mp hend
      cases hout
      exact ⟨hnot, pos, ps, hpos, hps, hicmp⟩
  · have hhops : 1 ≤ h.ttl := Nat.one_le_iff_ne_zero.mpr hspent
    obtain ⟨packet, hcounted, hforward, hresLen, hout, hsame⟩ :=
      expireOrForward_copies hps hpos hlen httl hhops hend
    rw [or_iff_right hspent]
    by_cases hlast : h.ttl = 1
    · simp only [hlast, ne_eq, not_true_eq_false, false_and, iff_false]
      intro hvalid
      have hexpired := (hvalid.expired h.ttl httl (Nat.le_of_eq hlast)).1
      rw [hforward] at hexpired
      cases hexpired
    · rw [and_iff_right hlast, ← staysValid_iff hhead httl hlen hcounted (by omega) hresLen hout hsame]
      constructor
      · exact fun hvalid => hvalid.forwarded hforward
      · intro hvalid
        refine ⟨fun _ => hvalid, ?_⟩
        intro t ht hle
        rw [httl, Except.ok.injEq] at ht
        omega

section Demo

theorem forwardsValid_iff_demo : ∃ out, demoQuery.handleIp demoPolicy = .ok out ∧
    out.ps.forward = true ∧ ForwardsValid demoQuery out := by
  have hruns : (demoQuery.handleIp demoPolicy).map (fun out => (out.ret, out.ps.forward)) =
      .ok (true, true) := by
    decide +kernel
  obtain ⟨out, hrun, hout⟩ := map_eq_ok.mp hruns
  obtain ⟨hret, hforward⟩ := Prod.mk.inj hout
  have hload : loadIpHdr demoQuery.frame = .ok ⟨64, 17, 0x0900000a, 0x090010ac⟩ := by decide
  have hhead : demoQuery.frame.get ipHead = .ok 0x45 := by decide
  exact ⟨out, hrun, hforward,
    (forwardsValid_iff hrun hret hhead hload (by decide)).mpr (Or.inr (by decide))⟩

/-- A UDP datagram of 10.0.0.9 to 172.16.0.9 with the TTL 1. -/
def demoLastHop : Arrival :=
  demoArrival
    [1, 1, 1, 1, 1, 1, 2, 2, 2, 2, 2, 2, 8, 0,
      0x45, 0, 0, 28, 0, 0, 0, 0, 1, 17, 3, 176, 10, 0, 0, 9, 172, 16, 0, 9,
      69, 0, 0, 28, 0, 8, 4, 160]
    eth0Interface (by decide) (by decide)

/-- It is forwarded with the TTL 0. -/
theorem last_hop_forwarded : ∃ out, demoLastHop.handleIp demoPolicy = .ok out ∧
    out.ps.forward = true ∧ out.ps.outgoing.get ipTtl = .ok 0 ∧
    ¬ ForwardsValid demoLastHop out := by
  have hruns : (demoLastHop.handleIp demoPolicy).map
      (fun out => (out.ps.forward, out.ps.outgoing.get ipTtl)) = .ok (true, .ok 0) := by
    decide +kernel
  obtain ⟨out, hrun, hout⟩ := map_eq_ok.mp hruns
  obtain ⟨hforward, httl⟩ := Prod.mk.inj hout
  refine ⟨out, hrun, hforward, httl, ?_⟩
  intro hvalid
  have hexpired := (hvalid.expired 1 (by decide) (Nat.le_refl 1)).1
  rw [hforward] at hexpired
  cases hexpired

end Demo

end PWOSPF
