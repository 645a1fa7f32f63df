import PWOSPF.Arp.Buffers

/-!
# Host unreachable for waiting packets

`get_if_from_mac` and `send_icmp`. The flag of the search over the interfaces is not set again after
the first interface with another MAC, so that only the first interface of the list can be found. For
a packet that came in over any other interface `send_icmp` reads through the null pointer.
-/

namespace PWOSPF

open Framework PacketField

/-! ## The interface with a MAC -/

theorem getIfFromMacLoop_false (mac : Frame) (l : List SrIf) : getIfFromMacLoop mac false l = none := by
  induction l with
  | nil => rfl
  | cons i l ih => exact ih

/-- Only the first interface is ever returned. -/
theorem getIfFromMac_eq (sr : SrInstance) (mac : Frame) :
    getIfFromMac sr mac = sr.ifList.head?.filter fun i => i.addr.toList = mac := by
  unfold getIfFromMac
  cases sr.ifList with
  | nil => rfl
  | cons i l =>
    by_cases h : i.addr.toList = mac
    · simp [getIfFromMacLoop, Option.filter, h]
    · simp [getIfFromMacLoop, Option.filter, h, getIfFromMacLoop_false]

theorem getIfFromMac_eq_some {sr : SrInstance} {mac : Frame} {i : SrIf} :
    getIfFromMac sr mac = some i ↔ sr.ifList.head? = some i ∧ i.addr.toList = mac := by
  rw [getIfFromMac_eq, Option.filter_eq_some_iff, decide_eq_true_iff]

/-! ## The ICMP error -/

/-- An ICMP host unreachable that goes back where `packet` came from, over `iface`. -/
structure GoesBack (packet oldEth : Frame) (iface : SrIf) (t : Transmission) : Prop where
  out : t.iface = iface.name
  dhost : slice t.frame etherDhost.offset etherAddrLen = slice oldEth etherShost.offset etherAddrLen
  shost : slice t.frame etherShost.offset etherAddrLen = iface.addr.toList
  type : t.frame.get etherType = .ok (htons ethertypeIp).toNat
  p : t.frame.get ipP = .ok ipprotoIcmp
  src : t.frame.get ipSrc = .ok iface.ip.toNat
  dst : t.frame.get ipDst = packet.get ipSrc
  icmpType : t.frame.get icmpType = .ok icmptDestun
  icmpCode : t.frame.get icmpCode = .ok icmpcHostun

/-- `data_len` after the comparison with `ICMP_DATA_RES`. -/
def sendIcmpDataLen (packet : Frame) : Nat :=
  let dataLen := UInt16.ofNat packet.length - .ofNat (sizeofEther + sizeofIp)
  if dataLen.toNat ≥ icmpDataRes then icmpDataRes else dataLen.toNat

/-- The data that is quoted behind the IP header lies inside the packet. -/
theorem sendIcmpDataLen_le {packet : Frame} (h : sizeofEther + sizeofIp ≤ packet.length) :
    sendIcmpDataLen packet ≤ icmpDataRes ∧
      sizeofEther + (sizeofIp + sendIcmpDataLen packet) ≤ packet.length := by
  have h34 : 34 ≤ packet.length := h
  have hsub : (UInt16.ofNat packet.length - .ofNat (sizeofEther + sizeofIp)).toNat =
      (packet.length % 65536 + 65536 - 34) % 65536 := by
    rw [UInt16.toNat_sub, UInt16.toNat_ofNat', UInt16.toNat_ofNat']
    show (2 ^ 16 - 34 % 2 ^ 16 + packet.length % 2 ^ 16) % 2 ^ 16 = _
    omega
  have hmin : sendIcmpDataLen packet = min 8 ((packet.length % 65536 + 65536 - 34) % 65536) := by
    rw [← hsub]
    exact Nat.min_def.symm
  simp only [hmin, icmpDataRes, sizeofEther, sizeofIp]
  omega

section Message

variable {sr : SrInstance} {bytes : Nat → UInt8} {packet oldEth f : Frame} {iface : SrIf} {n : Nat}

/-- The ICMP header with `n` bytes of data behind the IP header it quotes, and its checksum. -/
def writeIcmp (n : Nat) (packet f : Frame) : Exec Frame := do
  let f ← f.assign [(icmpType, icmptDestun), (icmpCode, icmpcHostun), (icmpOpt1, 0), (icmpOpt2, 0)]
  let f ← f.store (sizeofEther + sizeofIp + sizeofIcmp) (← packet.load sizeofEther (sizeofIp + n))
  let f ← f.set icmpSum 0
  let csum ← cksum (f.drop (sizeofEther + sizeofIp)) (sizeofIcmp + sizeofIp + n)
  f.set icmpSum (htons csum).toNat

/-- The IP header of the packet with another length, time to live and protocol. -/
def writeIp (n : Nat) (packet f : Frame) : Exec Frame := do
  let f ← f.store sizeofEther (← packet.load sizeofEther sizeofIp)
  f.assign [(ipLen, (htons (.ofNat (sizeofIp + (sizeofIcmp + sizeofIp + n)))).toNat), (ipTtl, initTtl),
    (ipP, ipprotoIcmp)]

/-- From the interface to the source of the packet. -/
def writeAddrs (iface : SrIf) (packet f : Frame) : Exec Frame := do
  let f ← f.assign [(ipSrc, iface.ip.toNat), (ipDst, ← packet.get ipSrc), (ipSum, 0)]
  let csum ← cksum (f.drop ipStart) sizeofIp
  f.set ipSum (htons csum).toNat

def writeEther (iface : SrIf) (oldEth f : Frame) : Exec Frame := do
  let f ← f.store etherDhost.offset (← oldEth.load etherShost.offset etherAddrLen)
  let f ← f.store etherShost.offset iface.addr.toList
  f.set etherType (htons ethertypeIp).toNat

/-- The message is written from the inside to the outside. -/
theorem sendIcmp_eq (sr : SrInstance) (bytes : Nat → UInt8) (packet oldEth : Frame) :
    sendIcmp sr bytes packet oldEth = do
      let n := sendIcmpDataLen packet
      let f ← writeIcmp n packet
        ((List.range (sizeofEther + sizeofIp + sizeofIcmp + sizeofIp + icmpDataRes)).map bytes)
      let f ← writeIp n packet f
      match getIfFromMac sr (← oldEth.load etherDhost.offset etherAddrLen) with
      | none => .error .dangling
      | some iface =>
        let f ← writeAddrs iface packet f
        let f ← writeEther iface oldEth f
        return ⟨f.take (sizeofIcmp + sizeofIp + n + sizeofEther + sizeofIp), iface.name⟩ := by
  simp only [sendIcmp, writeIcmp, writeIp, writeAddrs, writeEther, bind_assoc]
  rfl

theorem writeIcmp_spec (hf : f.length = 70) (hn : n ≤ icmpDataRes)
    (hquote : sizeofEther + (sizeofIp + n) ≤ packet.length) :
    ∃ f', writeIcmp n packet f = .ok f' ∧ f'.length = 70 ∧
      f'.get icmpType = .ok icmptDestun ∧ f'.get icmpCode = .ok icmpcHostun := by
  have hn8 : n ≤ 8 := hn
  obtain ⟨f₁, h₁⟩ := Frame.assign_exists (f := f) (l := [(icmpType, icmptDestun),
    (icmpCode, icmpcHostun), (icmpOpt1, 0), (icmpOpt2, 0)]) (by rw [hf]; decide)
  have hlen₁ := (Frame.assign_length h₁).trans hf
  have hquoted := slice_length hquote
  obtain ⟨f₂, h₂⟩ : ∃ f', f₁.store (sizeofEther + sizeofIp + sizeofIcmp)
      (slice packet sizeofEther (sizeofIp + n)) = .ok f' :=
    Frame.store_exists (by rw [hquoted, hlen₁]; simp only [sizeofEther, sizeofIp, sizeofIcmp]; omega)
  have hlen₂ := (Frame.store_length h₂).trans hlen₁
  obtain ⟨f₃, h₃⟩ := Frame.set_exists (f := f₂) (a := icmpSum) (by rw [hlen₂]; decide) 0
  have hlen₃ := (Frame.set_length h₃).trans hlen₂
  obtain ⟨c, hc⟩ : ∃ c, cksum (f₃.drop (sizeofEther + sizeofIp)) (sizeofIcmp + sizeofIp + n) = .ok c := by
    refine ⟨_, cksum_eq ?_ ?_ rfl⟩
    · rw [List.length_drop, hlen₃]
      simp only [sizeofEther, sizeofIp, sizeofIcmp]
      omega
    · simp only [sizeofIp, sizeofIcmp]
      omega
  obtain ⟨f₄, h₄⟩ := Frame.set_exists (f := f₃) (a := icmpSum) (by rw [hlen₃]; decide)
    (htons c).toNat
  have hload : packet.load sizeofEther (sizeofIp + n) =
      .ok (slice packet sizeofEther (sizeofIp + n)) := if_pos hquote
  -- type and code stand in front of everything that is written behind them
  have hkept : ∀ {b : PacketField}, b.offset + b.width ≤ 36 → f₄.get b = f₁.get b := by
    intro b hb
    rw [Frame.get_set_apart h₄ (Or.inr hb), Frame.get_set_apart h₃ (Or.inr hb),
      Frame.get_store_apart h₂ (Or.inr (Nat.le_trans hb (show 36 ≤ 42 by decide)))]
  refine ⟨f₄, ?_, (Frame.set_length h₄).trans hlen₃, ?_, ?_⟩
  · rw [writeIcmp, h₁, ok_bind, hload, ok_bind, h₂, ok_bind, h₃, ok_bind, hc, ok_bind, h₄]
  · rw [hkept (by decide)]
    exact Frame.get_assign h₁ (by decide) (by simp) (by decide)
  · rw [hkept (by decide)]
    exact Frame.get_assign h₁ (by decide) (by simp) (by decide)

theorem writeIp_spec (hf : f.length = 70) (hlen : sizeofEther + sizeofIp ≤ packet.length) (n : Nat) :
    ∃ f', writeIp n packet f = .ok f' ∧ f'.length = 70 ∧ f'.get ipP = .ok ipprotoIcmp ∧
      ∀ {b : PacketField}, 34 ≤ b.offset → f'.get b = f.get b := by
  have hhdr : (slice packet sizeofEther sizeofIp).length = 20 := slice_length hlen
  obtain ⟨f₁, h₁⟩ : ∃ f', f.store sizeofEther (slice packet sizeofEther sizeofIp) = .ok f' :=
    Frame.store_exists (by rw [hhdr, hf]; decide)
  have hlen₁ := (Frame.store_length h₁).trans hf
  obtain ⟨f₂, h₂⟩ := Frame.assign_exists (f := f₁) (l := [(ipLen, (htons (.ofNat (sizeofIp +
    (sizeofIcmp + sizeofIp + n)))).toNat), (ipTtl, initTtl), (ipP, ipprotoIcmp)])
    (by rw [hlen₁]; simp only [List.map_cons, List.map_nil]; decide)
  have hload : packet.load sizeofEther sizeofIp = .ok (slice packet sizeofEther sizeofIp) :=
    if_pos hlen
  refine ⟨f₂, ?_, (Frame.assign_length h₂).trans hlen₁, ?_, fun {b} hb => ?_⟩
  · rw [writeIp, hload, ok_bind, h₁, ok_bind, h₂]
  · exact Frame.get_assign h₂ (by simp only [List.map_cons, List.map_nil]; decide) (by simp) (by decide)
  · have hbefore : ∀ a ∈ [ipLen, ipTtl, ipP], a.Apart b := by
      have hin : ∀ a ∈ [ipLen, ipTtl, ipP], a.offset + a.width ≤ 34 := by decide
      exact fun a ha => Or.inl (Nat.le_trans (hin a ha) hb)
    rw [Frame.get_assign_apart h₂ hbefore, Frame.get_store_apart h₁ (Or.inl (by rw [hhdr]; exact hb))]

theorem writeAddrs_spec (iface : SrIf) (hf : f.length = 70)
    (hlen : sizeofEther + sizeofIp ≤ packet.length) :
    ∃ f', writeAddrs iface packet f = .ok f' ∧ f'.length = 70 ∧
      f'.get ipSrc = .ok iface.ip.toNat ∧ f'.get ipDst = packet.get ipSrc ∧
      ∀ {b : PacketField}, b = ipP ∨ 34 ≤ b.offset → f'.get b = f.get b := by
  obtain ⟨src, hsrc⟩ : ∃ src, packet.get ipSrc = .ok src :=
    Frame.get_exists (Nat.le_trans (by decide) hlen)
  have hlt : src < 256 ^ 4 := Frame.get_lt hsrc
  obtain ⟨f₁, h₁⟩ := Frame.assign_exists (f := f) (l := [(ipSrc, iface.ip.toNat), (ipDst, src),
    (ipSum, 0)]) (by rw [hf]; simp only [List.map_cons, List.map_nil]; decide)
  have hlen₁ := (Frame.assign_length h₁).trans hf
  obtain ⟨c, hc⟩ : ∃ c, cksum (f₁.drop ipStart) sizeofIp = .ok c := by
    refine ⟨_, cksum_eq (n := 10) ?_ (by decide) rfl⟩
    rw [List.length_drop, hlen₁]
    decide
  obtain ⟨f₂, h₂⟩ := Frame.set_exists (f := f₁) (a := ipSum) (by rw [hlen₁]; decide) (htons c).toNat
  refine ⟨f₂, ?_, (Frame.set_length h₂).trans hlen₁, ?_, ?_, fun {b} hb => ?_⟩
  · rw [writeAddrs, hsrc, ok_bind, h₁, ok_bind, hc, ok_bind, h₂]
  · rw [Frame.get_set_apart h₂ (by decide)]
    exact Frame.get_assign h₁ (by simp only [List.map_cons, List.map_nil]; decide) (by simp)
      iface.ip.toNat_lt
  · rw [Frame.get_set_apart h₂ (by decide), hsrc]
    exact Frame.get_assign h₁ (by simp only [List.map_cons, List.map_nil]; decide) (by simp) hlt
  · have hapart : ∀ a ∈ [ipSrc, ipDst, ipSum], a.Apart b := by
      rcases hb with rfl | hb
      · decide
      · have hin : ∀ a ∈ [ipSrc, ipDst, ipSum], a.offset + a.width ≤ 34 := by decide
        exact fun a ha => Or.inl (Nat.le_trans (hin a ha) hb)
    rw [Frame.get_set_apart h₂ (hapart ipSum (by decide)), Frame.get_assign_apart h₁ hapart]

theorem writeEther_spec (iface : SrIf) (hf : f.length = 70) (heth : oldEth.length = sizeofEther) :
    ∃ f', writeEther iface oldEth f = .ok f' ∧ f'.length = 70 ∧
      slice f' etherDhost.offset etherAddrLen = slice oldEth etherShost.offset etherAddrLen ∧
      slice f' etherShost.offset etherAddrLen = iface.addr.toList ∧
      f'.get etherType = .ok (htons ethertypeIp).toNat ∧
      ∀ {b : PacketField}, 14 ≤ b.offset → f'.get b = f.get b := by
  have h14 : oldEth.length = 14 := heth
  have hshost : (slice oldEth etherShost.offset etherAddrLen).length = 6 :=
    slice_length (by rw [h14]; decide)
  have hmac : iface.addr.toList.length = 6 := by simp
  obtain ⟨f₁, h₁⟩ : ∃ f', f.store etherDhost.offset
      (slice oldEth etherShost.offset etherAddrLen) = .ok f' :=
    Frame.store_exists (by rw [hshost, hf]; decide)
  have hlen₁ := (Frame.store_length h₁).trans hf
  obtain ⟨f₂, h₂⟩ : ∃ f', f₁.store etherShost.offset iface.addr.toList = .ok f' :=
    Frame.store_exists (by rw [hmac, hlen₁]; decide)
  have hlen₂ := (Frame.store_length h₂).trans hlen₁
  obtain ⟨f₃, h₃⟩ := Frame.set_exists (f := f₂) (a := etherType) (by rw [hlen₂]; decide)
    (htons ethertypeIp).toNat
  have hload : oldEth.load etherShost.offset etherAddrLen =
      .ok (slice oldEth etherShost.offset etherAddrLen) := if_pos (by rw [h14]; decide)
  refine ⟨f₃, ?_, (Frame.set_length h₃).trans hlen₂, ?_, ?_, Frame.get_set h₃ (by decide),
    fun {b} hb => ?_⟩
  · rw [writeEther, hload, ok_bind, h₁, ok_bind, h₂, ok_bind, h₃]
  · obtain ⟨hin₃, rfl⟩ := Frame.set_eq_ok.mp h₃
    obtain ⟨hin₂, rfl⟩ := Frame.store_eq_ok.mp h₂
    obtain ⟨hin₁, rfl⟩ := Frame.store_eq_ok.mp h₁
    rw [slice_patch_outside (by rw [leBytes_length]; exact hin₃) (Or.inl (by decide)),
      slice_patch_outside hin₂ (Or.inl (by decide))]
    have hself := slice_patch_self hin₁
    rwa [hshost] at hself
  · obtain ⟨hin₃, rfl⟩ := Frame.set_eq_ok.mp h₃
    obtain ⟨hin₂, rfl⟩ := Frame.store_eq_ok.mp h₂
    rw [slice_patch_outside (by rw [leBytes_length]; exact hin₃) (Or.inl (by decide))]
    have hself := slice_patch_self hin₂
    rwa [hmac] at hself
  · rw [Frame.get_set_apart h₃ (Or.inl hb), Frame.get_store_apart h₂ (Or.inl ?_),
      Frame.get_store_apart h₁ (Or.inl ?_)]
    · rw [hshost]
      exact Nat.le_trans (by decide) hb
    · rw [hmac]
      exact Nat.le_trans (by decide) hb

theorem sendIcmp_goesBack (hlen : sizeofEther + sizeofIp ≤ packet.length)
    (heth : oldEth.length = sizeofEther)
    (hif : getIfFromMac sr (slice oldEth etherDhost.offset etherAddrLen) = some iface) :
    ∃ t, sendIcmp sr bytes packet oldEth = .ok t ∧ GoesBack packet oldEth iface t := by
  obtain ⟨hn, hquote⟩ := sendIcmpDataLen_le hlen
  have hbuf : ((List.range (sizeofEther + sizeofIp + sizeofIcmp + sizeofIp + icmpDataRes)).map
      bytes).length = 70 := by
    simp [sizeofEther, sizeofIp, sizeofIcmp, icmpDataRes]
  obtain ⟨f₁, h₁, hlen₁, htype, hcode⟩ := writeIcmp_spec hbuf hn hquote
  obtain ⟨f₂, h₂, hlen₂, hp, hkept₂⟩ := writeIp_spec hlen₁ hlen (sendIcmpDataLen packet)
  obtain ⟨f₃, h₃, hlen₃, hsrc, hdst, hkept₃⟩ := writeAddrs_spec iface hlen₂ hlen
  obtain ⟨f₄, h₄, hlen₄, hdhost, hshost, hether, hkept₄⟩ := writeEther_spec iface hlen₃ heth
  have hload : oldEth.load etherDhost.offset etherAddrLen =
      .ok (slice oldEth etherDhost.offset etherAddrLen) := if_pos (by rw [heth]; decide)
  let len := sizeofIcmp + sizeofIp + sendIcmpDataLen packet + sizeofEther + sizeofIp
  have hlow : 62 ≤ len := by
    simp only [len, sizeofIcmp, sizeofIp, sizeofEther]
    omega
  have hhigh : len ≤ f₄.length := by
    rw [hlen₄]
    simp only [len, sizeofIcmp, sizeofIp, sizeofEther]
    rw [icmpDataRes] at hn
    omega
  have hend : ∀ {b : PacketField}, b.offset + b.width ≤ 62 → Frame.get (f₄.take len) b = f₄.get b :=
    fun hb => Frame.get_take (Nat.le_trans hb hlow) hhigh
  have hcut : ∀ o, o + etherAddrLen ≤ 62 →
      slice (f₄.take len) o etherAddrLen = slice f₄ o etherAddrLen :=
    fun o ho => slice_take f₄ (Nat.le_trans ho hlow)
  refine ⟨⟨f₄.take len, iface.name⟩, ?_, ?_⟩
  · rw [sendIcmp_eq]
    simp only [h₁, h₂, hload, hif, h₃, h₄, ok_bind]
    rfl
  · exact
      { out := rfl
        dhost := (hcut _ (by decide)).trans hdhost
        shost := (hcut _ (by decide)).trans hshost
        type := (hend (by decide)).trans hether
        p := by rw [hend (by decide), hkept₄ (by decide), hkept₃ (Or.inl rfl), hp]
        src := by rw [hend (by decide), hkept₄ (by decide), hsrc]
        dst := by rw [hend (by decide), hkept₄ (by decide), hdst]
        icmpType := by
          rw [hend (by decide), hkept₄ (by decide), hkept₃ (Or.inr (by decide)), hkept₂ (by decide),
            htype]
        icmpCode := by
          rw [hend (by decide), hkept₄ (by decide), hkept₃ (Or.inr (by decide)), hkept₂ (by decide),
            hcode] }

/-- Where a message is sent the packet holds an IP header, and the saved MAC led to an interface. -/
theorem sendIcmp_eq_ok {t : Transmission} (h : sendIcmp sr bytes packet oldEth = .ok t) :
    sizeofEther + sizeofIp ≤ packet.length ∧
      ∃ i, getIfFromMac sr (slice oldEth etherDhost.offset etherAddrLen) = some i := by
  have hload : ∀ {f : Frame} {o n : Nat} {bs : List UInt8}, f.load o n = .ok bs →
      o + n ≤ f.length ∧ bs = slice f o n := by
    intro f o n bs hf
    rw [Frame.load] at hf
    split at hf
    · next hin => exact ⟨hin, (Except.ok.inj hf).symm⟩
    · cases hf
  rw [sendIcmp_eq] at h
  obtain ⟨f₁, h₁, h⟩ := bind_eq_ok.mp h
  obtain ⟨f₂, -, h⟩ := bind_eq_ok.mp h
  obtain ⟨mac, hmac, h⟩ := bind_eq_ok.mp h
  obtain ⟨f₀, -, h₁⟩ := bind_eq_ok.mp h₁
  obtain ⟨bs, hbs, -⟩ := bind_eq_ok.mp h₁
  have hin := (hload hbs).1
  refine ⟨by omega, ?_⟩
  rw [← (hload hmac).2]
  cases hif : getIfFromMac sr mac with
  | none =>
    rw [hif] at h
    cases h
  | some i => exact ⟨i, rfl⟩

end Message

/-! ## Exactly the packets of the first interface -/

/-- The search finds the interface with a MAC exactly if no interface but the first one has it, and
a waiting packet that came in over `iface` is answered over it exactly if that is the first one. -/
theorem hostUnreachable_iff {sr : SrInstance} (hnodup : (sr.ifList.map SrIf.addr).Nodup) :
    (∀ mac : Mac,
      ((∀ i ∈ sr.ifList, i.addr = mac → getIfFromMac sr mac.toList = some i) ∧
          (getIfFromMac sr mac.toList = none ↔ ∀ i ∈ sr.ifList, i.addr ≠ mac)) ↔
        ∀ i ∈ sr.ifList, i.addr = mac → sr.ifList.head? = some i) ∧
      ∀ (bytes : Nat → UInt8) (packet oldEth : Frame), oldEth.length = sizeofEther →
        ∀ iface ∈ sr.ifList,
          slice oldEth etherDhost.offset etherAddrLen = iface.addr.toList →
            ((∃ t, sendIcmp sr bytes packet oldEth = .ok t ∧ GoesBack packet oldEth iface t) ↔
              sr.ifList.head? = some iface ∧ sizeofEther + sizeofIp ≤ packet.length) := by
  constructor
  · intro mac
    constructor
    · rintro ⟨hfound, -⟩ i hi hmac
      exact (getIfFromMac_eq_some.mp (hfound i hi hmac)).1
    · intro hfirst
      have hfound : ∀ i ∈ sr.ifList, i.addr = mac → getIfFromMac sr mac.toList = some i :=
        fun i hi hmac => getIfFromMac_eq_some.mpr ⟨hfirst i hi hmac, by rw [hmac]⟩
      refine ⟨hfound, fun hnone i hi hmac => ?_, fun hno => ?_⟩
      · rw [hfound i hi hmac] at hnone
        cases hnone
      · by_contra hsome
        obtain ⟨i, hi⟩ := Option.ne_none_iff_exists'.mp hsome
        obtain ⟨hhead, hmac⟩ := getIfFromMac_eq_some.mp hi
        exact hno i (List.mem_of_mem_head? hhead) (Vector.toList_inj.mp hmac)
  · intro bytes packet oldEth heth iface hmem hmac
    constructor
    · rintro ⟨t, hrun, -⟩
      obtain ⟨hlen, i, hi⟩ := sendIcmp_eq_ok hrun
      obtain ⟨hhead, haddr⟩ := getIfFromMac_eq_some.mp hi
      have hsame : i = iface := List.inj_on_of_nodup_map hnodup (List.mem_of_mem_head? hhead) hmem
        (Vector.toList_inj.mp (haddr.trans hmac))
      exact ⟨hsame ▸ hhead, hlen⟩
    · rintro ⟨hhead, hlen⟩
      exact sendIcmp_goesBack hlen heth (getIfFromMac_eq_some.mpr ⟨hhead, hmac.symm⟩)

/-- The interfaces `eth0` and `eth1`. -/
def demoIf0 : SrIf := ⟨[101, 116, 104, 48], Vector.replicate 6 2, 0x0100000a⟩
def demoIf1 : SrIf := ⟨[101, 116, 104, 49], Vector.replicate 6 3, 0x0101000a⟩

def demoTwoIfs : SrInstance := ⟨[demoIf0, demoIf1], []⟩

/-- The Ethernet header of a packet that came in at the MAC with these bytes. -/
def demoOldEth (b : UInt8) : Frame := List.replicate 6 b ++ [2, 0, 0, 0, 0, 9, 8, 0]

theorem hostUnreachable_demo :
    ∃ t, sendIcmp demoTwoIfs (fun _ => 0) (List.replicate 34 0) (demoOldEth 2) = .ok t ∧
      GoesBack (List.replicate 34 0) (demoOldEth 2) demoIf0 t :=
  ((@hostUnreachable_iff demoTwoIfs (by decide)).2 (fun _ => 0) (List.replicate 34 0)
    (demoOldEth 2) rfl _ List.mem_cons_self (by decide)).mpr ⟨rfl, by decide⟩

/-- A packet that came in over the second interface. -/
theorem hostUnreachable_false :
    ¬ ∀ (sr : SrInstance), (sr.ifList.map SrIf.addr).Nodup →
      ∀ (bytes : Nat → UInt8) (packet oldEth : Frame), oldEth.length = sizeofEther →
        sizeofEther + sizeofIp ≤ packet.length → ∀ iface ∈ sr.ifList,
          slice oldEth etherDhost.offset etherAddrLen = iface.addr.toList →
            getIfFromMac sr iface.addr.toList = some iface ∧
              ∃ t, sendIcmp sr bytes packet oldEth = .ok t ∧ GoesBack packet oldEth iface t := by
  intro h
  have hsecond := (h demoTwoIfs (by decide) (fun _ => 0) (List.replicate 34 0) (demoOldEth 3) rfl
    (by decide) demoIf1 (by simp [demoTwoIfs]) (by decide)).1
  exact absurd hsecond (by decide)

end PWOSPF
