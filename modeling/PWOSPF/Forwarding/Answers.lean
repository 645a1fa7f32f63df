import PWOSPF.Forwarding.IcmpMessages

/-!
# Answers

A datagram for an address of the router that the firewall lets in is answered. The answer goes back
through the interface the datagram came in by, and its IP header is that of the datagram turned around.
-/

namespace PWOSPF

open Framework PacketField

variable {sr : SrInstance} {fw : Firewall} {S : PwospfSubsys} {env : Env} {f g : Frame} {name : IfName}
  {h : IpHdr} {ps ps' : DatagramState}

/-! ## The IP header -/

/-- What `answerHdr` makes of a response to `f`. -/
structure TurnedAround (f : Frame) (ps ps' : DatagramState) : Prop where
  same : ps' = { ps with response := ps'.response, okToSend := true }
  length : ps'.response.length = ps.response.length
  head : ps'.response.get ipHead = f.get ipHead
  len : ps'.response.get ipLen = .ok (htons (.ofNat (ps.resLen - sizeofEther))).toNat
  p : ps'.response.get ipP = .ok ipprotoIcmp
  src : ps'.response.get ipSrc = f.get ipDst
  dst : ps'.response.get ipDst = f.get ipSrc
  csum : HoldsChecksum ps'.response ipSum.offset ipStart sizeofIp
  rest : ∀ i, sizeofEther + sizeofIp ≤ i → ps'.response[i]? = ps.response[i]?

/-- The fields that `answerHdr` writes over the copy of the header. -/
def answerFields (len tos dst src : Nat) : List (PacketField × Nat) :=
  [(ipLen, len), (ipTtl, initTtl), (ipTos, tos), (ipP, ipprotoIcmp), (ipSrc, dst), (ipDst, src), (ipSum, 0)]

theorem answerFields_fst (len tos dst src : Nat) : (answerFields len tos dst src).map Prod.fst =
    [ipLen, ipTtl, ipTos, ipP, ipSrc, ipDst, ipSum] := rfl

/-- A copy of the header of `f` with these fields in it, and the rest of the buffer. -/
structure HdrFrom (f response : Frame) (l : List (PacketField × Nat)) (f' : Frame) : Prop where
  length : f'.length = response.length
  head : f'.get ipHead = f.get ipHead
  fields : ∀ a v, (a, v) ∈ l → v < 256 ^ a.width → f'.get a = .ok v
  rest : ∀ i, sizeofEther + sizeofIp ≤ i → f'[i]? = response[i]?

theorem answerFields_assigned {response : Frame} (len tos dst src : Nat)
    (hlen : sizeofEther + sizeofIp ≤ f.length) (hroom : sizeofEther + sizeofIp ≤ response.length) :
    ∃ f₁ f₂, response.store ipStart (slice f ipStart sizeofIp) = .ok f₁ ∧
      f₁.assign (answerFields len tos dst src) = .ok f₂ ∧
      HdrFrom f response (answerFields len tos dst src) f₂ := by
  have hhdr : (slice f ipStart sizeofIp).length = sizeofIp := slice_length hlen
  have hfits : ipStart + (slice f ipStart sizeofIp).length ≤ response.length := by
    rw [hhdr]
    exact hroom
  have hstore := Frame.store_eq_ok.mpr ⟨hfits, rfl⟩
  have hlen₁ := Frame.store_length hstore
  obtain ⟨f₂, hassign⟩ := Frame.assign_exists (f := patch response ipStart (slice f ipStart sizeofIp))
    (l := answerFields len tos dst src) (by
      rw [answerFields_fst, hlen₁]
      intro a ha
      have hin : ∀ a ∈ [ipLen, ipTtl, ipTos, ipP, ipSrc, ipDst, ipSum],
          a.offset + a.width ≤ sizeofEther + sizeofIp := by
        decide
      exact Nat.le_trans (hin a ha) hroom)
  refine ⟨_, f₂, hstore, hassign, (Frame.assign_length hassign).trans hlen₁, ?_, ?_, ?_⟩
  · have hcopied := slice_patch_self hfits
    rw [hhdr] at hcopied
    rw [Frame.get_assign_apart hassign (by rw [answerFields_fst]; decide)]
    exact Frame.get_of_window hcopied hlen (by rw [hlen₁]; exact hroom) (by decide) (by decide)
  · exact fun a v hmem hv => Frame.get_assign hassign (by rw [answerFields_fst]; decide) hmem hv
  · intro i hi
    have h34 : 34 ≤ i := hi
    have hback : f₂.drop 34 = (patch response ipStart (slice f ipStart sizeofIp)).drop 34 := by
      apply Frame.drop_assign hassign
      rw [answerFields_fst]
      decide
    have hbyte := congrArg (fun l => l[i - 34]?) hback
    simp only [List.getElem?_drop] at hbyte
    rwa [Nat.add_sub_cancel' h34, patch_getElem? hfits, hhdr, if_neg (by rw [ipStart]; omega)] at hbyte

theorem answerHdr_turnedAround (hpacket : ps.packet = f) (hlen : sizeofEther + sizeofIp ≤ f.length)
    (hroom : sizeofEther + sizeofIp ≤ ps.response.length) :
    ∃ ps', answerHdr ps = .ok ps' ∧ TurnedAround f ps ps' := by
  have h34 : 34 ≤ f.length := hlen
  obtain ⟨tos, htos⟩ := Frame.get_exists (f := f) (b := ipTos) (Nat.le_trans (by decide) h34)
  obtain ⟨dst, hdst⟩ := Frame.get_exists (f := f) (b := ipDst) (Nat.le_trans (by decide) h34)
  obtain ⟨src, hsrc⟩ := Frame.get_exists (f := f) (b := ipSrc) (Nat.le_trans (by decide) h34)
  have hdstlt : dst < 256 ^ 4 := Frame.get_lt hdst
  have hsrclt : src < 256 ^ 4 := Frame.get_lt hsrc
  have hload : f.load ipStart sizeofIp = .ok (slice f ipStart sizeofIp) := if_pos hlen
  obtain ⟨f₁, f₂, hstore, hassign, hhdr⟩ := answerFields_assigned
    (htons (.ofNat (ps.resLen - sizeofEther))).toNat tos dst src hlen hroom
  obtain ⟨csum, f₃, hcsum, hset, hholds⟩ := ipSum_stored (by rw [hhdr.length]; exact hroom)
    (hhdr.fields ipSum 0 (by simp [answerFields]) (by decide))
  have hread : ∀ {a v}, (a, v) ∈ answerFields (htons (.ofNat (ps.resLen - sizeofEther))).toNat tos dst
      src → v < 256 ^ a.width → ipSum.Apart a → f₃.get a = .ok v := fun hmem hv hapart =>
    (Frame.get_set_apart hset hapart).trans (hhdr.fields _ _ hmem hv)
  refine ⟨{ ps with response := f₃, okToSend := true }, ?_, ?_⟩
  · rw [answerHdr, hpacket, hload, ok_bind, hstore, ok_bind, htos, ok_bind, hdst, ok_bind, hsrc, ok_bind,
      ← answerFields, hassign, ok_bind, hcsum, ok_bind, hset]
    rfl
  · exact
      { same := rfl
        length := (Frame.set_length hset).trans hhdr.length
        head := (Frame.get_set_apart hset (by decide)).trans hhdr.head
        len := hread (by simp [answerFields]) (UInt16.toNat_lt _) (by decide)
        p := hread (by simp [answerFields]) (by decide) (by decide)
        src := (hread (by simp [answerFields]) hdstlt (by decide)).trans hdst.symm
        dst := (hread (by simp [answerFields]) hsrclt (by decide)).trans hsrc.symm
        csum := hholds
        rest := fun i hi => (Frame.getElem?_set_apart hset (Or.inr (Nat.le_trans (by decide) hi))).trans
          (hhdr.rest i hi) }

/-! ## The Ethernet header -/

/-- The Ethernet header is written in front of a response that is not forwarded. -/
theorem createEthHdr_answer (env : Env) (hforward : ps.forward = false)
    (hreceived : (srGetInterface sr ps.interface).isSome = true) (hlen : sizeofEther ≤ f.length)
    (hroom : sizeofEther ≤ ps.response.length) :
    ∃ response, createEthHdr sr env ps (f.take sizeofEther) = .ok ({ ps with response }, [], true) ∧
      response.length = ps.response.length ∧
      ∀ i, sizeofEther ≤ i → response[i]? = ps.response[i]? := by
  obtain ⟨sif, hsif⟩ := Option.isSome_iff_exists.mp hreceived
  have hderef : derefInterface sr ps.interface = .ok sif := by
    rw [derefInterface, hsif]
  have htake : (f.take sizeofEther).length = 14 := by
    rw [List.length_take, Nat.min_eq_left hlen]
    rfl
  have hbuffer : 14 ≤ ps.response.length := hroom
  have hload : Frame.load (f.take sizeofEther) etherShost.offset etherAddrLen =
      .ok (slice (f.take sizeofEther) 6 6) := if_pos (by rw [htake]; decide)
  have hsender : (slice (f.take sizeofEther) 6 6).length = 6 := slice_length (by rw [htake]; decide)
  have hfits₁ : etherDhost.offset + (slice (f.take sizeofEther) 6 6).length ≤ ps.response.length := by
    rw [hsender]
    exact Nat.le_trans (by decide) hbuffer
  obtain ⟨f₁, hdhost⟩ := Frame.store_exists hfits₁
  have hlen₁ := Frame.store_length hdhost
  have hmac : sif.addr.toList.length = 6 := sif.addr.length_toList
  have hfits₂ : etherShost.offset + sif.addr.toList.length ≤ f₁.length := by
    rw [hmac, hlen₁]
    exact Nat.le_trans (by decide) hbuffer
  obtain ⟨f₂, hshost⟩ := Frame.store_exists hfits₂
  have hlen₂ := Frame.store_length hshost
  obtain ⟨f₃, htype⟩ := Frame.set_exists (f := f₂) (a := etherType)
    (by rw [hlen₂, hlen₁]; exact hroom) (htons ethertypeIp).toNat
  refine ⟨f₃, ?_, (Frame.set_length htype).trans (hlen₂.trans hlen₁), ?_⟩
  · rw [createEthHdr, if_neg (by rw [hforward]; decide), hderef, ok_bind, hload, ok_bind, hdhost, ok_bind,
      hshost, ok_bind, htype]
    rfl
  · intro i hi
    have h14 : 14 ≤ i := hi
    obtain ⟨hin₁, hpatch₁⟩ := Frame.store_eq_ok.mp hdhost
    obtain ⟨hin₂, hpatch₂⟩ := Frame.store_eq_ok.mp hshost
    rw [Frame.getElem?_set_apart htype (Or.inr h14), hpatch₂, patch_getElem? hin₂, hmac,
      if_neg (by simp only [etherShost]; omega), hpatch₁, patch_getElem? hin₁, hsender,
      if_neg (by simp only [etherDhost]; omega)]

/-- The frame that is sent for a response. -/
structure SentAs (ps : DatagramState) (g : Frame) : Prop where
  length : g.length = ps.resLen
  rest : ∀ i, sizeofEther ≤ i → i < g.length → g[i]? = ps.response[i]?

/-- A response that is not forwarded is sent. -/
theorem srHandlepacket_answer {fw' : Firewall} {name' : IfName} (hlen : sizeofEther ≤ f.length)
    (htype : f.get etherType = .ok (htons ethertypeIp).toNat)
    (hrun : handleIp sr fw S env (.received env f name) = .ok ⟨fw', S, [], ps, true⟩)
    (hforward : ps.forward = false) (hreceived : (srGetInterface sr ps.interface).isSome = true)
    (hsend : ps.sendIf = some name') (hroom : sizeofEther ≤ ps.response.length)
    (hfits : ps.resLen ≤ ps.response.length) :
    ∃ g, srHandlepacket sr fw S env f name = .ok ⟨fw', S, [⟨g, name', none⟩]⟩ ∧ SentAs ps g := by
  obtain ⟨response, heth, hlen', hrest⟩ := createEthHdr_answer env hforward hreceived hlen hroom
  have hin : 0 + ps.resLen ≤ response.length := by rw [hlen', Nat.zero_add]; exact hfits
  have hload : Frame.load response 0 ps.resLen = .ok (slice response 0 ps.resLen) := if_pos hin
  have hsend' : DatagramState.sendIf { ps with response } = some name' := hsend
  have hcut : (slice response 0 ps.resLen).length = ps.resLen := slice_length hin
  refine ⟨slice response 0 ps.resLen, ?_, hcut, ?_⟩
  · rw [srHandlepacket, if_neg (Nat.not_lt.mpr hlen), htype, ok_bind, if_neg (by decide), hrun, ok_bind,
      if_pos rfl, heth, ok_bind]
    simp only [hsend', hload, ok_bind]
    rfl
  · intro i hi hin'
    rw [hcut] at hin'
    rw [slice_getElem?, if_pos hin', Nat.zero_add]
    exact hrest i hi

/-! ## Datagrams for the router -/

/-- The loop over the interfaces stops at this one, for its address. -/
structure OwnAddress (sr : SrInstance) (dst : InAddr) (iface : SrIf) : Prop where
  found : sr.ifList.find? (fun i => i.ip = dst ∨ dst = ntohl ospfAllSPFRouters) = some iface
  ip : iface.ip = dst

/-- The firewall is not asked, or accepts the connection. -/
def Admitted (fw : Firewall) (clock : Nat → Time) (f : Frame) (name : IfName) (iface : SrIf) : Prop :=
  isExternal fw name = true → isInternal fw iface.name = true →
    ∃ flow, flowAt sizeofEther f = some flow ∧ Accepts fw clock flow

/-- An IP datagram for an address of the router that the firewall lets in. -/
structure ForRouter (sr : SrInstance) (fw : Firewall) (clock : Nat → Time) (f : Frame) (name : IfName)
    (h : IpHdr) : Prop where
  type : f.get etherType = .ok (htons ethertypeIp).toNat
  plain : ∃ head, f.get ipHead = .ok head ∧ ¬ ipHl head * 4 > sizeofIp
  load : loadIpHdr f = .ok h
  own : ∃ iface, OwnAddress sr h.dst iface ∧ Admitted fw clock f name iface
  received : (srGetInterface sr name).isSome = true

theorem ownAddressLoop_own {ifaces : List SrIf} {iface : SrIf}
    (hfound : ifaces.find? (fun i => i.ip = h.dst ∨ h.dst = ntohl ospfAllSPFRouters) = some iface)
    (hip : iface.ip = h.dst) :
    ownAddressLoop fw S env h ps ifaces = do return some (← deliver fw S env h ps iface) := by
  induction ifaces with
  | nil => cases hfound
  | cons current rest ih =>
    rw [List.find?_cons] at hfound
    rw [ownAddressLoop]
    by_cases hstop : current.ip = h.dst ∨ h.dst = ntohl ospfAllSPFRouters
    · simp only [hstop, decide_true, Option.some.injEq] at hfound
      rw [hfound, if_pos hip]
    · simp only [hstop, decide_false] at hfound
      obtain ⟨hown, hall⟩ := not_or.mp hstop
      rw [if_neg hown, if_neg hall]
      exact ih hfound

/-- What is written behind the IP header of an answer. -/
def respond (p : Nat) (ps : DatagramState) : Exec DatagramState :=
  if p = ipprotoIcmp then handleIcmp ps else icmpResponse ps icmptDestun icmpcPortun

theorem respond_sameTask {p : Nat} (hrun : respond p ps = .ok ps') : SameTask ps ps' := by
  rw [respond] at hrun
  by_cases hicmp : p = ipprotoIcmp
  · rw [if_pos hicmp] at hrun
    exact handleIcmp_sameTask hrun
  · rw [if_neg hicmp] at hrun
    exact icmpResponse_sameTask hrun

theorem answer_eq (hp : h.p ≠ ospfv2Type) : answer fw S env h ps = (do
    let ps ← answerHdr (← respond h.p (ps.leaveHdrRoom sizeofIp))
    return ⟨fw, S, [], ps, true⟩) := by
  rw [answer, respond]
  by_cases hicmp : h.p = ipprotoIcmp
  · rw [if_pos hicmp, if_pos hicmp]
  · rw [if_neg hicmp, if_neg hicmp, if_neg hp]

theorem deliver_admitted {iface : SrIf} (hps : Untouched f name sizeofEther ps)
    (hload : loadIpHdr f = .ok h) (hadmitted : Admitted fw env.clock f name iface)
    (hp : h.p ≠ ospfv2Type) : ∃ fw', deliver fw S env h ps iface = answer fw' S env h ps := by
  have hlen : sizeofEther ≤ f.length := Nat.le_trans (by decide) (loadIpHdr_length hload)
  rw [deliver, hps.interface]
  by_cases hask : isExternal fw name ∧ isInternal fw iface.name
  · obtain ⟨flow, hflow, haccepts⟩ := hadmitted hask.1 hask.2
    refine ⟨(checkConnection fw env.clock flow).1, ?_⟩
    rw [if_pos hask, if_neg hp, askFirewall_eq hps hlen hload, hflow, Option.elim_some, ok_bind]
    exact if_pos haccepts
  · exact ⟨fw, if_neg hask⟩

theorem ForRouter.handleIp_answer (hx : ForRouter sr fw env.clock f name h) (S : PwospfSubsys)
    (hp : h.p ≠ ospfv2Type) (hps : Untouched f name sizeofEther ps) :
    ∃ fw', handleIp sr fw S env ps = answer fw' S env h { ps with okToSend := false } := by
  obtain rfl := hps.packet
  obtain ⟨head, hhead, hplain⟩ := hx.plain
  obtain ⟨iface, hown, hadmitted⟩ := hx.own
  have hlong : ¬ ps.len < sizeofIp := by
    rw [hps.len]
    exact Nat.not_lt.mpr (Nat.le_sub_of_add_le' (loadIpHdr_length hx.load))
  have hmarked : Untouched ps.packet name sizeofEther { ps with okToSend := false } :=
    ⟨rfl, hps.packetPos, hps.len, hps.interface, hps.response, hps.forward⟩
  obtain ⟨fw', hdeliver⟩ := deliver_admitted (S := S) hmarked hx.load hadmitted hp
  refine ⟨fw', ?_⟩
  simp only [handleIp, if_neg hlong, hhead, ok_bind]
  rw [if_neg hplain, hx.load, ok_bind, ownAddressLoop_own hown.found hown.ip, hdeliver]
  cases answer fw' S env h { ps with okToSend := false } <;> rfl

/-- A frame that answers `f`, with what is written in `ps'` behind the IP header. -/
structure Answers (f : Frame) (ps' : DatagramState) (g : Frame) : Prop where
  length : g.length = ps'.resLen
  head : g.get ipHead = f.get ipHead
  len : g.get ipLen = .ok (htons (.ofNat (g.length - sizeofEther))).toNat
  p : g.get ipP = .ok ipprotoIcmp
  src : g.get ipSrc = f.get ipDst
  dst : g.get ipDst = f.get ipSrc
  csum : HoldsChecksum g ipSum.offset ipStart sizeofIp
  behind : ∀ o n, sizeofEther + sizeofIp ≤ o → o + n ≤ g.length → slice g o n = slice ps'.response o n

theorem TurnedAround.answers {ps'' : DatagramState} (hturned : TurnedAround f ps' ps'')
    (hg : SentAs ps'' g) (hlo : sizeofEther + sizeofIp ≤ ps'.resLen)
    (hroom : ipStart + sizeofIp ≤ ps''.response.length) : Answers f ps' g := by
  have hcut : g.length = ps'.resLen := by
    rw [hg.length, hturned.same]
  have hwindow : slice g ipStart sizeofIp = slice ps''.response ipStart sizeofIp := by
    apply slice_congr
    intro i hi hlt
    exact hg.rest i hi (Nat.lt_of_lt_of_le hlt (by rw [hcut]; exact hlo))
  have hroom' : ipStart + sizeofIp ≤ g.length := by rw [hcut]; exact hlo
  have hget : ∀ {b : PacketField}, ipStart ≤ b.offset → b.offset + b.width ≤ ipStart + sizeofIp →
      g.get b = ps''.response.get b := fun hlo hhi =>
    Frame.get_of_window hwindow hroom hroom' hlo hhi
  exact
    { length := hcut
      head := (hget (by decide) (by decide)).trans hturned.head
      len := by rw [hget (by decide) (by decide), hturned.len, hcut]
      p := (hget (by decide) (by decide)).trans hturned.p
      src := (hget (by decide) (by decide)).trans hturned.src
      dst := (hget (by decide) (by decide)).trans hturned.dst
      csum := hturned.csum.congr (by decide) (by decide) hroom hroom' hwindow
      behind := by
        intro o n ho hn
        apply slice_congr
        intro i hi hlt
        have h34 : 34 ≤ o := ho
        rw [hg.rest i (Nat.le_trans (by decide) (Nat.le_trans h34 hi)) (by omega),
          hturned.rest i (Nat.le_trans ho hi)] }

theorem ForRouter.answered (hx : ForRouter sr fw env.clock f name h) (S : PwospfSubsys)
    (hp : h.p ≠ ospfv2Type) :
    ∃ ps, AtHeader env f name (sizeofEther + sizeofIp) ps ∧ ∀ ps', respond h.p ps = .ok ps' →
      ps'.response.length = maxPacLength → sizeofEther + sizeofIp ≤ ps'.resLen →
      ps'.resLen ≤ maxPacLength → ∃ fw' g, Answers f ps' g ∧
        srHandlepacket sr fw S env f name = .ok ⟨fw', S, [⟨g, name, none⟩]⟩ := by
  have hlen := loadIpHdr_length hx.load
  have hstart := (received_atHeader env f name).mark false
  refine ⟨_, hstart.leaveHdrRoom sizeofIp, ?_⟩
  intro ps' hrespond hbuffer hlo hhi
  have hsame := respond_sameTask hrespond
  have hpacket : ps'.packet = f := hsame.packet.trans hstart.packet
  have hroom : sizeofEther + sizeofIp ≤ ps'.response.length := by
    rw [hbuffer]
    decide
  obtain ⟨ps'', hhdr, hturned⟩ := answerHdr_turnedAround hpacket hlen hroom
  obtain ⟨fw', hhandle⟩ := hx.handleIp_answer S hp (received_untouched env f name)
  have hrun : handleIp sr fw S env (.received env f name) = .ok ⟨fw', S, [], ps'', true⟩ := by
    rw [hhandle, answer_eq hp, hrespond, ok_bind, hhdr]
    rfl
  have hinterface : ps''.interface = name := by
    rw [hturned.same]
    exact hsame.interface.trans hstart.interface
  have hsend : ps''.sendIf = some name := by
    have hdyn : ps''.dynEntry = none := by
      rw [hturned.same]
      refine hsame.dynEntry.trans ?_
      simp only [DatagramState.received, DatagramState.leaveHdrRoom]
    have hrt : ps''.rtEntry = none := by
      rw [hturned.same]
      refine hsame.rtEntry.trans ?_
      simp only [DatagramState.received, DatagramState.leaveHdrRoom]
    have hok : ps''.okToSend = true := by
      rw [hturned.same]
    simp only [DatagramState.sendIf, DatagramState.route, hdyn, hrt, Option.map_none, hok, hinterface]
    rfl
  have hforward : ps''.forward = false := by
    rw [hturned.same]
    exact hsame.forward.trans hstart.forward
  have hresLen : ps''.resLen = ps'.resLen := by
    rw [hturned.same]
  have hbuffer' : ps''.response.length = maxPacLength := hturned.length.trans hbuffer
  obtain ⟨g, hsent, hg⟩ := srHandlepacket_answer (Nat.le_trans (by decide) hlen) hx.type hrun hforward
    (by rw [hinterface]; exact hx.received) hsend (by rw [hbuffer']; decide)
    (by rw [hresLen, hbuffer']; exact hhi)
  exact ⟨fw', g, hturned.answers hg hlo (by rw [hbuffer']; decide), hsent⟩

/-! What stands behind the IP header -/

theorem Answers.get_byte (hg : Answers f ps' g) {o : Nat} {b : UInt8}
    (hlo : sizeofEther + sizeofIp ≤ o) (hhi : o + 1 ≤ g.length) (hread : ps'.response[o]? = some b) :
    g.get ⟨o, 1⟩ = .ok b.toNat := by
  have hsame := congrArg (fun l => l[0]?) (hg.behind o 1 hlo hhi)
  simp only [slice_getElem?, Nat.zero_lt_one, if_true, Nat.add_zero, hread] at hsame
  exact Frame.get_of_getElem? hsame

theorem Answers.holdsChecksum_iff (hg : Answers f ps' g) {p o n : Nat}
    (hlo : sizeofEther + sizeofIp ≤ o) (ho : o ≤ p) (hp : p + 2 ≤ o + n) (hn : o + n ≤ g.length)
    (hn' : o + n ≤ ps'.response.length) : HoldsChecksum g p o n ↔ HoldsChecksum ps'.response p o n := by
  have hsame := hg.behind o n hlo hn
  exact ⟨fun h => h.congr ho hp hn hn' hsame.symm, fun h => h.congr ho hp hn' hn hsame⟩

end PWOSPF
