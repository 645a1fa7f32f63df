import PWOSPF.Forwarding.ForwardedDatagram
import PWOSPF.Framework.HopDistance
import PWOSPF.Subsystem.HopCounts
import PWOSPF.Subsystem.LsuRelay

/-!
# The way of a datagram

A datagram that is not for the routers themselves goes from one to the next, whatever their tables,
caches and firewalls are and even if these send it around in circles. Each router takes a hop off and
renews the checksum of the header; everything behind the Ethernet header is otherwise as it was sent.
-/

namespace PWOSPF

open Framework PacketField

/-- The frames differ at most in their Ethernet headers. -/
structure SameDatagram (f f' : Frame) : Prop where
  length : f'.length = f.length
  body : ∀ i, ipStart ≤ i → f'[i]? = f[i]?

/-- What a router makes of a datagram that it forwards. -/
structure HopTaken (f f' : Frame) : Prop where
  length : f'.length = f.length
  type : f'.get etherType = .ok (htons ethertypeIp).toNat
  ttl : ∃ t, f.get ipTtl = .ok (t + 1) ∧ f'.get ipTtl = .ok t
  csum : HoldsChecksum f' ipSum.offset ipStart sizeofIp
  rest : ∀ i, ipStart ≤ i → i ∉ [22, 24, 25] → f'[i]? = f[i]?

variable {sr : SrInstance} {fw : Firewall} {S : PwospfSubsys} {env : Env} {f f' f'' : Frame}
  {name : IfName} {h : IpHdr} {ps : DatagramState} {out : IpOutcome}

/-! ## Behind the Ethernet header -/

theorem SameDatagram.refl (f : Frame) : SameDatagram f f := ⟨rfl, fun _ _ => rfl⟩

theorem SameDatagram.trans (h : SameDatagram f f') (h' : SameDatagram f' f'') : SameDatagram f f'' :=
  ⟨h'.length.trans h.length, fun i hi => (h'.body i hi).trans (h.body i hi)⟩

theorem SameDatagram.of_store {o : Nat} {bs : List UInt8} (hstore : f.store o bs = .ok f')
    (hend : o + bs.length ≤ ipStart) : SameDatagram f f' := by
  obtain ⟨hin, rfl⟩ := Frame.store_eq_ok.mp hstore
  refine ⟨patch_length hin, ?_⟩
  intro i hi
  rw [patch_getElem? hin, if_neg]
  intro hpatched
  exact Nat.not_lt.mpr (Nat.le_trans hend hi) hpatched.2

theorem SameDatagram.take (h : SameDatagram f f') (n : Nat) : SameDatagram (f.take n) (f'.take n) := by
  constructor
  · rw [List.length_take, List.length_take, h.length]
  · intro i hi
    rw [List.getElem?_take, List.getElem?_take, h.body i hi]

theorem SameDatagram.slice (h : SameDatagram f f') {o : Nat} (ho : ipStart ≤ o) (n : Nat) :
    slice f' o n = slice f o n :=
  slice_congr fun i hlo _ => h.body i (Nat.le_trans ho hlo)

theorem SameDatagram.get (h : SameDatagram f f') {b : PacketField} (hb : ipStart ≤ b.offset) :
    f'.get b = f.get b :=
  Frame.get_of_slice (h.slice hb b.width) h.length

theorem Handoff.Delivers.sameDatagram {c : Handoff} (h : c.Delivers f) : SameDatagram c.frame f := by
  unfold Handoff.Delivers at h
  cases hawaits : c.awaits with
  | none =>
    rw [hawaits] at h
    exact h ▸ .refl c.frame
  | some dst =>
    rw [hawaits] at h
    obtain ⟨mac, hstore⟩ := h
    exact .of_store hstore (by rw [mac.length_toList]; decide)

theorem Handoff.Delivers.etherType {c : Handoff} (h : c.Delivers f) :
    f.get PacketField.etherType = c.frame.get PacketField.etherType := by
  unfold Handoff.Delivers at h
  cases hawaits : c.awaits with
  | none =>
    rw [hawaits] at h
    rw [h]
  | some dst =>
    rw [hawaits] at h
    obtain ⟨mac, hstore⟩ := h
    exact Frame.get_store_apart hstore (Or.inl (by rw [mac.length_toList]; decide))

theorem Handoff.delivers_exists {c : Handoff} (hroom : etherAddrLen ≤ c.frame.length) :
    ∃ f, c.Delivers f := by
  unfold Handoff.Delivers
  cases c.awaits with
  | none => exact ⟨c.frame, rfl⟩
  | some dst =>
    let mac : Mac := .replicate 6 0
    obtain ⟨f, hf⟩ : ∃ f, c.frame.store etherDhost.offset mac.toList = .ok f :=
      Frame.store_exists (by rw [mac.length_toList]; exact hroom)
    exact ⟨f, mac, hf⟩

/-- The copy leaves through `name` for `nhop`, to the MAC in the cache or to the one that ARP finds. -/
structure Handoff.HeadsFor (c : Handoff) (env : Env) (name : IfName) (nhop : InAddr) : Prop where
  iface : c.iface = name
  awaits : c.awaits = if (env.searchCache 0 nhop).isSome then none else some nhop
  addressed : ∀ mac, env.searchCache 0 nhop = some mac →
    slice c.frame etherDhost.offset etherAddrLen = mac.toList

/-- What `create_eth_hdr` makes of the response. -/
structure Enveloped (env : Env) (ps : DatagramState) (name : IfName) (nhop : InAddr) (c : Handoff) :
    Prop extends c.HeadsFor env name nhop where
  same : SameDatagram ps.outgoing c.frame
  type : c.frame.get etherType = .ok (htons ethertypeIp).toNat

/-- The copies that `sr_handlepacket` hands over after `handle_ip`. -/
def sendResponse (sr : SrInstance) (env : Env) (ps : DatagramState) (ethRec : Frame) :
    Exec (List Handoff) := do
  let (ps, copies, ok) ← createEthHdr sr env ps ethRec
  match ok, ps.sendIf with
  | true, some name => return copies ++ [⟨← ps.response.load 0 ps.resLen, name, none⟩]
  | _, _ => return copies

theorem load_take {n : Nat} {bs : List UInt8} (hload : f.load 0 n = .ok bs) :
    n ≤ f.length ∧ bs = f.take n := by
  rw [Frame.load, Nat.zero_add] at hload
  by_cases hn : n ≤ f.length
  · rw [if_pos hn] at hload
    cases hload
    exact ⟨hn, by rw [slice, List.drop_zero]⟩
  · rw [if_neg hn] at hload
    cases hload

theorem DatagramState.sendIf_of_route {nhop : InAddr} (hroute : ps.route = some (name, nhop)) :
    ps.sendIf = some name := by
  rw [sendIf, hroute]

theorem derefInterface_name {sif : SrIf} (hsif : derefInterface sr name = .ok sif) :
    sif.name = name := by
  rw [derefInterface] at hsif
  cases hget : srGetInterface sr name with
  | none =>
    rw [hget] at hsif
    cases hsif
  | some sif' =>
    rw [hget] at hsif
    cases hsif
    have hname := List.find?_some hget
    exact of_decide_eq_true hname

theorem sendResponse_forward (hforward : ps.forward = true) {nhop : InAddr}
    (hroute : ps.route = some (name, nhop)) (hlen : sizeofEther ≤ ps.resLen) {ethRec : Frame}
    {copies : List Handoff} (hrun : sendResponse sr env ps ethRec = .ok copies) :
    ∃ c, copies = [c] ∧ Enveloped env ps name nhop c := by
  obtain ⟨⟨ps', handed, ok⟩, hcreate, hrun⟩ := bind_eq_ok.mp hrun
  simp only [createEthHdr, hforward, if_true, hroute] at hcreate
  obtain ⟨sif, hsif, hcreate⟩ := bind_eq_ok.mp hcreate
  obtain ⟨eth₁, hshost, hcreate⟩ := bind_eq_ok.mp hcreate
  obtain ⟨eth₂, htype, hcreate⟩ := bind_eq_ok.mp hcreate
  have hname : sif.name = name := derefInterface_name hsif
  have hsame : SameDatagram ps.response eth₂ :=
    (SameDatagram.of_store hshost (by rw [sif.addr.length_toList]; decide)).trans
      (.of_store htype (by rw [leBytes_length]; decide))
  have hip : eth₂.get etherType = .ok (htons ethertypeIp).toNat :=
    Frame.get_set htype (UInt16.toNat_lt _)
  cases hcache : env.searchCache 0 nhop with
  | none =>
    simp only [hcache] at hcreate
    obtain ⟨bs, hload, hcreate⟩ := bind_eq_ok.mp hcreate
    cases hcreate
    cases hrun
    obtain ⟨hin, rfl⟩ := load_take hload
    refine ⟨_, rfl, ⟨hname, by rw [hcache]; rfl, ?_⟩, hsame.take ps.resLen, ?_⟩
    · intro mac hmac
      rw [hcache] at hmac
      cases hmac
    · exact (Frame.get_take hlen hin).trans hip
  | some mac =>
    simp only [hcache] at hcreate
    obtain ⟨eth₃, hdhost, hcreate⟩ := bind_eq_ok.mp hcreate
    cases hcreate
    have hsend : ({ ps with response := eth₃, forward := true } : DatagramState).sendIf = some name :=
      DatagramState.sendIf_of_route hroute
    dsimp only at hrun
    rw [hsend] at hrun
    obtain ⟨bs, hload, hrun⟩ := bind_eq_ok.mp hrun
    cases hrun
    obtain ⟨hin, rfl⟩ := load_take hload
    have hdst : SameDatagram eth₂ eth₃ := .of_store hdhost (by rw [mac.length_toList]; decide)
    refine ⟨_, rfl, ⟨rfl, by rw [hcache]; rfl, ?_⟩, (hsame.trans hdst).take ps.resLen, ?_⟩
    · intro mac' hmac'
      obtain rfl : mac = mac' := Option.some.inj (hcache.symm.trans hmac')
      obtain ⟨hfits, rfl⟩ := Frame.store_eq_ok.mp hdhost
      refine (slice_take _ (Nat.le_trans (by decide) hlen)).trans ?_
      refine (congrArg (slice _ _) mac.length_toList.symm).trans ?_
      exact slice_patch_self hfits
    · refine (Frame.get_take hlen hin).trans (Eq.trans ?_ hip)
      exact Frame.get_store_apart hdhost (Or.inl (by rw [mac.length_toList]; decide))

theorem sendResponse_exists (hforward : ps.forward = true) {nhop : InAddr}
    (hroute : ps.route = some (name, nhop)) (hif : (srGetInterface sr name).isSome = true)
    (hroom : sizeofEther ≤ ps.response.length) (hfits : ps.resLen ≤ ps.response.length)
    (ethRec : Frame) : ∃ copies, sendResponse sr env ps ethRec = .ok copies := by
  obtain ⟨sif, hsif⟩ := Option.isSome_iff_exists.mp hif
  have hderef : derefInterface sr name = .ok sif := by
    rw [derefInterface, hsif]
  obtain ⟨eth₁, hshost⟩ : ∃ eth, ps.response.store etherShost.offset sif.addr.toList = .ok eth :=
    Frame.store_exists (by rw [sif.addr.length_toList]; exact Nat.le_trans (by decide) hroom)
  have hlen₁ : eth₁.length = ps.response.length := Frame.store_length hshost
  obtain ⟨eth₂, htype⟩ : ∃ eth, eth₁.set etherType (htons ethertypeIp).toNat = .ok eth :=
    Frame.set_exists (by rw [hlen₁]; exact hroom) _
  have hlen₂ : eth₂.length = ps.response.length := (Frame.set_length htype).trans hlen₁
  have hload : ∀ eth : Frame, eth.length = ps.response.length → ∃ bs, eth.load 0 ps.resLen = .ok bs :=
    fun eth heth => ⟨_, if_pos (by rw [Nat.zero_add, heth]; exact hfits)⟩
  rw [sendResponse, createEthHdr, if_pos hforward, hroute]
  simp only [hderef, hshost, htype, ok_bind]
  cases hcache : env.searchCache 0 nhop with
  | none =>
    obtain ⟨bs, hbs⟩ := hload eth₂ hlen₂
    simp only [hbs, ok_bind]
    exact ⟨_, rfl⟩
  | some mac =>
    obtain ⟨eth₃, hdhost⟩ : ∃ eth, eth₂.store etherDhost.offset mac.toList = .ok eth :=
      Frame.store_exists (by rw [mac.length_toList, hlen₂]; exact Nat.le_trans (by decide) hroom)
    obtain ⟨bs, hbs⟩ := hload eth₃ ((Frame.store_length hdhost).trans hlen₂)
    have hsend : ({ ps with response := eth₃ } : DatagramState).sendIf = some name :=
      DatagramState.sendIf_of_route hroute
    simp only [hdhost, ok_bind, pure_bind, hsend, hbs]
    exact ⟨_, rfl⟩

/-! ## One router -/

theorem srHandlepacket_eq {t : Nat} (hlen : sizeofEther ≤ f.length) (htype : f.get etherType = .ok t)
    (hip : ntohs (.ofNat t) = ethertypeIp) (hrun : handleIp sr fw S env (.received env f name) = .ok out)
    (hret : out.ret = true) :
    srHandlepacket sr fw S env f name = (sendResponse sr env out.ps (f.take sizeofEther)).map
      fun copies => ⟨out.firewall, out.subsys, out.copies ++ copies⟩ := by
  rw [srHandlepacket, if_neg (Nat.not_lt.mpr hlen), htype, ok_bind, if_neg (not_not_intro hip), hrun,
    ok_bind, if_pos hret, sendResponse]
  cases createEthHdr sr env out.ps (f.take sizeofEther) with
  | error e => rfl
  | ok x =>
    obtain ⟨ps, copies, ok⟩ := x
    simp only [ok_bind]
    cases ok with
    | false => rfl
    | true =>
      cases ps.sendIf with
      | none => rfl
      | some name =>
        simp only
        cases ps.response.load 0 ps.resLen with
        | error e => rfl
        | ok bs =>
          simp only [ok_bind, List.append_assoc]
          rfl

/-- Packets that are sent on are IP packets. -/
theorem srHandlepacket_sent {r : Reception} (hrun : srHandlepacket sr fw S env f name = .ok r)
    (hsent : r.sent ≠ []) : ∃ out, handleIp sr fw S env (.received env f name) = .ok out ∧
      ((out.ret = false ∧ r.sent = out.copies) ∨
        (out.ret = true ∧ ∃ copies, sendResponse sr env out.ps (f.take sizeofEther) = .ok copies ∧
          r.sent = out.copies ++ copies)) := by
  by_cases hlen : f.length < sizeofEther
  · rw [srHandlepacket, if_pos hlen] at hrun
    cases hrun
    exact absurd rfl hsent
  · have hwhole := hrun
    rw [srHandlepacket, if_neg hlen] at hrun
    obtain ⟨t, htype, hrun⟩ := bind_eq_ok.mp hrun
    by_cases hip : ntohs (.ofNat t) = ethertypeIp
    · rw [if_neg (not_not_intro hip)] at hrun
      obtain ⟨out, hout, hrun⟩ := bind_eq_ok.mp hrun
      refine ⟨out, hout, ?_⟩
      cases hret : out.ret with
      | false =>
        rw [hret] at hrun
        cases hrun
        exact Or.inl ⟨rfl, rfl⟩
      | true =>
        rw [srHandlepacket_eq (Nat.not_lt.mp hlen) htype hip hout hret] at hwhole
        obtain ⟨copies, hcopies, rfl⟩ := map_eq_ok.mp hwhole
        exact Or.inr ⟨rfl, copies, hcopies, rfl⟩
    · rw [if_pos hip] at hrun
      cases hrun
      exact absurd rfl hsent

theorem loadIpHdr_ttl (hload : loadIpHdr f = .ok h) : f.get ipTtl = .ok h.ttl :=
  (loadIpHdr_fields hload).1

theorem expireOrForward_route (httl : 1 ≤ h.ttl) (hrun : expireOrForward fw S env h ps = .ok out) :
    out.ps.route = ps.route := by
  rw [expireOrForward, if_neg (Nat.not_lt.mpr httl)] at hrun
  obtain ⟨packet, -, hrun⟩ := bind_eq_ok.mp hrun
  obtain ⟨response, -, hrun⟩ := bind_eq_ok.mp hrun
  cases hrun
  rfl

theorem HopTaken.of_outgoing {packet : Frame} (hlen : sizeofEther + sizeofIp ≤ f.length) {t : Nat}
    (httl : f.get ipTtl = .ok (t + 1)) (hcounted : HopCounted f (t + 1) packet)
    (hout : ps.outgoing.length = f.length)
    (hsame : ∀ i, ipStart ≤ i → i < f.length → ps.outgoing[i]? = packet[i]?)
    (hwire : SameDatagram ps.outgoing f') (htype : f'.get etherType = .ok (htons ethertypeIp).toNat) :
    HopTaken f f' := by
  have hlen' : f'.length = packet.length := by rw [hwire.length, hout, hcounted.length]
  have hbytes : ∀ i, ipStart ≤ i → f'[i]? = packet[i]? := by
    intro i hi
    by_cases hin : i < f.length
    · rw [hwire.body i hi, hsame i hi hin]
    · rw [List.getElem?_eq_none (by rw [hlen', hcounted.length]; omega),
        List.getElem?_eq_none (by rw [hcounted.length]; omega)]
  have hpacket : SameDatagram packet f' := ⟨hlen', hbytes⟩
  refine ⟨hlen'.trans hcounted.length, htype, ⟨t, httl, ?_⟩, ?_, ?_⟩
  · rw [hpacket.get (by decide), hcounted.ttl, uint8_pred (Frame.get_lt httl),
      if_neg (Nat.succ_ne_zero t), Nat.add_sub_cancel]
  · exact hcounted.csum.congr (by decide) (by decide) (by rw [hcounted.length]; exact hlen)
      (by rw [hlen', hcounted.length]; exact hlen) (hpacket.slice (Nat.le_refl _) _)
  · exact fun i hi hout => (hbytes i hi).trans (hcounted.rest i hout)

theorem sendResponse_relayed {pos : Nat} {nhop : InAddr} {ethRec : Frame} {copies : List Handoff}
    {received : IfName} (hps : AtHeader env f received pos ps)
    (hpos : pos = sizeofEther ∨ pos = sizeofEther + sizeofIp) (hload : loadIpHdr f = .ok h)
    (httl : 1 ≤ h.ttl) (hroute : ps.route = some (name, nhop))
    (hend : expireOrForward fw S env h ps = .ok out)
    (hresponse : sendResponse sr env out.ps ethRec = .ok copies) :
    ∃ c, copies = [c] ∧ c.HeadsFor env name nhop ∧ (∃ f', c.Delivers f') ∧
      ∀ f', c.Delivers f' → HopTaken f f' := by
  have hlen := loadIpHdr_length hload
  have hget := loadIpHdr_ttl hload
  obtain ⟨packet, hcounted, hforward, hresLen, hout, hsame⟩ :=
    expireOrForward_copies hps hpos hlen hget httl hend
  have hkept : out.ps.route = ps.route := expireOrForward_route httl hend
  obtain ⟨c, rfl, henv⟩ := sendResponse_forward hforward (hkept.trans hroute)
    (by rw [hresLen]; exact Nat.le_trans (Nat.le_add_right _ _) hlen) hresponse
  have hroom : c.frame.length = f.length := henv.same.length.trans hout
  refine ⟨c, rfl, henv.toHeadsFor, c.delivers_exists (by rw [hroom]; exact Nat.le_trans (by decide) hlen),
    ?_⟩
  intro f' hdel
  obtain ⟨t, ht⟩ : ∃ t, h.ttl = t + 1 := ⟨h.ttl - 1, by omega⟩
  rw [ht] at hget hcounted
  exact .of_outgoing hlen hget hcounted hout hsame (henv.same.trans hdel.sameDatagram)
    (hdel.etherType.trans henv.type)

/-- Whatever a router sends of a datagram for others that has hops left is that datagram with a hop
less, once. -/
theorem sentOn_once {r : Reception} (hrun : srHandlepacket sr fw S env f name = .ok r)
    (hload : loadIpHdr f = .ok h) (hothers : ForOthers sr h.dst) (httl : 1 ≤ h.ttl) :
    r.sent = [] ∨ ∃ c, r.sent = [c] ∧ ∀ f', c.Delivers f' → HopTaken f f' := by
  by_cases hsent : r.sent = []
  · exact Or.inl hsent
  · refine Or.inr ?_
    obtain ⟨out, hip, hcases⟩ := srHandlepacket_sent hrun hsent
    obtain ⟨fw', ps, hrefused⟩ | ⟨fw', pos, ps, ⟨ifn, nhop⟩, hpos, hps, hroute, hend⟩ :=
      handleIp_others hip hload hothers
    · subst hrefused
      rcases hcases with ⟨-, hnone⟩ | ⟨hret, -⟩
      · exact absurd hnone hsent
      · cases hret
    · obtain ⟨-, -, hcopies, hret, -⟩ := expireOrForward_ok hend hps.forward
      obtain ⟨hret', -⟩ | ⟨-, copies, hresponse, hall⟩ := hcases
      · rw [hret] at hret'
        cases hret'
      · obtain ⟨c, rfl, -, -, htaken⟩ :=
          sendResponse_relayed hps hpos hload httl hroute hend hresponse
        exact ⟨c, by rw [hall, hcopies, List.nil_append], htaken⟩

/-- A datagram without options that the router has a way for and its firewall does not look at. -/
structure Passes (sr : SrInstance) (fw : Firewall) (S : PwospfSubsys) (f : Frame) (name : IfName)
    (h : IpHdr) (e : FtableEntry) : Prop where
  type : f.get etherType = .ok (htons ethertypeIp).toNat
  head : ∃ head, f.get ipHead = .ok head ∧ ipHl head * 4 ≤ sizeofIp
  load : loadIpHdr f = .ok h
  fits : f.length ≤ maxReceived
  others : ForOthers sr h.dst
  ttl : 1 ≤ h.ttl
  entry : getDynRoutingIf S h.dst = some e
  found : (srGetInterface sr e.interface).isSome = true
  received : isExternal fw name = true
  leaves : isInternal fw e.interface = false

theorem Passes.handleIp {e : FtableEntry} (hp : Passes sr fw S f name h e)
    (hps : AtHeader env f name sizeofEther ps) :
    ∃ ps', AtHeader env f name sizeofEther ps' ∧ ps'.route = some (e.interface, e.nextHop) ∧
      handleIp sr fw S env ps = expireOrForward fw S env h ps' := by
  obtain rfl : ps.packet = f := hps.packet
  have hlen := loadIpHdr_length hp.load
  obtain ⟨head, hhead, hshort⟩ := hp.head
  have hlong : ¬ ps.len < sizeofIp := by
    rw [hps.len]
    exact Nat.not_lt.mpr (Nat.le_sub_of_add_le' hlen)
  have hchosen := (hps.mark false).chooseRoute sr S h.dst
  have hroute : (({ ps with okToSend := false } : DatagramState).chooseRoute sr S h.dst).route =
      some (e.interface, e.nextHop) := by
    simp only [DatagramState.chooseRoute, hp.entry, DatagramState.route]
  refine ⟨_, hchosen, hroute, ?_⟩
  simp only [PWOSPF.handleIp, if_neg hlong, hhead, ok_bind,
    if_neg (Nat.not_lt.mpr hshort), hp.load, ownAddressLoop_none_iff.mpr hp.others, forwardIp, hroute,
    hchosen.interface, hp.received, if_true, hp.leaves, Bool.false_eq_true, if_false]

/-- It is sent to the next hop. -/
theorem Passes.sent {e : FtableEntry} (hp : Passes sr fw S f name h e) (env : Env) :
    ∃ c, srHandlepacket sr fw S env f name = .ok ⟨fw, S, [c]⟩ ∧
      c.HeadsFor env e.interface e.nextHop ∧ (∃ f', c.Delivers f') ∧
      ∀ f', c.Delivers f' → HopTaken f f' := by
  have hlen := loadIpHdr_length hp.load
  obtain ⟨ps, hchosen, hroute, hip⟩ := hp.handleIp (received_atHeader env f name)
  obtain ⟨out, hend⟩ := expireOrForward_exists fw S env hchosen.toUntouched hp.ttl hlen hp.fits
    (Nat.le_refl _)
  rw [hend] at hip
  obtain ⟨hfw, hS, hcopies, hret, hforward⟩ := expireOrForward_ok hend hchosen.forward
  obtain ⟨packet, -, -, hresLen, hout, -⟩ :=
    expireOrForward_copies hchosen (Or.inl rfl) hlen (loadIpHdr_ttl hp.load) hp.ttl hend
  have hfits : out.ps.resLen ≤ out.ps.response.length := by
    rw [DatagramState.outgoing, List.length_take] at hout
    omega
  have hether : sizeofEther ≤ out.ps.resLen := by
    rw [hresLen]
    exact Nat.le_trans (Nat.le_add_right _ _) hlen
  obtain ⟨copies, hresponse⟩ := @sendResponse_exists sr env e.interface out.ps (hforward.mpr hp.ttl)
    e.nextHop ((expireOrForward_route hp.ttl hend).trans hroute) hp.found
    (Nat.le_trans hether hfits) hfits (f.take sizeofEther)
  obtain ⟨c, rfl, hsent⟩ :=
    sendResponse_relayed hchosen (Or.inl rfl) hp.load hp.ttl hroute hend hresponse
  refine ⟨c, ?_, hsent⟩
  rw [srHandlepacket_eq (Nat.le_trans (Nat.le_add_right _ _) hlen) hp.type (by decide) hip hret,
    hresponse, hfw, hS, hcopies]
  rfl

/-! ## From router to router -/

/-- Some router sends `f` on as `f'`, through whichever interface and to whichever neighbor. -/
def SentOn (f f' : Frame) : Prop :=
  ∃ sr fw S env name h r, srHandlepacket sr fw S env f name = .ok r ∧ loadIpHdr f = .ok h ∧
    ForOthers sr h.dst ∧ 1 ≤ h.ttl ∧ ∃ c ∈ r.sent, c.Delivers f'

/-- What is left of `f` after `n` routers. -/
structure Travelled (n : Nat) (f g : Frame) : Prop where
  length : g.length = f.length
  ttl : ∀ t, f.get ipTtl = .ok t → ∃ t', g.get ipTtl = .ok t' ∧ t = t' + n
  csum : 0 < n → HoldsChecksum g ipSum.offset ipStart sizeofIp
  rest : ∀ i, ipStart ≤ i → i ∉ [22, 24, 25] → g[i]? = f[i]?

theorem SentOn.hopTaken (h : SentOn f f') : HopTaken f f' := by
  obtain ⟨sr, fw, S, env, name, h, r, hrun, hload, hothers, httl, c, hc, hdel⟩ := h
  obtain hnone | ⟨c', hone, htaken⟩ := sentOn_once hrun hload hothers httl
  · rw [hnone] at hc
    cases hc
  · rw [hone, List.mem_singleton] at hc
    exact htaken f' (hc ▸ hdel)

theorem Travelled.refl (f : Frame) : Travelled 0 f f :=
  ⟨rfl, fun t ht => ⟨t, ht, rfl⟩, fun hlt => absurd hlt (Nat.lt_irrefl 0), fun _ _ _ => rfl⟩

theorem Travelled.step {n : Nat} {g g' : Frame} (h : Travelled n f g) (hop : HopTaken g g') :
    Travelled (n + 1) f g' := by
  refine ⟨hop.length.trans h.length, ?_, fun _ => hop.csum, ?_⟩
  · intro t ht
    obtain ⟨t', ht', rfl⟩ := h.ttl t ht
    obtain ⟨k, hk, hnew⟩ := hop.ttl
    obtain rfl : t' = k + 1 := Except.ok.inj (ht'.symm.trans hk)
    exact ⟨k, hnew, by omega⟩
  · exact fun i hi hout => (hop.rest i hi hout).trans (h.rest i hi hout)

/-- Wherever a datagram for others is sent on to, in circles or not, it has one hop less for each router
it went through and the checksum of its new header, and is otherwise as it was sent. No router sends
more than one of it, and none goes further than the hops it had. -/
theorem datagram_travelled {n t : Nat} {g : Frame} (hrun : Walk SentOn n f g)
    (httl : f.get ipTtl = .ok t) :
    n ≤ t ∧ t ≤ 255 ∧ Travelled n f g ∧
      ∀ sr fw S env name h r, srHandlepacket sr fw S env g name = .ok r → loadIpHdr g = .ok h →
        ForOthers sr h.dst → 1 ≤ h.ttl → r.sent.length ≤ 1 := by
  have htravelled : Travelled n f g := by
    clear httl
    induction hrun with
    | nil f => exact .refl f
    | snoc _ hsent ih => exact ih.step hsent.hopTaken
  obtain ⟨t', -, hsum⟩ := htravelled.ttl t httl
  have hbound : t < 256 ^ 1 := Frame.get_lt httl
  refine ⟨by omega, by omega, htravelled, ?_⟩
  intro sr fw S env name h r hrun hload hothers hhops
  obtain hnone | ⟨c, hone, -⟩ := sentOn_once hrun hload hothers hhops
  · rw [hnone]
    exact Nat.zero_le 1
  · rw [hone]
    exact Nat.le_refl 1

section Demo

theorem datagram_travelled_demo : ∃ g, Walk SentOn 1 demoQuery.frame g ∧
    Travelled 1 demoQuery.frame g := by
  have hruns : (srHandlepacket demoGateway demoPolicy demoStart demoEnv demoQuery.frame
      eth0Interface).map (fun r => r.sent.map Handoff.awaits) = .ok [none] := by
    decide +kernel
  obtain ⟨r, hrun, hone⟩ := map_eq_ok.mp hruns
  obtain ⟨c, hc, hawaits⟩ := List.map_eq_singleton_iff.mp hone
  have hdel : c.Delivers c.frame := by
    rw [Handoff.Delivers, hawaits]
  have hload : loadIpHdr demoQuery.frame = .ok ⟨64, 17, 0x0900000a, 0x090010ac⟩ := by decide
  have hothers : ForOthers demoGateway 0x090010ac := by decide
  have hwalk : Walk SentOn 1 demoQuery.frame c.frame := .snoc (.nil _)
    ⟨_, _, _, _, _, _, r, hrun, hload, hothers, by decide, c, by rw [hc]; exact List.mem_singleton_self c,
      hdel⟩
  exact ⟨c.frame, hwalk, (datagram_travelled (t := 64) hwalk (by decide)).2.2.1⟩

end Demo

end PWOSPF
