import PWOSPF.Arp.Cache
import PWOSPF.Forwarding.Datagram

/-!
# ARP packets

`handle_ARP` and what it calls, with the part of `sr_handlepacket` that calls it. Whether a frame
goes out is decided there from a missing cache entry and `res_len`, which is 14 from the room that is
left for a header, whatever has been put into that room.
-/

namespace PWOSPF

open Framework PacketField

def arpReply : UInt16 := 2

/-- The headers are put together in memory of their own; `eth` is the header of the request. -/
def constructReply (ps : DatagramState) (mac : Mac) (eth : Frame) : Exec DatagramState := do
  let reply := Frame.fieldBytes [(arHrd, ← ps.packet.get arHrd), (arPro, ← ps.packet.get arPro),
    (arHln, etherAddrLen), (arPln, ← ps.packet.get arPln), (arOp, (htons arpReply).toNat),
    (arSha, leValue mac.toList), (arSip, ← ps.packet.get arTip), (arTha, ← ps.packet.get arSha),
    (arTip, ← ps.packet.get arSip)]
  let newEth := Frame.fieldBytes [(etherDhost, ← eth.get etherShost), (etherShost, leValue mac.toList),
    (etherType, (htons ethertypeArp).toNat)]
  let response ← ps.response.store ps.responsePos reply
  let responsePos := ps.responsePos - sizeofEther
  let response ← response.store responsePos newEth
  return { ps with
    response := response
    responsePos := responsePos
    resLen := sizeofEther + sizeofArp }

def gotRequest (sr : SrInstance) (ps : DatagramState) (eth : Frame) : Exec DatagramState :=
  match srGetInterface sr ps.interface with
  | none => .error .assertion
  | some iface => constructReply ps iface.addr eth

def macOf (bs : List UInt8) : Mac := .ofFn fun i => bs.getD i 0

/-- The clock goes on from the reading for the new entry. -/
def gotReply (cache : List ArpCacheEntry) (clock : Nat → Time) (ps : DatagramState) :
    Exec (List ArpCacheEntry × Option Mac) := do
  let sip := .ofNat (← ps.packet.get arSip)
  let sha ← ps.packet.load arSha.offset arSha.width
  return searchCache (← addCacheEntry cache clock sip (macOf sha)) (later (cache.length + 1) clock) sip

def handleArp (sr : SrInstance) (cache : List ArpCacheEntry) (clock : Nat → Time)
    (ps : DatagramState) (eth : Frame) :
    Exec (DatagramState × List ArpCacheEntry × Option Mac) := do
  if ps.len < sizeofArp then return ({ ps with resLen := 0 }, cache, none)
  let op := ntohs (.ofNat (← ps.packet.get arOp))
  if op = arpRequest then return (← gotRequest sr ps eth, cache, none)
  else if op = arpReply then return (ps, ← gotReply cache clock ps)
  else return (ps, cache, none)

/-- What `sr_send_packet` writes to the server. -/
def srSendPacket (sr : SrInstance) (buf : Frame) (iface : IfName) : List Transmission :=
  if buf.length < sizeofEther then []
  else
    match srGetInterface sr iface with
    | none => []
    | some sif =>
      if slice buf etherShost.offset etherAddrLen = sif.addr.toList then [⟨buf, iface⟩] else []

structure ArpReception where
  cache : List ArpCacheEntry
  sent : List Transmission
  deriving DecidableEq, Repr

/-- `sr_handlepacket` for ARP packets. -/
def srHandlepacketArp (sr : SrInstance) (cache : List ArpCacheEntry) (env : Env) (packet : Frame)
    (interface : IfName) : Exec ArpReception := do
  if packet.length < sizeofEther then return ⟨cache, []⟩
  if ntohs (.ofNat (← packet.get etherType)) ≠ ethertypeArp then return ⟨cache, []⟩
  let (ps, cache, newEntry) ← handleArp sr cache env.clock (.received env packet interface) packet
  if newEntry = none ∧ ps.resLen > 0 then
    return ⟨cache, srSendPacket sr (← ps.response.load 0 ps.resLen) interface⟩
  else return ⟨cache, []⟩

/-! ## Kinds of frames -/

/-- The frame has the ARP type, and an ARP header if it is long enough. -/
def IsArp (f : Frame) : Prop :=
  ∃ type, f.get etherType = .ok type ∧ ntohs (.ofNat type) = ethertypeArp

def HasArp (op : UInt16) (f : Frame) : Prop :=
  sizeofEther + sizeofArp ≤ f.length ∧ ∃ v, f.get arOp = .ok v ∧ ntohs (.ofNat v) = op

variable {sr : SrInstance} {cache : List ArpCacheEntry} {env : Env} {f : Frame} {name : IfName}
  {iface : SrIf}

/-- The fields of an ARP header can be read. -/
theorem get_of_arp {b : PacketField} (hlen : sizeofEther + sizeofArp ≤ f.length)
    (hb : b.offset + b.width ≤ 42) : ∃ v, f.get b = .ok v :=
  Frame.get_exists (Nat.le_trans hb hlen)

theorem IsArp.length (h : IsArp f) : sizeofEther ≤ f.length := by
  obtain ⟨type, htype, -⟩ := h
  exact Frame.get_bounds htype

/-- The first fourteen bytes of the response buffer when nothing has been put there. -/
def leftOver (sr : SrInstance) (env : Env) (name : IfName) : List Transmission :=
  srSendPacket sr ((List.range sizeofEther).map env.bytes) name

theorem srHandlepacketArp_eq (h : IsArp f) : srHandlepacketArp sr cache env f name = do
    let (ps, cache, newEntry) ← handleArp sr cache env.clock (.received env f name) f
    if newEntry = none ∧ ps.resLen > 0 then
      return ⟨cache, srSendPacket sr (← ps.response.load 0 ps.resLen) name⟩
    else return ⟨cache, []⟩ := by
  have hlen := h.length
  obtain ⟨type, htype, harp⟩ := h
  rw [srHandlepacketArp, if_neg (Nat.not_lt.mpr hlen)]
  simp only [htype, ok_bind, harp, ne_eq, not_true_eq_false, if_false]

/-- A frame that is too short is printed about. -/
theorem srHandlepacketArp_short (h : IsArp f) (hlen : f.length < sizeofEther + sizeofArp) :
    srHandlepacketArp sr cache env f name = .ok ⟨cache, []⟩ := by
  have hshort : (DatagramState.received env f name).len < sizeofArp := by
    show f.length - sizeofEther < sizeofArp
    rw [sizeofEther, sizeofArp] at *
    omega
  rw [srHandlepacketArp_eq h, handleArp, if_pos hshort]
  rfl

/-! ## The reply to a request -/

/-- A packet that consists of adjacent fields. -/
theorem get_fieldBytes {l : List (PacketField × Nat)} {a : PacketField} {v : Nat}
    (hl : Frame.Adjacent 0 l) (hapart : (l.map Prod.fst).Pairwise PacketField.Apart)
    (hmem : (a, v) ∈ l) (hv : v < 256 ^ a.width) : Frame.get (Frame.fieldBytes l) a = .ok v := by
  let f : Frame := List.replicate (Frame.fieldBytes l).length 0
  have hassign : f.assign l = .ok (patch f 0 (Frame.fieldBytes l)) :=
    Frame.assign_adjacent hl (by simp [f])
  have hall : patch f 0 (Frame.fieldBytes l) = Frame.fieldBytes l := by simp [f, patch]
  rw [hall] at hassign
  exact Frame.get_assign hassign hapart hmem hv

/-- The header fields of a reply, of which these are taken from the request or from the interface. -/
def replyFields (shost mac hrd pro pln sip tha tip : Nat) : List (PacketField × Nat) :=
  [(etherDhost, shost), (etherShost, mac), (etherType, (htons ethertypeArp).toNat), (arHrd, hrd),
    (arPro, pro), (arHln, etherAddrLen), (arPln, pln), (arOp, (htons arpReply).toNat), (arSha, mac),
    (arSip, sip), (arTha, tha), (arTip, tip)]

theorem replyFields_length (shost mac hrd pro pln sip tha tip : Nat) :
    (Frame.fieldBytes (replyFields shost mac hrd pro pln sip tha tip)).length =
      sizeofEther + sizeofArp := by
  simp [Frame.fieldBytes, replyFields, etherDhost, etherShost, etherType, arHrd, arPro, arHln, arPln,
    arOp, arSha, arSip, arTha, arTip, sizeofEther, sizeofArp]

theorem get_replyFields {shost mac hrd pro pln sip tha tip : Nat} {a : PacketField} {v : Nat}
    (hmem : (a, v) ∈ replyFields shost mac hrd pro pln sip tha tip) (hv : v < 256 ^ a.width) :
    Frame.get (Frame.fieldBytes (replyFields shost mac hrd pro pln sip tha tip)) a = .ok v := by
  apply get_fieldBytes _ _ hmem hv
  · simp [replyFields, Frame.Adjacent, etherDhost, etherShost, etherType, arHrd, arPro, arHln, arPln,
      arOp, arSha, arSip, arTha, arTip]
  · show [etherDhost, etherShost, etherType, arHrd, arPro, arHln, arPln, arOp, arSha, arSip, arTha,
      arTip].Pairwise PacketField.Apart
    decide

/-- A header in front of what was stored behind the room for it. -/
theorem take_patch_patch {R hdr body : List UInt8} (h : hdr.length + body.length ≤ R.length) :
    (patch (patch R hdr.length body) 0 hdr).take (hdr.length + body.length) = hdr ++ body := by
  have hin : hdr.length ≤ R.length := by omega
  simp [patch, List.take_append, List.length_take, Nat.min_eq_left hin]

/-- A well-formed reply, for Ethernet and IP, to the sender of `f`. -/
structure WellFormedReply (iface : SrIf) (f reply : Frame) : Prop where
  length : reply.length = sizeofEther + sizeofArp
  dhost : reply.get etherDhost = f.get etherShost
  shost : reply.get etherShost = .ok (leValue iface.addr.toList)
  type : reply.get etherType = .ok (htons ethertypeArp).toNat
  hrd : reply.get arHrd = .ok (htons arpHrdEth).toNat
  pro : reply.get arPro = .ok (htons arpProIp).toNat
  hln : reply.get arHln = .ok etherAddrLen
  pln : reply.get arPln = .ok arpIpLen
  op : reply.get arOp = .ok (htons arpReply).toNat
  sha : reply.get arSha = .ok (leValue iface.addr.toList)
  sip : reply.get arSip = f.get arTip
  tha : reply.get arTha = f.get arSha
  tip : reply.get arTip = f.get arSip

/-- The request is one for addresses of Ethernet and IP, whatever it says of the length of the
former. -/
structure ForEthernetIp (f : Frame) : Prop where
  hrd : f.get arHrd = .ok (htons arpHrdEth).toNat
  pro : f.get arPro = .ok (htons arpProIp).toNat
  pln : f.get arPln = .ok arpIpLen

theorem leValue_mac_lt (mac : Mac) : leValue mac.toList < 256 ^ 6 := by
  have hlt := leValue_lt mac.toList
  rwa [Vector.length_toList] at hlt

/-- Whatever the request is like, its reply takes over three fields that have to be right. -/
theorem constructReply_wellFormed {reply : Frame} {hrd pro pln shost sip tha tip : Nat}
    (hhrd : f.get arHrd = .ok hrd) (hpro : f.get arPro = .ok pro) (hpln : f.get arPln = .ok pln)
    (hshost : f.get etherShost = .ok shost) (hsip : f.get arTip = .ok sip)
    (htha : f.get arSha = .ok tha) (htip : f.get arSip = .ok tip)
    (hreply : reply = Frame.fieldBytes
      (replyFields shost (leValue iface.addr.toList) hrd pro pln sip tha tip)) :
    WellFormedReply iface f reply ↔ ForEthernetIp f := by
  have hget : ∀ {a : PacketField} {v : Nat},
      (a, v) ∈ replyFields shost (leValue iface.addr.toList) hrd pro pln sip tha tip →
        v < 256 ^ a.width → reply.get a = .ok v := by
    intro a v hmem hv
    rw [hreply]
    exact get_replyFields hmem hv
  have hmac := leValue_mac_lt iface.addr
  have hshost' : shost < 256 ^ 6 := Frame.get_lt hshost
  have hsip' : sip < 256 ^ 4 := Frame.get_lt hsip
  have htha' : tha < 256 ^ 6 := Frame.get_lt htha
  have htip' : tip < 256 ^ 4 := Frame.get_lt htip
  have hrd' := hget (a := arHrd) (v := hrd) (by simp [replyFields]) (Frame.get_lt hhrd)
  have pro' := hget (a := arPro) (v := pro) (by simp [replyFields]) (Frame.get_lt hpro)
  have pln' := hget (a := arPln) (v := pln) (by simp [replyFields]) (Frame.get_lt hpln)
  constructor
  · intro h
    exact ⟨hhrd.trans (hrd'.symm.trans h.hrd), hpro.trans (pro'.symm.trans h.pro),
      hpln.trans (pln'.symm.trans h.pln)⟩
  · intro h
    refine ⟨?_, ?_, ?_, ?_, ?_, ?_, ?_, ?_, ?_, ?_, ?_, ?_, ?_⟩
    · rw [hreply, replyFields_length]
    · exact (hget (a := etherDhost) (by simp [replyFields]) hshost').trans hshost.symm
    · exact hget (by simp [replyFields]) hmac
    · exact hget (by simp [replyFields]) (by decide)
    · exact hrd'.trans (hhrd.symm.trans h.hrd)
    · exact pro'.trans (hpro.symm.trans h.pro)
    · exact hget (by simp [replyFields]) (by decide)
    · exact pln'.trans (hpln.symm.trans h.pln)
    · exact hget (by simp [replyFields]) (by decide)
    · exact hget (by simp [replyFields]) hmac
    · exact (hget (a := arSip) (by simp [replyFields]) hsip').trans hsip.symm
    · exact (hget (a := arTha) (by simp [replyFields]) htha').trans htha.symm
    · exact (hget (a := arTip) (by simp [replyFields]) htip').trans htip.symm

/-- The headers that `constructReply` puts together, as one packet. -/
theorem constructReply_eq {ps : DatagramState} (mac : Mac) {hrd pro pln shost sip tha tip : Nat}
    (hhrd : ps.packet.get arHrd = .ok hrd) (hpro : ps.packet.get arPro = .ok pro)
    (hpln : ps.packet.get arPln = .ok pln) (hshost : f.get etherShost = .ok shost)
    (hsip : ps.packet.get arTip = .ok sip) (htha : ps.packet.get arSha = .ok tha)
    (htip : ps.packet.get arSip = .ok tip) (hpos : ps.responsePos = sizeofEther)
    (hroom : sizeofEther + sizeofArp ≤ ps.response.length) :
    ∃ ps', constructReply ps mac f = .ok ps' ∧ ps'.resLen = sizeofEther + sizeofArp ∧
      ps'.response.load 0 ps'.resLen =
        .ok (Frame.fieldBytes (replyFields shost (leValue mac.toList) hrd pro pln sip tha tip)) := by
  let reply := Frame.fieldBytes [(arHrd, hrd), (arPro, pro), (arHln, etherAddrLen), (arPln, pln),
    (arOp, (htons arpReply).toNat), (arSha, leValue mac.toList), (arSip, sip), (arTha, tha),
    (arTip, tip)]
  let newEth := Frame.fieldBytes [(etherDhost, shost), (etherShost, leValue mac.toList),
    (etherType, (htons ethertypeArp).toNat)]
  have hreply : reply.length = sizeofArp := by
    simp [reply, Frame.fieldBytes, arHrd, arPro, arHln, arPln, arOp, arSha, arSip, arTha, arTip,
      sizeofArp]
  have heth : newEth.length = sizeofEther := by
    simp [newEth, Frame.fieldBytes, etherDhost, etherShost, etherType, sizeofEther]
  let stored : Frame := patch ps.response sizeofEther reply
  let response : Frame := patch stored 0 newEth
  have hstore : ps.response.store ps.responsePos reply = .ok stored := by
    rw [hpos]
    exact Frame.store_eq_ok.mpr ⟨by rw [hreply]; exact hroom, rfl⟩
  have hlen := Frame.store_length hstore
  have hstore' : stored.store (ps.responsePos - sizeofEther) newEth = .ok response := by
    rw [hpos, Nat.sub_self]
    refine Frame.store_eq_ok.mpr ⟨?_, rfl⟩
    rw [hlen, heth]
    omega
  refine ⟨{ ps with
      response := response
      responsePos := ps.responsePos - sizeofEther
      resLen := sizeofEther + sizeofArp }, ?_, rfl, ?_⟩
  · rw [constructReply]
    simp only [hhrd, hpro, hpln, hsip, htha, htip, hshost, ok_bind]
    rw [hstore, ok_bind, hstore', ok_bind]
    rfl
  · have hin : 0 + (sizeofEther + sizeofArp) ≤ response.length := by
      rw [Frame.store_length hstore', hlen, Nat.zero_add]
      exact hroom
    show response.load 0 (sizeofEther + sizeofArp) = _
    rw [Frame.load, if_pos hin, slice, List.drop_zero]
    have hroom' : newEth.length + reply.length ≤ ps.response.length := by rwa [heth, hreply]
    have hall := take_patch_patch hroom'
    rw [heth, hreply] at hall
    rw [hall]
    rfl

/-- The server gets a frame if its source is the MAC of the interface. -/
theorem srSendPacket_eq {buf : Frame} (hlen : sizeofEther ≤ buf.length)
    (hif : srGetInterface sr name = some iface) : srSendPacket sr buf name =
      if slice buf etherShost.offset etherAddrLen = iface.addr.toList then [⟨buf, name⟩] else [] := by
  rw [srSendPacket, if_neg (Nat.not_lt.mpr hlen), hif]

theorem srSendPacket_reply (hif : srGetInterface sr name = some iface)
    (shost hrd pro pln sip tha tip : Nat) :
    srSendPacket sr (Frame.fieldBytes
        (replyFields shost (leValue iface.addr.toList) hrd pro pln sip tha tip)) name =
      [⟨Frame.fieldBytes (replyFields shost (leValue iface.addr.toList) hrd pro pln sip tha tip),
        name⟩] := by
  have hlen := replyFields_length shost (leValue iface.addr.toList) hrd pro pln sip tha tip
  have hshost := get_replyFields (a := etherShost) (v := leValue iface.addr.toList)
    (show _ ∈ replyFields shost (leValue iface.addr.toList) hrd pro pln sip tha tip by
      simp [replyFields]) (leValue_mac_lt iface.addr)
  have hbytes := Frame.leBytes_of_get hshost
  have hmac := leBytes_leValue iface.addr.toList
  rw [Vector.length_toList] at hmac
  rw [srSendPacket_eq (by rw [hlen]; decide) hif]
  exact if_pos (hbytes.symm.trans hmac)

/-- A request is answered. -/
theorem srHandlepacketArp_request (h : IsArp f) (hreq : HasArp arpRequest f)
    (hif : srGetInterface sr name = some iface) :
    ∃ reply, srHandlepacketArp sr cache env f name = .ok ⟨cache, [⟨reply, name⟩]⟩ ∧
      (WellFormedReply iface f reply ↔ ForEthernetIp f) := by
  obtain ⟨hlen, op, hop, hrequest⟩ := hreq
  obtain ⟨hrd, hhrd⟩ := get_of_arp (b := arHrd) hlen (by decide)
  obtain ⟨pro, hpro⟩ := get_of_arp (b := arPro) hlen (by decide)
  obtain ⟨pln, hpln⟩ := get_of_arp (b := arPln) hlen (by decide)
  obtain ⟨shost, hshost⟩ := get_of_arp (b := etherShost) hlen (by decide)
  obtain ⟨sip, hsip⟩ := get_of_arp (b := arTip) hlen (by decide)
  obtain ⟨tha, htha⟩ := get_of_arp (b := arSha) hlen (by decide)
  obtain ⟨tip, htip⟩ := get_of_arp (b := arSip) hlen (by decide)
  have hps := received_untouched env f name
  obtain ⟨ps, hreceived⟩ : ∃ ps, DatagramState.received env f name = ps := ⟨_, rfl⟩
  have hpos : ps.responsePos = sizeofEther := by rw [← hreceived]; rfl
  rw [srHandlepacketArp_eq h, hreceived]
  rw [hreceived] at hps
  rw [← hps.packet] at hhrd hpro hpln hsip htha htip hop
  obtain ⟨ps', hconstruct, hres, hload⟩ := constructReply_eq iface.addr hhrd hpro hpln
    hshost hsip htha htip hpos (by rw [hps.response]; decide)
  have hgot : gotRequest sr ps f = .ok ps' := by
    rw [gotRequest, hps.interface, hif]
    exact hconstruct
  have hlong : ¬ ps.len < sizeofArp := by
    rw [hps.len]
    omega
  have hhandle : handleArp sr cache env.clock ps f = .ok (ps', cache, none) := by
    rw [handleArp, if_neg hlong]
    simp only [hop, ok_bind, hrequest, if_true, hgot]
    rfl
  have hpositive : ps'.resLen > 0 := by
    rw [hres]
    decide
  rw [hps.packet] at hhrd hpro hpln hsip htha htip
  refine ⟨_, ?_, constructReply_wellFormed hhrd hpro hpln hshost hsip htha htip rfl⟩
  rw [hhandle, ok_bind]
  simp only [hpositive, and_self, if_true, hload, ok_bind, pure_eq_ok]
  rw [srSendPacket_reply hif]

/-! ## Replies and other frames -/

/-- The response when nothing has been put into it: the room for a header. -/
theorem load_leftOver (env : Env) (f : Frame) (name : IfName) :
    (DatagramState.received env f name).response.load 0
      (DatagramState.received env f name).resLen = .ok ((List.range sizeofEther).map env.bytes) := by
  obtain ⟨ps, hreceived⟩ : ∃ ps, DatagramState.received env f name = ps := ⟨_, rfl⟩
  have hres : ps.resLen = sizeofEther := by rw [← hreceived]; rfl
  have hps := received_untouched env f name
  have hbuf : ps.response = (List.range maxPacLength).map env.bytes := by
    rw [← hreceived]
    simp only [DatagramState.received, DatagramState.leaveHdrRoom]
  rw [hreceived] at hps ⊢
  rw [hres, Frame.load, if_pos (by rw [hps.response]; decide), hbuf, slice, List.drop_zero,
    ← List.map_take, List.take_range]
  rfl

/-- A frame with another operation sends what is in the room for a header. -/
theorem srHandlepacketArp_other (h : IsArp f) (hlen : sizeofEther + sizeofArp ≤ f.length)
    (hreq : ¬ HasArp arpRequest f) (hrep : ¬ HasArp arpReply f) :
    srHandlepacketArp sr cache env f name = .ok ⟨cache, leftOver sr env name⟩ := by
  have hload := load_leftOver env f name
  have hps := received_untouched env f name
  obtain ⟨ps, hreceived⟩ : ∃ ps, DatagramState.received env f name = ps := ⟨_, rfl⟩
  have hres : ps.resLen > 0 := by rw [← hreceived]; exact Nat.succ_pos 13
  rw [srHandlepacketArp_eq h, hreceived]
  rw [hreceived] at hps hload
  obtain ⟨op, hop⟩ := get_of_arp (b := arOp) hlen (by decide)
  have hlong : ¬ ps.len < sizeofArp := by
    rw [hps.len]
    omega
  have hhandle : handleArp sr cache env.clock ps f = .ok (ps, cache, none) := by
    rw [handleArp, if_neg hlong, hps.packet]
    simp only [hop, ok_bind]
    rw [if_neg fun hop' => hreq ⟨hlen, op, hop, hop'⟩, if_neg fun hop' => hrep ⟨hlen, op, hop, hop'⟩]
    rfl
  rw [hhandle, ok_bind]
  simp only [hres, and_self, if_true, hload, ok_bind, pure_eq_ok]
  rfl

/-- A reply is offered to the cache, and is sent something if it is not found there afterwards. -/
theorem srHandlepacketArp_reply (h : IsArp f) (hrep : HasArp arpReply f) {sip : Nat}
    (hsip : f.get arSip = .ok sip) :
    srHandlepacketArp sr cache env f name = do
      let cache' ← addCacheEntry cache env.clock (.ofNat sip) (macOf (slice f arSha.offset arSha.width))
      let (cache', found) := searchCache cache' (later (cache.length + 1) env.clock) (.ofNat sip)
      return ⟨cache', if found = none then leftOver sr env name else []⟩ := by
  obtain ⟨hlen, op, hop, hreply⟩ := hrep
  have hload := load_leftOver env f name
  have hps := received_untouched env f name
  obtain ⟨ps, hreceived⟩ : ∃ ps, DatagramState.received env f name = ps := ⟨_, rfl⟩
  have hres : ps.resLen > 0 := by rw [← hreceived]; exact Nat.succ_pos 13
  rw [srHandlepacketArp_eq h, hreceived]
  rw [hreceived] at hps hload
  have hlong : ¬ ps.len < sizeofArp := by
    rw [hps.len]
    omega
  have hsha : f.load arSha.offset arSha.width = .ok (slice f arSha.offset arSha.width) := by
    rw [Frame.load, if_pos (Nat.le_trans (by decide) hlen)]
  have hne : ¬ arpReply = arpRequest := by decide
  rw [handleArp, if_neg hlong, hps.packet]
  simp only [hop, ok_bind, hreply, hne, if_false, if_true, gotReply, hps.packet, hsip, hsha]
  cases hadd : addCacheEntry cache env.clock (.ofNat sip) (macOf (slice f arSha.offset arSha.width)) with
  | error e => rfl
  | ok cache' =>
    simp only [ok_bind, pure_eq_ok]
    by_cases hfound :
        (searchCache cache' (later (cache.length + 1) env.clock) (.ofNat sip)).2 = none
    · simp only [hfound, hres, and_self, if_true, hload, ok_bind]
      rfl
    · simp only [hfound, false_and, if_false]

/-! ## What ARP packets may do -/

/-- Nothing comes in, and only entries that have expired go. -/
def LeftAlone (clock : Nat → Time) (cache cache' : List ArpCacheEntry) : Prop :=
  cache'.Sublist cache ∧ ∀ e ∈ cache, e ∉ cache' → ∃ n, e.timenotvalid < clock n

section LeftAlone

variable {clock : Nat → Time} {cache' cache'' : List ArpCacheEntry}

theorem LeftAlone.refl (clock : Nat → Time) (cache : List ArpCacheEntry) :
    LeftAlone clock cache cache := ⟨List.Sublist.refl _, fun _ he hne => absurd he hne⟩

theorem LeftAlone.trans (h : LeftAlone clock cache cache') (h' : LeftAlone clock cache' cache'') :
    LeftAlone clock cache cache'' := by
  refine ⟨h'.1.trans h.1, fun e he hne => ?_⟩
  by_cases hmid : e ∈ cache'
  · exact h'.2 e hmid hne
  · exact h.2 e he hmid

theorem LeftAlone.filter (h : LeftAlone clock cache cache') (p : ArpCacheEntry → Bool) :
    LeftAlone clock (cache.filter p) (cache'.filter p) := by
  refine ⟨h.1.filter p, fun e he hne => ?_⟩
  obtain ⟨he, hp⟩ := List.mem_filter.mp he
  exact h.2 e he fun he' => hne (List.mem_filter.mpr ⟨he', hp⟩)

theorem LeftAlone.unexpired (clock : Nat → Time) (k : Nat) (cache : List ArpCacheEntry) :
    LeftAlone clock cache (unexpired (later k clock) cache) := by
  refine ⟨unexpired_sublist _ _, fun e he hne => ?_⟩
  by_contra hnone
  push Not at hnone
  exact hne (mem_unexpired_of_le he fun i _ => hnone (i + k))

end LeftAlone

def otherThan (ip : InAddr) (e : ArpCacheEntry) : Bool := decide (e.ipAdd ≠ ip)

/-- The frame `f` came in by `iface`. A request gets one well-formed reply and nothing else is sent;
a reply has no effect but on the entry for its sender, and other frames have none. -/
structure HandledRight (clock : Nat → Time) (cache : List ArpCacheEntry) (iface : SrIf)
    (name : IfName) (f : Frame) (out : ArpReception) : Prop where
  request : HasArp arpRequest f → ∃ reply, out.sent = [⟨reply, name⟩] ∧ WellFormedReply iface f reply
  silent : ¬ HasArp arpRequest f → out.sent = []
  reply : HasArp arpReply f → ∀ sip, f.get arSip = .ok sip →
    LeftAlone clock (cache.filter (otherThan (.ofNat sip))) (out.cache.filter (otherThan (.ofNat sip)))
  other : ¬ HasArp arpReply f → LeftAlone clock cache out.cache

/-- The walk of `add_cache_entry` leaves an entry for the address. -/
def Known (clock : Nat → Time) (cache : List ArpCacheEntry) (ip : InAddr) : Prop :=
  ∃ e ∈ unexpired clock cache, e.ipAdd = ip

/-- The entry for the sender of a reply, an old one or a new one, does not expire before `got_Reply`
looks for it. -/
def SenderLasts (clock : Nat → Time) (cache : List ArpCacheEntry) (ip : InAddr) : Prop :=
  Known (later (cache.length + 1) clock) (unexpired clock cache) ip ∨
    ¬ Known clock cache ip ∧
      clock ((unexpired clock cache).length + (cache.length + 1)) ≤ clock cache.length + arpTimeout

/-- The fresh memory of the response holds the MAC of the interface where the source of a frame
stands. -/
def StaleSource (env : Env) (iface : SrIf) : Prop :=
  slice ((List.range sizeofEther).map env.bytes) etherShost.offset etherAddrLen = iface.addr.toList

/-- No frame of the kinds that go wrong. -/
structure Harmless (env : Env) (cache : List ArpCacheEntry) (iface : SrIf) (f : Frame) : Prop where
  request : HasArp arpRequest f → ForEthernetIp f
  sender : HasArp arpReply f → f.get arSip = .ok 0 → Known env.clock cache 0
  lasts : HasArp arpReply f → ∀ sip, f.get arSip = .ok sip →
    SenderLasts env.clock cache (.ofNat sip) ∨ ¬ StaleSource env iface
  other : sizeofEther + sizeofArp ≤ f.length → ¬ HasArp arpRequest f → ¬ HasArp arpReply f →
    ¬ StaleSource env iface

theorem leftOver_eq_nil (hif : srGetInterface sr name = some iface) :
    leftOver sr env name = [] ↔ ¬ StaleSource env iface := by
  have hlen : sizeofEther ≤ ((List.range sizeofEther).map env.bytes).length := by
    rw [List.length_map, List.length_range]
  rw [leftOver, srSendPacket_eq hlen hif, StaleSource]
  by_cases hstale :
      slice ((List.range sizeofEther).map env.bytes) etherShost.offset etherAddrLen = iface.addr.toList
  · rw [if_pos hstale]
    simp [hstale]
  · rw [if_neg hstale]
    simp [hstale]

theorem HasArp.of_length {op : UInt16} (hlen : f.length < sizeofEther + sizeofArp) : ¬ HasArp op f :=
  fun h => absurd h.1 (Nat.not_le.mpr hlen)

theorem HasArp.unique {op op' : UInt16} (h : HasArp op f) (h' : HasArp op' f) : op = op' := by
  obtain ⟨-, v, hv, rfl⟩ := h
  obtain ⟨-, v', hv', rfl⟩ := h'
  rw [hv] at hv'
  cases hv'
  rfl

theorem known_concat (clock : Nat → Time) (cache : List ArpCacheEntry) (ip : InAddr) (mac : Mac)
    (t : Time) :
    Known clock (cache ++ [⟨ip, mac, t⟩]) ip ↔ Known clock cache ip ∨ clock cache.length ≤ t := by
  rw [Known, Known, unexpired_concat]
  by_cases hexp : t < clock cache.length
  · rw [if_pos hexp, List.append_nil]
    exact (or_iff_left (Int.not_le.mpr hexp)).symm
  · rw [if_neg hexp]
    exact iff_of_true ⟨_, List.mem_append_right _ (List.mem_singleton_self _), rfl⟩
      (Or.inr (Int.not_lt.mp hexp))

theorem filter_otherThan_self (ip : InAddr) (mac : Mac) (t : Time) :
    [(⟨ip, mac, t⟩ : ArpCacheEntry)].filter (otherThan ip) = [] := by
  simp [otherThan]

/-- What a reply leaves in the cache, and whether its sender is found there. -/
theorem gotReply_cases (clock : Nat → Time) (cache : List ArpCacheEntry) (ip : InAddr) (mac : Mac) :
    (ip = 0 ∧ ¬ Known clock cache ip ∧ addCacheEntry cache clock ip mac = .error .assertion) ∨
      ((ip ≠ 0 ∨ Known clock cache ip) ∧ ∃ cache', addCacheEntry cache clock ip mac = .ok cache' ∧
        ((searchCache cache' (later (cache.length + 1) clock) ip).2 ≠ none ↔
          SenderLasts clock cache ip) ∧
        LeftAlone clock (cache.filter (otherThan ip))
          ((searchCache cache' (later (cache.length + 1) clock) ip).1.filter (otherThan ip))) := by
  have hclock := LeftAlone.unexpired clock 0 cache
  have hgone := LeftAlone.unexpired clock (cache.length + 1) (unexpired clock cache)
  have hfound : ∀ cache', (searchCache cache' (later (cache.length + 1) clock) ip).2 ≠ none ↔
      Known (later (cache.length + 1) clock) cache' ip := by
    intro cache'
    rw [ne_eq, searchCache_eq_none, Known]
    push Not
    rfl
  cases hsearch : (searchCache cache clock ip).2 with
  | some mac' =>
    obtain ⟨e, he, hip, -⟩ := searchCache_some hsearch
    have hknown : Known clock cache ip := ⟨e, he, hip⟩
    refine Or.inr ⟨Or.inr hknown, _, addCacheEntry_some hsearch mac, ?_, ?_⟩
    · rw [hfound, SenderLasts]
      exact ⟨Or.inl, fun h => h.resolve_right fun hnew => hnew.1 hknown⟩
    · rw [searchCache_fst]
      exact (hclock.trans hgone).filter _
  | none =>
    have hunknown : ¬ Known clock cache ip := fun ⟨e, he, hip⟩ => searchCache_none hsearch e he hip
    by_cases hip : ip = 0
    · exact Or.inl ⟨hip, hunknown, by rw [addCacheEntry_none hsearch, if_pos hip]⟩
    · refine Or.inr ⟨Or.inl hip, _, by rw [addCacheEntry_none hsearch, if_neg hip], ?_, ?_⟩
      · have hold : ¬ Known (later (cache.length + 1) clock) (unexpired clock cache) ip := by
          rintro ⟨e, he, heq⟩
          exact hunknown ⟨e, (unexpired_sublist _ _).mem he, heq⟩
        rw [hfound, known_concat, SenderLasts, or_iff_right hold, or_iff_right hold,
          and_iff_right hunknown]
        rfl
      · have hnew := LeftAlone.unexpired clock (cache.length + 1)
          (unexpired clock cache ++ [⟨ip, mac, clock cache.length + arpTimeout⟩])
        have hkept := hnew.filter (otherThan ip)
        rw [List.filter_append, filter_otherThan_self, List.append_nil] at hkept
        rw [searchCache_fst]
        exact (hclock.filter _).trans hkept

section Kinds

/-- The frame is handled as it should be. -/
def Handles (sr : SrInstance) (cache : List ArpCacheEntry) (env : Env) (f : Frame) (iface : SrIf)
    (name : IfName) : Prop :=
  ∃ out, srHandlepacketArp sr cache env f name = .ok out ∧
    HandledRight env.clock cache iface name f out

theorem HasArp.not_request (h : HasArp arpReply f) : ¬ HasArp arpRequest f := fun hreq =>
  absurd (h.unique hreq) (by decide)

theorem handles_short (h : IsArp f) (hlen : f.length < sizeofEther + sizeofArp) :
    Handles sr cache env f iface name := by
  refine ⟨_, srHandlepacketArp_short h hlen, ?_, fun _ => rfl, ?_, fun _ => .refl _ _⟩
  · exact fun hreq => absurd hreq (HasArp.of_length hlen)
  · exact fun hrep => absurd hrep (HasArp.of_length hlen)

theorem handles_request_iff (h : IsArp f) (hreq : HasArp arpRequest f)
    (hif : srGetInterface sr name = some iface) :
    Handles sr cache env f iface name ↔ ForEthernetIp f := by
  have hrep : ¬ HasArp arpReply f := fun hrep => hrep.not_request hreq
  obtain ⟨reply, hrun, hwell⟩ :
      ∃ reply, srHandlepacketArp sr cache env f name = .ok ⟨cache, [⟨reply, name⟩]⟩ ∧
        (WellFormedReply iface f reply ↔ ForEthernetIp f) := srHandlepacketArp_request h hreq hif
  rw [Handles, hrun, ← hwell]
  constructor
  · rintro ⟨out, hout, hright⟩
    cases hout
    obtain ⟨reply', hsent, hreply⟩ := hright.request hreq
    cases hsent
    exact hreply
  · intro hreply
    exact ⟨_, rfl, fun _ => ⟨reply, rfl, hreply⟩, fun hno => absurd hreq hno,
      fun hrep' => absurd hrep' hrep, fun _ => .refl _ _⟩

theorem handles_reply_iff (h : IsArp f) (hrep : HasArp arpReply f)
    (hif : srGetInterface sr name = some iface) {sip : Nat} (hsip : f.get arSip = .ok sip) :
    Handles sr cache env f iface name ↔
      (sip = 0 → Known env.clock cache 0) ∧
        (SenderLasts env.clock cache (.ofNat sip) ∨ ¬ StaleSource env iface) := by
  have hlt : sip < 2 ^ 32 := Frame.get_lt hsip
  have hzero : UInt32.ofNat sip = 0 ↔ sip = 0 := by
    rw [← UInt32.toNat_inj, UInt32.toNat_ofNat_of_lt' hlt]
    rfl
  rw [Handles, srHandlepacketArp_reply h hrep hsip]
  rcases gotReply_cases env.clock cache (.ofNat sip) (macOf (slice f arSha.offset arSha.width)) with
    ⟨hsip₀, hunknown, hadd⟩ | ⟨hok, cache', hadd, hfound, hothers⟩
  · rw [hadd, error_bind]
    refine iff_of_false (fun ⟨out, hout, _⟩ => nomatch hout) fun hharmless => ?_
    rw [hsip₀] at hunknown
    exact hunknown (hharmless.1 (hzero.mp hsip₀))
  · have hknown : sip = 0 → Known env.clock cache 0 := by
      intro hsip₀
      rw [hzero.mpr hsip₀] at hok
      exact hok.resolve_left fun hne => hne rfl
    rw [hadd, ok_bind, and_iff_right hknown, ← hfound, ← leftOver_eq_nil hif]
    simp only [pure_eq_ok]
    constructor
    · rintro ⟨out, hout, hright⟩
      cases hout
      have hsilent := hright.silent hrep.not_request
      simp only at hsilent
      split at hsilent
      · exact Or.inr hsilent
      · exact Or.inl ‹_›
    · intro hquiet
      refine ⟨_, rfl, fun hreq => absurd hreq hrep.not_request, fun _ => ?_, fun _ sip' hsip' => ?_,
        fun hno => absurd hrep hno⟩
      · by_cases hnone :
            (searchCache cache' (later (cache.length + 1) env.clock) (.ofNat sip)).2 = none
        · rw [if_pos hnone]
          exact hquiet.resolve_left fun hsome => hsome hnone
        · rw [if_neg hnone]
      · rw [hsip] at hsip'
        cases hsip'
        exact hothers

theorem handles_other_iff (h : IsArp f) (hlen : sizeofEther + sizeofArp ≤ f.length)
    (hreq : ¬ HasArp arpRequest f) (hrep : ¬ HasArp arpReply f)
    (hif : srGetInterface sr name = some iface) :
    Handles sr cache env f iface name ↔ ¬ StaleSource env iface := by
  rw [Handles, srHandlepacketArp_other h hlen hreq hrep, ← leftOver_eq_nil hif]
  constructor
  · rintro ⟨out, hout, hright⟩
    cases hout
    exact hright.silent hreq
  · intro hquiet
    exact ⟨_, rfl, fun hreq' => absurd hreq' hreq, fun _ => hquiet, fun hrep' => absurd hrep' hrep,
      fun _ => .refl _ _⟩

end Kinds

/-- On an interface that exists, an ARP frame of any length and contents is handled as it should be
exactly if it is harmless: if it is a request, for Ethernet and IP; if a reply, not from address 0,
unless that is cached, and with an entry that lasts until `got_Reply` looks for it, or fresh memory
that does not look like a frame; and if it is neither and not too short, with such memory. -/
theorem arp_input_iff (hif : srGetInterface sr name = some iface) (h : IsArp f) :
    (∃ out, srHandlepacketArp sr cache env f name = .ok out ∧
        HandledRight env.clock cache iface name f out) ↔
      Harmless env cache iface f := by
  by_cases hlen : f.length < sizeofEther + sizeofArp
  · have hno : ∀ op, ¬ HasArp op f := fun op => HasArp.of_length hlen
    refine iff_of_true (handles_short h hlen) ?_
    exact ⟨fun hreq => absurd hreq (hno _), fun hrep => absurd hrep (hno _),
      fun hrep => absurd hrep (hno _), fun hle => absurd hlen (Nat.not_lt.mpr hle)⟩
  have hlen := Nat.not_lt.mp hlen
  by_cases hreq : HasArp arpRequest f
  · have hrep : ¬ HasArp arpReply f := fun hrep => hrep.not_request hreq
    refine (handles_request_iff h hreq hif).trans ⟨fun hfor => ?_, fun hok => hok.request hreq⟩
    exact ⟨fun _ => hfor, fun hrep' => absurd hrep' hrep, fun hrep' => absurd hrep' hrep,
      fun _ hno => absurd hreq hno⟩
  by_cases hrep : HasArp arpReply f
  · obtain ⟨sip, hsip⟩ := get_of_arp (b := arSip) hlen (by decide)
    refine (handles_reply_iff h hrep hif hsip).trans ⟨fun ⟨hzero, hlasts⟩ => ?_, fun hok => ?_⟩
    · refine ⟨fun hreq' => absurd hreq' hreq, fun _ hsip' => ?_, fun _ sip' hsip' => ?_,
        fun _ _ hno => absurd hrep hno⟩
      · rw [hsip] at hsip'
        exact hzero (Except.ok.inj hsip')
      · rw [hsip] at hsip'
        cases hsip'
        exact hlasts
    · refine ⟨fun hsip' => hok.sender hrep ?_, hok.lasts hrep sip hsip⟩
      rw [hsip, hsip']
  · refine (handles_other_iff h hlen hreq hrep hif).trans
      ⟨fun hquiet => ?_, fun hok => hok.other hlen hreq hrep⟩
    exact ⟨fun hreq' => absurd hreq' hreq, fun hrep' => absurd hrep' hrep,
      fun hrep' => absurd hrep' hrep, fun _ _ _ => hquiet⟩

section Demo

/-- A router with the interface `eth0`. -/
def demoArpHost : SrInstance := ⟨[⟨eth0Interface, Vector.replicate 6 2, 0x0100000a⟩], []⟩

def demoArpEnv : Env := ⟨fun _ => 0, fun _ _ => none, fun _ => 0, fun _ => 0⟩

/-- An ARP frame for Ethernet and IP with this operation, from this address. -/
def demoArpFrame (op : UInt8) (sip : List UInt8) : Frame :=
  List.replicate 6 255 ++ List.replicate 6 4 ++ [8, 6, 0, 1, 8, 0, 6, 4, 0, op] ++
    List.replicate 6 4 ++ sip ++ List.replicate 6 0 ++ [10, 0, 0, 1]

theorem arp_input_demo :
    ∃ out, srHandlepacketArp demoArpHost [] demoArpEnv (demoArpFrame 1 [10, 0, 0, 2])
        eth0Interface = .ok out ∧
      HandledRight demoArpEnv.clock [] ⟨eth0Interface, Vector.replicate 6 2, 0x0100000a⟩
        eth0Interface (demoArpFrame 1 [10, 0, 0, 2]) out := by
  have hreq : HasArp arpRequest (demoArpFrame 1 [10, 0, 0, 2]) :=
    ⟨by decide, 0x0100, by decide, by decide⟩
  have hrep : ¬ HasArp arpReply (demoArpFrame 1 [10, 0, 0, 2]) := fun hrep => hrep.not_request hreq
  apply (arp_input_iff (by decide) ⟨0x0608, by decide, by decide⟩).mpr
  exact ⟨fun _ => ⟨by decide, by decide, by decide⟩, fun hrep' => absurd hrep' hrep,
    fun hrep' => absurd hrep' hrep, fun _ hno => absurd hreq hno⟩

/-- A reply from address 0 ends the router. -/
theorem arp_input_false :
    ¬ ∀ (sr : SrInstance) (cache : List ArpCacheEntry) (env : Env) (f : Frame) (name : IfName)
        (iface : SrIf), srGetInterface sr name = some iface → IsArp f →
      ∃ out, srHandlepacketArp sr cache env f name = .ok out ∧
        HandledRight env.clock cache iface name f out := by
  intro hclaim
  have hif : srGetInterface demoArpHost eth0Interface =
      some ⟨eth0Interface, Vector.replicate 6 2, 0x0100000a⟩ := by decide
  have harp : IsArp (demoArpFrame 2 [0, 0, 0, 0]) := ⟨0x0608, by decide, by decide⟩
  have hrep : HasArp arpReply (demoArpFrame 2 [0, 0, 0, 0]) := ⟨by decide, 0x0200, by decide, by decide⟩
  have hsip : (demoArpFrame 2 [0, 0, 0, 0]).get arSip = .ok 0 := by decide
  have hharmless := (handles_reply_iff harp hrep hif hsip).mp
    (hclaim demoArpHost [] demoArpEnv _ _ _ hif harp)
  obtain ⟨e, he, -⟩ := hharmless.1 rfl
  exact nomatch he

end Demo

end PWOSPF
