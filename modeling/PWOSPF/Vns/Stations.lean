import PWOSPF.Arp.Pending
import PWOSPF.Vns.PacketMessages

/-!
# Routers that ask each other

Routers ask for the MAC addresses of each other and remember the answers. `sr_arp_req_not_for_us` keeps
`got_Request` from answering for others, so that honest frames are only answered by honest ones.
-/

namespace PWOSPF

open Framework PacketField

/-- A router with its session, its cache and the packets that wait for a MAC. `pointers` tells into which
entry of the cache the threads point since `search_cache` found one for them, the last one first. -/
structure Station where
  client : VnsClient
  cache : List ArpCacheEntry
  queue : ArpSubsys
  pointers : List (Nat × ArpCacheEntry)
  deriving DecidableEq, Repr

/-- The server passes a frame on by an interface. Packets of other protocols are left alone here. -/
def Station.receive (cfg : VnsConfig) (host : VnsHost) (st : Station) (env : Env)
    (p : Frame × IfName) : Exec (Station × List Transmission) := do
  let client ← st.client.serve cfg host (packetBytes p.1 p.2)
  match client.done.drop st.client.done.length with
  | [.handles packet interface] =>
    let out ← srHandlepacketArp st.client.sr st.cache env packet interface
    return ({ st with client := client, cache := out.cache }, out.sent)
  | _ => return ({ st with client := client }, [])

variable {sr : SrInstance} {cache : List ArpCacheEntry} {env : Env} {f : Frame} {name : IfName}
  {iface : SrIf} {mac : Mac} {ip : InAddr}

/-! ## The request -/

theorem patch_patch_before {f bs cs : List UInt8} {o : Nat}
    (h : o + bs.length + cs.length ≤ f.length) :
    patch (patch f (o + bs.length) cs) o bs = patch f o (bs ++ cs) := by
  have hin : o + bs.length ≤ f.length := by omega
  apply List.ext_getElem?
  intro i
  rw [patch_getElem? (by rw [patch_length h]; exact hin), patch_getElem? h,
    patch_getElem? (by rw [List.length_append]; omega), List.length_append]
  by_cases hi : o ≤ i ∧ i < o + bs.length
  · rw [if_pos hi, if_pos (by omega), List.getElem?_append_left (by omega)]
  · rw [if_neg hi]
    by_cases hj : o + bs.length ≤ i ∧ i < o + bs.length + cs.length
    · rw [if_pos hj, if_pos (by omega), List.getElem?_append_right (by omega)]
      congr 1
      omega
    · rw [if_neg hj, if_neg (by omega)]

/-- The fields of a request, in their order. -/
def requestFields (mac sip tip : Nat) : List (PacketField × Nat) :=
  [(etherDhost, leValue (List.replicate etherAddrLen 0xff)), (etherShost, mac),
    (etherType, (htons ethertypeArp).toNat), (arHrd, (htons arpHrdEth).toNat),
    (arPro, (htons arpProIp).toNat), (arHln, etherAddrLen), (arPln, arpIpLen),
    (arOp, (htons arpRequest).toNat), (arSha, mac), (arSip, sip), (arTha, 0), (arTip, tip)]

theorem get_requestFields {mac sip tip : Nat} {a : PacketField} {v : Nat}
    (hmem : (a, v) ∈ requestFields mac sip tip) (hv : v < 256 ^ a.width) :
    Frame.get (Frame.fieldBytes (requestFields mac sip tip)) a = .ok v := by
  apply get_fieldBytes _ _ hmem hv
  · simp [requestFields, Frame.Adjacent, etherDhost, etherShost, etherType, arHrd, arPro, arHln, arPln,
      arOp, arSha, arSip, arTha, arTip]
  · show [etherDhost, etherShost, etherType, arHrd, arPro, arHln, arPln, arOp, arSha, arSip, arTha,
      arTip].Pairwise PacketField.Apart
    decide

theorem requestFields_length (mac sip tip : Nat) :
    (Frame.fieldBytes (requestFields mac sip tip)).length = sizeofEther + sizeofArp := by
  simp [Frame.fieldBytes, requestFields, etherDhost, etherShost, etherType, arHrd, arPro, arHln, arPln,
    arOp, arSha, arSip, arTha, arTip, sizeofEther, sizeofArp]

theorem leBytes_mac (mac : Mac) : leBytes 6 (leValue mac.toList) = mac.toList := by
  have h := leBytes_leValue mac.toList
  rwa [Vector.length_toList] at h

/-- Storing behind what was stored from the start on. -/
theorem store_next {z front bs : List UInt8} {o : Nat} (ho : o = front.length)
    (h : o + bs.length ≤ z.length) :
    Frame.store (patch z 0 front) o bs = .ok (patch z 0 (front ++ bs)) := by
  subst ho
  have hin : 0 + front.length ≤ z.length := by omega
  have hnext := @patch_patch_next z 0 front bs (by omega)
  rw [Nat.zero_add] at hnext
  rw [Frame.store_eq_ok.mpr ⟨by rw [patch_length hin]; exact h, rfl⟩, hnext]

theorem assign_next {z front : List UInt8} {l : List (PacketField × Nat)}
    (hl : Frame.Adjacent front.length l) (h : front.length + (Frame.fieldBytes l).length ≤ z.length) :
    Frame.assign (patch z 0 front) l = .ok (patch z 0 (front ++ Frame.fieldBytes l)) := by
  have hin : 0 + front.length ≤ z.length := by omega
  have hnext := @patch_patch_next z 0 front (Frame.fieldBytes l) (by omega)
  rw [Nat.zero_add] at hnext
  rw [Frame.assign_adjacent hl (by rw [patch_length hin]; exact h), hnext]

theorem constructRequest_eq (hif : srGetInterface sr name = some iface) (ip : InAddr) :
    constructRequest sr name ip = .ok (Frame.fieldBytes
      (requestFields (leValue iface.addr.toList) iface.ip.toNat ip.toNat)) := by
  have hM : iface.addr.toList.length = 6 := Vector.length_toList
  obtain ⟨z, hz⟩ : ∃ z, z = List.replicate (sizeofEther + sizeofArp) (0 : UInt8) := ⟨_, rfl⟩
  obtain ⟨D, hD⟩ : ∃ D, D = List.replicate etherAddrLen (0xff : UInt8) := ⟨_, rfl⟩
  obtain ⟨N, hN⟩ : ∃ N, N = List.replicate etherAddrLen (0 : UInt8) := ⟨_, rfl⟩
  obtain ⟨T, hT⟩ : ∃ T, T = leBytes 2 (htons ethertypeArp).toNat := ⟨_, rfl⟩
  obtain ⟨H, hH⟩ : ∃ H, H = Frame.fieldBytes [(arHrd, (htons arpHrdEth).toNat),
    (arPro, (htons arpProIp).toNat), (arHln, etherAddrLen), (arPln, arpIpLen),
    (arOp, (htons arpRequest).toNat)] := ⟨_, rfl⟩
  have hzLen : z.length = 42 := by rw [hz, List.length_replicate]; rfl
  have hDLen : D.length = 6 := by rw [hD, List.length_replicate]; rfl
  have hNLen : N.length = 6 := by rw [hN, List.length_replicate]; rfl
  have hTLen : T.length = 2 := by rw [hT, leBytes_length]
  have hHLen : H.length = 8 := by rw [hH]; rfl
  have hdhost : Frame.store z etherDhost.offset D = .ok (patch z 0 D) :=
    Frame.store_eq_ok.mpr ⟨by rw [hDLen, hzLen]; decide, rfl⟩
  have htype : Frame.set (patch z 0 D) etherType (htons ethertypeArp).toNat =
      .ok (patch (patch z 0 D) 12 T) := by
    refine Frame.set_eq_ok.mpr ⟨?_, by rw [hT]; rfl⟩
    rw [patch_length (by rw [hDLen, hzLen]; decide), hzLen]
    decide
  have hshost : Frame.store (patch (patch z 0 D) 12 T) etherShost.offset iface.addr.toList =
      .ok (patch z 0 (D ++ (iface.addr.toList ++ T))) := by
    have hbefore := @patch_patch_before (patch z 0 D) iface.addr.toList T 6 (by
      rw [patch_length (by rw [hDLen, hzLen]; decide), hM, hTLen, hzLen]
      decide)
    have hnext := @patch_patch_next z 0 D (iface.addr.toList ++ T) (by
      rw [List.length_append, hDLen, hM, hTLen, hzLen]
      decide)
    rw [hM] at hbefore
    rw [hDLen] at hnext
    refine Frame.store_eq_ok.mpr ⟨?_, (hbefore.trans hnext).symm⟩
    rw [patch_length (by rw [patch_length (by rw [hDLen, hzLen]; decide), hTLen, hzLen]; decide),
      patch_length (by rw [hDLen, hzLen]; decide), hM, hzLen]
    decide
  have hfront : (D ++ (iface.addr.toList ++ T)).length = 14 := by
    rw [List.length_append, List.length_append, hDLen, hM, hTLen]
  have hheader := @assign_next z (D ++ (iface.addr.toList ++ T)) [(arHrd, (htons arpHrdEth).toNat),
    (arPro, (htons arpProIp).toNat), (arHln, etherAddrLen), (arPln, arpIpLen),
    (arOp, (htons arpRequest).toNat)] (by rw [hfront]; exact ⟨rfl, rfl, rfl, rfl, rfl, trivial⟩)
    (by rw [hfront, ← hH, hHLen, hzLen]; decide)
  rw [← hH] at hheader
  have hsha := @store_next z (D ++ (iface.addr.toList ++ T) ++ H) iface.addr.toList 22
    (by rw [List.length_append, hfront, hHLen]) (by rw [hM, hzLen]; decide)
  have hsip := @store_next z (D ++ (iface.addr.toList ++ T) ++ H ++ iface.addr.toList)
    (leBytes 4 iface.ip.toNat) 28 (by simp only [List.length_append, hDLen, hM, hTLen, hHLen])
    (by rw [leBytes_length, hzLen]; decide)
  have htha := @store_next z (D ++ (iface.addr.toList ++ T) ++ H ++ iface.addr.toList ++
    leBytes 4 iface.ip.toNat) N 32
    (by simp only [List.length_append, hDLen, hM, hTLen, hHLen, leBytes_length])
    (by rw [hNLen, hzLen]; decide)
  have htip := @store_next z (D ++ (iface.addr.toList ++ T) ++ H ++ iface.addr.toList ++
    leBytes 4 iface.ip.toNat ++ N) (leBytes 4 ip.toNat) 38
    (by simp only [List.length_append, hDLen, hM, hTLen, hHLen, hNLen, leBytes_length])
    (by rw [leBytes_length, hzLen])
  have hall : D ++ (iface.addr.toList ++ T) ++ H ++ iface.addr.toList ++ leBytes 4 iface.ip.toNat ++
      N ++ leBytes 4 ip.toNat =
      Frame.fieldBytes (requestFields (leValue iface.addr.toList) iface.ip.toNat ip.toNat) := by
    have hbytes := leBytes_leValue D
    rw [hDLen, hD] at hbytes
    simp only [Frame.fieldBytes, requestFields, List.flatMap_cons, List.flatMap_nil, hD, hT, hH, hN,
      etherDhost, etherShost, etherType, arSha, arSip, arTha, arTip, leBytes_mac, hbytes,
      List.append_nil, List.append_assoc]
    rfl
  have hwhole := @patch_whole z
    (Frame.fieldBytes (requestFields (leValue iface.addr.toList) iface.ip.toNat ip.toNat))
    (by rw [requestFields_length, hzLen]; rfl)
  rw [hall, hwhole] at htip
  rw [constructRequest]
  simp only [← hz, ← hD, ← hN, hdhost, ok_bind, htype, hif, hshost, hheader]
  rw [show arSha.offset = 22 from rfl, hsha, ok_bind, Frame.set, show arSip.offset = 28 from rfl,
    show arSip.width = 4 from rfl, hsip, ok_bind, show arTha.offset = 32 from rfl, htha, ok_bind]
  exact htip

/-! ## Honest frames -/

/-- The frame does not lie about who has which address, and requests in it are for Ethernet and IP. -/
structure Honest (owns : InAddr → Mac → Prop) (f : Frame) : Prop where
  request : IsArp f → HasArp arpRequest f → ForEthernetIp f
  reply : IsArp f → HasArp arpReply f → ∀ sip, f.get arSip = .ok sip →
    owns (.ofNat sip) (macOf (slice f arSha.offset arSha.width))

def CacheOwned (owns : InAddr → Mac → Prop) (cache : List ArpCacheEntry) : Prop :=
  ∀ e ∈ cache, owns e.ipAdd e.mac

section Honest

variable {owns : InAddr → Mac → Prop} {cache' : List ArpCacheEntry} {out : ArpReception}

theorem macOf_toList (mac : Mac) : macOf mac.toList = mac := by
  apply Vector.ext
  intro i hi
  simp [macOf]

/-- The value of a field that tells a number in host byte order. -/
theorem get_of_ntohs {b : PacketField} {v : Nat} {x : UInt16} (hb : b.width = 2)
    (hget : f.get b = .ok v) (hv : ntohs (.ofNat v) = x) : f.get b = .ok (htons x).toNat := by
  have hlt : v < 2 ^ 16 := by
    have h := Frame.get_lt hget
    rwa [hb] at h
  have hback : htons x = .ofNat v := by
    rw [← hv]
    exact ntohs_htons (.ofNat v)
  rw [hget, hback, UInt16.toNat_ofNat_of_lt' hlt]

theorem Honest.of_short (h : f.length < sizeofEther + sizeofArp) : Honest owns f :=
  ⟨fun _ hreq => absurd hreq (HasArp.of_length h), fun _ hrep => absurd hrep (HasArp.of_length h)⟩

/-- The request is one, for Ethernet and IP, and asks for the address. -/
theorem request_arp (mac : Mac) (sip tip : UInt32) {request : Frame}
    (h : request = Frame.fieldBytes (requestFields (leValue mac.toList) sip.toNat tip.toNat)) :
    IsArp request ∧ HasArp arpRequest request ∧ ForEthernetIp request ∧
      request.get arTip = .ok tip.toNat ∧ request.get etherShost = .ok (leValue mac.toList) := by
  subst h
  have hlen := requestFields_length (leValue mac.toList) sip.toNat tip.toNat
  refine ⟨⟨(htons ethertypeArp).toNat, ?_, by decide⟩,
    ⟨Nat.le_of_eq hlen.symm, (htons arpRequest).toNat, ?_, by decide⟩, ⟨?_, ?_, ?_⟩, ?_, ?_⟩
  · exact get_requestFields (by simp [requestFields]) (by decide)
  · exact get_requestFields (by simp [requestFields]) (by decide)
  · exact get_requestFields (by simp [requestFields]) (by decide)
  · exact get_requestFields (by simp [requestFields]) (by decide)
  · exact get_requestFields (by simp [requestFields]) (by decide)
  · exact get_requestFields (by simp [requestFields]) tip.toNat_lt
  · exact get_requestFields (by simp [requestFields]) (leValue_mac_lt mac)

theorem honest_request (mac : Mac) (sip tip : UInt32) : Honest owns
    (Frame.fieldBytes (requestFields (leValue mac.toList) sip.toNat tip.toNat)) := by
  obtain ⟨-, hreq, hip, -⟩ := request_arp mac sip tip rfl
  exact ⟨fun _ _ => hip, fun _ hrep => absurd hreq hrep.not_request⟩

/-- Left-over bytes are no ARP packet. -/
theorem honest_leftOver {t : Transmission} (ht : t ∈ leftOver sr env name) : Honest owns t.frame := by
  apply Honest.of_short
  have hlen : ((List.range sizeofEther).map env.bytes).length = sizeofEther := by
    rw [List.length_map, List.length_range]
  rw [leftOver, srSendPacket, if_neg (by rw [hlen]; exact Nat.lt_irrefl _)] at ht
  split at ht
  · cases ht
  · split at ht
    · obtain rfl := List.mem_singleton.mp ht
      show ((List.range sizeofEther).map env.bytes).length < _
      rw [hlen]
      decide
    · cases ht

theorem CacheOwned.add (hcache : CacheOwned owns cache) (hown : owns ip mac) {clock : Nat → Time}
    (hadd : addCacheEntry cache clock ip mac = .ok cache') : CacheOwned owns cache' := by
  have hold : CacheOwned owns (unexpired clock cache) := fun e he =>
    hcache e ((unexpired_sublist _ _).mem he)
  cases hsearch : (searchCache cache clock ip).2 with
  | some mac' =>
    rw [addCacheEntry_some hsearch] at hadd
    cases hadd
    exact hold
  | none =>
    rw [addCacheEntry_none hsearch] at hadd
    split at hadd
    · cases hadd
    · cases hadd
      intro e he
      rcases List.mem_append.mp he with he | he
      · exact hold e he
      · obtain rfl := List.mem_singleton.mp he
        exact hown

/-- Packets of other protocols. -/
theorem srHandlepacketArp_foreign (h : ¬ IsArp f) :
    srHandlepacketArp sr cache env f name = .ok ⟨cache, []⟩ := by
  rw [srHandlepacketArp]
  by_cases hshort : f.length < sizeofEther
  · rw [if_pos hshort]
    rfl
  · obtain ⟨type, htype⟩ := @Frame.get_exists f etherType (Nat.not_lt.mp hshort)
    rw [if_neg hshort, htype]
    simp only [ok_bind]
    rw [if_pos fun harp => h ⟨type, htype, harp⟩]
    rfl

/-- What is sent in answer to an honest frame is honest, and only right addresses are remembered. -/
theorem srHandlepacketArp_honest (hif : srGetInterface sr name = some iface)
    (hown : owns iface.ip iface.addr) (hf : Honest owns f) (hfor : ¬ NotForUs iface f)
    (hcache : CacheOwned owns cache) (hrun : srHandlepacketArp sr cache env f name = .ok out) :
    CacheOwned owns out.cache ∧ ∀ t ∈ out.sent, Honest owns t.frame := by
  by_cases harp : IsArp f
  · rcases Nat.lt_or_ge f.length (sizeofEther + sizeofArp) with hshort | hlen
    · rw [srHandlepacketArp_short harp hshort] at hrun
      cases hrun
      exact ⟨hcache, fun t ht => nomatch ht⟩
    · by_cases hreq : HasArp arpRequest f
      · obtain ⟨reply, hreply, hwell⟩ := @srHandlepacketArp_request sr cache env f name iface harp hreq hif
        obtain ⟨-, op, hop, hopv⟩ := id hreq
        obtain ⟨type, htype, htypev⟩ := id harp
        have hr := hwell.mpr (hf.request harp hreq)
        rw [hreply] at hrun
        cases hrun
        refine ⟨hcache, fun t ht => ?_⟩
        obtain rfl := List.mem_singleton.mp ht
        have hrep : HasArp arpReply reply := ⟨Nat.le_of_eq hr.length.symm, _, hr.op, by decide⟩
        refine ⟨fun _ hreq' => absurd hreq' hrep.not_request, fun _ _ sip hsip => ?_⟩
        have htip : f.get arTip = .ok iface.ip.toNat := by
          by_contra hother
          exact hfor ⟨hlen, get_of_ntohs rfl htype htypev, get_of_ntohs rfl hop hopv, hother⟩
        have hsip' : sip = iface.ip.toNat := Except.ok.inj (hsip.symm.trans (hr.sip.trans htip))
        have hsha : slice reply arSha.offset arSha.width = iface.addr.toList := by
          rw [← Frame.leBytes_of_get hr.sha]
          exact leBytes_mac iface.addr
        show owns (.ofNat sip) (macOf (slice reply arSha.offset arSha.width))
        rw [hsip', hsha, macOf_toList, UInt32.ofNat_toNat]
        exact hown
      · by_cases hrep : HasArp arpReply f
        · obtain ⟨sip, hsip⟩ := @get_of_arp f arSip hlen (by decide)
          rw [srHandlepacketArp_reply harp hrep hsip] at hrun
          obtain ⟨cache', hadd, hrun⟩ := bind_eq_ok.mp hrun
          have hnew := hcache.add (hf.reply harp hrep sip hsip) hadd
          cases hrun
          refine ⟨fun e he => ?_, fun t ht => ?_⟩
          · have hleft : e ∈ checkCacheInvalid (later (cache.length + 1) env.clock) [] cache' := he
            rw [checkCacheInvalid_eq, List.nil_append] at hleft
            exact hnew e ((unexpired_sublist _ _).mem hleft)
          · split at ht
            · exact honest_leftOver ht
            · cases ht
        · rw [srHandlepacketArp_other harp hlen hreq hrep] at hrun
          cases hrun
          exact ⟨hcache, fun t ht => honest_leftOver ht⟩
  · rw [srHandlepacketArp_foreign harp] at hrun
    cases hrun
    exact ⟨hcache, fun t ht => nomatch ht⟩

end Honest

/-! ## Frames that come in -/

section Receive

variable {cfg : VnsConfig} {host : VnsHost} {st : Station} {p : Frame × IfName}

/-- A router that takes a frame. -/
theorem Station.receive_eq (hrunning : st.client.phase = .running) (hp : Arrives st.client.sr p)
    (hif : srGetInterface st.client.sr p.2 = some iface) :
    st.receive cfg host env p =
      if NotForUs iface p.1 then .ok (st, []) else do
        let out ← srHandlepacketArp st.client.sr st.cache env p.1 p.2
        return ({ st with
          client := { st.client with done := st.client.done ++ [.handles p.1 p.2] }
          cache := out.cache }, out.sent) := by
  rw [Station.receive, serve_packet hrunning hp, ok_bind]
  by_cases hfor : NotForUs iface p.1
  · simp only [handled, hif, if_pos hfor, List.append_nil, List.drop_length]
    rfl
  · simp only [handled, hif, if_neg hfor, List.drop_left]

end Receive

/-! ## One exchange -/

section Exchange

variable {stA stB : Station} {nameA nameB : IfName} {a b : SrIf} {envA envB : Env}

/-- An entry at the end of the cache, and the only one for its address. -/
theorem searchCache_concat {cache : List ArpCacheEntry} {e : ArpCacheEntry} {clock : Nat → Time}
    (hnone : ∀ e' ∈ cache, e'.ipAdd ≠ e.ipAdd) (hclock : ∀ n, clock n ≤ e.timenotvalid) :
    searchCache (cache ++ [e]) clock e.ipAdd = (unexpired clock cache ++ [e], some e.mac) := by
  have hfirst : (unexpired clock cache).find?
      (fun cacheWalker => decide (e.ipAdd = cacheWalker.ipAdd)) = none := by
    refine List.find?_eq_none.mpr fun e' he' heq => ?_
    exact hnone e' ((unexpired_sublist _ _).mem he') (of_decide_eq_true heq).symm
  rw [searchCache, checkCacheInvalid_eq, List.nil_append, unexpired_concat,
    if_neg (Int.not_lt.mpr (hclock _)), List.find?_append, hfirst, Option.none_or]
  show (_, Option.map ArpCacheEntry.mac
    (List.find? (fun cacheWalker => decide (e.ipAdd = cacheWalker.ipAdd)) [e])) = _
  rw [List.find?_singleton, if_pos (decide_eq_true rfl), Option.map_some]

/-- A reply from an address that was not known. -/
theorem srHandlepacketArp_learns {reply : Frame} (harp : IsArp reply) (hrep : HasArp arpReply reply)
    (hsip : reply.get arSip = .ok b.ip.toNat) (hsha : reply.get arSha = .ok (leValue b.addr.toList))
    (hzero : b.ip ≠ 0) (hunknown : ¬ Known env.clock cache b.ip)
    (hquick : ∀ n, env.clock n ≤ env.clock cache.length + arpTimeout) :
    ∃ cache', srHandlepacketArp sr cache env reply name = .ok ⟨cache', []⟩ ∧
      ∀ clock : Nat → Time, (∀ n, clock n ≤ env.clock cache.length + arpTimeout) →
        (searchCache cache' clock b.ip).2 = some b.addr := by
  have hmac : macOf (slice reply arSha.offset arSha.width) = b.addr := by
    rw [← Frame.leBytes_of_get hsha]
    exact (congrArg macOf (leBytes_mac b.addr)).trans (macOf_toList b.addr)
  have hnone : ∀ e ∈ unexpired env.clock cache, e.ipAdd ≠ b.ip := fun e he hip =>
    hunknown ⟨e, he, hip⟩
  have hadd : addCacheEntry cache env.clock b.ip b.addr =
      .ok (unexpired env.clock cache ++ [⟨b.ip, b.addr, env.clock cache.length + arpTimeout⟩]) := by
    rw [addCacheEntry_none (searchCache_eq_none.mpr hnone), if_neg hzero]
  have hlook : ∀ {U : List ArpCacheEntry} {clock : Nat → Time}, (∀ e ∈ U, e.ipAdd ≠ b.ip) →
      (∀ n, clock n ≤ env.clock cache.length + arpTimeout) →
        searchCache (U ++ [⟨b.ip, b.addr, env.clock cache.length + arpTimeout⟩]) clock b.ip =
          (unexpired clock U ++ [⟨b.ip, b.addr, env.clock cache.length + arpTimeout⟩], some b.addr) :=
    fun hU hclock => searchCache_concat hU hclock
  refine ⟨unexpired (later (cache.length + 1) env.clock) (unexpired env.clock cache) ++
    [⟨b.ip, b.addr, env.clock cache.length + arpTimeout⟩], ?_, fun clock hclock => ?_⟩
  · rw [srHandlepacketArp_reply harp hrep hsip, UInt32.ofNat_toNat, hmac, hadd, ok_bind,
      @hlook _ (later (cache.length + 1) env.clock) hnone fun n => hquick _]
    rfl
  · rw [hlook (fun e he => hnone e ((unexpired_sublist _ _).mem he)) hclock]

/-- The request goes out as a message to the server, the owner of the address answers, other routers do
not, and then the router that asked finds the MAC in its cache. -/
theorem arp_exchange (hA : stA.client.phase = .running) (hB : stB.client.phase = .running)
    (hnameA : ShortName nameA) (hnameB : ShortName nameB)
    (ha : srGetInterface stA.client.sr nameA = some a)
    (hb : srGetInterface stB.client.sr nameB = some b) (hzero : b.ip ≠ 0)
    (hunknown : ¬ Known envA.clock stA.cache b.ip)
    (hquick : ∀ n, envA.clock n ≤ envA.clock stA.cache.length + arpTimeout) (cfgA cfgB : VnsConfig)
    (hostA hostB : VnsHost) (envB : Env) :
    ∃ request reply stA' stB',
      constructRequest stA.client.sr nameA b.ip = .ok request ∧
      srSendPacket stA.client.sr request nameA = [⟨request, nameA⟩] ∧
      packetMessage envA request nameA = .ok (packetBytes request nameA) ∧
      (∀ (st : Station) (cfg : VnsConfig) (host : VnsHost) (env : Env) (name : IfName) (iface : SrIf),
        st.client.phase = .running → ShortName name →
          srGetInterface st.client.sr name = some iface → iface.ip ≠ b.ip →
            st.receive cfg host env (request, name) = .ok (st, [])) ∧
      stB.receive cfgB hostB envB (request, nameB) = .ok (stB', [⟨reply, nameB⟩]) ∧
      stA.receive cfgA hostA envA (reply, nameA) = .ok (stA', []) ∧
      ∀ clock : Nat → Time, (∀ n, clock n ≤ envA.clock stA.cache.length + arpTimeout) →
        (searchCache stA'.cache clock b.ip).2 = some b.addr := by
  obtain ⟨request, hrequest⟩ : ∃ request, request = Frame.fieldBytes
    (requestFields (leValue a.addr.toList) a.ip.toNat b.ip.toNat) := ⟨_, rfl⟩
  obtain ⟨harp, hreq, hforIp, htip, hshost⟩ := request_arp a.addr a.ip b.ip hrequest
  have hlen : request.length = sizeofEther + sizeofArp := by rw [hrequest, requestFields_length]
  have hfits : request.length + sizeofPacketHeader ≤ 10000 := by rw [hlen]; decide
  -- the owner answers
  obtain ⟨reply, hreply, hwell⟩ :=
    @srHandlepacketArp_request stB.client.sr stB.cache envB request nameB b harp hreq hb
  have hr := hwell.mpr hforIp
  have hforB : ¬ NotForUs b request := fun h => h.2.2.2 htip
  -- its answer is a reply
  have hrep : HasArp arpReply reply := ⟨Nat.le_of_eq hr.length.symm, _, hr.op, by decide⟩
  have hreplyArp : IsArp reply := ⟨_, hr.type, by decide⟩
  have hforA : ¬ NotForUs a reply := fun h => hrep.not_request ⟨h.1, _, h.2.2.1, by decide⟩
  obtain ⟨cache', hlearns, hfound⟩ :=
    @srHandlepacketArp_learns stA.client.sr stA.cache envA nameA b reply hreplyArp hrep
      (hr.sip.trans htip) hr.sha hzero hunknown hquick
  refine ⟨request, reply, { stA with
      client := { stA.client with done := stA.client.done ++ [.handles reply nameA] }
      cache := cache' }, { stB with
      client := { stB.client with done := stB.client.done ++ [.handles request nameB] } },
    (constructRequest_eq ha b.ip).trans (congrArg _ hrequest.symm), ?_,
    packetMessage_eq (by rw [hlen]; decide), ?_, ?_, ?_, hfound⟩
  · have hbytes := Frame.leBytes_of_get hshost
    rw [srSendPacket_eq (by rw [hlen]; decide) ha]
    exact if_pos (hbytes.symm.trans (leBytes_mac a.addr))
  · intro st cfg host env name iface hrunning hname hif hother
    obtain ⟨type, htype, htypev⟩ := harp
    obtain ⟨-, op, hop, hopv⟩ := hreq
    have hfor : NotForUs iface request := by
      refine ⟨Nat.le_of_eq hlen.symm, get_of_ntohs rfl htype htypev, get_of_ntohs rfl hop hopv, ?_⟩
      intro hsame
      exact hother (UInt32.toNat_inj.mp (Except.ok.inj (hsame.symm.trans htip)))
    exact (Station.receive_eq hrunning ⟨hfits, hname, iface, hif⟩ hif).trans (if_pos hfor)
  · rw [Station.receive_eq hB ⟨hfits, hnameB, b, hb⟩ hb, if_neg hforB, hreply]
    rfl
  · have hfitsReply : reply.length + sizeofPacketHeader ≤ 10000 := by rw [hr.length]; decide
    rw [Station.receive_eq hA ⟨hfitsReply, hnameA, a, ha⟩ ha, if_neg hforA, hlearns]
    rfl

section Demo

/-- A router with the interface `eth0`, in a session that is running. -/
def demoStation (addr : Mac) (ip : InAddr) : Station :=
  ⟨⟨.running, ⟨[⟨eth0Interface, addr, ip⟩], []⟩, []⟩, [], arpSubsysInit, []⟩

theorem arp_exchange_demo : ∃ request reply stA' stB',
    constructRequest demoArpHost eth0Interface 0x0200000a = .ok request ∧
    srSendPacket demoArpHost request eth0Interface = [⟨request, eth0Interface⟩] ∧
    (demoStation (Vector.replicate 6 4) 0x0200000a).receive demoConfig demoHost demoArpEnv
      (request, eth0Interface) = .ok (stB', [⟨reply, eth0Interface⟩]) ∧
    (demoStation (Vector.replicate 6 2) 0x0100000a).receive demoConfig demoHost demoArpEnv
      (reply, eth0Interface) = .ok (stA', []) ∧
    (searchCache stA'.cache (fun _ => 15) 0x0200000a).2 = some (Vector.replicate 6 4) := by
  have hname : ShortName eth0Interface := by decide
  have hunknown : ¬ Known demoArpEnv.clock [] 0x0200000a := by
    rintro ⟨e, he, -⟩
    cases he
  obtain ⟨request, reply, stA', stB', hrequest, hsend, -, -, hanswer, hlearn, hfound⟩ :=
    @arp_exchange (demoStation (Vector.replicate 6 2) 0x0100000a)
      (demoStation (Vector.replicate 6 4) 0x0200000a) eth0Interface eth0Interface
      ⟨eth0Interface, Vector.replicate 6 2, 0x0100000a⟩ ⟨eth0Interface, Vector.replicate 6 4, 0x0200000a⟩
      demoArpEnv rfl rfl hname hname (by decide) (by decide) (by decide) hunknown
      (fun _ => show (0 : Time) ≤ 0 + arpTimeout by decide) demoConfig demoConfig demoHost demoHost demoArpEnv
  exact ⟨request, reply, stA', stB', hrequest, hsend, hanswer, hlearn,
    hfound (fun _ => 15) fun _ => show (15 : Time) ≤ 0 + arpTimeout by decide⟩

end Demo

end Exchange

end PWOSPF
