import PWOSPF.Vns.Handshake

/-!
# Packets in messages

`sr_send_packet` of `sr_vns_comm.c` puts a frame behind a header with the name of its interface. Frames
that come in such messages are handled one by one, except for ARP requests for other addresses.
-/

namespace PWOSPF

open Framework VnsField PacketField

/-- The message that `sr_send_packet` writes. -/
def packetMessage (env : Env) (buf : Frame) (iface : IfName) : Exec Frame := do
  let totalLen := UInt32.ofNat buf.length + UInt32.ofNat sizeofPacketHeader
  let srPkt : Frame := (List.range (buf.length + sizeofPacketHeader)).map env.bytes
  let srPkt ← srPkt.assign [(mLen, (htonl totalLen).toNat), (mType, (htonl vnsPacket).toNat)]
  let srPkt ← srPkt.store sizeofBase (strncpy iface 16)
  srPkt.store sizeofPacketHeader buf

/-- A frame behind its header. -/
def packetBytes (buf : Frame) (iface : IfName) : Frame :=
  netBytes 4 (buf.length + sizeofPacketHeader) ++ netBytes 4 vnsPacket.toNat ++ strncpy iface 16 ++ buf

/-- The name has a zero behind it in the header. -/
structure ShortName (name : IfName) : Prop where
  short : name.length < 16
  clean : 0 ∉ name

instance (name : IfName) : Decidable (ShortName name) :=
  decidable_of_iff (name.length < 16 ∧ 0 ∉ name) ⟨fun h => ⟨h.1, h.2⟩, fun h => ⟨h.short, h.clean⟩⟩

/-- An ARP request for an address that the interface does not have. -/
def NotForUs (iface : SrIf) (f : Frame) : Prop :=
  sizeofEther + sizeofArp ≤ f.length ∧ f.get etherType = .ok (htons ethertypeArp).toNat ∧
    f.get arOp = .ok (htons arpRequest).toNat ∧ f.get arTip ≠ .ok iface.ip.toNat

instance (iface : SrIf) (f : Frame) : Decidable (NotForUs iface f) :=
  inferInstanceAs (Decidable (_ ∧ _ ∧ _ ∧ _))

variable {cfg : VnsConfig} {host : VnsHost} {sr : SrInstance} {env : Env} {f buf : Frame}
  {name : IfName} {iface : SrIf} {n : Nat}

/-! ## The message -/

theorem strncpy_length (src : List UInt8) (n : Nat) : (strncpy src n).length = n := by
  rw [strncpy, List.length_take, List.length_append, List.length_replicate]
  exact Nat.min_eq_left (Nat.le_add_left n _)

theorem cString_append_zero {s rest : List UInt8} (hs : 0 ∉ s) : cString (s ++ 0 :: rest) = s := by
  have hall : ∀ c ∈ s, decide (c ≠ 0) = true := fun c hc =>
    decide_eq_true fun hzero => hs (hzero ▸ hc)
  rw [cString, List.takeWhile_append_of_pos hall, List.takeWhile_cons_of_neg (by simp), List.append_nil]

theorem cString_of_clean {s : List UInt8} (hs : 0 ∉ s) : cString s = s :=
  List.takeWhile_eq_self_iff.mpr fun _ hc => decide_eq_true fun hzero => hs (hzero ▸ hc)

theorem ShortName.strncpy (h : ShortName name) :
    strncpy name 16 = name ++ 0 :: List.replicate (15 - name.length) 0 := by
  have hshort := h.short
  have hsucc : 16 - name.length = 15 - name.length + 1 := by omega
  rw [PWOSPF.strncpy, cString_of_clean h.clean, List.take_append, List.take_of_length_le (by omega),
    List.take_replicate, Nat.min_eq_left (by omega), hsucc, List.replicate_succ]

theorem packetBytes_length (buf : Frame) (iface : IfName) :
    (packetBytes buf iface).length = buf.length + sizeofPacketHeader := by
  simp only [packetBytes, List.length_append, netBytes_length, strncpy_length, sizeofPacketHeader]
  omega

theorem packetBytes_drop (buf : Frame) (iface : IfName) :
    (packetBytes buf iface).drop sizeofBase = strncpy iface 16 ++ buf ∧
      (packetBytes buf iface).drop sizeofPacketHeader = buf := by
  have hlen : (netBytes 4 (buf.length + sizeofPacketHeader) ++ netBytes 4 vnsPacket.toNat).length =
      sizeofBase := by simp [sizeofBase]
  have hlen' : (netBytes 4 (buf.length + sizeofPacketHeader) ++ netBytes 4 vnsPacket.toNat ++
      strncpy iface 16).length = sizeofPacketHeader := by
    simp [strncpy_length, sizeofPacketHeader]
  constructor
  · rw [packetBytes, List.append_assoc]
    exact List.drop_left' hlen
  · exact List.drop_left' hlen'

/-- The message holds the length, the name and the frame, whatever was in memory. -/
theorem packetMessage_eq (hlen : buf.length + sizeofPacketHeader < 2 ^ 32) :
    packetMessage env buf name = .ok (packetBytes buf name) := by
  have hroom : ((List.range (buf.length + sizeofPacketHeader)).map env.bytes).length =
      buf.length + sizeofPacketHeader := by rw [List.length_map, List.length_range]
  have htotal : (UInt32.ofNat buf.length + UInt32.ofNat sizeofPacketHeader).toNat =
      buf.length + sizeofPacketHeader := by
    rw [← UInt32.ofNat_add, UInt32.toNat_ofNat_of_lt' hlen]
  have hheader : Frame.fieldBytes [(mLen, (htonl (UInt32.ofNat buf.length +
      UInt32.ofNat sizeofPacketHeader)).toNat), (mType, (htonl vnsPacket).toNat)] =
      netBytes 4 (buf.length + sizeofPacketHeader) ++ netBytes 4 vnsPacket.toNat := by
    simp only [Frame.fieldBytes, List.flatMap_cons, List.flatMap_nil, List.append_nil, mLen, mType,
      leBytes_htonl, htotal]
  have hassign := @Frame.assign_adjacent ((List.range (buf.length + sizeofPacketHeader)).map env.bytes)
    [(mLen, (htonl (UInt32.ofNat buf.length + UInt32.ofNat sizeofPacketHeader)).toNat),
      (mType, (htonl vnsPacket).toNat)] 0 ⟨rfl, rfl, trivial⟩ (by
    rw [hheader, hroom]
    simp [sizeofPacketHeader])
  rw [hheader] at hassign
  rw [packetMessage]
  simp only [hassign, ok_bind]
  rw [packetBytes]
  generalize (List.range (buf.length + sizeofPacketHeader)).map env.bytes = garbage at hroom ⊢
  have hheaderLen : (netBytes 4 (buf.length + sizeofPacketHeader) ++ netBytes 4 vnsPacket.toNat).length =
      sizeofBase := by simp [sizeofBase]
  generalize netBytes 4 (buf.length + sizeofPacketHeader) ++ netBytes 4 vnsPacket.toNat = header
    at hheaderLen ⊢
  have hnameLen := strncpy_length name 16
  have hfirst := @patch_patch_next garbage 0 header (strncpy name 16) (by
    rw [hheaderLen, hnameLen, hroom, sizeofPacketHeader, sizeofBase]
    omega)
  have hbothLen : (header ++ strncpy name 16).length = sizeofPacketHeader := by
    rw [List.length_append, hheaderLen, hnameLen]
    rfl
  have hsecond := @patch_patch_next garbage 0 (header ++ strncpy name 16) buf (by
    rw [hbothLen, hroom]
    omega)
  rw [Nat.zero_add, hheaderLen] at hfirst
  rw [Nat.zero_add, hbothLen] at hsecond
  have hin₀ : 0 + header.length ≤ garbage.length := by
    rw [hheaderLen, hroom, sizeofPacketHeader, sizeofBase]
    omega
  have hin₁ : 0 + (header ++ strncpy name 16).length ≤ garbage.length := by
    rw [hbothLen, hroom]
    omega
  rw [Frame.store_eq_ok.mpr ⟨by
      rw [patch_length hin₀, hroom, hnameLen, sizeofPacketHeader, sizeofBase]
      omega, rfl⟩, ok_bind, hfirst,
    Frame.store_eq_ok.mpr ⟨by
      rw [patch_length hin₁, hroom]
      omega, rfl⟩, hsecond, patch_whole (by
      rw [List.length_append, hbothLen, hroom]
      omega)]

/-- It is a command. -/
theorem packetBytes_framed (hlen : buf.length + sizeofPacketHeader ≤ 10000) (name : IfName) :
    WellFramed (packetBytes buf name) ∧ commandOf (packetBytes buf name) = vnsPacket := by
  have hhead : (netBytes 4 (buf.length + sizeofPacketHeader)).length = 4 := netBytes_length 4 _
  have htype : slice (packetBytes buf name) 4 4 = netBytes 4 vnsPacket.toNat := by
    rw [slice, packetBytes, List.append_assoc, List.append_assoc, List.drop_left' hhead]
    exact List.take_left' (netBytes_length 4 _)
  refine ⟨⟨?_, ?_, ?_⟩, ?_⟩
  · rw [packetBytes_length, sizeofBase, sizeofPacketHeader]
    omega
  · rw [packetBytes_length]
    exact hlen
  · rw [packetBytes_length, slice, List.drop_zero, packetBytes, List.append_assoc, List.append_assoc]
    exact List.take_left' hhead
  · rw [commandOf, htype, netBytes, List.reverse_reverse, leValue_leBytes 4 _ (by decide)]
    rfl

/-! ## Handling -/

variable {x : VnsClient} {calls : List Delivery}

/-- What `sr_arp_req_not_for_us` tells. -/
theorem srArpReqNotForUs_eq (hif : srGetInterface sr name = some iface) :
    srArpReqNotForUs sr f f.length name = .ok (decide (NotForUs iface f)) := by
  rw [srArpReqNotForUs]
  by_cases hshort : f.length < sizeofEther + sizeofArp
  · rw [if_pos hshort, decide_eq_false fun h => absurd h.1 (Nat.not_le.mpr hshort)]
  · have hlen := Nat.not_lt.mp hshort
    obtain ⟨type, htype⟩ := @get_of_arp f etherType hlen (by decide)
    obtain ⟨op, hop⟩ := @get_of_arp f arOp hlen (by decide)
    obtain ⟨tip, htip⟩ := @get_of_arp f arTip hlen (by decide)
    rw [if_neg hshort, hif]
    simp only [htype, hop, htip, ok_bind, pure_eq_ok, NotForUs, Except.ok.injEq, hlen, true_and, ne_eq]

/-- The name of the interface is read back from the message. -/
theorem packetInterface_eq (hname : ShortName name) :
    packetInterface sr (hostOrder (packetBytes f name)) = .ok name := by
  have hlen : sizeofBase ≤ (packetBytes f name).length := by
    rw [packetBytes_length, sizeofBase, sizeofPacketHeader]
    omega
  obtain ⟨-, -, hdrop⟩ := slice_hostOrder hlen
  have hshort := hname.short
  have hfront : (strncpy name 16 ++ f).take srIfaceNamelen =
      name ++ 0 :: (List.replicate (15 - name.length) 0 ++ f.take 16) := by
    rw [List.take_append, strncpy_length, List.take_of_length_le (by rw [strncpy_length]; decide),
      hname.strncpy, List.append_assoc, List.cons_append]
    rfl
  rw [packetInterface, hdrop, (packetBytes_drop f name).1, hfront,
    if_pos (Or.inl (List.mem_append_right _ List.mem_cons_self)), cString_append_zero hname.clean]

/-- A frame is handled, unless it is an ARP request for another address. -/
theorem handleCommand_packet (hlen : f.length + sizeofPacketHeader < 2 ^ 32) (hname : ShortName name)
    (hif : srGetInterface sr name = some iface) :
    handleCommand cfg host sr (hostOrder (packetBytes f name)) vnsPacket =
      .ok ⟨1, sr, if NotForUs iface f then [] else [.handles f name]⟩ := by
  have hbase : sizeofBase ≤ (packetBytes f name).length := by
    rw [packetBytes_length, sizeofBase, sizeofPacketHeader]
    omega
  obtain ⟨hsame, -, hdrop⟩ := slice_hostOrder hbase
  have hframe : (hostOrder (packetBytes f name)).drop sizeofPacketHeader = f := by
    have hsplit : sizeofPacketHeader = sizeofBase + 16 := rfl
    rw [hsplit, ← List.drop_drop, hdrop, List.drop_drop, ← hsplit, (packetBytes_drop f name).2]
  have hcount : (UInt32.ofNat (hostOrder (packetBytes f name)).length -
      UInt32.ofNat sizeofPacketHeader).toNat = f.length := by
    rw [hsame, packetBytes_length, UInt32.ofNat_add, UInt32.add_sub_cancel,
      UInt32.toNat_ofNat_of_lt' (show f.length < 2 ^ 32 by omega)]
  rw [handleCommand, if_pos rfl]
  simp only [packetInterface_eq hname, hframe, hcount, srArpReqNotForUs_eq hif, ok_bind]
  by_cases hfor : NotForUs iface f
  · simp only [hfor, decide_true, if_true, pure_eq_ok]
  · simp only [hfor, decide_false, if_false, pure_eq_ok, Bool.false_eq_true]

/-! ## Streams of packets -/

/-- A frame that the server passes on, with the interface it comes in by. -/
structure Arrives (sr : SrInstance) (p : Frame × IfName) : Prop where
  fits : p.1.length + sizeofPacketHeader ≤ 10000
  name : ShortName p.2
  known : ∃ iface, srGetInterface sr p.2 = some iface

/-- Of a frame. -/
def handled (sr : SrInstance) (p : Frame × IfName) : List VnsAction :=
  match srGetInterface sr p.2 with
  | none => []
  | some iface => if NotForUs iface p.1 then [] else [.handles p.1 p.2]

theorem serve_packet (hphase : x.phase = .running) {p : Frame × IfName} (hp : Arrives x.sr p) :
    x.serve cfg host (packetBytes p.1 p.2) = .ok { x with done := x.done ++ handled x.sr p } := by
  obtain ⟨iface, hif⟩ := hp.known
  have hcommand := (packetBytes_framed hp.fits p.2).2
  have hne : ¬ x.phase = .ended := by
    rw [hphase]
    exact VnsPhase.noConfusion
  have hexpects : x.phase.expects = none := by rw [hphase]; rfl
  rw [VnsClient.serve, if_neg hne, hcommand, VnsClient.receive, hexpects]
  show (do
    let out ← handleCommand cfg host x.sr (hostOrder (packetBytes p.1 p.2)) vnsPacket
    _) = _
  rw [handleCommand_packet (Nat.lt_of_le_of_lt hp.fits (by decide)) hp.name hif, ok_bind]
  simp only [if_true, VnsClient.proceed, hphase, pure_eq_ok, handled, hif]

theorem serve_packets {ps : List (Frame × IfName)} (hphase : x.phase = .running)
    (hps : ∀ p ∈ ps, Arrives x.sr p) :
    (ps.map fun p => packetBytes p.1 p.2).foldlM (VnsClient.serve cfg host) x =
      .ok { x with done := x.done ++ ps.flatMap (handled x.sr) } := by
  induction ps generalizing x with
  | nil =>
    rw [List.map_nil, List.foldlM_nil, List.flatMap_nil, List.append_nil]
    rfl
  | cons p ps ih =>
    rw [List.map_cons, List.foldlM_cons, serve_packet hphase (hps p List.mem_cons_self), ok_bind,
      @ih { x with done := x.done ++ handled x.sr p } hphase
        fun q hq => hps q (List.mem_cons_of_mem _ hq),
      List.flatMap_cons, List.append_assoc]

section Demo

/-- A router at 10.0.0.2. -/
def demoClient : SrInstance := ⟨[⟨eth0Interface, Vector.replicate 6 4, 0x0200000a⟩], []⟩

/-- The second frame is a request for 10.0.0.1. -/
def demoFrames : List (Frame × IfName) :=
  [([1, 2, 3], eth0Interface), (demoArpFrame 1 [10, 0, 0, 9], eth0Interface), ([4], eth0Interface)]

end Demo

end PWOSPF
