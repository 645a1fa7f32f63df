import PWOSPF.Forwarding.Paths
import PWOSPF.Packet.InetChecksum

/-!
# ICMP messages

What `icmp_response` writes where its pointers stand: an ICMP header, and behind it the quotation of a
datagram or the data of an echo request. The checksum is right for messages of even length, and for
odd ones if the byte behind them is 0 by chance.
-/

namespace PWOSPF

open Framework PacketField

variable {env : Env} {f : Frame} {name : IfName} {ps ps' : DatagramState} {pos type code n : Nat}

/-! ## Headers -/

/-- The fields that `create_icmp_hdr` writes. -/
def icmpHdrFields (resHead type code : Nat) : List (PacketField × Nat) :=
  [(icmpType.icmpAt resHead, type), (icmpCode.icmpAt resHead, code), (icmpSum.icmpAt resHead, 0),
    (icmpOpt1.icmpAt resHead, 0), (icmpOpt2.icmpAt resHead, 0)]

def icmpHdrBytes (type code : Nat) : List UInt8 := [.ofNat type, .ofNat code, 0, 0, 0, 0, 0, 0]

theorem icmpHdrFields_adjacent (resHead type code : Nat) :
    Frame.Adjacent resHead (icmpHdrFields resHead type code) :=
  ⟨rfl, rfl, rfl, rfl, rfl, True.intro⟩

theorem fieldBytes_icmpHdrFields (resHead type code : Nat) :
    Frame.fieldBytes (icmpHdrFields resHead type code) = icmpHdrBytes type code := by
  simp [Frame.fieldBytes, icmpHdrFields, icmpHdrBytes, icmpAt, icmpType, icmpCode, icmpSum, icmpOpt1,
    icmpOpt2, leBytes]

theorem createIcmpHdr_eq (hroom : ps.responsePos + sizeofIcmp ≤ ps.response.length) :
    createIcmpHdr ps type code = .ok { ps with
      response := patch ps.response ps.responsePos (icmpHdrBytes type code)
      resLen := ps.resLen + sizeofIcmp
      responsePos := ps.responsePos + sizeofIcmp } := by
  have hstored := Frame.assign_adjacent (icmpHdrFields_adjacent ps.responsePos type code)
    (f := ps.response) (by rw [fieldBytes_icmpHdrFields]; exact hroom)
  rw [fieldBytes_icmpHdrFields, icmpHdrFields] at hstored
  rw [createIcmpHdr, hstored]
  rfl

/-! ## Checksums -/

/-- The checksum of the message of length `n` at `pos` is written, and nothing else changes. -/
structure Summed (ps : DatagramState) (pos n : Nat) (ps' : DatagramState) : Prop where
  same : ps' = { ps with response := ps'.response }
  length : ps'.response.length = ps.response.length
  rest : ∀ i, i < pos + 2 ∨ pos + 4 ≤ i → ps'.response[i]? = ps.response[i]?
  csum : HoldsChecksum ps'.response (pos + 2) pos n ↔ n % 2 = 0 ∨ ps.response[pos + n]? = some 0

theorem sumIcmp_summed (ps : DatagramState) (pos : Nat) (hn : ps.resLen - sizeofEther - sizeofIp = n) (hmin : sizeofIcmp ≤ n)
    (hfits : n ≤ 65534) (hroom : pos + n + 1 ≤ ps.response.length) :
    ∃ ps', sumIcmp ps pos = .ok ps' ∧ Summed ps pos n ps' := by
  have h8 : 8 ≤ n := hmin
  obtain ⟨f₁, hclear⟩ := Frame.set_exists (f := ps.response) (a := ⟨pos + 2, 2⟩)
    (show pos + 2 + 2 ≤ _ by omega) 0
  have hlen₁ := Frame.set_length hclear
  have hbuff : n ≤ (f₁.drop pos).length := by
    rw [List.length_drop, hlen₁]
    omega
  obtain ⟨csum, hcsum⟩ : ∃ csum, cksum (f₁.drop pos) n = .ok csum :=
    ⟨_, cksum_eq (n := (n + 1) / 2) (by rw [List.length_drop, hlen₁]; omega) (by omega) rfl⟩
  obtain ⟨f₂, hset⟩ := Frame.set_exists (f := f₁) (a := ⟨pos + 2, 2⟩)
    (show pos + 2 + 2 ≤ _ by rw [hlen₁]; omega) (htons csum).toNat
  refine ⟨{ ps with response := f₂ }, ?_, rfl, (Frame.set_length hset).trans hlen₁, ?_, ?_⟩
  · simp only [sumIcmp, hn]
    rw [show icmpSum.icmpAt pos = ⟨pos + 2, 2⟩ from rfl, hclear, ok_bind, hcsum, ok_bind]
    show (f₁.set ⟨pos + 2, 2⟩ (htons csum).toNat >>= _) = _
    rw [hset]
    rfl
  · intro i hi
    rw [Frame.getElem?_set_apart hset hi, Frame.getElem?_set_apart hclear hi]
  · have hbehind : (f₁.drop pos)[n]? = ps.response[pos + n]? := by
      rw [List.getElem?_drop, Frame.getElem?_set_apart hclear (Or.inr (by simp only; omega))]
    rw [holdsChecksum_set_iff (Nat.le_add_right _ _) (by omega) (by rw [hlen₁]; omega)
      (Frame.get_set hclear (Nat.pow_pos (by decide))) hset, ← hbehind, ← cksum_value_iff hbuff hfits, hcsum,
      Except.ok.injEq]
    rfl

/-! ## Errors -/

/-- The bytes behind the pointer that an error quotes. -/
def quotedLen (len : Nat) : Nat := if len < icmpDataRes then len else icmpDataRes

theorem createIcmpData_eq (hpacket : ipStart + sizeofIp ≤ ps.packet.length)
    (hdata : ps.packetPos + quotedLen ps.len ≤ ps.packet.length)
    (hroom : ps.responsePos + sizeofIp + quotedLen ps.len ≤ ps.response.length) :
    createIcmpData ps = .ok { ps with
      response := patch ps.response ps.responsePos
        (slice ps.packet ipStart sizeofIp ++ slice ps.packet ps.packetPos (quotedLen ps.len))
      resLen := ps.resLen + sizeofIp + quotedLen ps.len
      responsePos := ps.responsePos + sizeofIp + quotedLen ps.len } := by
  have hhdr := slice_length hpacket
  have hquote := slice_length hdata
  have hload : ps.packet.load ipStart sizeofIp = .ok (slice ps.packet ipStart sizeofIp) :=
    if_pos hpacket
  have hload' : ps.packet.load ps.packetPos (quotedLen ps.len) =
      .ok (slice ps.packet ps.packetPos (quotedLen ps.len)) := if_pos hdata
  have hstore := Frame.store_eq_ok.mpr ⟨(show ps.responsePos +
    (slice ps.packet ipStart sizeofIp).length ≤ ps.response.length by rw [hhdr]; omega), rfl⟩
  have hnext := @patch_patch_next ps.response ps.responsePos (slice ps.packet ipStart sizeofIp)
    (slice ps.packet ps.packetPos (quotedLen ps.len)) (by rw [hhdr, hquote]; exact hroom)
  have hstore' := Frame.store_eq_ok.mpr ⟨(show ps.responsePos + sizeofIp +
    (slice ps.packet ps.packetPos (quotedLen ps.len)).length ≤ (patch ps.response ps.responsePos
      (slice ps.packet ipStart sizeofIp)).length by
        rw [hquote, Frame.store_length hstore]; exact hroom), rfl⟩
  rw [hhdr] at hnext
  rw [createIcmpData, hload, ok_bind, hstore, ok_bind]
  show (do
    let response ← Frame.store _ _ (← ps.packet.load ps.packetPos (quotedLen ps.len))
    return ({ ps with
      response := response
      resLen := ps.resLen + sizeofIp + quotedLen ps.len
      responsePos := ps.responsePos + sizeofIp + quotedLen ps.len } : DatagramState)) = _
  rw [hload', ok_bind, hstore', ok_bind, hnext]
  rfl

/-- An ICMP error without its checksum, quoting the IP header and `n` bytes at `pos`. -/
def errorBytes (f : Frame) (pos n type code : Nat) : List UInt8 :=
  icmpHdrBytes type code ++ (slice f ipStart sizeofIp ++ slice f pos n)

theorem errorBytes_length (hlen : ipStart + sizeofIp ≤ f.length) (hn : pos + n ≤ f.length) :
    (errorBytes f pos n type code).length = 28 + n := by
  have hhdr : (icmpHdrBytes type code).length = 8 := rfl
  rw [errorBytes, List.length_append, List.length_append, hhdr, slice_length hlen, slice_length hn,
    sizeofIp]
  omega

theorem quotedLen_eq (len : Nat) : quotedLen len = min 8 len := by
  rw [quotedLen, icmpDataRes]
  split <;> omega

theorem quotedLen_le (len : Nat) : quotedLen len ≤ len ∧ quotedLen len ≤ 8 := by
  rw [quotedLen_eq]
  exact ⟨Nat.min_le_right 8 len, Nat.min_le_left 8 len⟩

/-- The response with the error in it, and the pointers behind it. -/
def DatagramState.withError (ps : DatagramState) (f : Frame) (pos n type code : Nat) : DatagramState :=
  { ps with
    response := patch ps.response pos (errorBytes f pos n type code)
    resLen := pos + sizeofIcmp + sizeofIp + n
    responsePos := pos + sizeofIcmp + sizeofIp + n }

theorem error_written (hps : AtHeader env f name pos ps) (hpos : pos ≤ sizeofEther + sizeofIp)
    (hlen : sizeofEther + sizeofIp ≤ f.length) (type code : Nat) :
    (createIcmpHdr ps type code >>= createIcmpData) =
      .ok (ps.withError f pos (quotedLen (f.length - pos)) type code) := by
  have h34 : 34 ≤ f.length := hlen
  have hle : pos ≤ 34 := hpos
  obtain ⟨hquoted, hshort⟩ := quotedLen_le (f.length - pos)
  have hbuffer : ps.response.length = 10000 := hps.response
  have hhdr : (icmpHdrBytes type code).length = 8 := rfl
  have hroom : ps.responsePos + sizeofIcmp ≤ ps.response.length := by
    rw [hps.responsePos, sizeofIcmp]
    omega
  have hlen₁ : (patch ps.response pos (icmpHdrBytes type code)).length = ps.response.length :=
    patch_length (by rw [hhdr, ← hps.responsePos]; exact hroom)
  have hnext := @patch_patch_next ps.response pos (icmpHdrBytes type code)
    (slice f ipStart sizeofIp ++ slice f pos (quotedLen (f.length - pos))) (by
      have hquote : pos + quotedLen (f.length - pos) ≤ f.length := by omega
      have hfront : (slice f ipStart sizeofIp).length = 20 := slice_length hlen
      rw [hhdr, List.length_append, hfront, slice_length hquote]
      omega)
  rw [createIcmpHdr_eq hroom, ok_bind, createIcmpData_eq]
  · simp only [hps.responsePos, hps.packet, hps.packetPos, hps.len, hps.resLen,
      DatagramState.withError, errorBytes]
    rw [hhdr] at hnext
    rw [show sizeofIcmp = 8 from rfl, hnext]
  · show ipStart + sizeofIp ≤ ps.packet.length
    rw [hps.packet]
    exact hlen
  · show ps.packetPos + quotedLen ps.len ≤ ps.packet.length
    rw [hps.packet, hps.packetPos, hps.len]
    omega
  · show ps.responsePos + sizeofIcmp + sizeofIp + quotedLen ps.len ≤
      (patch ps.response ps.responsePos (icmpHdrBytes type code)).length
    rw [hps.responsePos, hlen₁, hps.len, sizeofIcmp, sizeofIp]
    omega

/-- An ICMP error behind the pointers, with the checksum of what the code takes for it. -/
theorem icmpResponse_error (hps : AtHeader env f name pos ps)
    (hpos : pos = sizeofEther ∨ pos = sizeofEther + sizeofIp) (hlen : sizeofEther + sizeofIp ≤ f.length)
    (htype : type = icmptDestun ∨ type = icmptTimeex) (code : Nat)
    (hn : quotedLen (f.length - pos) = n) {m : Nat} (hm : pos + n = m + 6) :
    ∃ ps', icmpResponse ps type code = .ok ps' ∧ Summed (ps.withError f pos n type code) pos m ps' := by
  have h34 : 34 ≤ f.length := hlen
  have hle : 14 ≤ pos ∧ pos ≤ 34 := by
    rcases hpos with rfl | rfl <;> decide
  obtain ⟨hquote, hshort⟩ := quotedLen_le (f.length - pos)
  have hquoted : pos + n ≤ f.length := by omega
  have hbuffer : ps.response.length = 10000 := hps.response
  have hwritten := error_written hps hle.2 hlen type code
  rw [hn] at hwritten
  have hnot : ¬ type = icmptEchoreply := by
    rcases htype with rfl | rfl <;> decide
  have hfits : pos + (errorBytes f pos n type code).length ≤ ps.response.length := by
    rw [errorBytes_length hlen hquoted, hbuffer]
    omega
  obtain ⟨ps₁, hhdr, hdata⟩ := bind_eq_ok.mp hwritten
  obtain ⟨ps', hsum, hsummed⟩ := sumIcmp_summed (ps.withError f pos n type code) pos
    (n := m) (show pos + 8 + 20 + n - 14 - 20 = m by omega)
    (show 8 ≤ m by omega) (by omega) (by
      show _ ≤ (patch ps.response pos _).length
      rw [patch_length hfits, hbuffer]
      omega)
  refine ⟨ps', ?_, hsummed⟩
  rw [icmpResponse, if_neg hnot, if_pos htype, hhdr, ok_bind, hdata, ok_bind, hps.responsePos]
  exact hsum

/-- The response behind an IP header if it quotes `n` bytes of the data of `f`. -/
structure ErrorWritten (env : Env) (f : Frame) (n type code : Nat) (ps' : DatagramState) : Prop where
  length : ps'.response.length = maxPacLength
  resLen : ps'.resLen = 62 + n
  type : ps'.response[34]? = some (.ofNat type)
  code : ps'.response[35]? = some (.ofNat code)
  quoted : slice ps'.response 42 (20 + n) = slice f ipStart (20 + n)
  csum : HoldsChecksum ps'.response 36 34 (28 + n) ↔ n % 2 = 0 ∨ env.bytes (62 + n) = 0

theorem icmpResponse_errorWritten (hps : AtHeader env f name (sizeofEther + sizeofIp) ps)
    (hlen : sizeofEther + sizeofIp ≤ f.length) (htype : type = icmptDestun ∨ type = icmptTimeex)
    (code : Nat) (hn : quotedLen (f.length - 34) = n) :
    ∃ ps', icmpResponse ps type code = .ok ps' ∧ ErrorWritten env f n type code ps' := by
  have h34 : 34 ≤ f.length := hlen
  obtain ⟨hquote, hshort⟩ := quotedLen_le (f.length - 34)
  have hquoted : 34 + n ≤ f.length := by omega
  have hbuffer : ps.response.length = 10000 := hps.response
  have herror : (errorBytes f 34 n type code).length = 28 + n := errorBytes_length hlen hquoted
  have hfits : 34 + (errorBytes f 34 n type code).length ≤ ps.response.length := by omega
  obtain ⟨ps', hrun, hsame, hlen', hrest, hcsum⟩ :=
    icmpResponse_error hps (Or.inr rfl) hlen htype code hn (m := 28 + n) (show 34 + n = _ by omega)
  have hwritten : ∀ i, i < 34 + 2 ∨ 34 + 4 ≤ i →
      ps'.response[i]? = (patch ps.response 34 (errorBytes f 34 n type code))[i]? := hrest
  have hbehind : (ps.withError f 34 n type code).response[34 + (28 + n)]? =
      some (env.bytes (62 + n)) := by
    show (patch ps.response 34 _)[34 + (28 + n)]? = _
    rw [patch_getElem? hfits, herror, if_neg (by omega), hps.buffer, List.getElem?_map,
      List.getElem?_range (by rw [maxPacLength]; omega), Option.map_some]
    congr 2
    omega
  refine ⟨ps', hrun, ?_, ?_, ?_, ?_, ?_, ?_⟩
  · rw [hlen']
    exact (patch_length hfits).trans hps.response
  · rw [hsame]
    show 34 + 8 + 20 + n = 62 + n
    omega
  · rw [hwritten _ (Or.inl (by decide)), patch_getElem? hfits, if_pos (by omega)]
    rfl
  · rw [hwritten _ (Or.inl (by decide)), patch_getElem? hfits, if_pos (by omega)]
    rfl
  · have hcopied : slice ps'.response 42 (20 + n) =
        slice (patch ps.response 34 (errorBytes f 34 n type code)) 42 (20 + n) :=
      slice_congr fun i hlo _ => hwritten i (Or.inr (Nat.le_trans (by decide) hlo))
    have hquotation : slice f ipStart sizeofIp ++ slice f 34 n = slice f ipStart (20 + n) :=
      (slice_add f ipStart sizeofIp n).symm
    have hhdr : (icmpHdrBytes type code).length = 8 := rfl
    have hwhole : (slice f ipStart (20 + n)).length ≤ 20 + n := List.length_take_le _ _
    rw [hcopied, slice_patch_inside hfits (by decide) (by omega), errorBytes, hquotation, slice,
      List.drop_left' hhdr, List.take_of_length_le hwhole]
  · have heven : (28 + n) % 2 = 0 ↔ n % 2 = 0 := by omega
    rw [← heven, ← Option.some.injEq (env.bytes (62 + n)), ← hbehind]
    exact hcsum

/-! ## Echo replies -/

/-- The response with the reply to an echo request in it. -/
def DatagramState.withEcho (ps : DatagramState) (f : Frame) : DatagramState :=
  { ps with
    packetPos := 42
    len := f.length - 42
    response := patch (patch ps.response 34 (icmpHdrBytes icmptEchoreply icmptEchoreply)) 38
      (slice f 38 (f.length - 38))
    resLen := f.length
    responsePos := 42 }

theorem copyEchoData_eq (ps : DatagramState) (hdata : ps.packetPos + ps.len ≤ ps.packet.length) (hmin : sizeofIcmp ≤ ps.len)
    (hroom : ps.responsePos + (ps.len - sizeofIcmp) ≤ ps.response.length) :
    copyEchoData ps = .ok { ps with
      response := patch ps.response ps.responsePos
        (slice ps.packet (ps.packetPos + sizeofIcmp) (ps.len - sizeofIcmp))
      packetPos := ps.packetPos + sizeofIcmp
      len := ps.len - sizeofIcmp
      resLen := ps.resLen + (ps.len - sizeofIcmp) } := by
  have hin : ps.packetPos + sizeofIcmp + (ps.len - sizeofIcmp) ≤ ps.packet.length := by omega
  have hload : ps.packet.load (ps.packetPos + sizeofIcmp) (ps.len - sizeofIcmp) = .ok _ := if_pos hin
  have hstore := Frame.store_eq_ok.mpr ⟨(show ps.responsePos + (slice ps.packet
    (ps.packetPos + sizeofIcmp) (ps.len - sizeofIcmp)).length ≤ ps.response.length by
      rw [slice_length hin]; exact hroom), rfl⟩
  simp only [copyEchoData]
  rw [hload, ok_bind, hstore, ok_bind]
  rfl

/-- The identifier and the sequence number are copied, too. -/
theorem opts_copied (response : Frame) (hlen : 42 ≤ f.length) (hroom : 42 ≤ response.length) :
    ∃ opt1 opt2, f.get ⟨38, 2⟩ = .ok opt1 ∧ f.get ⟨40, 2⟩ = .ok opt2 ∧
      response.assign [(⟨38, 2⟩, opt1), (⟨40, 2⟩, opt2)] = .ok (patch response 38 (slice f 38 4)) := by
  obtain ⟨opt1, hopt1⟩ := Frame.get_exists (f := f) (b := ⟨38, 2⟩) (show 38 + 2 ≤ f.length by omega)
  obtain ⟨opt2, hopt2⟩ := Frame.get_exists (f := f) (b := ⟨40, 2⟩) (show 40 + 2 ≤ f.length by omega)
  have hopts : Frame.fieldBytes [(⟨38, 2⟩, opt1), (⟨40, 2⟩, opt2)] = slice f 38 4 := by
    have hsplit : slice f 38 4 = slice f 38 2 ++ slice f 40 2 := slice_add f 38 2 2
    rw [hsplit, ← Frame.leBytes_of_get hopt1, ← Frame.leBytes_of_get hopt2]
    rfl
  have hassign := Frame.assign_adjacent (o := 38) (l := [(⟨38, 2⟩, opt1), (⟨40, 2⟩, opt2)])
    (f := response) ⟨rfl, rfl, True.intro⟩ (by rw [hopts, slice_length (by omega)]; exact hroom)
  rw [hopts] at hassign
  exact ⟨opt1, opt2, hopt1, hopt2, hassign⟩

/-- What is copied behind the checksum ends where the frame ends. -/
theorem echo_copied {response : Frame} (hlen : 42 ≤ f.length) (hroom : f.length ≤ response.length) :
    patch (patch response 38 (slice f 38 4)) 42 (slice f 42 (f.length - 42)) =
      patch response 38 (slice f 38 (f.length - 38)) := by
  have hdata : slice f 38 4 ++ slice f 42 (f.length - 42) = slice f 38 (f.length - 38) := by
    rw [← slice_add f 38 4]
    congr 1
    omega
  have hnext := @patch_patch_next response 38 (slice f 38 4) (slice f 42 (f.length - 42)) (by
    rw [slice_length (by omega), slice_length (by omega)]
    omega)
  rwa [slice_length (by omega), hdata] at hnext

theorem icmpResponse_echo (hps : AtHeader env f name (sizeofEther + sizeofIp) ps)
    (hlen : 42 ≤ f.length) (hfits : f.length ≤ maxReceived) :
    ∃ ps', icmpResponse ps icmptEchoreply icmptEchoreply = .ok ps' ∧
      Summed (ps.withEcho f) 34 (f.length - 34) ps' := by
  have hmax : f.length ≤ 9976 := hfits
  have hpacket : ps.packet = f := hps.packet
  have hpos : ps.responsePos = 34 := hps.responsePos
  have hpos' : ps.packetPos = 34 := hps.packetPos
  have hlen' : ps.len = f.length - 34 := hps.len
  have hresLen : ps.resLen = 34 := hps.resLen
  have hroom : ps.responsePos + sizeofIcmp ≤ ps.response.length := by
    rw [hpos, hps.response]
    decide
  have hbuffer : (patch ps.response 34 (icmpHdrBytes icmptEchoreply icmptEchoreply)).length = 10000 := by
    rw [patch_length (by rw [hps.response]; decide), hps.response]
    rfl
  obtain ⟨opt1, opt2, hopt1, hopt2, hassign⟩ := opts_copied
    (patch ps.response 34 (icmpHdrBytes icmptEchoreply icmptEchoreply)) hlen (by omega)
  have hcopied := copyEchoData_eq { ps with
      response := patch (patch ps.response 34 (icmpHdrBytes icmptEchoreply icmptEchoreply)) 38
        (slice f 38 4)
      resLen := 42
      responsePos := 42 }
    (by rw [hpos', hlen', hpacket]; omega) (by rw [hlen', sizeofIcmp]; omega) (by
      show 42 + (ps.len - 8) ≤ (patch _ 38 _).length
      rw [Frame.assign_length hassign, hbuffer, hlen']
      omega)
  obtain ⟨ps', hsum, hsummed⟩ := sumIcmp_summed (ps.withEcho f) 34
    (n := f.length - 34) (show f.length - 14 - 20 = _ by omega) (show 8 ≤ _ by omega) (by omega) (by
      show _ ≤ (patch _ 38 (slice f 38 (f.length - 38))).length
      rw [patch_length (by rw [slice_length (by omega), hbuffer]; omega), hbuffer]
      omega)
  refine ⟨ps', ?_, hsummed⟩
  rw [icmpResponse, if_pos rfl]
  simp only [createIcmpHdr_eq hroom, ok_bind, hpos, hpos', hresLen, hpacket]
  rw [show f.get (icmpOpt1.icmpAt 34) = .ok opt1 from hopt1, ok_bind,
    show f.get (icmpOpt2.icmpAt 34) = .ok opt2 from hopt2, ok_bind]
  have hrest : ps.len - sizeofIcmp = f.length - 42 := by rw [hlen', Nat.sub_sub]; rfl
  have hwhole : 42 + (f.length - 42) = f.length := Nat.add_sub_cancel' hlen
  simp only [hrest, hpacket, hpos'] at hcopied
  rw [show 34 + sizeofIcmp = 42 from rfl, echo_copied hlen (by omega), hwhole] at hcopied
  simp only [DatagramState.withEcho, hpacket] at hsum
  exact bind_eq_ok.mpr ⟨_, hassign, bind_eq_ok.mpr ⟨_, hcopied, hsum⟩⟩

/-- The response behind an IP header if it is the reply to an echo request. -/
structure EchoWritten (f : Frame) (ps' : DatagramState) : Prop where
  length : ps'.response.length = maxPacLength
  resLen : ps'.resLen = f.length
  type : ps'.response[34]? = some 0
  code : ps'.response[35]? = some 0
  mirrored : slice ps'.response 38 (f.length - 38) = slice f 38 (f.length - 38)

theorem icmpResponse_echoWritten (hps : AtHeader env f name (sizeofEther + sizeofIp) ps)
    (hlen : 42 ≤ f.length) (hfits : f.length ≤ maxReceived) :
    ∃ ps', icmpResponse ps icmptEchoreply icmptEchoreply = .ok ps' ∧ EchoWritten f ps' := by
  have hmax : f.length ≤ 9976 := hfits
  have hbuffer : ps.response.length = 10000 := hps.response
  have hhdr : 34 + (icmpHdrBytes icmptEchoreply icmptEchoreply).length ≤ ps.response.length := by
    rw [hbuffer]
    decide
  have hdata : (slice f 38 (f.length - 38)).length = f.length - 38 := slice_length (by omega)
  have hin : 38 + (slice f 38 (f.length - 38)).length ≤
      (patch ps.response 34 (icmpHdrBytes icmptEchoreply icmptEchoreply)).length := by
    rw [hdata, patch_length hhdr, hbuffer]
    omega
  obtain ⟨ps', hrun, hsame, hlen', hrest, -⟩ := icmpResponse_echo hps hlen hfits
  have hwritten : ∀ i, i < 34 + 2 ∨ 34 + 4 ≤ i → ps'.response[i]? =
      (patch (patch ps.response 34 (icmpHdrBytes icmptEchoreply icmptEchoreply)) 38
        (slice f 38 (f.length - 38)))[i]? := hrest
  refine ⟨ps', hrun, ?_, ?_, ?_, ?_, ?_⟩
  · rw [hlen']
    exact ((patch_length hin).trans (patch_length hhdr)).trans hps.response
  · rw [hsame]
    rfl
  · rw [hwritten _ (Or.inl (by decide)), patch_getElem? hin, if_neg (by omega), patch_getElem? hhdr]
    rfl
  · rw [hwritten _ (Or.inl (by decide)), patch_getElem? hin, if_neg (by omega), patch_getElem? hhdr]
    rfl
  · have hself := slice_patch_self hin
    rw [hdata] at hself
    exact (slice_congr fun i hlo _ => hwritten i (Or.inr hlo)).trans hself

end PWOSPF
