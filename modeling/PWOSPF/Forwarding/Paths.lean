import PWOSPF.Forwarding.Replies

/-!
# Where the pointers are

`packet` and `response` move through their buffers together, and `len` and `res_len` with them. On the
forwarding path they stand at the IP header or behind it, depending on the interfaces.
-/

namespace PWOSPF

open Framework PacketField

variable {sr : SrInstance} {fw : Firewall} {S : PwospfSubsys} {env : Env} {f : Frame} {name : IfName}
  {h : IpHdr} {ps : DatagramState} {out : IpOutcome} {pos : Nat}

/-- The datagram as it was received, with both pointers at `pos`, and nothing in the response yet. -/
structure AtHeader (env : Env) (f : Frame) (name : IfName) (pos : Nat) (ps : DatagramState) : Prop
    extends Untouched f name pos ps where
  responsePos : ps.responsePos = pos
  resLen : ps.resLen = pos
  buffer : ps.response = (List.range maxPacLength).map env.bytes

theorem AtHeader.chooseRoute (h : AtHeader env f name pos ps) (sr : SrInstance) (S : PwospfSubsys)
    (dst : InAddr) : AtHeader env f name pos (ps.chooseRoute sr S dst) := by
  refine ⟨h.toUntouched.chooseRoute sr S dst, ?_, ?_, ?_⟩
  all_goals
    unfold DatagramState.chooseRoute
    cases getDynRoutingIf S dst with
    | some e => first | exact h.responsePos | exact h.resLen | exact h.buffer
    | none => first | exact h.responsePos | exact h.resLen | exact h.buffer

theorem AtHeader.leaveHdrRoom (h : AtHeader env f name pos ps) (n : Nat) :
    AtHeader env f name (pos + n) (ps.leaveHdrRoom n) where
  toUntouched := h.toUntouched.leaveHdrRoom n
  responsePos := congrArg (· + n) h.responsePos
  resLen := congrArg (· + n) h.resLen
  buffer := h.buffer

theorem AtHeader.mark (h : AtHeader env f name pos ps) (ok : Bool) :
    AtHeader env f name pos { ps with okToSend := ok } where
  packet := h.packet
  packetPos := h.packetPos
  len := h.len
  interface := h.interface
  response := h.response
  forward := h.forward
  responsePos := h.responsePos
  resLen := h.resLen
  buffer := h.buffer

theorem received_atHeader (env : Env) (f : Frame) (name : IfName) :
    AtHeader env f name sizeofEther (.received env f name) where
  toUntouched := received_untouched env f name
  responsePos := by simp only [DatagramState.received, DatagramState.leaveHdrRoom, Nat.zero_add]
  resLen := by simp only [DatagramState.received, DatagramState.leaveHdrRoom, Nat.zero_add]
  buffer := by simp only [DatagramState.received, DatagramState.leaveHdrRoom]

theorem loadIpHdr_fields (hload : loadIpHdr f = .ok h) :
    f.get ipTtl = .ok h.ttl ∧ f.get ipP = .ok h.p ∧ f.get ipSrc = .ok h.src.toNat ∧
      f.get ipDst = .ok h.dst.toNat := by
  obtain ⟨ttl, httl, hload⟩ := bind_eq_ok.mp hload
  obtain ⟨p, hp, hload⟩ := bind_eq_ok.mp hload
  obtain ⟨src, hsrc, hload⟩ := bind_eq_ok.mp hload
  obtain ⟨dst, hdst, hload⟩ := bind_eq_ok.mp hload
  cases hload
  refine ⟨httl, hp, ?_, ?_⟩
  · rw [hsrc, UInt32.toNat_ofNat_of_lt' (Frame.get_lt hsrc)]
  · rw [hdst, UInt32.toNat_ofNat_of_lt' (Frame.get_lt hdst)]

/-- What `handle_ip` does not drop of the datagrams for others has a route and is answered or forwarded,
with the pointers at the IP header or behind it. -/
theorem forwardIp_cases (hps : AtHeader env f name sizeofEther ps)
    (hrun : forwardIp sr fw S env h ps = .ok out) :
    (∃ fw' ps', out = .refused fw' S ps') ∨
      ∃ fw' pos ps' route, (pos = sizeofEther ∨ pos = sizeofEther + sizeofIp) ∧
        AtHeader env f name pos ps' ∧ ps'.route = some route ∧
        expireOrForward fw' S env h ps' = .ok out := by
  have hchosen := hps.chooseRoute sr S h.dst
  have hasked : ∀ {ps' : DatagramState} {r : Firewall × Bool},
      (if r.2 then expireOrForward r.1 S env h ps' else .ok (.refused r.1 S ps')) = .ok out →
        out = .refused r.1 S ps' ∨ expireOrForward r.1 S env h ps' = .ok out := by
    intro ps' r hrun
    cases hallowed : r.2 with
    | true =>
      rw [hallowed] at hrun
      exact Or.inr hrun
    | false =>
      rw [hallowed] at hrun
      cases hrun
      exact Or.inl rfl
  rw [forwardIp] at hrun
  cases hroute : (ps.chooseRoute sr S h.dst).route with
  | none =>
    simp only [hroute] at hrun
    cases hrun
    exact Or.inl ⟨fw, _, rfl⟩
  | some route =>
    simp only [hroute, hchosen.interface] at hrun
    by_cases hexternal : isExternal fw name = true
    · rw [if_pos hexternal] at hrun
      by_cases hinternal : isInternal fw route.1 = true
      · rw [if_pos hinternal] at hrun
        obtain ⟨r, -, hrun⟩ := bind_eq_ok.mp hrun
        refine (hasked hrun).imp (fun hrefused => ⟨r.1, _, hrefused⟩) fun hend => ?_
        exact ⟨r.1, _, _, route, Or.inr rfl, hchosen.leaveHdrRoom sizeofIp, hroute, hend⟩
      · rw [if_neg hinternal] at hrun
        exact Or.inr ⟨fw, _, _, route, Or.inl rfl, hchosen, hroute, hrun⟩
    · rw [if_neg hexternal] at hrun
      obtain ⟨r, -, hrun⟩ := bind_eq_ok.mp hrun
      refine (hasked hrun).imp (fun hrefused => ⟨r.1, _, hrefused⟩) fun hend => ?_
      exact ⟨r.1, _, _, route, Or.inl rfl, hchosen, hroute, hend⟩

/-- What becomes of a datagram for others. -/
theorem handleIp_others (hrun : handleIp sr fw S env (.received env f name) = .ok out)
    (hload : loadIpHdr f = .ok h) (hothers : ForOthers sr h.dst) :
    (∃ fw' ps', out = .refused fw' S ps') ∨
      ∃ fw' pos ps' route, (pos = sizeofEther ∨ pos = sizeofEther + sizeofIp) ∧
        AtHeader env f name pos ps' ∧ ps'.route = some route ∧
        expireOrForward fw' S env h ps' = .ok out := by
  have hstart := (received_atHeader env f name).mark false
  obtain hrefused | ⟨head, h', -, -, hload', hown | ⟨-, hforward⟩⟩ := handleIp_paths hrun
  · exact Or.inl ⟨fw, _, hrefused⟩
  · rw [(received_untouched env f name).packet, hload, Except.ok.injEq] at hload'
    subst hload'
    rw [ownAddressLoop_none_iff.mpr hothers] at hown
    cases hown
  · rw [(received_untouched env f name).packet, hload, Except.ok.injEq] at hload'
    subst hload'
    exact forwardIp_cases hstart hforward

end PWOSPF
