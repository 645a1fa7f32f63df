import PWOSPF.Vns.Hardware

/-!
# A whole session

From the first command to the last frame: what the router has done in the end.
-/

namespace PWOSPF

open Framework VnsField PacketField

/-- The server asks for authentication and takes the answer. -/
structure Greeting (cfg : VnsConfig) (host : VnsHost) (req status : Frame) (key : List UInt8) : Prop where
  user : cfg.user.length < 2 ^ 31
  readable : cfg.authKey.bind (readAuthKey host.env) = some key
  asks : WellFramed req ∧ commandOf req = vnsAuthRequest
  answered : host.sends (authReply cfg (req.drop sizeofBase) key) = true
  tells : WellFramed status ∧ commandOf status = vnsAuthStatus
  accepted : ∃ b, status[sizeofBase]? = some b ∧ b ≠ 0
  opened : host.sends (openMessage cfg) = true

/-- Then it lists the interfaces of the router and passes frames on. The router has the list `sr'` of
interfaces and routes then. -/
structure Conversation (cfg : VnsConfig) (host : VnsHost) (sr sr' : SrInstance) (req status : Frame)
    (es : List HwBytes) (ps : List (Frame × IfName)) (key : List UInt8) : Prop
    extends Greeting cfg host req status key where
  template : cfg.template = []
  values : ∀ e ∈ es, e.2.length = 32
  fits : sizeofBase + es.length * sizeofHwEntry ≤ 10000
  interfaces : ∃ ifs, Described ((es.map hwItem).filter fun item => item ≠ .other) ifs ∧
    sr' = { sr with ifList := sr.ifList ++ ifs }
  packets : ∀ p ∈ ps, Arrives sr' p

/-- The commands of the server. -/
def commands (req status : Frame) (es : List HwBytes) (ps : List (Frame × IfName)) : List Frame :=
  req :: status :: hwMessage es :: ps.map fun p => packetBytes p.1 p.2

/-- The router in the end. -/
def outcome (cfg : VnsConfig) (sr' : SrInstance) (req : Frame) (ps : List (Frame × IfName))
    (key : List UInt8) : VnsClient :=
  if Consistent sr' then
    ⟨.running, sr', [.sends (authReply cfg (req.drop sizeofBase) key), .sends (openMessage cfg),
      .starts sr'] ++ ps.flatMap (handled sr')⟩
  else ⟨.ended, sr', [.sends (authReply cfg (req.drop sizeofBase) key), .sends (openMessage cfg)]⟩

variable {cfg : VnsConfig} {host : VnsHost} {sr sr' : SrInstance} {req status : Frame}
  {es : List HwBytes} {ps : List (Frame × IfName)} {key : List UInt8}

namespace Greeting

theorem serve_req (h : Greeting cfg host req status key) :
    (VnsClient.start sr).serve cfg host req =
      .ok ⟨.authStatus, sr, [.sends (authReply cfg (req.drop sizeofBase) key)]⟩ := by
  obtain ⟨hlen, hslice, hdrop⟩ := slice_hostOrder h.asks.1.long
  have hauth := @srHandleAuthRequest_reply cfg host.env (hostOrder req) key
    (by rw [hlen]; exact h.asks.1.long) (by rw [hslice, hlen]; exact h.asks.1.len)
    (by rw [hlen]; exact Nat.lt_of_le_of_lt h.asks.1.short (by decide)) h.user h.readable
  rw [hdrop] at hauth
  rw [VnsClient.serve, if_neg (show ¬ (VnsClient.start sr).phase = .ended from VnsPhase.noConfusion),
    h.asks.2, VnsClient.receive]
  show (do
    let out ← serveCommand cfg host sr (some vnsAuthRequest) (hostOrder req) vnsAuthRequest
    _) = _
  rw [serveCommand_expected, handleCommand, if_neg (by decide), if_neg (by decide), if_neg (by decide),
    if_neg (by decide), if_pos rfl, hauth, ok_bind]
  simp only [h.answered, if_true, pure_eq_ok, ok_bind]
  rfl

theorem serve_status (h : Greeting cfg host req status key) {done : List VnsAction} :
    VnsClient.serve cfg host ⟨.authStatus, sr, done⟩ status =
      .ok ⟨if cfg.template = [] then .running else .rtable, sr, done ++ [.sends (openMessage cfg)]⟩ := by
  obtain ⟨b, hbyte, hb⟩ := h.accepted
  obtain ⟨-, -, hdrop⟩ := slice_hostOrder h.tells.1.long
  have hhead := congrArg (fun l : List UInt8 => l[0]?) hdrop
  simp only [List.getElem?_drop, Nat.add_zero] at hhead
  have hget : (hostOrder status).get ⟨sizeofBase, 1⟩ = .ok b.toNat :=
    Frame.get_of_getElem? (hhead.trans hbyte)
  have hne : b.toNat ≠ 0 := fun hzero => hb (UInt8.toNat_inj.mp hzero)
  rw [VnsClient.serve, if_neg (show ¬ VnsPhase.authStatus = .ended from VnsPhase.noConfusion),
    h.tells.2, VnsClient.receive]
  show (do
    let out ← serveCommand cfg host sr (some vnsAuthStatus) (hostOrder status) vnsAuthStatus
    _) = _
  rw [serveCommand_expected, handleCommand, if_neg (by decide), if_neg (by decide), if_neg (by decide),
    if_neg (by decide), if_neg (by decide), if_pos rfl, hget, ok_bind, if_neg hne, pure_eq_ok, ok_bind]
  simp only [VnsClient.proceed, h.opened, if_true, List.append_nil]
  rfl

end Greeting

namespace Conversation

theorem framed (h : Conversation cfg host sr sr' req status es ps key) :
    ∀ w ∈ commands req status es ps, WellFramed w := by
  intro w hw
  rcases List.mem_cons.mp hw with rfl | hw
  · exact h.asks.1
  rcases List.mem_cons.mp hw with rfl | hw
  · exact h.tells.1
  rcases List.mem_cons.mp hw with rfl | hw
  · exact (hwMessage_framed h.values h.fits).1
  obtain ⟨p, hp, rfl⟩ := List.mem_map.mp hw
  exact (packetBytes_framed (h.packets p hp).fits p.2).1

/-- Command by command. -/
theorem serve_commands (h : Conversation cfg host sr sr' req status es ps key) :
    (commands req status es ps).foldlM (VnsClient.serve cfg host) (.start sr) =
      .ok (outcome cfg sr' req ps key) := by
  obtain ⟨ifs, hitems, hsr'⟩ := h.interfaces
  have hhw := @serve_hwMessage cfg host es ifs ⟨.running, sr,
    [.sends (authReply cfg (req.drop sizeofBase) key)] ++ [.sends (openMessage cfg)]⟩ rfl h.values h.fits
    hitems
  rw [← hsr'] at hhw
  rw [commands, List.foldlM_cons, h.serve_req, ok_bind, List.foldlM_cons, h.serve_status,
    if_pos h.template, ok_bind, List.foldlM_cons, hhw, ok_bind, outcome]
  by_cases hconsistent : Consistent sr'
  · rw [if_pos hconsistent, if_pos hconsistent]
    exact serve_packets rfl h.packets
  · rw [if_neg hconsistent, if_neg hconsistent]
    exact serve_ended rfl

end Conversation

section Demo

/-- One interface, with its speed in between. -/
def demoEntries : List HwBytes :=
  [(hwInterface, eth0Interface ++ List.replicate 28 0), (2, List.replicate 32 7),
    (hwEther, List.replicate 6 4 ++ List.replicate 26 0), (hwEthIp, [10, 0, 0, 2] ++ List.replicate 28 0)]

def demoRoutes : List SrRt := [⟨0, 0x0100000a, 0, eth0Interface⟩]

end Demo

end PWOSPF
