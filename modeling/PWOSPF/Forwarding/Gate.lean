import PWOSPF.Forwarding.Datagram
import PWOSPF.Subsystem.HopCounts
import PWOSPF.Subsystem.Runs

/-!
# From outside to inside

What the firewall lets in. The code means to drop datagrams with IP options, but the field it looks at
is the version; behind a header with options it takes option bytes for the ports.
-/

namespace PWOSPF

open Framework PacketField

/-- The transport header stands behind the IP header, whose length in 32-bit words is in the low half
of its first byte. -/
def transportStart (head : Nat) : Nat := ipStart + 4 * (head % 16)

/-- The connection a datagram belongs to. -/
def trueFlow (f : Frame) : Option Flow :=
  match f.get ipHead with
  | .ok head => flowAt (transportStart head) f
  | .error _ => none

/-- The IP header has no options. -/
def NoOptions (f : Frame) : Prop := ∃ head, f.get ipHead = .ok head ∧ head % 16 = 5

/-- The connection the firewall is asked for if the pointer `packet` is at `pos`. -/
def askedFlow (pos : Nat) (f : Frame) : Option Flow :=
  match f.get ipHead with
  | .ok head => if ipHl head * 4 > sizeofIp then none else flowAt pos f
  | .error _ => none

/-- The connection that is checked for a datagram from outside. -/
def checkedFlow (f : Frame) : Option Flow := askedFlow (sizeofEther + sizeofIp) f

/-- The firewall has a rule or a live entry for the connection. -/
def Accepts (fw : Firewall) (clock : Nat → Time) (flow : Flow) : Prop :=
  (checkConnection fw clock flow).2 = true

instance (fw : Firewall) (clock : Nat → Time) (flow : Flow) : Decidable (Accepts fw clock flow) :=
  inferInstanceAs (Decidable (_ = true))

/-- An IP datagram that arrives at an external interface, is not for the router, and whose route
leaves by an internal one. -/
structure Incoming (sr : SrInstance) (fw : Firewall) (S : PwospfSubsys) (f : Frame)
    (name : IfName) : Prop where
  type : f.get etherType = .ok (htons ethertypeIp).toNat
  external : isExternal fw name = true
  header : ∃ h tempIf, loadIpHdr f = .ok h ∧ ForOthers sr h.dst ∧
    chosenIf sr S h.dst = some tempIf ∧ isInternal fw tempIf = true

/-- The datagram is forwarded only if its connection is accepted; if it is not, `handle_ip` returns 0,
nothing is sent and the flow table is as before. -/
structure NoBypass (sr : SrInstance) (fw : Firewall) (S : PwospfSubsys) (env : Env) (f : Frame)
    (name : IfName) : Prop where
  forwarded : ∀ out, handleIp sr fw S env (.received env f name) = .ok out →
    out.ps.forward = true → ∃ flow, trueFlow f = some flow ∧ Accepts fw env.clock flow
  refused : (∀ flow, trueFlow f = some flow → ¬ Accepts fw env.clock flow) →
    (∃ ps, handleIp sr fw S env (.received env f name) = .ok (.refused fw S ps)) ∧
      srHandlepacket sr fw S env f name = .ok ⟨fw, S, []⟩

variable {sr : SrInstance} {fw : Firewall} {S : PwospfSubsys} {env : Env} {f : Frame} {name : IfName}
  {h : IpHdr} {ps : DatagramState} {flow : Flow}

theorem loadIpHdr_length (hload : loadIpHdr f = .ok h) : sizeofEther + sizeofIp ≤ f.length := by
  obtain ⟨ttl, -, hload⟩ := bind_eq_ok.mp hload
  obtain ⟨p, -, hload⟩ := bind_eq_ok.mp hload
  obtain ⟨src, -, hload⟩ := bind_eq_ok.mp hload
  obtain ⟨dst, hdst, -⟩ := bind_eq_ok.mp hload
  exact Frame.get_bounds hdst

theorem accepts_iff {clock : Nat → Time} : Accepts fw clock flow ↔
    ruleContains fw flow = true ∨ (ftContains clock flow fw.flowTable).isSome = true :=
  checkConnection_allowed_iff

/-- A connection that is not accepted leaves no trace in the flow table. -/
theorem checkConnection_refused (hno : ¬ Accepts fw env.clock flow) :
    checkConnection fw env.clock flow = (fw, false) := by
  obtain ⟨hrule, hfound⟩ := not_or.mp fun h => hno (accepts_iff.mpr h)
  rw [checkConnection, if_neg hrule, Option.not_isSome_iff_eq_none.mp hfound]

/-- The path of a datagram from outside to inside. -/
theorem forwardIp_inside (env : Env) (hps : Untouched f name sizeofEther ps) (hload : loadIpHdr f = .ok h)
    (hexternal : isExternal fw name = true) {tempIf : IfName}
    (hroute : chosenIf sr S h.dst = some tempIf) (hinternal : isInternal fw tempIf = true) :
    ∃ ps', Untouched f name (sizeofEther + sizeofIp) ps' ∧
      ((∃ flow, flowAt (sizeofEther + sizeofIp) f = some flow ∧ Accepts fw env.clock flow ∧
          forwardIp sr fw S env h ps =
            expireOrForward (checkConnection fw env.clock flow).1 S env h ps') ∨
        (∀ flow, flowAt (sizeofEther + sizeofIp) f = some flow → ¬ Accepts fw env.clock flow) ∧
          forwardIp sr fw S env h ps = .ok (.refused fw S ps')) := by
  have hchosen := hps.chooseRoute sr S h.dst
  have hmoved := hchosen.leaveHdrRoom sizeofIp
  refine ⟨_, hmoved, ?_⟩
  rw [← chooseRoute_route sr S ps] at hroute
  obtain ⟨⟨tempIf', nhop⟩, hroute', rfl⟩ := Option.map_eq_some_iff.mp hroute
  simp only [forwardIp, hroute', hchosen.interface, hexternal, hinternal, if_true]
  rw [askFirewall_eq hmoved (loadIpHdr_length hload) hload]
  cases hflow : flowAt (sizeofEther + sizeofIp) f with
  | none =>
    right
    exact ⟨fun _ h => (by cases h), rfl⟩
  | some flow =>
    rw [Option.elim_some, ok_bind]
    by_cases hallowed : Accepts fw env.clock flow
    · left
      refine ⟨flow, rfl, hallowed, ?_⟩
      exact if_pos hallowed
    · right
      constructor
      · intro flow' hflow'
        cases hflow'
        exact hallowed
      · rw [checkConnection_refused hallowed]
        rfl

/-- A datagram from outside passes if the connection that is checked for it is accepted. -/
theorem Incoming.handleIp_cases (hin : Incoming sr fw S f name) (env : Env) :
    (∃ flow h ps, checkedFlow f = some flow ∧ Accepts fw env.clock flow ∧
        loadIpHdr f = .ok h ∧ Untouched f name (sizeofEther + sizeofIp) ps ∧
        handleIp sr fw S env (.received env f name) =
          expireOrForward (checkConnection fw env.clock flow).1 S env h ps) ∨
      (∀ flow, checkedFlow f = some flow → ¬ Accepts fw env.clock flow) ∧
        ∃ ps, ps.forward = false ∧
          handleIp sr fw S env (.received env f name) = .ok (.refused fw S ps) := by
  obtain ⟨h, tempIf, hload, hothers, hroute, hinternal⟩ := hin.header
  have hlen := loadIpHdr_length hload
  obtain ⟨head, hhead⟩ := Frame.get_exists (f := f) (b := ipHead) (Nat.le_trans (by decide) hlen)
  obtain ⟨ps₁, hps₁, hrun⟩ := handleIp_forOthers fw S env (received_untouched env f name) hhead hload hothers hlen
  simp only [checkedFlow, askedFlow, hhead]
  by_cases hoptions : ipHl head * 4 > sizeofIp
  · right
    rw [if_pos hoptions] at hrun ⊢
    exact ⟨fun _ h => (by cases h), ps₁, hps₁.forward, hrun⟩
  · rw [if_neg hoptions] at hrun ⊢
    obtain ⟨ps₂, hps₂, hpath⟩ := forwardIp_inside env hps₁ hload hin.external hroute
      hinternal
    rw [hrun]
    cases hpath with
    | inl hpass =>
      obtain ⟨flow, hflow, haccepts, hpass⟩ := hpass
      exact Or.inl ⟨flow, h, ps₂, hflow, haccepts, hload, hps₂, hpass⟩
    | inr hdrop => exact Or.inr ⟨hdrop.1, ps₂, hps₂.forward, hdrop.2⟩

theorem Incoming.accepts_of_forward {out : IpOutcome} (hin : Incoming sr fw S f name)
    (hrun : handleIp sr fw S env (.received env f name) = .ok out)
    (hforward : out.ps.forward = true) :
    ∃ flow, checkedFlow f = some flow ∧ Accepts fw env.clock flow := by
  cases hin.handleIp_cases env with
  | inl hpass =>
    obtain ⟨flow, -, -, hflow, haccepts, -⟩ := hpass
    exact ⟨flow, hflow, haccepts⟩
  | inr hdrop =>
    obtain ⟨-, ps, hps, hdropped⟩ := hdrop
    rw [hdropped] at hrun
    cases hrun
    rw [IpOutcome.refused, hps] at hforward
    cases hforward

theorem NoOptions.trueFlow (h : NoOptions f) (hflow : checkedFlow f = some flow) :
    trueFlow f = some flow := by
  obtain ⟨head, hhead, hwords⟩ := h
  have hstart : transportStart head = sizeofEther + sizeofIp := by rw [transportStart, hwords]; rfl
  simp only [checkedFlow, askedFlow, hhead] at hflow
  simp only [PWOSPF.trueFlow, hhead, hstart]
  by_cases hoptions : ipHl head * 4 > sizeofIp
  · rw [if_pos hoptions] at hflow
    cases hflow
  · rw [if_neg hoptions] at hflow
    exact hflow

/-- A datagram whose checked connection is accepted is not dropped. -/
theorem NoBypass.accepts (hsafe : NoBypass sr fw S env f name) (hin : Incoming sr fw S f name)
    (hflow : checkedFlow f = some flow) (haccepts : Accepts fw env.clock flow) :
    ∃ flow', trueFlow f = some flow' ∧ Accepts fw env.clock flow' := by
  by_contra hnone
  obtain ⟨⟨ps, hdropped⟩, -⟩ := hsafe.refused fun flow' h hacc => hnone ⟨flow', h, hacc⟩
  cases hin.handleIp_cases env with
  | inl hpass =>
    obtain ⟨flow', h, ps', -, -, -, hps', hrun⟩ := hpass
    rw [hrun] at hdropped
    have hret := (expireOrForward_ok hdropped hps'.forward).2.2.2.1
    cases hret
  | inr hdrop => exact hdrop.1 flow hflow haccepts

/-- Nothing gets past the firewall exactly if the header has no options, or the connection that is
checked is refused, or the true one is accepted as well. -/
theorem noBypass_iff (hin : Incoming sr fw S f name) (env : Env) :
    NoBypass sr fw S env f name ↔
      NoOptions f ∨ (∀ flow, checkedFlow f = some flow → ¬ Accepts fw env.clock flow) ∨
        ∃ flow, trueFlow f = some flow ∧ Accepts fw env.clock flow := by
  constructor
  · intro hsafe
    right
    by_cases hchecked : ∃ flow, checkedFlow f = some flow ∧ Accepts fw env.clock flow
    · obtain ⟨flow, hflow, haccepts⟩ := hchecked
      exact Or.inr (hsafe.accepts hin hflow haccepts)
    · exact Or.inl fun flow hflow haccepts => hchecked ⟨flow, hflow, haccepts⟩
  · intro hcond
    have htrue : ∀ flow, checkedFlow f = some flow → Accepts fw env.clock flow →
        ∃ flow', trueFlow f = some flow' ∧ Accepts fw env.clock flow' := by
      intro flow hflow haccepts
      obtain hplain | hrefused | htrue := hcond
      · exact ⟨flow, hplain.trueFlow hflow, haccepts⟩
      · exact absurd haccepts (hrefused flow hflow)
      · exact htrue
    constructor
    · intro out hrun hforward
      obtain ⟨flow, hflow, haccepts⟩ := hin.accepts_of_forward hrun hforward
      exact htrue flow hflow haccepts
    · intro hnone
      cases hin.handleIp_cases env with
      | inl hpass =>
        obtain ⟨flow, -, -, hflow, haccepts, -⟩ := hpass
        obtain ⟨flow', hflow', haccepts'⟩ := htrue flow hflow haccepts
        exact absurd haccepts' (hnone flow' hflow')
      | inr hdrop =>
        obtain ⟨-, ps, -, hrun⟩ := hdrop
        have hlen : sizeofEther ≤ f.length := by
          obtain ⟨h, tempIf, hload, -⟩ := hin.header
          exact Nat.le_trans (by decide) (loadIpHdr_length hload)
        exact ⟨⟨ps, hrun⟩, srHandlepacket_refused hlen hin.type hrun⟩

section Demo

/-- The characters of `"eth1"`. -/
def eth1Interface : IfName := [101, 116, 104, 49]

/-- A router between 10.0.0.0/24 inside, at `eth0`, and everything else outside, at `eth1`. -/
def demoGateway : SrInstance where
  ifList := [⟨eth0Interface, .replicate 6 1, 0x0100000a⟩, ⟨eth1Interface, .replicate 6 2, 0x010010ac⟩]
  routingTable := [⟨0x0000000a, 0, 0x00ffffff, eth0Interface⟩, ⟨0, 0xfe0010ac, 0, eth1Interface⟩]

/-- Only the port 257 is open to the outside. -/
def demoPolicy : Firewall where
  flowTable := []
  rules := [⟨⟨0, 0, 0, 0, 0x0101⟩, 0, 0⟩]
  ftSize := 0
  inter := [eth0Interface]
  exter := [eth1Interface]

/-- A TCP segment from port 1000 of 172.16.0.9 to port 257 of 10.0.0.9. -/
def demoSegment : Frame :=
  [1, 1, 1, 1, 1, 1, 2, 2, 2, 2, 2, 2, 8, 0,
    0x45, 0, 0, 40, 0, 0, 0, 0, 64, 6, 196, 174, 172, 16, 0, 9, 10, 0, 0, 9,
    3, 232, 1, 1, 0, 0, 0, 1, 0, 0, 0, 0, 80, 2, 16, 0, 228, 214, 0, 0]

/-- One to port 23, with four no-operation options, which look like port 257. -/
def demoOptions : Frame :=
  [1, 1, 1, 1, 1, 1, 2, 2, 2, 2, 2, 2, 8, 0,
    0x46, 0, 0, 44, 0, 0, 0, 0, 64, 6, 193, 168, 172, 16, 0, 9, 10, 0, 0, 9, 1, 1, 1, 1,
    3, 232, 0, 23, 0, 0, 0, 1, 0, 0, 0, 0, 80, 2, 16, 0, 229, 192, 0, 0]

/-- A datagram of 172.16.0.9 to 10.0.0.9 comes from outside and goes inside. -/
theorem demo_incoming {fw : Firewall} {f : Frame} {p : Nat}
    (htype : f.get etherType = .ok (htons ethertypeIp).toNat)
    (hload : loadIpHdr f = .ok ⟨64, p, 0x090010ac, 0x0900000a⟩)
    (hexternal : isExternal fw eth1Interface = true) (hinternal : isInternal fw eth0Interface = true) :
    Incoming demoGateway fw demoStart f eth1Interface := by
  have hothers : ForOthers demoGateway 0x0900000a := by decide
  have hroute : chosenIf demoGateway demoStart 0x0900000a = some eth0Interface := by decide
  exact ⟨htype, hexternal, _, eth0Interface, hload, hothers, hroute, hinternal⟩

theorem noBypass_iff_demo :
    NoBypass demoGateway demoPolicy demoStart demoEnv demoSegment eth1Interface := by
  have hin : Incoming demoGateway demoPolicy demoStart demoSegment eth1Interface :=
    demo_incoming (p := 6) (by decide) (by decide) (by decide) (by decide)
  exact (noBypass_iff hin demoEnv).mpr (Or.inl ⟨0x45, by decide, by decide⟩)

theorem bypass :
    Incoming demoGateway demoPolicy demoStart demoOptions eth1Interface ∧
      ¬ NoBypass demoGateway demoPolicy demoStart demoEnv demoOptions eth1Interface := by
  have hin : Incoming demoGateway demoPolicy demoStart demoOptions eth1Interface :=
    demo_incoming (p := 6) (by decide) (by decide) (by decide) (by decide)
  refine ⟨hin, ?_⟩
  intro hsafe
  have hchecked : checkedFlow demoOptions =
      some ⟨0x090010ac, 0x0900000a, 6, 0x0101, 0x0101⟩ := by decide
  have htrue : trueFlow demoOptions =
      some ⟨0x090010ac, 0x0900000a, 6, 0xe803, 0x1700⟩ := by decide
  obtain ⟨flow, hflow, haccepts⟩ := hsafe.accepts hin hchecked (by decide)
  rw [htrue] at hflow
  cases hflow
  exact absurd haccepts (by decide)

end Demo

end PWOSPF
