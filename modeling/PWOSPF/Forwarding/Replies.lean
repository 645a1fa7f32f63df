import PWOSPF.Forwarding.Gate

/-!
# Replies to what went out

A datagram from inside opens the way for its answer: the connection that is entered in the flow table
is to be the one the answer will have. But the code asks the firewall while its pointer is still at the
IP header, and takes the first four bytes of that for the ports.
-/

namespace PWOSPF

open Framework PacketField

/-- An IP packet that `sr_read_from_server_expect` hands over, with the routing state it meets. -/
structure Arrival where
  sr : SrInstance
  subsys : PwospfSubsys
  env : Env
  frame : Frame
  interface : IfName
  type : frame.get etherType = .ok (htons ethertypeIp).toNat
  fits : frame.length ≤ maxReceived

def Arrival.handleIp (x : Arrival) (fw : Firewall) : Exec IpOutcome :=
  PWOSPF.handleIp x.sr fw x.subsys x.env (.received x.env x.frame x.interface)

/-- The firewall with the connections of the datagrams forwarded from inside, oldest first. -/
structure Gateway where
  fw : Firewall
  sent : List Flow

def Gateway.start (fw : Firewall) : Gateway := ⟨fw, []⟩

def Gateway.run (g : Gateway) (x : Arrival) : Exec Gateway := do
  let out ← x.handleIp g.fw
  let forwarded := !isExternal g.fw x.interface && out.ps.forward
  return ⟨out.firewall, g.sent ++ if forwarded then (trueFlow x.frame).toList else []⟩

def GatewayStep (g : Gateway) (x : Arrival) (g' : Gateway) : Prop := g.run x = .ok g'

/-- The connection the firewall is told of for a datagram from inside. -/
def toldFlow (f : Frame) : Option Flow := askedFlow sizeofEther f

/-- Where the code looks for the ports are the ports; and a datagram from inside has hops left, so
that it is forwarded if the firewall is told of it. -/
structure PortsInPlace (g : Gateway) (x : Arrival) : Prop where
  outgoing : isExternal g.fw x.interface = false → ∀ h, loadIpHdr x.frame = .ok h →
    ForOthers x.sr h.dst → ∀ flow, toldFlow x.frame = some flow →
      trueFlow x.frame = some flow ∧ 1 ≤ h.ttl
  incoming : Incoming x.sr g.fw x.subsys x.frame x.interface →
    checkedFlow x.frame = trueFlow x.frame

section Step

variable {sr : SrInstance} {fw : Firewall} {S : PwospfSubsys} {env : Env} {f : Frame} {name : IfName}
  {h : IpHdr} {ps : DatagramState} {out : IpOutcome} {g g' : Gateway} {x : Arrival}

theorem forwardIp_outside (hps : Untouched f name sizeofEther ps)
    (hexternal : isExternal fw name = true) (hrun : forwardIp sr fw S env h ps = .ok out) :
    LooksUp fw env out.firewall := by
  have hchosen := hps.chooseRoute sr S h.dst
  rw [forwardIp] at hrun
  cases hroute : (ps.chooseRoute sr S h.dst).route with
  | none =>
    simp only [hroute] at hrun
    cases hrun
    exact Or.inl rfl
  | some route =>
    simp only [hroute, hchosen.interface, hexternal, if_true] at hrun
    by_cases hinternal : isInternal fw route.1 = true
    · rw [if_pos hinternal] at hrun
      obtain ⟨⟨fw', allowed⟩, hask, hrun⟩ := bind_eq_ok.mp hrun
      have hlook : LooksUp fw env fw' := askFirewall_looksUp hask
      cases allowed with
      | true =>
        rw [(expireOrForward_ok hrun (hchosen.leaveHdrRoom sizeofIp).forward).1]
        exact hlook
      | false =>
        cases hrun
        exact hlook
    · rw [if_neg hinternal] at hrun
      exact Or.inl (expireOrForward_ok hrun hchosen.forward).1

/-- From inside, the firewall is told of the connection with the ports at the start of the header. -/
theorem forwardIp_fromInside (hps : Untouched f name sizeofEther ps) (hload : loadIpHdr f = .ok h)
    (hexternal : isExternal fw name = false) (hrun : forwardIp sr fw S env h ps = .ok out) :
    (out.firewall = fw ∧ out.ps.forward = false) ∨
      ∃ flow allowed, flowAt sizeofEther f = some flow ∧
        tellValid fw env.clock flow.reverse = .ok (out.firewall, allowed) ∧
        (out.ps.forward = true ↔ allowed = true ∧ 1 ≤ h.ttl) := by
  have hchosen := hps.chooseRoute sr S h.dst
  have hlen : sizeofEther ≤ f.length := Nat.le_trans (by decide) (loadIpHdr_length hload)
  rw [forwardIp] at hrun
  cases hroute : (ps.chooseRoute sr S h.dst).route with
  | none =>
    simp only [hroute] at hrun
    cases hrun
    exact Or.inl ⟨rfl, hchosen.forward⟩
  | some route =>
    simp only [hroute, hchosen.interface, hexternal, Bool.false_eq_true, if_false] at hrun
    rw [askFirewall_eq hchosen hlen hload] at hrun
    cases hflow : flowAt sizeofEther f with
    | none =>
      rw [hflow] at hrun
      cases hrun
      exact Or.inl ⟨rfl, hchosen.forward⟩
    | some flow =>
      rw [hflow, Option.elim_some] at hrun
      obtain ⟨⟨fw', allowed⟩, htold, hrun⟩ := bind_eq_ok.mp hrun
      right
      refine ⟨flow, allowed, rfl, ?_⟩
      cases allowed with
      | true =>
        obtain ⟨hfw, -, -, -, hmarked⟩ := expireOrForward_ok hrun hchosen.forward
        rw [hfw]
        exact ⟨htold, by rw [hmarked, eq_self, true_and]⟩
      | false =>
        cases hrun
        refine ⟨htold, ?_⟩
        rw [IpOutcome.refused, hchosen.forward]
        simp

/-- From inside, `handle_ip` tells the firewall of the connection, or does nothing to it and forwards
nothing. -/
theorem Arrival.fromInside (hexternal : isExternal fw x.interface = false)
    (hrun : x.handleIp fw = .ok out) :
    (LooksUp fw x.env out.firewall ∧ out.ps.forward = false) ∨
      ∃ h flow allowed, loadIpHdr x.frame = .ok h ∧ ForOthers x.sr h.dst ∧
        toldFlow x.frame = some flow ∧
        tellValid fw x.env.clock flow.reverse = .ok (out.firewall, allowed) ∧
        (out.ps.forward = true ↔ allowed = true ∧ 1 ≤ h.ttl) := by
  obtain ⟨ps, hps, hrefused | ⟨head, h, hhead, hplain, hload, hlocal | ⟨hothers, hforward⟩⟩⟩ :=
    handleIp_cases (received_untouched x.env x.frame x.interface) hrun
  · rw [hrefused]
    exact Or.inl ⟨Or.inl rfl, hps.forward⟩
  · obtain ⟨hlook, hsame⟩ := ownAddressLoop_ok hlocal
    exact Or.inl ⟨hlook, hsame.trans hps.forward⟩
  · cases forwardIp_fromInside hps hload hexternal hforward with
    | inl hnothing => exact Or.inl ⟨Or.inl hnothing.1, hnothing.2⟩
    | inr htold =>
      obtain ⟨flow, allowed, hflow, htold⟩ := htold
      right
      refine ⟨h, flow, allowed, hload, hothers, ?_, htold⟩
      rw [toldFlow, askedFlow, hhead]
      exact (if_neg hplain).trans hflow

theorem Arrival.fromOutside (hexternal : isExternal fw x.interface = true)
    (hrun : x.handleIp fw = .ok out) : LooksUp fw x.env out.firewall := by
  obtain ⟨ps, hps, hrefused | ⟨head, h, hhead, hplain, hload, hlocal | ⟨hothers, hforward⟩⟩⟩ :=
    handleIp_cases (received_untouched x.env x.frame x.interface) hrun
  · rw [hrefused]
    exact Or.inl rfl
  · exact (ownAddressLoop_ok hlocal).1
  · exact forwardIp_outside hps hexternal hforward

/-- A datagram from inside that has a route and hops left is forwarded if the firewall has room for
its connection. -/
theorem Arrival.forwards {flow : Flow} {fw' : Firewall} {tempIf : IfName}
    (hexternal : isExternal fw x.interface = false) (hload : loadIpHdr x.frame = .ok h)
    (hothers : ForOthers x.sr h.dst) (hroute : chosenIf x.sr x.subsys h.dst = some tempIf)
    (hflow : toldFlow x.frame = some flow)
    (htold : tellValid fw x.env.clock flow.reverse = .ok (fw', true)) (httl : 1 ≤ h.ttl) :
    ∃ out, x.handleIp fw = .ok out ∧ out.firewall = fw' ∧ out.ps.forward = true := by
  have hlen := loadIpHdr_length hload
  obtain ⟨head, hhead⟩ := Frame.get_exists (f := x.frame) (b := ipHead)
    (Nat.le_trans (by decide) hlen)
  obtain ⟨ps, hps, hrun⟩ := handleIp_forOthers fw x.subsys x.env
    (received_untouched x.env x.frame x.interface) hhead hload hothers hlen
  have hchosen := hps.chooseRoute x.sr x.subsys h.dst
  obtain ⟨out, hout⟩ := expireOrForward_exists fw' x.subsys x.env hchosen httl hlen x.fits (Nat.le_refl _)
  obtain ⟨hfw, -, -, -, hmarked⟩ := expireOrForward_ok hout hchosen.forward
  refine ⟨out, ?_, hfw, hmarked.mpr httl⟩
  simp only [toldFlow, askedFlow, hhead] at hflow
  by_cases hoptions : ipHl head * 4 > sizeofIp
  · rw [if_pos hoptions] at hflow
    cases hflow
  · rw [if_neg hoptions] at hflow
    rw [← chooseRoute_route x.sr x.subsys ps] at hroute
    obtain ⟨⟨tempIf', nhop⟩, hroute', -⟩ := Option.map_eq_some_iff.mp hroute
    rw [Arrival.handleIp, hrun, if_neg hoptions]
    simp only [forwardIp, hroute', hchosen.interface, hexternal, Bool.false_eq_true, if_false]
    rw [askFirewall_eq hchosen (Nat.le_trans (by decide) hlen) hload, hflow, Option.elim_some, htold,
      ok_bind]
    exact hout

/-! ## What the table stands for -/

@[simp] theorem Flow.reverse_reverse (flow : Flow) : flow.reverse.reverse = flow := rfl

theorem LooksUp.toFlow {fw' : Firewall} (hlook : LooksUp fw env fw') :
    fw'.flowTable.map FtEntry.toFlow = fw.flowTable.map FtEntry.toFlow := by
  cases hlook with
  | inl hsame => rw [hsame]
  | inr hlooked =>
    obtain ⟨flow, hlooked⟩ := hlooked
    rw [hlooked]
    exact checkConnection_toFlow fw env.clock flow

/-- Every connection in the table is the reverse of one that went out, or was there at the start. -/
def Opened (fw₀ : Firewall) (g : Gateway) : Prop :=
  ∀ flow ∈ g.fw.flowTable.map FtEntry.toFlow,
    flow.reverse ∈ g.sent ∨ flow ∈ fw₀.flowTable.map FtEntry.toFlow

theorem Opened.step {fw₀ : Firewall} (hopen : Opened fw₀ g) (hx : PortsInPlace g x)
    (hstep : GatewayStep g x g') : Opened fw₀ g' := by
  obtain ⟨out, hrun, hg'⟩ := bind_eq_ok.mp hstep
  cases hg'
  have hkept : LooksUp g.fw x.env out.firewall → ∀ flow ∈ out.firewall.flowTable.map FtEntry.toFlow,
      flow.reverse ∈ g.sent ∨ flow ∈ fw₀.flowTable.map FtEntry.toFlow := by
    intro hlook flow hflow
    rw [hlook.toFlow] at hflow
    exact hopen flow hflow
  intro flow hflow
  cases hexternal : isExternal g.fw x.interface with
  | true => exact (hkept (x.fromOutside hexternal hrun) flow hflow).imp_left (List.mem_append_left _)
  | false =>
    obtain ⟨hlook, -⟩ | ⟨h, out', allowed, hload, hothers, htold, hvalid, hmarked⟩ :=
      x.fromInside hexternal hrun
    · exact (hkept hlook flow hflow).imp_left (List.mem_append_left _)
    · cases (tellValid_toFlow hvalid).2 flow hflow with
      | inl hold => exact (hopen flow hold).imp_left (List.mem_append_left _)
      | inr hnew =>
        obtain ⟨hallowed, rfl⟩ := hnew
        obtain ⟨htrue, httl⟩ := hx.outgoing hexternal h hload hothers out' htold
        left
        rw [hmarked.mpr ⟨hallowed, httl⟩, htrue]
        exact List.mem_append_right _ List.mem_cons_self

/-! ## Answers -/

/-- The firewall lets the datagram pass: it is not dropped, and forwarded if it has hops left. -/
structure LetIn (fw : Firewall) (x : Arrival) : Prop where
  kept : ∀ out, x.handleIp fw = .ok out → out.ret = true
  forwarded : ∀ h, loadIpHdr x.frame = .ok h → 1 ≤ h.ttl →
    ∃ out, x.handleIp fw = .ok out ∧ out.ps.forward = true

theorem accepts_of_live {clock : Nat → Time} {flow : Flow} {i : Nat} {e : FtEntry}
    (he : fw.flowTable[i]? = some e) (hflow : e.toFlow = flow) (hlive : e.Live (clock i)) :
    Accepts fw clock flow :=
  accepts_iff.mpr (Or.inr (ftContains_isSome_iff.mpr ⟨i, e, he, hflow, hlive⟩))

/-- What no rule lets in is in the table. -/
theorem Accepts.listed {clock : Nat → Time} {flow : Flow} (haccepts : Accepts fw clock flow)
    (hrule : ruleContains fw flow = false) : flow ∈ fw.flowTable.map FtEntry.toFlow := by
  cases accepts_iff.mp haccepts with
  | inl hlet =>
    rw [hrule] at hlet
    cases hlet
  | inr hsome =>
    obtain ⟨i, e, he, hflow, -⟩ := ftContains_isSome_iff.mp hsome
    rw [← hflow]
    exact List.mem_map_of_mem (List.mem_of_getElem? he)

theorem letIn_of_accepts {flow : Flow} (hin : Incoming x.sr fw x.subsys x.frame x.interface)
    (hflow : checkedFlow x.frame = some flow) (haccepts : Accepts fw x.env.clock flow) :
    LetIn fw x := by
  cases hin.handleIp_cases x.env with
  | inr hdrop => exact absurd haccepts (hdrop.1 flow hflow)
  | inl hpass =>
    obtain ⟨flow', h, ps, -, -, hload, hps, hrun⟩ := hpass
    constructor
    · intro out hout
      rw [Arrival.handleIp, hrun] at hout
      exact (expireOrForward_ok hout hps.forward).2.2.2.1
    · intro h' hload' httl
      rw [hload, Except.ok.injEq] at hload'
      subst hload'
      obtain ⟨out, hout⟩ := expireOrForward_exists (checkConnection fw x.env.clock flow').1
        x.subsys x.env hps httl (loadIpHdr_length hload) x.fits (by decide)
      exact ⟨out, hrun.trans hout, (expireOrForward_ok hout hps.forward).2.2.2.2.mpr httl⟩

end Step

/-- As long as the ports are where the code looks for them: what goes out enters or refreshes its
reverse in the table, an answer is let in while its connection is live there, and what no rule lets
in answers something that went out, or a connection that was in the table at the start. -/
theorem replies_letIn {fw₀ : Firewall} {g : Gateway}
    (hg : Reach GatewayStep PortsInPlace (.start fw₀) g) {x : Arrival} (hx : PortsInPlace g x) :
    (∀ out, x.handleIp g.fw = .ok out → isExternal g.fw x.interface = false →
        out.ps.forward = true → ∃ flow, trueFlow x.frame = some flow ∧
          tellValid g.fw x.env.clock flow.reverse = .ok (out.firewall, true) ∧
          flow.reverse ∈ out.firewall.flowTable.map FtEntry.toFlow) ∧
      (∀ (flow : Flow) (i : Nat) (e : FtEntry), Incoming x.sr g.fw x.subsys x.frame x.interface →
        trueFlow x.frame = some flow → g.fw.flowTable[i]? = some e → e.toFlow = flow →
        e.Live (x.env.clock i) → LetIn g.fw x) ∧
      ∀ out flow, Incoming x.sr g.fw x.subsys x.frame x.interface →
        x.handleIp g.fw = .ok out → out.ps.forward = true → trueFlow x.frame = some flow →
        ruleContains g.fw flow = false →
        flow.reverse ∈ g.sent ∨ flow ∈ fw₀.flowTable.map FtEntry.toFlow := by
  have hopen : Opened fw₀ g := by
    refine Reach.invariant (I := Opened fw₀) (fun flow hflow => Or.inr hflow) ?_ hg
    exact fun g x g' hopen hx hstep => hopen.step hx hstep
  refine ⟨?_, ?_, ?_⟩
  · intro out hrun hexternal hforward
    obtain ⟨-, hnot⟩ | ⟨h, flow, allowed, hload, hothers, htold, hvalid, hmarked⟩ :=
      x.fromInside hexternal hrun
    · rw [hforward] at hnot
      cases hnot
    · obtain ⟨hallowed, -⟩ := hmarked.mp hforward
      rw [hallowed] at hvalid
      exact ⟨flow, (hx.outgoing hexternal h hload hothers flow htold).1, hvalid,
        (tellValid_toFlow hvalid).1 rfl⟩
  · intro flow i e hin htrue he hflow hlive
    exact letIn_of_accepts hin ((hx.incoming hin).trans htrue) (accepts_of_live he hflow hlive)
  · intro out flow hin hrun hforward htrue hrule
    obtain ⟨flow', hchecked, haccepts⟩ := hin.accepts_of_forward hrun hforward
    rw [hx.incoming hin, htrue, Option.some.injEq] at hchecked
    subst hchecked
    exact hopen flow (haccepts.listed hrule)

section Demo

/-- A UDP datagram without data, between 10.0.0.9 and 172.16.0.9. -/
def demoDatagram (src dst ports sum : List UInt8) : Frame :=
  [1, 1, 1, 1, 1, 1, 2, 2, 2, 2, 2, 2, 8, 0, 0x45, 0, 0, 28, 0, 0, 0, 0, 64, 17, 196, 175] ++
    src ++ dst ++ ports ++ [0, 8] ++ sum

def demoArrival (frame : Frame) (interface : IfName)
    (type : frame.get etherType = .ok (htons ethertypeIp).toNat)
    (fits : frame.length ≤ maxReceived) : Arrival :=
  ⟨demoGateway, demoStart, demoEnv, frame, interface, type, fits⟩

/-- From port 17664 to port 28: the first bytes of the header, and the length of the datagram. -/
def demoQuery : Arrival :=
  demoArrival (demoDatagram [10, 0, 0, 9] [172, 16, 0, 9] [69, 0, 0, 28] [4, 160]) eth0Interface
    (by decide) (by decide)

def demoAnswer : Arrival :=
  demoArrival (demoDatagram [172, 16, 0, 9] [10, 0, 0, 9] [0, 28, 69, 0] [4, 160]) eth1Interface
    (by decide) (by decide)

/-- From port 1000 to port 53. -/
def demoLookup : Arrival :=
  demoArrival (demoDatagram [10, 0, 0, 9] [172, 16, 0, 9] [3, 232, 0, 53] [69, 159]) eth0Interface
    (by decide) (by decide)

def demoLookupAnswer : Arrival :=
  demoArrival (demoDatagram [172, 16, 0, 9] [10, 0, 0, 9] [0, 53, 3, 232] [69, 159]) eth1Interface
    (by decide) (by decide)

/-- The connection entered for both. -/
def demoEntered : Flow := ⟨0x090010ac, 0x0900000a, 17, 0x1c00, 0x0045⟩

theorem demo_step {x : Arrival} {flow : Flow} (hinside : isExternal demoPolicy x.interface = false)
    (hload : loadIpHdr x.frame = .ok ⟨64, 17, 0x0900000a, 0x090010ac⟩)
    (hothers : ForOthers x.sr 0x090010ac) (hroute : chosenIf x.sr x.subsys 0x090010ac = some eth1Interface)
    (htold : toldFlow x.frame = some demoEntered.reverse) (htrue : trueFlow x.frame = some flow)
    (hclock : x.env = demoEnv) :
    GatewayStep (.start demoPolicy) x ⟨addConnect demoPolicy 0 demoEntered, [flow]⟩ := by
  have hvalid : tellValid demoPolicy x.env.clock demoEntered.reverse.reverse =
      .ok (addConnect demoPolicy 0 demoEntered, true) := by
    rw [hclock]
    decide
  obtain ⟨out, hrun, hfw, hforward⟩ := x.forwards hinside hload hothers hroute htold hvalid (by decide)
  have hrun' : x.handleIp (Gateway.start demoPolicy).fw = .ok out := hrun
  rw [GatewayStep, Gateway.run, hrun', ok_bind, hfw]
  simp only [Gateway.start, hinside, hforward, htrue]
  rfl

theorem replies_letIn_demo :
    ∃ g, Reach GatewayStep PortsInPlace (.start demoPolicy) g ∧ g.sent = [demoEntered.reverse] ∧
      LetIn g.fw demoAnswer := by
  have htold : toldFlow demoQuery.frame = some demoEntered.reverse := by decide
  have htrue : trueFlow demoQuery.frame = some demoEntered.reverse := by decide
  have hstep := demo_step (x := demoQuery) (by decide) (by decide) (by decide) (by decide) htold htrue rfl
  have hplace : PortsInPlace (.start demoPolicy) demoQuery := by
    constructor
    · intro _ h hload _ flow hflow
      have hload' : loadIpHdr demoQuery.frame = .ok ⟨64, 17, 0x0900000a, 0x090010ac⟩ := by decide
      rw [hload', Except.ok.injEq] at hload
      rw [htold, Option.some.injEq] at hflow
      rw [← hflow, ← hload]
      exact ⟨htrue, by decide⟩
    · exact fun hin => absurd hin.external (by decide)
  have hreach : Reach GatewayStep PortsInPlace (.start demoPolicy)
      ⟨addConnect demoPolicy 0 demoEntered, [demoEntered.reverse]⟩ := .next .start hplace hstep
  refine ⟨_, hreach, rfl, ?_⟩
  have hplace' : PortsInPlace ⟨addConnect demoPolicy 0 demoEntered, [demoEntered.reverse]⟩
      demoAnswer := by
    constructor
    · exact fun houtside => absurd houtside (by decide)
    · exact fun _ => by decide
  have hin : Incoming demoAnswer.sr (addConnect demoPolicy 0 demoEntered) demoAnswer.subsys
      demoAnswer.frame demoAnswer.interface :=
    demo_incoming (p := 17) demoAnswer.type (by decide) (by decide) (by decide)
  exact (replies_letIn hreach hplace').2.1 demoEntered 0 ⟨demoEntered, 50, 0⟩ hin (by decide) rfl rfl
    (by decide)

/-- The answer to a datagram from port 1000 to port 53 is dropped. -/
theorem reply_dropped :
    ∃ g flow, Reach GatewayStep (fun _ _ => True) (.start demoPolicy) g ∧ flow ∈ g.sent ∧
      flow.reverse ∉ g.fw.flowTable.map FtEntry.toFlow ∧
      Incoming demoLookupAnswer.sr g.fw demoLookupAnswer.subsys demoLookupAnswer.frame
        demoLookupAnswer.interface ∧
      trueFlow demoLookupAnswer.frame = some flow.reverse ∧ ¬ LetIn g.fw demoLookupAnswer := by
  have htrue : trueFlow demoLookup.frame = some ⟨0x0900000a, 0x090010ac, 17, 0xe803, 0x3500⟩ := by
    decide
  have hstep := demo_step (x := demoLookup) (by decide) (by decide) (by decide) (by decide) (by decide)
    htrue rfl
  have hin : Incoming demoLookupAnswer.sr (addConnect demoPolicy 0 demoEntered)
      demoLookupAnswer.subsys demoLookupAnswer.frame demoLookupAnswer.interface :=
    demo_incoming (p := 17) demoLookupAnswer.type (by decide) (by decide) (by decide)
  refine ⟨_, _, .next .start True.intro hstep, List.mem_cons_self, by decide, hin, by decide, ?_⟩
  intro hlet
  obtain ⟨out, hrun, hforward⟩ := hlet.forwarded ⟨64, 17, 0x090010ac, 0x0900000a⟩ (by decide) (by decide)
  obtain ⟨flow, hflow, haccepts⟩ := hin.accepts_of_forward hrun hforward
  have hchecked : checkedFlow demoLookupAnswer.frame =
      some ⟨0x090010ac, 0x0900000a, 17, 0x3500, 0xe803⟩ := by decide
  rw [hchecked, Option.some.injEq] at hflow
  rw [← hflow] at haccepts
  exact absurd haccepts (by decide)

end Demo

end PWOSPF
