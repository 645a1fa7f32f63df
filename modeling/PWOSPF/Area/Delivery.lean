import PWOSPF.Area.HopByHop
import PWOSPF.Forwarding.Journey

/-!
# Delivery

In a network whose databases have converged, the routers carry a datagram for one of its subnets to a
nearest router that holds the subnet, whatever their ARP caches hold: each of them sends it on once, to
the next hop in its table, until it is there. The hops it needs are the distance.
-/

namespace PWOSPF

open Framework Topo PacketField

variable {ι : Type}

/-- The router `i` sends the frame to an interface of another router. -/
def CarriedOn (L : Layout ι) (fw : ι → Firewall) (S : ι → PwospfSubsys) (dst : InAddr)
    (x y : ι × Frame) : Prop :=
  ∃ env name r e, ∃ c ∈ r.sent, srHandlepacket (L.sr x.1) (fw x.1) (S x.1) env x.2 name = .ok r ∧
    getDynRoutingIf (S x.1) dst = some e ∧ 0 < e.numHops ∧ c.HeadsFor env e.interface e.nextHop ∧
    (∃ g ∈ (S y.1).interfaces, g.address = e.nextHop) ∧ c.Delivers y.2

/-- A datagram for `dst` without options that a router can receive, with this many hops left. -/
structure DatagramFor (dst : InAddr) (t : Nat) (f : Frame) : Prop where
  type : f.get etherType = .ok (htons ethertypeIp).toNat
  head : ∃ head, f.get ipHead = .ok head ∧ ipHl head * 4 ≤ sizeofIp
  fits : f.length ≤ maxReceived
  load : ∃ h, loadIpHdr f = .ok h ∧ h.dst = dst ∧ h.ttl = t

/-- No router of the network has the address, and no firewall looks at what it forwards. -/
structure Unhindered (L : Layout ι) (fw : ι → Firewall) (dst : InAddr) : Prop where
  others : ∀ i, ForOthers (L.sr i) dst
  external : ∀ i, ∀ f ∈ (L.sr i).ifList, isExternal (fw i) f.name = true
  internal : ∀ i name, isInternal (fw i) name = false

variable {L : Layout ι} {S : ι → PwospfSubsys} {fw : ι → Firewall} {dst : InAddr} {t : Nat}
  {f f' : Frame}

theorem DatagramFor.hop (h : DatagramFor dst (t + 1) f) (hop : HopTaken f f') :
    DatagramFor dst t f' := by
  obtain ⟨head, hhead, hshort⟩ := h.head
  obtain ⟨hdr, hload, rfl, httl⟩ := h.load
  have hkeeps : ∀ b : PacketField, ipStart ≤ b.offset →
      (∀ i ∈ [22, 24, 25], i < b.offset ∨ b.offset + b.width ≤ i) → f'.get b = f.get b := by
    intro b hb hout
    apply Frame.get_of_slice _ hop.length
    apply slice_congr
    intro i hlo hhi
    apply hop.rest i (Nat.le_trans hb hlo)
    intro hi
    rcases hout i hi with hlt | hge
    · exact Nat.not_lt.mpr hlo hlt
    · exact Nat.not_lt.mpr hge hhi
  obtain ⟨hold, hp, hsrc, hdst⟩ := loadIpHdr_fields hload
  obtain ⟨t', hget, hnew⟩ := hop.ttl
  obtain rfl : t' = t := by
    rw [hold, httl, Except.ok.injEq] at hget
    omega
  refine ⟨hop.type, ⟨head, (hkeeps ipHead (by decide) (by decide)).trans hhead, hshort⟩,
    by rw [hop.length]; exact h.fits, ⟨t', hdr.p, hdr.src, hdr.dst⟩, ?_, rfl, rfl⟩
  rw [loadIpHdr, hnew, ok_bind, hkeeps ipP (by decide) (by decide), hp, ok_bind,
    hkeeps ipSrc (by decide) (by decide), hsrc, ok_bind, hkeeps ipDst (by decide) (by decide), hdst,
    ok_bind, UInt32.ofNat_toNat, UInt32.ofNat_toNat]
  rfl

/-! ## Interfaces -/

/-- The interfaces of the subsystem are those of the router. -/
def Attached (L : Layout ι) (S : ι → PwospfSubsys) : Prop :=
  ∀ i, ∀ f ∈ (S i).interfaces, ∃ g ∈ (L.sr i).ifList, g.name = f.name

/-- The entries of the table leave through interfaces of the router, those for its own subnets through
interfaces of these subnets. -/
theorem Routable.interface (h : Routable L S) {i : ι} {e : FtableEntry} (he : e ∈ (S i).fwrdTable) :
    ∃ f ∈ (S i).interfaces, f.name = e.interface ∧
      (e.numHops = 0 → f.mask &&& f.address = e.pfix) := by
  have hdesc := h.describes i
  have hT := h.linked i
  have hstep := h.inStep i
  rw [InStep] at hstep
  obtain ⟨⟨T', ft⟩, hrun, rfl⟩ := map_eq_ok.mp hstep
  obtain ⟨T₁, ft₁, hrun₁, -, hsound⟩ := rebuild_sound hT (h.own i)
  obtain ⟨rfl, rfl⟩ := Prod.mk.inj (Except.ok.inj (hrun.symm.trans hrun₁))
  obtain ⟨p, s, -, n, hpfix, -, hnum, -, hzero, hhop⟩ := hsound e he
  rcases Nat.eq_zero_or_pos n with h0 | hpos
  · obtain ⟨-, -, iface, hiface, hname⟩ := hzero h0
    refine ⟨iface, List.mem_of_find?_eq_some hiface, hname.symm, fun _ => ?_⟩
    rw [hpfix]
    simpa using List.find?_some hiface
  · obtain ⟨q, id, hq, hid, -, -, hname⟩ := hhop hpos
    obtain ⟨w, hw, hlink⟩ := hdesc.walk hT hq hdesc.this
    obtain rfl : L.rid w = id := Option.some.inj (hw.symm.trans hid)
    obtain ⟨f, hf, nbr, -, -, hget⟩ := getIfAndNeighbor_spec (h.heard i w hlink) .zero .zero
    rw [hget] at hname
    exact ⟨f, hf, hname.symm, fun hnone => by omega⟩

/-! ## The way through the network -/

theorem CarriedOn.passesTo {x y : ι × Frame} (h : CarriedOn L fw S dst x y) : PassesTo S dst x.1 y.1 := by
  obtain ⟨env, name, r, e, c, -, -, he, hpos, -, hg, -⟩ := h
  exact ⟨e, he, hpos, hg⟩

theorem CarriedOn.hopTaken {x y : ι × Frame} (h : CarriedOn L fw S dst x y)
    (hothers : ForOthers (L.sr x.1) dst) (hf : DatagramFor dst (t + 1) x.2) : HopTaken x.2 y.2 := by
  obtain ⟨env, name, r, e, c, hc, hrun, -, -, -, -, hdel⟩ := h
  obtain ⟨hdr, hload, rfl, httl⟩ := hf.load
  obtain hnone | ⟨c', hone, htaken⟩ := sentOn_once hrun hload hothers (by omega)
  · rw [hnone] at hc
    cases hc
  · rw [hone, List.mem_singleton] at hc
    exact htaken y.2 (hc ▸ hdel)

theorem carried_travelled (hopen : Unhindered L fw dst) {i j : ι} {g : Frame} {m : Nat}
    (hwalk : Walk (CarriedOn L fw S dst) m (i, f) (j, g)) (hf : DatagramFor dst (t + m) f) :
    Travelled m f g ∧ DatagramFor dst t g := by
  induction m generalizing j g t with
  | zero =>
    cases hwalk
    exact ⟨.refl f, hf⟩
  | succ m ih =>
    cases hwalk with
    | @snoc _ _ y _ hwalk hlast =>
      obtain ⟨k, g'⟩ := y
      obtain ⟨htravelled, hg'⟩ := @ih (t + 1) k g' hwalk (by rwa [Nat.add_right_comm])
      have htaken := hlast.hopTaken (hopen.others k) hg'
      exact ⟨htravelled.step htaken, hg'.hop htaken⟩

/-- Wherever the datagram is, the router sends it on by its entry. -/
theorem Routable.sends (h : Routable L S) (hattached : Attached L S) (hopen : Unhindered L fw dst)
    (hf : DatagramFor dst (t + 1) f) {j : ι} {e : FtableEntry}
    (he : getDynRoutingIf (S j) dst = some e) (env : Env) {r : SrIf} (hr : r ∈ (L.sr j).ifList) :
    ∃ c, srHandlepacket (L.sr j) (fw j) (S j) env f r.name = .ok ⟨fw j, S j, [c]⟩ ∧
      c.HeadsFor env e.interface e.nextHop ∧ (∃ f', c.Delivers f') ∧
      ∀ f', c.Delivers f' → HopTaken f f' := by
  obtain ⟨hdr, hload, rfl, httl⟩ := hf.load
  obtain ⟨f', hf', hname, -⟩ := h.interface (closestMatch_some he).mem
  obtain ⟨g, hg, hname'⟩ := hattached j f' hf'
  apply Passes.sent
  exact { hf with
    load := hload
    others := hopen.others j
    ttl := by omega
    entry := he
    found := by
      rw [srGetInterface, List.find?_isSome]
      exact ⟨g, hg, decide_eq_true (hname'.trans hname)⟩
    received := hopen.external j r hr
    leaves := hopen.internal j e.interface }

/-- The router `j`, with so many hops left to a holder of the subnet, sends the frame on once, by its
entry for the subnet: to a router that is one hop nearer, or through its own interface with the prefix of
the subnet. -/
structure SendsOn (L : Layout ι) (fw : ι → Firewall) (S : ι → PwospfSubsys) (dst pfix mask : InAddr)
    (left : Nat) (j : ι) (env : Env) (g : Frame) (name : IfName) (e : FtableEntry) (c : Handoff) :
    Prop where
  run : srHandlepacket (L.sr j) (fw j) (S j) env g name = .ok ⟨fw j, S j, [c]⟩
  entry : getDynRoutingIf (S j) dst = some e
  subnet : e.pfix = pfix ∧ e.mask = mask
  numHops : e.numHops = left
  heads : c.HeadsFor env e.interface e.nextHop
  delivers : ∃ g', c.Delivers g'
  onward : 0 < left → ∃ k, ∀ g', c.Delivers g' → CarriedOn L fw S dst (j, g) (k, g')
  last : left = 0 → L.held j pfix mask ∧ ∃ own ∈ (S j).interfaces,
    own.mask &&& own.address = pfix ∧ own.name = e.interface

theorem Routable.sendsOn (h : Routable L S) (hattached : Attached L S) (hopen : Unhindered L fw dst)
    (hf : DatagramFor dst (t + 1) f) {pfix mask : InAddr}
    (hnext : NextHops L.link (fun j => L.held j pfix mask) (PassesTo S dst)) {j : ι} {n : Nat}
    (hnearest : Nearest L.link (fun j => L.held j pfix mask) j n) {e : FtableEntry}
    (he : getDynRoutingIf (S j) dst = some e) (hpfix : e.pfix = pfix) (hmask : e.mask = mask)
    (hnum : e.numHops = n) (env : Env) {r : SrIf} (hr : r ∈ (L.sr j).ifList) :
    ∃ c, SendsOn L fw S dst pfix mask n j env f r.name e c := by
  obtain ⟨c, hrun, hheads, hdelivers, -⟩ := h.sends hattached hopen hf he env hr
  refine ⟨c, hrun, he, ⟨hpfix, hmask⟩, hnum, hheads, hdelivers, ?_, ?_⟩
  · intro hpos
    obtain ⟨m, rfl⟩ : ∃ m, n = m + 1 := ⟨n - 1, by omega⟩
    obtain ⟨k, e', he', hpos, hk⟩ := hnext.passes j m hnearest
    obtain rfl : e = e' := Option.some.inj (he.symm.trans he')
    exact ⟨k, fun g' hg' =>
      ⟨env, r.name, _, e, c, List.mem_singleton_self c, hrun, he, hpos, hheads, hk, hg'⟩⟩
  · rintro rfl
    obtain ⟨own, hown, hname, hsubnet⟩ := h.interface (closestMatch_some he).mem
    exact ⟨hnearest.target_of_zero, own, hown, (hsubnet hnum).trans hpfix, hname⟩

theorem hasInterface_of_init {sr : SrInstance} {clock : Nat → Time} {area : UInt32}
    {S₀ : PwospfSubsys} (h₀ : pwospfInit sr clock area = .ok S₀) : ∃ r, r ∈ sr.ifList := by
  rw [pwospfInit] at h₀
  cases hzero : srGetInterface sr eth0Interface with
  | none =>
    rw [hzero] at h₀
    cases h₀
  | some zero => exact ⟨zero, List.mem_of_find?_eq_some hzero⟩

section Run

variable [DecidableEq ι] {area : UInt32} {clock : ι → Nat → Time} {S₀ : ι → PwospfSubsys}
  {a : Area ι} {ok : Area ι → AreaInput ι → Prop}

theorem Starts.attached (hs : Starts L area clock S₀)
    (h : Reach (AreaStep L.sr) ok (.start S₀) a) : Attached L a.subsys := by
  have hboot : Boots area L.rid S₀ := ⟨fun i => pwospfInit_wf (hs.init i),
    fun i => (inArea_of_init (hs.init i)).areaId, fun i => (inArea_of_init (hs.init i)).autype, hs.rid⟩
  intro i f hf
  obtain ⟨f', hf', hname⟩ := exists_of_static (p := fun x => x.name = f.name)
    (fun _ => Iff.rfl) (hboot.booted h i).interfaces.symm ⟨f, hf, rfl⟩
  obtain ⟨g, hg, rfl⟩ := pwospfInit_interface (hs.init i) hf'
  exact ⟨g, hg, hname⟩

/-- The routers carry the datagram over a shortest way to a router that holds the longest subnet that
matches, which sends it on through its own interface with the prefix of that subnet. On the way nothing of
it changes but the hops, one for each router, and the checksum of the header. -/
theorem area_delivers (hs : Starts L area clock S₀) (h : Reach (AreaStep L.sr) ok (.start S₀) a)
    (hconv : Converged L a.subsys) (hopen : Unhindered L fw dst)
    (hin : ∃ j pfix mask, L.held j pfix mask ∧ mask &&& dst = pfix)
    (hstatic : ∀ j pfix mask, L.static j pfix mask → mask &&& dst = pfix →
      ∃ k pfix' mask', L.held k pfix' mask' ∧ mask' &&& dst = pfix' ∧ mask < mask') :
    ∃ pfix mask, L.Longest dst pfix mask ∧ ∀ i, ∃ n,
      Nearest L.link (fun j => L.held j pfix mask) i n ∧
      ∀ f t, DatagramFor dst t f → n < t →
        (∃ j g, L.held j pfix mask ∧ Walk (CarriedOn L fw a.subsys dst) n (i, f) (j, g)) ∧
        ∀ m j g, Walk (CarriedOn L fw a.subsys dst) m (i, f) (j, g) →
          m ≤ n ∧ Nearest L.link (fun j => L.held j pfix mask) j (n - m) ∧ Travelled m f g ∧
          ∀ env, ∀ r ∈ (L.sr j).ifList, ∃ e c,
            SendsOn L fw a.subsys dst pfix mask (n - m) j env g r.name e c := by
  have hroutable := hs.routable h hconv
  have hattached := hs.attached h
  obtain ⟨pfix, mask, hlongest, hnext, hentry⟩ := hroutable.inside hin hstatic
  refine ⟨pfix, mask, hlongest, ?_⟩
  intro i
  obtain ⟨-, n, -, -, -, -, hnearest⟩ := hentry i
  refine ⟨n, hnearest, ?_⟩
  intro f t hf hlt
  have hstage : ∀ m j g, Walk (CarriedOn L fw a.subsys dst) m (i, f) (j, g) →
      m ≤ n ∧ Nearest L.link (fun j => L.held j pfix mask) j (n - m) ∧ Travelled m f g ∧
      ∀ env, ∀ r ∈ (L.sr j).ifList, ∃ e c,
        SendsOn L fw a.subsys dst pfix mask (n - m) j env g r.name e c := by
    intro m j g hwalk
    obtain ⟨k, hpasses, hwalk'⟩ := hwalk.simulate (R := fun (x : ι × Frame) k => x.1 = k)
      (F := PassesTo a.subsys dst)
      (fun x y k hxy hk => ⟨y.1, rfl, hk ▸ hxy.passesTo⟩) rfl
    obtain rfl : j = k := hpasses
    obtain ⟨hle, hnearer⟩ := hnext.nearest_of_walk hnearest hwalk'
    obtain ⟨left, rfl⟩ : ∃ left, t = left + 1 + m := ⟨t - m - 1, by omega⟩
    obtain ⟨htravelled, hg⟩ := carried_travelled hopen hwalk hf
    refine ⟨hle, hnearer, htravelled, ?_⟩
    intro env r hr
    obtain ⟨e, n', he, hpfix, hmask, hnum, hn'⟩ := hentry j
    obtain rfl : n' = n - m := hn'.unique hnearer
    exact ⟨e, hroutable.sendsOn hattached hopen hg hnext hnearer he hpfix hmask hnum env hr⟩
  refine ⟨?_, hstage⟩
  -- wherever the datagram is, it can be carried on
  have hwalks : ∀ m, m ≤ n → ∃ j g, Walk (CarriedOn L fw a.subsys dst) m (i, f) (j, g) := by
    intro m hm
    induction m with
    | zero => exact ⟨i, f, .nil _⟩
    | succ m ih =>
      obtain ⟨j, g, hwalk⟩ := ih (Nat.le_of_succ_le hm)
      obtain ⟨r, hr⟩ := hasInterface_of_init (hs.init j)
      obtain ⟨-, -, -, hsends⟩ := hstage m j g hwalk
      obtain ⟨e, c, hc⟩ := hsends ⟨fun _ => 0, fun _ _ => none, fun _ => 0, fun _ => 0⟩ r hr
      obtain ⟨g', hg'⟩ := hc.delivers
      obtain ⟨k, hk⟩ := hc.onward (Nat.sub_pos_of_lt hm)
      exact ⟨k, g', .snoc hwalk (hk g' hg')⟩
  obtain ⟨j, g, hwalk⟩ := hwalks n (Nat.le_refl n)
  obtain ⟨-, hnearer, -⟩ := hstage n j g hwalk
  rw [Nat.sub_self] at hnearer
  exact ⟨j, g, hnearer.target_of_zero, hwalk⟩

end Run

section Demo

/-- From 10.0.0.9 to a host behind 10.0.0.0. -/
def demoParcel : Frame :=
  [2, 0, 0, 0, 1, 0, 9, 9, 9, 9, 9, 9, 8, 0,
    0x45, 0, 0, 28, 0, 0, 0, 0, 64, 17, 102, 194, 10, 0, 0, 9, 10, 0, 2, 1, 0, 7, 0, 7, 0, 8, 0, 0]

def demoOpen : Firewall :=
  { demoPolicy with
    inter := []
    exter := [eth0Interface, eth1Interface] }

theorem demoOpen_unhindered : Unhindered demoLayout (fun _ => demoOpen) 0x0102000a where
  others := by decide
  external := by decide
  internal := fun _ _ => rfl

/-- 10.0.0.1 carries it to 10.0.0.0, which sends it on to the subnet. -/
theorem area_delivers_demo : ∃ (a : Area Bool) (c : Handoff) (g : Frame),
    Walk (CarriedOn demoLayout (fun _ => demoOpen) a.subsys 0x0102000a) 1 (true, demoParcel)
      (false, g) ∧
    srHandlepacket (demoStubs false) demoOpen (a.subsys false) demoEnv g eth0Interface =
      .ok ⟨demoOpen, a.subsys false, [c]⟩ ∧
    ∃ own ∈ (a.subsys false).interfaces, own.mask &&& own.address = 0x0002000a ∧
      own.name = c.iface := by
  obtain ⟨a, ha, hconv⟩ := demoStubs_converge
  obtain ⟨pfix, mask, hlongest, hall⟩ := @area_delivers _ demoLayout (fun _ => demoOpen) 0x0102000a _ _ _
    _ _ _ demoStubs_starts ha hconv demoOpen_unhindered
    ⟨false, 0x0002000a, 0xfeffffff, by decide, by decide⟩ demoStubs_static
  have hnot : ¬ demoLayout.held true pfix mask := by
    have hnone : ((demoSubnets true).all fun x => x.2 &&& 0x0102000a != x.1) = true := by decide
    intro hheld
    exact bne_iff_ne.mp (List.all_eq_true.mp hnone _ hheld) hlongest.covers
  have hpfix : demoLayout.held false pfix mask → pfix = 0x0002000a := by
    have hone : ((demoSubnets false).all fun x => x.2 &&& 0x0102000a != x.1 || x.1 == 0x0002000a) =
      true := by decide
    intro hheld
    rcases Bool.or_eq_true _ _ ▸ List.all_eq_true.mp hone _ hheld with hne | heq
    · exact absurd hlongest.covers (bne_iff_ne.mp hne)
    · exact beq_iff_eq.mp heq
  obtain ⟨n, hnearest, hrun⟩ := hall true
  obtain ⟨v, hv, -⟩ := hnearest.walk
  obtain rfl : v = false := by
    cases v with
    | true => exact absurd hv hnot
    | false => rfl
  have hle := hnearest.le false 1 hv (.snoc (.nil true) Bool.noConfusion)
  obtain rfl : n = 1 := by
    rcases Nat.eq_zero_or_pos n with rfl | hpos
    · exact absurd hnearest.target_of_zero hnot
    · omega
  have hf : DatagramFor 0x0102000a 64 demoParcel :=
    ⟨by decide, ⟨0x45, by decide⟩, by decide, ⟨64, 17, 0x0900000a, 0x0102000a⟩, by decide⟩
  obtain ⟨⟨j, g, hj, hwalk⟩, hstage⟩ := hrun demoParcel 64 hf (by decide)
  obtain rfl : j = false := by
    cases j with
    | true => exact absurd hj hnot
    | false => rfl
  obtain ⟨-, -, -, hsends⟩ := hstage 1 false g hwalk
  obtain ⟨e, c, hc⟩ := hsends demoEnv ⟨eth0Interface, #v[2, 0, 0, 0, 2, 0], 0x0000000a⟩ (by decide)
  obtain ⟨-, own, hown, hsubnet, hname⟩ := hc.last rfl
  exact ⟨a, c, g, hwalk, hc.run, own, hown, hsubnet.trans (hpfix hj), hname.trans hc.heads.iface.symm⟩

end Demo

end PWOSPF
