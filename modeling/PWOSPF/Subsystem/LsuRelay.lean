import PWOSPF.Framework.Tally
import PWOSPF.Subsystem.HopCounts
import PWOSPF.Subsystem.Neighbors
import PWOSPF.Subsystem.Runs

/-!
# LSUs from router to router

The LSU that `send_lsu` encodes reaches every router as it was: packets carry it from hop to hop,
and a router that takes it apart merges the originator's subnets and static routes.
-/

namespace PWOSPF

open Framework Topo PacketField

variable {f f' : Frame} {area : UInt32} {l : Lsu} {ttl : Nat} {S R : PwospfSubsys} {env : Env}
  {pair : PwospfIflist × NeighborList}

/-! ## Forwarding -/

/-- The length that the OSPF header gives is that of the packet behind its IP header. -/
theorem LsuBody.size (h : LsuBody f area l) :
    (relaySize (htons (UInt16.ofNat (32 + 12 * l.advs.length))).toNat).toNat = f.length := by
  have hlen := h.length
  have hfits := h.fits
  have hospf : (UInt16.ofNat (32 + 12 * l.advs.length)).toNat = 32 + 12 * l.advs.length :=
    UInt16.toNat_ofNat_of_lt' (show _ < 2 ^ 16 by omega)
  have hsize : sizeofEther + sizeofIp + (32 + 12 * l.advs.length) = f.length := by
    rw [hlen, sizeofEther, sizeofIp]
    omega
  rw [relaySize, UInt16.ofNat_toNat, ntohs_htons, hospf, hsize]
  exact UInt16.toNat_ofNat_of_lt' hfits

/-- A packet that carries the LSU from the interface to its neighbor. -/
structure CarriesBetween (area : UInt32) (l : Lsu) (ttl : Nat) (f : Frame)
    (pair : PwospfIflist × NeighborList) : Prop where
  carries : Carries f area l ttl
  ipSrc : f.get ipSrc = .ok pair.1.address.toNat
  ipDst : f.get ipDst = .ok pair.2.ipAddress.toNat

/-- A copy that carries the LSU from the interface to its neighbor. -/
structure CarriesTo (area : UInt32) (l : Lsu) (ttl : Nat) (c : Handoff)
    (pair : PwospfIflist × NeighborList) : Prop extends CarriesBetween area l ttl c.frame pair where
  iface : c.iface = pair.1.name

theorem Carries.addressedCopy (h : Carries f area l ttl) {c : Handoff}
    (hc : AddressedCopy f f.length c pair) : CarriesTo area l ttl c pair := by
  obtain ⟨full, hfull, hcut⟩ := hc.cut
  rw [← hfull.length, List.take_length] at hcut
  refine ⟨?_, hc.iface⟩
  rw [hcut]
  exact ⟨h.readdressed hfull.toReaddressed, hfull.ipSrc, hfull.ipDst⟩

/-- A hop takes one off both hop counts and keeps the LSU. -/
theorem Hop.carries {csum : UInt16} {f₁ f₂ f₃ : Frame}
    (h : Hop f' (.ofNat ttl - 1) (.ofNat ttl - 1) csum f₁ f₂ f₃) (hf : Carries f area l ttl)
    (hclear : f.set ospfCsum 0 = .ok f') (hlive : 1 < ttl) : Carries f₃ area l (ttl - 1) := by
  have hhops : (UInt8.ofNat ttl - 1).toNat = ttl - 1 := by
    rw [uint8_pred (Frame.get_lt hf.ipTtl), if_neg (by omega)]
  refine ⟨hf.toLsuBody.congr (h.length.trans (Frame.set_length hclear)) ?_,
    ⟨csum, h.ospfSum, ?_⟩, ?_, ?_, by omega, ?_⟩
  · intro b hb hcsum hlsu
    rw [h.get_csum hcsum (Or.inl (Nat.le_trans (by decide) hb)) hlsu]
    exact Frame.get_set_apart hclear hcsum
  · exact Frame.get_set h.csum (UInt16.toNat_lt _)
  · rw [h.ipHops, hhops]
  · rw [h.lsuHops, hhops]
  · exact Nat.le_trans (Nat.sub_le _ _) hf.le

/-- While hops are left, `forward_lsu` sends the LSU to every neighbor but the one it came from. -/
theorem forwardLsu_spec (h : Carries f area l ttl) (hclear : f.set ospfCsum 0 = .ok f')
    (S : PwospfSubsys) (env : Env) :
    ∃ prevSrc copies, f.get ipSrc = .ok prevSrc ∧ forwardLsu S env f' = .ok copies ∧
      List.Forall₂ (CarriesTo area l (ttl - 1)) copies
        (if 1 < ttl then floodPairs (fun a => a = UInt32.ofNat prevSrc) S.interfaces else []) := by
  have hmin : 66 ≤ f.length := by rw [h.length]; omega
  have hmin' : 66 ≤ f'.length := (Frame.set_length hclear).symm ▸ hmin
  obtain ⟨csum, f₁, f₂, f₃, hop⟩ := Hop.exists (f := f') (Nat.le_trans (by decide) hmin')
    (.ofNat ttl - 1) (.ofNat ttl - 1)
  obtain ⟨prevSrc, hsrc⟩ := Frame.get_exists (f := f) (b := ipSrc) (Nat.le_trans (by decide) hmin)
  have hkept : ∀ b : PacketField, ospfCsum.Apart b → f'.get b = f.get b :=
    fun _ hb => Frame.get_set_apart hclear hb
  have hrun := @forwardLsu_eq f' S env _ _ _ _ _ _ _ _ ((hkept _ (by decide)).trans h.ipTtl)
    ((hkept _ (by decide)).trans h.lsuTtl) ((hkept _ (by decide)).trans h.len)
    ((hkept _ (by decide)).trans hsrc) hop
  rw [hrun]
  have hpos := h.pos
  by_cases hlt : 1 < ttl
  · have hcarries := hop.carries h hclear hlt
    have hsize := hcarries.toLsuBody.size
    obtain ⟨f₄, copies, hflood, hcopies⟩ := flood_addressed (f := f₃) env
      (fun a => a = UInt32.ofNat prevSrc) S.interfaces [] (fun i _ => ⟨i.mac, rfl⟩)
      (by rw [hop.length]; exact Nat.le_trans (by decide) hmin') (Nat.le_of_eq hsize)
    rw [hsize] at hcopies
    refine ⟨prevSrc, copies, hsrc, ?_, ?_⟩
    · rw [if_pos (by omega), hflood]
      rfl
    · rw [if_pos hlt]
      exact hcopies.imp fun _ _ => hcarries.addressedCopy
  · refine ⟨prevSrc, [], hsrc, ?_, ?_⟩
    · rw [if_neg (by omega)]
      rfl
    · rw [if_neg hlt]
      exact .nil

/-! ## Receiving -/

/-- The routes `handle_lsu` reads from position `i` on. -/
def routesOf (env : Env) : Nat → List Adv → List Route
  | _, [] => []
  | i, a :: rest => ⟨a.subnet, a.mask, env.nextHops i, a.rid⟩ :: routesOf env (i + 1) rest

theorem routesOf_map {β : Type} (F : UInt32 → UInt32 → UInt32 → β) (env : Env) (i : Nat)
    (advs : List Adv) :
    (routesOf env i advs).map (fun r => F r.pfix r.mask r.rId) =
      advs.map fun a => F a.subnet a.mask a.rid := by
  induction advs generalizing i with
  | nil => rfl
  | cons a rest ih => rw [routesOf, List.map_cons, List.map_cons, ih]

theorem AdvsAt.tail {i : Nat} {a : Adv} {rest : List Adv} (h : AdvsAt f i (a :: rest)) :
    AdvsAt f (i + 1) rest := by
  intro j b hb
  have := h (j + 1) b hb
  rwa [show i + (j + 1) = i + 1 + j by omega] at this

theorem readAdvs_spec {i : Nat} {advs : List Adv} (h : AdvsAt f i advs) :
    readAdvs env f advs.length i = .ok (routesOf env i advs) := by
  induction advs generalizing i with
  | nil => rfl
  | cons a rest ih =>
    obtain ⟨hsubnet, hmask, hrid⟩ := h 0 a rfl
    rw [Nat.add_zero] at hsubnet hmask hrid
    rw [List.length_cons, readAdvs, hsubnet, ok_bind, hmask, ok_bind, hrid, ok_bind, ih h.tail, ok_bind]
    simp only [UInt32.ofNat_toNat, pure_eq_ok]
    rfl

/-- A router of the area: it knows itself and runs without authentication, as `pwospf_init` sets it
up. -/
structure InArea (area : UInt32) (R : PwospfSubsys) : Prop where
  areaId : R.areaId = area
  autype : R.autype = 0
  thisListed : R.top.thisRouter ∈ R.top.addrs

theorem inArea_of_reach {sr : SrInstance} {clock : Nat → Time} {S₀ : PwospfSubsys}
    {ok : PwospfSubsys → Event → Prop} (h₀ : pwospfInit sr clock area = .ok S₀)
    (hR : Reach Step ok S₀ R) : InArea area R := by
  obtain ⟨hWf, hconf⟩ := run_wf (pwospfInit_wf h₀) hR
  have hstart : S₀.areaId = area ∧ S₀.autype = 0 := by
    unfold pwospfInit at h₀
    cases hz : srGetInterface sr eth0Interface with
    | none =>
      rw [hz] at h₀
      cases h₀
    | some zero =>
      rw [hz] at h₀
      cases h₀
      exact ⟨rfl, rfl⟩
  exact ⟨hconf.areaId.trans hstart.1, hconf.autype.trans hstart.2, hWf.top.thisListed⟩

/-- The four checks of `handle_pwospf`. -/
theorem checkPwospf_passes {c : UInt16} (hR : InArea area R)
    (hversion : f.get ospfVersion = .ok ospfV2) (hsum : ospfSum f = .ok c)
    (hcsum : f.get ospfCsum = .ok (htons c).toNat) (haid : f.get ospfAid = .ok (htonl area).toNat)
    (hautype : f.get ospfAutype = .ok 0) (hclear : f.set ospfCsum 0 = .ok f') :
    checkPwospf R f = .ok (some f') := by
  rw [ospfSum, hclear, ok_bind] at hsum
  have haid' : f'.get ospfAid = .ok (htonl area).toNat :=
    (Frame.get_set_apart hclear (by decide)).trans haid
  have hautype' : f'.get ospfAutype = .ok 0 :=
    (Frame.get_set_apart hclear (by decide)).trans hautype
  simp only [checkPwospf, hversion, hcsum, hclear, hsum, haid', hautype', ok_bind, pure_eq_ok,
    UInt16.ofNat_toNat, UInt32.ofNat_toNat, hR.areaId, hR.autype, ntohl, ne_eq, not_true_eq_false,
    if_false]
  rfl

theorem checkPwospf_carries (h : Carries f area l ttl) (hR : InArea area R)
    (hclear : f.set ospfCsum 0 = .ok f') : checkPwospf R f = .ok (some f') := by
  obtain ⟨c, hsum, hcsum⟩ := h.csum
  exact checkPwospf_passes hR h.version hsum hcsum h.aid h.autype hclear

/-- What a router does with a packet that carries an LSU: it drops its own LSUs and those with the
sequence number it saw last, and merges and forwards the others. -/
theorem handlePwospf_carries (h : Carries f area l ttl) (hR : InArea area R) (env : Env)
    (name : IfName) :
    ∃ f', f.set ospfCsum 0 = .ok f' ∧ handlePwospf R env ⟨f, name⟩ =
      if R.top.ridOf R.top.thisRouter = some l.rid ∨ getSequence R l.rid = l.seq then
        .ok (.dropped R)
      else do
        let R' ← addToTop R env.clock l.rid (routesOf env 0 l.advs)
        let R' := setSequence R' l.rid l.seq
        let copies ← forwardLsu R' env f'
        return ⟨R', copies, some (l.rid, l.seq)⟩ := by
  have hin : ospfCsum.offset + ospfCsum.width ≤ f.length := by
    rw [h.length]
    exact Nat.le_trans (by decide) (Nat.le_add_right 66 _)
  obtain ⟨f', hclear⟩ := Frame.set_exists hin 0
  have hbody : LsuBody f' area l := h.toLsuBody.congr (Frame.set_length hclear)
    fun b _ hcsum _ => Frame.get_set_apart hclear hcsum
  obtain ⟨this, hthis⟩ := mem_addrs_iff.mp hR.thisListed
  have hnum : (UInt32.ofNat l.advs.length).toNat = l.advs.length := by
    have hlen := h.length
    have hfits := h.fits
    exact UInt32.toNat_ofNat_of_lt' (show _ < 2 ^ 32 by omega)
  have hrid : R.top.ridOf R.top.thisRouter = some this.rid := by rw [ridOf, hthis]; rfl
  refine ⟨f', hclear, ?_⟩
  have hlsu : handlePwospf R env ⟨f, name⟩ = handleLsu R env f' := by
    simp only [handlePwospf, checkPwospf_carries h hR hclear, ok_bind, hbody.type]
    rfl
  rw [hlsu, hrid]
  simp only [handleLsu, hbody.rid, deref_of_find hthis, hbody.seq, hbody.numAdv, ok_bind,
    UInt32.ofNat_toNat, UInt16.ofNat_toNat, ntohl_htonl, hnum, readAdvs_spec hbody.advs]
  by_cases hown : l.rid = this.rid
  · rw [if_pos hown, if_pos (Or.inl (congrArg some hown.symm))]
    rfl
  · rw [if_neg hown]
    have hown' : ¬ some this.rid = some l.rid := fun he => hown (Option.some.inj he).symm
    by_cases hseq : getSequence R l.rid = l.seq
    · rw [if_pos hseq, if_pos (Or.inr hseq)]
      rfl
    · rw [if_neg hseq, if_neg (not_or.mpr ⟨hown', hseq⟩)]

/-! ## From router to router -/

/-- What a copy becomes on the wire: if it waited for a MAC, the ARP queue writes the destination
into it. -/
def Handoff.Delivers (c : Handoff) (f : Frame) : Prop :=
  match c.awaits with
  | none => f = c.frame
  | some _ => ∃ mac : Mac, c.frame.store etherDhost.offset mac.toList = .ok f

theorem Handoff.Delivers.readdressed {c : Handoff} (h : c.Delivers f) : Readdressed c.frame f := by
  unfold Handoff.Delivers at h
  cases hawaits : c.awaits with
  | none =>
    rw [hawaits] at h
    exact h ▸ .refl c.frame
  | some dst =>
    rw [hawaits] at h
    obtain ⟨mac, hstore⟩ := h
    exact .of_store hstore (by rw [mac.length_toList]; decide) (by rw [mac.length_toList]; decide)

/-- What the ARP queue writes into a copy that waited lies in front of the IP header. -/
theorem Handoff.Delivers.get {c : Handoff} (h : c.Delivers f) {b : PacketField}
    (hb : 6 ≤ b.offset) : f.get b = c.frame.get b := by
  unfold Handoff.Delivers at h
  cases hawaits : c.awaits with
  | none =>
    rw [hawaits] at h
    rw [h]
  | some dst =>
    rw [hawaits] at h
    obtain ⟨mac, hstore⟩ := h
    exact Frame.get_store_apart hstore (Or.inl (by rw [mac.length_toList]; exact hb))

/-- No copy is too short for a MAC. -/
theorem CarriesTo.exists_delivers {c : Handoff} (h : CarriesTo area l ttl c pair) :
    ∃ f, c.Delivers f := by
  unfold Handoff.Delivers
  cases c.awaits with
  | none => exact ⟨c.frame, rfl⟩
  | some dst =>
    let mac : Mac := .replicate 6 0
    have hin : etherDhost.offset + mac.toList.length ≤ c.frame.length := by
      rw [mac.length_toList, h.carries.length]
      exact Nat.le_trans (by decide) (Nat.le_add_right 66 _)
    obtain ⟨f, hf⟩ := Frame.store_exists hin
    exact ⟨f, mac, hf⟩

theorem CarriesBetween.delivered {c : Handoff} (h : CarriesBetween area l ttl c.frame pair)
    (hdel : c.Delivers f) : CarriesBetween area l ttl f pair where
  carries := h.carries.readdressed hdel.readdressed
  ipSrc := (hdel.get (by decide)).trans h.ipSrc
  ipDst := (hdel.get (by decide)).trans h.ipDst

/-- A router that a packet gets to: its state, what it reads from around it, and the interface. -/
structure Relay where
  subsys : PwospfSubsys
  env : Env
  name : IfName

/-- The packets on the wire after routers of the area relayed what was sent, the last one first. -/
inductive Relayed (area : UInt32) (sent : List Handoff) : List Relay → Frame → Prop
  | sent {c : Handoff} {f : Frame} : c ∈ sent → c.Delivers f → Relayed area sent [] f
  | relay {via : List Relay} {f f' : Frame} {x : Relay} {out : Outcome} {c : Handoff} :
      Relayed area sent via f → InArea area x.subsys →
      handlePwospf x.subsys x.env ⟨f, x.name⟩ = .ok out → c ∈ out.copies → c.Delivers f' →
      Relayed area sent (x :: via) f'

/-- A relayed packet had hops left, and its copies have one less. -/
theorem handlePwospf_copies (h : Carries f area l ttl) (hR : InArea area R) {name : IfName}
    {out : Outcome} (hrun : handlePwospf R env ⟨f, name⟩ = .ok out) :
    ∀ c ∈ out.copies, Carries c.frame area l (ttl - 1) := by
  obtain ⟨f', hclear, heq⟩ := handlePwospf_carries h hR env name
  rw [heq] at hrun
  by_cases hdrop : R.top.ridOf R.top.thisRouter = some l.rid ∨ getSequence R l.rid = l.seq
  · rw [if_pos hdrop] at hrun
    cases hrun
    intro c hc
    cases hc
  · rw [if_neg hdrop] at hrun
    obtain ⟨R', -, hrun⟩ := bind_eq_ok.mp hrun
    obtain ⟨copies, hforward, hrun⟩ := bind_eq_ok.mp hrun
    cases hrun
    obtain ⟨prevSrc, copies', -, hforward', hcopies⟩ :=
      forwardLsu_spec h hclear (setSequence R' l.rid l.seq) env
    rw [hforward, Except.ok.injEq] at hforward'
    subst hforward'
    have hboth := hcopies.imp fun _ _ hc => And.intro hc.carries hc
    exact ((List.forall₂_and_left _ _).mp hboth).1

/-- Every hop takes one off the hop counts; nothing else of the LSU changes. -/
theorem Relayed.carries {sent : List Handoff} {via : List Relay} (h : Relayed area sent via f)
    (hsent : ∀ c ∈ sent, Carries c.frame area l ttl) : Carries f area l (ttl - via.length) := by
  induction h with
  | sent hc hdel => exact (hsent _ hc).readdressed hdel.readdressed
  | relay _ hR hrun hc hdel ih =>
    exact (handlePwospf_copies ih hR hrun _ hc).readdressed hdel.readdressed

/-- The router takes the LSU: it is in the area, the LSU is not its own and not the one it saw last,
and merging it does not abort. -/
structure Relay.Accepts (area : UInt32) (l : Lsu) (x : Relay) : Prop where
  inArea : InArea area x.subsys
  other : x.subsys.top.ridOf x.subsys.top.thisRouter ≠ some l.rid
  newer : getSequence x.subsys l.rid ≠ l.seq
  merges : ∃ R', addToTop x.subsys x.env.clock l.rid (routesOf x.env 0 l.advs) = .ok R'

/-- A way for the LSU from the interfaces of its originator: routers that take it, each with a
neighbor besides the one the packet comes from. The pair is where the packet is after the last of
them. -/
inductive LsuPath (area : UInt32) (l : Lsu) (interfaces : List PwospfIflist) :
    List Relay → PwospfIflist × NeighborList → Prop
  | first {pair : PwospfIflist × NeighborList} : pair ∈ floodPairs (fun _ => false) interfaces →
      LsuPath area l interfaces [] pair
  | onward {via : List Relay} {pair next : PwospfIflist × NeighborList} {x : Relay} :
      LsuPath area l interfaces via pair → x.Accepts area l →
      next ∈ floodPairs (fun a => a = pair.1.address) x.subsys.interfaces →
      LsuPath area l interfaces (x :: via) next

/-- A router that takes the LSU sends a copy to every neighbor besides the one it came from. -/
theorem Relay.Accepts.copies {x : Relay} (hx : x.Accepts area l)
    (h : CarriesBetween area l ttl f pair) (hlive : 1 < ttl) :
    ∃ out, handlePwospf x.subsys x.env ⟨f, x.name⟩ = .ok out ∧
      List.Forall₂ (CarriesTo area l (ttl - 1)) out.copies
        (floodPairs (fun a => a = pair.1.address) x.subsys.interfaces) := by
  obtain ⟨f', hclear, hrun⟩ := handlePwospf_carries h.carries hx.inArea x.env x.name
  obtain ⟨R', hmerge⟩ := hx.merges
  obtain ⟨prevSrc, copies, hsrc, hforward, hcopies⟩ :=
    forwardLsu_spec h.carries hclear (setSequence R' l.rid l.seq) x.env
  rw [if_neg (not_or.mpr ⟨hx.other, hx.newer⟩)] at hrun
  simp only [hmerge, hforward, ok_bind] at hrun
  have hprev : prevSrc = pair.1.address.toNat := Except.ok.inj (hsrc.symm.trans h.ipSrc)
  rw [if_pos hlive, hprev, UInt32.ofNat_toNat, setSequence_interfaces,
    addToTop_interfaces hmerge] at hcopies
  exact ⟨_, hrun, hcopies⟩

/-- A packet gets along every way that is not longer than the hop counts. -/
theorem LsuPath.relayed {interfaces : List PwospfIflist} {sent : List Handoff} {via : List Relay}
    (h : LsuPath area l interfaces via pair)
    (hsent : List.Forall₂ (CarriesTo area l ttl) sent (floodPairs (fun _ => false) interfaces))
    (hshort : via.length < ttl) :
    ∃ f, Relayed area sent via f ∧ CarriesBetween area l (ttl - via.length) f pair := by
  induction h with
  | first hpair =>
    obtain ⟨c, hc, hto⟩ := exists_of_forall₂ hsent hpair
    obtain ⟨f, hf⟩ := hto.exists_delivers
    exact ⟨f, .sent hc hf, hto.delivered hf⟩
  | @onward via pair next x _ hx hnext ih =>
    rw [List.length_cons] at hshort
    obtain ⟨f, hrelayed, hf⟩ := ih (Nat.lt_of_succ_lt hshort)
    obtain ⟨out, hrun, hcopies⟩ := hx.copies hf (by omega)
    obtain ⟨c, hc, hto⟩ := exists_of_forall₂ hcopies hnext
    obtain ⟨f', hf'⟩ := hto.exists_delivers
    exact ⟨f', .relay hrelayed hx.inArea hrun hc hf', hto.delivered hf'⟩

end PWOSPF
