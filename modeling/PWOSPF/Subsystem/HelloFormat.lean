import PWOSPF.Subsystem.LsuRelay

/-!
# HELLO packets

`send_HELLO` fills one buffer and stamps it with the mask, the address and the MAC of each interface
in turn. A router of the area reads back from a copy what `send_HELLO` wrote, in spite of the byte
orders: the mask is kept in network order and converted once more on both sides.
-/

namespace PWOSPF

open Framework Topo PacketField

/-- 224.0.0.5 -/
def ospfAllSpfRouters : UInt32 := 0xe0000005

def sizeofHelloPacket : Nat := sizeofEther + sizeofIp + sizeofOspf + sizeofHello

/-- What the loop of `send_HELLO` writes for an interface. -/
def stampHello (f : Frame) (iface : PwospfIflist) : Exec Frame := do
  let f ← f.assign [(helloNmask, (htonl iface.mask).toNat), (ospfCsum, 0)]
  let csum ← cksum (f.drop ospfStart) (sizeofOspf - 8)
  let f ← f.assign [(ospfCsum, (htons csum).toNat), (ipSrc, iface.address.toNat), (ipSum, 0)]
  let sum ← cksum (f.drop ipStart) sizeofIp
  let f ← f.set ipSum (htons sum).toNat
  f.store etherShost.offset iface.mac.toList

/-- The loop over the interfaces. -/
def helloCopies : List PwospfIflist → Frame → Exec (List Handoff)
  | [], _ => .ok []
  | iface :: rest, f => do
    let f ← stampHello f iface
    let copies ← helloCopies rest f
    return ⟨f, iface.name, none⟩ :: copies

/-- The fields that `send_HELLO` writes before it takes the lock. -/
def helloFields : List (PacketField × Nat) :=
  [(etherType, (htons ethertypeIp).toNat), (ipHead, ipVersionHl), (ipTos, 0),
    (ipLen, (htons (.ofNat (sizeofHelloPacket - sizeofEther))).toNat), (ipId, 0), (ipOff, 0),
    (ipTtl, initTtl), (ipP, ospfv2Type), (ipDst, (htonl ospfAllSpfRouters).toNat),
    (helloHelloint, (htons ospfDefaultHelloint).toNat), (helloPadding, 0), (ospfVersion, ospfV2),
    (ospfType, ospfTypeHello), (ospfLen, (htons (.ofNat (sizeofOspf + sizeofHello))).toNat)]

def sendHello (S : PwospfSubsys) (env : Env) : Exec (List Handoff) := do
  let f : Frame := (List.range sizeofHelloPacket).map env.bytes
  let f ← f.store etherDhost.offset (.replicate 6 0xff)
  let f ← f.assign helloFields
  let this ← S.top.deref S.top.thisRouter
  let f ← f.assign [(ospfRid, this.rid.toNat), (ospfAid, (htonl S.areaId).toNat),
    (ospfAutype, ospfDefaultAuthkey), (ospfAudata, ospfDefaultAuthkey)]
  if S.interfaces = [] then .error .assertion else helloCopies S.interfaces f

/-! ## The packets built -/

/-- The fields of a HELLO that do not depend on the interface. -/
structure HelloBase (f : Frame) (area rid : UInt32) : Prop where
  length : f.length = sizeofHelloPacket
  version : f.get ospfVersion = .ok ospfV2
  type : f.get ospfType = .ok ospfTypeHello
  rid : f.get ospfRid = .ok rid.toNat
  aid : f.get ospfAid = .ok (htonl area).toNat
  autype : f.get ospfAutype = .ok 0
  helloint : f.get helloHelloint = .ok (htons ospfDefaultHelloint).toNat

/-- The packet is a HELLO of the router, sent from the interface. -/
structure SaysHello (f : Frame) (area rid : UInt32) (i : PwospfIflist) : Prop
    extends HelloBase f area rid where
  csum : ∃ c, ospfSum f = .ok c ∧ f.get ospfCsum = .ok (htons c).toNat
  nmask : f.get helloNmask = .ok (htonl i.mask).toNat
  ipSrc : f.get ipSrc = .ok i.address.toNat

/-- The buffer on its way through one turn of the loop. -/
structure Stamped (f : Frame) (i : PwospfIflist) (csum sum : UInt16) (f₁ f₂ f₃ f' : Frame) :
    Prop where
  masked : f.assign [(helloNmask, (htonl i.mask).toNat), (ospfCsum, 0)] = .ok f₁
  ospfSummed : cksum (f₁.drop ospfStart) (sizeofOspf - 8) = .ok csum
  addressed : f₁.assign [(ospfCsum, (htons csum).toNat), (ipSrc, i.address.toNat), (ipSum, 0)] =
    .ok f₂
  ipSummed : cksum (f₂.drop ipStart) sizeofIp = .ok sum
  stored : f₂.set ipSum (htons sum).toNat = .ok f₃
  mac : f₃.store etherShost.offset i.mac.toList = .ok f'

section Build

variable {f f₁ f₂ f₃ f' : Frame} {i : PwospfIflist} {csum sum : UInt16} {area rid : UInt32}

theorem HelloBase.congr (h : HelloBase f area rid) (hlen : f'.length = f.length)
    (hget : ∀ b ∈ [ospfVersion, ospfType, ospfRid, ospfAid, ospfAutype, helloHelloint],
      f'.get b = f.get b) : HelloBase f' area rid where
  length := hlen.trans h.length
  version := (hget _ (by simp)).trans h.version
  type := (hget _ (by simp)).trans h.type
  rid := (hget _ (by simp)).trans h.rid
  aid := (hget _ (by simp)).trans h.aid
  autype := (hget _ (by simp)).trans h.autype
  helloint := (hget _ (by simp)).trans h.helloint

theorem Stamped.run (h : Stamped f i csum sum f₁ f₂ f₃ f') : stampHello f i = .ok f' := by
  rw [stampHello, h.masked, ok_bind, h.ospfSummed, ok_bind, h.addressed, ok_bind, h.ipSummed, ok_bind,
    h.stored, ok_bind, h.mac]

theorem Stamped.exists (hlen : f.length = sizeofHelloPacket) (i : PwospfIflist) :
    ∃ csum sum f₁ f₂ f₃ f', Stamped f i csum sum f₁ f₂ f₃ f' := by
  have hin : ∀ {g : Frame} {l : List (PacketField × Nat)}, g.length = sizeofHelloPacket →
      (∀ a ∈ l.map Prod.fst, a.offset + a.width ≤ sizeofHelloPacket) → ∃ g', g.assign l = .ok g' :=
    fun hg hl => Frame.assign_exists fun a ha => by
      rw [hg]
      exact hl a ha
  obtain ⟨f₁, hmask⟩ := hin (l := [(helloNmask, (htonl i.mask).toNat), (ospfCsum, 0)]) hlen
    (by simp only [List.map]; decide)
  have hlen₁ := (Frame.assign_length hmask).trans hlen
  obtain ⟨csum, hcsum⟩ := ospfCksum_exists (f := f₁) (by rw [hlen₁]; decide)
  obtain ⟨f₂, hsrc⟩ := hin
    (l := [(ospfCsum, (htons csum).toNat), (ipSrc, i.address.toNat), (ipSum, 0)]) hlen₁
    (by simp only [List.map]; decide)
  have hlen₂ := (Frame.assign_length hsrc).trans hlen₁
  obtain ⟨sum, hsum⟩ := @cksum_exists (f₂.drop ipStart) 10
    (by rw [List.length_drop, hlen₂]; decide) (by decide)
  obtain ⟨f₃, hstored⟩ := Frame.set_exists (f := f₂) (a := PacketField.ipSum) (by rw [hlen₂]; decide)
    (htons sum).toNat
  have hlen₃ := (Frame.set_length hstored).trans hlen₂
  obtain ⟨f', hmac⟩ := @Frame.store_exists f₃ etherShost.offset i.mac.toList
    (by rw [hlen₃, i.mac.length_toList]; decide)
  exact ⟨csum, sum, f₁, f₂, f₃, f', hmask, hcsum, hsrc, hsum, hstored, hmac⟩

theorem Stamped.length (h : Stamped f i csum sum f₁ f₂ f₃ f') : f'.length = f.length := by
  rw [Frame.store_length h.mac, Frame.set_length h.stored, Frame.assign_length h.addressed,
    Frame.assign_length h.masked]

/-- What is written after the source address lies in front of it. -/
theorem Stamped.get_tail (h : Stamped f i csum sum f₁ f₂ f₃ f') {b : PacketField}
    (hb : PacketField.ipSrc.offset ≤ b.offset) : f'.get b = f₂.get b := by
  have hmac : etherShost.Apart b := Or.inl (Nat.le_trans (by decide) hb)
  have hsum : PacketField.ipSum.Apart b := Or.inl (Nat.le_trans (by decide) hb)
  rw [Frame.get_store_apart h.mac (by rw [i.mac.length_toList]; exact hmac),
    Frame.get_set_apart h.stored hsum]

/-- The fields that are the same for all interfaces are not touched. -/
theorem Stamped.base (h : Stamped f i csum sum f₁ f₂ f₃ f') (hbase : HelloBase f area rid) :
    HelloBase f' area rid := by
  apply hbase.congr h.length
  intro b hb
  have hfar : PacketField.ipSrc.offset ≤ b.offset ∧
      (∀ a ∈ [ospfCsum, PacketField.ipSrc, PacketField.ipSum], a.Apart b) ∧
      ∀ a ∈ [helloNmask, ospfCsum], a.Apart b := by
    revert b
    decide
  rw [h.get_tail hfar.1, Frame.get_assign_apart h.addressed hfar.2.1,
    Frame.get_assign_apart h.masked hfar.2.2]

theorem Stamped.ospfSum (h : Stamped f i csum sum f₁ f₂ f₃ f') : ospfSum f' = .ok csum := by
  obtain ⟨g, hset, hrest⟩ := bind_eq_ok.mp h.addressed
  have hbody : f'.drop ospfStart = g.drop ospfStart := by
    obtain ⟨hin, hpatch⟩ := Frame.store_eq_ok.mp h.mac
    rw [hpatch, drop_patch_outside hin (by rw [i.mac.length_toList]; decide)]
    have hstored : f₂.assign [(PacketField.ipSum, (htons sum).toNat)] = .ok f₃ := by
      rw [Frame.assign, h.stored]
      rfl
    rw [Frame.drop_assign hstored (by simp only [List.map]; decide),
      Frame.drop_assign hrest (by simp only [List.map]; decide)]
  have hlen : f'.length = g.length := by
    rw [Frame.store_length h.mac, Frame.set_length h.stored, Frame.assign_length hrest]
  have hlast : f₁.set ospfCsum 0 = .ok f₁ :=
    Frame.set_assign_concat (l := [(helloNmask, (htonl i.mask).toNat)]) h.masked
  rw [ospfSum_of_body hlen hbody, ospfSum_set hset, PWOSPF.ospfSum, hlast, ok_bind]
  exact h.ospfSummed

theorem Stamped.saysHello (h : Stamped f i csum sum f₁ f₂ f₃ f') (hbase : HelloBase f area rid) :
    SaysHello f' area rid i := by
  have hnmask : f'.get helloNmask = .ok (htonl i.mask).toNat := by
    rw [h.get_tail (by decide), Frame.get_assign_apart h.addressed (by simp only [List.map]; decide)]
    exact Frame.get_assign h.masked (by simp only [List.map]; decide) List.mem_cons_self
      (UInt32.toNat_lt _)
  have hpair : ([(ospfCsum, (htons csum).toNat), (PacketField.ipSrc, i.address.toNat),
      (PacketField.ipSum, 0)].map Prod.fst).Pairwise Apart := by
    simp only [List.map]
    decide
  have hcsum : f'.get ospfCsum = .ok (htons csum).toNat := by
    rw [h.get_tail (by decide)]
    exact Frame.get_assign h.addressed hpair List.mem_cons_self (UInt16.toNat_lt _)
  have hsrc : f'.get PacketField.ipSrc = .ok i.address.toNat := by
    rw [h.get_tail (Nat.le_refl _)]
    exact Frame.get_assign h.addressed hpair (List.mem_cons_of_mem _ List.mem_cons_self)
      (UInt32.toNat_lt _)
  exact ⟨h.base hbase, ⟨csum, h.ospfSum, hcsum⟩, hnmask, hsrc⟩

theorem helloCopies_spec (interfaces : List PwospfIflist) (hbase : HelloBase f area rid) :
    ∃ copies, helloCopies interfaces f = .ok copies ∧
      List.Forall₂ (fun c i => c.iface = i.name ∧ c.awaits = none ∧ SaysHello c.frame area rid i)
        copies interfaces := by
  induction interfaces generalizing f with
  | nil => exact ⟨[], rfl, .nil⟩
  | cons i rest ih =>
    obtain ⟨csum, sum, f₁, f₂, f₃, f', hstamp⟩ := Stamped.exists hbase.length i
    obtain ⟨copies, hrun, hcopies⟩ := ih (hstamp.base hbase)
    refine ⟨⟨f', i.name, none⟩ :: copies, ?_, .cons ⟨rfl, rfl, hstamp.saysHello hbase⟩ hcopies⟩
    rw [helloCopies, hstamp.run, ok_bind, hrun]
    rfl

end Build

/-- `send_HELLO` sends a HELLO out of every interface. -/
theorem sendHello_spec {S : PwospfSubsys} {this : Router}
    (hthis : S.top.find S.top.thisRouter = some this) (hifs : S.interfaces ≠ []) (env : Env) :
    ∃ copies, sendHello S env = .ok copies ∧
      List.Forall₂ (fun c i => c.iface = i.name ∧ c.awaits = none ∧
        SaysHello c.frame S.areaId this.rid i) copies S.interfaces := by
  have hlen₀ : ((List.range sizeofHelloPacket).map env.bytes).length = sizeofHelloPacket := by simp
  obtain ⟨f₁, hdhost⟩ := @Frame.store_exists ((List.range sizeofHelloPacket).map env.bytes)
    etherDhost.offset (.replicate 6 0xff) (by rw [hlen₀]; decide)
  have hlen₁ := (Frame.store_length hdhost).trans hlen₀
  obtain ⟨f₂, hcommon⟩ := Frame.assign_exists (f := f₁) (l := helloFields)
    (by rw [hlen₁]; simp only [helloFields, List.map]; decide)
  have hlen₂ := (Frame.assign_length hcommon).trans hlen₁
  obtain ⟨f₃, hospf⟩ := Frame.assign_exists (f := f₂) (l := [(ospfRid, this.rid.toNat),
    (ospfAid, (htonl S.areaId).toNat), (ospfAutype, ospfDefaultAuthkey),
    (ospfAudata, ospfDefaultAuthkey)]) (by rw [hlen₂]; simp only [List.map]; decide)
  have hfirst : ∀ {b : PacketField} {v : Nat}, (b, v) ∈ helloFields → v < 256 ^ b.width →
      (∀ a ∈ [ospfRid, ospfAid, ospfAutype, ospfAudata], a.Apart b) → f₃.get b = .ok v := by
    intro b v hmem hv hapart
    rw [Frame.get_assign_apart hospf hapart]
    exact Frame.get_assign hcommon (by simp only [helloFields, List.map]; decide) hmem hv
  have hsecond : ∀ {b : PacketField} {v : Nat}, (b, v) ∈ [(ospfRid, this.rid.toNat),
      (ospfAid, (htonl S.areaId).toNat), (ospfAutype, ospfDefaultAuthkey),
      (ospfAudata, ospfDefaultAuthkey)] → v < 256 ^ b.width → f₃.get b = .ok v := by
    intro b v hmem hv
    exact Frame.get_assign hospf (by simp only [List.map]; decide) hmem hv
  have hbase : HelloBase f₃ S.areaId this.rid :=
    { length := (Frame.assign_length hospf).trans hlen₂
      version := hfirst (by simp [helloFields]) (by decide) (by decide)
      type := hfirst (by simp [helloFields]) (by decide) (by decide)
      rid := hsecond (by simp) (UInt32.toNat_lt _)
      aid := hsecond (by simp) (UInt32.toNat_lt _)
      autype := hsecond (by simp [ospfDefaultAuthkey]) (by decide)
      helloint := hfirst (by simp [helloFields]) (UInt16.toNat_lt _) (by decide) }
  obtain ⟨copies, hcopies, hall⟩ := helloCopies_spec S.interfaces hbase
  refine ⟨copies, ?_, hall⟩
  rw [sendHello]
  simp only [hdhost, hcommon, deref_of_find hthis, hospf, ok_bind, if_neg hifs, hcopies]

/-! ## Receiving -/

/-- What a router reads of the HELLO if it receives it on an interface with this mask. -/
def helloRead (rid : UInt32) (i : PwospfIflist) (name : IfName) (mask : InAddr) : HelloMsg :=
  if mask = i.mask then
    ⟨sizeofHelloPacket - sizeofEther, name, htonl i.mask, htons ospfDefaultHelloint, rid, i.address⟩
  else ⟨sizeofHelloPacket - sizeofEther, name, htonl i.mask, 0, 0, 0⟩

/-- A router of the area hands the HELLO to `handle_HELLO`. -/
theorem handlePwospf_saysHello {f : Frame} {area rid : UInt32} {i j : PwospfIflist}
    {R : PwospfSubsys} (h : SaysHello f area rid i) (hR : InArea area R) (env : Env)
    {name : IfName} (hfind : R.interfaces.find? (fun iface => iface.name = name) = some j) :
    handlePwospf R env ⟨f, name⟩ = do
      let R' ← handleHello R env.clock (helloRead rid i name j.mask)
      return ⟨R', [], none⟩ := by
  obtain ⟨c, hsum, hcsum⟩ := h.csum
  obtain ⟨f', hclear⟩ := Frame.set_exists (f := f) (a := ospfCsum) (by rw [h.length]; decide) 0
  have hget : ∀ {b : PacketField}, ospfCsum.Apart b → f'.get b = f.get b := fun hb =>
    Frame.get_set_apart hclear hb
  have hcheck := checkPwospf_passes hR h.version hsum hcsum h.aid h.autype hclear
  have hread : readHello R ⟨f', name⟩ = .ok (helloRead rid i name j.mask) := by
    have hlen : PacketState.len ⟨f', name⟩ = sizeofHelloPacket - sizeofEther := by
      rw [PacketState.len, Frame.set_length hclear, h.length]
    rw [readHello, helloRead]
    simp only [hlen, hfind, hget (b := helloNmask) (by decide), h.nmask,
      hget (b := helloHelloint) (by decide), h.helloint, hget (b := ospfRid) (by decide), h.rid,
      hget (b := PacketField.ipSrc) (by decide), h.ipSrc, ok_bind, pure_eq_ok, UInt32.ofNat_toNat,
      UInt16.ofNat_toNat, ntohl_htonl, ne_eq, ite_not]
    rw [if_neg (by decide)]
    split
    · rfl
    · rfl
  have htype : f'.get ospfType = .ok ospfTypeHello := (hget (by decide)).trans h.type
  simp only [handlePwospf, hcheck, ok_bind, htype, if_true, hread]

end PWOSPF
