import PWOSPF.Subsystem.LsuRelay

/-!
# The LSU from its originator to every router

`send_lsu` makes packets that carry this router's subnets and static routes. However many routers
of the area they pass, the next one takes the same LSU from them.
-/

namespace PWOSPF

open Framework Topo PacketField

variable {f f' : Frame} {sr : SrInstance} {S : PwospfSubsys} {this : Router}

/-! ## Sending -/

/-- Advertisements are stored behind each other, and nothing in front of them changes. -/
theorem storeAdvs_spec (advs : List Adv) (i : Nat)
    (hin : 66 + 12 * (i + advs.length) ≤ f.length) :
    ∃ f', storeAdvs i advs f = .ok f' ∧ f'.length = f.length ∧ AdvsAt f' i advs ∧
      ∀ b : PacketField, b.offset + b.width ≤ 66 + 12 * i → f'.get b = f.get b := by
  induction advs generalizing i f with
  | nil =>
    refine ⟨f, rfl, rfl, ?_, fun _ _ => rfl⟩
    intro j a ha
    cases ha
  | cons a rest ih =>
    rw [List.length_cons] at hin
    have hapart : ([advSubnet i, advMask i, advRid i] : List PacketField).Pairwise Apart := by
      simp [Apart, advSubnet, advMask, advRid]
      omega
    obtain ⟨f₁, h₁⟩ := Frame.assign_exists (f := f) (l := [(advSubnet i, a.subnet.toNat),
      (advMask i, a.mask.toNat), (advRid i, a.rid.toNat)]) (by
        simp [advSubnet, advMask, advRid]
        omega)
    have hlen₁ := Frame.assign_length h₁
    obtain ⟨f₂, h₂, hlen₂, hadvs, hfront⟩ := ih (f := f₁) (i + 1) (by rw [hlen₁]; omega)
    refine ⟨f₂, ?_, hlen₂.trans hlen₁, ?_, ?_⟩
    · rw [storeAdvs, h₁, ok_bind, h₂]
    · intro j b hb
      cases j with
      | zero =>
        cases hb
        rw [Nat.add_zero, hfront _ (by simp [advSubnet]; omega),
          hfront _ (by simp [advMask]; omega), hfront _ (by simp [advRid]; omega)]
        exact ⟨Frame.get_assign h₁ hapart (by simp) (UInt32.toNat_lt _),
          Frame.get_assign h₁ hapart (by simp) (UInt32.toNat_lt _),
          Frame.get_assign h₁ hapart (by simp) (UInt32.toNat_lt _)⟩
      | succ j =>
        have := hadvs j b hb
        rwa [show i + 1 + j = i + (j + 1) by omega] at this
    · intro b hb
      rw [hfront b (by omega)]
      apply Frame.get_assign_apart h₁
      simp only [List.map, List.mem_cons, List.not_mem_nil, or_false]
      intro a ha
      rcases ha with rfl | rfl | rfl
      · exact Or.inr (by simp [advSubnet]; omega)
      · exact Or.inr (by simp [advMask]; omega)
      · exact Or.inr (by simp [advRid]; omega)

/-- The LSU that `send_lsu` sends next. -/
def ownLsu (sr : SrInstance) (S : PwospfSubsys) (this : Router) : Lsu where
  rid := this.rid
  seq := htons (S.lastSeqSent + 1)
  advs := generateAdv this sr

/-- The fields of the two headers that `send_lsu` fills in before it computes the checksum. -/
def lsuFields (sr : SrInstance) (S : PwospfSubsys) (this : Router) : List (PacketField × Nat) :=
  let n := (generateAdv this sr).length
  [(lsuSeq, (htons (S.lastSeqSent + 1)).toNat), (lsuTtl, initTtl),
    (lsuNumAdv, (htonl (.ofNat n)).toNat), (ospfVersion, ospfV2), (ospfType, ospfTypeLsu),
    (ospfLen, (htons (.ofNat (32 + 12 * n))).toNat), (ospfRid, this.rid.toNat),
    (ospfAid, (htonl S.areaId).toNat), (ospfAutype, ospfDefaultAuthkey),
    (ospfAudata, ospfDefaultAuthkey)]

/-- The checksum and the IP header. -/
def ipFields (csum len : UInt16) : List (PacketField × Nat) :=
  [(ospfCsum, (htons csum).toNat), (ipHead, ipVersionHl), (ipTos, 0),
    (ipLen, (htons (.ofNat (sizeofIp + len.toNat))).toNat), (ipId, 0), (ipOff, 0),
    (ipTtl, initTtl), (ipP, ospfv2Type)]

section Build

variable {p₁ p₂ p₃ : Frame} {csum len : UInt16}

theorem field_stored (h₂ : p₁.assign (lsuFields sr S this ++ [(ospfCsum, 0)]) = .ok p₂)
    (h₃ : p₂.assign (ipFields csum len) = .ok p₃) {b : PacketField} {v : Nat}
    (hmem : (b, v) ∈ lsuFields sr S this) (hv : v < 256 ^ b.width) : p₃.get b = .ok v := by
  have hpair : ((lsuFields sr S this ++ [(ospfCsum, 0)]).map Prod.fst).Pairwise Apart := by
    simp only [lsuFields, List.cons_append, List.nil_append, List.map]
    decide
  have hapart : ∀ b ∈ (lsuFields sr S this).map Prod.fst,
      ∀ a ∈ (ipFields csum len).map Prod.fst, a.Apart b := by
    simp only [lsuFields, ipFields, List.map]
    decide
  rw [Frame.get_assign_apart h₃ (hapart b (List.mem_map_of_mem hmem))]
  exact Frame.get_assign h₂ hpair (List.mem_append_left _ hmem) hv

/-- The advertisements lie behind all other fields. -/
theorem adv_kept (h₂ : p₁.assign (lsuFields sr S this ++ [(ospfCsum, 0)]) = .ok p₂)
    (h₃ : p₂.assign (ipFields csum len) = .ok p₃) {b : PacketField} (hb : 66 ≤ b.offset) :
    p₃.get b = p₁.get b := by
  have hend₂ : ∀ a ∈ (lsuFields sr S this ++ [(ospfCsum, 0)]).map Prod.fst,
      a.offset + a.width ≤ 66 := by
    simp only [lsuFields, List.cons_append, List.nil_append, List.map]
    decide
  have hend₃ : ∀ a ∈ (ipFields csum len).map Prod.fst, a.offset + a.width ≤ 66 := by
    simp only [ipFields, List.map]
    decide
  rw [Frame.get_assign_apart h₃ fun a ha => Or.inl (Nat.le_trans (hend₃ a ha) hb),
    Frame.get_assign_apart h₂ fun a ha => Or.inl (Nat.le_trans (hend₂ a ha) hb)]

theorem ospfSum_stored (h₂ : p₁.assign (lsuFields sr S this ++ [(ospfCsum, 0)]) = .ok p₂)
    (hsum : cksum (p₂.drop ospfStart) (sizeofOspf - 8) = .ok csum)
    (h₃ : p₂.assign (ipFields csum len) = .ok p₃) : ospfSum p₃ = .ok csum := by
  obtain ⟨p, hset, hrest⟩ := bind_eq_ok.mp h₃
  rw [ospfSum_of_body (Frame.assign_length hrest)
    (Frame.drop_assign hrest (by simp only [List.map]; decide)), ospfSum_set hset, ospfSum,
    Frame.set_assign_concat h₂, ok_bind]
  exact hsum

theorem built_carries (hlen₁ : p₁.length = 66 + 12 * (generateAdv this sr).length)
    (hfits : p₁.length < 2 ^ 16) (hadvs : AdvsAt p₁ 0 (generateAdv this sr))
    (h₂ : p₁.assign (lsuFields sr S this ++ [(ospfCsum, 0)]) = .ok p₂)
    (hsum : cksum (p₂.drop ospfStart) (sizeofOspf - 8) = .ok csum)
    (h₃ : p₂.assign (ipFields csum len) = .ok p₃) :
    Carries p₃ S.areaId (ownLsu sr S this) initTtl := by
  have hlen : p₃.length = p₁.length := (Frame.assign_length h₃).trans (Frame.assign_length h₂)
  have hip : ((ipFields csum len).map Prod.fst).Pairwise Apart := by
    simp only [ipFields, List.map]
    decide
  have hfield := @field_stored sr S this p₁ p₂ p₃ csum len h₂ h₃
  exact
    { length := hlen.trans hlen₁
      fits := by rw [hlen]; exact hfits
      version := hfield (by simp [lsuFields]) (by decide)
      type := hfield (by simp [lsuFields]) (by decide)
      len := hfield (by simp [lsuFields, ownLsu]) (UInt16.toNat_lt _)
      rid := hfield (by simp [lsuFields, ownLsu]) (UInt32.toNat_lt _)
      aid := hfield (by simp [lsuFields]) (UInt32.toNat_lt _)
      autype := hfield (by simp [lsuFields, ospfDefaultAuthkey]) (by decide)
      seq := hfield (by simp [lsuFields, ownLsu]) (UInt16.toNat_lt _)
      numAdv := hfield (by simp [lsuFields, ownLsu]) (UInt32.toNat_lt _)
      advs := hadvs.congr fun b hb => adv_kept h₂ h₃ hb
      csum := ⟨csum, ospfSum_stored h₂ hsum h₃,
        Frame.get_assign h₃ hip List.mem_cons_self (UInt16.toNat_lt _)⟩
      ipTtl := Frame.get_assign h₃ hip (by simp [ipFields]) (by decide)
      lsuTtl := hfield (by simp [lsuFields]) (by decide)
      pos := by decide
      le := Nat.le_refl _ }

end Build

/-- `send_lsu` sends this router's LSU to every neighbor. -/
theorem sendLsu_spec (hthis : S.top.find S.top.thisRouter = some this)
    (hifs : ∀ i ∈ S.interfaces, ∃ srcIf, srGetInterface sr i.name = some srcIf)
    (hfits : 66 + 12 * (generateAdv this sr).length < 2 ^ 16) (env : Env) :
    ∃ copies, sendLsu sr S env = .ok ({ S with lastSeqSent := S.lastSeqSent + 1 }, copies) ∧
      List.Forall₂ (CarriesTo S.areaId (ownLsu sr S this) initTtl) copies
        (floodPairs (fun _ => false) S.interfaces) := by
  let n := (generateAdv this sr).length
  let len := UInt16.ofNat (32 + 12 * n)
  obtain ⟨macOf, hrun, hmac⟩ : ∃ macOf : PwospfIflist → Exec Mac, (sendLsu sr S env = do
      let pack ← storeAdvs 0 (generateAdv this sr) ((List.range (66 + 12 * n)).map env.bytes)
      let pack ← pack.assign (lsuFields sr S this ++ [(ospfCsum, 0)])
      let csum ← cksum (pack.drop ospfStart) (sizeofOspf - 8)
      let pack ← pack.assign (ipFields csum len)
      let x ← flood env macOf (.ofNat (66 + 12 * n)) (fun _ => false) S.interfaces (pack, [])
      return ({ S with lastSeqSent := S.lastSeqSent + 1 }, x.2)) ∧
      ∀ i ∈ S.interfaces, ∃ mac, macOf i = .ok mac := by
    rw [sendLsu, deref_of_find hthis]
    refine ⟨_, rfl, ?_⟩
    intro i hi
    obtain ⟨srcIf, hsrc⟩ := hifs i hi
    exact ⟨srcIf.addr, by simp only [hsrc]⟩
  obtain ⟨p₁, h₁, hlen₁, hadvs, -⟩ :=
    storeAdvs_spec (f := (List.range (66 + 12 * n)).map env.bytes) (generateAdv this sr) 0
      (by simp [n])
  rw [List.length_map, List.length_range] at hlen₁
  have hmin : 66 ≤ p₁.length := by rw [hlen₁]; exact Nat.le_add_right _ _
  obtain ⟨p₂, h₂⟩ := Frame.assign_exists (f := p₁) (l := lsuFields sr S this ++ [(ospfCsum, 0)])
    (fun a ha => Nat.le_trans (by
      revert a
      simp only [lsuFields, List.cons_append, List.nil_append, List.map]
      decide) hmin)
  have hlen₂ := Frame.assign_length h₂
  obtain ⟨csum, hsum⟩ := ospfCksum_exists (f := p₂) (Nat.le_trans (by decide) (hlen₂ ▸ hmin))
  obtain ⟨p₃, h₃⟩ := Frame.assign_exists (f := p₂) (l := ipFields csum len)
    (fun a ha => Nat.le_trans (by
      revert a
      simp only [ipFields, List.map]
      decide) (hlen₂ ▸ hmin))
  have hlen₃ := (Frame.assign_length h₃).trans hlen₂
  have hcarries := built_carries hlen₁ (by rw [hlen₁]; exact hfits) hadvs h₂ hsum h₃
  have hcut : (UInt16.ofNat (66 + 12 * n)).toNat = p₃.length := by
    rw [hlen₃, hlen₁]
    exact UInt16.toNat_ofNat_of_lt' hfits
  obtain ⟨p₄, copies, hflood, hcopies⟩ := @flood_addressed p₃ env macOf
    (.ofNat (66 + 12 * n)) (fun _ => false) S.interfaces [] hmac
    (by rw [hlen₃]; exact Nat.le_trans (by decide) hmin) (Nat.le_of_eq hcut)
  rw [hcut] at hcopies
  refine ⟨copies, ?_, hcopies.imp fun _ _ => hcarries.addressedCopy⟩
  rw [hrun, h₁, ok_bind, h₂, ok_bind, hsum, ok_bind, h₃, ok_bind, hflood]
  rfl

/-! ## Survival -/

/-- An LSU that fits into 16-bit lengths reaches every neighbor of its originator, and gets along every
way of up to 254 routers of the area that take it and have a neighbor besides the one it came from.
However many routers relayed it, a router of the area that is not the originator and did not see the
sequence number last accepts it, merges the originator's subnets and static routes in their order, and
forwards it. The sequence number is compared and kept as it stands in the packet. -/
theorem lsu_survives (hthis : S.top.find S.top.thisRouter = some this)
    (hifs : ∀ i ∈ S.interfaces, ∃ srcIf, srGetInterface sr i.name = some srcIf)
    (hfits : 66 + 12 * (this.subnets.elems.length + sr.routingTable.length) < 2 ^ 16) (env : Env) :
    ∃ sent, sendLsu sr S env = .ok ({ S with lastSeqSent := S.lastSeqSent + 1 }, sent) ∧
      sent.map Handoff.iface = (targets (fun _ => false) S.interfaces).map Prod.fst ∧
      (∀ via pair, LsuPath S.areaId (ownLsu sr S this) S.interfaces via pair → via.length ≤ 254 →
        ∃ f, Relayed S.areaId sent via f ∧ f.get ipSrc = .ok pair.1.address.toNat ∧
          f.get ipDst = .ok pair.2.ipAddress.toNat) ∧
      ∀ via f, Relayed S.areaId sent via f → ∀ R, InArea S.areaId R →
        R.top.ridOf R.top.thisRouter ≠ some this.rid →
        getSequence R this.rid ≠ htons (S.lastSeqSent + 1) → ∀ env name, ∃ ads f',
          (ads.map fun r : Route => (r.pfix, r.mask, r.rId)) =
            (this.subnets.elems.map fun s => (s.pfix, s.mask, s.rId)) ++
              (sr.routingTable.map fun s => (s.dest, s.mask, 0)) ∧
          f.set ospfCsum 0 = .ok f' ∧
          handlePwospf R env ⟨f, name⟩ = do
            let R' ← addToTop R env.clock this.rid ads
            let R' := setSequence R' this.rid (htons (S.lastSeqSent + 1))
            let copies ← forwardLsu R' env f'
            return ⟨R', copies, some (this.rid, htons (S.lastSeqSent + 1))⟩ := by
  have hlen : (generateAdv this sr).length =
      this.subnets.elems.length + sr.routingTable.length := by simp [generateAdv]
  obtain ⟨sent, hsend, hto⟩ := sendLsu_spec hthis hifs (by rw [hlen]; exact hfits) env
  have hboth := hto.imp fun _ _ hc => And.intro hc.carries hc
  have hcarries := ((List.forall₂_and_left _ _).mp hboth).1
  refine ⟨sent, hsend, ?_, ?_, ?_⟩
  · rw [targets_eq_map, List.map_map]
    exact List.forall₂_eq_eq_eq ▸ List.forall₂_map_left_iff.mpr
      (List.forall₂_map_right_iff.mpr (hto.imp fun _ _ hc => hc.iface))
  · intro via pair hpath hfew
    obtain ⟨f, hf, hbetween⟩ := hpath.relayed hto (Nat.lt_succ_of_le hfew)
    exact ⟨f, hf, hbetween.ipSrc, hbetween.ipDst⟩
  · intro via f hf R hR hown hseq env name
    obtain ⟨f', hclear, hrun⟩ := handlePwospf_carries (hf.carries hcarries) hR env name
    have haccept : ¬ (R.top.ridOf R.top.thisRouter = some (ownLsu sr S this).rid ∨
        getSequence R (ownLsu sr S this).rid = (ownLsu sr S this).seq) :=
      not_or.mpr ⟨hown, hseq⟩
    rw [if_neg haccept] at hrun
    refine ⟨routesOf env 0 (generateAdv this sr), f', ?_, hclear, hrun⟩
    rw [routesOf_map fun pfix mask rid => (pfix, mask, rid), generateAdv, List.map_append,
      List.map_map, List.map_map]
    rfl

section Demo

/-- `demoSr` with a default route. -/
def demoRouted : SrInstance := { demoSr with routingTable := [⟨0, 0, 0, eth0Interface⟩] }

/-- `demoStart` with a neighbor at 10.0.0.0. -/
def demoOrigin : PwospfSubsys :=
  { demoStart with interfaces := demoStart.interfaces.map fun i =>
      { i with neighbors := i.neighbors.store ⟨7, 0x0000000a, 100⟩ } }

def demoReceiver : PwospfSubsys := { demoStart with top := ⟨[newRouter 0 9 0], 0, 1⟩ }

/-- `demoRelay`, and behind it the router at 10.0.0.3, which has a neighbor at 10.0.0.4. -/
def demoVia : List Relay :=
  [⟨{ demoReceiver with interfaces := [⟨0x0300000a, 0xfeffffff, eth0Interface, 5,
      #v[0, 0, 0, 0, 0, 3], (DynArray.alloc defNbrBuf).store ⟨11, 0x0400000a, 100⟩⟩] }, demoEnv,
      eth0Interface⟩,
    ⟨demoRelay, demoEnv, eth0Interface⟩]

def demoFarthest : PwospfSubsys := { demoStart with top := ⟨[newRouter 0 11 0], 0, 1⟩ }

theorem lsu_survives_demo :
    ∃ sent f ads f', Relayed 0 sent demoVia f ∧
      (ads.map fun r : Route => (r.pfix, r.mask, r.rId)) =
        [(0x0000000a, 0xfeffffff, 0), (0, 0, 0)] ∧
      handlePwospf demoFarthest demoEnv ⟨f, eth0Interface⟩ = do
        let R' ← addToTop demoFarthest demoEnv.clock 0x0100000a ads
        let R' := setSequence R' 0x0100000a 0x0100
        let copies ← forwardLsu R' demoEnv f'
        return ⟨R', copies, some (0x0100000a, 0x0100)⟩ := by
  obtain ⟨sent, hsend, -, hreach, hall⟩ := @lsu_survives demoRouted demoOrigin _ rfl (by
    intro i hi
    cases hi with
    | head => exact ⟨_, rfl⟩
    | tail _ hi => cases hi) (by decide) demoEnv
  have haccepts : ∀ x ∈ demoVia, x.Accepts 0 (ownLsu demoRouted demoOrigin
      { newRouter 0 0x0100000a 0 with
        subnets := ⟨[⟨0x0000000a, 0xfeffffff, 0x0000000a, 0⟩], 10, 80⟩ }) := by
    intro x hx
    cases hx with
    | head => exact ⟨⟨rfl, rfl, by decide⟩, by decide, by decide, ⟨_, rfl⟩⟩
    | tail _ hx =>
      cases List.mem_singleton.mp hx
      exact ⟨⟨rfl, rfl, by decide⟩, by decide, by decide, ⟨_, rfl⟩⟩
  have hpath : LsuPath 0 _ demoOrigin.interfaces demoVia _ :=
    .onward (.onward (.first List.mem_cons_self) (haccepts _ (.tail _ (.head _)))
      List.mem_cons_self) (haccepts _ (.head _)) List.mem_cons_self
  obtain ⟨f, hf, -⟩ := hreach demoVia _ hpath (by decide)
  obtain ⟨ads, f', hads, -, heq⟩ := hall demoVia f hf demoFarthest ⟨rfl, rfl, by decide⟩
    (by decide) (by decide) demoEnv eth0Interface
  exact ⟨sent, f, ads, f', hf, hads, heq⟩

end Demo

end PWOSPF
