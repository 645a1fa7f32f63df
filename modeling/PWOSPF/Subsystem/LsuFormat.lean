import PWOSPF.Packet.InetChecksum
import PWOSPF.Subsystem.Packets

/-!
# Packets that carry an LSU

`Carries` describes the packets between routers: their headers pass the checks of a router in the
area, and their fields stand for one LSU. `send_lsu` makes such packets, `forward_lsu` turns one
into others of the same LSU with fewer hops left, and `handle_lsu` reads the LSU from any of them.
-/

namespace PWOSPF

open Framework Topo PacketField

/-- The originator, the sequence number as it stands in the packet, and the advertisements. -/
structure Lsu where
  rid : UInt32
  seq : UInt16
  advs : List Adv

def ospfSum (f : Frame) : Exec UInt16 := do
  cksum ((← f.set ospfCsum 0).drop ospfStart) (sizeofOspf - 8)

/-- The packet has these advertisements from position `i` on. -/
def AdvsAt (f : Frame) (i : Nat) (advs : List Adv) : Prop :=
  ∀ j a, advs[j]? = some a → f.get (advSubnet (i + j)) = .ok a.subnet.toNat ∧
    f.get (advMask (i + j)) = .ok a.mask.toNat ∧ f.get (advRid (i + j)) = .ok a.rid.toNat

/-- The headers behind the IP header, apart from the checksum and the hop count. -/
structure LsuBody (f : Frame) (area : UInt32) (l : Lsu) : Prop where
  length : f.length = 66 + 12 * l.advs.length
  fits : f.length < 2 ^ 16
  version : f.get ospfVersion = .ok ospfV2
  type : f.get ospfType = .ok ospfTypeLsu
  len : f.get ospfLen = .ok (htons (.ofNat (32 + 12 * l.advs.length))).toNat
  rid : f.get ospfRid = .ok l.rid.toNat
  aid : f.get ospfAid = .ok (htonl area).toNat
  autype : f.get ospfAutype = .ok 0
  seq : f.get lsuSeq = .ok l.seq.toNat
  numAdv : f.get lsuNumAdv = .ok (htonl (.ofNat l.advs.length)).toNat
  advs : AdvsAt f 0 l.advs

/-- The packet carries the LSU to the routers of the area, with `ttl` hops left. -/
structure Carries (f : Frame) (area : UInt32) (l : Lsu) (ttl : Nat) : Prop
    extends LsuBody f area l where
  csum : ∃ c, ospfSum f = .ok c ∧ f.get ospfCsum = .ok (htons c).toNat
  ipTtl : f.get ipTtl = .ok ttl
  lsuTtl : f.get lsuTtl = .ok ttl
  pos : 0 < ttl
  le : ttl ≤ initTtl

/-- Nothing but the addresses and the IP checksum differs. -/
structure Readdressed (f f' : Frame) : Prop where
  length : f'.length = f.length
  body : f'.drop ospfStart = f.drop ospfStart
  ipTtl : f'.get ipTtl = f.get ipTtl

/-- The packet with these addresses, and with the IP checksum for them. -/
structure AddressedTo (f f' : Frame) (src dst : Nat) : Prop extends Readdressed f f' where
  ipSrc : f'.get ipSrc = .ok src
  ipDst : f'.get ipDst = .ok dst
  ipSum : SumsUp f' ipStart sizeofIp

section Format

variable {f f' : Frame} {area : UInt32} {l : Lsu} {ttl : Nat}

theorem get_of_body (hlen : f'.length = f.length) (hbody : f'.drop ospfStart = f.drop ospfStart)
    {b : PacketField} (hb : ospfStart ≤ b.offset) : f'.get b = f.get b := by
  apply Frame.get_of_slice _ hlen
  rw [← slice_drop f' hb, hbody, slice_drop f hb]

theorem Readdressed.slice_body (h : Readdressed f f') {o : Nat} (ho : ospfStart ≤ o) (n : Nat) :
    slice f' o n = slice f o n := by
  rw [← slice_drop f' ho, h.body, slice_drop f ho]

theorem ospfSum_of_body (hlen : f'.length = f.length)
    (hbody : f'.drop ospfStart = f.drop ospfStart) : ospfSum f' = ospfSum f := by
  rw [ospfSum, ospfSum, Frame.set, Frame.set, Frame.store, Frame.store, hlen]
  by_cases hin : ospfCsum.offset + (leBytes ospfCsum.width 0).length ≤ f.length
  · have hstart : ospfStart ≤ ospfCsum.offset := by decide
    rw [if_pos hin, if_pos hin, ok_bind, ok_bind, drop_patch_inside (by rw [hlen]; exact hin) hstart,
      drop_patch_inside hin hstart, hbody]
  · rw [if_neg hin, if_neg hin]

theorem ospfCksum_exists (hmin : 50 ≤ f.length) :
    ∃ c, cksum (f.drop ospfStart) (sizeofOspf - 8) = .ok c := by
  apply cksum_exists (n := 8)
  · rw [List.length_drop, ospfStart, sizeofEther, sizeofIp]
    omega
  · decide

/-- The sum does not depend on what the checksum field holds. -/
theorem ospfSum_set {v : Nat} (h : f.set ospfCsum v = .ok f') : ospfSum f' = ospfSum f := by
  rw [ospfSum, ospfSum, Frame.set_set h]

/-- The sum is that of the header in front of the authentication data. -/
theorem ospfSum_eq (hmin : 50 ≤ f.length) : ospfSum f = .ok (.ofNat
    (inetChecksum (patch (slice f ospfStart (sizeofOspf - 8)) 12 [0, 0]))) := by
  obtain ⟨f₁, hclear⟩ := Frame.set_exists (f := f) (a := ospfCsum) (Nat.le_trans (by decide) hmin) 0
  have hlen := Frame.set_length hclear
  obtain ⟨hin, hpatch⟩ := Frame.set_eq_ok.mp hclear
  have hrange : 2 * 8 ≤ (f₁.drop ospfStart).length := by
    rw [List.length_drop, hlen, ospfStart, sizeofEther, sizeofIp]
    omega
  rw [ospfSum, hclear, ok_bind, cksum_eq (n := 8) hrange (by decide) (by decide), hpatch]
  exact congrArg (fun bs => Except.ok (UInt16.ofNat (inetChecksum bs)))
    (slice_patch_within (by decide) (by decide) hmin)

/-- The header sums up if its checksum is in its place. -/
theorem sumsUp_of_ospfSum {c : UInt16} (hsum : ospfSum f = .ok c)
    (hcsum : f.get ospfCsum = .ok (htons c).toNat) : SumsUp f ospfStart (sizeofOspf - 8) := by
  obtain ⟨f₁, hclear, hck⟩ := bind_eq_ok.mp hsum
  have hlen := Frame.set_length hclear
  have hset : f₁.set ospfCsum (htons c).toNat = .ok f :=
    (Frame.set_set hclear).trans (Frame.set_of_get hcsum)
  have hin : 50 ≤ f₁.length := by
    by_contra hshort
    rw [show sizeofOspf - 8 = 2 * 8 from rfl, cksum_overread (n := 8)
      (by rw [List.length_drop, ospfStart, sizeofEther, sizeofIp]; omega) (by decide) rfl] at hck
    cases hck
  exact sumsUp_of_set (by decide) (by decide) (by decide) (by decide) (by decide) hin
    (slice_of_get_zero (Frame.get_set hclear (by decide))) hck hset

theorem AdvsAt.congr {i : Nat} {advs : List Adv} (h : AdvsAt f i advs)
    (hget : ∀ b : PacketField, 66 ≤ b.offset → f'.get b = f.get b) : AdvsAt f' i advs := by
  intro j a ha
  have hsub : 66 ≤ (advSubnet (i + j)).offset := Nat.le_add_right _ _
  have hmask : 66 ≤ (advMask (i + j)).offset := by simp only [advMask]; omega
  have hrid : 66 ≤ (advRid (i + j)).offset := by simp only [advRid]; omega
  rw [hget _ hsub, hget _ hmask, hget _ hrid]
  exact h j a ha

theorem LsuBody.congr (h : LsuBody f area l) (hlen : f'.length = f.length)
    (hget : ∀ b : PacketField, ospfStart ≤ b.offset → ospfCsum.Apart b → lsuTtl.Apart b →
      f'.get b = f.get b) : LsuBody f' area l where
  length := hlen.trans h.length
  fits := by rw [hlen]; exact h.fits
  version := (hget _ (by decide) (by decide) (by decide)).trans h.version
  type := (hget _ (by decide) (by decide) (by decide)).trans h.type
  len := (hget _ (by decide) (by decide) (by decide)).trans h.len
  rid := (hget _ (by decide) (by decide) (by decide)).trans h.rid
  aid := (hget _ (by decide) (by decide) (by decide)).trans h.aid
  autype := (hget _ (by decide) (by decide) (by decide)).trans h.autype
  seq := (hget _ (by decide) (by decide) (by decide)).trans h.seq
  numAdv := (hget _ (by decide) (by decide) (by decide)).trans h.numAdv
  advs := h.advs.congr fun b hb => hget b
    (by simp only [ospfStart, sizeofEther, sizeofIp]; omega)
    (Or.inl (by simp only [ospfCsum]; omega)) (Or.inl (by simp only [PacketField.lsuTtl]; omega))

/-! ## New addresses -/

theorem Readdressed.refl (f : Frame) : Readdressed f f := ⟨rfl, rfl, rfl⟩

theorem Readdressed.trans {f'' : Frame} (h : Readdressed f f') (h' : Readdressed f' f'') :
    Readdressed f f'' :=
  ⟨h'.length.trans h.length, h'.body.trans h.body, h'.ipTtl.trans h.ipTtl⟩

theorem Readdressed.of_store {o : Nat} {bs : List UInt8} (h : f.store o bs = .ok f')
    (hend : o + bs.length ≤ ospfStart) (hapart : PacketField.Apart ⟨o, bs.length⟩ PacketField.ipTtl) :
    Readdressed f f' := by
  refine ⟨Frame.store_length h, ?_, Frame.get_store_apart h hapart⟩
  obtain ⟨hin, rfl⟩ := Frame.store_eq_ok.mp h
  exact drop_patch_outside hin hend

theorem Readdressed.of_assign {fields : List (PacketField × Nat)} (h : f.assign fields = .ok f')
    (hend : ∀ a ∈ fields.map Prod.fst, a.offset + a.width ≤ ospfStart)
    (hapart : ∀ a ∈ fields.map Prod.fst, a.Apart PacketField.ipTtl) : Readdressed f f' :=
  ⟨Frame.assign_length h, Frame.drop_assign h hend, Frame.get_assign_apart h hapart⟩

/-- Stores in front of the IP header leave the addresses and their checksum. -/
theorem AddressedTo.link {src dst o : Nat} {bs : List UInt8} {f'' : Frame}
    (h : AddressedTo f f' src dst) (hstore : f'.store o bs = .ok f'')
    (hend : o + bs.length ≤ ipStart) : AddressedTo f f'' src dst := by
  have hapart : ∀ b : PacketField, ipStart ≤ b.offset → PacketField.Apart ⟨o, bs.length⟩ b :=
    fun b hb => Or.inl (Nat.le_trans hend hb)
  obtain ⟨hin, hpatch⟩ := Frame.store_eq_ok.mp hstore
  exact
    { toReaddressed := h.toReaddressed.trans (.of_store hstore (Nat.le_trans hend (by decide))
        (hapart _ (by decide)))
      ipSrc := (Frame.get_store_apart hstore (hapart _ (by decide))).trans h.ipSrc
      ipDst := (Frame.get_store_apart hstore (hapart _ (by decide))).trans h.ipDst
      ipSum := by
        rw [SumsUp, hpatch, slice_patch_outside hin (Or.inr hend)]
        exact h.ipSum }

theorem Carries.readdressed (h : Carries f area l ttl) (hf : Readdressed f f') :
    Carries f' area l ttl where
  toLsuBody := h.toLsuBody.congr hf.length fun _ hb _ _ => get_of_body hf.length hf.body hb
  csum := by
    rw [ospfSum_of_body hf.length hf.body, get_of_body hf.length hf.body (by decide)]
    exact h.csum
  ipTtl := hf.ipTtl.trans h.ipTtl
  lsuTtl := (get_of_body hf.length hf.body (by decide)).trans h.lsuTtl
  pos := h.pos
  le := h.le

/-! ## Flooding -/

/-- The neighbors to reach, each with the interface it is behind. -/
def floodPairs (skip : InAddr → Bool) (interfaces : List PwospfIflist) :
    List (PwospfIflist × NeighborList) :=
  interfaces.flatMap fun iface =>
    (iface.neighbors.elems.filter fun nbr => !skip nbr.ipAddress).map fun nbr => (iface, nbr)

/-- The neighbors to reach: the interface to use and the address. -/
def targets (skip : InAddr → Bool) (interfaces : List PwospfIflist) : List (IfName × InAddr) :=
  interfaces.flatMap fun iface =>
    (iface.neighbors.elems.filter fun nbr => !skip nbr.ipAddress).map fun nbr =>
      (iface.name, nbr.ipAddress)

theorem targets_eq_map (skip : InAddr → Bool) (interfaces : List PwospfIflist) :
    targets skip interfaces =
      (floodPairs skip interfaces).map fun pair => (pair.1.name, pair.2.ipAddress) := by
  simp only [targets, floodPairs, List.map_flatMap, List.map_map, Function.comp_def]

/-- The first `n` bytes of the packet, with other addresses, on their way to the target. -/
structure CopyFor (f : Frame) (n : Nat) (c : Handoff) (target : IfName × InAddr) : Prop where
  cut : ∃ full, Readdressed f full ∧ full.get ipDst = .ok target.2.toNat ∧ c.frame = full.take n
  iface : c.iface = target.1

/-- The first `n` bytes of the packet, with the addresses of the interface and its neighbor. -/
structure AddressedCopy (f : Frame) (n : Nat) (c : Handoff) (pair : PwospfIflist × NeighborList) :
    Prop where
  cut : ∃ full, AddressedTo f full pair.1.address.toNat pair.2.ipAddress.toNat ∧
    c.frame = full.take n
  iface : c.iface = pair.1.name

variable {n : Nat} {c : Handoff} {t : IfName × InAddr} {pair : PwospfIflist × NeighborList}

theorem AddressedCopy.copyFor (h : AddressedCopy f n c pair) :
    CopyFor f n c (pair.1.name, pair.2.ipAddress) := by
  obtain ⟨full, hfull, hcut⟩ := h.cut
  exact ⟨⟨full, hfull.toReaddressed, hfull.ipDst, hcut⟩, h.iface⟩

theorem AddressedCopy.of_readdressed (hf : Readdressed f f') (h : AddressedCopy f' n c pair) :
    AddressedCopy f n c pair := by
  obtain ⟨full, hfull, hcut⟩ := h.cut
  exact ⟨⟨full, ⟨hf.trans hfull.toReaddressed, hfull.ipSrc, hfull.ipDst, hfull.ipSum⟩, hcut⟩, h.iface⟩

/-- A copy that is not cut off. -/
theorem CopyFor.whole (h : CopyFor f f.length c t) :
    Readdressed f c.frame ∧ c.frame.get ipDst = .ok t.2.toNat := by
  obtain ⟨full, hsame, hdst, hcut⟩ := h.cut
  rw [← hsame.length, List.take_length] at hcut
  rw [hcut]
  exact ⟨hsame, hdst⟩

/-- The fields of the body that are not cut off are those of the packet. -/
theorem CopyFor.get_body (h : CopyFor f n c t) (hn : n ≤ f.length) {b : PacketField}
    (hb : ospfStart ≤ b.offset) (hin : b.offset + b.width ≤ n) : c.frame.get b = f.get b := by
  obtain ⟨full, hsame, -, hcut⟩ := h.cut
  rw [hcut, Frame.get_take hin (by rw [hsame.length]; exact hn)]
  exact get_of_body hsame.length hsame.body hb

theorem CopyFor.get_ipTtl (h : CopyFor f n c t) (hn : n ≤ f.length)
    (hin : ipTtl.offset + ipTtl.width ≤ n) : c.frame.get PacketField.ipTtl = f.get PacketField.ipTtl := by
  obtain ⟨full, hsame, -, hcut⟩ := h.cut
  rw [hcut, Frame.get_take hin (by rw [hsame.length]; exact hn)]
  exact hsame.ipTtl

theorem CopyFor.length (h : CopyFor f n c t) (hn : n ≤ f.length) : c.frame.length = n := by
  obtain ⟨full, hsame, -, hcut⟩ := h.cut
  rw [hcut, List.length_take, hsame.length, Nat.min_eq_left hn]

/-- The buffer that `copyTo` leaves and the copy it makes of the first `size` bytes. -/
theorem copyTo_eq (found : Option Mac) (mac : Mac) (name : IfName) (size : UInt16) (dst : InAddr)
    (hmin : ospfStart ≤ f.length) {src : Nat} (hsrc : f.get ipSrc = .ok src) :
    ∃ f', AddressedTo f f' src dst.toNat ∧
      copyTo found mac name size f dst = do
        return (f', ⟨← f'.load 0 size.toNat, name, if found.isSome then none else some dst⟩) := by
  rw [ospfStart, sizeofEther, sizeofIp] at hmin
  have hmac : ∀ mac : Mac, mac.toList.length = 6 := fun mac => mac.length_toList
  obtain ⟨f₁, h₁⟩ := Frame.assign_exists (f := f) (l := [(ipDst, dst.toNat), (ipSum, 0)])
    (by simp [ipDst, ipSum]; omega)
  have hlen₁ := Frame.assign_length h₁
  obtain ⟨csum, hcsum⟩ : ∃ csum, cksum (f₁.drop ipStart) (2 * 10) = .ok csum :=
    cksum_exists (by rw [List.length_drop, hlen₁, ipStart, sizeofEther]; omega) (by decide)
  obtain ⟨f₂, h₂⟩ := Frame.set_exists (f := f₁) (a := ipSum) (by simp [ipSum, hlen₁]; omega)
    (htons csum).toNat
  have hlen₂ := (Frame.set_length h₂).trans hlen₁
  obtain ⟨f₃, h₃⟩ := Frame.set_exists (f := f₂) (a := etherType) (by simp [etherType, hlen₂]; omega)
    (htons ethertypeIp).toNat
  have hlen₃ := (Frame.set_length h₃).trans hlen₂
  obtain ⟨f₄, h₄⟩ : ∃ f₄, f₃.store etherShost.offset mac.toList = .ok f₄ :=
    Frame.store_exists (by rw [hmac, hlen₃]; exact Nat.le_trans (by decide) hmin)
  have hlen₄ := (Frame.store_length h₄).trans hlen₃
  have hclear : f₁.get ipSum = .ok 0 :=
    Frame.get_assign h₁ (by simp only [List.map]; decide) (by simp) (by decide)
  have haddressed : AddressedTo f f₂ src dst.toNat :=
    { toReaddressed := (Readdressed.of_assign h₁ (by simp only [List.map]; decide)
        (by simp only [List.map]; decide)).trans
          (.of_store h₂ (by rw [leBytes_length]; decide) (by rw [leBytes_length]; decide))
      ipSrc := by
        rw [Frame.get_set_apart h₂ (by decide),
          Frame.get_assign_apart h₁ (by simp only [List.map]; decide)]
        exact hsrc
      ipDst := by
        rw [Frame.get_set_apart h₂ (by decide)]
        exact Frame.get_assign h₁ (by simp only [List.map]; decide) List.mem_cons_self dst.toNat_lt
      ipSum := sumsUp_of_set (by decide) (by decide) (by decide) (by decide) (by decide)
        (by rw [hlen₁]; exact hmin) (slice_of_get_zero hclear) hcsum h₂ }
  have haddressed₄ : AddressedTo f f₄ src dst.toNat :=
    (haddressed.link h₃ (by rw [leBytes_length]; decide)).link h₄ (by rw [hmac]; decide)
  have hassign : f₁.assign [(ipSum, (htons csum).toNat), (etherType, (htons ethertypeIp).toNat)] =
      .ok f₃ := by
    rw [Frame.assign, h₂, ok_bind, Frame.assign, h₃]
    rfl
  rw [copyTo, h₁, ok_bind, show sizeofIp = 2 * 10 from rfl, hcsum, ok_bind, hassign, ok_bind, h₄,
    ok_bind]
  cases found with
  | none => exact ⟨f₄, haddressed₄, rfl⟩
  | some dhost =>
    obtain ⟨f₅, h₅⟩ : ∃ f₅, f₄.store etherDhost.offset dhost.toList = .ok f₅ :=
      Frame.store_exists (by rw [hmac, hlen₄]; exact Nat.le_trans (by decide) hmin)
    refine ⟨f₅, haddressed₄.link h₅ (by rw [hmac]; decide), ?_⟩
    simp only [h₅, ok_bind]
    rfl

theorem copyTo_addressed (found : Option Mac) (mac : Mac) {iface : PwospfIflist} {size : UInt16}
    (nbr : NeighborList) (hmin : ospfStart ≤ f.length) (hsize : size.toNat ≤ f.length)
    (hsrc : f.get ipSrc = .ok iface.address.toNat) :
    ∃ f' copy, copyTo found mac iface.name size f nbr.ipAddress = .ok (f', copy) ∧
      AddressedTo f f' iface.address.toNat nbr.ipAddress.toNat ∧
      AddressedCopy f size.toNat copy (iface, nbr) := by
  obtain ⟨f', haddressed, hcopy⟩ := copyTo_eq found mac iface.name size nbr.ipAddress hmin hsrc
  have hload : f'.load 0 size.toNat = .ok (f'.take size.toNat) := by
    rw [Frame.load, haddressed.length, Nat.zero_add, if_pos hsize]
    rfl
  rw [hload, ok_bind] at hcopy
  exact ⟨f', _, hcopy, haddressed, ⟨f', haddressed, rfl⟩, rfl⟩

theorem copyTo_overread {found : Option Mac} {mac : Mac} {name : IfName} {size : UInt16}
    {dst : InAddr} (hmin : ospfStart ≤ f.length) (hsize : f.length < size.toNat) :
    copyTo found mac name size f dst = .error .outOfBounds := by
  obtain ⟨src, hsrc⟩ := Frame.get_exists (f := f) (b := ipSrc) (Nat.le_trans (by decide) hmin)
  obtain ⟨f', haddressed, hcopy⟩ := copyTo_eq found mac name size dst hmin hsrc
  have hload : f'.load 0 size.toNat = .error .outOfBounds := by
    rw [Frame.load, haddressed.length, if_neg (by omega)]
  rw [hcopy, hload]
  rfl

variable (env : Env) {macOf : PwospfIflist → Exec Mac} {size : UInt16} (skip : InAddr → Bool)

theorem copyToNeighbors_addressed {iface : PwospfIflist} (hmac : ∃ mac, macOf iface = .ok mac)
    (neighbors : List NeighborList) (copies : List Handoff) (hmin : ospfStart ≤ f.length)
    (hsize : size.toNat ≤ f.length) (hsrc : f.get ipSrc = .ok iface.address.toNat) :
    ∃ f' copies',
      copyToNeighbors env macOf size skip iface neighbors (f, copies) = .ok (f', copies ++ copies') ∧
      Readdressed f f' ∧
      List.Forall₂ (AddressedCopy f size.toNat) copies'
        ((neighbors.filter fun nbr => !skip nbr.ipAddress).map fun nbr => (iface, nbr)) := by
  induction neighbors generalizing f copies with
  | nil =>
    refine ⟨f, [], ?_, .refl f, .nil⟩
    rw [copyToNeighbors, List.append_nil]
  | cons nbr rest ih =>
    rw [copyToNeighbors]
    by_cases hskip : skip nbr.ipAddress
    · rw [if_pos hskip, List.filter_cons_of_neg (by simp [hskip])]
      exact ih copies hmin hsize hsrc
    · obtain ⟨mac, hmac⟩ := hmac
      obtain ⟨f₁, copy, hcopy, hsame, hfor⟩ := copyTo_addressed
        (env.searchCache copies.length nbr.ipAddress) mac nbr hmin hsize hsrc
      obtain ⟨f₂, copies₂, hrest, hsame₂, hfor₂⟩ := ih (copies ++ [copy])
        (by rw [hsame.length]; exact hmin) (by rw [hsame.length]; exact hsize) hsame.ipSrc
      refine ⟨f₂, copy :: copies₂, ?_, hsame.toReaddressed.trans hsame₂, ?_⟩
      · rw [if_neg hskip, hmac, ok_bind, hcopy, ok_bind]
        show copyToNeighbors env macOf size skip iface rest (f₁, copies ++ [copy]) = _
        rw [hrest, List.append_assoc]
        rfl
      · rw [List.filter_cons_of_pos (by simp [hskip]), List.map_cons]
        exact .cons hfor (hfor₂.imp fun _ _ h => h.of_readdressed hsame.toReaddressed)

/-- Every neighbor that is not skipped gets one copy, addressed to it. -/
theorem flood_addressed (interfaces : List PwospfIflist) (copies : List Handoff)
    (hmac : ∀ iface ∈ interfaces, ∃ mac, macOf iface = .ok mac) (hmin : ospfStart ≤ f.length)
    (hsize : size.toNat ≤ f.length) :
    ∃ f' copies',
      flood env macOf size skip interfaces (f, copies) = .ok (f', copies ++ copies') ∧
      List.Forall₂ (AddressedCopy f size.toNat) copies' (floodPairs skip interfaces) := by
  induction interfaces generalizing f copies with
  | nil =>
    refine ⟨f, [], ?_, .nil⟩
    rw [flood, List.append_nil]
  | cons iface rest ih =>
    have hin : ipSrc.offset + ipSrc.width ≤ f.length := Nat.le_trans (by decide) hmin
    obtain ⟨f₁, hset⟩ := Frame.set_exists hin iface.address.toNat
    have hsame₁ : Readdressed f f₁ :=
      .of_store hset (by rw [leBytes_length]; decide) (by rw [leBytes_length]; decide)
    obtain ⟨f₂, copies₂, hcopy, hsame₂, hfor₂⟩ :=
      copyToNeighbors_addressed env skip (hmac iface List.mem_cons_self) iface.neighbors.elems copies
        (by rw [hsame₁.length]; exact hmin) (by rw [hsame₁.length]; exact hsize)
        (Frame.get_set hset iface.address.toNat_lt)
    have hsame := hsame₁.trans hsame₂
    obtain ⟨f₃, copies₃, hrest, hfor₃⟩ := ih (copies ++ copies₂)
      (fun i hi => hmac i (List.mem_cons_of_mem _ hi))
      (by rw [hsame.length]; exact hmin) (by rw [hsame.length]; exact hsize)
    refine ⟨f₃, copies₂ ++ copies₃, ?_, ?_⟩
    · rw [flood, hset, ok_bind, hcopy, ok_bind, hrest, List.append_assoc]
    · rw [floodPairs, List.flatMap_cons]
      exact List.rel_append (hfor₂.imp fun _ _ h => h.of_readdressed hsame₁)
        (hfor₃.imp fun _ _ h => h.of_readdressed hsame)

theorem flood_spec (interfaces : List PwospfIflist) (copies : List Handoff)
    (hmac : ∀ iface ∈ interfaces, ∃ mac, macOf iface = .ok mac) (hmin : ospfStart ≤ f.length)
    (hsize : size.toNat ≤ f.length) :
    ∃ f' copies',
      flood env macOf size skip interfaces (f, copies) = .ok (f', copies ++ copies') ∧
      List.Forall₂ (CopyFor f size.toNat) copies' (targets skip interfaces) := by
  obtain ⟨f', copies', hflood, hcopies⟩ :=
    flood_addressed env skip interfaces copies hmac hmin hsize
  refine ⟨f', copies', hflood, ?_⟩
  rw [targets_eq_map]
  exact List.forall₂_map_right_iff.mpr (hcopies.imp fun _ _ h => h.copyFor)

/-- A loop that runs with some source MACs runs with more of them. -/
theorem copyToNeighbors_mono {macOf' : PwospfIflist → Exec Mac}
    (hle : ∀ i mac, macOf i = .ok mac → macOf' i = .ok mac) {iface : PwospfIflist}
    {neighbors : List NeighborList} {x y : Frame × List Handoff}
    (h : copyToNeighbors env macOf size skip iface neighbors x = .ok y) :
    copyToNeighbors env macOf' size skip iface neighbors x = .ok y := by
  induction neighbors generalizing x with
  | nil => exact h
  | cons nbr rest ih =>
    rw [copyToNeighbors] at h ⊢
    by_cases hskip : skip nbr.ipAddress
    · rw [if_pos hskip] at h ⊢
      exact ih h
    · rw [if_neg hskip] at h ⊢
      obtain ⟨mac, hmac, h⟩ := bind_eq_ok.mp h
      obtain ⟨z, hcopy, h⟩ := bind_eq_ok.mp h
      rw [hle _ _ hmac, ok_bind, hcopy, ok_bind]
      exact ih h

theorem flood_mono {macOf' : PwospfIflist → Exec Mac}
    (hle : ∀ i mac, macOf i = .ok mac → macOf' i = .ok mac) {interfaces : List PwospfIflist}
    {x y : Frame × List Handoff} (h : flood env macOf size skip interfaces x = .ok y) :
    flood env macOf' size skip interfaces x = .ok y := by
  induction interfaces generalizing x with
  | nil => exact h
  | cons iface rest ih =>
    rw [flood] at h ⊢
    obtain ⟨f₁, hset, h⟩ := bind_eq_ok.mp h
    obtain ⟨z, hcopies, h⟩ := bind_eq_ok.mp h
    rw [hset, ok_bind, copyToNeighbors_mono env skip hle hcopies, ok_bind]
    exact ih h

/-! A size behind the end of the packet matters as soon as there is a target. -/

theorem copyToNeighbors_overread {iface : PwospfIflist} (hmac : ∃ mac, macOf iface = .ok mac)
    (neighbors : List NeighborList) (copies : List Handoff) (hmin : ospfStart ≤ f.length)
    (hsize : f.length < size.toNat) :
    copyToNeighbors env macOf size skip iface neighbors (f, copies) =
      if (neighbors.filter fun nbr => !skip nbr.ipAddress) = [] then .ok (f, copies)
      else .error .outOfBounds := by
  induction neighbors with
  | nil => rfl
  | cons nbr rest ih =>
    rw [copyToNeighbors]
    by_cases hskip : skip nbr.ipAddress
    · rw [if_pos hskip, List.filter_cons_of_neg (by simp [hskip])]
      exact ih
    · obtain ⟨mac, hmac⟩ := hmac
      rw [if_neg hskip, List.filter_cons_of_pos (by simp [hskip]), if_neg (List.cons_ne_nil _ _), hmac,
        ok_bind, copyTo_overread hmin hsize]
      rfl

theorem flood_overread (interfaces : List PwospfIflist) (copies : List Handoff)
    (hmac : ∀ iface ∈ interfaces, ∃ mac, macOf iface = .ok mac) (hmin : ospfStart ≤ f.length)
    (hsize : f.length < size.toNat) :
    (targets skip interfaces = [] →
      ∃ f', flood env macOf size skip interfaces (f, copies) = .ok (f', copies)) ∧
    (targets skip interfaces ≠ [] →
      flood env macOf size skip interfaces (f, copies) = .error .outOfBounds) := by
  induction interfaces generalizing f with
  | nil => exact ⟨fun _ => ⟨f, rfl⟩, fun hne => absurd rfl hne⟩
  | cons iface rest ih =>
    have hin : ipSrc.offset + ipSrc.width ≤ f.length := Nat.le_trans (by decide) hmin
    obtain ⟨f₁, hset⟩ := Frame.set_exists hin iface.address.toNat
    have hlen := Frame.set_length hset
    have hcopy := copyToNeighbors_overread env skip (hmac iface List.mem_cons_self)
      iface.neighbors.elems copies (by rw [hlen]; exact hmin) (by rw [hlen]; exact hsize)
    have hrest := ih (f := f₁) (fun i hi => hmac i (List.mem_cons_of_mem _ hi))
      (by rw [hlen]; exact hmin) (by rw [hlen]; exact hsize)
    have htargets : targets skip (iface :: rest) =
        ((iface.neighbors.elems.filter fun nbr => !skip nbr.ipAddress).map fun nbr =>
          (iface.name, nbr.ipAddress)) ++ targets skip rest := List.flatMap_cons
    rw [htargets, flood, hset, ok_bind, hcopy]
    by_cases hnone : (iface.neighbors.elems.filter fun nbr => !skip nbr.ipAddress) = []
    · rw [if_pos hnone, hnone]
      exact hrest
    · rw [if_neg hnone]
      refine ⟨fun hnil => ?_, fun _ => rfl⟩
      exact absurd (List.map_eq_nil_iff.mp (List.append_eq_nil_iff.mp hnil).1) hnone

/-- The source MAC if there is one, else another. -/
def anyMac (mac : Exec Mac) : Exec Mac := .ok (mac.toOption.getD (.replicate 6 0))

/-- Whatever is handed over is the beginning of the packet, with other addresses. -/
theorem flood_copies {interfaces : List PwospfIflist} {f' : Frame} {copies : List Handoff}
    (hmin : ospfStart ≤ f.length)
    (h : flood env macOf size skip interfaces (f, []) = .ok (f', copies)) :
    ∀ c ∈ copies, ∃ full, Readdressed f full ∧ size.toNat ≤ f.length ∧
      c.frame = full.take size.toNat := by
  have hflood : flood env (fun i => anyMac (macOf i)) size skip interfaces (f, []) =
      .ok (f', copies) := by
    apply flood_mono env skip _ h
    intro i mac hmac
    rw [hmac]
    rfl
  have hmac : ∀ i ∈ interfaces, ∃ mac, anyMac (macOf i) = .ok mac := fun i _ => ⟨_, rfl⟩
  by_cases hsize : size.toNat ≤ f.length
  · obtain ⟨f₁, copies₁, hspec, hcopies⟩ := flood_spec env skip interfaces [] hmac hmin hsize
    rw [hflood, List.nil_append, Except.ok.injEq, Prod.mk.injEq] at hspec
    rw [hspec.2]
    have hcut : ∀ c t, CopyFor f size.toNat c t → ∃ full, Readdressed f full ∧
        size.toNat ≤ f.length ∧ c.frame = full.take size.toNat := by
      intro c t hc
      obtain ⟨full, hfull, -, hcut⟩ := hc.cut
      exact ⟨full, hfull, hsize, hcut⟩
    exact ((List.forall₂_and_left _ _).mp
      (hcopies.imp fun c t hc => And.intro (hcut c t hc) hc)).1
  · obtain ⟨hnone, hsome⟩ := flood_overread env skip interfaces [] hmac hmin (Nat.not_le.mp hsize)
    by_cases htargets : targets skip interfaces = []
    · obtain ⟨f₁, hspec⟩ := hnone htargets
      rw [hflood, Except.ok.injEq, Prod.mk.injEq] at hspec
      rw [hspec.2]
      exact List.forall_mem_nil _
    · rw [hsome htargets] at hflood
      cases hflood

end Format

end PWOSPF
