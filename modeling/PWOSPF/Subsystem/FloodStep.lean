import PWOSPF.Subsystem.HopCounts
import PWOSPF.Subsystem.ReadBounds

/-!
# The flood step

What `forward_lsu` makes of an LSU that `handle_lsu` has merged: while hops are left, one copy for
each pair of an interface and a neighbor but the one it came from. A copy ends where the length field
of the OSPF header says, which nothing compares with the number of advertisements.
-/

namespace PWOSPF

open Framework Topo PacketField

/-- What `handle_lsu` does in front of `forward_lsu`: the subsystem with the LSU merged, its
originator and its sequence number, unless it is dropped. -/
def mergeLsu (S : PwospfSubsys) (env : Env) (f : Frame) :
    Exec (Option (PwospfSubsys × UInt32 × UInt16)) := do
  let rid := UInt32.ofNat (← f.get ospfRid)
  let this ← S.top.deref S.top.thisRouter
  if rid = this.rid then return none
  let seq := UInt16.ofNat (← f.get lsuSeq)
  if getSequence S rid = seq then return none
  let numAds := ntohl (.ofNat (← f.get lsuNumAdv))
  let ads ← readAdvs env f numAds.toNat 0
  let S ← addToTop S env.clock rid ads
  return some (setSequence S rid seq, rid, seq)

/-- `handle_pwospf` takes the packet for an LSU and merges it. -/
def LsuAccepted (S : PwospfSubsys) (env : Env) (p : Frame) : Prop :=
  ∃ f R lsu, checkPwospf S p = .ok (some f) ∧ f.get ospfType = .ok ospfTypeLsu ∧
    mergeLsu S env f = .ok (some (R, lsu))

/-- A copy of the packet `p` with `n` advertisements, one hop further, from the interface to its
neighbor. -/
structure FloodedCopy (p : Frame) (n : Nat) (c : Handoff) (pair : PwospfIflist × NeighborList) :
    Prop where
  iface : c.iface = pair.1.name
  ipDst : c.frame.get ipDst = .ok pair.2.ipAddress.toNat
  ipSrc : c.frame.get ipSrc = .ok pair.1.address.toNat
  ipSum : SumsUp c.frame ipStart sizeofIp
  ospfSum : SumsUp c.frame ospfStart (sizeofOspf - 8)
  ipTtl : ∃ t, p.get ipTtl = .ok (t + 1) ∧ c.frame.get ipTtl = .ok t
  lsuTtl : ∃ l, p.get lsuTtl = .ok (l + 1) ∧ c.frame.get lsuTtl = .ok l
  rid : c.frame.get ospfRid = p.get ospfRid
  seq : c.frame.get lsuSeq = p.get lsuSeq
  numAdv : c.frame.get lsuNumAdv = p.get lsuNumAdv
  advs : ∀ i < n, ∀ b ∈ [advSubnet i, advMask i, advRid i], c.frame.get b = p.get b

variable {S R : PwospfSubsys} {env : Env} {ps : PacketState} {f p : Frame} {n : Nat}

/-! ## Acceptance -/

theorem handleLsu_eq_merge (S : PwospfSubsys) (env : Env) (f : Frame) :
    handleLsu S env f = do
      match ← mergeLsu S env f with
      | none => return .dropped S
      | some (R, lsu) => return ⟨R, ← forwardLsu R env f, some lsu⟩ := by
  rw [handleLsu, mergeLsu, bind_assoc]
  refine bind_congr fun rid => ?_
  rw [bind_assoc]
  refine bind_congr fun this => ?_
  by_cases hown : UInt32.ofNat rid = this.rid
  · rw [if_pos hown, if_pos hown]
    rfl
  · rw [if_neg hown, if_neg hown, bind_assoc]
    refine bind_congr fun seq => ?_
    by_cases hold : getSequence S (.ofNat rid) = .ofNat seq
    · rw [if_pos hold, if_pos hold]
      rfl
    · rw [if_neg hold, if_neg hold]
      simp only [bind_assoc]
      rfl

/-- A merged LSU leaves the interfaces and has all its advertisements. -/
theorem mergeLsu_some {lsu : UInt32 × UInt16} (h : mergeLsu S env f = .ok (some (R, lsu))) :
    R.interfaces = S.interfaces ∧ ∃ v, f.get lsuNumAdv = .ok v ∧
      66 + 12 * (ntohl (.ofNat v)).toNat ≤ f.length := by
  obtain ⟨rid, -, h⟩ := bind_eq_ok.mp h
  obtain ⟨this, -, h⟩ := bind_eq_ok.mp h
  by_cases hown : UInt32.ofNat rid = this.rid
  · rw [if_pos hown] at h
    cases h
  · rw [if_neg hown] at h
    obtain ⟨seq, -, h⟩ := bind_eq_ok.mp h
    by_cases hold : getSequence S (.ofNat rid) = .ofNat seq
    · rw [if_pos hold] at h
      cases h
    · rw [if_neg hold] at h
      obtain ⟨v, hnum, h⟩ := bind_eq_ok.mp h
      obtain ⟨ads, hads, h⟩ := bind_eq_ok.mp h
      obtain ⟨S₁, hmerge, h⟩ := bind_eq_ok.mp h
      cases h
      refine ⟨(setSequence_interfaces _ _).trans (addToTop_interfaces hmerge), v, hnum, ?_⟩
      have h66 : 66 ≤ f.length := Frame.get_bounds hnum
      by_contra hshort
      rw [readAdvs_overread env (by omega) (by omega)] at hads
      cases hads

/-- An accepted packet reaches `forward_lsu` with its checksum cleared. -/
theorem LsuAccepted.handlePwospf (h : LsuAccepted S env ps.packet) :
    ∃ f R lsu, ps.packet.set ospfCsum 0 = .ok f ∧ R.interfaces = S.interfaces ∧
      (∃ v, f.get lsuNumAdv = .ok v ∧ 66 + 12 * (ntohl (.ofNat v)).toNat ≤ f.length) ∧
      handlePwospf S env ps = do return ⟨R, ← forwardLsu R env f, some lsu⟩ := by
  obtain ⟨f, R, lsu, hcheck, htype, hmerge⟩ := h
  obtain ⟨hifaces, hfits⟩ := mergeLsu_some hmerge
  refine ⟨f, R, lsu, (checkPwospf_accepts hcheck).1, hifaces, hfits, ?_⟩
  rw [PWOSPF.handlePwospf, hcheck, ok_bind]
  simp only [htype, ok_bind, handleLsu_eq_merge, hmerge]
  rfl

theorem LsuAccepted.of_applied {out : Outcome} (h : PWOSPF.handlePwospf S env ps = .ok out)
    (happlied : out.applied.isSome) : LsuAccepted S env ps.packet := by
  cases handlePwospf_cases h with
  | refused _ hout => rw [hout] at happlied; cases happlied
  | hello _ _ _ _ _ _ _ hout => rw [hout] at happlied; cases happlied
  | unknown _ _ _ _ _ _ hout => rw [hout] at happlied; cases happlied
  | lsu f hcheck htype hrun =>
    rw [handleLsu_eq_merge] at hrun
    obtain ⟨merged, hmerge, hrun⟩ := bind_eq_ok.mp hrun
    cases merged with
    | none => cases hrun; cases happlied
    | some merged => exact ⟨f, merged.1, merged.2, hcheck, htype, hmerge⟩

/-! ## Copies -/

theorem SumsUp.take {o m k : Nat} (h : SumsUp f o m) (hk : o + m ≤ k) : SumsUp (f.take k) o m := by
  rw [SumsUp, slice_take f hk]
  exact h

/-- What a right copy says to be in it is in it. -/
theorem FloodedCopy.length_le {c : Handoff} {pair : PwospfIflist × NeighborList}
    (h : FloodedCopy p n c pair) (hfits : 66 + 12 * n ≤ p.length) : 66 + 12 * n ≤ c.frame.length := by
  cases n with
  | zero =>
    obtain ⟨v, hv⟩ := Frame.get_exists (f := p) (b := lsuNumAdv) hfits
    exact Frame.get_bounds (h.numAdv.trans hv)
  | succ n =>
    obtain ⟨v, hv⟩ := Frame.get_exists (f := p) (b := advRid n) (by simp only [advRid]; omega)
    have hlast := Frame.get_bounds ((h.advs n (Nat.lt_succ_self n) (advRid n) (by simp)).trans hv)
    simp only [advRid] at hlast
    omega

/-- Behind the IP header, the copy is the packet but for the checksum and the hops. -/
theorem AddressedCopy.get_body {t l : UInt8} {size : Nat} {csum : UInt16} {f₁ f₂ f₃ : Frame}
    (hclear : p.set ospfCsum 0 = .ok f) (hop : Hop f t l csum f₁ f₂ f₃) (hsize : size ≤ f₃.length)
    {c : Handoff} {pair : PwospfIflist × NeighborList} (hc : AddressedCopy f₃ size c pair)
    {b : PacketField} (hb : ospfStart ≤ b.offset) (hend : b.offset + b.width ≤ size)
    (hcsum : ospfCsum.Apart b) (httl : PacketField.lsuTtl.Apart b) : c.frame.get b = p.get b := by
  rw [hc.copyFor.get_body hsize hb hend,
    hop.get_csum hcsum (Or.inl (Nat.le_trans (by decide) hb)) httl, Frame.get_set_apart hclear hcsum]

/-- A copy is right if it is long enough for the advertisements. -/
theorem floodedCopy_iff {t l size : Nat} {csum : UInt16} {f₁ f₂ f₃ : Frame}
    (hclear : p.set ospfCsum 0 = .ok f) (hip : p.get ipTtl = .ok t) (hlsu : p.get lsuTtl = .ok l)
    (hop : Hop f (.ofNat t - 1) (.ofNat l - 1) csum f₁ f₂ f₃) (ht : 1 < t) (hl : 1 < l)
    (hfits : 66 + 12 * n ≤ p.length) (hsize : size ≤ p.length) {c : Handoff}
    {pair : PwospfIflist × NeighborList} (hc : AddressedCopy f₃ size c pair) :
    FloodedCopy p n c pair ↔ 66 + 12 * n ≤ size := by
  have hlen : f₃.length = p.length := hop.length.trans (Frame.set_length hclear)
  have hlen₃ : size ≤ f₃.length := by rw [hlen]; exact hsize
  constructor
  · intro h
    rw [← hc.copyFor.length hlen₃]
    exact h.length_le hfits
  · intro hin
    obtain ⟨full, hfull, hcut⟩ := hc.cut
    have hlenFull : size ≤ full.length := by rw [hfull.length]; exact hlen₃
    have h66 : 66 ≤ size := Nat.le_of_add_right_le hin
    have hhead : ∀ b : PacketField, b.offset + b.width ≤ 66 → c.frame.get b = full.get b := by
      intro b hb
      rw [hcut]
      exact Frame.get_take (Nat.le_trans hb h66) hlenFull
    have hbody : ∀ {b : PacketField}, ospfStart ≤ b.offset → b.offset + b.width ≤ 66 →
        ospfCsum.Apart b → PacketField.lsuTtl.Apart b → c.frame.get b = p.get b := fun hb hend =>
      hc.get_body hclear hop hlen₃ hb (Nat.le_trans hend h66)
    have hospf : SumsUp full ospfStart (sizeofOspf - 8) := by
      rw [SumsUp, hfull.slice_body (Nat.le_refl _)]
      exact sumsUp_of_ospfSum hop.ospfSum (Frame.get_set hop.csum (UInt16.toNat_lt _))
    have ht' := uint8_pred (Frame.get_lt hip)
    have hl' := uint8_pred (Frame.get_lt hlsu)
    rw [if_neg (by omega)] at ht' hl'
    exact
      { iface := hc.iface
        ipDst := (hhead _ (by decide)).trans hfull.ipDst
        ipSrc := (hhead _ (by decide)).trans hfull.ipSrc
        ipSum := by
          rw [hcut]
          exact hfull.ipSum.take (Nat.le_trans (by decide) h66)
        ospfSum := by
          rw [hcut]
          exact hospf.take (Nat.le_trans (by decide) h66)
        ipTtl := by
          refine ⟨t - 1, by rw [hip, Nat.sub_add_cancel (by omega)], ?_⟩
          rw [hhead _ (by decide), hfull.ipTtl, hop.ipHops, ht']
        lsuTtl := by
          refine ⟨l - 1, by rw [hlsu, Nat.sub_add_cancel (by omega)], ?_⟩
          rw [hc.copyFor.get_body hlen₃ (by decide) (Nat.le_trans (by decide) h66), hop.lsuHops, hl']
        rid := hbody (by decide) (by decide) (by decide) (by decide)
        seq := hbody (by decide) (by decide) (by decide) (by decide)
        numAdv := hbody (by decide) (by decide) (by decide) (by decide)
        advs := by
          intro i hi b hb
          simp only [List.mem_cons, List.not_mem_nil, or_false] at hb
          have hat : 66 ≤ b.offset ∧ b.offset + b.width ≤ 66 + 12 * n := by
            rcases hb with rfl | rfl | rfl
            · simp only [advSubnet]; omega
            · simp only [advMask]; omega
            · simp only [advRid]; omega
          exact hc.get_body hclear hop hlen₃ (Nat.le_trans (by decide) hat.1) (Nat.le_trans hat.2 hin)
            (Or.inl (Nat.le_trans (by decide) hat.1)) (Or.inl (Nat.le_trans (by decide) hat.1)) }

/-! ## The flood step -/

/-- An accepted LSU is flooded as it should be exactly if there is nothing to flood, because hops or
neighbors are missing, or the length field of its OSPF header covers all its advertisements and
nothing behind the packet. -/
theorem acceptedLsu_flooded_iff (h : LsuAccepted S env ps.packet) {t l len src num : Nat}
    (hip : ps.packet.get ipTtl = .ok t) (hlsu : ps.packet.get lsuTtl = .ok l)
    (hlen : ps.packet.get ospfLen = .ok len) (hsrc : ps.packet.get ipSrc = .ok src)
    (hnum : ps.packet.get lsuNumAdv = .ok num) (ht : 1 ≤ t) (hl : 1 ≤ l) :
    (∃ out, handlePwospf S env ps = .ok out ∧
      List.Forall₂ (FloodedCopy ps.packet (ntohl (.ofNat num)).toNat) out.copies
        (if 2 ≤ t ∧ 2 ≤ l then floodPairs (fun a => a = .ofNat src) S.interfaces else [])) ↔
    t = 1 ∨ l = 1 ∨ floodPairs (fun a => a = .ofNat src) S.interfaces = [] ∨
      (66 + 12 * (ntohl (.ofNat num)).toNat ≤ (relaySize len).toNat ∧
        (relaySize len).toNat ≤ ps.packet.length) := by
  obtain ⟨f, R, lsu, hclear, hifaces, ⟨v, hv, hfits⟩, hrun⟩ := h.handlePwospf
  have hkept : ∀ b : PacketField, ospfCsum.Apart b → f.get b = ps.packet.get b :=
    fun _ hb => Frame.get_set_apart hclear hb
  rw [hkept _ (by decide), hnum, Except.ok.injEq] at hv
  subst hv
  rw [Frame.set_length hclear] at hfits
  have hmin : 62 ≤ f.length := by
    rw [Frame.set_length hclear]
    exact Nat.le_trans (by decide) (Nat.le_of_add_right_le hfits)
  obtain ⟨csum, f₁, f₂, f₃, hop⟩ := Hop.exists hmin (.ofNat t - 1) (.ofNat l - 1)
  have hlen₃ : f₃.length = ps.packet.length := hop.length.trans (Frame.set_length hclear)
  have hmin₃ : ospfStart ≤ f₃.length := by
    rw [hop.length]
    exact Nat.le_trans (by decide) hmin
  rw [forwardLsu_eq ((hkept _ (by decide)).trans hip) ((hkept _ (by decide)).trans hlsu)
    ((hkept _ (by decide)).trans hlen) ((hkept _ (by decide)).trans hsrc) hop, hifaces] at hrun
  by_cases hlive : l ≠ 1 ∧ t ≠ 1
  · rw [if_pos hlive] at hrun
    rw [if_pos (by omega), or_iff_right hlive.2, or_iff_right hlive.1]
    by_cases hsize : (relaySize len).toNat ≤ ps.packet.length
    · obtain ⟨f₄, copies, hflood, hcopies⟩ := flood_addressed env (fun a => a = UInt32.ofNat src)
        S.interfaces [] (fun i _ => ⟨i.mac, rfl⟩) hmin₃ (by rw [hlen₃]; exact hsize)
      rw [hflood] at hrun
      rw [hrun, and_iff_left hsize, ← forall₂_iff_of_const hcopies fun c pair hc =>
        floodedCopy_iff hclear hip hlsu hop (by omega) (by omega) hfits hsize hc]
      exact ⟨fun ⟨out, hout, hall⟩ => by cases hout; exact hall, fun hall => ⟨_, rfl, hall⟩⟩
    · obtain ⟨hnone, hsome⟩ := flood_overread env (fun a => a = UInt32.ofNat src)
        S.interfaces [] (fun i _ => ⟨i.mac, rfl⟩) hmin₃ (by rw [hlen₃]; exact Nat.lt_of_not_le hsize)
      rw [targets_eq_map, ne_eq, List.map_eq_nil_iff] at hsome
      rw [targets_eq_map, List.map_eq_nil_iff] at hnone
      simp only [hsize, and_false, or_false]
      by_cases hpairs : floodPairs (fun a => a = .ofNat src) S.interfaces = []
      · obtain ⟨f₄, hflood⟩ := hnone hpairs
        rw [hflood] at hrun
        simp only [hpairs, iff_true]
        exact ⟨_, hrun, .nil⟩
      · rw [hsome hpairs] at hrun
        simp only [hpairs, iff_false]
        intro hout
        obtain ⟨out, hout, -⟩ := hout
        rw [hrun] at hout
        cases hout
  · rw [if_neg hlive] at hrun
    rw [if_neg (by omega)]
    have hspent : t = 1 ∨ l = 1 := by omega
    constructor
    · intro _
      exact or_assoc.mp (Or.inl hspent)
    · intro _
      exact ⟨_, hrun, .nil⟩

section Demo

/-- `demoRelay` with a third neighbor at 10.0.0.4. -/
def demoCrossing : PwospfSubsys :=
  { demoRelay with
    interfaces := demoRelay.interfaces.map fun i =>
      { i with neighbors := i.neighbors.store ⟨10, 0x0400000a, 100⟩ } }

/-- An LSU of router 8 at 10.0.0.2 that advertises 10.0.1.0. -/
def demoAdvLsu : Frame :=
  [0, 0, 0, 0, 0, 2, 0, 0, 0, 0, 0, 3, 8, 0,
    0x45, 0, 0, 64, 0, 0, 0, 0, 64, 89, 0, 0, 10, 0, 0, 2, 10, 0, 0, 0,
    2, 4, 0, 44, 8, 0, 0, 0, 0, 0, 0, 0, 0xf5, 0xcf, 0, 0, 0, 0, 0, 0, 0, 0, 0, 0,
    1, 0, 0, 32, 0, 0, 0, 1, 10, 0, 1, 0, 255, 255, 255, 0, 0, 0, 0, 0]

/-- It is flooded to both other neighbors, with its advertisement. -/
theorem acceptedLsu_flooded_iff_demo :
    ∃ out, handlePwospf demoCrossing demoEnv ⟨demoAdvLsu, eth0Interface⟩ = .ok out ∧
      (floodPairs (fun a => a = 0x0200000a) demoCrossing.interfaces).length = 2 ∧
      List.Forall₂ (FloodedCopy demoAdvLsu 1) out.copies
        (floodPairs (fun a => a = 0x0200000a) demoCrossing.interfaces) := by
  have hruns : (handlePwospf demoCrossing demoEnv ⟨demoAdvLsu, eth0Interface⟩).map
      (fun out => out.applied.isSome) = .ok true := by
    decide +kernel
  obtain ⟨out, hrun, happlied⟩ := map_eq_ok.mp hruns
  obtain ⟨out', hrun', hall⟩ :=
    (@acceptedLsu_flooded_iff demoCrossing demoEnv ⟨demoAdvLsu, eth0Interface⟩ (.of_applied hrun happlied)
      64 32 0x2c00 0x0200000a 0x01000000 rfl rfl rfl rfl rfl (by decide) (by decide)).mpr
      (.inr (.inr (.inr (by decide))))
  exact ⟨out', hrun', by decide, hall⟩

/-- `demoLsu 64 32` with 28 for 32 as the length in its OSPF header. -/
def demoCutLsu : Frame :=
  [0, 0, 0, 0, 0, 2, 0, 0, 0, 0, 0, 3, 8, 0,
    0x45, 0, 0, 52, 0, 0, 0, 0, 64, 89, 0, 0, 10, 0, 0, 2, 10, 0, 0, 0,
    2, 4, 0, 28, 8, 0, 0, 0, 0, 0, 0, 0, 0xf5, 0xdf, 0, 0, 0, 0, 0, 0, 0, 0, 0, 0,
    1, 0, 0, 32, 0, 0, 0, 0]

/-- The LSU is merged, but its copy ends in front of the number of advertisements. -/
theorem acceptedLsu_cut_off :
    LsuAccepted demoRelay demoEnv demoCutLsu ∧ demoCutLsu.get ipTtl = .ok 64 ∧
      demoCutLsu.get lsuTtl = .ok 32 ∧
      ¬ ∃ out, handlePwospf demoRelay demoEnv ⟨demoCutLsu, eth0Interface⟩ = .ok out ∧
        List.Forall₂ (FloodedCopy demoCutLsu 0) out.copies
          (floodPairs (fun a => a = 0x0200000a) demoRelay.interfaces) := by
  have hruns : (handlePwospf demoRelay demoEnv ⟨demoCutLsu, eth0Interface⟩).map (fun out =>
      (out.applied.isSome, out.copies.map fun c => c.frame.length)) = .ok (true, [62]) := by
    decide +kernel
  obtain ⟨out, hrun, hout⟩ := map_eq_ok.mp hruns
  obtain ⟨happlied, hlengths⟩ := Prod.mk.inj hout
  refine ⟨.of_applied hrun happlied, by decide, by decide, ?_⟩
  intro h
  obtain ⟨out', hrun', hall⟩ := h
  rw [hrun, Except.ok.injEq] at hrun'
  subst hrun'
  obtain ⟨c, hc⟩ : ∃ c, out.copies = [c] := List.length_eq_one_iff.mp (by
    rw [← List.length_map (fun c : Handoff => c.frame.length), hlengths]
    rfl)
  rw [hc, List.map_singleton, List.singleton_inj] at hlengths
  rw [hc] at hall
  cases hall with
  | cons hcopy _ =>
    have hbound := Frame.get_bounds (hcopy.numAdv.trans (show demoCutLsu.get lsuNumAdv = .ok 0 by decide))
    rw [hlengths] at hbound
    exact absurd hbound (by decide)

end Demo

end PWOSPF
