import PWOSPF.Subsystem.HelloFormat
import PWOSPF.Subsystem.LsuSurvival
import PWOSPF.Subsystem.Neighbors
import PWOSPF.Subsystem.PacketRuns
import PWOSPF.Subsystem.ReadBounds

/-!
# Copies of an LSU between two routers

The copies that `send_lsu` and `forward_lsu` hand over, with the addresses of the interface and of the
neighbor in their IP headers, and what becomes of such a copy in the router that receives it.
-/

namespace PWOSPF

open Framework Topo PacketField

variable {f f' : Frame} {area : UInt32} {l : Lsu} {ttl : Nat} {S R : PwospfSubsys} {env : Env}
  {pair : PwospfIflist × NeighborList}

/-! ## Handing over -/

/-- A run of `flood` that ends well made one copy of the packet for every neighbor that is not
skipped. -/
theorem flood_carries (h : Carries f area l ttl) {size : UInt16} (hsize : size.toNat = f.length)
    {macOf : PwospfIflist → Exec Mac} {skip : InAddr → Bool} {interfaces : List PwospfIflist}
    {x : Frame × List Handoff} (hrun : flood env macOf size skip interfaces (f, []) = .ok x) :
    List.Forall₂ (fun c => CarriesBetween area l ttl c.frame) x.2 (floodPairs skip interfaces) := by
  have hmin : ospfStart ≤ f.length := by
    rw [h.length]
    exact Nat.le_trans (by decide) (Nat.le_add_right 66 _)
  have hany : flood env (fun i => anyMac (macOf i)) size skip interfaces (f, []) = .ok x := by
    apply flood_mono env skip _ hrun
    intro i mac hmac
    rw [hmac]
    rfl
  obtain ⟨f₁, copies, hflood, hcopies⟩ : ∃ f₁ copies,
      flood env (fun i => anyMac (macOf i)) size skip interfaces (f, []) = .ok (f₁, [] ++ copies) ∧
        List.Forall₂ (AddressedCopy f size.toNat) copies (floodPairs skip interfaces) :=
    flood_addressed env skip interfaces [] (fun i _ => ⟨_, rfl⟩) hmin (Nat.le_of_eq hsize)
  rw [hany, List.nil_append, Except.ok.injEq] at hflood
  rw [hflood]
  rw [hsize] at hcopies
  exact hcopies.imp fun _ _ hc => (h.addressedCopy hc).toCarriesBetween

/-- The advertisements fit into an LSU. -/
def LsuFits (sr : SrInstance) (S : PwospfSubsys) : Prop :=
  66 + 12 * ((S.top.subs S.top.thisRouter).length + sr.routingTable.length) < 2 ^ 16

instance (sr : SrInstance) (S : PwospfSubsys) : Decidable (LsuFits sr S) :=
  inferInstanceAs (Decidable (_ < _))

/-- `send_lsu` gives this router's LSU to every neighbor. -/
theorem sendLsu_carries {sr : SrInstance} {x : PwospfSubsys × List Handoff} (hfits : LsuFits sr S)
    (hrun : sendLsu sr S env = .ok x) :
    ∃ this, S.top.find S.top.thisRouter = some this ∧
      List.Forall₂ (fun c => CarriesBetween S.areaId (ownLsu sr S this) initTtl c.frame) x.2
        (floodPairs (fun _ => false) S.interfaces) := by
  obtain ⟨this, hthis, h⟩ := bind_eq_ok.mp hrun
  have hfind := deref_eq_ok_iff.mp hthis
  obtain ⟨p₁, h₁, h⟩ := bind_eq_ok.mp h
  obtain ⟨p₂, h₂, h⟩ := bind_eq_ok.mp h
  obtain ⟨csum, hsum, h⟩ := bind_eq_ok.mp h
  obtain ⟨p₃, h₃, h⟩ := bind_eq_ok.mp h
  obtain ⟨y, hflood, h⟩ := bind_eq_ok.mp h
  cases h
  let n := (generateAdv this sr).length
  have hn : 66 + 12 * n < 2 ^ 16 := by
    rw [LsuFits, subs_of_find hfind] at hfits
    simpa [n, generateAdv] using hfits
  obtain ⟨p₁', h₁', hlen₁, hadvs, -⟩ :=
    storeAdvs_spec (f := (List.range (66 + 12 * n)).map env.bytes) (generateAdv this sr) 0
      (by simp [n])
  have hsame : p₁' = p₁ := Except.ok.inj (h₁'.symm.trans h₁)
  subst hsame
  rw [List.length_map, List.length_range] at hlen₁
  have hcarries := built_carries hlen₁ (by rw [hlen₁]; exact hn) hadvs h₂ hsum h₃
  have hsize : (UInt16.ofNat (66 + 12 * n)).toNat = p₃.length := by
    rw [Frame.assign_length h₃, Frame.assign_length h₂, hlen₁]
    exact UInt16.toNat_ofNat_of_lt' hn
  exact ⟨this, hfind, flood_carries hcarries hsize hflood⟩

/-- `forward_lsu` gives the LSU with a hop less to every neighbor but the one it came from, as long as
hops are left. -/
theorem forwardLsu_carries (h : Carries f area l ttl) (hclear : f.set ospfCsum 0 = .ok f')
    {src : Nat} (hsrc : f.get ipSrc = .ok src) {copies : List Handoff}
    (hrun : forwardLsu S env f' = .ok copies) :
    List.Forall₂ (fun c => CarriesBetween area l (ttl - 1) c.frame) copies
      (if 1 < ttl then floodPairs (fun a => a = .ofNat src) S.interfaces else []) := by
  obtain ⟨prevSrc, copies', hsrc', hforward, hcopies⟩ := forwardLsu_spec h hclear S env
  have hprev : prevSrc = src := Except.ok.inj (hsrc'.symm.trans hsrc)
  have hsame : copies' = copies := Except.ok.inj (hforward.symm.trans hrun)
  subst hprev hsame
  exact hcopies.imp fun _ _ hc => hc.toCarriesBetween

/-! ## Receiving -/

/-- A router drops its own LSUs and those with the sequence number it saw last; it merges the others
as they are and gives them to its neighbors. -/
inductive LsuTaken (R : PwospfSubsys) (env : Env) (area : UInt32) (l : Lsu) (ttl : Nat) (src : InAddr)
    (out : Outcome) : Prop
  | dropped (h : R.top.ridOf R.top.thisRouter = some l.rid ∨ getSequence R l.rid = l.seq)
      (hout : out = .dropped R)
  | merged (R' : PwospfSubsys) (hother : R.top.ridOf R.top.thisRouter ≠ some l.rid)
      (hnew : getSequence R l.rid ≠ l.seq)
      (hmerge : addToTop R env.clock l.rid (routesOf env 0 l.advs) = .ok R')
      (hsubsys : out.subsys = setSequence R' l.rid l.seq) (happlied : out.applied = some (l.rid, l.seq))
      (hcopies : List.Forall₂ (fun c => CarriesBetween area l (ttl - 1) c.frame) out.copies
        (if 1 < ttl then floodPairs (fun a => a = src) R.interfaces else []))

theorem handlePwospf_taken (h : Carries f area l ttl) (hR : InArea area R) {src : Nat}
    (hsrc : f.get ipSrc = .ok src) {name : IfName} {out : Outcome}
    (hrun : handlePwospf R env ⟨f, name⟩ = .ok out) : LsuTaken R env area l ttl (.ofNat src) out := by
  obtain ⟨f', hclear, heq⟩ := handlePwospf_carries h hR env name
  rw [heq] at hrun
  by_cases hdrop : R.top.ridOf R.top.thisRouter = some l.rid ∨ getSequence R l.rid = l.seq
  · rw [if_pos hdrop] at hrun
    cases hrun
    exact .dropped hdrop rfl
  · rw [if_neg hdrop] at hrun
    obtain ⟨hother, hnew⟩ := not_or.mp hdrop
    obtain ⟨R', hmerge, hrun⟩ := bind_eq_ok.mp hrun
    obtain ⟨copies, hforward, hrun⟩ := bind_eq_ok.mp hrun
    cases hrun
    have hcopies := forwardLsu_carries h hclear hsrc hforward
    rw [setSequence_interfaces, addToTop_interfaces hmerge] at hcopies
    exact .merged R' hother hnew hmerge rfl rfl hcopies

theorem readHello_rid {ps : PacketState} {msg : HelloMsg} (h : readHello R ps = .ok msg) {v : Nat}
    (hrid : ps.packet.get ospfRid = .ok v) : msg.rid = 0 ∨ msg.rid = .ofNat v := by
  rw [readHello] at h
  simp only at h
  split at h
  · cases h
    exact Or.inl rfl
  · split at h
    · cases h
      exact Or.inl rfl
    · obtain ⟨mask, -, h⟩ := bind_eq_ok.mp h
      split at h
      · cases h
        exact Or.inl rfl
      · obtain ⟨helloint, -, h⟩ := bind_eq_ok.mp h
        obtain ⟨rid, hget, h⟩ := bind_eq_ok.mp h
        obtain ⟨src, -, h⟩ := bind_eq_ok.mp h
        cases h
        rw [hrid, Except.ok.injEq] at hget
        exact Or.inr (congrArg UInt32.ofNat hget.symm)

/-- A HELLO is not flooded, and is not taken for an LSU. -/
inductive HelloTaken (R : PwospfSubsys) (env : Env) (rid : UInt32) (out : Outcome) : Prop
  | dropped (hout : out = .dropped R)
  | heard (msg : HelloMsg) (hmsg : msg.rid = 0 ∨ msg.rid = rid)
      (hrun : handleHello R env.clock msg = .ok out.subsys) (hout : out = ⟨out.subsys, [], none⟩)

theorem handlePwospf_helloTaken {rid : UInt32} (htype : f.get ospfType = .ok ospfTypeHello)
    (hrid : f.get ospfRid = .ok rid.toNat) {name : IfName} {out : Outcome}
    (hrun : handlePwospf R env ⟨f, name⟩ = .ok out) : HelloTaken R env rid out := by
  cases handlePwospf_cases hrun with
  | refused _ hout => exact .dropped hout
  | unknown _ _ _ _ _ _ hout => exact .dropped hout
  | hello g msg S' hcheck _ hmsg hhello hout =>
    have hg := Frame.get_set_apart (checkPwospf_accepts hcheck).1 (b := ospfRid) (by decide)
    have hread := readHello_rid hmsg (hg.trans hrid)
    rw [UInt32.ofNat_toNat] at hread
    rw [hout]
    exact .heard msg hread hhello rfl
  | lsu g hcheck htype' _ =>
    have hg := Frame.get_set_apart (checkPwospf_accepts hcheck).1 (b := ospfType) (by decide)
    rw [hg.trans htype] at htype'
    cases htype'

end PWOSPF
