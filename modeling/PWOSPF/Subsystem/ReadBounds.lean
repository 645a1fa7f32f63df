import PWOSPF.Subsystem.HopCounts
import PWOSPF.Subsystem.Neighbors
import PWOSPF.Subsystem.PacketRuns

/-!
# Reads within the packet

A load behind the end of the received packet is a fault of the model, so a packet is read within its
bounds exactly if `handle_pwospf` does not end in that fault. The code compares the received length
with nothing that an LSU announces: what protects it is a check that fails before.
-/

namespace PWOSPF

open Framework Topo PacketField

/-- How long a packet with these headers is: the OSPF length field, and the header that belongs to the
type with the advertisements it counts. -/
def announcedLen (f : Frame) : Exec Nat := do
  let type ← f.get ospfType
  let len := ospfStart + (ntohs (.ofNat (← f.get ospfLen))).toNat
  if type = ospfTypeHello then return max len (ospfStart + sizeofOspf + sizeofHello)
  else if type = ospfTypeLsu then
    let numAdv := ntohl (.ofNat (← f.get lsuNumAdv))
    return max len (ospfStart + sizeofOspf + sizeofLsu + sizeofAdv * numAdv.toNat)
  else return max len (ospfStart + sizeofOspf)

/-- The packet is as long as its headers announce. -/
def Whole (f : Frame) : Prop := ∃ n, announcedLen f = .ok n ∧ n ≤ f.length

/-- The packet has no effect but that records which ran out may be gone: no LSU is merged, nothing is
handed over, and no neighbor is new or refreshed. -/
structure Drops (S : PwospfSubsys) (out : Outcome) : Prop where
  applied : out.applied = none
  copies : out.copies = []
  neighbors : ∀ i' ∈ out.subsys.interfaces, ∀ nbr ∈ i'.neighbors.elems,
    ∃ i ∈ S.interfaces, nbr ∈ i.neighbors.elems

/-- The packet is read within its bounds, and dropped if it is shorter than announced. -/
structure ReadsWithin (S : PwospfSubsys) (env : Env) (ps : PacketState) : Prop where
  inBounds : handlePwospf S env ps ≠ .error .outOfBounds
  drops : ¬ Whole ps.packet → ∃ out, handlePwospf S env ps = .ok out ∧ Drops S out

/-- The interface whose settings a HELLO has to match. -/
def receivingIface (S : PwospfSubsys) (ps : PacketState) : Option PwospfIflist :=
  S.interfaces.find? fun iface => iface.name = ps.interface

/-- One of the checks turns the packet down on a field that lies inside it. -/
inductive Refused (S : PwospfSubsys) (ps : PacketState) : Prop
  | version {v : Nat} (h : ps.packet.get ospfVersion = .ok v) (hne : v ≠ ospfV2)
  | csum {sum : UInt16} {c : Nat} (hlen : ospfStart + sizeofOspf - 8 ≤ ps.packet.length)
      (hsum : ospfSum ps.packet = .ok sum) (h : ps.packet.get ospfCsum = .ok c)
      (hne : htons sum ≠ .ofNat c)
  | area {a : Nat} (hlen : ospfStart + sizeofOspf - 8 ≤ ps.packet.length)
      (h : ps.packet.get ospfAid = .ok a) (hne : UInt32.ofNat a ≠ ntohl S.areaId)
  | autype {a : Nat} (h : ps.packet.get ospfAutype = .ok a) (hne : UInt16.ofNat a ≠ S.autype)
  | type {t : Nat} (hlen : ospfStart + sizeofOspf - 8 ≤ ps.packet.length)
      (h : ps.packet.get ospfType = .ok t) (hhello : t ≠ ospfTypeHello) (hlsu : t ≠ ospfTypeLsu)
  | ownLsu {r : Nat} (hlen : ospfStart + sizeofOspf - 8 ≤ ps.packet.length)
      (htype : ps.packet.get ospfType = .ok ospfTypeLsu) (h : ps.packet.get ospfRid = .ok r)
      (hown : S.top.ridOf S.top.thisRouter = some (.ofNat r))
  | repeatedLsu {r s : Nat} (htype : ps.packet.get ospfType = .ok ospfTypeLsu)
      (hr : ps.packet.get ospfRid = .ok r) (h : ps.packet.get lsuSeq = .ok s)
      (hseq : getSequence S (.ofNat r) = .ofNat s)
  | helloIface (hlen : ospfStart + sizeofOspf - 8 ≤ ps.packet.length)
      (htype : ps.packet.get ospfType = .ok ospfTypeHello) (h : receivingIface S ps = none)
  | helloNmask {iface : PwospfIflist} {m : Nat} (htype : ps.packet.get ospfType = .ok ospfTypeHello)
      (hiface : receivingIface S ps = some iface) (h : ps.packet.get helloNmask = .ok m)
      (hne : iface.mask ≠ ntohl (.ofNat m))
  | helloInterval {iface : PwospfIflist} {n : Nat}
      (htype : ps.packet.get ospfType = .ok ospfTypeHello)
      (hiface : receivingIface S ps = some iface) (h : ps.packet.get helloHelloint = .ok n)
      (hne : iface.helloint ≠ ntohs (.ofNat n))

variable {S S' : PwospfSubsys} {env : Env} {ps : PacketState} {f : Frame} {clock : Nat → Time}
  {msg : HelloMsg}

/-! ## The header -/

/-- The checks, on a packet that has the fields they read. -/
theorem checkPwospf_eq (hlen : ospfStart + sizeofOspf - 8 ≤ f.length) :
    ∃ version csum sum aid autype type rid f', f.get ospfVersion = .ok version ∧
      f.get ospfCsum = .ok csum ∧ ospfSum f = .ok sum ∧ f.get ospfAid = .ok aid ∧
      f.get ospfAutype = .ok autype ∧ f.get ospfType = .ok type ∧ f.get ospfRid = .ok rid ∧
      f.set ospfCsum 0 = .ok f' ∧
      checkPwospf S f = .ok
        (if version = ospfV2 ∧ htons sum = .ofNat csum ∧ UInt32.ofNat aid = ntohl S.areaId ∧
          UInt16.ofNat autype = S.autype then some f' else none) := by
  have h50 : 50 ≤ f.length := hlen
  obtain ⟨version, hversion⟩ := Frame.get_exists (f := f) (b := ospfVersion)
    (Nat.le_trans (by decide) h50)
  obtain ⟨csum, hcsum⟩ := Frame.get_exists (f := f) (b := ospfCsum) (Nat.le_trans (by decide) h50)
  obtain ⟨aid, haid⟩ := Frame.get_exists (f := f) (b := ospfAid) (Nat.le_trans (by decide) h50)
  obtain ⟨autype, hautype⟩ := Frame.get_exists (f := f) (b := ospfAutype)
    (Nat.le_trans (by decide) h50)
  obtain ⟨type, htype⟩ := Frame.get_exists (f := f) (b := ospfType) (Nat.le_trans (by decide) h50)
  obtain ⟨rid, hrid⟩ := Frame.get_exists (f := f) (b := ospfRid) (Nat.le_trans (by decide) h50)
  obtain ⟨f', hclear⟩ := Frame.set_exists (f := f) (a := ospfCsum)
    (Nat.le_trans (by decide) h50) 0
  obtain ⟨sum, hsum⟩ := ospfCksum_exists (f := f') (by rw [Frame.set_length hclear]; exact h50)
  have haid' : f'.get ospfAid = .ok aid := (Frame.get_set_apart hclear (by decide)).trans haid
  have hautype' : f'.get ospfAutype = .ok autype :=
    (Frame.get_set_apart hclear (by decide)).trans hautype
  refine ⟨version, csum, sum, aid, autype, type, rid, f', hversion, hcsum, ?_, haid, hautype, htype,
    hrid, hclear, ?_⟩
  · rw [ospfSum, hclear, ok_bind]
    exact hsum
  · simp only [checkPwospf, hversion, hcsum, hclear, hsum, haid', hautype', ok_bind, pure_eq_ok]
    by_cases h₁ : version = ospfV2
    · by_cases h₂ : htons sum = UInt16.ofNat csum
      · by_cases h₃ : UInt32.ofNat aid = ntohl S.areaId
        · by_cases h₄ : UInt16.ofNat autype = S.autype
          · simp [h₁, h₂, h₃, h₄]
          · simp [h₁, h₂, h₃, h₄]
        · simp [h₁, h₂, h₃]
      · simp [h₁, h₂]
    · simp [h₁]

/-- A packet too short for the checks goes behind its end, unless the version is wrong. -/
theorem checkPwospf_short (hlen : f.length < ospfStart + sizeofOspf - 8) :
    (∃ v, f.get ospfVersion = .ok v ∧ v ≠ ospfV2 ∧ checkPwospf S f = .ok none) ∨
      (∀ v, f.get ospfVersion = .ok v → v = ospfV2) ∧ checkPwospf S f = .error .outOfBounds := by
  have h50 : f.length < 50 := hlen
  by_cases hversion : ospfVersion.offset + ospfVersion.width ≤ f.length
  · obtain ⟨v, hv⟩ := Frame.get_exists hversion
    by_cases hne : v = ospfV2
    · right
      constructor
      · intro v' hv'
        rw [hv, Except.ok.injEq] at hv'
        rw [← hv', hne]
      · rw [checkPwospf, hv, ok_bind, if_neg (not_not.mpr hne)]
        by_cases hcsum : ospfCsum.offset + ospfCsum.width ≤ f.length
        · obtain ⟨c, hc⟩ := Frame.get_exists hcsum
          obtain ⟨f', hclear⟩ := Frame.set_exists hcsum 0
          have hsum : cksum (f'.drop ospfStart) (2 * 8) = .error .outOfBounds := by
            apply cksum_overread (n := 8)
            · rw [List.length_drop, Frame.set_length hclear, ospfStart, sizeofEther, sizeofIp]
              omega
            · decide
            · rfl
          rw [hc, ok_bind, hclear, ok_bind, show sizeofOspf - 8 = 2 * 8 from rfl, hsum]
          rfl
        · rw [Frame.get_overread (Nat.not_le.mp hcsum)]
          rfl
    · left
      refine ⟨v, hv, hne, ?_⟩
      rw [checkPwospf, hv, ok_bind, if_pos hne]
      rfl
  · right
    have herr := Frame.get_overread (Nat.not_le.mp hversion)
    constructor
    · intro v hv
      rw [herr] at hv
      cases hv
    · rw [checkPwospf, herr]
      rfl

/-- A packet that passes the checks goes on with its checksum cleared, and its header sums up. -/
theorem checkPwospf_accepts {f' : Frame} (h : checkPwospf S f = .ok (some f')) :
    f.set ospfCsum 0 = .ok f' ∧ SumsUp f ospfStart (sizeofOspf - 8) := by
  have hlen : ospfStart + sizeofOspf - 8 ≤ f.length := by
    by_contra hshort
    cases checkPwospf_short (S := S) (Nat.not_le.mp hshort) with
    | inl hversion =>
      obtain ⟨v, -, -, hnone⟩ := hversion
      rw [hnone] at h
      cases h
    | inr hout =>
      rw [hout.2] at h
      cases h
  obtain ⟨version, csum, sum, aid, autype, type, rid, f₁, -, hcsum, hsum, -, -, -, -, hclear,
    hcheck⟩ := checkPwospf_eq (S := S) hlen
  rw [h, Except.ok.injEq] at hcheck
  by_cases hpass : version = ospfV2 ∧ htons sum = .ofNat csum ∧ UInt32.ofNat aid = ntohl S.areaId ∧
      UInt16.ofNat autype = S.autype
  · rw [if_pos hpass] at hcheck
    cases hcheck
    refine ⟨hclear, sumsUp_of_ospfSum hsum ?_⟩
    rw [hcsum, hpass.2.1, UInt16.toNat_ofNat_of_lt' (Frame.get_lt hcsum)]
  · rw [if_neg hpass] at hcheck
    cases hcheck

/-! ## HELLOs -/

section Walk

variable {found : Bool} {interfaces interfaces' : List PwospfIflist}

/-- A HELLO that the receiving interface does not accept makes no records. -/
theorem HelloWalk.old (h : HelloWalk clock msg found interfaces interfaces')
    (hrefused : ∀ i, (interfaces.find? fun i => i.name = msg.interface) = some i →
      helloMismatch i msg = true) :
    ∀ i' ∈ interfaces', ∀ nbr ∈ i'.neighbors.elems, ∃ i ∈ interfaces, nbr ∈ i.neighbors.elems := by
  induction h with
  | done => exact fun _ hi' => absurd hi' List.not_mem_nil
  | other hname hswept _ ih =>
    rw [List.find?_cons_of_neg (by simp [hname])] at hrefused
    intro i' hi' nbr hnbr
    cases hi' with
    | head => exact ⟨_, List.mem_cons_self, (hswept.left nbr hnbr).1⟩
    | tail _ hi' =>
      obtain ⟨i, hi, hmem⟩ := ih hrefused i' hi' nbr hnbr
      exact ⟨i, List.mem_cons_of_mem _ hi, hmem⟩
  | refused hname hmis hswept =>
    intro i' hi' nbr hnbr
    cases hi' with
    | head => exact ⟨_, List.mem_cons_self, (hswept.left nbr hnbr).1⟩
    | tail _ hi' => exact ⟨i', List.mem_cons_of_mem _ hi', hnbr⟩
  | accepted hname hmis _ _ _ =>
    rw [List.find?_cons_of_pos (by simp [hname])] at hrefused
    have hmis' := hrefused _ rfl
    rw [hmis] at hmis'
    cases hmis'

/-- One that it accepts leaves a record that will run out a timeout from now. -/
theorem HelloWalk.new (h : HelloWalk clock msg found interfaces interfaces') (hfound : found = false)
    {i : PwospfIflist} (hi : (interfaces.find? fun i => i.name = msg.interface) = some i)
    (hmis : helloMismatch i msg = false) :
    ∃ i' ∈ interfaces', ∃ nbr ∈ i'.neighbors.elems, ∃ j,
      nbr.timenotvalid = clock j + ospfNeighborTimeout := by
  induction h with
  | done => cases hi
  | other hname _ _ ih =>
    rw [List.find?_cons_of_neg (by simp [hname])] at hi
    obtain ⟨i', hi', hnew⟩ := ih hfound hi
    exact ⟨i', List.mem_cons_of_mem _ hi', hnew⟩
  | refused hname hmis' _ =>
    rw [List.find?_cons_of_pos (by simp [hname])] at hi
    cases hi
    rw [hmis] at hmis'
    cases hmis'
  | accepted hname _ hrec _ _ =>
    obtain ⟨nbr, hnbr, hsrc⟩ := hrec.heard hfound
    exact ⟨_, List.mem_cons_self, nbr, hnbr, hrec.fresh nbr hnbr hsrc⟩

end Walk

/-! ## Received packets -/

theorem Drops.dropped (S : PwospfSubsys) : Drops S (.dropped S) :=
  ⟨rfl, rfl, fun i' hi' _ hnbr => ⟨i', hi', hnbr⟩⟩

section Passed

variable {f' : Frame} {type : Nat} (hlen : ospfStart + sizeofOspf - 8 ≤ ps.packet.length)
  (hcheck : checkPwospf S ps.packet = .ok (some f')) (hclear : ps.packet.set ospfCsum 0 = .ok f')

include hcheck hclear in
theorem handlePwospf_passed (htype : ps.packet.get ospfType = .ok type) :
    handlePwospf S env ps =
      if type = ospfTypeHello then do
        let S ← handleHello S env.clock (← readHello S { ps with packet := f' })
        return ⟨S, [], none⟩
      else if type = ospfTypeLsu then handleLsu S env f'
      else return .dropped S := by
  have htype' : f'.get ospfType = .ok type := (Frame.get_set_apart hclear (by decide)).trans htype
  simp only [handlePwospf, hcheck, htype', ok_bind]

include hlen hclear in
theorem helloLen_le : helloLen ≤ f'.length - sizeofEther := by
  have h50 : 50 ≤ f'.length := (Frame.set_length hclear).symm ▸ hlen
  simp only [sizeofEther, helloLen]
  omega

include hlen hclear in
theorem readHello_none (h : receivingIface S ps = none) :
    readHello S { ps with packet := f' } =
      .ok ⟨f'.length - sizeofEther, ps.interface, 0, 0, 0, 0⟩ := by
  have hlong := Nat.not_lt.mpr (helloLen_le hlen hclear)
  have hfind : (S.interfaces.find? fun iface => iface.name = ps.interface) = none := h
  simp only [readHello, PacketState.len, if_neg hlong, hfind]
  rfl

include hlen hclear in
theorem readHello_some {iface : PwospfIflist} (h : receivingIface S ps = some iface) :
    readHello S { ps with packet := f' } = do
      let msg : HelloMsg := ⟨f'.length - sizeofEther, ps.interface, 0, 0, 0, 0⟩
      let msg := { msg with nmask := .ofNat (← ps.packet.get helloNmask) }
      if iface.mask ≠ ntohl msg.nmask then return msg
      return { msg with
        helloint := .ofNat (← ps.packet.get helloHelloint)
        rid := .ofNat (← ps.packet.get ospfRid)
        ipSrc := .ofNat (← ps.packet.get ipSrc) } := by
  have hlong := Nat.not_lt.mpr (helloLen_le hlen hclear)
  have hfind : (S.interfaces.find? fun iface => iface.name = ps.interface) = some iface := h
  simp only [readHello, PacketState.len, if_neg hlong, hfind,
    Frame.get_set_apart hclear (show ospfCsum.Apart helloNmask by decide),
    Frame.get_set_apart hclear (show ospfCsum.Apart helloHelloint by decide),
    Frame.get_set_apart hclear (show ospfCsum.Apart ospfRid by decide),
    Frame.get_set_apart hclear (show ospfCsum.Apart ipSrc by decide)]

include hcheck hclear in
theorem hello_drops (hS : S.Wf) (htype : ps.packet.get ospfType = .ok ospfTypeHello)
    (hread : readHello S { ps with packet := f' } = .ok msg) (hmsg : helloLen ≤ msg.len)
    (hrefused : ∀ i, (S.interfaces.find? fun i => i.name = msg.interface) = some i →
      helloMismatch i msg = true) :
    ∃ out, handlePwospf S env ps = .ok out ∧ Drops S out := by
  obtain ⟨S', hrun⟩ := handleHello_exists hS env.clock msg
  refine ⟨⟨S', [], none⟩, ?_, rfl, rfl, (handleHello_walk hmsg hrun).old hrefused⟩
  rw [handlePwospf_passed hcheck hclear htype, if_pos rfl, hread, ok_bind, hrun]
  rfl

include hlen hcheck hclear in
theorem helloNmask_drops {iface : PwospfIflist} {m : Nat} (hS : S.Wf)
    (htype : ps.packet.get ospfType = .ok ospfTypeHello)
    (hiface : receivingIface S ps = some iface) (hm : ps.packet.get helloNmask = .ok m)
    (hne : iface.mask ≠ ntohl (.ofNat m)) : ∃ out, handlePwospf S env ps = .ok out ∧ Drops S out := by
  have hread := readHello_some hlen hclear hiface
  rw [hm, ok_bind] at hread
  simp only [if_pos hne] at hread
  apply hello_drops hcheck hclear hS htype hread (helloLen_le hlen hclear)
  intro i hi
  have hsame : some i = some iface := hi.symm.trans hiface
  cases hsame
  simp [helloMismatch, hne]

include hlen hclear in
/-- What is read of a HELLO with the mask of the receiving interface. -/
theorem readHello_full {iface : PwospfIflist} {m n : Nat} (hiface : receivingIface S ps = some iface)
    (hm : ps.packet.get helloNmask = .ok m) (hmask : iface.mask = ntohl (.ofNat m))
    (hn : ps.packet.get helloHelloint = .ok n) :
    ∃ rid src, readHello S { ps with packet := f' } =
      .ok ⟨f'.length - sizeofEther, ps.interface, .ofNat m, .ofNat n, rid, src⟩ := by
  have h50 : 50 ≤ ps.packet.length := hlen
  obtain ⟨rid, hrid⟩ := Frame.get_exists (f := ps.packet) (b := ospfRid)
    (Nat.le_trans (by decide) h50)
  obtain ⟨src, hsrc⟩ := Frame.get_exists (f := ps.packet) (b := ipSrc)
    (Nat.le_trans (by decide) h50)
  refine ⟨.ofNat rid, .ofNat src, ?_⟩
  rw [readHello_some hlen hclear hiface, hm, ok_bind, if_neg (not_not.mpr hmask), hn, ok_bind, hrid,
    ok_bind, hsrc, ok_bind]
  rfl

include hlen hcheck hclear in
theorem helloInterval_drops {iface : PwospfIflist} {n : Nat} (hS : S.Wf)
    (htype : ps.packet.get ospfType = .ok ospfTypeHello)
    (hiface : receivingIface S ps = some iface) (hn : ps.packet.get helloHelloint = .ok n)
    (hne : iface.helloint ≠ ntohs (.ofNat n)) :
    ∃ out, handlePwospf S env ps = .ok out ∧ Drops S out := by
  obtain ⟨m, hm⟩ := Frame.get_exists (f := ps.packet) (b := helloNmask)
    (Nat.le_trans (by decide) (Frame.get_bounds hn))
  by_cases hmask : iface.mask = ntohl (.ofNat m)
  · obtain ⟨rid, src, hread⟩ := readHello_full hlen hclear hiface hm hmask hn
    apply hello_drops hcheck hclear hS htype hread (helloLen_le hlen hclear)
    intro i hi
    have hsame : some i = some iface := hi.symm.trans hiface
    cases hsame
    simp [helloMismatch, hne]
  · exact helloNmask_drops hlen hcheck hclear hS htype hiface hm hmask

/-- A bound on the times in the neighbor records. -/
theorem exists_later (interfaces : List PwospfIflist) :
    ∃ now : Time, ∀ i ∈ interfaces, ∀ nbr ∈ i.neighbors.elems, nbr.timenotvalid ≤ now := by
  have hbound : ∀ l : List NeighborList, ∃ now : Time, ∀ nbr ∈ l, nbr.timenotvalid ≤ now := by
    intro l
    induction l with
    | nil => exact ⟨0, fun _ h => absurd h List.not_mem_nil⟩
    | cons nbr l ih =>
      obtain ⟨now, hnow⟩ := ih
      refine ⟨max nbr.timenotvalid now, ?_⟩
      intro nbr' hnbr'
      cases hnbr' with
      | head => exact Int.le_max_left _ _
      | tail _ h => exact Int.le_trans (hnow nbr' h) (Int.le_max_right _ _)
  obtain ⟨now, hnow⟩ := hbound (interfaces.flatMap fun i => i.neighbors.elems)
  exact ⟨now, fun i hi nbr hnbr => hnow nbr (List.mem_flatMap.mpr ⟨i, hi, hnbr⟩)⟩

include hcheck hclear in
theorem hello_not_drops (htype : ps.packet.get ospfType = .ok ospfTypeHello)
    (hread : readHello S { ps with packet := f' } = .ok msg) (hmsg : helloLen ≤ msg.len)
    {i : PwospfIflist} (hi : (S.interfaces.find? fun i => i.name = msg.interface) = some i)
    (hmis : helloMismatch i msg = false) :
    ∃ env, ∀ out, handlePwospf S env ps = .ok out → ¬ Drops S out := by
  obtain ⟨now, hnow⟩ := exists_later S.interfaces
  refine ⟨⟨fun _ => now, fun _ _ => none, fun _ => 0, fun _ => 0⟩, ?_⟩
  intro out hrun hdrops
  rw [handlePwospf_passed hcheck hclear htype, if_pos rfl, hread, ok_bind] at hrun
  obtain ⟨S', hhello, hout⟩ := bind_eq_ok.mp hrun
  cases hout
  obtain ⟨i', hi', nbr, hnbr, j, htime⟩ := (handleHello_walk hmsg hhello).new rfl hi hmis
  obtain ⟨i₀, hi₀, hold⟩ := hdrops.neighbors i' hi' nbr hnbr
  have hle := hnow i₀ hi₀ nbr hold
  rw [htime] at hle
  exact absurd hle (Int.not_le.mpr (Int.lt_add_of_pos_right now (by decide)))

include hlen hcheck hclear in
/-- A HELLO is read up to the first field that does not match, so it goes behind the end of the
packet where that field is missing. -/
theorem hello_refused_or_whole (htype : ps.packet.get ospfType = .ok ospfTypeHello)
    (h : ∀ env, ReadsWithin S env ps) : Refused S ps ∨ Whole ps.packet := by
  let env : Env := ⟨fun _ => 0, fun _ _ => none, fun _ => 0, fun _ => 0⟩
  have hover : readHello S { ps with packet := f' } ≠ .error .outOfBounds := by
    intro hread
    apply (h env).inBounds
    rw [handlePwospf_passed hcheck hclear htype, if_pos rfl, hread]
    rfl
  cases hiface : receivingIface S ps with
  | none => exact Or.inl (.helloIface hlen htype hiface)
  | some iface =>
    rw [readHello_some hlen hclear hiface] at hover
    by_cases hnmask : helloNmask.offset + helloNmask.width ≤ ps.packet.length
    · obtain ⟨m, hm⟩ := Frame.get_exists hnmask
      by_cases hmask : iface.mask = ntohl (.ofNat m)
      · by_cases hhelloint : helloHelloint.offset + helloHelloint.width ≤ ps.packet.length
        · obtain ⟨n, hn⟩ := Frame.get_exists hhelloint
          by_cases hinterval : iface.helloint = ntohs (.ofNat n)
          · right
            by_contra hshort
            obtain ⟨rid, src, hread⟩ := readHello_full hlen hclear hiface hm hmask hn
            obtain ⟨env, hnot⟩ := hello_not_drops hcheck hclear htype hread
              (helloLen_le hlen hclear) hiface (by simp [helloMismatch, hmask, hinterval])
            obtain ⟨out, hrun, hdrops⟩ := (h env).drops hshort
            exact hnot out hrun hdrops
          · exact Or.inl (.helloInterval htype hiface hn hinterval)
        · apply absurd _ hover
          rw [hm, ok_bind, if_neg (not_not.mpr hmask), Frame.get_overread (Nat.not_le.mp hhelloint)]
          rfl
      · exact Or.inl (.helloNmask htype hiface hm hmask)
    · apply absurd _ hover
      rw [Frame.get_overread (Nat.not_le.mp hnmask)]
      rfl

include hlen hcheck hclear in
/-- A HELLO that has all the fields of its header is read within its bounds. -/
theorem hello_inBounds (hS : S.Wf) (htype : ps.packet.get ospfType = .ok ospfTypeHello)
    (h66 : 66 ≤ ps.packet.length) : handlePwospf S env ps ≠ .error .outOfBounds := by
  have hread : ∃ msg, readHello S { ps with packet := f' } = .ok msg := by
    cases hiface : receivingIface S ps with
    | none => exact ⟨_, readHello_none hlen hclear hiface⟩
    | some iface =>
      obtain ⟨m, hm⟩ := Frame.get_exists (f := ps.packet) (b := helloNmask)
        (Nat.le_trans (by decide) h66)
      obtain ⟨n, hn⟩ := Frame.get_exists (f := ps.packet) (b := helloHelloint)
        (Nat.le_trans (by decide) h66)
      by_cases hmask : iface.mask = ntohl (.ofNat m)
      · obtain ⟨rid, src, hread⟩ := readHello_full hlen hclear hiface hm hmask hn
        exact ⟨_, hread⟩
      · rw [readHello_some hlen hclear hiface, hm, ok_bind, if_pos hmask]
        exact ⟨_, rfl⟩
  obtain ⟨msg, hread⟩ := hread
  obtain ⟨S', hrun⟩ := handleHello_exists hS env.clock msg
  rw [handlePwospf_passed hcheck hclear htype, if_pos rfl, hread, ok_bind, hrun]
  exact fun h => by cases h

end Passed

/-! ## LSUs -/

theorem readAdvs_exists (env : Env) {i n : Nat} (hlen : 66 + 12 * (i + n) ≤ f.length) :
    ∃ ads, readAdvs env f n i = .ok ads := by
  induction n generalizing i with
  | zero => exact ⟨[], rfl⟩
  | succ n ih =>
    obtain ⟨subnet, hsubnet⟩ := Frame.get_exists (f := f) (b := advSubnet i)
      (show 66 + 12 * i + 4 ≤ f.length by omega)
    obtain ⟨mask, hmask⟩ := Frame.get_exists (f := f) (b := advMask i)
      (show 70 + 12 * i + 4 ≤ f.length by omega)
    obtain ⟨rid, hrid⟩ := Frame.get_exists (f := f) (b := advRid i)
      (show 74 + 12 * i + 4 ≤ f.length by omega)
    obtain ⟨ads, hads⟩ := ih (i := i + 1) (by omega)
    rw [readAdvs, hsubnet, ok_bind, hmask, ok_bind, hrid, ok_bind, hads]
    exact ⟨_, rfl⟩

theorem readAdvs_overread (env : Env) {i n : Nat} (hin : 66 + 12 * i ≤ f.length)
    (hlen : f.length < 66 + 12 * (i + n)) : readAdvs env f n i = .error .outOfBounds := by
  induction n generalizing i with
  | zero => omega
  | succ n ih =>
    have hget : ∀ b : PacketField,
        (∃ v, f.get b = .ok v) ∨ f.length < b.offset + b.width ∧ f.get b = .error .outOfBounds := by
      intro b
      by_cases hb : b.offset + b.width ≤ f.length
      · exact Or.inl (Frame.get_exists hb)
      · exact Or.inr ⟨Nat.not_le.mp hb, Frame.get_overread (Nat.not_le.mp hb)⟩
    rw [readAdvs]
    cases hget (advSubnet i) with
    | inr hsubnet =>
      rw [hsubnet.2]
      rfl
    | inl hsubnet =>
      obtain ⟨subnet, hsubnet⟩ := hsubnet
      rw [hsubnet, ok_bind]
      cases hget (advMask i) with
      | inr hmask =>
        rw [hmask.2]
        rfl
      | inl hmask =>
        obtain ⟨mask, hmask⟩ := hmask
        rw [hmask, ok_bind]
        cases hget (advRid i) with
        | inr hrid =>
          rw [hrid.2]
          rfl
        | inl hrid =>
          obtain ⟨rid, hrid⟩ := hrid
          have hend : 74 + 12 * i + 4 ≤ f.length := Frame.get_bounds hrid
          rw [hrid, ok_bind, ih (i := i + 1) (by omega) (by omega)]
          rfl

/-- The packet that `forward_lsu` copies is long enough. -/
theorem forwardLsu_inBounds (S : PwospfSubsys) (env : Env) {len : Nat} (hmin : 62 ≤ f.length)
    (hlen : f.get ospfLen = .ok len) (hsize : (relaySize len).toNat ≤ f.length) :
    ∃ copies, forwardLsu S env f = .ok copies := by
  obtain ⟨t, ht⟩ := Frame.get_exists (f := f) (b := ipTtl) (Nat.le_trans (by decide) hmin)
  obtain ⟨l, hl⟩ := Frame.get_exists (f := f) (b := lsuTtl) hmin
  obtain ⟨src, hsrc⟩ := Frame.get_exists (f := f) (b := ipSrc) (Nat.le_trans (by decide) hmin)
  obtain ⟨csum, f₁, f₂, f₃, hop⟩ := Hop.exists hmin (.ofNat t - 1) (.ofNat l - 1)
  rw [forwardLsu_eq ht hl hlen hsrc hop]
  by_cases hlive : l ≠ 1 ∧ t ≠ 1
  · obtain ⟨f₄, copies, hflood, -⟩ := flood_spec (f := f₃) env (fun a => a = UInt32.ofNat src)
      S.interfaces [] (fun i _ => ⟨i.mac, rfl⟩)
      (by rw [hop.length]; exact Nat.le_trans (by decide) hmin) (by rw [hop.length]; exact hsize)
    rw [if_pos hlive, hflood]
    exact ⟨_, rfl⟩
  · rw [if_neg hlive]
    exact ⟨[], rfl⟩

theorem handleLsu_eq (hT : S.top.Wf) {r : Nat} (hrid : f.get ospfRid = .ok r) :
    handleLsu S env f =
      if S.top.ridOf S.top.thisRouter = some (.ofNat r) then .ok (.dropped S) else do
        let seq := UInt16.ofNat (← f.get lsuSeq)
        if getSequence S (.ofNat r) = seq then return .dropped S
        let numAds := ntohl (.ofNat (← f.get lsuNumAdv))
        let ads ← readAdvs env f numAds.toNat 0
        let S ← addToTop S env.clock (.ofNat r) ads
        let S := setSequence S (.ofNat r) seq
        let copies ← forwardLsu S env f
        return ⟨S, copies, some (.ofNat r, seq)⟩ := by
  obtain ⟨this, hthis⟩ := mem_addrs_iff.mp hT.thisListed
  have hthisRid : S.top.ridOf S.top.thisRouter = some this.rid := by rw [ridOf, hthis]; rfl
  rw [handleLsu, hrid, ok_bind, deref_of_find hthis, ok_bind, hthisRid]
  by_cases hown : UInt32.ofNat r = this.rid
  · rw [if_pos hown, if_pos (congrArg some hown.symm)]
    rfl
  · rw [if_neg hown, if_neg fun h => hown (Option.some.inj h).symm]

/-! ## The exact condition -/

/-- Of the checks only the one on the version comes before the fields of the header are needed. -/
theorem refused_short_drops (env : Env) (hlen : ¬ ospfStart + sizeofOspf - 8 ≤ ps.packet.length)
    (h : Refused S ps) : ∃ out, handlePwospf S env ps = .ok out ∧ Drops S out := by
  have hshort : ps.packet.length < 50 := Nat.not_le.mp hlen
  have hbound : ∀ {b : PacketField} {v : Nat}, 50 ≤ b.offset + b.width →
      ps.packet.get b ≠ .ok v := by
    intro b v hb h
    exact absurd (Nat.le_trans hb (Frame.get_bounds h)) (Nat.not_le.mpr hshort)
  cases h with
  | version h hne =>
    cases checkPwospf_short (S := S) (Nat.not_le.mp hlen) with
    | inl hwrong =>
      obtain ⟨v, -, -, hcheck⟩ := hwrong
      refine ⟨_, ?_, .dropped S⟩
      simp only [handlePwospf, hcheck, ok_bind]
      rfl
    | inr hover => exact absurd (hover.1 _ h) hne
  | csum hlen' => exact absurd hlen' hlen
  | area hlen' => exact absurd hlen' hlen
  | autype h => exact absurd h (hbound (by decide))
  | type hlen' => exact absurd hlen' hlen
  | ownLsu hlen' => exact absurd hlen' hlen
  | repeatedLsu _ _ h => exact absurd h (hbound (by decide))
  | helloIface hlen' => exact absurd hlen' hlen
  | helloNmask _ _ h => exact absurd h (hbound (by decide))
  | helloInterval _ _ h => exact absurd h (hbound (by decide))

/-- A refused packet is read within its bounds, and dropped. -/
theorem refused_drops (hS : S.Wf) (env : Env) (h : Refused S ps) :
    ∃ out, handlePwospf S env ps = .ok out ∧ Drops S out := by
  by_cases hlen : ospfStart + sizeofOspf - 8 ≤ ps.packet.length
  · obtain ⟨version, csum, sum, aid, autype, type, rid, f', hversion, hcsum, hsum, haid, hautype,
      htype, hrid, hclear, hcheck⟩ := checkPwospf_eq (S := S) hlen
    by_cases hpass : version = ospfV2 ∧ htons sum = .ofNat csum ∧ UInt32.ofNat aid = ntohl S.areaId ∧
        UInt16.ofNat autype = S.autype
    · rw [if_pos hpass] at hcheck
      have hlsu : ∀ {r : Nat}, ps.packet.get ospfType = .ok ospfTypeLsu →
          ps.packet.get ospfRid = .ok r → handlePwospf S env ps = handleLsu S env f' ∧
            f'.get ospfRid = .ok r := by
        intro r ht hr
        rw [handlePwospf_passed hcheck hclear ht, if_neg (by decide), if_pos rfl]
        exact ⟨rfl, (Frame.get_set_apart hclear (by decide)).trans hr⟩
      cases h with
      | version h hne =>
        rw [hversion] at h
        cases h
        exact absurd hpass.1 hne
      | csum _ hsum' h hne =>
        rw [hsum] at hsum'
        rw [hcsum] at h
        cases hsum'
        cases h
        exact absurd hpass.2.1 hne
      | area _ h hne =>
        rw [haid] at h
        cases h
        exact absurd hpass.2.2.1 hne
      | autype h hne =>
        rw [hautype] at h
        cases h
        exact absurd hpass.2.2.2 hne
      | type _ h hhello hnot =>
        rw [handlePwospf_passed hcheck hclear h, if_neg hhello, if_neg hnot]
        exact ⟨_, rfl, .dropped S⟩
      | ownLsu _ ht hr hown =>
        obtain ⟨hrun, hr'⟩ := hlsu ht hr
        rw [hrun, handleLsu_eq hS.top hr', if_pos hown]
        exact ⟨_, rfl, .dropped S⟩
      | repeatedLsu ht hr h hseq =>
        obtain ⟨hrun, hr'⟩ := hlsu ht hr
        rw [hrun, handleLsu_eq hS.top hr']
        refine ⟨_, ?_, .dropped S⟩
        have hs : f'.get lsuSeq = ps.packet.get lsuSeq := Frame.get_set_apart hclear (by decide)
        split
        · rfl
        · rw [hs, h, ok_bind, if_pos hseq]
          rfl
      | helloIface _ ht hnone =>
        apply hello_drops hcheck hclear hS ht (readHello_none hlen hclear hnone)
          (helloLen_le hlen hclear)
        intro i hi
        have hsome : none = some i := hnone.symm.trans hi
        cases hsome
      | helloNmask ht hiface h hne =>
        exact helloNmask_drops hlen hcheck hclear hS ht hiface h hne
      | helloInterval ht hiface h hne =>
        exact helloInterval_drops hlen hcheck hclear hS ht hiface h hne
    · rw [if_neg hpass] at hcheck
      refine ⟨_, ?_, .dropped S⟩
      simp only [handlePwospf, hcheck, ok_bind]
      rfl
  · exact refused_short_drops env hlen h

/-- What a whole packet has room for. -/
theorem whole_iff : Whole f ↔ ∃ type len, f.get ospfType = .ok type ∧ f.get ospfLen = .ok len ∧
    ospfStart + (ntohs (.ofNat len)).toNat ≤ f.length ∧ 58 ≤ f.length ∧
    (type = ospfTypeHello → 66 ≤ f.length) ∧
    (type = ospfTypeLsu → ∃ num, f.get lsuNumAdv = .ok num ∧
      66 + 12 * (ntohl (.ofNat num)).toNat ≤ f.length) := by
  constructor
  · intro h
    obtain ⟨n, hann, hn⟩ := h
    obtain ⟨type, htype, hann⟩ := bind_eq_ok.mp hann
    obtain ⟨len, hlen, hann⟩ := bind_eq_ok.mp hann
    refine ⟨type, len, htype, hlen, ?_⟩
    by_cases hhello : type = ospfTypeHello
    · rw [if_pos hhello] at hann
      cases hann
      obtain ⟨hfield, hheader⟩ := Nat.max_le.mp hn
      refine ⟨hfield, Nat.le_trans (by decide) hheader, fun _ => hheader, ?_⟩
      intro hlsu
      rw [hhello] at hlsu
      cases hlsu
    · rw [if_neg hhello] at hann
      by_cases hlsu : type = ospfTypeLsu
      · rw [if_pos hlsu] at hann
        obtain ⟨num, hnum, hann⟩ := bind_eq_ok.mp hann
        cases hann
        obtain ⟨hfield, hheader⟩ := Nat.max_le.mp hn
        have h66 : 66 ≤ f.length := Nat.le_trans (Nat.le_add_right _ _) hheader
        exact ⟨hfield, Nat.le_trans (by decide) h66, fun h => absurd h hhello,
          fun _ => ⟨num, hnum, hheader⟩⟩
      · rw [if_neg hlsu] at hann
        cases hann
        obtain ⟨hfield, hheader⟩ := Nat.max_le.mp hn
        exact ⟨hfield, hheader, fun h => absurd h hhello, fun h => absurd h hlsu⟩
  · intro h
    obtain ⟨type, len, htype, hlen, hfield, hheader, hhello, hlsu⟩ := h
    rw [Whole, announcedLen, htype, ok_bind, hlen, ok_bind]
    by_cases h₁ : type = ospfTypeHello
    · rw [if_pos h₁]
      exact ⟨_, rfl, Nat.max_le.mpr ⟨hfield, hhello h₁⟩⟩
    · rw [if_neg h₁]
      by_cases h₂ : type = ospfTypeLsu
      · obtain ⟨num, hnum, hroom⟩ := hlsu h₂
        rw [if_pos h₂, hnum, ok_bind]
        exact ⟨_, rfl, Nat.max_le.mpr ⟨hfield, hroom⟩⟩
      · rw [if_neg h₂]
        exact ⟨_, rfl, Nat.max_le.mpr ⟨hfield, hheader⟩⟩

/-- The part of an LSU behind the sequence number, once it is known to be new. -/
theorem handleLsu_new (hS : S.Wf) (env : Env) {r s num : Nat} (hrid : f.get ospfRid = .ok r)
    (hother : S.top.ridOf S.top.thisRouter ≠ some (.ofNat r)) (hseq : f.get lsuSeq = .ok s)
    (hnew : getSequence S (.ofNat r) ≠ .ofNat s) (hnum : f.get lsuNumAdv = .ok num)
    (hroom : 66 + 12 * (ntohl (.ofNat num)).toNat ≤ f.length) :
    (∃ S₁, handleLsu S env f = do
        let copies ← forwardLsu (setSequence S₁ (.ofNat r) (.ofNat s)) env f
        return ⟨setSequence S₁ (.ofNat r) (.ofNat s), copies, some (.ofNat r, .ofNat s)⟩) ∨
      handleLsu S env f = .error .assertion := by
  obtain ⟨ads, hads⟩ := readAdvs_exists (f := f) env (i := 0)
    (n := (ntohl (UInt32.ofNat num)).toNat) (by rw [Nat.zero_add]; exact hroom)
  rw [handleLsu_eq hS.top hrid, if_neg hother, hseq, ok_bind, if_neg hnew, hnum, ok_bind]
  simp only [hads, ok_bind]
  cases Event.run_wf (e := .lsu env.clock (.ofNat r) ads) hS hother with
  | inl hrun =>
    obtain ⟨S₁, hrun, -⟩ := hrun
    left
    rw [show addToTop S env.clock (.ofNat r) ads = .ok S₁ from hrun]
    exact ⟨S₁, rfl⟩
  | inr hfault =>
    right
    rw [show addToTop S env.clock (.ofNat r) ads = .error .assertion from hfault]
    rfl

theorem relaySize_le (len : Nat) :
    (relaySize len).toNat ≤ ospfStart + (ntohs (.ofNat len)).toNat := by
  rw [relaySize, UInt16.toNat_ofNat']
  exact Nat.mod_le _ _

/-- An LSU that has its advertisements and the bytes its length field counts is read, and copied,
within its bounds. -/
theorem lsu_inBounds (hS : S.Wf) {len num : Nat} (hlenField : f.get ospfLen = .ok len)
    (hfield : ospfStart + (ntohs (.ofNat len)).toNat ≤ f.length) (hnum : f.get lsuNumAdv = .ok num)
    (hroom : 66 + 12 * (ntohl (.ofNat num)).toNat ≤ f.length) :
    handleLsu S env f ≠ .error .outOfBounds := by
  have h66 : 66 ≤ f.length := Nat.le_trans (Nat.le_add_right _ _) hroom
  obtain ⟨r, hr⟩ := Frame.get_exists (f := f) (b := ospfRid) (Nat.le_trans (by decide) h66)
  obtain ⟨s, hs⟩ := Frame.get_exists (f := f) (b := lsuSeq) (Nat.le_trans (by decide) h66)
  by_cases hown : S.top.ridOf S.top.thisRouter = some (.ofNat r)
  · rw [handleLsu_eq hS.top hr, if_pos hown]
    exact fun h => by cases h
  · by_cases hnew : getSequence S (.ofNat r) = .ofNat s
    · rw [handleLsu_eq hS.top hr, if_neg hown, hs, ok_bind, if_pos hnew]
      exact fun h => by cases h
    · cases handleLsu_new hS env hr hown hs hnew hnum hroom with
      | inl hrun =>
        obtain ⟨S₁, hrun⟩ := hrun
        obtain ⟨copies, hforward⟩ := forwardLsu_inBounds
          (setSequence S₁ (.ofNat r) (.ofNat s)) env (Nat.le_trans (by decide) h66) hlenField
          (Nat.le_trans (relaySize_le len) hfield)
        rw [hrun, hforward]
        exact fun h => by cases h
      | inr hfault =>
        rw [hfault]
        exact fun h => by cases h

/-- A packet that is whole is read within its bounds. -/
theorem whole_inBounds (hS : S.Wf) (h : Whole ps.packet) :
    handlePwospf S env ps ≠ .error .outOfBounds := by
  obtain ⟨type, len, htype, hlenField, hfield, h58, hhello, hlsu⟩ := whole_iff.mp h
  have hlen : ospfStart + sizeofOspf - 8 ≤ ps.packet.length := Nat.le_trans (by decide) h58
  obtain ⟨version, csum, sum, aid, autype, -, rid, f', -, -, -, -, -, -, -, hclear, hcheck⟩ :=
    checkPwospf_eq (S := S) hlen
  split at hcheck
  · by_cases h₁ : type = ospfTypeHello
    · rw [h₁] at htype
      exact hello_inBounds hlen hcheck hclear hS htype (hhello h₁)
    · rw [handlePwospf_passed hcheck hclear htype, if_neg h₁]
      by_cases h₂ : type = ospfTypeLsu
      · obtain ⟨num, hnum, hroom⟩ := hlsu h₂
        have hlength := Frame.set_length hclear
        rw [if_pos h₂]
        apply lsu_inBounds hS
        · exact (Frame.get_set_apart hclear (by decide)).trans hlenField
        · rw [hlength]
          exact hfield
        · exact (Frame.get_set_apart hclear (by decide)).trans hnum
        · rw [hlength]
          exact hroom
      · rw [if_neg h₂]
        exact fun h => by cases h
  · simp only [handlePwospf, hcheck, ok_bind]
    exact fun h => by cases h

/-- An LSU that is new is merged as soon as its advertisements are inside the packet. -/
theorem lsu_refused_or_whole (hS : S.Wf) (hlen : ospfStart + sizeofOspf - 8 ≤ ps.packet.length)
    {f' : Frame} (hcheck : checkPwospf S ps.packet = .ok (some f'))
    (hclear : ps.packet.set ospfCsum 0 = .ok f') (htype : ps.packet.get ospfType = .ok ospfTypeLsu)
    (h : ∀ env, ReadsWithin S env ps) : Refused S ps ∨ Whole ps.packet := by
  let env : Env := ⟨fun _ => 0, fun _ _ => none, fun _ => 0, fun _ => 0⟩
  have hrun : handlePwospf S env ps = handleLsu S env f' := by
    rw [handlePwospf_passed hcheck hclear htype, if_neg (by decide), if_pos rfl]
  have hover : handleLsu S env f' ≠ .error .outOfBounds := by
    rw [← hrun]
    exact (h env).inBounds
  have hlength := Frame.set_length hclear
  have hkept : ∀ b : PacketField, ospfCsum.Apart b → f'.get b = ps.packet.get b :=
    fun _ hb => Frame.get_set_apart hclear hb
  have h50 : 50 ≤ ps.packet.length := hlen
  obtain ⟨r, hr⟩ := Frame.get_exists (f := ps.packet) (b := ospfRid) (Nat.le_trans (by decide) h50)
  have hr' := (hkept ospfRid (by decide)).trans hr
  rw [handleLsu_eq hS.top hr'] at hover
  by_cases hown : S.top.ridOf S.top.thisRouter = some (.ofNat r)
  · exact Or.inl (.ownLsu hlen htype hr hown)
  · rw [if_neg hown, hkept lsuSeq (by decide), hkept lsuNumAdv (by decide)] at hover
    by_cases hseq : lsuSeq.offset + lsuSeq.width ≤ ps.packet.length
    · obtain ⟨s, hs⟩ := Frame.get_exists hseq
      by_cases hnew : getSequence S (.ofNat r) = .ofNat s
      · exact Or.inl (.repeatedLsu htype hr hs hnew)
      · rw [hs, ok_bind, if_neg hnew] at hover
        by_cases hnumAdv : lsuNumAdv.offset + lsuNumAdv.width ≤ ps.packet.length
        · obtain ⟨num, hnum⟩ := Frame.get_exists hnumAdv
          have h66 : 66 ≤ ps.packet.length := hnumAdv
          rw [hnum, ok_bind] at hover
          by_cases hroom : 66 + 12 * (ntohl (.ofNat num)).toNat ≤ ps.packet.length
          · right
            by_contra hshort
            obtain ⟨out, hout, hdrops⟩ := (h env).drops hshort
            have happlied := hdrops.applied
            rw [hrun] at hout
            cases handleLsu_new hS env hr' hown ((hkept _ (by decide)).trans hs) hnew
              ((hkept _ (by decide)).trans hnum) (by rw [hlength]; exact hroom) with
            | inl hmerged =>
              obtain ⟨S₁, hmerged⟩ := hmerged
              rw [hmerged] at hout
              obtain ⟨copies, -, hout⟩ := bind_eq_ok.mp hout
              cases hout
              cases happlied
            | inr hfault =>
              rw [hfault] at hout
              cases hout
          · apply absurd _ hover
            simp only
            rw [readAdvs_overread env (by rw [hlength]; exact h66)
              (by rw [hlength, Nat.zero_add]; exact Nat.not_le.mp hroom)]
            rfl
        · apply absurd _ hover
          rw [Frame.get_overread (Nat.not_le.mp hnumAdv)]
          rfl
    · apply absurd _ hover
      rw [Frame.get_overread (Nat.not_le.mp hseq)]
      rfl

/-- If whatever the surroundings are a packet is read within its bounds and dropped unless it is
whole, then it is refused or whole. -/
theorem refused_or_whole (hS : S.Wf) (h : ∀ env, ReadsWithin S env ps) :
    Refused S ps ∨ Whole ps.packet := by
  have hover : ∀ env, handlePwospf S env ps ≠ .error .outOfBounds := fun env => (h env).inBounds
  let env : Env := ⟨fun _ => 0, fun _ _ => none, fun _ => 0, fun _ => 0⟩
  by_cases hlen : ospfStart + sizeofOspf - 8 ≤ ps.packet.length
  · obtain ⟨version, csum, sum, aid, autype, type, rid, f', hversion, hcsum, hsum, haid, hautype,
      htype, hrid, hclear, hcheck⟩ := checkPwospf_eq (S := S) hlen
    have hkept : ∀ b : PacketField, ospfCsum.Apart b → f'.get b = ps.packet.get b :=
      fun _ hb => Frame.get_set_apart hclear hb
    by_cases hv : version = ospfV2
    · by_cases hc : htons sum = .ofNat csum
      · by_cases ha : UInt32.ofNat aid = ntohl S.areaId
        · by_cases hau : UInt16.ofNat autype = S.autype
          · rw [if_pos ⟨hv, hc, ha, hau⟩] at hcheck
            by_cases h₁ : type = ospfTypeHello
            · rw [h₁] at htype
              exact hello_refused_or_whole hlen hcheck hclear htype h
            · by_cases h₂ : type = ospfTypeLsu
              · rw [h₂] at htype
                exact lsu_refused_or_whole hS hlen hcheck hclear htype h
              · exact Or.inl (.type hlen htype h₁ h₂)
          · exact Or.inl (.autype hautype hau)
        · exact Or.inl (.area hlen haid ha)
      · exact Or.inl (.csum hlen hsum hcsum hc)
    · exact Or.inl (.version hversion hv)
  · cases checkPwospf_short (S := S) (Nat.not_le.mp hlen) with
    | inl hwrong =>
      obtain ⟨v, hv, hne, -⟩ := hwrong
      exact Or.inl (.version hv hne)
    | inr hfault =>
      apply absurd _ (hover env)
      rw [handlePwospf, hfault.2]
      rfl

/-- In every state between packets, a packet is read within its bounds and dropped if it is too short
exactly if it is as long as its headers announce or a check turns it down on a field inside it. -/
theorem handlePwospf_readsWithin_iff {sr : SrInstance} {clock : Nat → Time} {areaId : UInt32}
    {S₀ : PwospfSubsys} {n : Node} (h₀ : pwospfInit sr clock areaId = .ok S₀)
    (hn : Reach NodeStep (fun _ _ => True) (.start S₀) n) (ps : PacketState) :
    (∀ env, ReadsWithin n.subsys env ps) ↔ Refused n.subsys ps ∨ Whole ps.packet := by
  have hS := node_wf (pwospfInit_wf h₀) hn
  constructor
  · exact refused_or_whole hS
  · intro h env
    cases h with
    | inl hrefused =>
      obtain ⟨out, hrun, hdrops⟩ := refused_drops hS env hrefused
      constructor
      · rw [hrun]
        exact fun h => by cases h
      · exact fun _ => ⟨out, hrun, hdrops⟩
    | inr hwhole => exact ⟨whole_inBounds hS hwhole, fun hshort => absurd hwhole hshort⟩

theorem handlePwospf_readsWithin_iff_demo :
    ReadsWithin demoStart demoEnv ⟨demoLsu 64 32, eth0Interface⟩ := by
  have hwhole : Whole (demoLsu 64 32) := ⟨66, by decide, by decide⟩
  exact (handlePwospf_readsWithin_iff demoStart_init .start _).mpr (Or.inr hwhole) demoEnv

/-- An LSU of router 8 to all routers, which ends where its only advertisement should be. -/
def demoShortLsu : Frame :=
  [0, 0, 0, 0, 0, 2, 0, 0, 0, 0, 0, 3, 8, 0,
    0x45, 0, 0, 52, 0, 0, 0, 0, 64, 89, 0, 0, 10, 0, 0, 0, 224, 0, 0, 5,
    2, 4, 0, 32, 8, 0, 0, 0, 0, 0, 0, 0, 0xf5, 0xdb, 0, 0, 0, 0, 0, 0, 0, 0, 0, 0,
    1, 0, 0, 32, 0, 0, 0, 1]

theorem reads_not_within :
    ∃ n, Reach NodeStep (fun _ _ => True) (.start demoStart) n ∧
      ¬ ReadsWithin n.subsys demoEnv ⟨demoShortLsu, eth0Interface⟩ := by
  refine ⟨.start demoStart, .start, ?_⟩
  intro h
  have hfault : handlePwospf demoStart demoEnv ⟨demoShortLsu, eth0Interface⟩ =
      .error .outOfBounds := by decide +kernel
  exact h.inBounds hfault

end PWOSPF
