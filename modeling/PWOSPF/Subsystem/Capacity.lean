import PWOSPF.Subsystem.Runs
import PWOSPF.Topology.Additions

/-!
# Capacity of the dynamic arrays

The subnets and adjacencies of the routers and the neighbors of the interfaces are arrays of
pointers, eight bytes each, that double when they are full. Doubling asks `realloc` for as many bytes
as there are to be entries, and `pwospf_init` stores one subnet an interface without looking at the
capacity. An array is within its allocation as long as it never has to grow.
-/

namespace PWOSPF

open Framework Topo

/-- The allocation has room for the recorded capacity, and the entries, written one by one at the
end, all lie below it. -/
structure DynArray.Fits {α : Type} (a : DynArray α) : Prop where
  bytes : 8 * a.bufSize ≤ a.bytes
  size : a.size ≤ a.bufSize

/-- Every array of the subsystem has the property. -/
structure PwospfSubsys.Arrays (S : PwospfSubsys) (P : ∀ {α : Type}, DynArray α → Prop) : Prop where
  adjacencies : ∀ r ∈ S.top.network, P r.adjacencies
  subnets : ∀ r ∈ S.top.network, P r.subnets
  neighbors : ∀ i ∈ S.interfaces, P i.neighbors

abbrev PwospfSubsys.Fits (S : PwospfSubsys) : Prop := S.Arrays DynArray.Fits

/-- Doubling makes room. -/
abbrev PwospfSubsys.Sized (S : PwospfSubsys) : Prop := S.Arrays fun a => 0 < a.bufSize

/-- No router and no interface has anything added to its arrays. -/
structure PwospfSubsys.AddsNothing (S S' : PwospfSubsys) : Prop where
  top : S.top.AddsNothing S'.top
  interfaces : ∀ i' ∈ S'.interfaces, ∃ i ∈ S.interfaces, i'.neighbors.Within i.neighbors

/-- What is added to an array: a subnet by `add_new_route`, an adjacency by
`add_to_existing_router`, the record of a neighbor at interface `k` by `handle_HELLO`. -/
inductive Addition
  | route (current : Route) (host : Ptr)
  | adjacency (host conRouter : Ptr)
  | neighbor (k : Nat) (clock : Nat → Time) (msg : HelloMsg) (found : Bool)
  | other

def PwospfSubsys.setNeighbors (S : PwospfSubsys) (k : Nat) (i : PwospfIflist)
    (neighbors : DynArray NeighborList) : PwospfSubsys :=
  { S with interfaces := S.interfaces.set k { i with neighbors := neighbors } }

inductive AddStep (S : PwospfSubsys) : Addition → PwospfSubsys → Prop
  | route {current : Route} {host : Ptr} {T : Topo} (h : addNewRoute S.top current host = .ok T) :
      AddStep S (.route current host) { S with top := T }
  | adjacency {host conRouter : Ptr} {T : Topo} (h : addAdjacency S.top host conRouter = .ok T) :
      AddStep S (.adjacency host conRouter) { S with top := T }
  | neighbor {k : Nat} {clock : Nat → Time} {msg : HelloMsg} {found : Bool} {i : PwospfIflist}
      (h : S.interfaces[k]? = some i) :
      AddStep S (.neighbor k clock msg found)
        (S.setNeighbors k i (recordNeighbor clock msg found i.neighbors).1)
  | other {S' : PwospfSubsys} (h : S.AddsNothing S') : AddStep S .other S'

/-- The array is not full where an entry is to be added. `handle_HELLO` looks at its array before
it knows whether the neighbor is a new one. -/
def Addition.Room (S : PwospfSubsys) : Addition → Prop
  | .route _ host => ∀ r ∈ S.top.network, r.addr = host → r.subnets.size ≠ r.subnets.bufSize
  | .adjacency host conRouter => routerHasAdjacency S.top host conRouter = .ok false →
      ∀ r ∈ S.top.network, r.addr = host → r.adjacencies.size ≠ r.adjacencies.bufSize
  | .neighbor k _ _ _ => ∀ i, S.interfaces[k]? = some i → i.neighbors.size < i.neighbors.bufSize
  | .other => True

namespace DynArray

variable {α : Type}

theorem Within.fits {a' a : DynArray α} (h : a'.Within a) (ha : a.Fits) : a'.Fits := by
  refine ⟨?_, ?_⟩
  · rw [h.bufSize, h.bytes]
    exact ha.bytes
  · rw [h.bufSize]
    exact Nat.le_trans h.size ha.size

theorem Within.sized {a' a : DynArray α} (h : a'.Within a) (ha : 0 < a.bufSize) :
    0 < a'.bufSize := by
  rw [h.bufSize]
  exact ha

theorem alloc_fits (n : Nat) : (alloc n : DynArray α).Fits := ⟨Nat.le_refl _, Nat.zero_le _⟩

/-- After doubling there is one byte an entry. -/
theorem not_fits_of_grown {a : DynArray α} (h0 : 0 < a.bufSize) (hb : a.bytes = a.bufSize) :
    ¬ a.Fits := by
  intro h
  have := h.bytes
  omega

theorem push_bufSize (a : DynArray α) (x : α) :
    (a.push x).bufSize = if a.bufSize = a.size then 2 * a.bufSize else a.bufSize := by
  unfold push
  split <;> rfl

/-- Where the array was within its allocation, it still is exactly if it did not grow. -/
theorem push_fits_iff {a : DynArray α} (h0 : 0 < a.bufSize) (ha : a.Fits) (x : α) :
    (a.push x).Fits ↔ a.size ≠ a.bufSize := by
  constructor
  · intro h heq
    rw [push, if_pos heq.symm] at h
    exact not_fits_of_grown (a := a.grow.store x) (Nat.mul_pos (by decide) h0) rfl h
  · intro hne
    have hsize := ha.size
    rw [push, if_neg (Ne.symm hne)]
    refine ⟨ha.bytes, ?_⟩
    simp only [store, size, List.length_append, List.length_singleton]
    simp only [size] at hne hsize
    omega

end DynArray

theorem recordNeighbor_fits_iff {a : DynArray NeighborList} (h0 : 0 < a.bufSize) (ha : a.Fits)
    (clock : Nat → Time) (msg : HelloMsg) (found : Bool) :
    (recordNeighbor clock msg found a).1.Fits ↔ a.size < a.bufSize := by
  have hsize := ha.size
  by_cases hgrow : a.bufSize ≤ a.size
  · refine iff_of_false ?_ (Nat.not_lt.mpr hgrow)
    have hpos : 0 < 2 * a.bufSize := by omega
    unfold recordNeighbor
    simp only [if_pos hgrow]
    split
    · exact DynArray.not_fits_of_grown hpos rfl
    · exact DynArray.not_fits_of_grown hpos rfl
  · refine iff_of_true ?_ (Nat.not_le.mp hgrow)
    unfold recordNeighbor
    simp only [if_neg hgrow]
    split
    · exact ⟨ha.bytes, by simpa [DynArray.size] using hsize⟩
    · refine ⟨ha.bytes, ?_⟩
      simp only [DynArray.size] at hgrow
      simp only [DynArray.store, DynArray.size, List.length_append, List.length_mapIdx,
        List.length_singleton]
      omega

/-! ## One step -/

namespace PwospfSubsys.Arrays

variable {S S' : PwospfSubsys} {P : ∀ {α : Type}, DynArray α → Prop} (hS : S.Arrays P)
include hS

theorem modify {p : Ptr} {f : Router → Router}
    (hf : ∀ r ∈ S.top.network, r.addr = p → P (f r).adjacencies ∧ P (f r).subnets) :
    PwospfSubsys.Arrays { S with top := S.top.modify p f } P := by
  have hboth : ∀ r' ∈ (S.top.modify p f).network, P r'.adjacencies ∧ P r'.subnets := by
    intro r' hr'
    obtain ⟨r, hr, rfl⟩ := List.mem_map.mp hr'
    by_cases hp : r.addr = p
    · rw [if_pos hp]
      exact hf r hr hp
    · rw [if_neg hp]
      exact ⟨hS.adjacencies r hr, hS.subnets r hr⟩
  exact ⟨fun r hr => (hboth r hr).1, fun r hr => (hboth r hr).2, hS.neighbors⟩

theorem setNeighbors {k : Nat} {i : PwospfIflist} {neighbors : DynArray NeighborList}
    (h : P neighbors) : (S.setNeighbors k i neighbors).Arrays P := by
  refine ⟨hS.adjacencies, hS.subnets, fun i' hi' => ?_⟩
  rcases List.mem_or_eq_of_mem_set hi' with hmem | rfl
  exacts [hS.neighbors i' hmem, h]

theorem of_addsNothing (hwithin : ∀ {α : Type} {a' a : DynArray α}, a'.Within a → P a → P a')
    (halloc : ∀ {α : Type} (n : Nat), 0 < n → P (.alloc n : DynArray α)) (h : S.AddsNothing S') :
    S'.Arrays P := by
  have hboth : ∀ r' ∈ S'.top.network, P r'.adjacencies ∧ P r'.subnets := by
    intro r' hr'
    rcases h.top r' hr' with ⟨r, hr, -, hadj, hsub⟩ | ⟨addr, rid, now, hadj, hsub⟩
    · exact ⟨hwithin hadj (hS.adjacencies r hr), hwithin hsub (hS.subnets r hr)⟩
    · exact ⟨hwithin hadj (halloc _ (by decide)), hwithin hsub (halloc _ (by decide))⟩
  refine ⟨fun r hr => (hboth r hr).1, fun r hr => (hboth r hr).2, fun i' hi' => ?_⟩
  obtain ⟨i, hi, hnbr⟩ := h.interfaces i' hi'
  exact hwithin hnbr (hS.neighbors i hi)

end PwospfSubsys.Arrays

theorem addNewRoute_eq_ok {T T' : Topo} {current : Route} {host : Ptr}
    (h : addNewRoute T current host = .ok T') : T' = T.modify host (Router.pushSubnet current) := by
  obtain ⟨r, -, h⟩ := bind_eq_ok.mp h
  cases h
  rfl

theorem addAdjacency_eq_ok {T T' : Topo} {host conRouter : Ptr}
    (h : addAdjacency T host conRouter = .ok T') :
    (routerHasAdjacency T host conRouter = .ok true ∧ T' = T) ∨
      (routerHasAdjacency T host conRouter = .ok false ∧
        T' = T.modify host (Router.pushAdj conRouter)) := by
  obtain ⟨has, hhas, h⟩ := bind_eq_ok.mp h
  cases has with
  | true =>
    cases h
    exact Or.inl ⟨hhas, rfl⟩
  | false =>
    cases h
    exact Or.inr ⟨hhas, rfl⟩

theorem Topo.mem_modify {T : Topo} {r : Router} (hr : r ∈ T.network) {f : Router → Router} :
    f r ∈ (T.modify r.addr f).network :=
  List.mem_map.mpr ⟨r, hr, if_pos rfl⟩

section Step

variable {S S' : PwospfSubsys} {a : Addition}

theorem AddStep.sized (hS : S.Sized) (h : AddStep S a S') : S'.Sized := by
  have hpush : ∀ {α : Type} (a : DynArray α) (x : α), 0 < a.bufSize → 0 < (a.push x).bufSize := by
    intro α a x h0
    rw [DynArray.push_bufSize]
    split <;> omega
  cases h with
  | route h =>
    rw [addNewRoute_eq_ok h]
    exact hS.modify fun r hr _ => ⟨hS.adjacencies r hr, hpush _ _ (hS.subnets r hr)⟩
  | adjacency h =>
    rcases addAdjacency_eq_ok h with ⟨-, rfl⟩ | ⟨-, rfl⟩
    · exact hS
    · exact hS.modify fun r hr _ => ⟨hpush _ _ (hS.adjacencies r hr), hS.subnets r hr⟩
  | neighbor h =>
    exact hS.setNeighbors (recordNeighbor_bufSize _ _ _ (hS.neighbors _ (List.mem_of_getElem? h)))
  | other h => exact hS.of_addsNothing DynArray.Within.sized (fun n hn => hn) h

/-- A step keeps every array within its allocation exactly if what it adds finds room. -/
theorem AddStep.fits_iff (hsized : S.Sized) (hS : S.Fits) (h : AddStep S a S') :
    S'.Fits ↔ a.Room S := by
  cases h with
  | @route current host T h =>
    rw [addNewRoute_eq_ok h]
    constructor
    · rintro hfits r hr rfl
      exact (DynArray.push_fits_iff (hsized.subnets r hr) (hS.subnets r hr) current).mp
        (hfits.subnets _ (mem_modify hr))
    · intro hroom
      exact hS.modify fun r hr hp => ⟨hS.adjacencies r hr,
        (DynArray.push_fits_iff (hsized.subnets r hr) (hS.subnets r hr) current).mpr (hroom r hr hp)⟩
  | @adjacency host conRouter T h =>
    rcases addAdjacency_eq_ok h with ⟨hhas, rfl⟩ | ⟨hhas, rfl⟩
    · refine iff_of_true hS fun hnot => ?_
      rw [hhas] at hnot
      cases hnot
    · constructor
      · rintro hfits - r hr rfl
        exact (DynArray.push_fits_iff (hsized.adjacencies r hr) (hS.adjacencies r hr) conRouter).mp
          (hfits.adjacencies _ (mem_modify hr))
      · intro hroom
        refine hS.modify fun r hr hp => ⟨?_, hS.subnets r hr⟩
        exact (DynArray.push_fits_iff (hsized.adjacencies r hr) (hS.adjacencies r hr) conRouter).mpr
          (hroom hhas r hr hp)
  | @neighbor k clock msg found i h =>
    have hi := List.mem_of_getElem? h
    have hiff := recordNeighbor_fits_iff (hsized.neighbors i hi) (hS.neighbors i hi) clock msg found
    obtain ⟨hk, -⟩ := List.getElem?_eq_some_iff.mp h
    constructor
    · intro hfits i' hi'
      rw [h, Option.some.injEq] at hi'
      subst hi'
      exact hiff.mp (hfits.neighbors _ (List.mem_set hk _))
    · intro hroom
      exact hS.setNeighbors (hiff.mpr (hroom i h))
  | other h =>
    exact iff_of_true (hS.of_addsNothing DynArray.Within.fits (fun n _ => DynArray.alloc_fits n) h)
      True.intro

end Step

/-! ## Start -/

theorem foldl_store_bufSize {α β : Type} (l : List β) (f : β → α) (a : DynArray α) :
    (l.foldl (fun a i => a.store (f i)) a).bufSize = a.bufSize := by
  induction l generalizing a with
  | nil => rfl
  | cons x l ih => exact ih (a.store (f x))

theorem foldl_store_bytes {α β : Type} (l : List β) (f : β → α) (a : DynArray α) :
    (l.foldl (fun a i => a.store (f i)) a).bytes = a.bytes := by
  induction l generalizing a with
  | nil => rfl
  | cons x l ih => exact ih (a.store (f x))

section Start

variable {sr : SrInstance} {clock : Nat → Time} {areaId : UInt32} {S₀ : PwospfSubsys}

/-- The arrays after `pwospf_init`: one subnet an interface, and nothing else. -/
theorem pwospfInit_arrays (h : pwospfInit sr clock areaId = .ok S₀) :
    ∃ r, S₀.top.network = [r] ∧ r.adjacencies = .alloc initAdjlistSize ∧
      r.subnets.size = sr.ifList.length ∧ r.subnets.bufSize = initSubnetSize ∧
      r.subnets.bytes = 8 * initSubnetSize ∧
      ∀ i ∈ S₀.interfaces, i.neighbors = .alloc defNbrBuf := by
  unfold pwospfInit at h
  cases hz : srGetInterface sr eth0Interface with
  | none =>
    rw [hz] at h
    cases h
  | some zero =>
    rw [hz] at h
    cases h
    refine ⟨_, rfl, rfl, ?_, ?_, ?_, ?_⟩
    · simp only [newRouter, if_true, DynArray.size]
      rw [foldl_store_elems]
      simp [createPwospfIfaces]
    · simp only [newRouter, if_true, foldl_store_bufSize]
      rfl
    · simp only [newRouter, if_true, foldl_store_bytes]
      rfl
    · intro i hi
      obtain ⟨s, -, rfl⟩ := List.mem_map.mp hi
      rfl

theorem pwospfInit_sized (h : pwospfInit sr clock areaId = .ok S₀) : S₀.Sized := by
  obtain ⟨r, hnet, hadj, -, hbuf, -, hnbr⟩ := pwospfInit_arrays h
  refine ⟨?_, ?_, fun i hi => ?_⟩
  · rw [hnet, List.forall_mem_singleton, hadj]
    decide
  · rw [hnet, List.forall_mem_singleton, hbuf]
    decide
  · rw [hnbr i hi]
    decide

/-- The array `pwospf_init` fills is large enough for ten interfaces. -/
theorem pwospfInit_fits_iff (h : pwospfInit sr clock areaId = .ok S₀) :
    S₀.Fits ↔ sr.ifList.length ≤ initSubnetSize := by
  obtain ⟨r, hnet, hadj, hsize, hbuf, hbytes, hnbr⟩ := pwospfInit_arrays h
  constructor
  · intro hfits
    have hle := (hfits.subnets r (by rw [hnet]; exact List.mem_singleton_self r)).size
    rwa [hsize, hbuf] at hle
  · intro hle
    refine ⟨?_, ?_, fun i hi => ?_⟩
    · rw [hnet, List.forall_mem_singleton, hadj]
      exact DynArray.alloc_fits _
    · rw [hnet, List.forall_mem_singleton]
      exact ⟨by rw [hbuf, hbytes], by rwa [hsize, hbuf]⟩
    · rw [hnbr i hi]
      exact DynArray.alloc_fits _

end Start

/-! ## Events as sequences of additions -/

/-- `S'` comes from `S` by additions and by changes that add nothing. -/
def PwospfSubsys.Additions (S S' : PwospfSubsys) : Prop := ∃ past, History AddStep S past S'

namespace PwospfSubsys

variable {S S' S'' : PwospfSubsys} {T : Topo}

theorem Additions.refl (S : PwospfSubsys) : S.Additions S := ⟨[], .start⟩

theorem Additions.trans (h : S.Additions S') (h' : S'.Additions S'') : S.Additions S'' := by
  obtain ⟨past, h⟩ := h
  obtain ⟨past', h'⟩ := h'
  exact ⟨_, h.trans h'⟩

theorem AddsNothing.additions (h : S.AddsNothing S') : S.Additions S' := ⟨_, .single (.other h)⟩

theorem addsNothing_of_top (h : S.top.AddsNothing T) (ft : List FtableEntry) :
    S.AddsNothing { S with top := T, fwrdTable := ft } :=
  ⟨h, fun i hi => ⟨i, hi, .refl _⟩⟩

theorem additions_of_top (h : Topo.Additions S.top T) : S.Additions { S with top := T } := by
  induction h with
  | refl => exact .refl S
  | tail _ hstep ih =>
    refine ih.trans ?_
    cases hstep with
    | route current host h => exact ⟨_, .single (.route h)⟩
    | adjacency host conRouter h => exact ⟨_, .single (.adjacency h)⟩
    | other h => exact (AddsNothing.additions ⟨h, fun i hi => ⟨i, hi, .refl _⟩⟩)

end PwospfSubsys

section Events

variable {S S' : PwospfSubsys}

theorem recompute_additions (h : recompute S = .ok S') : S.Additions S' := by
  obtain ⟨⟨T, ft⟩, hrebuild, h⟩ := bind_eq_ok.mp h
  cases h
  exact (PwospfSubsys.addsNothing_of_top (rebuild_addsNothing hrebuild) ft).additions

theorem addToTop_additions {clock : Nat → Time} {hostRid : UInt32} {ads : List Route}
    (h : addToTop S clock hostRid ads = .ok S') : S.Additions S' := by
  obtain ⟨T, hmerge, h⟩ := bind_eq_ok.mp h
  exact (PwospfSubsys.additions_of_top (mergeAdverts_additions hmerge)).trans (recompute_additions h)

theorem checkTopInvalid_additions {clock : Nat → Time} (h : checkTopInvalid S clock = .ok S') :
    S.Additions S' := by
  obtain ⟨⟨T, changed⟩, hloop, h⟩ := bind_eq_ok.mp h
  have hT := PwospfSubsys.additions_of_top (expiryLoop_addsNothing hloop).additions
  cases changed with
  | true => exact hT.trans (recompute_additions h)
  | false =>
    cases h
    exact hT

theorem setSequence_additions (S : PwospfSubsys) (routerId : UInt32) (sequence : UInt16) :
    S.Additions (setSequence S routerId sequence) := by
  unfold setSequence
  cases adjListContains S.top routerId with
  | none => exact .refl S
  | some p =>
    apply PwospfSubsys.additions_of_top
    have hseq : AddsNothing S.top (S.top.modify p (Router.setLastSeq sequence)) :=
      .modify_fields _ p (fun _ => rfl) (fun _ => rfl) fun _ => rfl
    exact hseq.additions

theorem expireNeighbors_addsNothing {initTime : Time} {clock : Nat → Time} {n i : Nat}
    {neighbors neighbors' : DynArray NeighborList} {T T' : Topo}
    (h : expireNeighbors initTime clock n i neighbors T = .ok (neighbors', T')) :
    neighbors'.Within neighbors ∧ T.AddsNothing T' := by
  induction n generalizing clock i neighbors T with
  | zero =>
    cases h
    exact ⟨.refl _, .refl _⟩
  | succ n ih =>
    rw [expireNeighbors] at h
    cases hi : neighbors.elems[i]? with
    | none =>
      rw [hi] at h
      cases h
    | some nbr =>
      rw [hi] at h
      simp only at h
      have herase := neighbors.swapErase_within i
      by_cases hold : nbr.timenotvalid < clock 0
      · rw [if_pos hold] at h
        by_cases hlate : initTime < clock 1
        · rw [if_pos hlate] at h
          obtain ⟨this, -, h⟩ := bind_eq_ok.mp h
          obtain ⟨T₁, hlink, h⟩ := bind_eq_ok.mp h
          obtain ⟨hwithin, hT⟩ := ih h
          exact ⟨hwithin.trans herase, (removeLink_addsNothing hlink).trans hT⟩
        · rw [if_neg hlate] at h
          obtain ⟨hwithin, hT⟩ := ih h
          exact ⟨hwithin.trans herase, hT⟩
      · rw [if_neg hold] at h
        exact ih h

theorem labelSubnet_addsNothing {T T' : Topo} {msg : HelloMsg} (h : labelSubnet T msg = .ok T') :
    T.AddsNothing T' := by
  obtain ⟨this, -, h⟩ := bind_eq_ok.mp h
  simp only at h
  split at h
  · cases h
    exact .refl _
  · split at h
    · cases h
      exact setRId_addsNothing _ _ _ _
    · cases h
      exact .refl _

/-- One round of the loop of `handle_HELLO` over the interfaces, with `done` looked at before. -/
theorem helloIface_additions {clock : Nat → Time} {msg : HelloMsg} {iface iface' : PwospfIflist}
    {found found' goOn : Bool} {done rest : List PwospfIflist} {T' : Topo}
    (hifs : S.interfaces = done ++ iface :: rest)
    (h : helloIface S.initTime clock msg iface S.top found = .ok (iface', T', found', goOn)) :
    S.Additions { S with interfaces := done ++ iface' :: rest, top := T' } := by
  obtain ⟨⟨neighbors, T₁⟩, hexp, h⟩ := bind_eq_ok.mp h
  obtain ⟨hwithin, hT₁⟩ := expireNeighbors_addsNothing hexp
  let S₁ : PwospfSubsys :=
    { S with interfaces := done ++ { iface with neighbors := neighbors } :: rest, top := T₁ }
  have hexpired : S.Additions S₁ := by
    refine PwospfSubsys.AddsNothing.additions ⟨hT₁, fun i hi => ?_⟩
    rw [hifs]
    rcases List.mem_append.mp hi with hi | hi
    · exact ⟨i, List.mem_append_left _ hi, .refl _⟩
    · rcases List.mem_cons.mp hi with rfl | hi
      · exact ⟨iface, by simp, hwithin⟩
      · exact ⟨i, by simp [hi], .refl _⟩
  simp only at h
  split at h
  · cases h
    exact hexpired
  · split at h
    · cases h
      exact hexpired
    · split at h
      · cases h
      · obtain ⟨T₂, hlabel, h⟩ := bind_eq_ok.mp h
        cases h
        have hk : S₁.interfaces[done.length]? = some { iface with neighbors := neighbors } := by
          simp [S₁]
        let record :=
          (recordNeighbor (later (2 * iface.neighbors.size) clock) msg found neighbors).1
        let S₂ : PwospfSubsys :=
          { S with interfaces := done ++ { iface with neighbors := record } :: rest, top := T₁ }
        have hset : S₁.setNeighbors done.length { iface with neighbors := neighbors } record = S₂ := by
          simp [PwospfSubsys.setNeighbors, S₁, S₂]
        have hrecord : AddStep S₁
            (.neighbor done.length (later (2 * iface.neighbors.size) clock) msg found) S₂ := by
          rw [← hset]
          exact .neighbor hk
        have hlabelled : S₂.Additions { S₂ with top := T' } :=
          PwospfSubsys.additions_of_top (labelSubnet_addsNothing hlabel).additions
        exact hexpired.trans (.trans ⟨_, .single hrecord⟩ hlabelled)

theorem helloLoop_additions {clock : Nat → Time} {msg : HelloMsg} {found : Bool}
    {done interfaces interfaces' : List PwospfIflist} {T' : Topo}
    (hifs : S.interfaces = done ++ interfaces)
    (h : helloLoop S.initTime msg clock found interfaces S.top = .ok (interfaces', T')) :
    S.Additions { S with interfaces := done ++ interfaces', top := T' } := by
  induction interfaces generalizing S clock found done interfaces' T' with
  | nil =>
    cases h
    rw [← hifs]
    exact .refl S
  | cons iface rest ih =>
    obtain ⟨⟨iface', T₁, found', goOn⟩, hiface, h⟩ := bind_eq_ok.mp h
    have hfirst := helloIface_additions hifs hiface
    cases goOn with
    | false =>
      cases h
      exact hfirst
    | true =>
      obtain ⟨⟨rest', T₂⟩, hrest, h⟩ := bind_eq_ok.mp h
      cases h
      have happ : ∀ l, done ++ iface' :: l = (done ++ [iface']) ++ l := fun l => by simp
      rw [happ] at hfirst ⊢
      exact hfirst.trans (ih rfl hrest)

theorem Event.run_additions {e : Event} (h : e.run S = .ok S') : S.Additions S' := by
  cases e with
  | lsu clock hostRid ads => exact addToTop_additions h
  | seq routerId lastSeq =>
    cases h
    exact setSequence_additions S routerId lastSeq
  | hello clock msg =>
    rw [Event.run, handleHello] at h
    split at h
    · cases h
      exact .refl _
    · obtain ⟨⟨interfaces, T⟩, hloop, h⟩ := bind_eq_ok.mp h
      cases h
      exact helloLoop_additions (S := S) (List.nil_append _).symm hloop
  | timeout clock => exact checkTopInvalid_additions h

theorem reach_additions {S₀ : PwospfSubsys} (h : Reach Step (fun _ _ => True) S₀ S) :
    S₀.Additions S := by
  induction h with
  | start => exact .refl S₀
  | next _ _ hstep ih => exact ih.trans (Event.run_additions hstep.2)

end Events

/-! ## Whole runs -/

/-- In a run of additions from the start state every array stays within its allocation exactly if
there were at most ten interfaces and nothing was ever added to a full array; and what the handlers
do is such a run. -/
theorem arrays_fit_iff {sr : SrInstance} {clock : Nat → Time} {areaId : UInt32} {S₀ : PwospfSubsys}
    (h₀ : pwospfInit sr clock areaId = .ok S₀) :
    (∀ past S, History AddStep S₀ past S →
      (((∀ x ∈ past, x.1.Fits) ∧ S.Fits) ↔
        sr.ifList.length ≤ initSubnetSize ∧ ∀ x ∈ past, x.2.Room x.1)) ∧
      ∀ S, Reach Step (fun _ _ => True) S₀ S → ∃ past, History AddStep S₀ past S := by
  refine ⟨fun past S h => ?_, fun S => reach_additions⟩
  rw [← pwospfInit_fits_iff h₀]
  exact h.always_iff (pwospfInit_sized h₀) (fun _ _ _ => AddStep.sized) fun _ _ _ => AddStep.fits_iff

/-- A HELLO over `eth0` from the neighbor with the given id and address. -/
def neighborHello (rid : UInt32) (ipSrc : InAddr) : HelloMsg :=
  ⟨32, eth0Interface, 0xfffffffe, 0x0500, rid, ipSrc⟩

/-- Two neighbors of `eth0` and then a static route. -/
theorem arrays_fit_demo : ∃ past S, History AddStep demoStart past S ∧ past.length = 3 ∧ S.Fits := by
  have hfirst : History AddStep demoStart
      [(demoStart, .neighbor 0 (fun _ => 1) (neighborHello 7 0x0000000a) false)] _ :=
    .single (.neighbor rfl)
  have hsecond := hfirst.next (@AddStep.neighbor _ 0 (fun _ => 2) (neighborHello 8 0x0200000a) false _ rfl)
  have hthird := hsecond.next (@AddStep.route _ ⟨0x0001000a, 0x00ffffff, 0, 0⟩ 0 _ rfl)
  refine ⟨_, _, hthird, rfl, ?_⟩
  refine (((arrays_fit_iff demoStart_init).1 _ _ hthird).mpr ⟨by decide, ?_⟩).2
  intro x hx
  simp only [List.mem_append, List.mem_singleton] at hx
  rcases hx with (rfl | rfl) | rfl
  · intro i hi
    cases hi
    decide
  · intro i hi
    cases hi
    decide
  · intro r hr hrouter
    obtain rfl := List.mem_singleton.mp hr
    decide

/-- The sixth neighbor of an interface makes its array grow to ten entries in ten bytes. -/
theorem arrays_fit_false :
    ¬ ∀ (sr : SrInstance) (clock : Nat → Time) (areaId : UInt32) (S₀ : PwospfSubsys),
      pwospfInit sr clock areaId = .ok S₀ →
        ∀ past S, History AddStep S₀ past S → S.Fits := by
  intro h
  have hgrown : (runAll Event.run (fun S e => decide (e.Admitted S))
      ([1, 2, 3, 4, 5, 6].map fun k => .hello (fun _ => 1) (neighborHello k k)) demoStart).map
        (fun S => S.interfaces.map fun i => (i.neighbors.bufSize, i.neighbors.bytes)) =
      some [(10, 10)] := by decide
  obtain ⟨S, hrun, hsizes⟩ := Option.map_eq_some_iff.mp hgrown
  have hS : Reach Step (fun _ _ => True) demoStart S :=
    reach_of_runAll (fun S e h => ⟨by simpa using h, True.intro⟩) hrun
  obtain ⟨past, hpast⟩ := reach_additions hS
  have hfits := h demoSr _ 0 demoStart demoStart_init past S hpast
  obtain ⟨i, hi, hsize⟩ := List.mem_map.mp (hsizes ▸ List.mem_singleton_self (10, 10))
  rw [Prod.mk.injEq] at hsize
  have hbytes := (hfits.neighbors i hi).bytes
  omega

end PWOSPF
