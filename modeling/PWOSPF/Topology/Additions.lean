import PWOSPF.Framework.History
import PWOSPF.Topology.Advert
import PWOSPF.Topology.Expiry
import PWOSPF.Topology.Routes

/-!
# Additions to the arrays of the routers

Everything that is done to the link-state database is a sequence of three kinds of steps: a call of
`add_new_route`, the block of `add_to_existing_router` that adds an adjacency, and changes after
which no array holds more entries than before and none was allocated anew, except for the arrays of
a new router.
-/

namespace PWOSPF

open Framework Topo

namespace DynArray

variable {α : Type}

/-- The same allocation with as many entries or fewer. -/
structure Within (a' a : DynArray α) : Prop where
  bufSize : a'.bufSize = a.bufSize
  bytes : a'.bytes = a.bytes
  size : a'.size ≤ a.size

theorem Within.refl (a : DynArray α) : a.Within a := ⟨rfl, rfl, Nat.le_refl _⟩

theorem Within.trans {a a' a'' : DynArray α} (h : a''.Within a') (h' : a'.Within a) :
    a''.Within a :=
  ⟨h.bufSize.trans h'.bufSize, h.bytes.trans h'.bytes, Nat.le_trans h.size h'.size⟩

theorem swapErase_within (a : DynArray α) (i : Nat) : (a.swapErase i).Within a := by
  refine ⟨rfl, rfl, ?_⟩
  simp only [size, swapErase, Framework.swapErase]
  split
  · exact Nat.le_refl _
  · simp only [List.length_dropLast, List.length_set]
    omega

theorem swapEraseP_within (p : α → Bool) (a : DynArray α) : (a.swapEraseP p).Within a := by
  cases hi : a.elems.findIdx? p with
  | none =>
    have : a.swapEraseP p = a := by simp [swapEraseP, Framework.swapEraseP, hi]
    rw [this]
    exact .refl a
  | some i =>
    have : a.swapEraseP p = a.swapErase i := by simp [swapEraseP, swapErase, Framework.swapEraseP, hi]
    rw [this]
    exact swapErase_within a i

theorem modify_within (a : DynArray α) (i : Nat) (f : α → α) : (a.modify i f).Within a :=
  ⟨rfl, rfl, by simp [size]⟩

end DynArray

structure Router.Within (r' r : Router) : Prop where
  adjacencies : r'.adjacencies.Within r.adjacencies
  subnets : r'.subnets.Within r.subnets

theorem Router.Within.refl (r : Router) : r.Within r := ⟨.refl _, .refl _⟩

theorem Router.Within.trans {r r' r'' : Router} (h : r''.Within r') (h' : r'.Within r) :
    r''.Within r :=
  ⟨h.adjacencies.trans h'.adjacencies, h.subnets.trans h'.subnets⟩

namespace Topo

/-- Every router was there before and has nothing added to its arrays, or it is new. -/
def AddsNothing (T T' : Topo) : Prop :=
  ∀ r' ∈ T'.network, (∃ r ∈ T.network, r'.addr = r.addr ∧ r'.Within r) ∨
    ∃ addr rid now, r'.Within (newRouter addr rid now)

namespace AddsNothing

variable {T T' T'' : Topo}

theorem refl (T : Topo) : AddsNothing T T := fun r hr => Or.inl ⟨r, hr, rfl, .refl r⟩

theorem trans (h : AddsNothing T T') (h' : AddsNothing T' T'') : AddsNothing T T'' := by
  intro r'' hr''
  rcases h' r'' hr'' with ⟨r', hr', haddr', hwithin'⟩ | hnew
  · rcases h r' hr' with ⟨r, hr, haddr, hwithin⟩ | ⟨addr, rid, now, hwithin⟩
    · exact Or.inl ⟨r, hr, haddr'.trans haddr, hwithin'.trans hwithin⟩
    · exact Or.inr ⟨addr, rid, now, hwithin'.trans hwithin⟩
  · exact Or.inr hnew

theorem map (T : Topo) {f : Router → Router} (haddr : ∀ r, (f r).addr = r.addr)
    (hf : ∀ r, (f r).Within r) : AddsNothing T { T with network := T.network.map f } := by
  intro r' hr'
  obtain ⟨r, hr, rfl⟩ := List.mem_map.mp hr'
  exact Or.inl ⟨r, hr, haddr r, hf r⟩

theorem modify (T : Topo) (p : Ptr) {f : Router → Router} (haddr : ∀ r, (f r).addr = r.addr)
    (hf : ∀ r, (f r).Within r) : AddsNothing T (T.modify p f) := by
  apply map T
  · intro r
    split
    exacts [haddr r, rfl]
  · intro r
    split
    exacts [hf r, .refl r]

/-- Fields outside the arrays. -/
theorem modify_fields (T : Topo) (p : Ptr) {f : Router → Router} (haddr : ∀ r, (f r).addr = r.addr)
    (hadj : ∀ r, (f r).adjacencies = r.adjacencies) (hsub : ∀ r, (f r).subnets = r.subnets) :
    AddsNothing T (T.modify p f) :=
  modify T p haddr fun r => ⟨by rw [hadj]; exact .refl _, by rw [hsub]; exact .refl _⟩

end AddsNothing

/-- One addition, or a change that adds nothing. -/
inductive AddStep (T T' : Topo) : Prop
  | route (current : Route) (host : Ptr) (h : addNewRoute T current host = .ok T')
  | adjacency (host conRouter : Ptr) (h : addAdjacency T host conRouter = .ok T')
  | other (h : AddsNothing T T')

/-- Any number of such steps. -/
abbrev Additions : Topo → Topo → Prop := Relation.ReflTransGen AddStep

theorem AddsNothing.additions {T T' : Topo} (h : AddsNothing T T') : Additions T T' :=
  .single (.other h)

end Topo

section Removals

variable {T T' : Topo}

theorem removeRtSnUsingId_addsNothing {rt : Ptr} {id : UInt32}
    (h : removeRtSnUsingId T rt id = .ok T') : AddsNothing T T' := by
  obtain ⟨r, -, h⟩ := bind_eq_ok.mp h
  cases h
  exact .modify T rt (fun _ => rfl) fun r => ⟨.refl _, DynArray.swapEraseP_within _ _⟩

theorem removeRtAdjUsingId_addsNothing {host : Ptr} {id : UInt32}
    (h : removeRtAdjUsingId T host id = .ok T') : AddsNothing T T' := by
  obtain ⟨r, -, h⟩ := bind_eq_ok.mp h
  obtain ⟨i, -, h⟩ := bind_eq_ok.mp h
  cases i with
  | none =>
    cases h
    exact .refl T
  | some i =>
    cases h
    exact .modify T host (fun _ => rfl) fun r => ⟨DynArray.swapErase_within _ _, .refl _⟩

theorem removeSubnetFromRouter_addsNothing {rt : Ptr} {subnet : Route}
    (h : removeSubnetFromRouter T rt subnet = .ok T') : AddsNothing T T' := by
  obtain ⟨r, -, h⟩ := bind_eq_ok.mp h
  have hdrop : AddsNothing T (T.modify rt (Router.dropSubnet fun s => routeCmp s subnet = 0)) :=
    .modify T rt (fun _ => rfl) fun r => ⟨.refl _, DynArray.swapEraseP_within _ _⟩
  simp only at h
  by_cases h0 : subnet.rId ≠ 0
  · rw [if_pos h0] at h
    exact hdrop.trans (removeRtAdjUsingId_addsNothing h)
  · rw [if_neg h0] at h
    cases h
    exact hdrop

theorem removeLink_addsNothing {host : Ptr} {hostRid id : UInt32}
    (h : removeLink T host hostRid id = .ok T') : AddsNothing T T' := by
  obtain ⟨T₁, h₁, h⟩ := bind_eq_ok.mp h
  have hT₁ := removeRtSnUsingId_addsNothing h₁
  cases hn : adjListContains T id with
  | none =>
    rw [hn] at h
    cases h
    exact hT₁
  | some n =>
    rw [hn] at h
    obtain ⟨T₂, h₂, h⟩ := bind_eq_ok.mp h
    obtain ⟨T₃, h₃, h⟩ := bind_eq_ok.mp h
    obtain ⟨r, -, h⟩ := bind_eq_ok.mp h
    exact hT₁.trans ((removeRtSnUsingId_addsNothing h₂).trans
      ((removeRtAdjUsingId_addsNothing h₃).trans (removeRtAdjUsingId_addsNothing h)))

theorem removeEverywhere_addsNothing {id : UInt32} {ps : List Ptr}
    (h : removeEverywhere id ps T = .ok T') : AddsNothing T T' := by
  induction ps generalizing T with
  | nil =>
    cases h
    exact .refl _
  | cons p ps ih =>
    obtain ⟨T₁, h₁, h⟩ := bind_eq_ok.mp h
    obtain ⟨T₂, h₂, h⟩ := bind_eq_ok.mp h
    exact (removeRtSnUsingId_addsNothing h₁).trans ((removeRtAdjUsingId_addsNothing h₂).trans (ih h))

theorem removeFromTopo_addsNothing {rt : Ptr} (h : removeFromTopo T rt = .ok T') :
    AddsNothing T T' := by
  obtain ⟨r, -, h⟩ := bind_eq_ok.mp h
  have hclear : AddsNothing T (T.modify rt Router.clearSubnets) :=
    .modify T rt (fun _ => rfl) fun r => ⟨.refl _, rfl, rfl, Nat.zero_le _⟩
  exact hclear.trans (removeEverywhere_addsNothing h)

theorem expiryLoop_addsNothing {clock : Nat → Time} {ps : List Ptr} {changed changed' : Bool}
    (h : expiryLoop clock ps T changed = .ok (T', changed')) : AddsNothing T T' := by
  induction ps generalizing clock T changed with
  | nil =>
    cases h
    exact .refl _
  | cons p ps ih =>
    obtain ⟨r, -, h⟩ := bind_eq_ok.mp h
    obtain ⟨this, -, h⟩ := bind_eq_ok.mp h
    by_cases hold : r.expired ≤ clock 0 ∧ r.rid ≠ this.rid
    · rw [if_pos hold] at h
      obtain ⟨T₁, h₁, h⟩ := bind_eq_ok.mp h
      have hunlink : AddsNothing T₁ (unlinkRouter T₁ p) := by
        intro r hr
        exact Or.inl ⟨r, List.mem_of_mem_filter hr, rfl, .refl r⟩
      exact (removeFromTopo_addsNothing h₁).trans (hunlink.trans (ih h))
    · rw [if_neg hold] at h
      exact ih h

end Removals

section Merging

variable {T T' : Topo}

theorem setRId_addsNothing (T : Topo) (p : Ptr) (pfix : InAddr) (rId : UInt32) :
    AddsNothing T (T.modify p (Router.setRId pfix rId)) :=
  .modify T p (fun _ => rfl) fun _ => ⟨.refl _, DynArray.modify_within _ _ _⟩

theorem recordAtHost_additions {host : Ptr} {ad : Route} {goOn : Bool}
    (h : recordAtHost T host ad = .ok (T', goOn)) : Additions T T' := by
  obtain ⟨r, -, h⟩ := bind_eq_ok.mp h
  by_cases hc : routerContains ad r
  · rw [if_pos hc] at h
    cases h
    exact .refl
  · rw [if_neg hc] at h
    cases hold : routerContainsSubnet r ad.pfix with
    | none =>
      rw [hold] at h
      obtain ⟨T₁, h₁, h⟩ := bind_eq_ok.mp h
      cases h
      exact .single (.route ad host h₁)
    | some old =>
      rw [hold] at h
      by_cases hbeside : ad.mask ≠ old.mask ∧ (ad.rId = 0 ∨ old.rId = 0)
      · simp only [if_pos hbeside] at h
        obtain ⟨T₁, h₁, h⟩ := bind_eq_ok.mp h
        cases h
        exact .single (.route ad host h₁)
      · simp only [if_neg hbeside] at h
        by_cases h0 : old.rId = 0
        · rw [if_pos h0] at h
          cases h
          exact (setRId_addsNothing T host ad.pfix ad.rId).additions
        · rw [if_neg h0] at h
          obtain ⟨T₁, h₁, h⟩ := bind_eq_ok.mp h
          cases h
          exact (removeSubnetFromRouter_addsNothing h₁).additions

theorem recordAtPeer_additions {conRouter : Ptr} {oppRoute : Route}
    (h : recordAtPeer T conRouter oppRoute = .ok T') : Additions T T' := by
  obtain ⟨r, -, h⟩ := bind_eq_ok.mp h
  by_cases hc : routerContains oppRoute r
  · rw [if_pos hc] at h
    cases h
    exact .refl
  · rw [if_neg hc] at h
    cases hold : routerContainsSubnet r oppRoute.pfix with
    | none =>
      rw [hold] at h
      exact .single (.route oppRoute conRouter h)
    | some old =>
      rw [hold] at h
      by_cases h0 : old.rId = 0
      · simp only [if_pos h0] at h
        cases h
        exact (setRId_addsNothing T conRouter oppRoute.pfix oppRoute.rId).additions
      · simp only [if_neg h0] at h
        exact (removeSubnetFromRouter_addsNothing h).additions

theorem conRouterOf_addsNothing (T : Topo) (id : UInt32) (now : Time) :
    AddsNothing T (conRouterOf T id now).1 := by
  unfold conRouterOf
  cases adjListContains T id with
  | some p => exact .refl T
  | none =>
    intro r hr
    rcases List.mem_append.mp hr with hr | hr
    · exact Or.inl ⟨r, hr, rfl, .refl r⟩
    · rw [List.mem_singleton] at hr
      subst hr
      exact Or.inr ⟨_, _, _, .refl _⟩

theorem addAdvert_additions {host : Ptr} {ad : Route} {now : Time}
    (h : addAdvert T host ad now = .ok T') : Additions T T' := by
  obtain ⟨⟨T₁, goOn⟩, h₁, h⟩ := bind_eq_ok.mp h
  have hhost := recordAtHost_additions h₁
  by_cases hgo : goOn ∧ ad.rId ≠ 0
  · simp only [if_pos hgo] at h
    obtain ⟨T₃, h₃, h⟩ := bind_eq_ok.mp h
    obtain ⟨T₄, h₄, h⟩ := bind_eq_ok.mp h
    obtain ⟨r, -, h⟩ := bind_eq_ok.mp h
    calc
      Additions T T₁ := hhost
      Additions _ (conRouterOf T₁ ad.rId now).1 :=
        (conRouterOf_addsNothing T₁ ad.rId now).additions
      Additions _ T₃ := .single (.adjacency _ _ h₃)
      Additions _ T₄ := .single (.adjacency _ _ h₄)
      Additions _ T' := recordAtPeer_additions h
  · simp only [if_neg hgo] at h
    cases h
    exact hhost

theorem addAdverts_additions {host : Ptr} {clock : Nat → Time} {ads : List Route}
    (h : addAdverts host clock ads T = .ok T') : Additions T T' := by
  induction ads generalizing clock T with
  | nil =>
    cases h
    exact .refl
  | cons ad ads ih =>
    obtain ⟨T₁, h₁, h⟩ := bind_eq_ok.mp h
    exact (addAdvert_additions h₁).trans (ih h)

theorem pruneLoop_addsNothing {host : Ptr} {hostRid : UInt32} {ads : List Route} {fuel i : Nat}
    (h : pruneLoop host hostRid ads fuel i T = .ok T') : AddsNothing T T' := by
  induction fuel generalizing i T with
  | zero => cases h
  | succ fuel ih =>
    obtain ⟨r, -, h⟩ := bind_eq_ok.mp h
    cases hs : r.subnets.elems[i]? with
    | none =>
      rw [hs] at h
      cases h
      exact .refl _
    | some s =>
      rw [hs] at h
      by_cases hin : subInAdv ads s
      · simp only [if_pos hin] at h
        exact ih h
      · simp only [if_neg hin] at h
        obtain ⟨T₁, h₁, h⟩ := bind_eq_ok.mp h
        exact (removeLink_addsNothing h₁).trans (ih h)

theorem mergeAdverts_additions {initTime : Time} {clock : Nat → Time} {hostRid : UInt32}
    {ads : List Route} (h : mergeAdverts T initTime clock hostRid ads = .ok T') :
    Additions T T' := by
  obtain ⟨T₁, h₁, h⟩ := bind_eq_ok.mp h
  obtain ⟨r, -, h₁⟩ := bind_eq_ok.mp h₁
  have hmerged : Additions T T₁ := by
    refine .trans (conRouterOf_addsNothing T hostRid (clock 0)).additions ?_
    refine .trans (AddsNothing.modify_fields _ _ ?_ ?_ ?_).additions (addAdverts_additions h₁)
    all_goals exact fun _ => rfl
  split at h
  · obtain ⟨r', -, h⟩ := bind_eq_ok.mp h
    exact hmerged.trans (pruneLoop_addsNothing h).additions
  · cases h
    exact hmerged

end Merging

section Search

variable {T T' : Topo}

theorem relaxEdges_addsNothing {u : Ptr} {ws : List Ptr} (h : relaxEdges u ws T = .ok T') :
    AddsNothing T T' := by
  induction ws generalizing T with
  | nil =>
    cases h
    exact .refl _
  | cons w ws ih =>
    obtain ⟨T₁, h₁, h⟩ := bind_eq_ok.mp h
    refine .trans ?_ (ih h)
    obtain ⟨lu, -, h₁⟩ := bind_eq_ok.mp h₁
    obtain ⟨r, -, h₁⟩ := bind_eq_ok.mp h₁
    split at h₁
    · cases h₁
      exact .modify_fields T w (fun _ => rfl) (fun _ => rfl) fun _ => rfl
    · cases h₁
      exact .refl _

theorem dijkstraLoop_addsNothing {fuel : Nat} (h : dijkstraLoop fuel T = .ok T') :
    AddsNothing T T' := by
  induction fuel generalizing T with
  | zero => cases h
  | succ fuel ih =>
    obtain ⟨u, -, h⟩ := bind_eq_ok.mp h
    cases u with
    | none =>
      cases h
      exact .refl _
    | some u =>
      obtain ⟨lu, -, h⟩ := bind_eq_ok.mp h
      obtain ⟨T₁, h₁, h⟩ := bind_eq_ok.mp h
      have hknown : AddsNothing T (T.modify u Router.setKnown) :=
        .modify_fields T u (fun _ => rfl) (fun _ => rfl) fun _ => rfl
      exact hknown.trans ((relaxEdges_addsNothing h₁).trans (ih h))

theorem dijkstra_addsNothing (h : dijkstra T = .ok T') : AddsNothing T T' := by
  obtain ⟨r, -, h⟩ := bind_eq_ok.mp h
  have hreset : AddsNothing T (resetNetwork T) := .map T (fun _ => rfl) fun _ => ⟨.refl _, .refl _⟩
  refine hreset.trans (.trans ?_ (dijkstraLoop_addsNothing h))
  exact .modify_fields _ _ (fun _ => rfl) (fun _ => rfl) fun _ => rfl

theorem rebuild_addsNothing {interfaces : List PwospfIflist} {ft : List FtableEntry}
    (h : rebuild T interfaces = .ok (T', ft)) : AddsNothing T T' := by
  obtain ⟨T₁, h₁, h⟩ := bind_eq_ok.mp h
  obtain ⟨x, -, h⟩ := bind_eq_ok.mp h
  cases h
  exact dijkstra_addsNothing h₁

end Search

end PWOSPF
