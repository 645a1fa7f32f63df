import PWOSPF.Framework.HopDistance
import PWOSPF.Topology.WellFormed
import Mathlib.Data.Finset.Card
import Mathlib.Data.Finset.Range
import Mathlib.Data.Finset.Image

/-!
# Shortest paths

`dijkstra`, `get_smallest_unknown` and `find_next_hop`. The labels stored in the routers follow
the label-setting search of `Framework.HopDistance`, so that after `dijkstra` they are the hop
distances from this router, and the chain of `prev` pointers is a shortest path.
-/

namespace PWOSPF

open Framework Topo

/-- The loop of `getSmallestUnknown`. A branch that takes a new minimum does not move on: the same
router is looked at once more. -/
def smallestUnknownLoop : Nat → List Router → Int → Option Ptr → Exec (Option Ptr)
  | 0, _, _, _ => .error .outOfFuel
  | _ + 1, [], _, leastUnknown => .ok leastUnknown
  | fuel + 1, r :: rs, minDist, leastUnknown =>
    if r.known then smallestUnknownLoop fuel rs minDist leastUnknown
    else if r.dist < 0 then smallestUnknownLoop fuel rs minDist leastUnknown
    else if minDist > r.dist then smallestUnknownLoop fuel (r :: rs) r.dist (some r.addr)
    else if minDist < 0 then smallestUnknownLoop fuel (r :: rs) r.dist (some r.addr)
    else smallestUnknownLoop fuel rs minDist leastUnknown

def getSmallestUnknown (network : List Router) : Exec (Option Ptr) :=
  smallestUnknownLoop (2 * network.length + 1) network (-1) none

def Router.resetLabels (r : Router) : Router := { r with known := false, dist := -1, prev := none }
def Router.setDist (d : Int) (r : Router) : Router := { r with dist := d }
def Router.setKnown (r : Router) : Router := { r with known := true }
def Router.setLabel (d : Int) (u : Ptr) (r : Router) : Router := { r with dist := d, prev := some u }

def resetNetwork (T : Topo) : Topo := { T with network := T.network.map Router.resetLabels }

/-- The body of the loop over the adjacencies of the router `leastUnknown`. -/
def relaxEdge (leastUnknown : Ptr) (T : Topo) (w : Ptr) : Exec Topo := do
  let lu ← T.deref leastUnknown
  let r ← T.deref w
  if r.known = false ∧ (lu.dist + 1 < r.dist ∨ r.dist < 0) then
    return T.modify w (Router.setLabel (lu.dist + 1) leastUnknown)
  else return T

def relaxEdges (leastUnknown : Ptr) : List Ptr → Topo → Exec Topo
  | [], T => .ok T
  | w :: ws, T => do relaxEdges leastUnknown ws (← relaxEdge leastUnknown T w)

def dijkstraLoop : Nat → Topo → Exec Topo
  | 0, _ => .error .outOfFuel
  | fuel + 1, T => do
    match ← getSmallestUnknown T.network with
    | none => return T
    | some u =>
      let T := T.modify u Router.setKnown
      let lu ← T.deref u
      dijkstraLoop fuel (← relaxEdges u lu.adjacencies.elems T)

def dijkstra (T : Topo) : Exec Topo := do
  let T := resetNetwork T
  let _ ← T.deref T.thisRouter
  dijkstraLoop (T.network.length + 1) (T.modify T.thisRouter (Router.setDist 0))

/-- Follow `prev` up to the router whose predecessor is this router, or to the end. -/
def walkPrev (T : Topo) (thisRid : UInt32) : Nat → Int → Router → Exec (Router × Int)
  | 0, _, _ => .error .outOfFuel
  | fuel + 1, numhops, cur =>
    match cur.prev with
    | none => .ok (cur, numhops)
    | some p => do
      let r ← T.deref p
      if r.rid ≠ thisRid then walkPrev T thisRid fuel (numhops + 1) r else return (cur, numhops)

/-- The first router on the way to `dest` and the number of hops. -/
def findNextHop (T : Topo) (dest : Router) : Exec (Option Router × Int) := do
  let this ← T.deref T.thisRouter
  if dest.rid = this.rid then return (none, 0)
  let (cur, numhops) ← walkPrev T this.rid (T.network.length + 1) 1 dest
  match cur.prev with
  | none => return (none, -1)
  | some _ => return (some cur, numhops)

/-! ## Labels -/

/-- A router without the labels of the last search. -/
def Router.unlabelled (r : Router) : Router := r.resetLabels

namespace Topo

/-- The graph the search runs on. -/
abbrev Edge (T : Topo) (a b : Ptr) : Prop := b ∈ T.adj a

theorem SameLinks.edge {T T' : Topo} (h : SameLinks T T') : T'.Edge = T.Edge := by
  funext a b
  rw [Edge, Edge, h.adj]

/-- The same routers up to the labels of the last search. -/
abbrev SameRecords (T T' : Topo) : Prop := Agree Router.unlabelled T T'

theorem SameRecords.sameLinks {T T' : Topo} (h : SameRecords T T') : SameLinks T T' :=
  ⟨h.map_eq _ fun _ => rfl, h.thisRouter, h.nextAddr⟩

def labels (T : Topo) : Labels Ptr where
  known p := ((T.find p).map Router.known).getD false
  dist p := ((T.find p).map Router.dist).getD (-1)
  prev p := (T.find p).bind Router.prev

variable {T : Topo} {p : Ptr} {r : Router}

theorem known_of_find (h : T.find p = some r) : T.labels.known p = r.known := by simp [labels, h]
theorem dist_of_find (h : T.find p = some r) : T.labels.dist p = r.dist := by simp [labels, h]
theorem prev_of_find (h : T.find p = some r) : T.labels.prev p = r.prev := by simp [labels, h]

theorem labels_modify (hr : T.find p = some r) (f : Router → Router)
    (hf : ∀ r, (f r).addr = r.addr) :
    (T.modify p f).labels =
      ⟨Function.update T.labels.known p (f r).known, Function.update T.labels.dist p (f r).dist,
        Function.update T.labels.prev p (f r).prev⟩ := by
  have hfind := fun q => find_modify T p q f hf
  simp only [labels, Labels.mk.injEq]
  refine ⟨?_, ?_, ?_⟩ <;> funext q <;> by_cases hq : q = p
  · subst hq; simp [hfind, hr]
  · simp [hfind, hq]
  · subst hq; simp [hfind, hr]
  · simp [hfind, hq]
  · subst hq; simp [hfind, hr]
  · simp [hfind, hq]

end Topo

/-! ## Choosing the next router -/

/-- The loop ends with what it had, or with an unsettled router of the list that is nearer. -/
def Smallest (l : List Router) (minDist : Int) (least res : Option Ptr) : Prop :=
  (res = least ∧ ∀ r ∈ l, r.known = false → 0 ≤ r.dist → 0 ≤ minDist ∧ minDist ≤ r.dist) ∨
    ∃ r ∈ l, res = some r.addr ∧ r.known = false ∧ 0 ≤ r.dist ∧
      (0 ≤ minDist → r.dist < minDist) ∧
      ∀ x ∈ l, x.known = false → 0 ≤ x.dist → r.dist ≤ x.dist

section Loop

variable {r : Router} {l : List Router} {minDist : Int} {least res : Option Ptr}

/-- A router that is not nearer than what the loop has. -/
theorem Smallest.pass (h : Smallest l minDist least res)
    (hr : r.known = false → 0 ≤ r.dist → 0 ≤ minDist ∧ minDist ≤ r.dist) :
    Smallest (r :: l) minDist least res := by
  rcases h with ⟨heq, hall⟩ | ⟨x, hx, heq, hk, h0, hlt, hall⟩
  · exact Or.inl ⟨heq, List.forall_mem_cons.mpr ⟨hr, hall⟩⟩
  · refine Or.inr ⟨x, List.mem_cons_of_mem _ hx, heq, hk, h0, hlt, List.forall_mem_cons.mpr ⟨?_, hall⟩⟩
    intro hkr h0r
    obtain ⟨hmin, hle⟩ := hr hkr h0r
    exact Int.le_trans (Int.le_of_lt (hlt hmin)) hle

theorem Smallest.take (h : Smallest l r.dist (some r.addr) res) (hk : r.known = false)
    (h0 : 0 ≤ r.dist) (hless : r.dist < minDist ∨ minDist < 0) :
    Smallest (r :: l) minDist least res := by
  right
  rcases h with ⟨heq, hall⟩ | ⟨x, hx, heq, hkx, h0x, hlt, hall⟩
  · refine ⟨r, List.mem_cons_self, heq, hk, h0, by omega, List.forall_mem_cons.mpr ⟨?_, ?_⟩⟩
    · exact fun _ _ => Int.le_refl _
    · exact fun y hy hky h0y => (hall y hy hky h0y).2
  · have hnear := hlt h0
    refine ⟨x, List.mem_cons_of_mem _ hx, heq, hkx, h0x, by omega, List.forall_mem_cons.mpr ⟨?_, hall⟩⟩
    exact fun _ _ => Int.le_of_lt hnear

theorem smallestUnknownLoop_pass (fuel : Nat)
    (hr : r.known = false → 0 ≤ r.dist → 0 ≤ minDist ∧ minDist ≤ r.dist) :
    smallestUnknownLoop (fuel + 1) (r :: l) minDist least =
      smallestUnknownLoop fuel l minDist least := by
  rw [smallestUnknownLoop]
  by_cases hk : r.known = true
  · rw [if_pos hk]
  · rw [if_neg hk]
    by_cases h0 : r.dist < 0
    · rw [if_pos h0]
    · obtain ⟨hmin, hle⟩ := hr (Bool.not_eq_true _ ▸ hk) (Int.not_lt.mp h0)
      rw [if_neg h0, if_neg (Int.not_lt.mpr hle), if_neg (Int.not_lt.mpr hmin)]

/-- A router that is taken is looked at again, and then passed. -/
theorem smallestUnknownLoop_take (fuel : Nat) (hk : r.known = false) (h0 : 0 ≤ r.dist)
    (hless : r.dist < minDist ∨ minDist < 0) :
    smallestUnknownLoop (fuel + 1 + 1) (r :: l) minDist least =
      smallestUnknownLoop fuel l r.dist (some r.addr) := by
  have hagain : smallestUnknownLoop (fuel + 1) (r :: l) r.dist (some r.addr) =
      smallestUnknownLoop fuel l r.dist (some r.addr) :=
    smallestUnknownLoop_pass fuel fun _ h0 => ⟨h0, Int.le_refl _⟩
  rw [smallestUnknownLoop, if_neg (by rw [hk]; decide), if_neg (Int.not_lt.mpr h0), hagain]
  cases hless with
  | inl hlt => rw [if_pos hlt]
  | inr hneg => rw [if_pos hneg, ite_self]

theorem smallestUnknownLoop_spec (l : List Router) (fuel : Nat) (hfuel : 2 * l.length < fuel)
    (minDist : Int) (least : Option Ptr) :
    ∃ res, smallestUnknownLoop fuel l minDist least = .ok res ∧ Smallest l minDist least res := by
  induction l generalizing fuel minDist least with
  | nil =>
    obtain ⟨fuel, rfl⟩ := Nat.exists_eq_succ_of_ne_zero (Nat.ne_zero_of_lt hfuel)
    exact ⟨least, rfl, Or.inl ⟨rfl, fun _ hr => absurd hr List.not_mem_nil⟩⟩
  | cons r l ih =>
    rw [List.length_cons] at hfuel
    obtain ⟨fuel, rfl⟩ : ∃ k, fuel = k + 1 + 1 := ⟨fuel - 2, by omega⟩
    by_cases htake : r.known = false ∧ 0 ≤ r.dist ∧ (r.dist < minDist ∨ minDist < 0)
    · obtain ⟨hk, h0, hless⟩ := htake
      obtain ⟨res, hres, hsmallest⟩ := ih fuel (by omega) r.dist (some r.addr)
      exact ⟨res, (smallestUnknownLoop_take fuel hk h0 hless).trans hres, hsmallest.take hk h0 hless⟩
    · have hpass : r.known = false → 0 ≤ r.dist → 0 ≤ minDist ∧ minDist ≤ r.dist := by
        intro hk h0
        have hless := not_and.mp (not_and.mp htake hk) h0
        omega
      obtain ⟨res, hres, hsmallest⟩ := ih (fuel + 1) (by omega) minDist least
      exact ⟨res, (smallestUnknownLoop_pass (fuel + 1) hpass).trans hres, hsmallest.pass hpass⟩

end Loop

/-- The choice is a nearest router among the reached and unsettled ones. -/
theorem getSmallestUnknown_spec {T : Topo} (hT : T.addrs.Nodup) :
    (getSmallestUnknown T.network = .ok none ∧
        ∀ v, 0 ≤ T.labels.dist v → T.labels.known v = true) ∨
      ∃ u r, getSmallestUnknown T.network = .ok (some u) ∧ T.find u = some r ∧
        r.known = false ∧ 0 ≤ r.dist ∧
        ∀ w, T.labels.known w = false → 0 ≤ T.labels.dist w → r.dist ≤ T.labels.dist w := by
  obtain ⟨res, hres, hcase⟩ := smallestUnknownLoop_spec T.network (2 * T.network.length + 1)
    (Nat.lt_succ_self _) (-1) none
  have hlabel : ∀ v, 0 ≤ T.labels.dist v → ∃ r ∈ T.network, T.labels.known v = r.known ∧
      T.labels.dist v = r.dist := by
    intro v hv
    cases hf : T.find v with
    | none => simp [labels, hf] at hv
    | some r => exact ⟨r, find_mem hf, known_of_find hf, dist_of_find hf⟩
  rcases hcase with ⟨heq, hall⟩ | ⟨r, hr, heq, hk, h0, -, hall⟩
  · refine Or.inl ⟨by rw [getSmallestUnknown, hres, heq], ?_⟩
    intro v hv
    obtain ⟨r, hr, hkn, hd⟩ := hlabel v hv
    by_contra hne
    have := (hall r hr (by rw [← hkn]; simpa using hne) (by omega)).1
    omega
  · refine Or.inr ⟨r.addr, r, by rw [getSmallestUnknown, hres, heq], find_of_mem hT hr, hk, h0, ?_⟩
    intro w hw hdw
    obtain ⟨x, hx, hkn, hd⟩ := hlabel w hdw
    rw [hd]
    exact hall x hx (by rw [← hkn, hw]) (by omega)

/-! ## Settling and relaxing -/

section Search

variable {T : Topo}

theorem relaxEdge_spec {u w : Ptr} (hu : u ∈ T.addrs) (hw : w ∈ T.addrs) :
    ∃ T', relaxEdge u T w = .ok T' ∧ SameRecords T T' ∧ T'.labels = T.labels.relax u w := by
  obtain ⟨lu, hlu⟩ := mem_addrs_iff.mp hu
  obtain ⟨r, hr⟩ := mem_addrs_iff.mp hw
  have hcond : (T.labels.known w = false ∧
      (T.labels.dist u + 1 < T.labels.dist w ∨ T.labels.dist w < 0)) ↔
      (r.known = false ∧ (lu.dist + 1 < r.dist ∨ r.dist < 0)) := by
    rw [known_of_find hr, dist_of_find hr, dist_of_find hlu]
  by_cases hc : r.known = false ∧ (lu.dist + 1 < r.dist ∨ r.dist < 0)
  · refine ⟨T.modify w (Router.setLabel (lu.dist + 1) u), ?_, modify_agree T w _ fun _ => rfl, ?_⟩
    · rw [relaxEdge, deref_of_find hlu, ok_bind, deref_of_find hr, ok_bind, if_pos hc]
      rfl
    · rw [Labels.relax, if_pos (hcond.mpr hc), labels_modify hr (Router.setLabel _ u) fun _ => rfl,
        dist_of_find hlu]
      simp only [Router.setLabel, Labels.mk.injEq, and_true]
      exact Function.update_eq_self_iff.mpr (known_of_find hr).symm
  · refine ⟨T, ?_, .refl T, ?_⟩
    · rw [relaxEdge, deref_of_find hlu, ok_bind, deref_of_find hr, ok_bind, if_neg hc]
      rfl
    · rw [Labels.relax, if_neg (fun h => hc (hcond.mp h))]

theorem relaxEdges_spec {u : Ptr} (ws : List Ptr) (hu : u ∈ T.addrs) (hws : ∀ w ∈ ws, w ∈ T.addrs) :
    ∃ T', relaxEdges u ws T = .ok T' ∧ SameRecords T T' ∧
      T'.labels = ws.foldl (fun L w => L.relax u w) T.labels := by
  induction ws generalizing T with
  | nil => exact ⟨T, rfl, .refl T, rfl⟩
  | cons w ws ih =>
    obtain ⟨T₁, hrun, hsame, hlab⟩ := relaxEdge_spec hu (hws w (by simp))
    have haddrs := hsame.sameLinks.addrs
    obtain ⟨T', hrun', hsame', hlab'⟩ := ih (T := T₁) (by rw [haddrs]; exact hu)
      (by rw [haddrs]; exact fun x hx => hws x (List.mem_cons_of_mem _ hx))
    refine ⟨T', ?_, hsame.trans hsame', ?_⟩
    · rw [relaxEdges, hrun, ok_bind, hrun']
    · rw [hlab', hlab, List.foldl_cons]

/-- The labels are those of a search over the adjacencies, with every reached router settled. -/
structure Searched (T : Topo) : Prop where
  sound : Labels.Sound T.Edge T.thisRouter T.labels (fun _ _ => False)
  done : ∀ v, 0 ≤ T.labels.dist v → T.labels.known v = true

/-- Listed routers that are not settled yet. -/
def Topo.unsettled (T : Topo) : Nat := T.network.countP fun r => !r.known

theorem unsettled_eq (hT : T.addrs.Nodup) :
    T.unsettled = T.addrs.countP fun p => !T.labels.known p := by
  rw [unsettled, addrs, List.countP_map]
  apply List.countP_congr
  intro r hr
  simp [known_of_find (find_of_mem hT hr)]

/-- A round of the loop settles the router it is for, and relaxes the edges to its neighbors. -/
theorem dijkstraRound_spec (hT : T.Linked)
    (hsound : Labels.Sound T.Edge T.thisRouter T.labels (fun _ _ => False)) {u : Ptr} {r : Router}
    (hr : T.find u = some r) (hk : r.known = false) (h0 : 0 ≤ r.dist)
    (hmin : ∀ w, T.labels.known w = false → 0 ≤ T.labels.dist w → r.dist ≤ T.labels.dist w) :
    ∃ lu T', (T.modify u Router.setKnown).deref u = .ok lu ∧
      relaxEdges u lu.adjacencies.elems (T.modify u Router.setKnown) = .ok T' ∧ SameRecords T T' ∧
      Labels.Sound T'.Edge T'.thisRouter T'.labels (fun _ _ => False) ∧
      T'.unsettled < T.unsettled := by
  have hu : u ∈ T.addrs := mem_addrs_iff.mpr ⟨r, hr⟩
  have hsame₁ : SameRecords T (T.modify u Router.setKnown) := modify_agree T u _ fun _ => rfl
  have hlab₁ : (T.modify u Router.setKnown).labels = T.labels.settle u := by
    rw [labels_modify hr Router.setKnown fun _ => rfl, Labels.settle]
    simp only [Router.setKnown, Labels.mk.injEq, true_and]
    exact ⟨Function.update_eq_self_iff.mpr (dist_of_find hr).symm,
      Function.update_eq_self_iff.mpr (prev_of_find hr).symm⟩
  have hr₁ : (T.modify u Router.setKnown).find u = some r.setKnown := by
    rw [find_modify T u u Router.setKnown fun _ => rfl, if_pos rfl, hr]
    rfl
  have hadjs : r.setKnown.adjacencies.elems = T.adj u := (adj_of_find hr).symm
  have hu₁ : u ∈ (T.modify u Router.setKnown).addrs := by rw [hsame₁.sameLinks.addrs]; exact hu
  obtain ⟨T', hrun, hsame₂, hlab⟩ := relaxEdges_spec (T.adj u) hu₁
    (by rw [hsame₁.sameLinks.addrs]; exact hT.adjListed u)
  have hsame : SameRecords T T' := Agree.trans hsame₁ hsame₂
  have hku : T.labels.known u = false := (known_of_find hr).trans hk
  rw [hlab₁] at hlab
  refine ⟨r.setKnown, T', deref_of_find hr₁, by rw [hadjs, hrun], hsame, ?_, ?_⟩
  · rw [hsame.sameLinks.edge, hsame.thisRouter, hlab]
    apply hsound.round (T.adj u) _ hku _ fun w => Iff.rfl
    · rw [dist_of_find hr]
      exact h0
    · rw [dist_of_find hr]
      exact hmin
  · rw [unsettled_eq (hT.of_sameLinks hsame.sameLinks).addrsNodup, unsettled_eq hT.addrsNodup,
      hsame.sameLinks.addrs, hlab, Labels.foldl_relax_known]
    exact Labels.countP_settle hu hku

theorem dijkstraLoop_spec (hT : T.Linked) (fuel : Nat) (hfuel : T.unsettled < fuel)
    (hsound : Labels.Sound T.Edge T.thisRouter T.labels (fun _ _ => False)) :
    ∃ T', dijkstraLoop fuel T = .ok T' ∧ SameRecords T T' ∧ Searched T' := by
  induction fuel generalizing T with
  | zero => exact absurd hfuel (Nat.not_lt_zero _)
  | succ fuel ih =>
    rcases getSmallestUnknown_spec hT.addrsNodup with ⟨hnone, hdone⟩ | ⟨u, r, hsome, hr, hk, h0, hmin⟩
    · refine ⟨T, ?_, .refl T, hsound, hdone⟩
      rw [dijkstraLoop, hnone, ok_bind]
      rfl
    · obtain ⟨lu, T₁, hlu, hrelax, hsame, hsound₁, hless⟩ := dijkstraRound_spec hT hsound hr hk h0 hmin
      obtain ⟨T', hrun, hsame', hfin⟩ := ih (hT.of_sameLinks hsame.sameLinks)
        (Nat.lt_of_lt_of_le hless (Nat.le_of_lt_succ hfuel)) hsound₁
      refine ⟨T', ?_, Agree.trans hsame hsame', hfin⟩
      rw [dijkstraLoop, hsome, ok_bind]
      simp only
      rw [hlu, ok_bind, hrelax, ok_bind, hrun]

theorem dijkstra_spec (hT : T.Linked) :
    ∃ T', dijkstra T = .ok T' ∧ SameRecords T T' ∧ Searched T' := by
  have hsame₁ : SameRecords T (resetNetwork T) := by
    refine ⟨?_, rfl, rfl⟩
    simp only [resetNetwork, List.map_map]
    rfl
  have hT₁ := hT.of_sameLinks hsame₁.sameLinks
  obtain ⟨r, hr⟩ := mem_addrs_iff.mp hT₁.thisListed
  have hsame₂ : SameRecords T ((resetNetwork T).modify (resetNetwork T).thisRouter
      (Router.setDist 0)) := Agree.trans hsame₁ (modify_agree _ _ _ fun _ => rfl)
  have hreset : (resetNetwork T).labels = ⟨fun _ => false, fun _ => -1, fun _ => none⟩ := by
    have hfind : ∀ p, (resetNetwork T).find p = (T.find p).map Router.resetLabels := by
      intro p
      simp only [resetNetwork, find, List.find?_map]
      rfl
    simp only [labels, hfind, Labels.mk.injEq]
    refine ⟨?_, ?_, ?_⟩ <;> funext p <;> cases T.find p <;> rfl
  have hlab : ((resetNetwork T).modify (resetNetwork T).thisRouter (Router.setDist 0)).labels =
      Labels.start T.thisRouter := by
    have hk := known_of_find hr
    have hp := prev_of_find hr
    rw [labels_modify hr (Router.setDist 0) fun _ => rfl]
    simp only [Router.setDist, ← hk, ← hp, hreset, Labels.start, Labels.mk.injEq]
    refine ⟨?_, rfl, ?_⟩ <;> funext q <;> simp [Function.update_apply]
  have hT₂ := hT.of_sameLinks hsame₂.sameLinks
  obtain ⟨T', hrun, hsame, hfin⟩ := dijkstraLoop_spec hT₂ ((resetNetwork T).network.length + 1)
    (by
      have : ((resetNetwork T).modify (resetNetwork T).thisRouter (Router.setDist 0)).network.length
          = (resetNetwork T).network.length := by simp [Topo.modify]
      have hle := List.countP_le_length (l := ((resetNetwork T).modify (resetNetwork T).thisRouter
        (Router.setDist 0)).network) (p := fun r => !r.known)
      rw [unsettled]
      omega)
    (by rw [hlab]; exact Labels.sound_start _ _)
  refine ⟨T', ?_, Agree.trans hsame₂ hsame, hfin⟩
  rw [dijkstra, deref_of_find hr, ok_bind, hrun]

end Search

/-! ## The next hop -/

section NextHop

variable {T : Topo}

/-- On the way from a reached router back to the source, every smaller distance occurs. -/
theorem Searched.dist_surjective (h : Searched T) (k : Nat) (v : Ptr)
    (hv : (k : Int) ≤ T.labels.dist v) : ∃ u, T.labels.dist u = k := by
  generalize hd : (T.labels.dist v).toNat = d
  induction d generalizing v with
  | zero => exact ⟨v, by omega⟩
  | succ d ih =>
    by_cases hk : T.labels.dist v = k
    · exact ⟨v, hk⟩
    · obtain ⟨u, -, -, hdist⟩ := h.sound.exists_prev (v := v) (by omega)
      exact ih u (by omega) (by omega)

/-- A distance is smaller than the number of listed routers. -/
theorem Searched.dist_lt_length (h : Searched T) (v : Ptr) :
    T.labels.dist v < T.network.length := by
  by_cases h0 : T.labels.dist v < 0
  · omega
  · have hsub : (Finset.range ((T.labels.dist v).toNat + 1)) ⊆
        T.addrs.toFinset.image fun p => (T.labels.dist p).toNat := by
      intro k hk
      rw [Finset.mem_range] at hk
      obtain ⟨u, hu⟩ := h.dist_surjective k v (by omega)
      have hlisted : u ∈ T.addrs := by
        by_contra hnot
        have hnone := find_eq_none_iff.mpr hnot
        simp only [labels, hnone, Option.map_none, Option.getD_none] at hu
        omega
      exact Finset.mem_image.mpr ⟨u, List.mem_toFinset.mpr hlisted, by omega⟩
    have hcard := Finset.card_le_card hsub
    rw [Finset.card_range] at hcard
    have him := Finset.card_image_le (s := T.addrs.toFinset)
      (f := fun p => (T.labels.dist p).toNat)
    have hlen := List.toFinset_card_le T.addrs
    have haddrs : T.addrs.length = T.network.length := by simp [addrs]
    omega

theorem walkPrev_spec (hT : T.Linked) (h : Searched T) {this : Router}
    (hthis : T.find T.thisRouter = some this) (fuel k : Nat) (hfuel : k < fuel) (hops : Int)
    {cur : Router} (hcur : T.find cur.addr = some cur) (hd : cur.dist = k + 1) :
    ∃ n, walkPrev T this.rid fuel hops cur = .ok (n, hops + k) ∧ T.find n.addr = some n ∧
      n.prev = some T.thisRouter ∧ n.addr ∈ T.adj T.thisRouter ∧
      Walk T.Edge k n.addr cur.addr := by
  induction k generalizing fuel hops cur with
  | zero =>
    obtain ⟨fuel, rfl⟩ := Nat.exists_eq_succ_of_ne_zero (Nat.ne_zero_of_lt hfuel)
    have hdist := dist_of_find hcur
    obtain ⟨p, hp, hedge, hstep⟩ := h.sound.exists_prev (v := cur.addr) (by omega)
    -- the only router at distance 0 is the source
    have hsrc : p = T.thisRouter := h.sound.eq_source (by omega)
    subst hsrc
    have hprev : cur.prev = some T.thisRouter := by rw [← prev_of_find hcur, hp]
    refine ⟨cur, ?_, hcur, hprev, hedge, .nil _⟩
    rw [walkPrev, hprev]
    simp only [deref_of_find hthis, ok_bind]
    rw [if_neg (by simp)]
    simp
  | succ k ih =>
    obtain ⟨fuel, rfl⟩ := Nat.exists_eq_succ_of_ne_zero (Nat.ne_zero_of_lt hfuel)
    have hdist := dist_of_find hcur
    obtain ⟨p, hp, hedge, hstep⟩ := h.sound.exists_prev (v := cur.addr) (by omega)
    obtain ⟨r, hr⟩ := mem_addrs_iff.mp (mem_adj_listed hedge)
    have hraddr := find_addr hr
    have hrdist := dist_of_find hr
    have hrid : r.rid ≠ this.rid := by
      intro heq
      have hpt : p = T.thisRouter := hT.ridOf_injective (ridOf_of_find hr)
        (by rw [ridOf_of_find hthis, heq])
      rw [hpt] at hstep
      have := h.sound.source
      omega
    obtain ⟨n, hrun, hn, hnprev, hnadj, hwalk⟩ := ih fuel (by omega) (hops + 1)
      (show T.find r.addr = some r by rw [hraddr]; exact hr) (by omega)
    refine ⟨n, ?_, hn, hnprev, hnadj, ?_⟩
    · have hprev : cur.prev = some p := by rw [← prev_of_find hcur, hp]
      rw [walkPrev, hprev]
      simp only [deref_of_find hr, ok_bind]
      rw [if_pos hrid, hrun]
      congr 2
      omega
    · rw [hraddr] at hwalk
      exact .snoc hwalk hedge

/-- The three outcomes of `findNextHop`. -/
theorem findNextHop_spec (hT : T.Linked) (h : Searched T) {dest : Router}
    (hdest : T.find dest.addr = some dest) :
    (dest.addr = T.thisRouter ∧ findNextHop T dest = .ok (none, 0)) ∨
      (dest.addr ≠ T.thisRouter ∧ dest.dist < 0 ∧ findNextHop T dest = .ok (none, -1)) ∨
      (dest.addr ≠ T.thisRouter ∧ 0 < dest.dist ∧
        ∃ n, findNextHop T dest = .ok (some n, dest.dist) ∧ T.find n.addr = some n ∧
          n.addr ∈ T.adj T.thisRouter ∧
          Walk T.Edge (dest.dist.toNat - 1) n.addr dest.addr) := by
  obtain ⟨this, hthis⟩ := mem_addrs_iff.mp hT.thisListed
  have hrun : findNextHop T dest =
      if dest.rid = this.rid then .ok (none, 0)
      else walkPrev T this.rid (T.network.length + 1) 1 dest >>= fun x =>
        match x.1.prev with
        | none => .ok (none, -1)
        | some _ => .ok (some x.1, x.2) := by
    rw [findNextHop, deref_of_find hthis, ok_bind]
    rfl
  by_cases hself : dest.addr = T.thisRouter
  · left
    refine ⟨hself, ?_⟩
    have : dest = this := by
      rw [hself, hthis] at hdest
      exact (Option.some.inj hdest).symm
    rw [hrun, if_pos (by rw [this])]
  · right
    have hrid : dest.rid ≠ this.rid := by
      intro heq
      exact hself (hT.ridOf_injective (ridOf_of_find hdest) (by rw [ridOf_of_find hthis, heq]))
    have hdist := dist_of_find hdest
    rw [if_neg hrid] at hrun
    by_cases hneg : dest.dist < 0
    · left
      have hprev : dest.prev = none := by
        rw [← prev_of_find hdest]
        exact (h.sound.prevNone _).mpr (Or.inr (by omega))
      refine ⟨hself, hneg, ?_⟩
      rw [hrun, walkPrev, hprev]
      simp only [ok_bind, hprev]
    · right
      have hpos : 0 < dest.dist := by
        rcases Int.lt_or_eq_of_le (Int.not_lt.mp hneg) with hlt | heq
        · exact hlt
        · exact absurd (h.sound.eq_source (hdist.trans heq.symm)) hself
      refine ⟨hself, hpos, ?_⟩
      have hlt := h.dist_lt_length dest.addr
      obtain ⟨n, hwalkrun, hn, hnprev, hnadj, hwalk⟩ := walkPrev_spec hT h hthis
        (T.network.length + 1) (dest.dist.toNat - 1) (by omega) 1 hdest (by omega)
      refine ⟨n, ?_, hn, hnadj, hwalk⟩
      rw [hrun, hwalkrun, ok_bind]
      simp only [hnprev]
      congr 2
      omega

end NextHop

end PWOSPF
