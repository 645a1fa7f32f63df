import PWOSPF.Topology.Edit
import Mathlib.Logic.Function.Basic

/-!
# Well-formed link-state databases

In a well-formed database addresses and router ids identify routers and no adjacency dangles.
There every helper of `Topology.Edit` succeeds, and its effect is an update of one adjacencies or
one subnets array; everything else of every router, its `core`, stays as it was.
-/

namespace PWOSPF

open Framework

/-- A router without the contents of its two arrays. -/
def Router.core (r : Router) : Router :=
  { r with adjacencies := .alloc 0, subnets := .alloc 0 }

/-- A router without its timers and the labels of the last search. -/
def Router.links (r : Router) : Router :=
  { r with lastSeq := 0, expired := 0, known := false, dist := -1, prev := none }

namespace Topo

/-- The two databases list the same routers, as far as `g` shows them. -/
structure Agree (g : Router → Router) (T T' : Topo) : Prop where
  routers : T'.network.map g = T.network.map g
  thisRouter : T'.thisRouter = T.thisRouter
  nextAddr : T'.nextAddr = T.nextAddr

/-- Only the two arrays may differ. -/
abbrev SameCore (T T' : Topo) : Prop := Agree Router.core T T'

/-- The same routers with the same arrays. -/
abbrev SameLinks (T T' : Topo) : Prop := Agree Router.links T T'

/-- Addresses and router ids name one router each, this router is listed and no adjacency
dangles. -/
structure Linked (T : Topo) : Prop where
  addrsNodup : T.addrs.Nodup
  ridsNodup : (T.network.map Router.rid).Nodup
  thisListed : T.thisRouter ∈ T.addrs
  adjListed : ∀ p, ∀ q ∈ T.adj p, q ∈ T.addrs

structure Wf (T : Topo) : Prop extends Linked T where
  adjNodup : ∀ p, (T.adj p).Nodup
  fresh : ∀ p ∈ T.addrs, p < T.nextAddr

namespace Agree

variable {g : Router → Router} {T T' T'' : Topo}

theorem refl (T : Topo) : Agree g T T := ⟨rfl, rfl, rfl⟩

theorem trans (h : Agree g T T') (h' : Agree g T' T'') : Agree g T T'' :=
  ⟨h'.routers.trans h.routers, h'.thisRouter.trans h.thisRouter, h'.nextAddr.trans h.nextAddr⟩

theorem symm (h : Agree g T T') : Agree g T' T :=
  ⟨h.routers.symm, h.thisRouter.symm, h.nextAddr.symm⟩

theorem map_eq (h : Agree g T T') {β : Type} (f : Router → β) (hf : ∀ r, f (g r) = f r) :
    T'.network.map f = T.network.map f := by
  have hc := congrArg (List.map f) h.routers
  simpa only [List.map_map, Function.comp_def, hf] using hc

/-- The first router with a property that `g` shows, seen through any function of what it shows. -/
theorem find?_map_eq (h : Agree g T T') {β : Type} (q : Router → Bool) (hq : ∀ r, q (g r) = q r)
    (f : Router → β) (hf : ∀ r, f (g r) = f r) :
    (T'.network.find? q).map f = (T.network.find? q).map f := by
  have hc := congrArg (fun l => (l.find? q).map f) h.routers
  have hqg : q ∘ g = q := funext hq
  have hfg : f ∘ g = f := funext hf
  simpa only [List.find?_map, Option.map_map, hqg, hfg] using hc

end Agree

namespace SameCore

variable {T T' T'' : Topo}

theorem trans (h : SameCore T T') (h' : SameCore T' T'') : SameCore T T'' := Agree.trans h h'

theorem symm (h : SameCore T T') : SameCore T' T := Agree.symm h

theorem addrs (h : SameCore T T') : T'.addrs = T.addrs := h.map_eq _ fun _ => rfl

theorem rids (h : SameCore T T') : T'.network.map Router.rid = T.network.map Router.rid :=
  h.map_eq _ fun _ => rfl

theorem find_field (h : SameCore T T') {β : Type} (f : Router → β) (hf : ∀ r, f r.core = f r)
    (p : Ptr) : (T'.find p).map f = (T.find p).map f :=
  h.find?_map_eq _ (fun _ => rfl) f hf

theorem ridOf (h : SameCore T T') (p : Ptr) : T'.ridOf p = T.ridOf p :=
  h.find_field _ (fun _ => rfl) p

theorem adjListContains (h : SameCore T T') (id : UInt32) :
    adjListContains T' id = adjListContains T id :=
  h.find?_map_eq _ (fun _ => rfl) _ fun _ => rfl

end SameCore

namespace SameLinks

variable {T T' T'' : Topo}

theorem trans (h : SameLinks T T') (h' : SameLinks T' T'') : SameLinks T T'' := Agree.trans h h'

theorem symm (h : SameLinks T T') : SameLinks T' T := Agree.symm h

theorem addrs (h : SameLinks T T') : T'.addrs = T.addrs := h.map_eq _ fun _ => rfl

theorem rids (h : SameLinks T T') : T'.network.map Router.rid = T.network.map Router.rid :=
  h.map_eq _ fun _ => rfl

theorem find_field (h : SameLinks T T') {β : Type} (f : Router → β) (hf : ∀ r, f r.links = f r)
    (p : Ptr) : (T'.find p).map f = (T.find p).map f :=
  h.find?_map_eq _ (fun _ => rfl) f hf

theorem ridOf (h : SameLinks T T') (p : Ptr) : T'.ridOf p = T.ridOf p :=
  h.find_field _ (fun _ => rfl) p

theorem adjListContains (h : SameLinks T T') (id : UInt32) :
    adjListContains T' id = adjListContains T id :=
  h.find?_map_eq _ (fun _ => rfl) _ fun _ => rfl

theorem adj (h : SameLinks T T') : T'.adj = T.adj := by
  funext p
  have hf := h.find_field (fun r => r.adjacencies.elems) (fun _ => rfl) p
  unfold Topo.adj
  cases hp : T.find p <;> cases hp' : T'.find p <;> simp_all

theorem subs (h : SameLinks T T') : T'.subs = T.subs := by
  funext p
  have hf := h.find_field (fun r => r.subnets.elems) (fun _ => rfl) p
  unfold Topo.subs
  cases hp : T.find p <;> cases hp' : T'.find p <;> simp_all

end SameLinks

theorem modify_agree {g : Router → Router} (T : Topo) (p : Ptr) (f : Router → Router)
    (hf : ∀ r, g (f r) = g r) : Agree g T (T.modify p f) := by
  refine ⟨?_, rfl, rfl⟩
  simp only [modify, List.map_map]
  apply List.map_congr_left
  intro r _
  by_cases h : r.addr = p <;> simp [h, hf]

theorem adj_modify {T : Topo} {p : Ptr} {r : Router} (hr : T.find p = some r)
    (f : Router → Router) (hf : ∀ r, (f r).addr = r.addr) :
    (T.modify p f).adj = Function.update T.adj p (f r).adjacencies.elems := by
  funext q
  by_cases hq : q = p
  · subst hq
    simp [adj, find_modify T q q f hf, hr]
  · simp [adj, find_modify T p q f hf, hq]

theorem subs_modify {T : Topo} {p : Ptr} {r : Router} (hr : T.find p = some r)
    (f : Router → Router) (hf : ∀ r, (f r).addr = r.addr) :
    (T.modify p f).subs = Function.update T.subs p (f r).subnets.elems := by
  funext q
  by_cases hq : q = p
  · subst hq
    simp [subs, find_modify T q q f hf, hr]
  · simp [subs, find_modify T p q f hf, hq]

theorem find_of_mem {T : Topo} (h : T.addrs.Nodup) {r : Router} (hr : r ∈ T.network) :
    T.find r.addr = some r := by
  obtain ⟨r', hr'⟩ := mem_addrs_iff.mp (List.mem_map_of_mem hr)
  rw [hr', Option.some.injEq]
  exact List.inj_on_of_nodup_map h (find_mem hr') hr (find_addr hr')

theorem mem_adj_listed {T : Topo} {p q : Ptr} (h : q ∈ T.adj p) : p ∈ T.addrs := by
  by_contra hp
  rw [adj, find_eq_none_iff.mpr hp] at h
  simp at h

theorem mem_subs_listed {T : Topo} {p : Ptr} {s : Route} (h : s ∈ T.subs p) : p ∈ T.addrs := by
  by_contra hp
  rw [subs, find_eq_none_iff.mpr hp] at h
  simp at h

theorem ridOf_isSome {T : Topo} {p : Ptr} (h : p ∈ T.addrs) : ∃ id, T.ridOf p = some id := by
  obtain ⟨r, hr⟩ := mem_addrs_iff.mp h
  exact ⟨r.rid, ridOf_of_find hr⟩

theorem listed_of_ridOf {T : Topo} {p : Ptr} {id : UInt32} (h : T.ridOf p = some id) :
    p ∈ T.addrs := by
  obtain ⟨r, hr, -⟩ := Option.map_eq_some_iff.mp h
  exact mem_addrs_iff.mpr ⟨r, hr⟩

theorem linked_iff {T : Topo} :
    T.Linked ↔ T.addrs.Nodup ∧ (T.network.map Router.rid).Nodup ∧ T.thisRouter ∈ T.addrs ∧
      ∀ r ∈ T.network, ∀ q ∈ r.adjacencies.elems, q ∈ T.addrs := by
  constructor
  · intro h
    refine ⟨h.addrsNodup, h.ridsNodup, h.thisListed, fun r hr q hq => h.adjListed r.addr q ?_⟩
    rwa [adj_of_find (find_of_mem h.addrsNodup hr)]
  · rintro ⟨ha, hr, ht, hadj⟩
    refine ⟨ha, hr, ht, fun p q hq => ?_⟩
    obtain ⟨r, hf⟩ := mem_addrs_iff.mp (mem_adj_listed hq)
    rw [adj_of_find hf] at hq
    exact hadj r (find_mem hf) q hq

instance (T : Topo) : Decidable T.Linked := decidable_of_iff' _ linked_iff

theorem wf_iff {T : Topo} :
    T.Wf ↔ T.Linked ∧ (∀ r ∈ T.network, r.adjacencies.elems.Nodup) ∧
      ∀ p ∈ T.addrs, p < T.nextAddr := by
  constructor
  · intro h
    refine ⟨h.toLinked, fun r hr => ?_, h.fresh⟩
    rw [← adj_of_find (find_of_mem h.addrsNodup hr)]
    exact h.adjNodup r.addr
  · rintro ⟨hl, hn, hf⟩
    refine ⟨hl, fun p => ?_, hf⟩
    unfold adj
    split
    · next r hr => exact hn r (find_mem hr)
    · exact List.nodup_nil

instance (T : Topo) : Decidable T.Wf := decidable_of_iff' _ wf_iff

namespace Linked

variable {T T' : Topo} (hT : T.Linked)
include hT

theorem of_sameLinks (h : SameLinks T T') : T'.Linked where
  addrsNodup := by rw [h.addrs]; exact hT.addrsNodup
  ridsNodup := by rw [h.rids]; exact hT.ridsNodup
  thisListed := by rw [h.addrs, h.thisRouter]; exact hT.thisListed
  adjListed := by rw [h.addrs, h.adj]; exact hT.adjListed

theorem ridOf_injective {p q : Ptr} {id : UInt32} (hp : T.ridOf p = some id)
    (hq : T.ridOf q = some id) : p = q := by
  obtain ⟨r, hr, hrid⟩ := Option.map_eq_some_iff.mp hp
  obtain ⟨r', hr', hrid'⟩ := Option.map_eq_some_iff.mp hq
  have : r = r' := List.inj_on_of_nodup_map hT.ridsNodup (find_mem hr) (find_mem hr')
    (hrid.trans hrid'.symm)
  rw [← find_addr hr, ← find_addr hr', this]

end Linked

theorem adjListContains_none {T : Topo} {id : UInt32} (h : adjListContains T id = none) (p : Ptr) :
    T.ridOf p ≠ some id := by
  intro hp
  obtain ⟨r, hr, hrid⟩ := Option.map_eq_some_iff.mp hp
  have hnone : T.network.find? (fun r => decide (r.rid = id)) = none := by
    simpa [adjListContains] using h
  have := List.find?_eq_none.mp hnone r (find_mem hr)
  simp [hrid] at this

namespace Wf

variable {T T' : Topo} (hT : T.Wf)
include hT

theorem of_sameCore (h : SameCore T T') (hadj : ∀ p, ∀ q ∈ T'.adj p, q ∈ T.addrs)
    (hnd : ∀ p, (T'.adj p).Nodup) : T'.Wf where
  addrsNodup := by rw [h.addrs]; exact hT.addrsNodup
  ridsNodup := by rw [h.rids]; exact hT.ridsNodup
  thisListed := by rw [h.addrs, h.thisRouter]; exact hT.thisListed
  adjListed := by rw [h.addrs]; exact hadj
  adjNodup := hnd
  fresh := by rw [h.addrs, h.nextAddr]; exact hT.fresh

theorem of_sameLinks (h : SameLinks T T') : T'.Wf where
  toLinked := hT.toLinked.of_sameLinks h
  adjNodup := by rw [h.adj]; exact hT.adjNodup
  fresh := by rw [h.addrs, h.nextAddr]; exact hT.fresh

theorem of_sameAdj (h : SameCore T T') (hadj : T'.adj = T.adj) : T'.Wf :=
  hT.of_sameCore h (by rw [hadj]; exact hT.adjListed) (by rw [hadj]; exact hT.adjNodup)

theorem adjListContains_iff {id : UInt32} {p : Ptr} :
    adjListContains T id = some p ↔ T.ridOf p = some id := by
  have hsound : ∀ q, adjListContains T id = some q → T.ridOf q = some id := by
    intro q h
    obtain ⟨r, hr, rfl⟩ := Option.map_eq_some_iff.mp h
    have hrid : r.rid = id := by simpa using List.find?_some hr
    rw [ridOf_of_find (find_of_mem hT.addrsNodup (List.mem_of_find?_eq_some hr)), hrid]
  refine ⟨hsound p, fun h => ?_⟩
  cases hc : adjListContains T id with
  | none => exact absurd h (adjListContains_none hc p)
  | some q => rw [hT.ridOf_injective h (hsound q hc)]

end Wf

/-! ## Effects of the edits -/

section Effects

variable {T : Topo} (hT : T.Wf)

theorem findAdj_eq (id : UInt32) {l : List Ptr} (hl : ∀ q ∈ l, q ∈ T.addrs) :
    findAdj T id l = .ok (l.findIdx? fun q => T.ridOf q = some id) := by
  induction l with
  | nil => rfl
  | cons q l ih =>
    obtain ⟨r, hr⟩ := mem_addrs_iff.mp (hl q (by simp))
    rw [findAdj, deref_of_find hr, ok_bind, List.findIdx?_cons, ridOf_of_find hr,
      ih fun x hx => hl x (List.mem_cons_of_mem _ hx)]
    by_cases h : r.rid = id <;> simp [h]

theorem removeRtSnUsingId_spec {p : Ptr} (hp : p ∈ T.addrs) (id : UInt32) :
    ∃ T', removeRtSnUsingId T p id = .ok T' ∧ SameCore T T' ∧ T'.adj = T.adj ∧
      T'.subs = Function.update T.subs p (swapEraseP (fun s => s.rId = id) (T.subs p)) := by
  obtain ⟨r, hr⟩ := mem_addrs_iff.mp hp
  refine ⟨T.modify p (Router.dropSubnet fun s => s.rId = id), ?_,
    modify_agree T p _ fun _ => rfl, ?_, ?_⟩
  · rw [removeRtSnUsingId, deref_of_find hr, ok_bind, pure_eq_ok]
  · rw [adj_modify hr (Router.dropSubnet _) fun _ => rfl]
    exact Function.update_eq_self_iff.mpr (adj_of_find hr).symm
  · rw [subs_modify hr (Router.dropSubnet _) fun _ => rfl, subs_of_find hr]
    rfl

include hT in
theorem removeRtAdjUsingId_spec {p : Ptr} (hp : p ∈ T.addrs) (id : UInt32) :
    ∃ T', removeRtAdjUsingId T p id = .ok T' ∧ SameCore T T' ∧ T'.Wf ∧ T'.subs = T.subs ∧
      ∀ a b, b ∈ T'.adj a ↔ b ∈ T.adj a ∧ ¬ (a = p ∧ T.ridOf b = some id) := by
  obtain ⟨r, hr⟩ := mem_addrs_iff.mp hp
  have hadj := adj_of_find hr
  have hfind := findAdj_eq id (hT.adjListed p)
  rw [hadj] at hfind
  cases hi : r.adjacencies.elems.findIdx? (fun q => T.ridOf q = some id) with
  | none =>
    refine ⟨T, ?_, .refl T, hT, rfl, ?_⟩
    · rw [removeRtAdjUsingId, deref_of_find hr, ok_bind, hfind, hi]
      rfl
    · intro a b
      refine ⟨fun hb => ⟨hb, ?_⟩, fun hb => hb.1⟩
      rintro ⟨rfl, hid⟩
      rw [hadj] at hb
      have := List.findIdx?_eq_none_iff.mp hi b hb
      simp [hid] at this
  | some i =>
    have hcore : SameCore T (T.modify p (Router.dropAdj i)) := modify_agree T p _ fun _ => rfl
    have hadj' : (T.modify p (Router.dropAdj i)).adj = Function.update T.adj p
        (swapEraseP (fun q => T.ridOf q = some id) (T.adj p)) := by
      rw [adj_modify hr (Router.dropAdj i) fun _ => rfl, hadj, swapEraseP, hi]
      rfl
    have hiff : ∀ a b, b ∈ (T.modify p (Router.dropAdj i)).adj a ↔
        b ∈ T.adj a ∧ ¬ (a = p ∧ T.ridOf b = some id) := by
      intro a b
      rw [hadj']
      by_cases ha : a = p
      · subst ha
        rw [Function.update_self, mem_swapEraseP_iff_of_unique (hT.adjNodup a)]
        · simp
        · intro x _ y _ hx hy
          exact hT.ridOf_injective (by simpa using hx) (by simpa using hy)
      · rw [Function.update_of_ne ha]
        simp [ha]
    refine ⟨_, ?_, hcore, hT.of_sameCore hcore ?_ ?_, ?_, hiff⟩
    · rw [removeRtAdjUsingId, deref_of_find hr, ok_bind, hfind, hi]
      rfl
    · exact fun a b hb => hT.adjListed a b ((hiff a b).mp hb).1
    · intro a
      rw [hadj']
      by_cases ha : a = p
      · subst ha
        rw [Function.update_self]
        exact nodup_swapEraseP (hT.adjNodup a)
      · rw [Function.update_of_ne ha]
        exact hT.adjNodup a
    · rw [subs_modify hr (Router.dropAdj i) fun _ => rfl]
      exact Function.update_eq_self_iff.mpr (subs_of_find hr).symm

end Effects

end Topo

end PWOSPF
