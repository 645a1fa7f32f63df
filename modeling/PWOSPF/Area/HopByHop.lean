import PWOSPF.Area.Neighbors
import PWOSPF.Area.Provenance
import PWOSPF.Forwarding.Gate
import PWOSPF.Framework.NextHops

/-!
# From router to router

Each router computes its table for itself, from a database of its own. When the databases describe the
same network, every router that has no reason to deliver a datagram itself hands it to a neighbor that
is one hop nearer. A router does not list its static routes in its own database, but the others do: no
static route may be in the way.
-/

namespace PWOSPF

open Framework Topo

/-- The links and the subnets of a network of routers. -/
structure Layout (ι : Type) where
  sr : ι → SrInstance
  rid : ι → UInt32
  link : ι → ι → Prop
  held : ι → InAddr → InAddr → Prop

variable {ι : Type}

def Layout.static (L : Layout ι) (j : ι) (pfix mask : InAddr) : Prop :=
  ∃ r ∈ (L.sr j).routingTable, r.dest = pfix ∧ r.mask = mask

/-- The subnet matches, and those that are held and match have no larger mask. -/
structure Layout.Longest (L : Layout ι) (dst pfix mask : InAddr) : Prop where
  covers : mask &&& dst = pfix
  max : ∀ j pfix' mask', L.held j pfix' mask' → mask' &&& dst = pfix' → mask' ≤ mask

/-- What the database of `me` says `j` holds. -/
def Layout.heldFor (L : Layout ι) (me j : ι) (pfix mask : InAddr) : Prop :=
  L.held j pfix mask ∨ j ≠ me ∧ L.static j pfix mask

/-- The database of `me` describes the network. -/
structure Describes (L : Layout ι) (me : ι) (T : Topo) : Prop where
  this : T.ridOf T.thisRouter = some (L.rid me)
  listed : ∀ j, ∃ p, T.ridOf p = some (L.rid j)
  only : ∀ p id, T.ridOf p = some id → ∃ j, id = L.rid j
  links : ∀ p q i j, T.ridOf p = some (L.rid i) → T.ridOf q = some (L.rid j) →
    (T.Edge p q ↔ L.link i j)
  holds : ∀ p j, T.ridOf p = some (L.rid j) → ∀ pfix mask,
    T.Holds p pfix mask ↔ L.heldFor me j pfix mask

/-- The databases describe the network, the tables are those that they give, and linked routers heard
from each other. -/
structure Converged (L : Layout ι) (S : ι → PwospfSubsys) : Prop where
  describes : ∀ i, Describes L i (S i).top
  inStep : ∀ i, InStep (S i)
  heard : ∀ i j, L.link i j → HasNeighbor (S i).interfaces (L.rid j)

/-- `i` sends what goes to `dst` to an interface of `k`. -/
def PassesTo (S : ι → PwospfSubsys) (dst : InAddr) (i k : ι) : Prop :=
  ∃ e, getDynRoutingIf (S i) dst = some e ∧ 0 < e.numHops ∧
    ∃ f ∈ (S k).interfaces, f.address = e.nextHop

/-! ## One table -/

section Table

variable {T T' : Topo} {interfaces : List PwospfIflist} {ft : List FtableEntry}

theorem heldEarly_of_connected (h : ∀ p ∈ T.addrs, Connected T.Edge T.thisRouter p) : HeldEarly T := by
  intro p n hp s hs
  obtain ⟨pre, post, hsplit⟩ := List.append_of_mem (mem_subs_listed hs)
  refine ⟨pre, p, post, hsplit, ?_, ⟨s, hs, rfl, rfl⟩, n, Nat.le_refl n, hp⟩
  intro x hx
  apply h
  rw [hsplit]
  rcases List.mem_cons.mp hx with rfl | hpre
  · simp
  · exact List.mem_append_left _ hpre

/-- Where every router is reachable, the table has one entry for each subnet that is held, as far away
as its nearest holder. The first hop, if there is one, is an adjacent router that is one nearer. -/
theorem rebuild_nearest (hT : T.Linked) (hown : OwnMatched T interfaces)
    (hconn : ∀ p ∈ T.addrs, Connected T.Edge T.thisRouter p)
    (hrun : rebuild T interfaces = .ok (T', ft)) :
    (ft.map fun e => (e.pfix, e.mask)).Nodup ∧
      (∀ p pfix mask, T.Holds p pfix mask → ∃ e ∈ ft, e.pfix = pfix ∧ e.mask = mask) ∧
      ∀ e ∈ ft, ∃ n : Nat, e.numHops = n ∧
        Nearest T.Edge (fun p => T.Holds p e.pfix e.mask) T.thisRouter n ∧
        ∀ k, n = k + 1 → ∃ q id, T.Edge T.thisRouter q ∧ T.ridOf q = some id ∧
          Nearest T.Edge (fun p => T.Holds p e.pfix e.mask) q k ∧
          e.nextHop = (getIfAndNeighbor .zero .zero id interfaces).2.1.ipAddress := by
  obtain ⟨T₁, ft₁, hrun₁, hkeys, hsound⟩ := rebuild_sound hT hown
  obtain ⟨rfl, rfl⟩ := Prod.mk.inj (Except.ok.inj (hrun.symm.trans hrun₁))
  obtain ⟨T₂, ft₂, hrun₂, hiff⟩ := rebuild_complete_iff hT hown
  obtain ⟨rfl, rfl⟩ := Prod.mk.inj (Except.ok.inj (hrun.symm.trans hrun₂))
  have hcomplete := hiff.mpr (heldEarly_of_connected hconn)
  have hcover : ∀ p m, Walk T.Edge m T.thisRouter p → ∀ s ∈ T.subs p,
      ∃ e ∈ ft, e.pfix = s.pfix ∧ e.mask = s.mask ∧ e.numHops ≤ m := by
    intro p m hwalk s hs
    obtain ⟨n, hle, hdist⟩ := hwalk.hopDist
    obtain ⟨e, he, hpfix, hmask, hnum⟩ := hcomplete p n hdist s hs
    exact ⟨e, he, hpfix, hmask, by omega⟩
  refine ⟨hkeys, ?_, ?_⟩
  · rintro p pfix mask ⟨s, hs, rfl, rfl⟩
    obtain ⟨m, hwalk⟩ := hconn p (mem_subs_listed hs)
    obtain ⟨e, he, hpfix, hmask, -⟩ := hcover p m hwalk s hs
    exact ⟨e, he, hpfix, hmask⟩
  · intro e he
    obtain ⟨p, s, hs, n, hpfix, hmask, hnum, hdist, -, hhop⟩ := hsound e he
    have hholds : T.Holds p e.pfix e.mask := ⟨s, hs, hpfix.symm, hmask.symm⟩
    have hnearest : Nearest T.Edge (fun p => T.Holds p e.pfix e.mask) T.thisRouter n := by
      refine ⟨⟨p, hholds, hdist.walk⟩, ?_⟩
      rintro p' m ⟨s', hs', hpfix', hmask'⟩ hwalk
      obtain ⟨e', he', hpe, hme, hle⟩ := hcover p' m hwalk s' hs'
      -- the table has one entry for the subnet
      have hsame : e' = e := by
        apply List.inj_on_of_nodup_map hkeys he' he
        rw [hpe, hme, hpfix', hmask']
      rw [hsame, hnum] at hle
      exact Int.ofNat_le.mp hle
    refine ⟨n, hnum, hnearest, ?_⟩
    rintro k rfl
    obtain ⟨q, id, hq, hid, hwalk, hnext, -⟩ := hhop (Nat.succ_pos k)
    exact ⟨q, id, hq, hid, hnearest.step hq hholds hwalk, hnext⟩

section ClosestMatch

variable {α : Type} {mask pfix : α → InAddr} {dst : InAddr} {l : List α} {e e' : α}

theorem ClosestMatch.mem (h : ClosestMatch mask pfix dst l e) : e ∈ l := by
  obtain ⟨front, back, hsplit, -⟩ := h.split
  rw [hsplit]
  simp

theorem ClosestMatch.le (h : ClosestMatch mask pfix dst l e) (he' : e' ∈ l)
    (hmatch : Matches mask pfix dst e') : mask e' ≤ mask e := by
  obtain ⟨front, back, hsplit, hfront, hback⟩ := h.split
  rw [hsplit] at he'
  rcases List.mem_append.mp he' with hin | hin
  · exact hfront e' hin hmatch
  · rcases List.mem_cons.mp hin with rfl | hin
    · exact UInt32.le_refl _
    · exact UInt32.le_of_lt (hback e' hin hmatch)

end ClosestMatch

/-- The entry with the largest of the masks that match is the one that is chosen. -/
theorem getDynRoutingIf_largest {S : PwospfSubsys} {dst : InAddr} {e : FtableEntry}
    (he : e ∈ S.fwrdTable) (hmatch : e.mask &&& dst = e.pfix)
    (hmax : ∀ e' ∈ S.fwrdTable, e'.mask &&& dst = e'.pfix → e'.mask ≤ e.mask) :
    ∃ e', getDynRoutingIf S dst = some e' ∧ e' ∈ S.fwrdTable ∧ e'.pfix = e.pfix ∧
      e'.mask = e.mask := by
  have hsome : (getDynRoutingIf S dst).isSome = true := closestMatch_isSome_iff.mpr ⟨e, he, hmatch⟩
  obtain ⟨e', he'⟩ := Option.isSome_iff_exists.mp hsome
  have hclosest := closestMatch_some he'
  have hmatch' : e'.mask &&& dst = e'.pfix := hclosest.matches_self
  have hmask : e'.mask = e.mask :=
    UInt32.le_antisymm (hmax e' hclosest.mem hmatch') (hclosest.le he hmatch)
  refine ⟨e', he', hclosest.mem, ?_, hmask⟩
  rw [← hmatch', hmask, hmatch]

end Table

/-! ## One router of the network -/

section Router

variable {L : Layout ι} {S : ι → PwospfSubsys} {i : ι}

theorem Describes.walk {T : Topo} {me : ι} (h : Describes L me T) (hT : T.Linked) {p q : Ptr}
    (hpq : T.Edge p q) {j : ι} (hp : T.ridOf p = some (L.rid j)) :
    ∃ k, T.ridOf q = some (L.rid k) ∧ L.link j k := by
  obtain ⟨id, hid⟩ := ridOf_isSome (hT.adjListed p q hpq)
  obtain ⟨k, rfl⟩ := h.only q id hid
  exact ⟨k, hid, (h.links p q j k hp hid).mp hpq⟩

theorem Describes.follow {T : Topo} {me : ι} (h : Describes L me T) {j k : ι} (hjk : L.link j k)
    {p : Ptr} (hp : T.ridOf p = some (L.rid j)) :
    ∃ q, T.ridOf q = some (L.rid k) ∧ T.Edge p q := by
  obtain ⟨q, hq⟩ := h.listed k
  exact ⟨q, hq, (h.links p q j k hp hq).mpr hjk⟩

/-- Distances in the database are distances in the network. -/
theorem Describes.nearest {T : Topo} {me : ι} (h : Describes L me T) (hT : T.Linked) {p : Ptr} {j : ι}
    (hp : T.ridOf p = some (L.rid j)) {pfix mask : InAddr} {n : Nat}
    (hn : Nearest T.Edge (fun p => T.Holds p pfix mask) p n) :
    Nearest L.link (fun j => L.heldFor me j pfix mask) j n :=
  hn.transfer (R := fun p j => T.ridOf p = some (L.rid j)) hp
    (fun _ _ _ hpq hp => h.walk hT hpq hp) (fun _ _ _ hjk hp => h.follow hjk hp)
    (fun p j hp => h.holds p j hp pfix mask)

theorem Describes.connected {T : Topo} {me : ι} (h : Describes L me T)
    (hT : T.Linked) (hconn : ∀ j, Connected L.link me j) :
    ∀ p ∈ T.addrs, Connected T.Edge T.thisRouter p := by
  intro p hp
  obtain ⟨id, hid⟩ := ridOf_isSome hp
  obtain ⟨j, rfl⟩ := h.only p id hid
  obtain ⟨n, hwalk⟩ := hconn j
  obtain ⟨q, hq, hwalk'⟩ := hwalk.simulate (R := fun j p => T.ridOf p = some (L.rid j))
    (fun _ _ _ hjk hp => h.follow hjk hp) h.this
  rw [hT.ridOf_injective hid hq]
  exact ⟨n, hwalk'⟩

end Router

/-! ## The network -/

/-- The routers know each other well enough to forward datagrams. -/
structure Routable (L : Layout ι) (S : ι → PwospfSubsys) : Prop extends Converged L S where
  linked : ∀ i, (S i).top.Linked
  own : ∀ i, OwnMatched (S i).top (S i).interfaces
  records : ∀ i, RecordsSay (fun id ip => ∃ o, L.rid o = id ∧ ∃ f ∈ (S o).interfaces, f.address = ip)
    (S i).interfaces
  ids : Function.Injective L.rid
  addresses : ∀ i j, ∀ f ∈ (S i).interfaces, ∀ g ∈ (S j).interfaces, f.address = g.address → i = j
  connected : ∀ i j, Connected L.link i j

section Network

variable {L : Layout ι} {S : ι → PwospfSubsys} (h : Routable L S) {i : ι} {dst pfix mask : InAddr}
include h

/-- Every table has what is held, and its entries are nearest. -/
theorem Routable.table (i : ι) :
    (∀ j pfix mask, L.heldFor i j pfix mask → ∃ e ∈ (S i).fwrdTable, e.pfix = pfix ∧ e.mask = mask) ∧
      ∀ e ∈ (S i).fwrdTable, ∃ n : Nat, e.numHops = n ∧
        Nearest L.link (fun j => L.heldFor i j e.pfix e.mask) i n ∧
        ∀ k, n = k + 1 → ∃ w, L.link i w ∧ Nearest L.link (fun j => L.heldFor i j e.pfix e.mask) w k ∧
          ∃ f ∈ (S w).interfaces, f.address = e.nextHop := by
  have hdesc := h.describes i
  have hT := h.linked i
  have hstep := h.inStep i
  rw [InStep] at hstep
  obtain ⟨⟨T', ft⟩, hrun, rfl⟩ := map_eq_ok.mp hstep
  obtain ⟨-, hcover, hentry⟩ := rebuild_nearest hT (h.own i)
    (hdesc.connected hT (h.connected i)) hrun
  constructor
  · intro j pfix mask hheld
    obtain ⟨p, hp⟩ := hdesc.listed j
    exact hcover p pfix mask ((hdesc.holds p j hp pfix mask).mpr hheld)
  · intro e he
    obtain ⟨n, hnum, hnearest, hhop⟩ := hentry e he
    refine ⟨n, hnum, hdesc.nearest hT hdesc.this hnearest, ?_⟩
    intro k hk
    obtain ⟨q, id, hq, hid, hnext, hip⟩ := hhop k hk
    obtain ⟨w, hw, hlink⟩ := hdesc.walk hT hq hdesc.this
    refine ⟨w, hlink, hdesc.nearest hT hw hnext, ?_⟩
    -- the record that is found is that of the first hop
    obtain rfl : L.rid w = id := Option.some.inj (hw.symm.trans hid)
    obtain ⟨f, hf, nbr, hnbr, hid', hget⟩ := getIfAndNeighbor_spec (h.heard i w hlink) .zero .zero
    obtain ⟨o, ho, g, hg, haddr⟩ := h.records i f hf nbr hnbr
    obtain rfl : o = w := h.ids (ho.trans hid')
    rw [hget] at hip
    exact ⟨g, hg, haddr.trans hip.symm⟩

/-- The routers that do not hold the subnet themselves pass on to a next hop. -/
theorem Routable.nextHops {target : ι → Prop}
    (hchoice : ∀ i, ¬ target i → ∃ e, getDynRoutingIf (S i) dst = some e ∧ e ∈ (S i).fwrdTable ∧
      e.pfix = pfix ∧ e.mask = mask)
    (hheld : ∀ i, ¬ target i → ∀ j, L.heldFor i j pfix mask ↔ target j)
    (hstop : ∀ i, target i → ∀ e, getDynRoutingIf (S i) dst = some e → e.numHops ≤ 0) :
    NextHops L.link target (PassesTo S dst) := by
  have hpass : ∀ u w, PassesTo S dst u w → ∃ n, L.link u w ∧ Nearest L.link target u (n + 1) ∧
      Nearest L.link target w n := by
    rintro u w ⟨e, he, hpos, f, hf, haddr⟩
    have hu : ¬ target u := fun hu => absurd hpos (Int.not_lt.mpr (hstop u hu e he))
    obtain ⟨e', he', hmem, rfl, rfl⟩ := hchoice u hu
    obtain rfl : e' = e := Option.some.inj (he'.symm.trans he)
    obtain ⟨n, hnum, hnearest, hhop⟩ := (h.table u).2 e' hmem
    obtain ⟨k, rfl⟩ : ∃ k, n = k + 1 := ⟨n - 1, by omega⟩
    obtain ⟨w', hlink, hnext, f', hf', haddr'⟩ := hhop k rfl
    obtain rfl : w = w' := h.addresses w w' f hf f' hf' (haddr.trans haddr'.symm)
    exact ⟨k, hlink, hnearest.congr (hheld u hu), hnext.congr (hheld u hu)⟩
  constructor
  · intro u w huw
    obtain ⟨n, hlink, -⟩ := hpass u w huw
    exact hlink
  · intro u w huw
    obtain ⟨n, -, hnearer⟩ := hpass u w huw
    exact ⟨n, hnearer⟩
  · intro u n hn
    have hu : ¬ target u := fun hu => absurd (hn.unique (.zero hu)) (Nat.succ_ne_zero n)
    obtain ⟨e, he, hmem, rfl, rfl⟩ := hchoice u hu
    obtain ⟨m, hnum, hnearest, hhop⟩ := (h.table u).2 e hmem
    obtain rfl : m = n + 1 := (hnearest.congr (hheld u hu)).unique hn
    obtain ⟨w, -, -, f, hf, haddr⟩ := hhop n rfl
    exact ⟨w, e, he, by omega, f, hf, haddr⟩

theorem Routable.heldFor_of_mem {e : FtableEntry} (he : e ∈ (S i).fwrdTable) :
    ∃ j, L.heldFor i j e.pfix e.mask := by
  obtain ⟨n, -, hnearest, -⟩ := (h.table i).2 e he
  obtain ⟨j, hj, -⟩ := hnearest.walk
  exact ⟨j, hj⟩

/-- Where no static route is in the way, all tables choose the same subnet: of those that are held and
match, the one with the largest mask. -/
theorem Routable.agree (hin : ∃ j pfix mask, L.held j pfix mask ∧ mask &&& dst = pfix)
    (hstatic : ∀ j pfix mask, L.static j pfix mask → mask &&& dst = pfix →
      ∃ k pfix' mask', L.held k pfix' mask' ∧ mask' &&& dst = pfix' ∧ mask < mask') :
    ∃ pfix mask, L.Longest dst pfix mask ∧
      (∀ i j, L.heldFor i j pfix mask ↔ L.held j pfix mask) ∧
      ∀ i, ∃ e, getDynRoutingIf (S i) dst = some e ∧ e ∈ (S i).fwrdTable ∧ e.pfix = pfix ∧
        e.mask = mask := by
  obtain ⟨i, pfix₀, mask₀, hheld₀, hmatch₀⟩ := hin
  obtain ⟨e₀, he₀, rfl, rfl⟩ := (h.table i).1 i pfix₀ mask₀ (Or.inl hheld₀)
  have hsome : (getDynRoutingIf (S i) dst).isSome = true :=
    closestMatch_isSome_iff.mpr ⟨e₀, he₀, hmatch₀⟩
  obtain ⟨e, he⟩ := Option.isSome_iff_exists.mp hsome
  have hclosest := closestMatch_some he
  have hmem := hclosest.mem
  have hmatch : e.mask &&& dst = e.pfix := hclosest.matches_self
  have hmax : ∀ j pfix mask, L.held j pfix mask → mask &&& dst = pfix → mask ≤ e.mask := by
    intro j pfix mask hheld hdst
    obtain ⟨e', he', rfl, rfl⟩ := (h.table i).1 j pfix mask (Or.inl hheld)
    exact hclosest.le he' hdst
  have hmax' : ∀ j pfix mask, L.static j pfix mask → mask &&& dst = pfix → mask < e.mask := by
    intro j pfix mask hroute hdst
    obtain ⟨k, pfix', mask', hheld, hdst', hlt⟩ := hstatic j pfix mask hroute hdst
    exact UInt32.lt_of_lt_of_le hlt (hmax k pfix' mask' hheld hdst')
  have hheld : ∀ i j, L.heldFor i j e.pfix e.mask ↔ L.held j e.pfix e.mask := by
    intro i j
    refine ⟨fun hor => hor.resolve_right ?_, Or.inl⟩
    intro hroute
    exact UInt32.lt_irrefl _ (hmax' j e.pfix e.mask hroute.2 hmatch)
  refine ⟨e.pfix, e.mask, ⟨hmatch, hmax⟩, hheld, ?_⟩
  intro k
  obtain ⟨j, hj⟩ := h.heldFor_of_mem hmem
  obtain ⟨ek, hek, hpfix, hmask⟩ := (h.table k).1 j e.pfix e.mask (Or.inl ((hheld i j).mp hj))
  rw [← hpfix, ← hmask]
  apply getDynRoutingIf_largest hek
  · rw [hpfix, hmask]
    exact hmatch
  · intro e' he' hdst
    rw [hmask]
    obtain ⟨j', hj'⟩ := h.heldFor_of_mem he'
    rcases hj' with hheld' | ⟨-, hroute⟩
    · exact hmax j' _ _ hheld' hdst
    · exact UInt32.le_of_lt (hmax' j' _ _ hroute hdst)

/-- Subnets inside the area. -/
theorem Routable.inside (hin : ∃ j pfix mask, L.held j pfix mask ∧ mask &&& dst = pfix)
    (hstatic : ∀ j pfix mask, L.static j pfix mask → mask &&& dst = pfix →
      ∃ k pfix' mask', L.held k pfix' mask' ∧ mask' &&& dst = pfix' ∧ mask < mask') :
    ∃ pfix mask, L.Longest dst pfix mask ∧
      NextHops L.link (fun j => L.held j pfix mask) (PassesTo S dst) ∧
      ∀ i, ∃ e, ∃ n : Nat, getDynRoutingIf (S i) dst = some e ∧ e.pfix = pfix ∧ e.mask = mask ∧
        e.numHops = n ∧ Nearest L.link (fun j => L.held j pfix mask) i n := by
  obtain ⟨pfix, mask, hlongest, hheld, hchoice⟩ := h.agree hin hstatic
  have hentry : ∀ i, ∃ e, ∃ n : Nat, getDynRoutingIf (S i) dst = some e ∧ e.pfix = pfix ∧
      e.mask = mask ∧ e.numHops = n ∧ Nearest L.link (fun j => L.held j pfix mask) i n := by
    intro i
    obtain ⟨e, he, hmem, rfl, rfl⟩ := hchoice i
    obtain ⟨n, hnum, hnearest, -⟩ := (h.table i).2 e hmem
    exact ⟨e, n, he, rfl, rfl, hnum, hnearest.congr (hheld i)⟩
  refine ⟨pfix, mask, hlongest, ?_, hentry⟩
  apply @Routable.nextHops _ L S h dst pfix mask
  · exact fun i _ => hchoice i
  · exact fun i _ j => hheld i j
  · intro i hi e he
    obtain ⟨e', n, he', -, -, hnum, hnearest⟩ := hentry i
    obtain rfl : e = e' := Option.some.inj (he.symm.trans he')
    obtain rfl := hnearest.unique (.zero hi)
    exact Int.le_of_eq hnum

/-- Destinations outside the area, to which only the router `g` has static routes. -/
theorem Routable.outside {g : ι} (hnone : ∀ j pfix mask, L.held j pfix mask → mask &&& dst ≠ pfix)
    (hg : ∃ pfix mask, L.static g pfix mask ∧ mask &&& dst = pfix)
    (honly : ∀ j pfix mask, L.static j pfix mask → mask &&& dst = pfix → j = g) :
    getDynRoutingIf (S g) dst = none ∧ (getStaticRoutingIf (L.sr g) dst).isSome = true ∧
      NextHops L.link (fun j => j = g) (PassesTo S dst) ∧
      ∀ i, i ≠ g → ∃ e, ∃ n : Nat, getDynRoutingIf (S i) dst = some e ∧ e.numHops = n ∧
        Nearest L.link (fun j => j = g) i n := by
  have hforeign : ∀ i, ∀ e ∈ (S i).fwrdTable, e.mask &&& dst = e.pfix →
      i ≠ g ∧ L.static g e.pfix e.mask := by
    intro i e he hmatch
    obtain ⟨j, hheld | ⟨hne, hroute⟩⟩ := h.heldFor_of_mem he
    · exact absurd hmatch (hnone j _ _ hheld)
    · obtain rfl := honly j _ _ hroute hmatch
      exact ⟨hne.symm, hroute⟩
  have hgate : getDynRoutingIf (S g) dst = none := by
    rw [← Option.not_isSome_iff_eq_none, getDynRoutingIf, closestMatch_isSome_iff]
    rintro ⟨e, he, hmatch⟩
    exact (hforeign g e he hmatch).1 rfl
  have hroute : (getStaticRoutingIf (L.sr g) dst).isSome = true := by
    obtain ⟨pfix, mask, ⟨r, hr, rfl, rfl⟩, hmatch⟩ := hg
    exact closestMatch_isSome_iff.mpr ⟨r, hr, hmatch⟩
  obtain ⟨r, hr⟩ := Option.isSome_iff_exists.mp hroute
  have hclosest := closestMatch_some hr
  have hmatch : r.mask &&& dst = r.dest := hclosest.matches_self
  have hstatic : L.static g r.dest r.mask := ⟨r, hclosest.mem, rfl, rfl⟩
  have hmax : ∀ pfix mask, L.static g pfix mask → mask &&& dst = pfix → mask ≤ r.mask := by
    rintro pfix mask ⟨r', hr', rfl, rfl⟩ hdst
    exact hclosest.le hr' hdst
  have hheld : ∀ i, i ≠ g → ∀ j, L.heldFor i j r.dest r.mask ↔ j = g := by
    intro i hi j
    constructor
    · rintro (hheld | ⟨-, hroute⟩)
      · exact absurd hmatch (hnone j _ _ hheld)
      · exact honly j _ _ hroute hmatch
    · rintro rfl
      exact Or.inr ⟨hi.symm, hstatic⟩
  have hchoice : ∀ i, i ≠ g → ∃ e, getDynRoutingIf (S i) dst = some e ∧ e ∈ (S i).fwrdTable ∧
      e.pfix = r.dest ∧ e.mask = r.mask := by
    intro i hi
    obtain ⟨e, he, hpfix, hmask⟩ := (h.table i).1 g r.dest r.mask ((hheld i hi g).mpr rfl)
    rw [← hpfix, ← hmask]
    apply getDynRoutingIf_largest he
    · rw [hpfix, hmask]
      exact hmatch
    · intro e' he' hdst
      rw [hmask]
      exact hmax _ _ (hforeign i e' he' hdst).2 hdst
  refine ⟨hgate, hroute, h.nextHops hchoice hheld ?_, ?_⟩
  · rintro i rfl e he
    rw [hgate] at he
    cases he
  · intro i hi
    obtain ⟨e, he, hmem, hpfix, hmask⟩ := hchoice i hi
    obtain ⟨n, hnum, hnearest, -⟩ := (h.table i).2 e hmem
    rw [hpfix, hmask] at hnearest
    exact ⟨e, n, he, hnum, hnearest.congr (hheld i hi)⟩

end Network

/-! ## Runs -/

/-- The routers of the network start with `pwospf_init`; their addresses differ and the links lead from
each of them to each other. -/
structure Starts (L : Layout ι) (area : UInt32) (clock : ι → Nat → Time) (S₀ : ι → PwospfSubsys) :
    Prop where
  init : ∀ i, pwospfInit (L.sr i) (clock i) area = .ok (S₀ i)
  rid : ∀ i, (S₀ i).top.ridOf (S₀ i).top.thisRouter = some (L.rid i)
  ids : Function.Injective L.rid
  addresses : ∀ i j, ∀ f ∈ (L.sr i).ifList, ∀ g ∈ (L.sr j).ifList, f.ip = g.ip → i = j
  connected : ∀ i j, Connected L.link i j

section Run

variable [DecidableEq ι] {L : Layout ι} {area : UInt32} {clock : ι → Nat → Time}
  {S₀ : ι → PwospfSubsys} {a : Area ι} {ok : Area ι → AreaInput ι → Prop}

theorem ownMatched_of_inStep {S : PwospfSubsys} (hT : S.top.Linked) (hfirst : ThisFirst S.top)
    (h : InStep S) : OwnMatched S.top S.interfaces := by
  rw [InStep] at h
  obtain ⟨⟨T', ft⟩, hrun, -⟩ := map_eq_ok.mp h
  obtain ⟨T₁, hdijkstra, hsame, hsearch⟩ := dijkstra_spec hT
  have hlinks := hsame.sameLinks
  rw [rebuild, hdijkstra, ok_bind] at hrun
  obtain ⟨x, hupdate, -⟩ := bind_eq_ok.mp hrun
  have hown := ownMatched_of_updateFtable (hT.of_sameLinks hlinks) hsearch
    (hfirst.of_sameLinks hlinks) hupdate
  rwa [OwnMatched, hlinks.thisRouter, hlinks.subs] at hown

theorem run_thisFirst {S₀ S : PwospfSubsys} (h₀ : S₀.Wf) (hfirst : ThisFirst S₀.top)
    (h : Reach Step (fun _ _ => True) S₀ S) : ThisFirst S.top := by
  have hboth : S.Wf ∧ ThisFirst S.top := by
    refine Reach.invariant (I := fun S : PwospfSubsys => S.Wf ∧ ThisFirst S.top) ⟨h₀, hfirst⟩ ?_ h
    rintro S e S' ⟨hWf, hfirst⟩ - ⟨hadm, hrun⟩
    refine ⟨?_, Event.run_thisFirst hWf hfirst hadm hrun⟩
    rcases Event.run_wf hWf hadm with ⟨S'', hrun', hWf', -⟩ | hfault
    · rw [hrun', Except.ok.injEq] at hrun
      exact hrun ▸ hWf'
    · rw [hrun] at hfault
      cases hfault
  exact hboth.2

theorem Starts.routable (hs : Starts L area clock S₀)
    (h : Reach (AreaStep L.sr) ok (.start S₀) a) (hconv : Converged L a.subsys) :
    Routable L a.subsys := by
  have harea : ∀ i, InArea area (S₀ i) := fun i => inArea_of_init (hs.init i)
  have hboot : Boots area L.rid S₀ := ⟨fun i => pwospfInit_wf (hs.init i), fun i => (harea i).areaId,
    fun i => (harea i).autype, hs.rid⟩
  have hlinked : ∀ i, (a.subsys i).top.Linked := fun i => (hboot.booted h i).wf.top.toLinked
  have hinterface : ∀ i, ∀ f ∈ (a.subsys i).interfaces, ∃ g ∈ (L.sr i).ifList, g.ip = f.address := by
    intro i f hf
    obtain ⟨f', hf', haddr⟩ := exists_of_static (p := fun x => x.address = f.address)
      (fun _ => Iff.rfl) (hboot.booted h i).interfaces.symm ⟨f, hf, rfl⟩
    obtain ⟨g, hg, rfl⟩ := pwospfInit_interface (hs.init i) hf'
    exact ⟨g, hg, haddr⟩
  refine { hconv with
    linked := hlinked
    own := ?_
    records := ?_
    ids := hs.ids
    addresses := ?_
    connected := hs.connected }
  · intro i
    have hfirst := run_thisFirst (hboot.wf i) (pwospfInit_thisFirst (hs.init i))
      (node_reach (anyNode_of_area h i))
    exact ownMatched_of_inStep (hlinked i) hfirst (hconv.inStep i)
  · refine area_recordsSay hboot (fun i => pwospfInit_sayHello (hs.init i)) ?_
      (fun i => pwospfInit_noRecords (hs.init i)) h
    intro o f hf
    exact ⟨o, rfl, exists_of_static (p := fun x => x.address = f.address) (fun _ => Iff.rfl)
      (hboot.booted h o).interfaces ⟨f, hf, rfl⟩⟩
  · intro i j f hf g hg heq
    obtain ⟨f', hf', hip⟩ := hinterface i f hf
    obtain ⟨g', hg', hip'⟩ := hinterface j g hg
    exact hs.addresses i j f' hf' g' hg' (hip.trans (heq.trans hip'.symm))

/-- When the databases describe the network, a datagram for one of its subnets is passed on hop by hop
to a nearest router that holds the longest subnet that matches, from wherever it enters and whichever of
the equally short ways each router chose. Every router counts the hops that are left. -/
theorem area_hop_by_hop (hs : Starts L area clock S₀) (h : Reach (AreaStep L.sr) ok (.start S₀) a)
    (hconv : Converged L a.subsys) {dst : InAddr}
    (hin : ∃ j pfix mask, L.held j pfix mask ∧ mask &&& dst = pfix)
    (hstatic : ∀ j pfix mask, L.static j pfix mask → mask &&& dst = pfix →
      ∃ k pfix' mask', L.held k pfix' mask' ∧ mask' &&& dst = pfix' ∧ mask < mask') :
    ∃ pfix mask, L.Longest dst pfix mask ∧ ∀ i, ∃ e, ∃ n : Nat,
      getDynRoutingIf (a.subsys i) dst = some e ∧ e.pfix = pfix ∧ e.mask = mask ∧ e.numHops = n ∧
      Nearest L.link (fun j => L.held j pfix mask) i n ∧
      (∃ j, L.held j pfix mask ∧ Walk (PassesTo a.subsys dst) n i j) ∧
      (∀ w, PassesTo a.subsys dst i w → L.link i w) ∧
      ∀ m j, Walk (PassesTo a.subsys dst) m i j → m ≤ n := by
  obtain ⟨pfix, mask, hlongest, hnext, hentry⟩ := (hs.routable h hconv).inside hin hstatic
  refine ⟨pfix, mask, hlongest, ?_⟩
  intro i
  obtain ⟨e, n, he, hpfix, hmask, hnum, hnearest⟩ := hentry i
  exact ⟨e, n, he, hpfix, hmask, hnum, hnearest, hnext.arrives hnearest, hnext.edge i,
    fun m j hwalk => (hnext.nearest_of_walk hnearest hwalk).1⟩

/-- A datagram that no subnet of the network matches is passed on to the one router with a static route
for it, over a shortest way. That router has no dynamic route, and takes the static one. -/
theorem area_exit_by_gateway (hs : Starts L area clock S₀)
    (h : Reach (AreaStep L.sr) ok (.start S₀) a) (hconv : Converged L a.subsys) {dst : InAddr} {g : ι}
    (hnone : ∀ j pfix mask, L.held j pfix mask → mask &&& dst ≠ pfix)
    (hg : ∃ pfix mask, L.static g pfix mask ∧ mask &&& dst = pfix)
    (honly : ∀ j pfix mask, L.static j pfix mask → mask &&& dst = pfix → j = g) :
    chosenIf (L.sr g) (a.subsys g) dst = (getStaticRoutingIf (L.sr g) dst).map SrRt.interface ∧
      (getStaticRoutingIf (L.sr g) dst).isSome = true ∧
      ∀ i, i ≠ g → ∃ e, ∃ n : Nat, getDynRoutingIf (a.subsys i) dst = some e ∧ e.numHops = n ∧
        HopDist L.link i g n ∧ Walk (PassesTo a.subsys dst) n i g ∧
        (∀ w, PassesTo a.subsys dst i w → L.link i w) ∧
        ∀ m j, Walk (PassesTo a.subsys dst) m i j → m ≤ n := by
  obtain ⟨hgate, hroute, hnext, hentry⟩ := (hs.routable h hconv).outside hnone hg honly
  refine ⟨?_, hroute, ?_⟩
  · rw [chosenIf, hgate]
  · intro i hi
    obtain ⟨e, n, he, hnum, hnearest⟩ := hentry i hi
    obtain ⟨v, rfl, hwalk⟩ := hnext.arrives hnearest
    obtain ⟨v', rfl, hshort⟩ := hnearest.walk
    exact ⟨e, n, he, hnum, ⟨hshort, fun m hm => hnearest.le _ m rfl hm⟩, hwalk, hnext.edge i,
      fun m j hm => (hnext.nearest_of_walk hnearest hm).1⟩

end Run

section Demo

/-- 10.0.0.1 and 10.0.0.0 with a subnet each behind them, and a default route out of the first. -/
def demoStubs : Bool → SrInstance
  | true => ⟨[⟨eth0Interface, #v[2, 0, 0, 0, 1, 0], 0x0100000a⟩,
      ⟨eth1Interface, #v[2, 0, 0, 0, 1, 1], 0x0001000a⟩], [⟨0, 0x0101000a, 0, eth1Interface⟩]⟩
  | false => ⟨[⟨eth0Interface, #v[2, 0, 0, 0, 2, 0], 0x0000000a⟩,
      ⟨eth1Interface, #v[2, 0, 0, 0, 2, 1], 0x0002000a⟩], []⟩

def demoStubsStart (i : Bool) : PwospfSubsys :=
  match pwospfInit (demoStubs i) (fun _ => 0) 0 with
  | .ok S => S
  | .error _ => demoStart

def demoSubnets : Bool → List (InAddr × InAddr)
  | true => [(0x0000000a, 0xfeffffff), (0x0001000a, 0xfeffffff)]
  | false => [(0x0000000a, 0xfeffffff), (0x0002000a, 0xfeffffff)]

def demoLayout : Layout Bool where
  sr := demoStubs
  rid := demoRid
  link := fun i j => i ≠ j
  held := fun j pfix mask => (pfix, mask) ∈ demoSubnets j

instance (j : Bool) (pfix mask : InAddr) : Decidable (demoLayout.held j pfix mask) :=
  inferInstanceAs (Decidable ((pfix, mask) ∈ demoSubnets j))

instance (S : PwospfSubsys) : Decidable (InStep S) := inferInstanceAs (Decidable (_ = _))

theorem demoStubs_starts : Starts demoLayout 0 (fun _ _ => 0) demoStubsStart where
  init := by
    intro i
    cases i with
    | true => decide +kernel
    | false => decide +kernel
  rid := by decide +kernel
  ids := by decide
  addresses := by decide
  connected := by
    intro i j
    by_cases hij : i = j
    · exact ⟨0, hij ▸ .nil i⟩
    · exact ⟨1, .snoc (.nil i) hij⟩

/-- What `me` knows about the router `j`. -/
def demoKnows (me j : Bool) : List (InAddr × InAddr) :=
  demoSubnets j ++ if j = me then [] else (demoStubs j).routingTable.map fun r => (r.dest, r.mask)

theorem mem_demoKnows {me j : Bool} {pfix mask : InAddr} :
    (pfix, mask) ∈ demoKnows me j ↔ demoLayout.heldFor me j pfix mask := by
  rw [demoKnows, List.mem_append]
  refine or_congr Iff.rfl ?_
  by_cases hj : j = me
  · simp [hj]
  · simp [hj, Layout.static, demoLayout]

/-- The record of the router `j` is as it should be. -/
def DemoRecord (me : Bool) (T : Topo) (j : Bool) (r : Router) : Prop :=
  r.rid = demoRid j ∧ (∀ r' ∈ T.network, r'.addr ∈ r.adjacencies.elems ↔ r'.rid ≠ r.rid) ∧
    (r.subnets.elems.map fun s => (s.pfix, s.mask)) ⊆ demoKnows me j ∧
    demoKnows me j ⊆ r.subnets.elems.map fun s => (s.pfix, s.mask)

instance (me : Bool) (T : Topo) (j : Bool) (r : Router) : Decidable (DemoRecord me T j r) :=
  inferInstanceAs (Decidable (_ ∧ _ ∧ _ ∧ _))

/-- Everything about a database that is to be checked. -/
structure DemoDescribes (me : Bool) (T : Topo) : Prop where
  linked : T.Linked
  this : T.ridOf T.thisRouter = some (demoRid me)
  listed : ∀ j, demoRid j ∈ T.network.map Router.rid
  records : ∀ r ∈ T.network, DemoRecord me T true r ∨ DemoRecord me T false r

def demoDescribes (me : Bool) (T : Topo) : Bool :=
  decide T.Linked && decide (T.ridOf T.thisRouter = some (demoRid me)) &&
    decide (∀ j, demoRid j ∈ T.network.map Router.rid) &&
    T.network.all fun r => decide (DemoRecord me T true r) || decide (DemoRecord me T false r)

theorem DemoDescribes.of_check {me : Bool} {T : Topo} (h : demoDescribes me T = true) :
    DemoDescribes me T := by
  simp only [demoDescribes, Bool.and_eq_true, decide_eq_true_eq, List.all_eq_true,
    Bool.or_eq_true] at h
  exact ⟨h.1.1.1, h.1.1.2, h.1.2, h.2⟩

theorem DemoDescribes.describes {me : Bool} {T : Topo} (h : DemoDescribes me T) :
    Describes demoLayout me T := by
  have hT := h.linked
  have hrecord : ∀ r ∈ T.network, ∃ j, DemoRecord me T j r := fun r hr =>
    (h.records r hr).elim (fun hj => ⟨true, hj⟩) fun hj => ⟨false, hj⟩
  have hfind : ∀ p id, T.ridOf p = some id → ∃ r ∈ T.network, T.find p = some r ∧ r.rid = id := by
    intro p id hid
    obtain ⟨r, hr, hrid⟩ := Option.map_eq_some_iff.mp hid
    exact ⟨r, find_mem hr, hr, hrid⟩
  refine ⟨h.this, ?_, ?_, ?_, ?_⟩
  · intro j
    obtain ⟨r, hr, hrid⟩ := List.mem_map.mp (h.listed j)
    exact ⟨r.addr, by rw [ridOf_of_find (find_of_mem hT.addrsNodup hr), hrid]; rfl⟩
  · intro p id hid
    obtain ⟨r, hr, -, rfl⟩ := hfind p id hid
    obtain ⟨j, hj, -⟩ := hrecord r hr
    exact ⟨j, hj⟩
  · intro p q i j hp hq
    obtain ⟨r, hr, hrfind, hrid⟩ := hfind p _ hp
    obtain ⟨r', hr', hrfind', hrid'⟩ := hfind q _ hq
    obtain ⟨-, -, hadj, -⟩ := hrecord r hr
    rw [Edge, adj_of_find hrfind, ← find_addr hrfind', hadj r' hr', hrid, hrid']
    exact demoStubs_starts.ids.ne_iff.trans ne_comm
  · intro p j hp pfix mask
    obtain ⟨r, hr, hrfind, hrid⟩ := hfind p _ hp
    obtain ⟨k, hk, -, hto, hfrom⟩ := hrecord r hr
    obtain rfl : k = j := demoStubs_starts.ids (hk.symm.trans hrid)
    rw [← mem_demoKnows, Holds, subs_of_find hrfind]
    constructor
    · rintro ⟨s, hs, rfl, rfl⟩
      exact hto (List.mem_map_of_mem hs)
    · intro hknows
      obtain ⟨s, hs, heq⟩ := List.mem_map.mp (hfrom hknows)
      obtain ⟨hpfix, hmask⟩ := Prod.mk.inj heq
      exact ⟨s, hs, hpfix, hmask⟩

/-- HELLOs over the link in both directions, then an LSU in each direction. -/
theorem demoStubs_converge : ∃ a, Reach (AreaStep demoLayout.sr) (fun _ _ => True)
    (.start demoStubsStart) a ∧ Converged demoLayout a.subsys := by
  have hrun : (demoRun demoStubs (fun _ _ => True) [.hello true, .deliver false 0, .hello false,
      .deliver true 2, .lsu true, .deliver false 4, .lsu false, .deliver true 5]
      (.start demoStubsStart)).map (fun a => [true, false].all fun i =>
        demoDescribes i (a.subsys i).top && decide (InStep (a.subsys i)) &&
          decide (HasNeighbor (a.subsys i).interfaces (demoRid !i))) = some true := by
    decide +kernel
  obtain ⟨a, ha, hall⟩ := Option.map_eq_some_iff.mp hrun
  simp only [List.all_eq_true, Bool.and_eq_true, decide_eq_true_eq] at hall
  have hall : ∀ i, (demoDescribes i (a.subsys i).top = true ∧ InStep (a.subsys i)) ∧
      HasNeighbor (a.subsys i).interfaces (demoRid !i) := fun i => hall i (by cases i <;> decide)
  refine ⟨a, demoRun_reach .start ha, fun i => (DemoDescribes.of_check (hall i).1.1).describes,
    fun i => (hall i).1.2, ?_⟩
  intro i j hij
  have hother : j = !i := by
    cases i <;> cases j <;> first | rfl | exact absurd rfl hij
  exact hother ▸ (hall i).2

/-- The default route is not in the way to 10.0.2.1. -/
theorem demoStubs_static (j : Bool) (pfix mask : InAddr) (h : demoLayout.static j pfix mask)
    (_ : mask &&& 0x0102000a = pfix) : ∃ k pfix' mask', demoLayout.held k pfix' mask' ∧
      mask' &&& 0x0102000a = pfix' ∧ mask < mask' := by
  obtain ⟨r, hr, rfl, rfl⟩ := h
  refine ⟨false, 0x0002000a, 0xfeffffff, by decide, by decide, ?_⟩
  have hshort : ∀ j, ((demoStubs j).routingTable.all fun r => r.mask < 0xfeffffff) = true := by decide
  exact of_decide_eq_true (List.all_eq_true.mp (hshort j) r hr)

/-- From 10.0.0.1 to a host behind 10.0.0.0. -/
theorem area_hop_by_hop_demo : ∃ a : Area Bool, Converged demoLayout a.subsys ∧
    ∃ e, ∃ n : Nat, getDynRoutingIf (a.subsys true) 0x0102000a = some e ∧ e.numHops = n ∧
      ∃ j, Walk (PassesTo a.subsys 0x0102000a) n true j := by
  obtain ⟨a, ha, hconv⟩ := demoStubs_converge
  obtain ⟨pfix, mask, -, hall⟩ := @area_hop_by_hop _ _ _ _ _ _ _ _ demoStubs_starts ha hconv
    0x0102000a ⟨false, 0x0002000a, 0xfeffffff, by decide, by decide⟩ demoStubs_static
  obtain ⟨e, n, he, -, -, hnum, -, ⟨j, -, hwalk⟩, -⟩ := hall true
  exact ⟨a, hconv, e, n, he, hnum, j, hwalk⟩

/-- From 10.0.0.0 to 8.8.8.8. -/
theorem area_exit_by_gateway_demo : ∃ a : Area Bool, Converged demoLayout a.subsys ∧
    ∃ e, ∃ n : Nat, getDynRoutingIf (a.subsys false) 0x08080808 = some e ∧ e.numHops = n ∧
      Walk (PassesTo a.subsys 0x08080808) n false true := by
  obtain ⟨a, ha, hconv⟩ := demoStubs_converge
  obtain ⟨-, -, hall⟩ := @area_exit_by_gateway _ _ _ _ _ _ _ _ demoStubs_starts ha hconv
    0x08080808 true (by
      intro j pfix mask hheld hmatch
      have hnone : ∀ j, ((demoSubnets j).all fun x => x.2 &&& 0x08080808 != x.1) = true := by decide
      exact bne_iff_ne.mp (List.all_eq_true.mp (hnone j) _ hheld) hmatch)
    ⟨0, 0, ⟨⟨0, 0x0101000a, 0, eth1Interface⟩, List.mem_singleton_self _, rfl, rfl⟩, UInt32.zero_and⟩ (by
      rintro j pfix mask ⟨r, hr, -, -⟩ -
      cases j with
      | true => rfl
      | false => cases hr)
  obtain ⟨e, n, he, hnum, -, hwalk, -⟩ := hall false (by decide)
  exact ⟨a, hconv, e, n, he, hnum, hwalk⟩

end Demo

end PWOSPF
