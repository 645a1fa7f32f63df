import PWOSPF.Subsystem.SupportedLinks

/-!
# Expired routers are removed completely

`check_top_invalid` unlinks every overdue router, wherever it stands in the list. From every other
router it takes the adjacency and the first subnet that names the router removed, so a remnant stays
exactly where two subnets name it.
-/

namespace PWOSPF

open Framework Topo

/-- The listed router is not this router and its time has run out. -/
def Topo.Overdue (T : Topo) (now : Time) (p : Ptr) : Prop :=
  p ≠ T.thisRouter ∧ ∃ r ∈ T.find p, r.expired ≤ now

instance (T : Topo) (now : Time) (p : Ptr) : Decidable (T.Overdue now p) :=
  inferInstanceAs (Decidable (_ ∧ _))

/-- `T'` is `T` without the routers in `gone`: no adjacency leads to them, and every remaining
router holds one subnet less that names one of them, if it held any. -/
structure RoutersRemoved (T : Topo) (gone : List Ptr) (T' : Topo) : Prop where
  addrs : T'.addrs = T.addrs.filter fun q => q ∉ gone
  thisRouter : T'.thisRouter = T.thisRouter
  core : ∀ q, q ∉ gone → (T'.find q).map Router.core = (T.find q).map Router.core
  adj : ∀ a b, b ∈ T'.adj a ↔ b ∈ T.adj a ∧ a ∉ gone ∧ b ∉ gone
  names : ∀ q, q ∉ gone → ∀ id, nameCount (T'.subs q) id =
    nameCount (T.subs q) id - gone.countP fun g => T.ridOf g = some id

section Removal

variable {T T' T'' : Topo} {gone : List Ptr}

theorem RoutersRemoved.refl (T : Topo) : RoutersRemoved T [] T :=
  ⟨by simp, rfl, fun _ _ => rfl, by simp, by simp⟩

theorem RoutersRemoved.find_field (h : RoutersRemoved T gone T') {β : Type} (f : Router → β)
    (hf : ∀ r, f r.core = f r) {q : Ptr} (hq : q ∉ gone) :
    (T'.find q).map f = (T.find q).map f := by
  have hc := congrArg (Option.map f) (h.core q hq)
  simpa only [Option.map_map, Function.comp_def, hf] using hc

theorem RoutersRemoved.ridOf (h : RoutersRemoved T gone T') {q : Ptr} (hq : q ∉ gone) :
    T'.ridOf q = T.ridOf q :=
  h.find_field _ (fun _ => rfl) hq

theorem nameCount_swapEraseP (subs : List Route) (id id' : UInt32) :
    nameCount (swapEraseP (fun s => s.rId = id) subs) id' =
      nameCount subs id' - if id = id' then 1 else 0 := by
  by_cases hid : id = id'
  · subst hid
    rw [if_pos rfl]
    exact countP_swapEraseP _ subs
  · rw [if_neg hid]
    apply countP_swapEraseP_of_disjoint
    intro s hs
    rw [of_decide_eq_true hs, decide_eq_false hid]

theorem RoutersRemoved.snoc (h : RoutersRemoved T gone T') {p : Ptr} {id : UInt32}
    (hp : p ∉ gone) (hid : T'.ridOf p = some id) (hrem : RouterRemoved T' p id T'') :
    RoutersRemoved T (gone ++ [p]) T'' := by
  have hmem : ∀ q, q ∉ gone ++ [p] ↔ q ∉ gone ∧ q ≠ p := by simp
  refine ⟨?_, hrem.thisRouter.trans h.thisRouter, ?_, ?_, ?_⟩
  · rw [hrem.addrs, h.addrs, List.filter_filter]
    apply List.filter_congr
    intro q _
    simp only [hmem, Bool.decide_and, Bool.and_comm]
  · intro q hq
    obtain ⟨hgone, hne⟩ := (hmem q).mp hq
    rw [hrem.core q hne, h.core q hgone]
  · intro a b
    rw [hrem.adj, h.adj, hmem, hmem]
    tauto
  · intro q hq id'
    obtain ⟨hgone, hne⟩ := (hmem q).mp hq
    rw [hrem.subs, if_neg hne, nameCount_swapEraseP, h.names q hgone, List.countP_append,
      List.countP_singleton, ← h.ridOf hp, hid]
    simp only [Option.some.injEq, decide_eq_true_eq, Nat.sub_sub]

end Removal

/-! ## The loop -/

section Loop

variable {T T' : Topo} {gone : List Ptr} (now : Time)

/-- The test of the loop, which compares ids, is for an overdue router. -/
theorem RoutersRemoved.overdue_iff (hT : T.Wf) (h : RoutersRemoved T gone T')
    (hthis : T.thisRouter ∉ gone) {p : Ptr} (hp : p ∉ gone) {r this : Router}
    (hr : T'.find p = some r) (hfind : T'.find T'.thisRouter = some this) :
    r.expired ≤ now ∧ r.rid ≠ this.rid ↔ T.Overdue now p := by
  have hexp := h.find_field Router.expired (fun _ => rfl) hp
  have hrid := h.ridOf hp
  have hthisRid := h.ridOf hthis
  rw [h.thisRouter] at hfind
  rw [ridOf_of_find hr] at hrid
  rw [ridOf_of_find hfind] at hthisRid
  rw [hr, Option.map_some] at hexp
  obtain ⟨r₀, hr₀, hexp₀⟩ := Option.map_eq_some_iff.mp hexp.symm
  have hne : r.rid ≠ this.rid ↔ p ≠ T.thisRouter := by
    rw [not_iff_not]
    constructor
    · intro heq
      exact hT.ridOf_injective hrid.symm (by rw [heq, hthisRid])
    · rintro rfl
      rw [hfind, Option.some.injEq] at hr
      rw [hr]
  rw [Topo.Overdue, hne, and_comm, hr₀]
  simp [hexp₀]

theorem expiryLoop_spec {T₀ : Topo} (hT₀ : T₀.Wf) (hT : T.Wf) (h : RoutersRemoved T₀ gone T)
    (hthis : T₀.thisRouter ∉ gone) {ps : List Ptr} (hps : ∀ p ∈ ps, p ∈ T.addrs)
    (hnd : ps.Nodup) (changed : Bool) :
    ∃ T' changed', expiryLoop (fun _ => now) ps T changed = .ok (T', changed') ∧ T'.Wf ∧
      RoutersRemoved T₀ (gone ++ ps.filter fun p => T₀.Overdue now p) T' := by
  induction ps generalizing gone T changed with
  | nil => exact ⟨T, changed, rfl, hT, by simpa using h⟩
  | cons p ps ih =>
    obtain ⟨hnot, hnd'⟩ := List.nodup_cons.mp hnd
    obtain ⟨r, hr⟩ := mem_addrs_iff.mp (hps p (by simp))
    obtain ⟨this, hfind⟩ := mem_addrs_iff.mp hT.thisListed
    have hp : p ∉ gone := by
      have hlisted := hps p (by simp)
      rw [h.addrs] at hlisted
      simpa using (List.mem_filter.mp hlisted).2
    have hiff : r.expired ≤ now ∧ r.rid ≠ this.rid ↔ T₀.Overdue now p :=
      h.overdue_iff now hT₀ hthis hp hr hfind
    rw [expiryLoop, deref_of_find hr, ok_bind, deref_of_find hfind, ok_bind]
    by_cases hc : r.expired ≤ now ∧ r.rid ≠ this.rid
    · have hover := hiff.mp hc
      have hne : p ≠ T.thisRouter := by
        rw [h.thisRouter]
        exact hover.1
      obtain ⟨T₁, hrun, hT₁, hrem⟩ := removeRouter_spec hT (ridOf_of_find hr) hne
      obtain ⟨T', changed', hrun', hT', h'⟩ := ih hT₁ (h.snoc hp (ridOf_of_find hr) hrem)
        (by simp [hthis, Ne.symm hover.1])
        (by
          intro q hq
          rw [hrem.addrs]
          refine List.mem_filter.mpr ⟨hps q (List.mem_cons_of_mem _ hq), decide_eq_true ?_⟩
          rintro rfl
          exact hnot hq)
        hnd' true
      refine ⟨T', changed', ?_, hT', ?_⟩
      · rw [if_pos hc, hrun, ok_bind, hrun']
      · rw [List.append_assoc, List.singleton_append] at h'
        rwa [List.filter_cons, if_pos (decide_eq_true hover)]
    · obtain ⟨T', changed', hrun', hT', h'⟩ := ih hT h hthis
        (fun q hq => hps q (List.mem_cons_of_mem _ hq)) hnd' changed
      refine ⟨T', changed', ?_, hT', ?_⟩
      · rw [if_neg hc, hrun']
      · rwa [List.filter_cons, if_neg (by simpa using fun hover => hc (hiff.mpr hover))]

end Loop

/-! ## What remains of the removed routers -/

/-- Exactly the overdue routers are gone, and no remaining router refers to one of them. -/
structure ExpiredGone (T : Topo) (now : Time) (T' : Topo) : Prop where
  network : T'.addrs = T.addrs.filter fun p => ¬ T.Overdue now p
  rids : ∀ p ∈ T'.addrs, T'.ridOf p = T.ridOf p
  adj : ∀ p, ∀ q ∈ T'.adj p, ¬ T.Overdue now q
  subnets : ∀ p, ∀ s ∈ T'.subs p, ∀ q, T.Overdue now q → T.ridOf q ≠ some s.rId

/-- The number of subnets of the router at `p` that name the router at `q`. -/
def linkCount (T : Topo) (p q : Ptr) : Nat := (T.subs p).countP fun s => T.ridOf q = some s.rId

/-- No router that stays has two subnets naming the same overdue router. -/
def SingleLinks (T : Topo) (now : Time) : Prop :=
  ∀ q ∈ T.addrs, T.Overdue now q → ∀ p ∈ T.addrs, ¬ T.Overdue now p → linkCount T p q ≤ 1

instance (T : Topo) (now : Time) : Decidable (SingleLinks T now) :=
  inferInstanceAs (Decidable (∀ q ∈ T.addrs, _ → ∀ p ∈ T.addrs, _ → _))

section Gone

variable {T T' : Topo} {now : Time}

theorem Topo.Overdue.listed {p : Ptr} (h : T.Overdue now p) : p ∈ T.addrs := by
  obtain ⟨-, r, hr, -⟩ := h
  exact mem_addrs_iff.mpr ⟨r, hr⟩

theorem linkCount_eq {p q : Ptr} {id : UInt32} (hid : T.ridOf q = some id) :
    linkCount T p q = nameCount (T.subs p) id := by
  apply List.countP_congr
  intro s _
  rw [hid, decide_eq_true_eq, decide_eq_true_eq, Option.some.injEq, eq_comm]

theorem mem_overdue {p : Ptr} : (p ∈ T.addrs.filter fun q => T.Overdue now q) ↔ T.Overdue now p := by
  rw [List.mem_filter, decide_eq_true_eq]
  exact ⟨fun h => h.2, fun h => ⟨h.listed, h⟩⟩

/-- Ids are distinct, so one removal looks for each. -/
theorem countP_overdue (hT : T.Wf) {q : Ptr} {id : UInt32} (hq : T.Overdue now q)
    (hid : T.ridOf q = some id) :
    (T.addrs.filter fun p => T.Overdue now p).countP (fun g => T.ridOf g = some id) = 1 := by
  have hsame : ∀ g ∈ T.addrs.filter (fun p => T.Overdue now p),
      decide (T.ridOf g = some id) = true ↔ (g == q) = true := by
    intro g _
    rw [decide_eq_true_eq, beq_iff_eq]
    exact ⟨fun hg => hT.ridOf_injective hg hid, fun hg => hg ▸ hid⟩
  rw [List.countP_congr hsame, ← List.count]
  exact List.count_eq_one_of_mem (hT.addrsNodup.filter _) (mem_overdue.mpr hq)

theorem RoutersRemoved.expiredGone_iff (hT : T.Wf)
    (h : RoutersRemoved T (T.addrs.filter fun p => T.Overdue now p) T') :
    ExpiredGone T now T' ↔ SingleLinks T now := by
  have hstays : ∀ p, (p ∉ T.addrs.filter fun q => T.Overdue now q) ↔ ¬ T.Overdue now p :=
    fun p => not_congr mem_overdue
  have hnetwork : T'.addrs = T.addrs.filter fun p => ¬ T.Overdue now p := by
    rw [h.addrs]
    apply List.filter_congr
    intro p _
    simp only [hstays p]
  have hleft : ∀ p ∈ T'.addrs, ¬ T.Overdue now p := by
    intro p hp
    rw [hnetwork] at hp
    simpa using (List.mem_filter.mp hp).2
  have hcount : ∀ p q id, ¬ T.Overdue now p → T.Overdue now q → T.ridOf q = some id →
      nameCount (T'.subs p) id = nameCount (T.subs p) id - 1 := by
    intro p q id hp hq hid
    rw [h.names p ((hstays p).mpr hp), countP_overdue hT hq hid]
  constructor
  · intro hgone q hlisted hq p hp hpq
    obtain ⟨id, hid⟩ := ridOf_isSome hlisted
    rw [linkCount_eq hid]
    by_contra hmany
    have hpos : 0 < nameCount (T'.subs p) id := by
      rw [hcount p q id hpq hq hid]
      omega
    obtain ⟨s, hs, hsid⟩ := List.countP_pos_iff.mp hpos
    apply hgone.subnets p s hs q hq
    rw [of_decide_eq_true hsid]
    exact hid
  · intro hsingle
    refine ⟨hnetwork, fun p hp => h.ridOf ((hstays p).mpr (hleft p hp)), ?_, ?_⟩
    · intro p q hq
      exact (hstays q).mp ((h.adj p q).mp hq).2.2
    · intro p s hs q hq hid
      have hp := mem_subs_listed hs
      have hle := hsingle q hq.listed hq p
        (by rw [hnetwork] at hp; exact (List.mem_filter.mp hp).1) (hleft p hp)
      rw [linkCount_eq hid] at hle
      have hzero : nameCount (T'.subs p) s.rId = 0 := by
        rw [hcount p q s.rId (hleft p hp) hq hid]
        omega
      exact nameCount_eq_zero hzero ⟨s, hs, rfl⟩

theorem ExpiredGone.congr (hlinks : SameLinks T' T'') :
    ExpiredGone T now T'' ↔ ExpiredGone T now T' := by
  constructor
  · intro h
    exact ⟨hlinks.addrs ▸ h.network, fun p hp => (hlinks.ridOf p) ▸ h.rids p (hlinks.addrs ▸ hp),
      hlinks.adj ▸ h.adj, hlinks.subs ▸ h.subnets⟩
  · intro h
    exact ⟨hlinks.addrs ▸ h.network, fun p hp => (hlinks.ridOf p).trans (h.rids p (hlinks.addrs ▸ hp)),
      hlinks.adj ▸ h.adj, hlinks.subs ▸ h.subnets⟩

end Gone

/-- Two point-to-point subnets, 10.0.0.0/31 at `eth0` and 10.0.0.2/31 at `eth1`. -/
def parallelSr : SrInstance where
  ifList :=
    [⟨eth0Interface, .replicate 6 1, 0x0100000a⟩, ⟨[101, 116, 104, 49], .replicate 6 2, 0x0300000a⟩]
  routingTable := []

/-- This router and router 7, which expires at 5, with one subnet at each end for every prefix. -/
def linkedBy (prefixes : List InAddr) : PwospfSubsys :=
  { demoStart with
    interfaces := createPwospfIfaces parallelSr
    top :=
      { network :=
          [{ newRouter 0 0x0100000a 0 with
              adjacencies := ⟨[1], 10, 80⟩
              subnets := ⟨prefixes.map fun p => ⟨p, 0xfeffffff, 0, 7⟩, 10, 80⟩ },
            { newRouter 1 7 0 with
              adjacencies := ⟨[0], 10, 80⟩
              subnets := ⟨prefixes.map fun p => ⟨p, 0xfeffffff, 0, 0x0100000a⟩, 10, 80⟩
              expired := 5 }]
        thisRouter := 0
        nextAddr := 2 } }

/-- `check_top_invalid` removes the overdue routers with all that refers to them exactly when no
remaining router has parallel links to one of them. If it does not end, then at the assertion of
`update_ftable`, since a subnet that this router keeps has no interface. -/
theorem checkTopInvalid_complete_iff {S : PwospfSubsys} (hT : S.top.Wf) (now : Time) :
    (∃ S', checkTopInvalid S (fun _ => now) = .ok S' ∧
        (ExpiredGone S.top now S'.top ↔ SingleLinks S.top now)) ∨
      checkTopInvalid S (fun _ => now) = .error .assertion ∧
        ∃ T, RoutersRemoved S.top (S.top.addrs.filter fun p => S.top.Overdue now p) T ∧
          ¬ OwnMatched T S.interfaces := by
  obtain ⟨T, changed, hrun, hT', hremoved⟩ := expiryLoop_spec now hT hT (.refl S.top)
    List.not_mem_nil (fun _ hp => hp) hT.addrsNodup false
  rw [List.nil_append] at hremoved
  have hiff := hremoved.expiredGone_iff hT
  have hcall : checkTopInvalid S (fun _ => now) =
      if changed then recompute { S with top := T } else .ok { S with top := T } := by
    rw [checkTopInvalid]
    have hloop : expiryLoop (later 1 fun _ => now) S.top.addrs S.top false = .ok (T, changed) := hrun
    rw [hloop]
    rfl
  rw [hcall]
  cases changed with
  | false => exact Or.inl ⟨_, rfl, hiff⟩
  | true =>
    rw [if_pos rfl]
    rcases recompute_spec (S := { S with top := T }) hT' with
      ⟨T', ft, -, hrec, hsame, -⟩ | ⟨hfault, hnot⟩
    · exact Or.inl ⟨_, hrec, (ExpiredGone.congr hsame.sameLinks).trans hiff⟩
    · exact Or.inr ⟨hfault, T, hremoved, hnot⟩

theorem checkTopInvalid_complete_iff_linked :
    ∃ S', checkTopInvalid (linkedBy [0x0000000a]) (fun _ => 5) = .ok S' ∧ S'.top.addrs = [0] ∧
      ExpiredGone (linkedBy [0x0000000a]).top 5 S'.top := by
  have haddrs : (checkTopInvalid (linkedBy [0x0000000a]) fun _ => 5).map (fun S' => S'.top.addrs) =
      .ok [0] := by decide
  rcases checkTopInvalid_complete_iff (S := linkedBy [0x0000000a]) (by decide) 5 with
    ⟨S', hrun, hiff⟩ | ⟨hfault, -⟩
  · rw [hrun] at haddrs
    exact ⟨S', hrun, Except.ok.inj haddrs, hiff.mpr (by decide)⟩
  · rw [hfault] at haddrs
    cases haddrs

/-- Of two subnets that name the expired router 7, this router keeps one. -/
theorem checkTopInvalid_not_complete :
    ¬ ∀ (S S' : PwospfSubsys) (now : Time), S.top.Wf →
      checkTopInvalid S (fun _ => now) = .ok S' → ExpiredGone S.top now S'.top := by
  intro hall
  have hleft : (checkTopInvalid (linkedBy [0x0000000a, 0x0200000a]) fun _ => 5).map
      (fun S' => S'.top.subs 0) = .ok [⟨0x0200000a, 0xfeffffff, 0, 7⟩] := by decide
  obtain ⟨S', hrun, hsubs⟩ := map_eq_ok.mp hleft
  have hgone := hall _ S' 5 (by decide) hrun
  exact hgone.subnets 0 ⟨0x0200000a, 0xfeffffff, 0, 7⟩ (by rw [hsubs]; simp) 1 (by decide) (by decide)

end PWOSPF
