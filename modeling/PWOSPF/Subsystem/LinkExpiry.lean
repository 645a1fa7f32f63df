import PWOSPF.Subsystem.LinkEdits
import PWOSPF.Subsystem.RouterExpiry

/-!
# The links beside an expired neighbor

When a neighbor times out, `handle_HELLO` deletes the first subnet that names its router and the
adjacency to that router, whichever interface they belong to. The links of the other interfaces are
kept exactly when no deletion meets one of their subnets first and none of their neighbors is the
router of an expired one.
-/

namespace PWOSPF

open Framework Topo

/-- Either the same subnet, or one without a router id that got the label of the HELLO. -/
def Labelled (msg : HelloMsg) (s s' : Route) : Prop :=
  s' = s ∨ s.rId = 0 ∧ s' = { s with rId := msg.rid }

/-- The same subnets in some order, apart from labels. -/
def KeptUpTo (msg : HelloMsg) (subs subs' : List Route) : Prop :=
  ∃ mid, List.Forall₂ (Labelled msg) subs mid ∧ mid.Perm subs'

/-- The subnet has the prefix of the interface. -/
def onLink (i : PwospfIflist) (s : Route) : Bool := s.pfix = i.address &&& i.mask

/-- The subnets of this router for the interface are the same, and so are its adjacencies to the
neighbors there. -/
structure LinkKept (j : PwospfIflist) (msg : HelloMsg) (T T' : Topo) : Prop where
  subs : KeptUpTo msg ((T.subs T.thisRouter).filter (onLink j))
    ((T'.subs T.thisRouter).filter (onLink j))
  adj : ∀ nbr ∈ j.neighbors.elems, ∀ b ∈ T.adj T.thisRouter, T.ridOf b = some nbr.id →
    b ∈ T'.adj T.thisRouter

/-- No neighbor of the interface has expired. -/
def Quiet (clock : Nat → Time) (j : PwospfIflist) : Prop :=
  ∀ nbr ∈ j.neighbors.elems, ∀ k, clock k ≤ nbr.timenotvalid

/-- Expiry touches only its own link: wherever no neighbor has expired, the link is kept. -/
def ExpiryLocal (S : PwospfSubsys) (clock : Nat → Time) (msg : HelloMsg) (S' : PwospfSubsys) :
    Prop :=
  ∀ j ∈ S.interfaces, Quiet clock j → LinkKept j msg S.top S'.top

/-! ## What the deletions have to spare -/

/-- A deletion by router id does not take one of the subnets in `q`. -/
def DropSpares (q : Route → Bool) (thisRid id : UInt32) (subs : List Route) : Prop :=
  (∀ s ∈ subs.find? (fun s => s.rId = id), q s = false) ∧
    (id = thisRid → ∀ s ∈ (swapEraseP (fun s => s.rId = id) subs).find? (fun s => s.rId = thisRid),
      q s = false)

/-- None of the deletions does. -/
def EditsSpare (q : Route → Bool) (thisRid : UInt32) (msg : HelloMsg) :
    List LinkEdit → List Route → Prop
  | [], _ => True
  | .drop id :: es, subs =>
    DropSpares q thisRid id subs ∧ EditsSpare q thisRid msg es (dropNamed thisRid id subs)
  | .label :: es, subs => EditsSpare q thisRid msg es (labelFirst msg subs)

/-- The deletions meet no subnet of the interface first, and no adjacent neighbor there is a router
whose link is deleted. -/
structure LinkSpared (j : PwospfIflist) (thisRid : UInt32) (msg : HelloMsg) (es : List LinkEdit)
    (T : Topo) : Prop where
  subs : EditsSpare (onLink j) thisRid msg es (T.subs T.thisRouter)
  adj : ∀ nbr ∈ j.neighbors.elems, LinkEdit.drop nbr.id ∈ es →
    ∀ b ∈ T.adj T.thisRouter, T.ridOf b ≠ some nbr.id

instance (q : Route → Bool) (thisRid id : UInt32) (subs : List Route) :
    Decidable (DropSpares q thisRid id subs) :=
  inferInstanceAs (Decidable (_ ∧ _))

instance EditsSpare.decidable (q : Route → Bool) (thisRid : UInt32) (msg : HelloMsg) :
    ∀ es subs, Decidable (EditsSpare q thisRid msg es subs)
  | [], _ => .isTrue True.intro
  | .drop id :: es, subs =>
    have := EditsSpare.decidable q thisRid msg es (dropNamed thisRid id subs)
    inferInstanceAs (Decidable (_ ∧ _))
  | .label :: es, subs => EditsSpare.decidable q thisRid msg es (labelFirst msg subs)

instance (j : PwospfIflist) (thisRid : UInt32) (msg : HelloMsg) (es : List LinkEdit) (T : Topo) :
    Decidable (LinkSpared j thisRid msg es T) :=
  decidable_of_iff (EditsSpare (onLink j) thisRid msg es (T.subs T.thisRouter) ∧
      ∀ nbr ∈ j.neighbors.elems, LinkEdit.drop nbr.id ∈ es →
        ∀ b ∈ T.adj T.thisRouter, T.ridOf b ≠ some nbr.id)
    ⟨fun h => ⟨h.1, h.2⟩, fun h => ⟨h.subs, h.adj⟩⟩

/-! ## Keeping subnets up to labels -/

section Kept

variable {q : Route → Bool} {thisRid id : UInt32} {msg : HelloMsg} {subs subs' subs'' : List Route}

theorem Labelled.trans {s s' s'' : Route} (h : Labelled msg s s') (h' : Labelled msg s' s'') :
    Labelled msg s s'' := by
  cases h with
  | inl heq =>
    subst heq
    exact h'
  | inr hlab =>
    obtain ⟨h0, rfl⟩ := hlab
    cases h' with
    | inl heq => exact Or.inr ⟨h0, heq⟩
    | inr hlab' => exact Or.inr ⟨h0, hlab'.2⟩

instance (msg : HelloMsg) : Std.Refl (Labelled msg) := ⟨fun _ => Or.inl rfl⟩

theorem forall₂_labelled_trans (h : List.Forall₂ (Labelled msg) subs subs')
    (h' : List.Forall₂ (Labelled msg) subs' subs'') : List.Forall₂ (Labelled msg) subs subs'' := by
  induction h generalizing subs'' with
  | nil => exact h'
  | cons hs _ ih =>
    cases h' with
    | cons hs' hrest => exact .cons (hs.trans hs') (ih hrest)

theorem KeptUpTo.of_perm (h : subs.Perm subs') : KeptUpTo msg subs subs' :=
  ⟨subs, List.forall₂_refl subs, h⟩

theorem KeptUpTo.trans (h : KeptUpTo msg subs subs') (h' : KeptUpTo msg subs' subs'') :
    KeptUpTo msg subs subs'' := by
  obtain ⟨mid, hmid, hperm⟩ := h
  obtain ⟨mid', hmid', hperm'⟩ := h'
  obtain ⟨both, hboth, hpermBoth⟩ := List.perm_comp_forall₂ hperm hmid'
  exact ⟨both, forall₂_labelled_trans hmid hboth, hpermBoth.trans hperm'⟩

theorem KeptUpTo.length_eq (h : KeptUpTo msg subs subs') : subs'.length = subs.length := by
  obtain ⟨mid, hmid, hperm⟩ := h
  rw [← hperm.length_eq, hmid.length_eq]

/-- Labelling keeps every subnet, and its prefix. -/
theorem labelFirst_kept (hq : ∀ s id, q { s with rId := id } = q s) (subs : List Route) :
    KeptUpTo msg (subs.filter q) ((labelFirst msg subs).filter q) := by
  have hsame : KeptUpTo msg (subs.filter q) (subs.filter q) := .of_perm (.refl _)
  rw [labelFirst]
  cases hold : subs.find? fun s => s.pfix = msg.ipSrc &&& htonl msg.nmask with
  | none => exact hsame
  | some old =>
    simp only
    by_cases hc : old.rId = 0 ∧ old.mask = ntohl msg.nmask
    · rw [if_pos hc]
      obtain ⟨pre, post, hsplit, hmod⟩ :=
        modify_findIdx_split hold fun s => { s with rId := msg.rid }
      rw [hmod, hsplit, List.filter_append, List.filter_append]
      refine ⟨_, List.rel_append (List.forall₂_refl _) ?_, .refl _⟩
      by_cases hon : q old = true
      · rw [List.filter_cons_of_pos hon, List.filter_cons_of_pos (by rw [hq, hon])]
        exact .cons (Or.inr ⟨hc.1, rfl⟩) (List.forall₂_refl _)
      · rw [List.filter_cons_of_neg hon, List.filter_cons_of_neg (by rwa [hq])]
        exact List.forall₂_refl _
    · rw [if_neg hc]
      exact hsame

theorem filter_dropNamed (h : DropSpares q thisRid id subs) :
    ((dropNamed thisRid id subs).filter q).Perm (subs.filter q) := by
  have hone := filter_swapEraseP_of_find h.1
  rw [dropNamed]
  by_cases hid : id = thisRid
  · simp only [if_pos hid]
    exact (filter_swapEraseP_of_find (h.2 hid)).trans hone
  · simp only [if_neg hid]
    exact hone

theorem countP_dropNamed_lt (h : ¬ DropSpares q thisRid id subs) :
    (dropNamed thisRid id subs).countP q < subs.countP q := by
  have htaken : ∀ (p : Route → Bool) (l : List Route), ¬ (∀ s ∈ l.find? p, q s = false) →
      (swapEraseP p l).countP q < l.countP q := by
    intro p l hnot
    simp only [not_forall, Bool.not_eq_false] at hnot
    obtain ⟨s, hs, hqs⟩ := hnot
    exact countP_swapEraseP_of_find hs hqs
  have hone := countP_swapEraseP_le (fun s : Route => decide (s.rId = id)) q subs
  rw [dropNamed]
  by_cases hid : id = thisRid
  · simp only [if_pos hid]
    by_cases hfirst : ∀ s ∈ subs.find? (fun s => s.rId = id), q s = false
    · exact Nat.lt_of_lt_of_le (htaken _ _ fun hsecond => h ⟨hfirst, fun _ => hsecond⟩) hone
    · exact Nat.lt_of_le_of_lt (countP_swapEraseP_le _ q _) (htaken _ _ hfirst)
  · simp only [if_neg hid]
    exact htaken _ _ fun hfirst => h ⟨hfirst, fun heq => absurd heq hid⟩

theorem countP_labelFirst (msg : HelloMsg) (hq : ∀ s id, q { s with rId := id } = q s)
    (subs : List Route) :
    (labelFirst msg subs).countP q = subs.countP q := by
  rw [List.countP_eq_length_filter, List.countP_eq_length_filter]
  exact (labelFirst_kept hq subs).length_eq

theorem countP_runEdits_le (hq : ∀ s id, q { s with rId := id } = q s) (es : List LinkEdit)
    (subs : List Route) : (runEdits thisRid msg es subs).countP q ≤ subs.countP q := by
  induction es generalizing subs with
  | nil => exact Nat.le_refl _
  | cons e es ih =>
    apply Nat.le_trans (ih _)
    cases e with
    | drop id => exact countP_dropNamed_le thisRid id q subs
    | label => exact Nat.le_of_eq (countP_labelFirst msg hq subs)

theorem runEdits_kept (hq : ∀ s id, q { s with rId := id } = q s) {es : List LinkEdit}
    (h : EditsSpare q thisRid msg es subs) :
    KeptUpTo msg (subs.filter q) ((runEdits thisRid msg es subs).filter q) := by
  induction es generalizing subs with
  | nil => exact .of_perm (.refl _)
  | cons e es ih =>
    cases e with
    | drop id => exact (KeptUpTo.of_perm (filter_dropNamed h.1).symm).trans (ih h.2)
    | label => exact (labelFirst_kept hq subs).trans (ih h)

theorem countP_runEdits_lt (hq : ∀ s id, q { s with rId := id } = q s) {es : List LinkEdit}
    (h : ¬ EditsSpare q thisRid msg es subs) :
    (runEdits thisRid msg es subs).countP q < subs.countP q := by
  induction es generalizing subs with
  | nil => exact absurd True.intro h
  | cons e es ih =>
    cases e with
    | drop id =>
      by_cases hdrop : DropSpares q thisRid id subs
      · exact Nat.lt_of_lt_of_le (ih fun hrest => h ⟨hdrop, hrest⟩)
          (countP_dropNamed_le thisRid id q subs)
      · exact Nat.lt_of_le_of_lt (countP_runEdits_le hq es _) (countP_dropNamed_lt hdrop)
    | label =>
      rw [← countP_labelFirst msg hq subs]
      exact ih h

/-- The subnets in `q` are kept exactly when no deletion takes one of them. -/
theorem runEdits_kept_iff (thisRid : UInt32) (msg : HelloMsg)
    (hq : ∀ s id, q { s with rId := id } = q s) (es : List LinkEdit) (subs : List Route) :
    KeptUpTo msg (subs.filter q) ((runEdits thisRid msg es subs).filter q) ↔
      EditsSpare q thisRid msg es subs := by
  constructor
  · intro hkept
    by_contra hnot
    have hlt := countP_runEdits_lt hq hnot
    rw [List.countP_eq_length_filter, List.countP_eq_length_filter, hkept.length_eq] at hlt
    exact Nat.lt_irrefl _ hlt
  · exact runEdits_kept hq

theorem LinksEdited.linkKept_iff {T T' : Topo} {es : List LinkEdit} (j : PwospfIflist)
    (h : LinksEdited thisRid msg T es T') :
    LinkKept j msg T T' ↔ LinkSpared j thisRid msg es T := by
  have hsubs := runEdits_kept_iff (q := onLink j) thisRid msg
    (fun _ _ => rfl) es (T.subs T.thisRouter)
  rw [← h.subs] at hsubs
  constructor
  · intro hkept
    refine ⟨hsubs.mp hkept.subs, ?_⟩
    intro nbr hnbr hdrop b hb hid
    exact ((h.adj b).mp (hkept.adj nbr hnbr b hb hid)).2 nbr.id hdrop hid
  · intro hspared
    refine ⟨hsubs.mpr hspared.subs, ?_⟩
    intro nbr hnbr b hb hid
    apply (h.adj b).mpr ⟨hb, ?_⟩
    intro id hdrop hid'
    rw [hid, Option.some.injEq] at hid'
    subst hid'
    exact hspared.adj nbr hnbr hdrop b hb hid

end Kept

/-! ## Parallel links -/

/-- The characters of `"eth1"`. -/
def secondInterface : IfName := [101, 116, 104, 49]

def parallelStart : PwospfSubsys :=
  { demoStart with
    top :=
      { network := [{ newRouter 0 0x0100000a 0 with
          subnets := ⟨(createPwospfIfaces parallelSr).map initSubnet, 10, 80⟩ }]
        thisRouter := 0
        nextAddr := 1 }
    fwrdTable := (createPwospfIfaces parallelSr).map initFtableEntry
    interfaces := createPwospfIfaces parallelSr }

theorem parallelStart_init : pwospfInit parallelSr (fun _ => 0) 0 = .ok parallelStart := by decide

/-- Router `a` is heard at `eth1` at 75, and router 7 at `eth0` at 90. -/
def parallelEvents (a : UInt32) : List Event :=
  [.hello (fun _ => 75) ⟨32, secondInterface, 0xfffffffe, 0x0500, a, 0x0200000a⟩,
    .hello (fun _ => 90) helloOf7]

/-- In every reachable state a HELLO whose expiries spare the links of the interfaces on which no
neighbor has expired leaves these alone, and no other does. -/
theorem expiryLocal_iff {sr : SrInstance} {start : Nat → Time} {areaId : UInt32}
    {S₀ S : PwospfSubsys} {thisRid : UInt32} (h₀ : pwospfInit sr start areaId = .ok S₀)
    (hS : Reach Step (fun _ _ => True) S₀ S) (hthis : S.top.ridOf S.top.thisRouter = some thisRid)
    (clock : Nat → Time) (msg : HelloMsg) :
    ∃ S', handleHello S clock msg = .ok S' ∧ (ExpiryLocal S clock msg S' ↔
      ∀ j ∈ S.interfaces, Quiet clock j → LinkSpared j thisRid msg (S.edits clock msg) S.top) := by
  obtain ⟨hWf, -⟩ := run_wf (pwospfInit_wf h₀) hS
  obtain ⟨S', hrun, hedited⟩ := handleHello_edited hWf clock msg hthis
  refine ⟨S', hrun, ?_⟩
  constructor
  · intro hlocal j hj hquiet
    exact (hedited.linkKept_iff j).mp (hlocal j hj hquiet)
  · intro hspared j hj hquiet
    exact (hedited.linkKept_iff j).mpr (hspared j hj hquiet)

theorem parallel_reach {a : UInt32} {P : PwospfSubsys → Prop} [DecidablePred P]
    (h : ((runAll Event.run (fun S e => decide (e.Admitted S)) (parallelEvents a) parallelStart).map
      fun S => decide (P S)) = some true) :
    ∃ S, Reach Step (fun _ _ => True) parallelStart S ∧ P S := by
  obtain ⟨S, hrun, hP⟩ := Option.map_eq_some_iff.mp h
  exact ⟨S, reach_of_runAll (fun S e h => ⟨by simpa using h, True.intro⟩) hrun, by simpa using hP⟩

theorem expiryLocal_iff_twoRouters :
    ∃ S S', Reach Step (fun _ _ => True) parallelStart S ∧
      LinkEdit.drop 8 ∈ S.edits (fun _ => 100) helloOf7 ∧
      handleHello S (fun _ => 100) helloOf7 = .ok S' ∧
      ExpiryLocal S (fun _ => 100) helloOf7 S' := by
  obtain ⟨S, hS, hthis, hdrop, hspared⟩ := parallel_reach (a := 8)
    (P := fun S => S.top.ridOf S.top.thisRouter = some 0x0100000a ∧
      LinkEdit.drop 8 ∈ S.edits (fun _ => 100) helloOf7 ∧
      ∀ j ∈ S.interfaces, (∀ nbr ∈ j.neighbors.elems, 100 ≤ nbr.timenotvalid) →
        LinkSpared j 0x0100000a helloOf7 (S.edits (fun _ => 100) helloOf7) S.top) (by decide)
  obtain ⟨S', hrun, hiff⟩ :=
    expiryLocal_iff parallelStart_init hS hthis (fun _ => 100) helloOf7
  exact ⟨S, S', hS, hdrop, hrun, hiff.mpr fun j hj hquiet =>
    hspared j hj fun nbr hnbr => hquiet nbr hnbr 0⟩

/-- Router 7 is the neighbor at both interfaces, and the expiry at `eth1` takes the subnet of
`eth0`. -/
theorem expiry_not_local :
    ∃ S S', Reach Step (fun _ _ => True) parallelStart S ∧
      handleHello S (fun _ => 100) helloOf7 = .ok S' ∧
      ¬ ExpiryLocal S (fun _ => 100) helloOf7 S' := by
  obtain ⟨S, hS, hthis, j, hj, hquiet, hnot⟩ := parallel_reach (a := 7)
    (P := fun S => S.top.ridOf S.top.thisRouter = some 0x0100000a ∧
      ∃ j ∈ S.interfaces, (∀ nbr ∈ j.neighbors.elems, 100 ≤ nbr.timenotvalid) ∧
        ¬ LinkSpared j 0x0100000a helloOf7 (S.edits (fun _ => 100) helloOf7) S.top) (by decide)
  obtain ⟨hWf, -⟩ := run_wf (pwospfInit_wf parallelStart_init) hS
  obtain ⟨S', hrun, hedited⟩ := handleHello_edited hWf (fun _ => 100) helloOf7 hthis
  refine ⟨S, S', hS, hrun, fun hlocal => hnot ?_⟩
  exact (hedited.linkKept_iff j).mp (hlocal j hj fun nbr hnbr _ => hquiet nbr hnbr)

end PWOSPF
