import PWOSPF.Topology.MergeSpec

/-!
# What the prune loop keeps

The prune loop of `add_to_top` deletes by router id: the subnet it found unadvertised is gone only
if no subnet before it carries the same id. The loop acts on the array of the sender as `sweep`,
and `sweep` keeps exactly the advertised subnets when it never meets an unadvertised one after an
advertised one of the same id.
-/

namespace PWOSPF

open Framework Topo

/-- What one removal of the prune loop leaves of the sender's subnets. A sender that is its own
neighbor loses a second one. -/
def dropNamed (hostRid id : UInt32) (subs : List Route) : List Route :=
  let subs := swapEraseP (fun s => s.rId = id) subs
  if id = hostRid then swapEraseP (fun s => s.rId = hostRid) subs else subs

/-- The prune loop on the array of the sender alone. -/
def sweep (keep : Route → Bool) (hostRid : UInt32) : Nat → Nat → List Route → List Route
  | 0, _, subs => subs
  | fuel + 1, i, subs =>
    match subs[i]? with
    | none => subs
    | some s =>
      if keep s then sweep keep hostRid fuel (i + 1) subs
      else sweep keep hostRid fuel i (dropNamed hostRid s.rId subs)

/-- Looking at `ahead` in the order of the loop, in which the last subnet takes the place of a
deleted one, no subnet that is not kept follows a kept one of the same router id; and where the
sender is its own neighbor, the second subnet it loses is not to be kept either. -/
inductive DroppedFirst (keep : Route → Bool) (hostRid : UInt32) : List Route → List Route → Prop
  | done (passed : List Route) : DroppedFirst keep hostRid passed []
  | kept {passed ahead : List Route} {s : Route} (hs : keep s = true)
      (h : DroppedFirst keep hostRid (passed ++ [s]) ahead) :
      DroppedFirst keep hostRid passed (s :: ahead)
  | dropped {passed ahead : List Route} {s : Route} (hs : keep s = false)
      (hpassed : ∀ x ∈ passed, x.rId ≠ s.rId)
      (hsecond : s.rId = hostRid →
        ∀ x ∈ (swapErase (s :: ahead) 0).find? (fun x => x.rId = hostRid), keep x = false)
      (h : DroppedFirst keep hostRid passed (dropNamed hostRid s.rId (s :: ahead))) :
      DroppedFirst keep hostRid passed (s :: ahead)

/-! ## The loop on the array -/

section Sweep

variable {T : Topo} {host : Ptr} {hostRid id : UInt32}

theorem LinkRemoved.subs_host {T' : Topo} (hT : T.Wf) (hhost : T.ridOf host = some hostRid)
    (h : LinkRemoved T host hostRid id T') : T'.subs host = dropNamed hostRid id (T.subs host) := by
  rw [h.subs, dropNamed]
  by_cases hid : id = hostRid
  · rw [hid, hT.adjListContains_iff.mpr hhost]
    simp
  · cases hn : adjListContains T id with
    | none => simp [hid]
    | some n =>
      have hne : host ≠ n := by
        rintro rfl
        rw [hT.adjListContains_iff.mp hn, Option.some.injEq] at hhost
        exact hid hhost
      simp [hid, hne]

/-- The prune loop ends, and on the sender's subnets it is `sweep`. -/
theorem pruneLoop_sweep (ads : List Route) (fuel i : Nat) (hT : T.Wf)
    (hhost : T.ridOf host = some hostRid) (hfuel : (T.subs host).length < fuel + i)
    (hpos : 0 < fuel) :
    ∃ T', pruneLoop host hostRid ads fuel i T = .ok T' ∧
      T'.subs host = sweep (subInAdv ads) hostRid fuel i (T.subs host) := by
  induction fuel generalizing i T with
  | zero => exact absurd hpos (Nat.lt_irrefl 0)
  | succ fuel ih =>
    obtain ⟨h, hh⟩ := mem_addrs_iff.mp (listed_of_ridOf hhost)
    rw [pruneLoop, deref_of_find hh, ok_bind, ← subs_of_find hh, sweep]
    cases hs : (T.subs host)[i]? with
    | none => exact ⟨T, rfl, rfl⟩
    | some s =>
      have hi : i < (T.subs host).length := (List.getElem?_eq_some_iff.mp hs).1
      simp only
      by_cases hin : subInAdv ads s
      · rw [if_pos hin, if_pos hin]
        exact ih _ hT hhost (by omega) (by omega)
      · rw [if_neg hin, if_neg hin]
        obtain ⟨T₁, hrun, hT₁, hrem⟩ := removeLink_spec hT hhost s.rId
        have hhost₁ : T₁.ridOf host = some hostRid := by rw [hrem.core.ridOf, hhost]
        have hlen := hrem.length_lt (List.mem_of_getElem? hs) rfl
        rw [hrun, ok_bind, ← hrem.subs_host hT hhost]
        exact ih _ hT₁ hhost₁ (by omega) (by omega)

end Sweep

/-! ## Exactness -/

section Exact

variable {keep : Route → Bool} {hostRid id : UInt32} {passed ahead subs : List Route} {s : Route}

theorem countP_dropNamed_le (hostRid id : UInt32) (q : Route → Bool) (subs : List Route) :
    (dropNamed hostRid id subs).countP q ≤ subs.countP q := by
  rw [dropNamed]
  split
  · exact Nat.le_trans (countP_swapEraseP_le _ q _) (countP_swapEraseP_le _ q subs)
  · exact countP_swapEraseP_le _ q subs

theorem countP_sweep_le (keep : Route → Bool) (hostRid : UInt32) (q : Route → Bool) (fuel i : Nat)
    (subs : List Route) : (sweep keep hostRid fuel i subs).countP q ≤ subs.countP q := by
  induction fuel generalizing i subs with
  | zero => exact Nat.le_refl _
  | succ fuel ih =>
    rw [sweep]
    split
    · exact Nat.le_refl _
    · split
      · exact ih _ _
      · exact Nat.le_trans (ih _ _) (countP_dropNamed_le hostRid _ q subs)

theorem dropNamed_append (hpassed : ∀ x ∈ passed, x.rId ≠ id) (subs : List Route) :
    dropNamed hostRid id (passed ++ subs) = passed ++ dropNamed hostRid id subs := by
  have hfalse : ∀ x ∈ passed, decide (x.rId = id) = false := fun x hx => decide_eq_false (hpassed x hx)
  simp only [dropNamed, swapEraseP_append hfalse]
  split
  · next hid =>
    subst hid
    rw [swapEraseP_append hfalse]
  · rfl

theorem swapEraseP_head (s : Route) (ahead : List Route) :
    swapEraseP (fun x => x.rId = s.rId) (s :: ahead) = swapErase (s :: ahead) 0 := by
  rw [swapEraseP, List.findIdx?_cons, decide_eq_true rfl]
  rfl

/-- A removal that takes nothing to be kept leaves everything to be kept. -/
theorem filter_dropNamed_head (hs : keep s = false)
    (hsecond : s.rId = hostRid →
      ∀ x ∈ (swapErase (s :: ahead) 0).find? (fun x => x.rId = hostRid), keep x = false) :
    ((dropNamed hostRid s.rId (s :: ahead)).filter keep).Perm ((s :: ahead).filter keep) := by
  have hfirst : ((swapErase (s :: ahead) 0).filter keep).Perm ((s :: ahead).filter keep) := by
    rw [← swapEraseP_head]
    apply filter_swapEraseP_of_find
    simp [hs]
  rw [dropNamed, swapEraseP_head]
  split
  · next hid => exact (filter_swapEraseP_of_find (hsecond hid)).trans hfirst
  · exact hfirst

theorem length_dropNamed_head_le (hostRid : UInt32) (s : Route) (ahead : List Route) :
    (dropNamed hostRid s.rId (s :: ahead)).length ≤ ahead.length := by
  have hlt := length_swapErase (s :: ahead) 0 (Nat.zero_lt_succ _)
  rw [List.length_cons, Nat.add_sub_cancel] at hlt
  rw [dropNamed, swapEraseP_head]
  split
  · exact Nat.le_trans (length_swapEraseP_le _ _) (Nat.le_of_eq hlt)
  · exact Nat.le_of_eq hlt

/-- A removal that takes something to be kept leaves less of it. -/
theorem removal_keeps (hpassed : ∀ x ∈ passed, keep x = true)
    (hcount : (passed ++ s :: ahead).countP keep ≤
      (dropNamed hostRid s.rId (passed ++ s :: ahead)).countP keep) :
    (∀ x ∈ passed, x.rId ≠ s.rId) ∧ (s.rId = hostRid →
      ∀ x ∈ (swapErase (s :: ahead) 0).find? (fun x => x.rId = hostRid), keep x = false) := by
  have hids : ∀ x ∈ passed, x.rId ≠ s.rId := by
    intro x hx hid
    obtain ⟨y, hy⟩ := Option.isSome_iff_exists.mp (List.find?_isSome (p := fun x => x.rId = s.rId) |>.mpr
      ⟨x, hx, decide_eq_true hid⟩)
    have hfind : (passed ++ s :: ahead).find? (fun x => x.rId = s.rId) = some y := by
      rw [List.find?_append, hy]
      rfl
    have hlt := countP_swapEraseP_of_find hfind (hpassed y (List.mem_of_find?_eq_some hy))
    have hle : (dropNamed hostRid s.rId (passed ++ s :: ahead)).countP keep ≤
        (swapEraseP (fun x => x.rId = s.rId) (passed ++ s :: ahead)).countP keep := by
      rw [dropNamed]
      split
      · exact countP_swapEraseP_le _ keep _
      · exact Nat.le_refl _
    omega
  refine ⟨hids, fun hid x hx => ?_⟩
  by_contra hkeep
  have hlt := countP_swapEraseP_of_find hx (by simpa using hkeep)
  have hle := countP_swapEraseP_le (fun x => x.rId = s.rId) keep (s :: ahead)
  rw [dropNamed_append hids, List.countP_append, List.countP_append, dropNamed, if_pos hid,
    swapEraseP_head] at hcount
  rw [swapEraseP_head] at hle
  omega

/-- The loop, with the advertised part `passed` behind it, keeps exactly what it should. -/
theorem sweep_perm_iff (hostRid : UInt32) (passed ahead : List Route) {fuel : Nat} (hpassed : ∀ x ∈ passed, keep x = true)
    (hfuel : ahead.length < fuel) :
    (sweep keep hostRid fuel passed.length (passed ++ ahead)).Perm ((passed ++ ahead).filter keep) ↔
      DroppedFirst keep hostRid passed ahead := by
  induction fuel generalizing passed ahead with
  | zero => exact absurd hfuel (Nat.not_lt_zero _)
  | succ fuel ih =>
    cases ahead with
    | nil =>
      rw [sweep, List.append_nil, List.getElem?_eq_none (Nat.le_refl _), List.filter_eq_self.mpr hpassed]
      exact iff_of_true (.refl _) (.done passed)
    | cons s ahead =>
      rw [List.length_cons] at hfuel
      have hget : (passed ++ s :: ahead)[passed.length]? = some s := by simp
      rw [sweep, hget]
      simp only
      by_cases hs : keep s = true
      · have hstep := ih (passed ++ [s]) ahead
          (by simpa [or_imp, forall_and] using ⟨hpassed, hs⟩) (by omega)
        rw [List.length_append, List.length_singleton, List.append_assoc, List.singleton_append] at hstep
        rw [if_pos hs, hstep]
        constructor
        · exact .kept hs
        · intro h
          cases h with
          | kept _ h => exact h
          | dropped hs' => exact absurd hs (by simp [hs'])
      · have hs' : keep s = false := by simpa using hs
        have hlen := length_dropNamed_head_le hostRid s ahead
        rw [if_neg hs]
        constructor
        · intro hperm
          have hcount := countP_sweep_le keep hostRid keep fuel passed.length
            (dropNamed hostRid s.rId (passed ++ s :: ahead))
          rw [hperm.countP_eq, List.countP_filter] at hcount
          simp only [Bool.and_self] at hcount
          obtain ⟨hids, hsecond⟩ := removal_keeps hpassed hcount
          refine .dropped hs' hids hsecond ?_
          rw [dropNamed_append hids] at hperm
          rw [← ih passed _ hpassed (by omega)]
          apply hperm.trans
          rw [List.filter_append, List.filter_append]
          exact (filter_dropNamed_head hs' hsecond).symm.append_left _
        · intro h
          cases h with
          | kept hs'' => exact absurd hs'' hs
          | dropped _ hids hsecond h =>
            rw [dropNamed_append hids]
            apply ((ih passed _ hpassed (by omega)).mpr h).trans
            rw [List.filter_append, List.filter_append]
            exact (filter_dropNamed_head hs' hsecond).append_left _

end Exact

/-- This router and router 7 with the given subnets. -/
def senderTopo (subs : List Route) : Topo where
  network := [newRouter 0 1 0, { newRouter 1 7 0 with subnets := ⟨subs, 10, 80⟩ }]
  thisRouter := 0
  nextAddr := 2

/-- The prune loop as `add_to_top` runs it ends, and it leaves exactly the advertised ones of the
sender's subnets if and only if it meets no unadvertised one after an advertised one of its id. -/
theorem pruneLoop_exact_iff {T : Topo} (hT : T.Wf) {host : Ptr} {hostRid : UInt32}
    (hhost : T.ridOf host = some hostRid) (ads : List Route) :
    ∃ T', pruneLoop host hostRid ads ((T.subs host).length + 1) 0 T = .ok T' ∧
      ((T'.subs host).Perm ((T.subs host).filter (subInAdv ads)) ↔
        DroppedFirst (subInAdv ads) hostRid [] (T.subs host)) := by
  obtain ⟨T', hrun, hsubs⟩ := pruneLoop_sweep ads ((T.subs host).length + 1) 0 hT hhost
    (Nat.lt_succ_self _) (Nat.zero_lt_succ _)
  refine ⟨T', hrun, ?_⟩
  rw [hsubs]
  exact sweep_perm_iff hostRid [] _ (by simp) (Nat.lt_succ_self _)

/-- The unadvertised stub comes before the advertised one. -/
theorem pruneLoop_exact_iff_sender :
    ∃ T', pruneLoop 1 7 [⟨2, 0xffffffff, 0, 0⟩] 3 0
        (senderTopo [⟨1, 0xffffffff, 0, 0⟩, ⟨2, 0xffffffff, 0, 0⟩]) = .ok T' ∧
      (T'.subs 1).Perm [⟨2, 0xffffffff, 0, 0⟩] := by
  have hsender : (senderTopo [⟨1, 0xffffffff, 0, 0⟩, ⟨2, 0xffffffff, 0, 0⟩]).ridOf 1 = some 7 := by
    decide
  obtain ⟨T', hrun, hiff⟩ := pruneLoop_exact_iff (by decide) hsender [⟨2, 0xffffffff, 0, 0⟩]
  refine ⟨T', hrun, hiff.mpr ?_⟩
  apply DroppedFirst.dropped (by decide) (by simp) (by decide)
  exact .kept (by decide) (.done _)

/-- The advertised stub comes first, and is deleted in place of the other. -/
theorem pruneLoop_not_exact :
    ¬ ∀ (T T' : Topo) (host : Ptr) (hostRid : UInt32) (ads : List Route), T.Wf →
      T.ridOf host = some hostRid → host ≠ T.thisRouter →
      pruneLoop host hostRid ads ((T.subs host).length + 1) 0 T = .ok T' →
      (T'.subs host).Perm ((T.subs host).filter (subInAdv ads)) := by
  intro hall
  have hleft : (pruneLoop 1 7 [⟨2, 0xffffffff, 0, 0⟩] 3 0
      (senderTopo [⟨2, 0xffffffff, 0, 0⟩, ⟨1, 0xffffffff, 0, 0⟩])).map (fun T' => T'.subs 1) =
      .ok [⟨1, 0xffffffff, 0, 0⟩] := by decide
  obtain ⟨T', hrun, hsubs⟩ := map_eq_ok.mp hleft
  have hperm := hall _ T' 1 7 [⟨2, 0xffffffff, 0, 0⟩] (by decide) (by decide) (by decide) hrun
  rw [hsubs] at hperm
  have hmem := hperm.mem_iff.mp (List.mem_singleton_self _)
  exact absurd hmem (by decide)

end PWOSPF
