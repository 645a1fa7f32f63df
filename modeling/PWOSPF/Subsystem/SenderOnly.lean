import PWOSPF.Subsystem.Runs

/-!
# An LSU speaks for its sender

`add_to_top` writes into routers other than the sender through opposite routes, refused routes and
pruning, and all of these look for the sender's id. What third parties hold about each other stays
as it was.
-/

namespace PWOSPF

open Framework Topo

/-- The subnet of the router at `p` names the sender, or it is a stub that the sender advertises as
its link to that router. -/
def SpokenFor (T : Topo) (hostRid : UInt32) (ads : List Route) (p : Ptr) (s : Route) : Prop :=
  s.rId = hostRid ∨
    s.rId = 0 ∧ ∃ ad ∈ ads, ad.rId ≠ 0 ∧ T.ridOf p = some ad.rId ∧ ad.pfix = s.pfix

instance (T : Topo) (hostRid : UInt32) (ads : List Route) (p : Ptr) (s : Route) :
    Decidable (SpokenFor T hostRid ads p s) :=
  inferInstanceAs (Decidable (_ ∨ _ ∧ ∃ ad ∈ ads, _))

/-- The subnets of the router at `p` that an LSU of the sender must leave alone. -/
def othersSubs (T : Topo) (hostRid : UInt32) (ads : List Route) (p : Ptr) (subs : List Route) :
    List Route :=
  subs.filter fun s => ¬ SpokenFor T hostRid ads p s

/-- For the routers of `T` other than the one with id `hostRid`, `T'` differs only in links to
that router. -/
structure SpeaksOnlyFor (hostRid : UInt32) (ads : List Route) (T T' : Topo) : Prop where
  listed : ∀ p ∈ T.addrs, p ∈ T'.addrs
  fields : ∀ p ∈ T.addrs, T.ridOf p ≠ some hostRid →
    (T'.find p).map (fun r => (r.rid, r.lastSeq, r.expired)) =
      (T.find p).map (fun r => (r.rid, r.lastSeq, r.expired))
  adj : ∀ p ∈ T.addrs, T.ridOf p ≠ some hostRid →
    ∀ q, T'.ridOf q ≠ some hostRid → (q ∈ T'.adj p ↔ q ∈ T.adj p)
  subs : ∀ p ∈ T.addrs, T.ridOf p ≠ some hostRid →
    (othersSubs T hostRid ads p (T'.subs p)).Perm (othersSubs T hostRid ads p (T.subs p))

/-- The links of `T` among routers other than the one at `host` are those of `T₀`. -/
structure SameElsewhere (T₀ : Topo) (host : Ptr) (hostRid : UInt32) (ads : List Route) (T : Topo) :
    Prop where
  ext : T₀.Extends T
  sender : T.ridOf host = some hostRid
  adj : ∀ p ∈ T₀.addrs, p ≠ host → ∀ q, q ≠ host → (q ∈ T.adj p ↔ q ∈ T₀.adj p)
  subs : ∀ p ∈ T₀.addrs, p ≠ host →
    (othersSubs T₀ hostRid ads p (T.subs p)).Perm (othersSubs T₀ hostRid ads p (T₀.subs p))

section Merge

variable {T₀ T T' : Topo} {host : Ptr} {hostRid : UInt32} {ads : List Route}

/-- The opposite of an advertised link takes the place of a stub the sender speaks for. -/
theorem Recorded.othersSubs_eq {A : Prop} {subs subs' : List Route} {ad : Route} {p : Ptr}
    (h : Recorded A subs { ad with rId := hostRid } subs') (had : ad ∈ ads) (h0 : ad.rId ≠ 0)
    (hp : T₀.ridOf p = some ad.rId) :
    othersSubs T₀ hostRid ads p subs' = othersSubs T₀ hostRid ads p subs := by
  have hnew : ∀ s : Route, s.rId = hostRid → SpokenFor T₀ hostRid ads p s := fun _ h => Or.inl h
  cases h with
  | kept => rfl
  | added =>
    rw [othersSubs, List.filter_append, List.filter_cons_of_neg (by simp [hnew]), List.filter_nil,
      List.append_nil]
    rfl
  | relabelled pre post old hsplit hpfix hold =>
    have hstub : SpokenFor T₀ hostRid ads p old := Or.inr ⟨hold, ad, had, h0, hp, hpfix.symm⟩
    rw [hsplit, othersSubs, othersSubs, List.filter_append, List.filter_append,
      List.filter_cons_of_neg (by simp [hnew]), List.filter_cons_of_neg (by simp [hstub])]

theorem SameElsewhere.advert (h : SameElsewhere T₀ host hostRid ads T) {ad : Route} (had : ad ∈ ads)
    (hext : T.Extends T') (heff : AdvertEffect T host hostRid ad T') :
    SameElsewhere T₀ host hostRid ads T' := by
  have hhost' : T'.ridOf host = some hostRid := by
    rw [hext.ridOf (listed_of_ridOf h.sender), h.sender]
  have hext' := h.ext.trans hext
  cases heff with
  | conflict old _ _ _ _ _ hsubs hadj =>
    refine ⟨hext', hhost', ?_, ?_⟩
    · intro p hp hne q hq
      rw [hadj, ← h.adj p hp hne q hq]
      exact and_iff_left fun hself => hne hself.1
    · intro p hp hne
      rw [hsubs, Function.update_of_ne hne]
      exact h.subs p hp hne
  | stub _ _ _ subs _ hsubs hadj =>
    refine ⟨hext', hhost', ?_, ?_⟩
    · intro p hp hne q hq
      rw [hadj]
      exact h.adj p hp hne q hq
    · intro p hp hne
      rw [hsubs, Function.update_of_ne hne]
      exact h.subs p hp hne
  | linked _ h0 subs _ con hcon _ _ _ subs' hrec' hsubs hadj =>
    refine ⟨hext', hhost', ?_, ?_⟩
    · intro p hp hne q hq
      rw [hadj, ← h.adj p hp hne q hq]
      simp [hne, hq]
    · intro p hp hne
      rw [hsubs]
      by_cases hpc : p = con
      · subst hpc
        rw [Function.update_of_ne hne] at hrec'
        rw [Function.update_self, hrec'.othersSubs_eq had h0 (by rw [← hext'.ridOf hp, hcon])]
        exact h.subs p hp hne
      · rw [Function.update_of_ne hpc, Function.update_of_ne hne]
        exact h.subs p hp hne
  | refused _ _ subs _ con _ _ _ _ hsubs hadj =>
    refine ⟨hext', hhost', ?_, ?_⟩
    · intro p hp hne q hq
      rw [hadj, ← h.adj p hp hne q hq]
      simp [hne, hq]
    · intro p hp hne
      rw [hsubs, Function.update_of_ne hne]
      exact h.subs p hp hne

theorem SameElsewhere.linkRemoved (h : SameElsewhere T₀ host hostRid ads T) {id : UInt32}
    (hrem : LinkRemoved T host hostRid id T') : SameElsewhere T₀ host hostRid ads T' := by
  refine ⟨h.ext.trans (.of_sameCore hrem.core), by rw [hrem.core.ridOf, h.sender], ?_, ?_⟩
  · intro p hp hne q hq
    rw [hrem.adj, ← h.adj p hp hne q hq]
    apply and_iff_left
    intro n _
    exact ⟨fun hlink => hq hlink.2, fun hlink => hne hlink.1⟩
  · intro p hp hne
    refine .trans ?_ (h.subs p hp hne)
    rw [hrem.subs]
    cases hn : adjListContains T id with
    | none =>
      simp only [Function.update_of_ne hne]
      rfl
    | some n =>
      simp only
      by_cases hpn : p = n
      · subst hpn
        rw [Function.update_self, Function.update_of_ne hne]
        apply filter_swapEraseP_perm
        intro s hs
        have hspoken : SpokenFor T₀ hostRid ads p s := Or.inl (of_decide_eq_true hs)
        simp [hspoken]
      · rw [Function.update_of_ne hpn, Function.update_of_ne hne]

theorem mergeAdverts_speaksOnlyFor (hT : T.Wf) (initTime : Time) (clock : Nat → Time)
    (hostRid : UInt32) (ads : List Route) :
    ∃ T', mergeAdverts T initTime clock hostRid ads = .ok T' ∧ T'.Wf ∧
      SpeaksOnlyFor hostRid ads T T' := by
  obtain ⟨hT₁, hext₁, hadj₁, hsubs₁, hhost₁, -⟩ := mergeStart_spec hT clock hostRid
  have hstart : SameElsewhere T (conRouterOf T hostRid (clock 0)).2 hostRid ads
      (mergeStart T clock hostRid) := by
    refine ⟨hext₁, hhost₁, ?_, ?_⟩
    · intro p _ _ q _
      rw [hadj₁]
    · intro p _ _
      rw [hsubs₁]
  have hsame : ∀ {X : Topo} {p : Ptr}, X.Wf → X.ridOf p = some hostRid →
      SameElsewhere T (conRouterOf T hostRid (clock 0)).2 hostRid ads X →
      p = (conRouterOf T hostRid (clock 0)).2 := fun hX hp h => hX.ridOf_injective hp h.sender
  obtain ⟨T', hrun, hT', hext, h⟩ := mergeLoops_invariant (P := fun _ _ ad => ad ∈ ads)
    (Q := fun _ _ _ => True)
    (fun _ _ _ _ hX hhost h had _ hextX heff =>
      h.advert had hextX (hsame hX hhost h ▸ heff))
    (fun _ _ _ _ _ hX hhost h _ _ _ _ hrem => h.linkRemoved (hsame hX hhost h ▸ hrem))
    hT hstart ⟨.of_forall (fun _ had _ => had) _ _ _,
      fun _ _ (_ : initTime < clock (ads.length + 2)) => PruneAll.trivial _ _ _ _ _ _⟩
  have hne : ∀ p ∈ T.addrs, T.ridOf p ≠ some hostRid → p ≠ (conRouterOf T hostRid (clock 0)).2 := by
    rintro p hp hrid rfl
    rw [hext₁.ridOf hp] at hhost₁
    exact hrid hhost₁
  refine ⟨T', hrun, hT', fun p hp => hext.listed hp, ?_, ?_, fun p hp hrid => h.subs p hp (hne p hp hrid)⟩
  · intro p hp hrid
    have hcore := congrArg (Option.map fun r => (r.rid, r.lastSeq, r.expired))
      (mergeAdverts_core hT hrun hp hrid)
    rw [Option.map_map, Option.map_map] at hcore
    exact hcore
  · intro p hp hrid q hq
    apply h.adj p hp (hne p hp hrid)
    rintro rfl
    exact hq h.sender

theorem SpeaksOnlyFor.recomputed (h : SpeaksOnlyFor hostRid ads T T') {T'' : Topo}
    (hsame : SameRecords T' T'') : SpeaksOnlyFor hostRid ads T T'' := by
  have hlinks := hsame.sameLinks
  refine ⟨fun p hp => by rw [hlinks.addrs]; exact h.listed p hp, ?_, ?_, ?_⟩
  · intro p hp hrid
    rw [← h.fields p hp hrid]
    exact hsame.find?_map_eq _ (fun _ => rfl) _ fun _ => rfl
  · intro p hp hrid q hq
    rw [hlinks.ridOf] at hq
    rw [hlinks.adj]
    exact h.adj p hp hrid q hq
  · intro p hp hrid
    rw [hlinks.subs]
    exact h.subs p hp hrid

end Merge

/-- Router 8 between routers 7 and 9, none of them linked to this router. -/
def thirdParties : PwospfSubsys :=
  { demoStart with
    top :=
      { network :=
          [newRouter 0 0x0100000a 0,
            { newRouter 1 7 0 with
              adjacencies := ⟨[2], 10, 80⟩
              subnets := ⟨[⟨0x10, 0xfeffffff, 0, 8⟩], 10, 80⟩ },
            { newRouter 2 8 0 with
              adjacencies := ⟨[1, 3], 10, 80⟩
              subnets := ⟨[⟨0x10, 0xfeffffff, 0, 7⟩, ⟨0x20, 0xfeffffff, 0, 9⟩], 10, 80⟩ },
            { newRouter 3 9 0 with
              adjacencies := ⟨[2], 10, 80⟩
              subnets := ⟨[⟨0x20, 0xfeffffff, 0, 8⟩], 10, 80⟩ }]
        thisRouter := 0
        nextAddr := 4 } }

/-- Whatever an LSU advertises, `add_to_top` changes nothing that other routers hold about third
parties. If it does not end, then at the assertion of `update_ftable` after the merge. -/
theorem addToTop_speaksOnlyFor {S : PwospfSubsys} (hT : S.top.Wf) (clock : Nat → Time)
    (hostRid : UInt32) (ads : List Route) :
    (∃ S', addToTop S clock hostRid ads = .ok S' ∧ SpeaksOnlyFor hostRid ads S.top S'.top) ∨
      addToTop S clock hostRid ads = .error .assertion ∧
        ∃ T, mergeAdverts S.top S.initTime clock hostRid ads = .ok T ∧
          SpeaksOnlyFor hostRid ads S.top T ∧ ¬ OwnMatched T S.interfaces := by
  obtain ⟨T, hrun, hTWf, h⟩ := mergeAdverts_speaksOnlyFor hT S.initTime clock hostRid ads
  have hcall : addToTop S clock hostRid ads = recompute { S with top := T } := by
    rw [addToTop, hrun, ok_bind]
  rw [hcall]
  rcases recompute_spec (S := { S with top := T }) hTWf with
    ⟨T', ft, -, hrec, hsame, -⟩ | ⟨hfault, hnot⟩
  · exact Or.inl ⟨_, hrec, h.recomputed hsame⟩
  · exact Or.inr ⟨hfault, T, hrun, h, hnot⟩

/-- Router 7 withdraws its link to router 8, whose link to router 9 stays. -/
theorem addToTop_speaksOnlyFor_withdrawn :
    ∃ S', addToTop thirdParties (fun _ => 91) 7 [⟨0x30, 0xfeffffff, 0, 0⟩] = .ok S' ∧
      S'.top.subs 2 = [⟨0x20, 0xfeffffff, 0, 9⟩] ∧
      SpeaksOnlyFor 7 [⟨0x30, 0xfeffffff, 0, 0⟩] thirdParties.top S'.top := by
  have hsubs : (addToTop thirdParties (fun _ => 91) 7 [⟨0x30, 0xfeffffff, 0, 0⟩]).map
      (fun S' => S'.top.subs 2) = .ok [⟨0x20, 0xfeffffff, 0, 9⟩] := by decide
  rcases addToTop_speaksOnlyFor (S := thirdParties) (by decide) (fun _ => 91) 7
      [⟨0x30, 0xfeffffff, 0, 0⟩] with ⟨S', hrun, h⟩ | ⟨hfault, -⟩
  · rw [hrun] at hsubs
    exact ⟨S', hrun, Except.ok.inj hsubs, h⟩
  · rw [hfault] at hsubs
    cases hsubs

end PWOSPF
