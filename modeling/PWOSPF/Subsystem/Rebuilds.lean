import PWOSPF.Subsystem.Runs

/-!
# Rebuilding along a run

The database from which an event rebuilds the table, and runs that remember the interfaces, with
their neighbor records, from which the table was built last. This router stays at the head of the
network list, so a table that is built at all has entries for all its subnets.
-/

namespace PWOSPF

open Framework Topo

/-- The database the event hands to `dijkstra`, if it recomputes the routes. -/
def Event.rebuilt (S : PwospfSubsys) : Event → Option Topo
  | .lsu clock hostRid ads => (mergeAdverts S.top S.initTime clock hostRid ads).toOption
  | .seq _ _ => none
  | .hello _ _ => none
  | .timeout clock =>
    match expiryLoop (later 1 clock) S.top.addrs S.top false with
    | .ok (T, true) => some T
    | _ => none

/-- An event rebuilds the table from a well-formed database or leaves the table alone; a timeout
that does not rebuild it changes nothing at all. -/
theorem Event.run_rebuilt {S S' : PwospfSubsys} {e : Event} (hS : S.Wf) (hrun : e.run S = .ok S') :
    (∃ T, e.rebuilt S = some T ∧ T.Wf ∧ recompute { S with top := T } = .ok S') ∨
      e.rebuilt S = none ∧ S'.fwrdTable = S.fwrdTable ∧ ∀ clock, e = .timeout clock → S' = S := by
  cases e with
  | lsu clock hostRid ads =>
    left
    obtain ⟨T, hmerge, hT, -⟩ := mergeAdverts_wf hS.top S.initTime clock hostRid ads
    refine ⟨T, by rw [Event.rebuilt, hmerge]; rfl, hT, ?_⟩
    rw [Event.run, addToTop, hmerge, ok_bind] at hrun
    exact hrun
  | seq routerId lastSeq =>
    right
    refine ⟨rfl, ?_, by simp⟩
    rw [Event.run, Except.ok.injEq] at hrun
    rw [← hrun, setSequence]
    split <;> rfl
  | hello clock msg =>
    right
    refine ⟨rfl, ?_, by simp⟩
    rw [Event.run, handleHello] at hrun
    split at hrun
    · rw [pure_eq_ok, Except.ok.injEq] at hrun
      rw [hrun]
    · obtain ⟨⟨interfaces, T⟩, -, hS'⟩ := bind_eq_ok.mp hrun
      cases hS'
      rfl
  | timeout clock =>
    obtain ⟨T, changed, hloop, hT, -, -, hsame⟩ := expiryLoop_invariant (I := fun _ => True)
      (fun _ _ _ _ _ _ _ _ _ _ => True.intro) (later 1 clock) false hS.top (fun _ h => h)
      hS.top.addrsNodup True.intro
    rw [Event.run, checkTopInvalid, hloop, ok_bind] at hrun
    cases changed with
    | true => exact Or.inl ⟨T, by rw [Event.rebuilt, hloop], hT, hrun⟩
    | false =>
      right
      obtain ⟨-, rfl⟩ := hsame rfl
      have hS' : S' = S := (Except.ok.inj hrun).symm
      exact ⟨by rw [Event.rebuilt, hloop], by rw [hS'], fun _ _ => hS'⟩

/-! ## This router comes first -/

def ThisFirst (T : Topo) : Prop := T.addrs.head? = some T.thisRouter

instance (T : Topo) : Decidable (ThisFirst T) :=
  inferInstanceAs (Decidable (T.addrs.head? = some T.thisRouter))

section ThisFirst

variable {T T' : Topo} {interfaces : List PwospfIflist}

theorem ThisFirst.of_extends (h : ThisFirst T) (hext : T.Extends T') : ThisFirst T' := by
  rw [ThisFirst, hext.thisRouter, ← h]
  obtain ⟨more, hmore⟩ := hext.addrs
  rw [← hmore, List.head?_append, h]
  rfl

theorem ThisFirst.of_sameLinks (h : ThisFirst T) (hl : SameLinks T T') : ThisFirst T' := by
  rw [ThisFirst, hl.addrs, hl.thisRouter]
  exact h

theorem ThisFirst.routerRemoved (h : ThisFirst T) {p : Ptr} {id : UInt32} (hp : p ≠ T.thisRouter)
    (hrem : RouterRemoved T p id T') : ThisFirst T' := by
  unfold ThisFirst at h
  rw [ThisFirst, hrem.addrs, hrem.thisRouter]
  cases hnet : T.addrs with
  | nil =>
    rw [hnet] at h
    cases h
  | cons a rest =>
    rw [hnet] at h
    cases h
    rw [List.filter_cons_of_pos (by simpa using Ne.symm hp)]
    rfl

theorem Event.run_thisFirst {S S' : PwospfSubsys} {e : Event} (hS : S.Wf) (h : ThisFirst S.top)
    (hadm : e.Admitted S) (hrun : e.run S = .ok S') : ThisFirst S'.top := by
  rcases Event.run_invariant (I := ThisFirst) (M := fun _ _ _ _ => True) (Q := fun _ _ => True)
    (L := fun _ _ => True)
    (fun T T' _ h hl => h.of_sameLinks hl)
    (fun S clock hostRid ads T' hS _ h _ hmerge => by
      obtain ⟨T'', hmerge', -, hext⟩ := mergeAdverts_wf hS.top S.initTime clock hostRid ads
      rw [hmerge', Except.ok.injEq] at hmerge
      exact hmerge ▸ h.of_extends hext)
    (fun T thisRid id T' _ _ h _ _ hrem => h.of_extends (.of_sameCore hrem.core))
    (fun T msg T' _ h _ _ hlab => h.of_extends (.of_sameCore hlab.core))
    (fun T p id T' _ _ hp h _ hrem => h.routerRemoved hp hrem)
    hS h hadm (Event.meets_trivial S e) with ⟨S'', hrun', -, -, h'⟩ | ⟨hfault, -⟩
  · rw [hrun', Except.ok.injEq] at hrun
    exact hrun ▸ h'
  · rw [hrun] at hfault
    cases hfault

theorem pwospfInit_thisFirst {sr : SrInstance} {clock : Nat → Time} {areaId : UInt32}
    {S₀ : PwospfSubsys} (h : pwospfInit sr clock areaId = .ok S₀) : ThisFirst S₀.top := by
  obtain ⟨r, hnet, hthis, -⟩ := pwospfInit_spec h
  rw [ThisFirst, addrs, hnet, hthis]
  rfl

/-- The list starts with the router `this_router` points to. -/
theorem ThisFirst.network_eq (hT : T.Linked) (h : ThisFirst T) :
    ∃ this rest, T.network = this :: rest ∧ T.find T.thisRouter = some this := by
  rw [ThisFirst, addrs, List.head?_map, Option.map_eq_some_iff] at h
  obtain ⟨this, hhead, hthis⟩ := h
  obtain ⟨rest, hnet⟩ := List.head?_eq_some_iff.mp hhead
  exact ⟨this, rest, hnet, hthis ▸ find_of_mem hT.addrsNodup (by simp [hnet])⟩

theorem enterAll_ok {enter : List FtableEntry → Route → Exec (List FtableEntry)} {ss : List Route}
    {ft ft' : List FtableEntry} (h : enterAll enter ss ft = .ok ft') :
    ∀ s ∈ ss, ∃ ft₁ ft₂, enter ft₁ s = .ok ft₂ := by
  induction ss generalizing ft with
  | nil => simp
  | cons s ss ih =>
    rw [enterAll] at h
    obtain ⟨ft₁, hrun, hrest⟩ := bind_eq_ok.mp h
    intro x hx
    rcases List.mem_cons.mp hx with rfl | hx
    · exact ⟨ft, ft₁, hrun⟩
    · exact ih hrest x hx

/-- When `update_ftable` returns, it found an interface for every subnet of this router. -/
theorem ownMatched_of_updateFtable (hT : T.Linked) (hsearch : Searched T) (h : ThisFirst T)
    {x : List FtableEntry × Int} (hrun : updateFtable T interfaces = .ok x) :
    OwnMatched T interfaces := by
  obtain ⟨this, rest, hnet, hthis⟩ := h.network_eq hT
  have haddr := find_addr hthis
  rw [updateFtable, hnet, updateLoop] at hrun
  have hself : T.find this.addr = some this := by rw [haddr]; exact hthis
  rcases findNextHop_spec hT hsearch hself with
    ⟨-, hnext⟩ | ⟨hne, -⟩ | ⟨hne, -⟩
  · rw [hnext, ok_bind] at hrun
    simp only [if_true, deref_of_find hthis, ok_bind] at hrun
    obtain ⟨ft, hown, -⟩ := bind_eq_ok.mp hrun
    intro s hs hnone
    rw [subs_of_find hthis] at hs
    obtain ⟨ft₁, ft₂, hs'⟩ := enterAll_ok hown s hs
    rw [enterOwn, hnone] at hs'
    cases hs'
  · exact absurd haddr hne
  · exact absurd haddr hne

theorem rebuild_table (hT : T.Linked) (h : ThisFirst T) {ft : List FtableEntry}
    (hrun : rebuild T interfaces = .ok (T', ft)) :
    SameRecords T T' ∧ Searched T' ∧ TableOf T' interfaces (offers (visited T'.network)) ft := by
  obtain ⟨T₁, hdijkstra, hsame, hsearch⟩ := dijkstra_spec hT
  have hlinks := hsame.sameLinks
  have hT₁ := hT.of_sameLinks hlinks
  rw [rebuild, hdijkstra, ok_bind] at hrun
  obtain ⟨⟨ft₁, ret⟩, hupdate, hret⟩ := bind_eq_ok.mp hrun
  cases hret
  have hown := ownMatched_of_updateFtable hT₁ hsearch (h.of_sameLinks hlinks) hupdate
  obtain ⟨ft₂, ret₂, hupdate', htable⟩ := updateFtable_spec hT₁ hsearch hown
  rw [hupdate', Except.ok.injEq, Prod.mk.injEq] at hupdate
  exact ⟨hsame, hsearch, hupdate.1 ▸ htable⟩

end ThisFirst

/-! ## Traced runs -/

/-- The subsystem, with the interfaces from which its table was built last. The table of
`pwospf_init` is not built from neighbor records. -/
structure Traced where
  subsys : PwospfSubsys
  built : Option (List PwospfIflist)

def Traced.start (S : PwospfSubsys) : Traced := ⟨S, none⟩

def Traced.run (t : Traced) (e : Event) : Exec Traced := do
  let S ← e.run t.subsys
  return ⟨S, if (e.rebuilt t.subsys).isSome then some t.subsys.interfaces else t.built⟩

def TracedStep (t : Traced) (e : Event) (t' : Traced) : Prop :=
  e.Admitted t.subsys ∧ t.run e = .ok t'

section Traced

variable {t t' : Traced} {e : Event}

theorem TracedStep.run (h : TracedStep t e t') :
    e.run t.subsys = .ok t'.subsys ∧
      t'.built = if (e.rebuilt t.subsys).isSome then some t.subsys.interfaces else t.built := by
  obtain ⟨S, hrun, hS⟩ := bind_eq_ok.mp h.2
  cases hS
  exact ⟨hrun, rfl⟩

/-- The invariant rule for traced runs: `hbuild` for the events that build the table, `hkeep` for
those that do not. -/
theorem traced_invariant {I : Traced → Prop} {ok : Traced → Event → Prop} {S₀ : PwospfSubsys}
    (hbuild : ∀ t e T S', t.subsys.Wf → SameConfig S₀ t.subsys → I t → ok t e →
      e.rebuilt t.subsys = some T → T.Wf → ThisFirst T →
      recompute { t.subsys with top := T } = .ok S' → I ⟨S', some t.subsys.interfaces⟩)
    (hkeep : ∀ t e S', t.subsys.Wf → SameConfig S₀ t.subsys → I t → ok t e →
      e.rebuilt t.subsys = none → e.run t.subsys = .ok S' → I ⟨S', t.built⟩)
    (h₀ : S₀.Wf) (hfirst : ThisFirst S₀.top) (hstart : I (.start S₀))
    (ht : Reach TracedStep ok (.start S₀) t) : t.subsys.Wf ∧ SameConfig S₀ t.subsys ∧ I t := by
  have hall : t.subsys.Wf ∧ SameConfig S₀ t.subsys ∧ ThisFirst t.subsys.top ∧ I t := by
    refine Reach.invariant (I := fun t : Traced => t.subsys.Wf ∧ SameConfig S₀ t.subsys ∧
      ThisFirst t.subsys.top ∧ I t) ⟨h₀, .refl S₀, hfirst, hstart⟩ ?_ ht
    rintro t e ⟨S', built⟩ ⟨hWf, hconf, hfirst, hI⟩ hok hstep
    obtain ⟨hrun, hbuilt⟩ := hstep.run
    simp only at hrun hbuilt
    have hfirst' := Event.run_thisFirst hWf hfirst hstep.1 hrun
    obtain ⟨hWf', hconf'⟩ : S'.Wf ∧ SameConfig t.subsys S' := by
      rcases Event.run_wf hWf hstep.1 with ⟨S'', hrun', h⟩ | hfault
      · rw [hrun', Except.ok.injEq] at hrun
        exact hrun ▸ h
      · rw [hrun] at hfault
        cases hfault
    refine ⟨hWf', hconf.trans hconf', hfirst', ?_⟩
    rcases Event.run_rebuilt hWf hrun with ⟨T, hT, hTWf, hrec⟩ | ⟨hnone, -⟩
    · rw [hT] at hbuilt
      rw [hbuilt]
      refine hbuild t e T S' hWf hconf hI hok hT hTWf ?_ hrec
      rcases recompute_spec (S := { t.subsys with top := T }) hTWf with
        ⟨T', ft, -, hrec', hsame, -⟩ | ⟨hfault, -⟩
      · rw [hrec', Except.ok.injEq] at hrec
        rw [← hrec] at hfirst'
        exact hfirst'.of_sameLinks hsame.sameLinks.symm
      · rw [hrec] at hfault
        cases hfault
    · rw [hnone] at hbuilt
      rw [hbuilt]
      exact hkeep t e S' hWf hconf hI hok hnone hrun
  exact ⟨hall.1, hall.2.1, hall.2.2.2⟩

end Traced

end PWOSPF
