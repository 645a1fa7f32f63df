import PWOSPF.Area.Network

/-!
# What the routers of an area merge

Every LSU that a router merges was issued, as it is, by the router it names; the numbers tell the LSUs
of one router apart until they wrap around; and a router that drops the LSU of another one has merged
that number before, unless the number is 0.
-/

namespace PWOSPF

open Framework Topo PacketField

/-! ## Numbers of the LSUs -/

theorem Event.run_lastSeqSent {S S' : PwospfSubsys} {e : Event} (h : e.run S = .ok S') :
    S'.lastSeqSent = S.lastSeqSent := by
  have hrun := Event.run_setLastSeqSent S e S.lastSeqSent
  rw [show S.setLastSeqSent S.lastSeqSent = S from rfl, h] at hrun
  have hsame : S' = S'.setLastSeqSent S.lastSeqSent := Except.ok.inj hrun
  rw [hsame]
  rfl

theorem setSequence_lastSeqSent (S : PwospfSubsys) (id : UInt32) (seq : UInt16) :
    (setSequence S id seq).lastSeqSent = S.lastSeqSent := by
  rw [setSequence]
  split <;> rfl

theorem handlePwospf_lastSeqSent {S : PwospfSubsys} {env : Env} {ps : PacketState} {out : Outcome}
    (h : handlePwospf S env ps = .ok out) : out.subsys.lastSeqSent = S.lastSeqSent := by
  cases handlePwospf_effect h with
  | dropped hout => rw [hout]; rfl
  | hello msg hrun => exact Event.run_lastSeqSent hrun
  | lsu rid seq ads S₁ _ _ _ hmerge hsubsys _ =>
    rw [hsubsys, setSequence_lastSeqSent]
    exact Event.run_lastSeqSent hmerge

section Numbers

variable {ι : Type} [DecidableEq ι] {sr : ι → SrInstance} {a a' : Area ι} {k : AreaInput ι}
  {area : UInt32} {rid : ι → UInt32} {S₀ : ι → PwospfSubsys}

/-- The LSUs of every router are numbered one after the other. -/
structure Numbered (rid : ι → UInt32) (S₀ : ι → PwospfSubsys) (a : Area ι) : Prop where
  sent : ∀ o, (a.subsys o).lastSeqSent =
    (S₀ o).lastSeqSent + .ofNat (numbersOf o a.issued).length
  seq : ∀ (o : ι) (n : Nat) (l : Lsu), (numbersOf o a.issued)[n]? = some l →
    l.rid = rid o ∧ l.seq = htons ((S₀ o).lastSeqSent + .ofNat (n + 1))

/-- Nothing is issued, and nobody counts on. -/
theorem Numbered.of_same (h : Numbered rid S₀ a) (hissued : a'.issued = a.issued)
    (hsent : ∀ o, (a'.subsys o).lastSeqSent = (a.subsys o).lastSeqSent) : Numbered rid S₀ a' where
  sent := by
    intro o
    rw [hissued, hsent]
    exact h.sent o
  seq := by
    rw [hissued]
    exact h.seq

theorem Numbered.issue (h : Numbered rid S₀ a) {i : ι} {l : Lsu} (hrid : l.rid = rid i)
    (hseq : l.seq = htons ((a.subsys i).lastSeqSent + 1)) (hissued : a'.issued = a.issued ++ [(i, l)])
    (hself : (a'.subsys i).lastSeqSent = (a.subsys i).lastSeqSent + 1)
    (hothers : ∀ o, o ≠ i → a'.subsys o = a.subsys o) : Numbered rid S₀ a' := by
  have hcount : ∀ o, numbersOf o a'.issued =
      if i = o then numbersOf o a.issued ++ [l] else numbersOf o a.issued := by
    intro o
    rw [hissued, numbersOf_concat]
  constructor
  · intro o
    rw [hcount]
    by_cases ho : i = o
    · subst ho
      rw [if_pos rfl, hself, h.sent, List.length_append, List.length_singleton, UInt16.ofNat_add,
        UInt16.add_assoc]
      rfl
    · rw [if_neg ho, hothers o (Ne.symm ho)]
      exact h.sent o
  · intro o n l' hl'
    rw [hcount] at hl'
    by_cases ho : i = o
    · subst ho
      rw [if_pos rfl] at hl'
      rcases Nat.lt_or_ge n (numbersOf i a.issued).length with hn | hn
      · rw [List.getElem?_append_left hn] at hl'
        exact h.seq i n l' hl'
      · -- the LSU that is issued now
        rw [List.getElem?_append_right hn, List.getElem?_singleton] at hl'
        split at hl'
        · next hzero =>
          cases hl'
          have hn' : n = (numbersOf i a.issued).length := by omega
          refine ⟨hrid, ?_⟩
          rw [hseq, h.sent, hn', UInt16.ofNat_add, UInt16.add_assoc]
          rfl
        · cases hl'
    · rw [if_neg ho] at hl'
      exact h.seq o n l' hl'

theorem Numbered.step (h : Numbered rid S₀ a) (hboot : ∀ i, Booted area (rid i) (S₀ i) (a.subsys i))
    (hstep : AreaStep sr a k a') : Numbered rid S₀ a' := by
  obtain ⟨-, hissued, -⟩ := hstep.logs
  have hsame : ∀ {i : ι} {n : Node}, a'.nodes = Function.update a.nodes i n →
      n.subsys.lastSeqSent = (a.subsys i).lastSeqSent →
      ∀ o, (a'.subsys o).lastSeqSent = (a.subsys o).lastSeqSent := by
    intro i n hnodes hn o
    rw [Area.subsys, hnodes]
    by_cases ho : o = i
    · subst ho
      rw [Function.update_self]
      exact hn
    · rw [Function.update_of_ne ho]
      rfl
  cases hstep.effect with
  | idle hlocal hnodes =>
    cases k with
    | receive | timeout | sendLsu => cases hlocal
    | sendHello i env =>
      refine h.of_same (hissued.trans (List.append_nil _)) fun o => ?_
      rw [Area.subsys, hnodes]
      rfl
  | act i x n hlocal hn hnodes =>
    cases k with
    | receive j env c ps =>
      cases hlocal
      obtain ⟨out, hrun, hout⟩ := bind_eq_ok.mp hn
      cases hout
      exact h.of_same (hissued.trans (List.append_nil _)) (hsame hnodes (handlePwospf_lastSeqSent hrun))
    | timeout j clock =>
      cases hlocal
      obtain ⟨S', hrun, hS'⟩ := bind_eq_ok.mp hn
      cases hS'
      exact h.of_same (hissued.trans (List.append_nil _))
        (hsame hnodes (Event.run_lastSeqSent (e := .timeout clock) hrun))
    | sendLsu j env =>
      cases hlocal
      obtain ⟨y, hrun, hy⟩ := bind_eq_ok.mp hn
      cases hy
      obtain ⟨this, hthis⟩ := mem_addrs_iff.mp (hboot i).thisListed
      have hissues : (AreaInput.sendLsu i env).issues sr a =
          [(i, ownLsu (sr i) (a.subsys i) this)] := by
        simp only [AreaInput.issues, hthis, Option.toList_some, List.map_cons, List.map_nil]
      have hown := (hboot i).ownRid hthis
      refine h.issue (l := ownLsu (sr i) (a.subsys i) this) hown rfl (hissued.trans (by rw [hissues])) ?_ ?_
      · rw [Area.subsys, hnodes, Function.update_self]
        show y.1.lastSeqSent = _
        rw [sendLsu_subsys hrun]
        rfl
      · intro o ho
        rw [Area.subsys, hnodes, Function.update_of_ne ho]
        rfl
    | sendHello j env => cases hlocal

theorem area_numbered (hboot : Boots area rid S₀) {ok : Area ι → AreaInput ι → Prop}
    (h : Reach (AreaStep sr) ok (.start S₀) a) : Numbered rid S₀ a := by
  induction h with
  | start =>
    refine ⟨fun o => ?_, fun o n l hl => ?_⟩
    · exact (UInt16.add_zero _).symm
    · cases hl
  | next hreach _ hstep ih => exact ih.step (fun i => hboot.booted hreach i) hstep

theorem issued_rid (hboot : Boots area rid S₀) {ok : Area ι → AreaInput ι → Prop}
    (h : Reach (AreaStep sr) ok (.start S₀) a) {o : ι} {l : Lsu} (hissued : (o, l) ∈ a.issued) :
    l.rid = rid o := by
  obtain ⟨n, hn, hget⟩ := List.getElem_of_mem (mem_numbersOf.mpr hissued)
  exact ((area_numbered hboot h).seq o n l (List.getElem?_eq_some_iff.mpr ⟨hn, hget⟩)).1

/-- Two LSUs of a router with one number are the same, as long as the numbers do not wrap around. -/
theorem Numbered.unique (h : Numbered rid S₀ a) {o : ι}
    (hfew : (numbersOf o a.issued).length ≤ 2 ^ 16) {l l' : Lsu} (hl : (o, l) ∈ a.issued)
    (hl' : (o, l') ∈ a.issued) (hseq : l.seq = l'.seq) : l = l' := by
  obtain ⟨n, hn, hget⟩ := List.getElem_of_mem (mem_numbersOf.mpr hl)
  obtain ⟨n', hn', hget'⟩ := List.getElem_of_mem (mem_numbersOf.mpr hl')
  have hsome := List.getElem?_eq_some_iff.mpr ⟨hn, hget⟩
  have hsome' := List.getElem?_eq_some_iff.mpr ⟨hn', hget'⟩
  have hsame : n = n' := by
    have hnum := (h.seq o n l hsome).2
    rw [hseq, (h.seq o n' l' hsome').2] at hnum
    have hnat := congrArg UInt16.toNat ((UInt16.add_right_inj _).mp (htons_injective hnum))
    rw [UInt16.toNat_ofNat', UInt16.toNat_ofNat'] at hnat
    omega
  subst hsame
  exact hget.symm.trans hget'

end Numbers

/-! ## Merges -/

/-- The router merges the LSU, as it is, and stores its number. -/
def MergesLsu (S : PwospfSubsys) (env : Env) (l : Lsu) (out : Outcome) : Prop :=
  out.applied = some (l.rid, l.seq) ∧
    ∃ S', addToTop S env.clock l.rid (routesOf env 0 l.advs) = .ok S' ∧
      out.subsys = setSequence S' l.rid l.seq

section Merges

variable {ι : Type} {sr : ι → SrInstance} {a a' : Area ι} {area : UInt32} {rid : ι → UInt32}
  {S₀ : ι → PwospfSubsys} {i i' : ι} {env env' : Env} {ps ps' : PacketState} {out out' : Outcome}

/-- The router gets the packet from the links, and this is what it does. -/
structure Area.Receives (a : Area ι) (i : ι) (env : Env) (ps : PacketState) (out : Outcome) :
    Prop where
  wire : ∃ c ∈ a.wire, c.Delivers ps.packet
  run : handlePwospf (a.subsys i) env ps = .ok out

theorem Taken.merges {issued : List (ι × Lsu)} {S : PwospfSubsys}
    (h : Taken rid issued S env area out) (happlied : out.applied ≠ none) :
    ∃ o l, (o, l) ∈ issued ∧ S.top.ridOf S.top.thisRouter ≠ some l.rid ∧
      MergesLsu S env l out ∧ ∀ c ∈ out.copies, ∃ ttl, Carries c.frame area l ttl := by
  cases h with
  | lsu o l ttl src hissued htaken =>
    cases htaken with
    | dropped _ hout =>
      rw [hout] at happlied
      exact absurd rfl happlied
    | merged S' hother _ hmerge hsubsys hmerged hcopies =>
      refine ⟨o, l, hissued, hother, ⟨hmerged, S', hmerge, hsubsys⟩, ?_⟩
      intro c hc
      obtain ⟨n, hn, rfl⟩ := List.getElem_of_mem hc
      exact ⟨ttl - 1, (hcopies.get hn (by rw [← hcopies.length_eq]; exact hn)).carries⟩
  | hello o htaken => exact absurd htaken.silent.2 happlied

variable [DecidableEq ι] {ok : Area ι → AreaInput ι → Prop}

/-- Whatever a router of the area takes from the links: if it merges it, it is an LSU of another
router, merged as that router issued it, and the copies the router passes on carry it unchanged. -/
theorem area_merges_issued (hboot : Boots area rid S₀) (h : Reach (AreaStep sr) ok (.start S₀) a)
    (hrec : a.Receives i env ps out) (happlied : out.applied ≠ none) :
    ∃ o l, (o, l) ∈ a.issued ∧ o ≠ i ∧ l.rid = rid o ∧ MergesLsu (a.subsys i) env l out ∧
      ∀ c ∈ out.copies, ∃ ttl, Carries c.frame area l ttl := by
  obtain ⟨c, hc, hdel⟩ := hrec.wire
  obtain ⟨o, l, hissued, hother, hmerges, hcopies⟩ := ((wire_genuine hboot h c hc).taken hdel
    (hboot.booted h i).toInArea hrec.run).merges happlied
  have hrid := issued_rid hboot h hissued
  refine ⟨o, l, hissued, ?_, hrid, hmerges, hcopies⟩
  rintro rfl
  exact hother (hrid ▸ (hboot.booted h o).rid)

/-- The log of a router names only LSUs that were issued. -/
theorem applied_issued (hboot : Boots area rid S₀) (h : Reach (AreaStep sr) ok (.start S₀) a) (i : ι)
    {x : UInt32 × UInt16} (hx : x ∈ (a.nodes i).applied) :
    ∃ o l, (o, l) ∈ a.issued ∧ x = (l.rid, l.seq) := by
  induction h with
  | start => cases hx
  | @next a a' k hreach _ hstep ih =>
    have hold : x ∈ (a.nodes i).applied → ∃ o l, (o, l) ∈ a'.issued ∧ x = (l.rid, l.seq) := by
      intro hmem
      obtain ⟨o, l, hissued, hxl⟩ := ih hmem
      rw [hstep.logs.2.1]
      exact ⟨o, l, List.mem_append_left _ hissued, hxl⟩
    cases hstep.effect with
    | idle _ hnodes =>
      rw [hnodes] at hx
      exact hold hx
    | act j y n hlocal hn hnodes =>
      rw [hnodes] at hx
      by_cases hij : i = j
      · subst hij
        rw [Function.update_self] at hx
        cases k with
        | receive j env c ps =>
          cases hlocal
          obtain ⟨out, hrun, hout⟩ := bind_eq_ok.mp hn
          cases hout
          rcases List.mem_append.mp hx with hx | hx
          · exact hold hx
          · obtain ⟨hc, hdel⟩ := hstep.1
            rw [Option.mem_toList] at hx
            obtain ⟨o, l, hissued, -, hmerges, -⟩ := ((wire_genuine hboot hreach c hc).taken hdel
              (hboot.booted hreach i).toInArea hrun).merges (by rw [hx]; simp)
            rw [hstep.logs.2.1]
            refine ⟨o, l, List.mem_append_left _ hissued, ?_⟩
            rw [hmerges.1, Option.some.injEq] at hx
            exact hx.symm
        | timeout j clock =>
          cases hlocal
          obtain ⟨S', -, hn⟩ := bind_eq_ok.mp hn
          cases hn
          exact hold hx
        | sendLsu j env =>
          cases hlocal
          obtain ⟨S', -, hn⟩ := bind_eq_ok.mp hn
          cases hn
          exact hold hx
        | sendHello j env => cases hlocal
      · rw [Function.update_of_ne hij] at hx
        exact hold hx

theorem issued_subset (h : Reach (AreaStep sr) ok a a') : a.issued ⊆ a'.issued := by
  induction h with
  | start => exact fun _ hx => hx
  | next _ _ hstep ih =>
    rw [hstep.logs.2.1]
    exact fun _ hx => List.mem_append_left _ (ih hx)

/-- Agreement: while no router has wrapped its numbers around, any two merges of one number of one
router, at whatever routers and at whatever times, are merges of the same LSU. -/
theorem area_merges_agree (hboot : Boots area rid S₀) (hdistinct : Function.Injective rid)
    (h : Reach (AreaStep sr) ok (.start S₀) a) (hlater : Reach (AreaStep sr) ok a a')
    (hfew : ∀ o, (numbersOf o a'.issued).length ≤ 2 ^ 16) (hrec : a.Receives i env ps out)
    (hrec' : a'.Receives i' env' ps' out') (happlied : out.applied ≠ none)
    (hsame : out'.applied = out.applied) :
    ∃ l, MergesLsu (a.subsys i) env l out ∧ MergesLsu (a'.subsys i') env' l out' := by
  have h' := h.trans hlater
  obtain ⟨o, l, hissued, -, hrid, hmerges, -⟩ := area_merges_issued hboot h hrec happlied
  obtain ⟨o', l', hissued', -, hrid', hmerges', -⟩ :=
    area_merges_issued hboot h' hrec' (by rwa [hsame])
  have hnames : l'.rid = l.rid ∧ l'.seq = l.seq := by
    have heq := hmerges'.1
    rw [hsame, hmerges.1, Option.some.injEq, Prod.mk.injEq] at heq
    exact ⟨heq.1.symm, heq.2.symm⟩
  have ho : o' = o := hdistinct (by rw [← hrid', ← hrid, hnames.1])
  subst ho
  have hl : l' = l := (area_numbered hboot h').unique (hfew o') hissued' (issued_subset hlater hissued)
    hnames.2
  exact ⟨l, hmerges, hl ▸ hmerges'⟩

end Merges

/-! ## Drops -/

/-- The id and the number stored for the router at an address. -/
def Topo.stored (T : Topo) (p : Ptr) : Option (UInt32 × UInt16) :=
  (T.find p).map fun r => (r.rid, r.lastSeq)

/-- What is stored for a router is 0 or one of the given numbers. -/
def StoresOnly (log : List (UInt32 × UInt16)) (T : Topo) : Prop :=
  ∀ p x, T.stored p = some x → x.2 = 0 ∨ x ∈ log

section Stored

variable {T T' : Topo} {S S' : PwospfSubsys} {log : List (UInt32 × UInt16)} {host : Ptr}
  {hostRid : UInt32}

theorem stored_of_agree {g : Router → Router} (h : Agree g T T')
    (hg : ∀ r, (g r).addr = r.addr ∧ (g r).rid = r.rid ∧ (g r).lastSeq = r.lastSeq) (p : Ptr) :
    T'.stored p = T.stored p :=
  h.find?_map_eq _ (fun r => by rw [(hg r).1]) _ fun r => by rw [(hg r).2.1, (hg r).2.2]

theorem StoresOnly.of_agree {g : Router → Router} (h : StoresOnly log T) (hT : Agree g T T')
    (hg : ∀ r, (g r).addr = r.addr ∧ (g r).rid = r.rid ∧ (g r).lastSeq = r.lastSeq) :
    StoresOnly log T' := by
  intro p x hx
  rw [stored_of_agree hT hg] at hx
  exact h p x hx

theorem StoresOnly.of_sameCore (h : StoresOnly log T) (hT : SameCore T T') : StoresOnly log T' :=
  h.of_agree hT fun _ => ⟨rfl, rfl, rfl⟩

theorem StoresOnly.conRouterOf (hT : T.Wf) (h : StoresOnly log T) (id : UInt32) (now : Time) :
    StoresOnly log (conRouterOf T id now).1 := by
  unfold PWOSPF.conRouterOf
  cases adjListContains T id with
  | some p => exact h
  | none =>
    intro p x hx
    have hfresh : T.nextAddr ∉ T.addrs := fun hmem => Nat.lt_irrefl _ (hT.fresh _ hmem)
    simp only [Topo.stored, addNewRouter_find id now hfresh] at hx
    split at hx
    · cases hx
      exact Or.inl rfl
    · exact h p x hx

theorem StoresOnly.addAdvert (hT : T.Wf) (hhost : T.ridOf host = some hostRid)
    (h : StoresOnly log T) {ad : Route} {now : Time} (hrun : addAdvert T host ad now = .ok T') :
    StoresOnly log T' := by
  obtain ⟨T₁, hcore, hT₁, hcase⟩ := recordAtHost_spec hT (listed_of_ridOf hhost) ad
  have h₁ := h.of_sameCore hcore
  obtain ⟨goOn, hrec⟩ : ∃ goOn, recordAtHost T host ad = .ok (T₁, goOn) := by
    rcases hcase with ⟨-, hrec, -⟩ | ⟨old, -, hrec, -⟩
    · exact ⟨true, hrec⟩
    · exact ⟨false, hrec⟩
  rw [PWOSPF.addAdvert, hrec, ok_bind] at hrun
  simp only at hrun
  split at hrun
  · -- the router that is attached may be new
    have hhost₁ : T₁.ridOf host = some hostRid := by rw [hcore.ridOf, hhost]
    obtain ⟨hT₂, hext₂, -, -, hcon, -⟩ := conRouterOf_spec hT₁ ad.rId now
    have h₂ := h₁.conRouterOf hT₁ ad.rId now
    have hp₂ : host ∈ (PWOSPF.conRouterOf T₁ ad.rId now).1.addrs :=
      hext₂.listed (listed_of_ridOf hhost₁)
    obtain ⟨T₃, hrun₃, hcore₃, hT₃, -⟩ := addAdjacency_spec hT₂ hp₂ (listed_of_ridOf hcon)
    obtain ⟨T₄, hrun₄, hcore₄, hT₄, -⟩ := addAdjacency_spec hT₃
      (by rw [hcore₃.addrs]; exact listed_of_ridOf hcon) (by rw [hcore₃.addrs]; exact hp₂)
    rw [linkAdvert] at hrun
    simp only [hrun₃, hrun₄, ok_bind] at hrun
    obtain ⟨r, -, hrun⟩ := bind_eq_ok.mp hrun
    obtain ⟨T₅, hrun₅, hcore₅, -⟩ := recordAtPeer_spec hT₄
      (by rw [hcore₄.addrs, hcore₃.addrs]; exact listed_of_ridOf hcon) { ad with rId := r.rid }
    rw [hrun₅, Except.ok.injEq] at hrun
    subst hrun
    exact ((h₂.of_sameCore hcore₃).of_sameCore hcore₄).of_sameCore hcore₅
  · cases hrun
    exact h₁

theorem StoresOnly.addAdverts {ads : List Route} {clock : Nat → Time} (hT : T.Wf)
    (hhost : T.ridOf host = some hostRid) (h : StoresOnly log T)
    (hrun : addAdverts host clock ads T = .ok T') : StoresOnly log T' := by
  induction ads generalizing T clock with
  | nil =>
    cases hrun
    exact h
  | cons ad ads ih =>
    obtain ⟨T₁, hrun₁, hT₁, hext, -⟩ := addAdvert_spec hT hhost ad (clock 0)
    rw [PWOSPF.addAdverts, hrun₁, ok_bind] at hrun
    exact ih hT₁ (by rw [hext.ridOf (listed_of_ridOf hhost), hhost]) (h.addAdvert hT hhost hrun₁) hrun

theorem StoresOnly.merge (hT : T.Wf) (h : StoresOnly log T) {initTime : Time} {clock : Nat → Time}
    {ads : List Route} (hrun : mergeAdverts T initTime clock hostRid ads = .ok T') :
    StoresOnly log T' := by
  obtain ⟨hT₁, -, -, -, hhost₁, -⟩ := mergeStart_spec hT clock hostRid
  have hstart : Agree (fun r : Router => { r with expired := 0 })
      (PWOSPF.conRouterOf T hostRid (clock 0)).1 (mergeStart T clock hostRid) :=
    modify_agree _ _ _ fun _ => rfl
  have h₁ := (h.conRouterOf hT hostRid (clock 0)).of_agree hstart fun _ => ⟨rfl, rfl, rfl⟩
  obtain ⟨T₂, hrun₂, hT₂, hext₂, -⟩ := addAdverts_invariant (I := fun _ => True)
    (fun _ _ _ _ _ _ _ _ _ _ => True.intro) hT₁ hhost₁ True.intro
    (AdvertsAll.trivial _ (fun k => clock (k + 2)) ads _)
  obtain ⟨T'', hrun', -, -, h'⟩ := mergePrune_invariant (I := StoresOnly log)
    (Q := fun _ _ _ => True)
    (fun _ _ _ _ _ _ _ h _ _ _ _ hrem => h.of_sameCore hrem.core)
    hT hrun₂ hT₂ hext₂ (h₁.addAdverts hT₁ hhost₁ hrun₂)
    (fun _ : initTime < clock (ads.length + 2) => PruneAll.trivial _ _ _ _ _ _)
  rw [hrun', Except.ok.injEq] at hrun
  exact hrun ▸ h'

theorem StoresOnly.recompute (hT : S.top.Wf) (h : StoresOnly log S.top)
    (hrun : recompute S = .ok S') : StoresOnly log S'.top := by
  rcases recompute_spec hT with ⟨T, ft, -, hrun', hsame, -⟩ | ⟨hfault, -⟩
  · rw [hrun', Except.ok.injEq] at hrun
    subst hrun
    exact h.of_agree hsame fun _ => ⟨rfl, rfl, rfl⟩
  · rw [hrun] at hfault
    cases hfault

theorem StoresOnly.addToTop (hT : S.top.Wf) (h : StoresOnly log S.top) {clock : Nat → Time}
    {ads : List Route} (hrun : addToTop S clock hostRid ads = .ok S') : StoresOnly log S'.top := by
  obtain ⟨T, hmerge, hrecompute⟩ := bind_eq_ok.mp hrun
  have hTWf := (mergeAdverts_lastSeq hT hmerge).1
  exact (h.merge hT hmerge).recompute (S := { S with top := T }) hTWf hrecompute

theorem StoresOnly.timeout (hT : S.top.Wf) (h : StoresOnly log S.top) {clock : Nat → Time}
    (hrun : checkTopInvalid S clock = .ok S') : StoresOnly log S'.top := by
  obtain ⟨T, changed, hloop, hTWf, -, h', -⟩ := expiryLoop_invariant (I := StoresOnly log)
    (fun T p id T' _ _ _ h _ hrem => by
      intro q x hx
      by_cases hq : q = p
      · subst hq
        have hnone : T'.find q = none := by
          apply find_eq_none_iff.mpr
          rw [hrem.addrs]
          simp
        rw [Topo.stored, hnone] at hx
        cases hx
      · have hsame := congrArg (Option.map fun r => (r.rid, r.lastSeq)) (hrem.core q hq)
        rw [Option.map_map, Option.map_map] at hsame
        exact h q x (hsame.symm.trans hx))
    (later 1 clock) false hT (fun _ h => h) hT.addrsNodup h
  rw [checkTopInvalid, hloop, ok_bind] at hrun
  cases changed with
  | true => exact h'.recompute (S := { S with top := T }) hTWf hrun
  | false =>
    cases hrun
    exact h'

theorem StoresOnly.hello (hS : S.Wf) (h : StoresOnly log S.top) {clock : Nat → Time}
    {msg : HelloMsg} (hrun : handleHello S clock msg = .ok S') : StoresOnly log S'.top := by
  rw [handleHello] at hrun
  by_cases hlen : msg.len < helloLen
  · rw [if_pos hlen] at hrun
    cases hrun
    exact h
  · obtain ⟨interfaces, T, hloop, -, -, -, hcore, -⟩ := helloLoop_invariant (I := fun _ => True)
      (Q := fun _ _ => True) (L := fun _ _ => True) (fun _ _ _ _ _ _ _ _ _ _ => True.intro)
      (fun _ _ _ _ _ _ _ _ => True.intro) hS.top True.intro hS.buffers
      (HelloAll.trivial S.initTime msg clock false S.interfaces S.top)
    rw [if_neg hlen, hloop] at hrun
    cases hrun
    exact h.of_sameCore hcore

theorem StoresOnly.setSequence (hT : S.top.Wf) (h : StoresOnly log S.top) (id : UInt32) (seq : UInt16) :
    StoresOnly (log ++ [(id, seq)]) (setSequence S id seq).top := by
  intro q x hx
  unfold PWOSPF.setSequence at hx
  cases hp : adjListContains S.top id with
  | none =>
    rw [hp] at hx
    exact (h q x hx).imp_right (List.mem_append_left _)
  | some p =>
    have hrid := hT.adjListContains_iff.mp hp
    rw [hp] at hx
    simp only [Topo.stored] at hx
    rw [find_modify S.top p q (Router.setLastSeq seq) fun _ => rfl] at hx
    by_cases hq : q = p
    · subst hq
      rw [if_pos rfl] at hx
      obtain ⟨r, hr, hid⟩ := Option.map_eq_some_iff.mp hrid
      rw [hr] at hx
      cases hx
      subst hid
      exact Or.inr (List.mem_append_right _ List.mem_cons_self)
    · rw [if_neg hq] at hx
      exact (h q x hx).imp_right (List.mem_append_left _)

/-- A router stores 0, what it had in store, or a number that it merged. -/
theorem node_stores {S₀ : PwospfSubsys} (h₀ : S₀.Wf) (hstart : StoresOnly log S₀.top)
    {ok : Node → Input → Prop} {n : Node} (h : Reach NodeStep ok (.start S₀) n) :
    StoresOnly (log ++ n.applied) n.subsys.top := by
  induction h with
  | start =>
    rw [Node.start, List.append_nil]
    exact hstart
  | @next n n' x hreach _ hstep ih =>
    have hS := node_wf h₀ hreach
    cases x with
    | packet env ps =>
      obtain ⟨out, hrun, hn'⟩ := bind_eq_ok.mp hstep
      cases hn'
      cases handlePwospf_effect hrun with
      | dropped hout =>
        rw [hout, Outcome.dropped, Option.toList_none, List.append_nil]
        exact ih
      | hello msg hhello _ happlied =>
        rw [happlied, Option.toList_none, List.append_nil]
        exact ih.hello hS hhello
      | lsu rid seq ads S₁ _ hother _ hmerge hsubsys happlied =>
        have hS₁ : S₁.Wf := by
          rcases Event.run_wf (e := .lsu env.clock rid ads) hS hother with
            ⟨S₁', hrun', hS₁', -⟩ | hfault
          · rw [hrun', Except.ok.injEq] at hmerge
            exact hmerge ▸ hS₁'
          · rw [hmerge] at hfault
            cases hfault
        rw [happlied, hsubsys, Option.toList_some, ← List.append_assoc]
        exact (ih.addToTop hS.top hmerge).setSequence hS₁.top rid seq
    | timeout clock =>
      obtain ⟨S', hrun, hn'⟩ := bind_eq_ok.mp hstep
      cases hn'
      exact ih.timeout hS.top hrun
    | send sr env =>
      obtain ⟨y, hrun, hn'⟩ := bind_eq_ok.mp hstep
      cases hn'
      show StoresOnly (log ++ n.applied) y.1.top
      rw [sendLsu_subsys hrun]
      exact ih

end Stored

/-- The originator and the number of a dropped LSU of another router are stored. -/
theorem drop_stored {R : PwospfSubsys} {env : Env} {area : UInt32} {l : Lsu} {ttl : Nat}
    {src : InAddr} {out : Outcome} (h : LsuTaken R env area l ttl src out) (hR : R.Wf)
    {log : List (UInt32 × UInt16)} (hlog : StoresOnly log R.top)
    (hother : R.top.ridOf R.top.thisRouter ≠ some l.rid) (hdropped : out.applied = none) :
    l.seq = 0 ∨ (l.rid, l.seq) ∈ log := by
  cases h with
  | dropped hdrop _ =>
    have hseq := hdrop.resolve_left hother
    rw [getSequence] at hseq
    cases hfind : R.top.network.find? fun r => r.rid = l.rid with
    | none =>
      rw [hfind] at hseq
      exact Or.inl hseq.symm
    | some r =>
      rw [hfind] at hseq
      have hrid : r.rid = l.rid := by simpa using List.find?_some hfind
      have hr := find_of_mem hR.top.addrsNodup (List.mem_of_find?_eq_some hfind)
      have hstored : R.top.stored r.addr = some (l.rid, l.seq) := by
        rw [Topo.stored, hr, Option.map_some, hrid]
        exact congrArg (fun seq => some (l.rid, seq)) hseq
      exact hlog r.addr _ hstored
  | merged _ _ _ _ _ happlied _ =>
    rw [hdropped] at happlied
    cases happlied

/-- Nothing is lost to a false duplicate: a router that drops the LSU of another one has merged that
number of that router before, unless it is 0, which a router has in store for those it has not heard
of. -/
theorem area_drops_merged {ι : Type} [DecidableEq ι] {sr : ι → SrInstance} {a : Area ι}
    {area : UInt32} {rid : ι → UInt32} {S₀ : ι → PwospfSubsys} {ok : Area ι → AreaInput ι → Prop}
    {i : ι} {env : Env} {ps : PacketState} {out : Outcome} {l : Lsu} {ttl : Nat}
    (hboot : Boots area rid S₀) (hstart : ∀ i, StoresOnly [] (S₀ i).top)
    (h : Reach (AreaStep sr) ok (.start S₀) a) (hrec : a.Receives i env ps out)
    (hcarries : Carries ps.packet area l ttl) (hother : l.rid ≠ rid i)
    (hdropped : out.applied = none) : l.seq = 0 ∨ (l.rid, l.seq) ∈ (a.nodes i).applied := by
  have hbooted := hboot.booted h i
  have hstores := node_stores (hboot.wf i) (hstart i)
    (anyNode_of_area h i)
  have hmin : PacketField.ipSrc.offset + PacketField.ipSrc.width ≤ ps.packet.length := by
    rw [hcarries.length]
    exact Nat.le_trans (by decide) (Nat.le_add_right 66 _)
  obtain ⟨src, hsrc⟩ := Frame.get_exists hmin
  refine drop_stored (handlePwospf_taken hcarries hbooted.toInArea hsrc hrec.run) hbooted.wf
    hstores ?_ hdropped
  rw [hbooted.rid, ne_eq, Option.some.injEq]
  exact Ne.symm hother

section Demo

/-- After these moves a router gets the copy at a position of the links. -/
def demoTake (a₀ : Area Bool) (ms : List DemoMove) (i : Bool) (n : Nat) :
    Option (Area Bool × PacketState × Outcome) := do
  let a ← demoRun demoRouters (fun _ _ => True) ms a₀
  let c ← a.wire[n]?
  match c.awaits, handlePwospf (a.subsys i) demoEnv ⟨c.frame, eth0Interface⟩ with
  | none, .ok out => some (a, ⟨c.frame, eth0Interface⟩, out)
  | _, _ => none

theorem demoTake_receives {a₀ : Area Bool} {ms : List DemoMove} {i : Bool} {n : Nat}
    {x : Area Bool × PacketState × Outcome} (h : demoTake a₀ ms i n = some x) :
    Reach (AreaStep demoRouters) (fun _ _ => True) a₀ x.1 ∧
      x.1.Receives i demoEnv x.2.1 x.2.2 := by
  obtain ⟨a, ha, h⟩ := Option.bind_eq_some_iff.mp h
  obtain ⟨c, hc, h⟩ := Option.bind_eq_some_iff.mp h
  cases hnow : c.awaits with
  | some dst =>
    simp only [hnow] at h
    cases h
  | none =>
    cases hrun : handlePwospf (a.subsys i) demoEnv ⟨c.frame, eth0Interface⟩ with
    | error e =>
      simp only [hnow, hrun] at h
      cases h
    | ok out =>
      simp only [hnow, hrun, Option.some.injEq] at h
      subst h
      refine ⟨demoRun_reach .start ha, ⟨c, List.mem_of_getElem? hc, ?_⟩, hrun⟩
      unfold Handoff.Delivers
      rw [hnow]

theorem demoSubsys_boots : Boots 0 demoRid demoSubsys where
  wf := fun i => pwospfInit_wf (demoSubsys_init i)
  areaId := by decide +kernel
  autype := by decide +kernel
  rid := by decide +kernel

/-- HELLOs in both directions, then an LSU of 10.0.0.1. -/
def demoHellos : List DemoMove :=
  [.hello true, .deliver false 0, .hello false, .deliver true 1, .lsu true]

theorem area_merges_issued_demo :
    ∃ a ps out, Area.Receives a false demoEnv ps out ∧ out.applied = some (0x0100000a, 0x0100) ∧
      ∃ o l, (o, l) ∈ a.issued ∧ o ≠ false ∧ MergesLsu (a.subsys false) demoEnv l out := by
  have hrun : (demoTake (.start demoSubsys) demoHellos false 2).map (fun x => x.2.2.applied) =
      some (some (0x0100000a, 0x0100)) := by
    decide +kernel
  obtain ⟨x, hx, happlied⟩ := Option.map_eq_some_iff.mp hrun
  obtain ⟨hreach, hrec⟩ := demoTake_receives hx
  obtain ⟨o, l, hissued, ho, -, hmerges, -⟩ :=
    area_merges_issued demoSubsys_boots hreach hrec (by rw [happlied]; simp)
  exact ⟨x.1, x.2.1, x.2.2, hrec, happlied, o, l, hissued, ho, hmerges⟩

/-- The LSU arrives again behind the next one of its originator, and is merged a second time. -/
theorem area_merges_agree_demo :
    ∃ a ps out a' ps' out' l, Area.Receives a false demoEnv ps out ∧
      Area.Receives a' false demoEnv ps' out' ∧ (a.nodes false).applied = [] ∧
      (a'.nodes false).applied = [(0x0100000a, 0x0100), (0x0100000a, 0x0200)] ∧
      out.applied = some (0x0100000a, 0x0100) ∧ MergesLsu (a.subsys false) demoEnv l out ∧
      MergesLsu (a'.subsys false) demoEnv l out' := by
  have hrun : ((demoTake (.start demoSubsys) demoHellos false 2).bind fun x =>
      (demoTake x.1 [.deliver false 2, .lsu true, .deliver false 3] false 2).map fun y =>
        (([x.2.2.applied, y.2.2.applied], y.1.issued.length),
          [(x.1.nodes false).applied, (y.1.nodes false).applied])) =
      some (([some (0x0100000a, 0x0100), some (0x0100000a, 0x0100)], 2),
        [[], [(0x0100000a, 0x0100), (0x0100000a, 0x0200)]]) := by
    decide +kernel
  obtain ⟨x, hx, hrun⟩ := Option.bind_eq_some_iff.mp hrun
  obtain ⟨y, hy, hlog⟩ := Option.map_eq_some_iff.mp hrun
  simp only [Prod.mk.injEq, List.cons.injEq, and_true] at hlog
  obtain ⟨⟨⟨hfirst, hsecond⟩, hissued⟩, hnone, hboth⟩ := hlog
  obtain ⟨hreach, hrec⟩ := demoTake_receives hx
  obtain ⟨hlater, hrec'⟩ := demoTake_receives hy
  have hfew : ∀ o, (numbersOf o y.1.issued).length ≤ 2 ^ 16 := by
    intro o
    rw [numbersOf, List.length_map]
    exact Nat.le_trans (List.length_filter_le _ _) (by rw [hissued]; decide)
  obtain ⟨l, hmerges, hmerges'⟩ := area_merges_agree demoSubsys_boots (by decide) hreach hlater hfew
    hrec hrec' (by rw [hfirst]; simp) (hsecond.trans hfirst.symm)
  exact ⟨x.1, x.2.1, x.2.2, y.1, y.2.1, y.2.2, l, hrec, hrec', hnone, hboth, hfirst, hmerges,
    hmerges'⟩

/-- The LSU arrives a second time. -/
theorem area_drops_merged_demo :
    ∃ a ps out, Area.Receives a false demoEnv ps out ∧ out.applied = none ∧
      (0x0100000a, 0x0100) ∈ (a.nodes false).applied := by
  have hrun : (demoTake (.start demoSubsys) (demoHellos ++ [.deliver false 2]) false 2).map (fun x =>
      (x.2.2.applied, decide (x.2.1.packet.get ospfType = .ok ospfTypeLsu ∧
        x.2.1.packet.get ospfRid = .ok 0x0100000a ∧ x.2.1.packet.get lsuSeq = .ok 0x0100))) =
      some (none, true) := by
    decide +kernel
  obtain ⟨x, hx, hlog⟩ := Option.map_eq_some_iff.mp hrun
  rw [Prod.mk.injEq] at hlog
  obtain ⟨htype, hgetRid, hgetSeq⟩ := of_decide_eq_true hlog.2
  obtain ⟨hreach, hrec⟩ := demoTake_receives hx
  obtain ⟨c, hc, hdel⟩ := hrec.wire
  have hstart : ∀ i, StoresOnly [] (demoSubsys i).top := by
    intro i p x hx
    obtain ⟨r, hr, rfl⟩ := Option.map_eq_some_iff.mp hx
    have hzero : ∀ i, ∀ r ∈ (demoSubsys i).top.network, r.lastSeq = 0 := by decide +kernel
    exact Or.inl (hzero i r (find_mem hr))
  cases wire_genuine demoSubsys_boots hreach c hc with
  | hello o i hnow _ hsays =>
    rw [hdel.eq_frame hnow, hsays.type] at htype
    cases htype
  | lsu o l ttl pair j _ _ hcarries =>
    have hfinal := (hcarries.delivered hdel).carries
    have hrid : l.rid = 0x0100000a :=
      UInt32.toNat_inj.mp (Except.ok.inj (hfinal.rid.symm.trans hgetRid))
    have hseq : l.seq = 0x0100 :=
      UInt16.toNat_inj.mp (Except.ok.inj (hfinal.seq.symm.trans hgetSeq))
    have hmerged := (area_drops_merged demoSubsys_boots hstart hreach hrec hfinal
      (by rw [hrid]; decide) hlog.1).resolve_left (by rw [hseq]; decide)
    rw [hrid, hseq] at hmerged
    exact ⟨x.1, x.2.1, x.2.2, hrec, hlog.1, hmerged⟩

end Demo

end PWOSPF
