import PWOSPF.Area.Network
import PWOSPF.Subsystem.Rebuilds

/-!
# Where routes come from

Subnets and router ids only ever come from the interfaces and the static routes of the routers of the
area. LSUs name what their originators hold, the merge puts them into other databases, from which
their owners advertise them again; but no interleaving of packets, losses and timeouts makes a route
or a router up.
-/

namespace PWOSPF

open Framework Topo PacketField

/-! ## One database -/

/-- The ids and the subnets in the database are among the given ones. -/
structure Attested (ids : UInt32 → Prop) (known : InAddr → InAddr → Prop) (T : Topo) : Prop where
  rids : ∀ p id, T.ridOf p = some id → ids id
  subs : ∀ p, ∀ s ∈ T.subs p, known s.pfix s.mask ∧ (s.rId = 0 ∨ ids s.rId)

/-- So are those in an LSU. -/
def AttestedAds (ids : UInt32 → Prop) (known : InAddr → InAddr → Prop) (ads : List Route) : Prop :=
  ∀ ad ∈ ads, known ad.pfix ad.mask ∧ (ad.rId = 0 ∨ ids ad.rId)

def TableAttested (known : InAddr → InAddr → Prop) (ft : List FtableEntry) : Prop :=
  ∀ e ∈ ft, known e.pfix e.mask

/-- What an event brings in. -/
def Event.Attests (ids : UInt32 → Prop) (known : InAddr → InAddr → Prop) : Event → Prop
  | .lsu _ hostRid ads => ids hostRid ∧ AttestedAds ids known ads
  | .seq _ _ => True
  | .hello _ msg => msg.rid = 0 ∨ ids msg.rid
  | .timeout _ => True

section Database

variable {ids : UInt32 → Prop} {known : InAddr → InAddr → Prop} {T T' : Topo} {host : Ptr}
  {hostRid : UInt32}

theorem Attested.of_sub (h : Attested ids known T)
    (hrids : ∀ p id, T'.ridOf p = some id → T.ridOf p = some id ∨ ids id)
    (hsubs : ∀ p, ∀ s ∈ T'.subs p, s ∈ T.subs p ∨ known s.pfix s.mask ∧ (s.rId = 0 ∨ ids s.rId)) :
    Attested ids known T' where
  rids := by
    intro p id hid
    rcases hrids p id hid with hold | hnew
    · exact h.rids p id hold
    · exact hnew
  subs := by
    intro p s hs
    rcases hsubs p s hs with hold | hnew
    · exact h.subs p s hold
    · exact hnew

theorem Attested.of_links (h : Attested ids known T) (hl : SameLinks T T') :
    Attested ids known T' :=
  h.of_sub (fun p id hid => Or.inl (by rwa [hl.ridOf] at hid))
    (fun p s hs => Or.inl (by rwa [hl.subs] at hs))

theorem Attested.linkRemoved {id : UInt32} (h : Attested ids known T)
    (hrem : LinkRemoved T host hostRid id T') : Attested ids known T' :=
  h.of_sub (fun p id hid => Or.inl (by rwa [hrem.core.ridOf] at hid))
    (fun p s hs => Or.inl (hrem.subs_subset p s hs))

theorem Attested.routerRemoved {p : Ptr} {id : UInt32} (h : Attested ids known T)
    (hrem : RouterRemoved T p id T') : Attested ids known T' := by
  refine h.of_sub (fun q id' hid => Or.inl ?_) fun q s hs => Or.inl ?_
  · have hq : q ≠ p := by
      rintro rfl
      have hlisted := listed_of_ridOf hid
      rw [hrem.addrs] at hlisted
      simp at hlisted
    rwa [hrem.ridOf hq] at hid
  · rw [hrem.subs] at hs
    split at hs
    · cases hs
    · exact mem_of_mem_swapEraseP hs

theorem Attested.subnetLabelled {msg : HelloMsg} (h : Attested ids known T)
    (hmsg : msg.rid = 0 ∨ ids msg.rid) (hlab : SubnetLabelled T msg T') : Attested ids known T' := by
  obtain ⟨pre, old, post, hsplit, -, -, -, hsubs⟩ := hlab.subs
  refine h.of_sub (fun q id hid => Or.inl (by rwa [hlab.core.ridOf] at hid)) fun q s hs => ?_
  rw [hsubs] at hs
  by_cases hq : q = T.thisRouter
  · subst hq
    have hmem : ∀ x, x ∈ pre ∨ x = old ∨ x ∈ post → x ∈ T.subs T.thisRouter := by
      intro x hx
      rw [hsplit]
      simpa using hx
    rw [Function.update_self, List.mem_append, List.mem_cons] at hs
    rcases hs with hs | rfl | hs
    · exact Or.inl (hmem s (Or.inl hs))
    · exact Or.inr ⟨(h.subs _ old (hmem old (Or.inr (Or.inl rfl)))).1, hmsg⟩
    · exact Or.inl (hmem s (Or.inr (Or.inr hs)))
  · rw [Function.update_of_ne hq] at hs
    exact Or.inl hs

/-- Recording a route brings in its prefix and mask or gives an old subnet its id. -/
theorem Recorded.attested {A : Prop} {subs subs' : List Route} {ad : Route}
    (hrec : Recorded A subs ad subs') (hsubs : AttestedAds ids known subs)
    (had : known ad.pfix ad.mask ∧ (ad.rId = 0 ∨ ids ad.rId)) : AttestedAds ids known subs' := by
  cases hrec with
  | kept => exact hsubs
  | added =>
    intro s hs
    rcases List.mem_append.mp hs with hs | hs
    · exact hsubs s hs
    · rw [List.mem_singleton.mp hs]
      exact had
  | relabelled pre post old hsplit =>
    rw [hsplit] at hsubs
    obtain ⟨hpre, hold, hpost⟩ :
        AttestedAds ids known pre ∧ (known old.pfix old.mask ∧ (old.rId = 0 ∨ ids old.rId)) ∧
          AttestedAds ids known post := by
      have hall := List.forall_mem_append.mp hsubs
      exact ⟨hall.1, List.forall_mem_cons.mp hall.2⟩
    intro s hs
    rcases List.mem_append.mp hs with hs | hs
    · exact hpre s hs
    · rcases List.mem_cons.mp hs with rfl | hs
      · exact ⟨hold.1, had.2⟩
      · exact hpost s hs

theorem attested_update {f : Ptr → List Route} (hf : ∀ p, AttestedAds ids known (f p)) {q : Ptr}
    {l : List Route} (hl : AttestedAds ids known l) :
    ∀ p, AttestedAds ids known (Function.update f q l p) := by
  intro p
  by_cases hp : p = q
  · subst hp
    rwa [Function.update_self]
  · rw [Function.update_of_ne hp]
    exact hf p

theorem Attested.advert (h : Attested ids known T) {ad : Route}
    (hhost : ids hostRid) (had : known ad.pfix ad.mask ∧ (ad.rId = 0 ∨ ids ad.rId))
    (hext : T.Extends T') (heff : AdvertEffect T host hostRid ad T') : Attested ids known T' := by
  have hold : ∀ p id, p ∈ T.addrs → T'.ridOf p = some id → ids id := by
    intro p id hp hid
    rw [hext.ridOf hp] at hid
    exact h.rids p id hid
  have hlinked : ∀ {con : Ptr}, ad.rId ≠ 0 → T'.ridOf con = some ad.rId →
      (∀ q ∈ T'.addrs, q ∈ T.addrs ∨ q = con) → ∀ p id, T'.ridOf p = some id → ids id := by
    intro con h0 hcon haddrs p id hid
    rcases haddrs p (listed_of_ridOf hid) with hp | rfl
    · exact hold p id hp hid
    · rw [hcon, Option.some.injEq] at hid
      exact hid ▸ had.2.resolve_left h0
  cases heff with
  | conflict old _ hcore _ _ _ hsubs _ =>
    refine h.of_sub (fun p id hid => Or.inl (by rwa [hcore.ridOf] at hid)) fun p s hs => Or.inl ?_
    rw [hsubs] at hs
    by_cases hp : p = host
    · subst hp
      rw [Function.update_self] at hs
      exact mem_of_mem_swapEraseP hs
    · rwa [Function.update_of_ne hp] at hs
  | stub _ _ hcore subs hrec hsubs _ =>
    refine ⟨fun p id hid => h.rids p id (by rwa [hcore.ridOf] at hid), ?_⟩
    rw [hsubs]
    exact attested_update h.subs (hrec.attested (h.subs host) had)
  | linked _ h0 subs hrec con hcon _ haddrs _ subs' hrec' hsubs _ =>
    have hfirst := attested_update h.subs (q := host) (hrec.attested (h.subs host) had)
    refine ⟨hlinked h0 hcon haddrs, ?_⟩
    rw [hsubs]
    exact attested_update hfirst (hrec'.attested (hfirst con) ⟨had.1, Or.inr hhost⟩)
  | refused _ h0 subs hrec con hcon _ haddrs _ hsubs _ =>
    refine ⟨hlinked h0 hcon haddrs, ?_⟩
    rw [hsubs]
    exact attested_update h.subs (hrec.attested (h.subs host) had)

theorem Attested.merge (hT : T.Wf) (h : Attested ids known T) {initTime : Time}
    {clock : Nat → Time} {ads : List Route} (hhost : ids hostRid)
    (hads : AttestedAds ids known ads) (hrun : mergeAdverts T initTime clock hostRid ads = .ok T') :
    Attested ids known T' := by
  obtain ⟨-, hext, -, hsubs, hrid, -, haddrs⟩ := mergeStart_spec hT clock hostRid
  have hstart : Attested ids known (mergeStart T clock hostRid) := by
    refine h.of_sub (fun p id hid => ?_) fun p s hs => Or.inl (by rwa [hsubs] at hs)
    rcases haddrs p (listed_of_ridOf hid) with hp | rfl
    · exact Or.inl (by rwa [hext.ridOf hp] at hid)
    · rw [hrid, Option.some.injEq] at hid
      exact Or.inr (hid ▸ hhost)
  obtain ⟨T'', hrun', -, -, h'⟩ := mergeLoops_invariant (I := Attested ids known)
    (P := fun _ _ ad => known ad.pfix ad.mask ∧ (ad.rId = 0 ∨ ids ad.rId))
    (Q := fun _ _ _ => True)
    (fun host T ad T' _ _ hI had _ hext heff => hI.advert hhost had hext heff)
    (fun host ads T s T' _ _ hI _ _ _ _ hrem => hI.linkRemoved hrem)
    hT hstart ⟨.of_forall (fun ad had _ => hads ad had) _ _ _,
      fun _ _ _ => .trivial _ _ _ _ _ _⟩
  rw [hrun', Except.ok.injEq] at hrun
  exact hrun ▸ h'

end Database

/-! ## One event -/

theorem HelloAll.of_msg {L : HelloMsg → Prop} {msg : HelloMsg} (h : L msg) (initTime : Time)
    (clock : Nat → Time) (found : Bool) (interfaces : List PwospfIflist) (T : Topo) :
    HelloAll (fun _ _ => True) (fun _ msg => L msg) initTime msg clock found interfaces T := by
  induction interfaces generalizing clock found T with
  | nil => exact True.intro
  | cons iface rest ih =>
    exact ⟨.trivial _ _ _ _ _ _, fun _ _ _ _ => h, fun _ _ _ => ih _ _ _⟩

section Event

variable {ids : UInt32 → Prop} {known : InAddr → InAddr → Prop} {S S' : PwospfSubsys} {e : Event}

theorem Attested.event (hS : S.Wf) (h : Attested ids known S.top) (hadm : e.Admitted S)
    (hat : e.Attests ids known) (hrun : e.run S = .ok S') : Attested ids known S'.top := by
  have hmeets : e.Meets (fun _ _ hostRid ads => ids hostRid ∧ AttestedAds ids known ads)
      (fun _ _ => True) (fun _ msg => msg.rid = 0 ∨ ids msg.rid) S := by
    cases e with
    | lsu => exact hat
    | seq => exact True.intro
    | hello clock msg =>
      exact fun _ => HelloAll.of_msg (L := fun msg => msg.rid = 0 ∨ ids msg.rid) hat _ _ _ _ _
    | timeout => exact True.intro
  rcases Event.run_invariant (I := Attested ids known)
    (fun T T' _ hI hl => hI.of_links hl)
    (fun S clock hostRid ads T' hS _ hI hM hrun => hI.merge hS.top hM.1 hM.2 hrun)
    (fun T thisRid id T' _ _ hI _ _ hrem => hI.linkRemoved hrem)
    (fun T msg T' _ hI hL _ hlab => hI.subnetLabelled hL hlab)
    (fun T p id T' _ _ _ hI _ hrem => hI.routerRemoved hrem)
    hS h hadm hmeets with ⟨S'', hrun', -, -, h'⟩ | ⟨hfault, -⟩
  · rw [hrun', Except.ok.injEq] at hrun
    exact hrun ▸ h'
  · rw [hrun] at hfault
    cases hfault

/-- A table is built from the database that is left. -/
theorem recompute_tableAttested (hS : S.top.Wf) (hrun : recompute S = .ok S')
    (hfirst : ThisFirst S'.top) (h : Attested ids known S'.top) :
    TableAttested known S'.fwrdTable := by
  rcases recompute_spec hS with ⟨T, ft, hrebuild, hrun', hsame, -⟩ | ⟨hfault, -⟩
  · rw [hrun', Except.ok.injEq] at hrun
    subst hrun
    have hT := hS.toLinked.of_sameLinks hsame.sameLinks
    obtain ⟨-, -, htable⟩ :=
      rebuild_table hS.toLinked (hfirst.of_sameLinks hsame.sameLinks.symm) hrebuild
    intro e he
    obtain ⟨⟨R, s⟩, -, hfor⟩ := htable.source e he
    have hs : s ∈ T.subs R.addr := by
      rw [subs_of_find (find_of_mem hT.addrsNodup hfor.listed)]
      exact hfor.held
    rw [hfor.pfix, hfor.mask]
    exact (h.subs R.addr s hs).1
  · rw [hrun] at hfault
    cases hfault

/-- The subsystem with a database and a table that are made of the given ids and subnets. -/
structure AttestedSubsys (ids : UInt32 → Prop) (known : InAddr → InAddr → Prop) (S : PwospfSubsys) :
    Prop where
  first : ThisFirst S.top
  top : Attested ids known S.top
  table : TableAttested known S.fwrdTable

theorem AttestedSubsys.event (hS : S.Wf) (h : AttestedSubsys ids known S) (hadm : e.Admitted S)
    (hat : e.Attests ids known) (hrun : e.run S = .ok S') : AttestedSubsys ids known S' := by
  have htop := h.top.event hS hadm hat hrun
  have hfirst := Event.run_thisFirst hS h.first hadm hrun
  refine ⟨hfirst, htop, ?_⟩
  rcases Event.run_rebuilt hS hrun with ⟨T, -, hT, hrec⟩ | ⟨-, hft, -⟩
  · exact recompute_tableAttested hT hrec hfirst htop
  · rw [hft]
    exact h.table

end Event

/-! ## The area -/

section Area

variable {ι : Type} {sr : ι → SrInstance} {a a' : Area ι} {k : AreaInput ι} {area : UInt32}
  {rid : ι → UInt32} {S₀ : ι → PwospfSubsys} {ids : UInt32 → Prop}
  {known : InAddr → InAddr → Prop}

def AttestedLsu (ids : UInt32 → Prop) (known : InAddr → InAddr → Prop) (l : Lsu) : Prop :=
  ids l.rid ∧ ∀ adv ∈ l.advs, known adv.subnet adv.mask ∧ (adv.rid = 0 ∨ ids adv.rid)

/-- Everything in the routers and in the LSUs they issued. -/
structure AttestedArea (ids : UInt32 → Prop) (known : InAddr → InAddr → Prop) (a : Area ι) : Prop where
  subsys : ∀ i, AttestedSubsys ids known (a.subsys i)
  issued : ∀ x ∈ a.issued, AttestedLsu ids known x.2

theorem AttestedLsu.routes {l : Lsu} (h : AttestedLsu ids known l) (env : Env) :
    AttestedAds ids known (routesOf env 0 l.advs) := by
  intro ad had
  have hmem : (ad.pfix, ad.mask, ad.rId) ∈ l.advs.map fun a => (a.subnet, a.mask, a.rid) := by
    rw [← routesOf_map (fun pfix mask rid => (pfix, mask, rid)) env 0 l.advs]
    exact List.mem_map_of_mem had
  obtain ⟨adv, hadv, heq⟩ := List.mem_map.mp hmem
  rw [Prod.mk.injEq, Prod.mk.injEq] at heq
  rw [← heq.1, ← heq.2.1, ← heq.2.2]
  exact h.2 adv hadv

/-- A merge is two events. -/
theorem AttestedSubsys.merged {S S' : PwospfSubsys} {env : Env} {l : Lsu} (hS : S.Wf)
    (h : AttestedSubsys ids known S) (hl : AttestedLsu ids known l)
    (hother : S.top.ridOf S.top.thisRouter ≠ some l.rid)
    (hmerge : addToTop S env.clock l.rid (routesOf env 0 l.advs) = .ok S') :
    AttestedSubsys ids known (setSequence S' l.rid l.seq) := by
  have hadm : (Event.lsu env.clock l.rid (routesOf env 0 l.advs)).Admitted S := hother
  have hrun : (Event.lsu env.clock l.rid (routesOf env 0 l.advs)).run S = .ok S' := hmerge
  have hmid := h.event hS hadm ⟨hl.1, hl.routes env⟩ hrun
  have hS' : S'.Wf := by
    rcases Event.run_wf hS hadm with ⟨S'', hrun', hS'', -⟩ | hfault
    · rw [hrun', Except.ok.injEq] at hrun
      exact hrun ▸ hS''
    · rw [hrun] at hfault
      cases hfault
  exact hmid.event (e := .seq l.rid l.seq) hS' True.intro True.intro rfl

/-- A router that takes a copy from the links. -/
theorem AttestedArea.taken (h : AttestedArea ids known a) (hids : ∀ o, ids (rid o)) {i : ι}
    (hS : (a.subsys i).Wf) {env : Env} {out : Outcome}
    (htaken : Taken rid a.issued (a.subsys i) env area out) :
    AttestedSubsys ids known out.subsys := by
  cases htaken with
  | lsu o l ttl src hissued htaken =>
    cases htaken with
    | dropped _ hout =>
      rw [hout]
      exact h.subsys i
    | merged S' hother _ hmerge hsubsys _ _ =>
      rw [hsubsys]
      exact (h.subsys i).merged hS (h.issued _ hissued) hother hmerge
  | hello o htaken =>
    cases htaken with
    | dropped hout =>
      rw [hout]
      exact h.subsys i
    | heard msg hmsg hrun _ =>
      refine (h.subsys i).event (e := .hello env.clock msg) hS True.intro ?_ hrun
      rcases hmsg with h0 | hrid
      · exact Or.inl h0
      · exact Or.inr (hrid ▸ hids o)

theorem AttestedSubsys.ownLsu {sr : SrInstance} {S : PwospfSubsys} (h : AttestedSubsys ids known S)
    (hstatic : ∀ r ∈ sr.routingTable, known r.dest r.mask) {this : Router}
    (hthis : S.top.find S.top.thisRouter = some this) :
    AttestedLsu ids known (PWOSPF.ownLsu sr S this) := by
  refine ⟨h.top.rids _ _ (ridOf_of_find hthis), ?_⟩
  intro adv hadv
  rcases List.mem_append.mp hadv with hadv | hadv
  · obtain ⟨s, hs, rfl⟩ := List.mem_map.mp hadv
    exact h.top.subs S.top.thisRouter s (by rwa [subs_of_find hthis])
  · obtain ⟨r, hr, rfl⟩ := List.mem_map.mp hadv
    exact ⟨hstatic r hr, Or.inl rfl⟩

/-- Some router has the subnet on an interface or as a static route. -/
def HeldInArea (sr : ι → SrInstance) (pfix mask : InAddr) : Prop :=
  ∃ o, (∃ i ∈ (sr o).ifList, pfix = i.ip &&& ntohl ifMask ∧ mask = ntohl ifMask) ∨
    ∃ r ∈ (sr o).routingTable, pfix = r.dest ∧ mask = r.mask

def IsRid (S₀ : ι → PwospfSubsys) (o : ι) (id : UInt32) : Prop :=
  (S₀ o).top.ridOf (S₀ o).top.thisRouter = some id

/-- What `pwospf_init` leaves is one router with the subnets of its interfaces. -/
theorem pwospfInit_attested {o : ι} {clock : Nat → Time} {S : PwospfSubsys}
    (h : pwospfInit (sr o) clock area = .ok S) {id : UInt32}
    (hid : S.top.ridOf S.top.thisRouter = some id) (hids : ids id) :
    AttestedSubsys ids (HeldInArea sr) S := by
  obtain ⟨r, hnet, hthis, -, -, -, hsubs, -, htable⟩ := pwospfInit_spec h
  have hfind : S.top.find S.top.thisRouter = some r := by
    rw [find, hnet, hthis]
    simp
  have honly : ∀ p r', S.top.find p = some r' → r' = r := by
    intro p r' hr'
    have hmem := find_mem hr'
    rwa [hnet, List.mem_singleton] at hmem
  have hheld : ∀ i ∈ createPwospfIfaces (sr o), HeldInArea sr (i.address &&& i.mask) i.mask := by
    intro i hi
    obtain ⟨f, hf, rfl⟩ := List.mem_map.mp hi
    exact ⟨o, Or.inl ⟨f, hf, rfl, rfl⟩⟩
  refine ⟨pwospfInit_thisFirst h, ⟨?_, ?_⟩, ?_⟩
  · intro p id' hid'
    obtain ⟨r', hr', hrid'⟩ := Option.map_eq_some_iff.mp hid'
    rw [ridOf, hfind] at hid
    rw [honly p r' hr', Option.some.inj hid] at hrid'
    exact hrid' ▸ hids
  · intro p s hs
    obtain ⟨r', hr'⟩ := mem_addrs_iff.mp (mem_subs_listed hs)
    rw [subs_of_find hr', honly p r' hr', hsubs] at hs
    obtain ⟨i, hi, rfl⟩ := List.mem_map.mp hs
    exact ⟨hheld i hi, Or.inl rfl⟩
  · intro e he
    rw [htable] at he
    obtain ⟨i, hi, rfl⟩ := List.mem_map.mp he
    exact hheld i hi

variable [DecidableEq ι]

/-- What a router runs keeps its database and its table attested. -/
theorem AttestedArea.act (h : AttestedArea ids known a) (hids : ∀ o, ids (rid o))
    (hboot : ∀ i, Booted area (rid i) (S₀ i) (a.subsys i))
    (hwire : ∀ c ∈ a.wire, Genuine area rid S₀ a.issued c) (hstep : AreaStep sr a k a') {i : ι}
    {x : Input} {n : Node} (hlocal : k.local sr = some (i, x)) (hn : NodeStep (a.nodes i) x n) :
    AttestedSubsys ids known n.subsys := by
  cases k with
  | receive j env c ps =>
    cases hlocal
    obtain ⟨out, hrun, hout⟩ := bind_eq_ok.mp hn
    cases hout
    obtain ⟨hc, hdel⟩ := hstep.1
    exact h.taken hids (hboot i).wf ((hwire c hc).taken hdel (hboot i).toInArea hrun)
  | timeout j clock =>
    cases hlocal
    obtain ⟨S', hrun, hS'⟩ := bind_eq_ok.mp hn
    cases hS'
    exact (h.subsys i).event (e := .timeout clock) (hboot i).wf True.intro True.intro hrun
  | sendLsu j env =>
    cases hlocal
    obtain ⟨y, hrun, hy⟩ := bind_eq_ok.mp hn
    cases hy
    have hsame := h.subsys i
    show AttestedSubsys ids known y.1
    rw [sendLsu_subsys hrun]
    exact ⟨hsame.first, hsame.top, hsame.table⟩
  | sendHello j env => cases hlocal

theorem AttestedArea.step (h : AttestedArea ids known a) (hids : ∀ o, ids (rid o))
    (hstatic : ∀ i, ∀ r ∈ (sr i).routingTable, known r.dest r.mask)
    (hboot : ∀ i, Booted area (rid i) (S₀ i) (a.subsys i))
    (hwire : ∀ c ∈ a.wire, Genuine area rid S₀ a.issued c) (hstep : AreaStep sr a k a') :
    AttestedArea ids known a' := by
  constructor
  · intro j
    cases hstep.effect with
    | idle _ hnodes =>
      rw [Area.subsys, hnodes]
      exact h.subsys j
    | act i x n hlocal hn hnodes =>
      rw [Area.subsys, hnodes]
      by_cases hj : j = i
      · subst hj
        rw [Function.update_self]
        exact h.act hids hboot hwire hstep hlocal hn
      · rw [Function.update_of_ne hj]
        exact h.subsys j
  · obtain ⟨-, hissued, -⟩ := hstep.logs
    rw [hissued]
    refine List.forall_mem_append.mpr ⟨h.issued, ?_⟩
    intro x hx
    cases k with
    | receive | timeout | sendHello => cases hx
    | sendLsu i env =>
      obtain ⟨this, hthis, rfl⟩ := List.mem_map.mp hx
      exact (h.subsys i).ownLsu (hstatic i) (by simpa using hthis)

theorem area_attested (hboot : Boots area rid S₀) (hids : ∀ o, ids (rid o))
    (hstatic : ∀ i, ∀ r ∈ (sr i).routingTable, known r.dest r.mask)
    (hstart : ∀ i, AttestedSubsys ids known (S₀ i)) {ok : Area ι → AreaInput ι → Prop}
    (h : Reach (AreaStep sr) ok (.start S₀) a) : AttestedArea ids known a := by
  induction h with
  | start =>
    refine ⟨hstart, ?_⟩
    intro x hx
    cases hx
  | next hreach _ hstep ih =>
    exact ih.step hids hstatic (fun i => hboot.booted hreach i) (wire_genuine hboot hreach) hstep

/-- No route comes out of nowhere. In every run of an area, however packets are lost, repeated,
delayed or delivered to the wrong router, the routers in a database are routers of the area, and
every subnet in a database or in a forwarding table is on an interface or among the static routes of
one. -/
theorem area_routes_held {clock : ι → Nat → Time}
    (h₀ : ∀ i, pwospfInit (sr i) (clock i) area = .ok (S₀ i))
    (h : Reach (AreaStep sr) (fun _ _ => True) (.start S₀) a) (i : ι) :
    (∀ p id, (a.subsys i).top.ridOf p = some id → ∃ o, IsRid S₀ o id) ∧
      (∀ p, ∀ s ∈ (a.subsys i).top.subs p,
        HeldInArea sr s.pfix s.mask ∧ (s.rId = 0 ∨ ∃ o, IsRid S₀ o s.rId)) ∧
      ∀ e ∈ (a.subsys i).fwrdTable, HeldInArea sr e.pfix e.mask := by
  obtain ⟨rid, hboot⟩ := Boots.of_init h₀
  have hall : AttestedArea (fun id => ∃ o, IsRid S₀ o id) (HeldInArea sr) a := area_attested hboot
    (fun o => ⟨o, hboot.rid o⟩) (fun o r hr => ⟨o, Or.inr ⟨r, hr, rfl, rfl⟩⟩)
    (fun o => pwospfInit_attested (h₀ o) (hboot.rid o) ⟨o, hboot.rid o⟩) h
  exact ⟨(hall.subsys i).top.rids, (hall.subsys i).top.subs, (hall.subsys i).table⟩

end Area

/-- HELLOs in both directions, then the LSU of 10.0.0.1. -/
def demoMoves : List DemoMove := [.hello true, .deliver false 0, .hello false, .deliver true 1, .lsu true, .deliver false 2]

theorem area_routes_held_demo :
    ∃ a, Reach (AreaStep demoRouters) (fun _ _ => True) (.start demoSubsys) a ∧
      (a.subsys false).top.network.length = 2 ∧
      ∀ e ∈ (a.subsys false).fwrdTable, HeldInArea demoRouters e.pfix e.mask := by
  have hlen : (demoRun demoRouters (fun _ _ => True) demoMoves (.start demoSubsys)).map
      (fun a => (a.subsys false).top.network.length) = some 2 := by
    decide +kernel
  obtain ⟨a, ha, hnet⟩ := Option.map_eq_some_iff.mp hlen
  have hreach := demoRun_reach .start ha
  exact ⟨a, hreach, hnet, (area_routes_held demoSubsys_init hreach false).2.2⟩

end PWOSPF
