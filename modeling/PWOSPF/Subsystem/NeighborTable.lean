import PWOSPF.Subsystem.HelloFormat
import PWOSPF.Subsystem.Neighbors

/-!
# HELLO exchange and the neighbor table

What the neighbor lists hold after a HELLO of another router arrived. Expiry moves the last record
to the place of a deleted one, so the lists are compared up to their order.
-/

namespace PWOSPF

open Framework Topo

/-- No two neighbors of an interface have the same address. -/
def DistinctNeighbors (interfaces : List PwospfIflist) : Prop :=
  ∀ i ∈ interfaces, (i.neighbors.elems.map NeighborList.ipAddress).Nodup

/-- The records that are valid at a time. -/
def validAt (t : Time) (nbrs : List NeighborList) : List NeighborList :=
  nbrs.filter fun nbr => t ≤ nbr.timenotvalid

/-- Of the records only the unexpired ones are left. -/
structure OnlySwept (t : Time) (j j' : PwospfIflist) : Prop where
  static : j'.static = j.static
  left : j'.neighbors.elems.Perm (validAt t j.neighbors.elems)

/-- One record is for the address; it is fresh, and for the router unless there was an unexpired one.
The others are the unexpired ones for other addresses. -/
structure HeardFrom (t : Time) (rid : UInt32) (addr : InAddr) (j j' : PwospfIflist) : Prop where
  static : j'.static = j.static
  entry : ∃ id, j'.neighbors.elems.Perm (⟨id, addr, t + ospfNeighborTimeout⟩ ::
      (validAt t j.neighbors.elems).filter fun nbr => nbr.ipAddress ≠ addr) ∧
    (∀ nbr ∈ validAt t j.neighbors.elems, nbr.ipAddress = addr → id = nbr.id) ∧
    ((∀ nbr ∈ validAt t j.neighbors.elems, nbr.ipAddress ≠ addr) → id = rid)

/-- Nothing is added. -/
structure NoneAdded (j j' : PwospfIflist) : Prop where
  static : j'.static = j.static
  subset : ∀ nbr ∈ j'.neighbors.elems, nbr ∈ j.neighbors.elems

/-! ## Expiry -/

section Expiry

variable {initTime : Time} {clock : Nat → Time} {m n : Nat} {t : Time}
  {neighbors neighbors' : DynArray NeighborList} {T T' : Topo}

theorem swapErase_drop {α : Type*} {l : List α} (hn : n < l.length) :
    ((swapErase l n).drop n).Perm (l.drop (n + 1)) := by
  have hperm := swapErase_perm l n hn
  rw [← List.take_append_drop n (swapErase l n), swapErase_take hn,
    List.eraseIdx_eq_take_drop_succ] at hperm
  exact (List.perm_append_left_iff _).mp hperm

/-- At one time, the records passed stay and of the others those that are unexpired. -/
theorem expireNeighbors_validAt
    (h : expireNeighbors initTime (fun _ => t) m n neighbors T = .ok (neighbors', T'))
    (hlen : n + m = neighbors.size) :
    neighbors'.elems.Perm (neighbors.elems.take n ++ validAt t (neighbors.elems.drop n)) := by
  induction m generalizing n neighbors T with
  | zero =>
    cases h
    rw [Nat.add_zero, DynArray.size] at hlen
    rw [hlen, List.take_length, List.drop_length]
    exact .of_eq (List.append_nil _).symm
  | succ m ih =>
    obtain ⟨hn, hdeleted | hpassed⟩ := expireNeighbors_succ h hlen
    · obtain ⟨hold, hsize, T₁, hrest⟩ := hdeleted
      have htake : (neighbors.swapErase n).elems.take n = neighbors.elems.take n := swapErase_take hn
      apply (ih hrest hsize).trans
      rw [List.drop_eq_getElem_cons hn, validAt, validAt,
        List.filter_cons_of_neg (by simpa using hold), htake]
      exact ((swapErase_drop hn).filter _).append_left _
    · obtain ⟨hlive, hrest⟩ := hpassed
      apply (ih hrest (by omega)).trans
      rw [List.drop_eq_getElem_cons hn, validAt, validAt,
        List.filter_cons_of_pos (by simpa using hlive), List.take_succ_eq_append_getElem hn,
        List.append_assoc]
      exact .refl _

theorem expireNeighbors_nodup
    (h : expireNeighbors initTime clock m n neighbors T = .ok (neighbors', T'))
    (hlen : n + m = neighbors.size)
    (hnd : (neighbors.elems.map NeighborList.ipAddress).Nodup) :
    (neighbors'.elems.map NeighborList.ipAddress).Nodup := by
  induction m generalizing clock n neighbors T with
  | zero =>
    cases h
    exact hnd
  | succ m ih =>
    obtain ⟨hn, hdeleted | hpassed⟩ := expireNeighbors_succ h hlen
    · obtain ⟨-, hsize, T₁, hrest⟩ := hdeleted
      apply ih hrest hsize
      have hperm := (swapErase_perm neighbors.elems n hn).map NeighborList.ipAddress
      exact hperm.nodup_iff.mpr (hnd.sublist ((List.eraseIdx_sublist _ n).map _))
    · exact ih hpassed.2 (by omega) hnd

end Expiry

/-! ## Refreshing -/

section Record

variable {clock : Nat → Time} {msg : HelloMsg} {found : Bool} {t : Time}
  {neighbors : DynArray NeighborList}

theorem recordNeighbor_nodup (hnd : (neighbors.elems.map NeighborList.ipAddress).Nodup) :
    ((recordNeighbor clock msg found neighbors).1.elems.map NeighborList.ipAddress).Nodup := by
  rw [recordNeighbor_elems, List.map_append, refresh_map fun _ _ => rfl]
  split
  · rw [List.map_nil, List.append_nil]
    exact hnd
  · next hnot =>
    rw [List.map_singleton]
    apply List.nodup_append.mpr ⟨hnd, List.nodup_singleton _, ?_⟩
    intro a ha b hb
    rw [List.mem_singleton.mp hb]
    rintro rfl
    obtain ⟨nbr, hnbr, haddr⟩ := List.mem_map.mp ha
    apply hnot
    rw [Bool.or_eq_true, List.any_eq_true]
    exact Or.inr ⟨nbr, hnbr, by simpa using haddr⟩

/-- The records after a HELLO at one time, if the sender was not found on an interface before. -/
theorem recordNeighbor_heard_at (msg : HelloMsg) (t : Time)
    (hnd : (neighbors.elems.map NeighborList.ipAddress).Nodup) :
    ∃ id, (recordNeighbor (fun _ => t) msg false neighbors).1.elems.Perm
        (⟨id, msg.ipSrc, t + ospfNeighborTimeout⟩ ::
          neighbors.elems.filter fun nbr => nbr.ipAddress ≠ msg.ipSrc) ∧
      (∀ nbr ∈ neighbors.elems, nbr.ipAddress = msg.ipSrc → id = nbr.id) ∧
      ((∀ nbr ∈ neighbors.elems, nbr.ipAddress ≠ msg.ipSrc) → id = msg.rid) := by
  let refresh := fun nbr : NeighborList =>
    if nbr.ipAddress = msg.ipSrc then { nbr with timenotvalid := t + ospfNeighborTimeout } else nbr
  have hmap : (neighbors.elems.mapIdx fun _ nbr => refresh nbr) = neighbors.elems.map refresh := by
    apply List.ext_getElem
    · simp
    · simp
  have hother : ∀ l : List NeighborList, (∀ nbr ∈ l, nbr.ipAddress ≠ msg.ipSrc) →
      l.map refresh = l := by
    intro l hl
    calc l.map refresh = l.map id := List.map_congr_left fun nbr hnbr => if_neg (hl nbr hnbr)
      _ = l := List.map_id l
  rw [recordNeighbor_elems, Bool.false_or, hmap]
  by_cases hheard : ∃ nbr ∈ neighbors.elems, nbr.ipAddress = msg.ipSrc
  · obtain ⟨nbr, hnbr, hsrc⟩ := hheard
    have hfresh : refresh nbr = ⟨nbr.id, msg.ipSrc, t + ospfNeighborTimeout⟩ :=
      (if_pos hsrc).trans (by rw [hsrc])
    have hperm := (perm_cons_filter_ne hnd hnbr).map refresh
    have hrest := hother (neighbors.elems.filter fun x => x.ipAddress ≠ msg.ipSrc) (by simp)
    rw [List.map_cons, hfresh, hsrc, hrest] at hperm
    refine ⟨nbr.id, ?_, ?_, fun hnone => absurd hsrc (hnone nbr hnbr)⟩
    · have hany : (neighbors.elems.any fun nbr => nbr.ipAddress = msg.ipSrc) = true :=
        List.any_eq_true.mpr ⟨nbr, hnbr, by simpa using hsrc⟩
      rw [if_pos hany, List.append_nil]
      exact hperm
    · intro x hx hxsrc
      rw [List.inj_on_of_nodup_map hnd hx hnbr (hxsrc.trans hsrc.symm)]
  · have hnone : ∀ nbr ∈ neighbors.elems, nbr.ipAddress ≠ msg.ipSrc := by simpa using hheard
    have hsame : (neighbors.elems.filter fun nbr => nbr.ipAddress ≠ msg.ipSrc) = neighbors.elems :=
      List.filter_eq_self.mpr (by simpa using hnone)
    refine ⟨msg.rid, ?_, fun nbr hnbr hsrc => absurd hsrc (hnone nbr hnbr), fun _ => rfl⟩
    rw [if_neg (by simpa using hnone), hother _ hnone, hsame]
    exact List.perm_append_singleton _ _
end Record

/-! ## The walk over the interfaces -/

section Loop

variable {initTime : Time} {clock : Nat → Time} {msg : HelloMsg} {found : Bool} {t : Time}
  {T T' : Topo} {interfaces interfaces' : List PwospfIflist}

theorem helloLoop_distinct (h : helloLoop initTime msg clock found interfaces T = .ok (interfaces', T'))
    (hnd : DistinctNeighbors interfaces) : DistinctNeighbors interfaces' := by
  induction interfaces generalizing clock found interfaces' T with
  | nil =>
    cases h
    exact hnd
  | cons i rest ih =>
    obtain ⟨i', T₁, found', goOn, hiface, hon, hoff⟩ := helloLoop_cons h
    obtain ⟨left, T₂, hexpire, hcases⟩ := helloIface_ok hiface
    have hleft := expireNeighbors_nodup hexpire (Nat.zero_add _) (hnd i List.mem_cons_self)
    have hi' : (i'.neighbors.elems.map NeighborList.ipAddress).Nodup := by
      rcases hcases with ⟨-, -, -, rfl, -⟩ | ⟨-, -, -, rfl, -⟩ | ⟨-, -, -, rfl, -⟩
      · exact hleft
      · exact hleft
      · exact recordNeighbor_nodup hleft
    have hrest : DistinctNeighbors rest := fun j hj => hnd j (List.mem_cons_of_mem _ hj)
    cases goOn with
    | false =>
      obtain ⟨rfl, -⟩ := hoff rfl
      exact List.forall_mem_cons.mpr ⟨hi', hrest⟩
    | true =>
      obtain ⟨rest', rfl, hrun⟩ := hon rfl
      exact List.forall_mem_cons.mpr ⟨hi', ih hrun hrest⟩

theorem handleHello_distinct {S S' : PwospfSubsys} (h : handleHello S clock msg = .ok S')
    (hnd : DistinctNeighbors S.interfaces) : DistinctNeighbors S'.interfaces := by
  by_cases hlen : msg.len < helloLen
  · rw [handleHello, if_pos hlen] at h
    cases h
    exact hnd
  · obtain ⟨x, hloop, rfl⟩ := (handleHello_ok_iff (Nat.not_lt.mp hlen)).mp h
    exact helloLoop_distinct hloop hnd

/-- Where the receiving interface is not among them, the interfaces are only swept. -/
theorem helloLoop_swept
    (h : helloLoop initTime msg (fun _ => t) found interfaces T = .ok (interfaces', T'))
    (hnone : ∀ i ∈ interfaces, i.name ≠ msg.interface) :
    List.Forall₂ (fun j j' => j.name ≠ msg.interface ∧ OnlySwept t j j') interfaces interfaces' := by
  induction interfaces generalizing found interfaces' T with
  | nil =>
    cases h
    exact .nil
  | cons i rest ih =>
    obtain ⟨i', T₁, found', goOn, hiface, hon, -⟩ := helloLoop_cons h
    obtain ⟨left, T₂, hexpire, hcases⟩ := helloIface_ok hiface
    have hne := hnone i List.mem_cons_self
    obtain ⟨-, hgo, -, rfl, -⟩ := hcases.resolve_right fun hr => hr.elim
      (fun hc => hne hc.1) fun hc => hne hc.1
    obtain ⟨rest', rfl, hrun⟩ := hon hgo
    exact .cons ⟨hne, rfl, expireNeighbors_validAt hexpire (Nat.zero_add _)⟩
      (ih hrun fun j hj => hnone j (List.mem_cons_of_mem _ hj))

/-- The sender is recorded at the receiving interface, and the others are swept. -/
theorem helloLoop_heard
    (h : helloLoop initTime msg (fun _ => t) false interfaces T = .ok (interfaces', T'))
    (hnames : (interfaces.map PwospfIflist.name).Nodup) (hnd : DistinctNeighbors interfaces)
    (hok : ∀ i ∈ interfaces, i.name = msg.interface → helloMismatch i msg = false) :
    List.Forall₂ (fun j j' => if j.name = msg.interface then HeardFrom t msg.rid msg.ipSrc j j'
      else OnlySwept t j j') interfaces interfaces' := by
  induction interfaces generalizing interfaces' T with
  | nil =>
    cases h
    exact .nil
  | cons i rest ih =>
    obtain ⟨i', T₁, found', goOn, hiface, hon, -⟩ := helloLoop_cons h
    obtain ⟨left, T₂, hexpire, hcases⟩ := helloIface_ok hiface
    obtain ⟨hinot, hnames⟩ := List.nodup_cons.mp hnames
    have hperm := expireNeighbors_validAt hexpire (Nat.zero_add _)
    have hleft := expireNeighbors_nodup hexpire (Nat.zero_add _) (hnd i List.mem_cons_self)
    rcases hcases with ⟨hname, hgo, rfl, rfl, -⟩ | ⟨hname, hmis, -⟩ | ⟨hname, -, hgo, rfl, -⟩
    · obtain ⟨rest', rfl, hrun⟩ := hon hgo
      refine .cons ?_ (ih hrun hnames (fun j hj => hnd j (List.mem_cons_of_mem _ hj))
        fun j hj => hok j (List.mem_cons_of_mem _ hj))
      rw [if_neg hname]
      exact ⟨rfl, hperm⟩
    · rw [hok i List.mem_cons_self hname] at hmis
      cases hmis
    · obtain ⟨rest', rfl, hrun⟩ := hon hgo
      refine .cons ?_ ?_
      · rw [if_pos hname]
        obtain ⟨id, hrec, hold, hnew⟩ := recordNeighbor_heard_at msg t hleft
        refine ⟨rfl, id, hrec.trans ((hperm.filter _).cons _), ?_, ?_⟩
        · exact fun nbr hnbr => hold nbr (hperm.mem_iff.mpr hnbr)
        · exact fun hall => hnew fun nbr hnbr => hall nbr (hperm.mem_iff.mp hnbr)
      · have hnone : ∀ j ∈ rest, j.name ≠ msg.interface := fun j hj hj' =>
          hinot (List.mem_map.mpr ⟨j, hj, hj'.trans hname.symm⟩)
        apply (helloLoop_swept hrun hnone).imp
        intro j j' hj
        rw [if_neg hj.1]
        exact hj.2

theorem HelloWalk.noneAdded (h : HelloWalk clock msg found interfaces interfaces')
    (hno : ∀ i ∈ interfaces, i.name = msg.interface → helloMismatch i msg = true) :
    List.Forall₂ NoneAdded interfaces interfaces' := by
  induction h with
  | done => exact .nil
  | other _ hswept _ ih =>
    exact .cons ⟨hswept.static, fun nbr hnbr => (hswept.left nbr hnbr).1⟩
      (ih fun j hj => hno j (List.mem_cons_of_mem _ hj))
  | refused _ _ hswept =>
    apply List.Forall₂.cons ⟨hswept.static, fun nbr hnbr => (hswept.left nbr hnbr).1⟩
    exact List.forall₂_same.mpr fun _ _ => ⟨rfl, fun _ hnbr => hnbr⟩
  | accepted hname hmis _ _ _ =>
    have hbad := hno _ List.mem_cons_self hname
    rw [hmis] at hbad
    cases hbad

end Loop

/-! ## Runs -/

/-- In every reachable state the addresses of the neighbors of an interface are distinct. -/
theorem distinctNeighbors_of_reach {sr : SrInstance} {start : Nat → Time} {areaId : UInt32}
    {ok : PwospfSubsys → Event → Prop} {S₀ S : PwospfSubsys}
    (h₀ : pwospfInit sr start areaId = .ok S₀) (hS : Reach Step ok S₀ S) :
    DistinctNeighbors S.interfaces := by
  refine Reach.invariant (I := fun S => DistinctNeighbors S.interfaces) ?_ ?_ hS
  · obtain ⟨-, -, -, -, -, -, -, hif, -⟩ := pwospfInit_spec h₀
    rw [hif, createPwospfIfaces]
    intro i hi
    obtain ⟨srIf, -, rfl⟩ := List.mem_map.mp hi
    exact List.nodup_nil
  · rintro S e S' hnd - ⟨-, hrun⟩
    rcases Event.run_interfaces hrun with ⟨clock, msg, hhello⟩ | hsame
    · exact handleHello_distinct hhello hnd
    · rw [hsame]
      exact hnd

/-! ## The exchange -/

theorem receiving_of_mem {interfaces : List PwospfIflist} {i : PwospfIflist}
    (hnames : (interfaces.map PwospfIflist.name).Nodup) (hi : i ∈ interfaces) :
    interfaces.find? (fun iface => iface.name = i.name) = some i := by
  have hsome : (interfaces.find? fun iface => iface.name = i.name).isSome :=
    List.find?_isSome.mpr ⟨i, hi, by simp⟩
  obtain ⟨j, hj⟩ := Option.isSome_iff_exists.mp hsome
  have hname : j.name = i.name := by simpa using List.find?_some hj
  rw [hj, List.inj_on_of_nodup_map hnames (List.mem_of_find?_eq_some hj) hi hname]

/-- The byte orders cancel: a HELLO is accepted if the masks and the intervals are the same. -/
theorem helloMismatch_helloRead (rid : UInt32) (a i : PwospfIflist) (name : IfName) :
    helloMismatch i (helloRead rid a name i.mask) = true ↔
      ¬ (i.mask = a.mask ∧ i.helloint = ospfDefaultHelloint) := by
  rw [helloRead]
  by_cases hmask : i.mask = a.mask
  · rw [if_pos hmask]
    simp [helloMismatch, hmask]
  · rw [if_neg hmask]
    simp [helloMismatch, hmask]

/-- A HELLO that `send_HELLO` of `A` built for its interface `a` reaches the interface `i` of a
router of the same area at time `t`. If mask and interval agree, `i` has one fresh record for the
address of `a` and every other list is only swept; otherwise no record is added. -/
theorem hello_exchange {A B₀ B : PwospfSubsys} {this : Router} {envA : Env}
    {copies : List Handoff} {c : Handoff} {a i : PwospfIflist} {sr : SrInstance}
    {start : Nat → Time} {t : Time} (hthis : A.top.deref A.top.thisRouter = .ok this)
    (hsent : sendHello A envA = .ok copies) (hcopy : (c, a) ∈ copies.zip A.interfaces)
    (h₀ : pwospfInit sr start A.areaId = .ok B₀) (hB : Reach Step (fun _ _ => True) B₀ B)
    (hnames : (B.interfaces.map PwospfIflist.name).Nodup) (hi : i ∈ B.interfaces)
    (env : Env) (hclock : env.clock = fun _ => t) :
    ∃ B', handlePwospf B env ⟨c.frame, i.name⟩ = .ok ⟨B', [], none⟩ ∧
      DistinctNeighbors B'.interfaces ∧
      (i.mask = a.mask ∧ i.helloint = ospfDefaultHelloint →
        List.Forall₂ (fun j j' => if j.name = i.name then HeardFrom t this.rid a.address j j'
          else OnlySwept t j j') B.interfaces B'.interfaces) ∧
      (¬ (i.mask = a.mask ∧ i.helloint = ospfDefaultHelloint) →
        List.Forall₂ NoneAdded B.interfaces B'.interfaces) := by
  have hne : A.interfaces ≠ [] := by
    rintro hnil
    rw [hnil, List.zip_nil_right] at hcopy
    cases hcopy
  obtain ⟨copies', hsent', hall⟩ := sendHello_spec (deref_eq_ok_iff.mp hthis) hne envA
  rw [hsent, Except.ok.injEq] at hsent'
  subst hsent'
  obtain ⟨-, -, hsays⟩ := (List.forall₂_iff_zip.mp hall).2 hcopy
  obtain ⟨hWf, -⟩ := run_wf (pwospfInit_wf h₀) hB
  have hdistinct := distinctNeighbors_of_reach h₀ hB
  let msg := helloRead this.rid a i.name i.mask
  have hname : msg.interface = i.name := by
    simp only [msg, helloRead]
    split <;> rfl
  have hlen : helloLen ≤ msg.len := by
    have hsize : msg.len = sizeofHelloPacket - sizeofEther := by
      simp only [msg, helloRead]
      split <;> rfl
    rw [hsize]
    decide
  have honly : ∀ j ∈ B.interfaces, j.name = msg.interface → j = i := fun j hj hj' =>
    List.inj_on_of_nodup_map hnames hj hi (hj'.trans hname)
  obtain ⟨B', hrun⟩ := handleHello_exists hWf env.clock msg
  refine ⟨B', ?_, handleHello_distinct hrun hdistinct, ?_, ?_⟩
  · rw [handlePwospf_saysHello hsays (inArea_of_reach h₀ hB) env (receiving_of_mem hnames hi), hrun]
    rfl
  · intro hagree
    have hmsg : msg.rid = this.rid ∧ msg.ipSrc = a.address := by
      simp only [msg, helloRead, if_pos hagree.1, and_self]
    rw [hclock] at hrun
    obtain ⟨x, hloop, rfl⟩ := (handleHello_ok_iff hlen).mp hrun
    rw [← hname, ← hmsg.1, ← hmsg.2]
    apply helloLoop_heard hloop hnames hdistinct
    intro j hj hj'
    rw [honly j hj hj', Bool.eq_false_iff]
    exact fun hmis => (helloMismatch_helloRead _ a i _).mp hmis hagree
  · intro hdiffer
    apply (handleHello_walk hlen hrun).noneAdded
    intro j hj hj'
    rw [honly j hj hj']
    exact (helloMismatch_helloRead _ a i _).mpr hdiffer

/-- The router at the other end of the link of `demoStart`. -/
def demoPeer : PwospfSubsys :=
  { demoStart with
    top := ⟨[newRouter 0 0x0000000a 0], 0, 1⟩
    interfaces := createPwospfIfaces ⟨[⟨eth0Interface, .replicate 6 3, 0x0000000a⟩], []⟩ }

theorem hello_exchange_demo :
    ∃ c B', (∃ copies, sendHello demoPeer demoEnv = .ok copies ∧ c ∈ copies) ∧
      handlePwospf demoStart { demoEnv with clock := fun _ => 1 } ⟨c.frame, eth0Interface⟩ =
        .ok ⟨B', [], none⟩ ∧
      List.Forall₂ (fun j j' => if j.name = eth0Interface then
        HeardFrom 1 0x0000000a 0x0000000a j j' else OnlySwept 1 j j')
        demoStart.interfaces B'.interfaces := by
  obtain ⟨copies, hsent, hall⟩ := sendHello_spec (S := demoPeer) rfl (by decide) demoEnv
  cases hall with
  | cons hc hrest =>
    cases hrest
    obtain ⟨B', hrun, -, hheard, -⟩ := hello_exchange rfl hsent List.mem_cons_self
      demoStart_init .start (by decide) List.mem_cons_self { demoEnv with clock := fun _ => 1 } rfl
    exact ⟨_, B', ⟨_, hsent, List.mem_cons_self⟩, hrun, hheard ⟨rfl, rfl⟩⟩

end PWOSPF
