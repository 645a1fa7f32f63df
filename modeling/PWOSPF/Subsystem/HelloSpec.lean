import PWOSPF.Subsystem.Handlers
import PWOSPF.Topology.MergeSpec

/-!
# Effects of a received HELLO

A HELLO changes the topology only by removing links of this router, one for every neighbor record
that timed out, and by labelling a subnet of this router. The rule at the end carries an invariant
through all of these.
-/

namespace PWOSPF

open Framework Topo

/-- `T'` is `T` after a HELLO gave the first of this router's subnets with its prefix a label. -/
structure SubnetLabelled (T : Topo) (msg : HelloMsg) (T' : Topo) : Prop where
  core : SameCore T T'
  adj : T'.adj = T.adj
  subs : ∃ pre old post, T.subs T.thisRouter = pre ++ old :: post ∧
    (T.subs T.thisRouter).find? (fun s => s.pfix = msg.ipSrc &&& htonl msg.nmask) = some old ∧
    old.mask = ntohl msg.nmask ∧ old.rId = 0 ∧
    T'.subs = Function.update T.subs T.thisRouter (pre ++ { old with rId := msg.rid } :: post)

theorem labelSubnet_spec {T : Topo} (hT : T.Wf) (msg : HelloMsg) :
    ∃ T', labelSubnet T msg = .ok T' ∧ T'.Wf ∧ (T' = T ∨ SubnetLabelled T msg T') := by
  obtain ⟨this, hthis⟩ := mem_addrs_iff.mp hT.thisListed
  rw [labelSubnet, deref_of_find hthis, ok_bind]
  simp only
  cases hold : routerContainsSubnet this (msg.ipSrc &&& htonl msg.nmask) with
  | none => exact ⟨T, rfl, hT, Or.inl rfl⟩
  | some old =>
    simp only
    by_cases hc : old.rId = 0 ∧ old.mask = ntohl msg.nmask
    · obtain ⟨hcore, hadj, pre, post, hsplit, hsubs⟩ := setRId_spec hthis hold msg.rid
      refine ⟨_, by rw [if_pos hc, pure_eq_ok], hT.of_sameAdj hcore hadj, Or.inr ⟨hcore, hadj, ?_⟩⟩
      exact ⟨pre, old, post, hsplit, by rw [subs_of_find hthis]; exact hold, hc.2, hc.1, hsubs⟩
    · exact ⟨T, by rw [if_neg hc, pure_eq_ok], hT, Or.inl rfl⟩

/-! ## The record of the sender -/

section Record

variable {clock : Nat → Time} {msg : HelloMsg} {found : Bool} {neighbors : DynArray NeighborList}

theorem resized_elems (neighbors : DynArray NeighborList) :
    (if neighbors.bufSize ≤ neighbors.size then neighbors.grow else neighbors).elems =
      neighbors.elems := by
  split <;> rfl

theorem recordNeighbor_found : (recordNeighbor clock msg found neighbors).2 =
    (found || neighbors.elems.any fun nbr => nbr.ipAddress = msg.ipSrc) := by
  unfold recordNeighbor
  simp only [resized_elems]
  cases found || neighbors.elems.any fun nbr => nbr.ipAddress = msg.ipSrc with
  | true => rfl
  | false => rfl

/-- What `handle_HELLO` writes where the HELLO is accepted. -/
theorem recordNeighbor_elems :
    (recordNeighbor clock msg found neighbors).1.elems =
      (neighbors.elems.mapIdx fun k nbr =>
        if nbr.ipAddress = msg.ipSrc then
          { nbr with timenotvalid := clock k + ospfNeighborTimeout }
        else nbr) ++
      if (found || neighbors.elems.any fun nbr => nbr.ipAddress = msg.ipSrc) = true then []
      else [⟨msg.rid, msg.ipSrc, clock neighbors.size + ospfNeighborTimeout⟩] := by
  unfold recordNeighbor
  simp only [resized_elems]
  by_cases hfound : (found || neighbors.elems.any fun nbr => nbr.ipAddress = msg.ipSrc) = true
  · rw [if_pos hfound, if_pos hfound, List.append_nil]
  · rw [if_neg hfound, if_neg hfound, DynArray.store_elems]
    simp only [DynArray.size, List.length_mapIdx]

/-- Refreshing keeps whatever does not depend on the time. -/
theorem refresh_map {α : Type*} {g : NeighborList → α}
    (hg : ∀ (nbr : NeighborList) (t : Time), g { nbr with timenotvalid := t } = g nbr)
    (nbrs : List NeighborList) :
    (nbrs.mapIdx fun k nbr =>
      if nbr.ipAddress = msg.ipSrc then
        { nbr with timenotvalid := clock k + ospfNeighborTimeout }
      else nbr).map g = nbrs.map g := by
  apply List.ext_getElem
  · simp
  · intro k _ _
    simp only [List.getElem_map, List.getElem_mapIdx]
    split
    · exact hg _ _
    · rfl

end Record

/-! ## Conditions on the single steps -/

/-- `Q` holds at every removal of a link of this router. -/
def ExpireAll (Q : Topo → UInt32 → Prop) (initTime : Time) :
    (Nat → Time) → Nat → Nat → DynArray NeighborList → Topo → Prop
  | _, 0, _, _, _ => True
  | clock, n + 1, i, neighbors, T =>
    match neighbors.elems[i]? with
    | none => True
    | some nbr =>
      if nbr.timenotvalid < clock 0 then
        if initTime < clock 1 then
          Q T nbr.id ∧ ∀ this, T.deref T.thisRouter = .ok this →
            ∀ T', removeLink T T.thisRouter this.rid nbr.id = .ok T' →
              ExpireAll Q initTime (later 2 clock) n i (neighbors.swapErase i) T'
        else ExpireAll Q initTime (later 2 clock) n i (neighbors.swapErase i) T
      else ExpireAll Q initTime (later 2 clock) n (i + 1) neighbors T

/-- `Q` holds at every removal of a link, and `L` when a subnet may be labelled. -/
def HelloAll (Q : Topo → UInt32 → Prop) (L : Topo → HelloMsg → Prop) (initTime : Time)
    (msg : HelloMsg) : (Nat → Time) → Bool → List PwospfIflist → Topo → Prop
  | _, _, [], _ => True
  | clock, found, iface :: rest, T =>
    ExpireAll Q initTime clock iface.neighbors.size 0 iface.neighbors T ∧
      (∀ x, expireNeighbors initTime clock iface.neighbors.size 0 iface.neighbors T = .ok x →
        iface.name = msg.interface → helloMismatch iface msg = false → L x.2 msg) ∧
      ∀ x, helloIface initTime clock msg iface T found = .ok x → x.2.2.2 = true →
        HelloAll Q L initTime msg (later (helloTicks iface) clock) x.2.2.1 rest x.2.1

theorem ExpireAll.trivial (initTime : Time) (clock : Nat → Time) (n i : Nat)
    (neighbors : DynArray NeighborList) (T : Topo) :
    ExpireAll (fun _ _ => True) initTime clock n i neighbors T := by
  induction n generalizing clock i neighbors T with
  | zero => exact True.intro
  | succ n ih =>
    rw [ExpireAll]
    split
    · exact True.intro
    · split
      · split
        · exact ⟨True.intro, fun _ _ _ _ => ih _ _ _ _⟩
        · exact ih _ _ _ _
      · exact ih _ _ _ _

theorem HelloAll.trivial (initTime : Time) (msg : HelloMsg) (clock : Nat → Time) (found : Bool)
    (interfaces : List PwospfIflist) (T : Topo) :
    HelloAll (fun _ _ => True) (fun _ _ => True) initTime msg clock found interfaces T := by
  induction interfaces generalizing clock found T with
  | nil => exact True.intro
  | cons iface rest ih =>
    exact ⟨.trivial _ _ _ _ _ _, fun _ _ _ _ => True.intro, fun _ _ _ => ih _ _ _⟩

instance ExpireAll.decidable {Q : Topo → UInt32 → Prop} [∀ T id, Decidable (Q T id)]
    (initTime : Time) : ∀ clock n i neighbors T,
      Decidable (ExpireAll Q initTime clock n i neighbors T)
  | _, 0, _, _, _ => .isTrue True.intro
  | clock, n + 1, i, neighbors, T =>
    have := fun k => ExpireAll.decidable (Q := Q) initTime (later k clock) n
    match h : neighbors.elems[i]? with
    | none => decidable_of_iff True (by rw [ExpireAll, h])
    | some nbr =>
      decidable_of_iff
        (if nbr.timenotvalid < clock 0 then
          if initTime < clock 1 then
            Q T nbr.id ∧ ∀ this, T.deref T.thisRouter = .ok this →
              ∀ T', removeLink T T.thisRouter this.rid nbr.id = .ok T' →
                ExpireAll Q initTime (later 2 clock) n i (neighbors.swapErase i) T'
          else ExpireAll Q initTime (later 2 clock) n i (neighbors.swapErase i) T
        else ExpireAll Q initTime (later 2 clock) n (i + 1) neighbors T)
        (by rw [ExpireAll, h])

instance HelloAll.decidable {Q : Topo → UInt32 → Prop} {L : Topo → HelloMsg → Prop}
    [∀ T id, Decidable (Q T id)] [∀ T msg, Decidable (L T msg)] (initTime : Time)
    (msg : HelloMsg) : ∀ clock found interfaces T,
      Decidable (HelloAll Q L initTime msg clock found interfaces T)
  | _, _, [], _ => .isTrue True.intro
  | clock, _, iface :: rest, _ =>
    have := fun found T =>
      HelloAll.decidable (Q := Q) (L := L) initTime msg (later (helloTicks iface) clock) found rest T
    inferInstanceAs (Decidable (_ ∧ _ ∧ _))

/-! ## Carrying an invariant through a HELLO -/

section Rule

variable {I : Topo → Prop} {Q : Topo → UInt32 → Prop} {L : Topo → HelloMsg → Prop}
  (hremove : ∀ T thisRid id T', T.Wf → T.ridOf T.thisRouter = some thisRid → I T → Q T id →
    T'.Wf → LinkRemoved T T.thisRouter thisRid id T' → I T')
  (hlabel : ∀ T msg T', T.Wf → I T → L T msg → T'.Wf → SubnetLabelled T msg T' → I T')

include hremove in
theorem expireNeighbors_invariant {initTime : Time} {clock : Nat → Time} {n i : Nat}
    {neighbors : DynArray NeighborList} {T : Topo} (hT : T.Wf) (hinv : I T)
    (hlen : i + n = neighbors.size)
    (hQ : ExpireAll Q initTime clock n i neighbors T) :
    ∃ neighbors' T', expireNeighbors initTime clock n i neighbors T = .ok (neighbors', T') ∧
      neighbors'.bufSize = neighbors.bufSize ∧ (∀ x ∈ neighbors'.elems, x ∈ neighbors.elems) ∧
      T'.Wf ∧ SameCore T T' ∧ I T' := by
  induction n generalizing clock i neighbors T with
  | zero => exact ⟨neighbors, T, rfl, rfl, fun _ h => h, hT, .refl T, hinv⟩
  | succ n ih =>
    rw [ExpireAll] at hQ
    rw [expireNeighbors]
    have hi : i < neighbors.elems.length := by
      rw [DynArray.size] at hlen
      omega
    rw [List.getElem?_eq_getElem hi] at hQ ⊢
    simp only at hQ ⊢
    have hsize : i + n = (neighbors.swapErase i).size := by
      have hl := length_swapErase neighbors.elems i hi
      rw [DynArray.size] at hlen ⊢
      change i + n = (Framework.swapErase neighbors.elems i).length
      omega
    have hsub : ∀ x ∈ (neighbors.swapErase i).elems, x ∈ neighbors.elems := fun x hx =>
      List.mem_of_mem_eraseIdx ((swapErase_perm neighbors.elems i hi).mem_iff.mp hx)
    by_cases hold : neighbors.elems[i].timenotvalid < clock 0
    · rw [if_pos hold] at hQ ⊢
      by_cases hlate : initTime < clock 1
      · rw [if_pos hlate] at hQ ⊢
        obtain ⟨this, hthis⟩ := mem_addrs_iff.mp hT.thisListed
        have hrid := ridOf_of_find hthis
        obtain ⟨T₁, hrun₁, hT₁, hrem⟩ := removeLink_spec hT hrid neighbors.elems[i].id
        have hinv₁ := hremove T this.rid _ T₁ hT hrid hinv hQ.1 hT₁ hrem
        have hthis₁ := deref_of_find hthis
        obtain ⟨neighbors', T', hrun, hbuf, hmem, hT', hcore, hinv'⟩ :=
          ih hT₁ hinv₁ hsize (hQ.2 this hthis₁ T₁ hrun₁)
        refine ⟨neighbors', T', ?_, hbuf, fun x hx => hsub x (hmem x hx), hT',
          hrem.core.trans hcore, hinv'⟩
        rw [hthis₁, ok_bind, hrun₁, ok_bind, hrun]
      · rw [if_neg hlate] at hQ ⊢
        obtain ⟨neighbors', T', hrun, hbuf, hmem, hrest⟩ := ih hT hinv hsize hQ
        exact ⟨neighbors', T', hrun, hbuf, fun x hx => hsub x (hmem x hx), hrest⟩
    · rw [if_neg hold] at hQ ⊢
      exact ih hT hinv (by omega) hQ

theorem recordNeighbor_bufSize (clock : Nat → Time) (msg : HelloMsg) (found : Bool)
    {neighbors : DynArray NeighborList} (h : 0 < neighbors.bufSize) :
    0 < (recordNeighbor clock msg found neighbors).1.bufSize := by
  unfold recordNeighbor
  by_cases hg : neighbors.bufSize ≤ neighbors.size
  · simp only [if_pos hg]
    split <;> simp only [DynArray.grow, DynArray.store] <;> omega
  · simp only [if_neg hg]
    split <;> simpa only [DynArray.store] using h

include hremove hlabel in
theorem helloIface_invariant {initTime : Time} {clock : Nat → Time} {msg : HelloMsg}
    {iface : PwospfIflist} {T : Topo} (found : Bool) (hT : T.Wf) (hinv : I T)
    (hbuf : 0 < iface.neighbors.bufSize)
    (hQ : ExpireAll Q initTime clock iface.neighbors.size 0 iface.neighbors T)
    (hL : ∀ x, expireNeighbors initTime clock iface.neighbors.size 0 iface.neighbors T = .ok x →
      iface.name = msg.interface → helloMismatch iface msg = false → L x.2 msg) :
    ∃ iface' T' found' goOn, helloIface initTime clock msg iface T found =
        .ok (iface', T', found', goOn) ∧
      iface'.static = iface.static ∧ 0 < iface'.neighbors.bufSize ∧ T'.Wf ∧ SameCore T T' ∧
      I T' := by
  obtain ⟨neighbors, T₁, hrun, hbuf₁, -, hT₁, hcore, hinv₁⟩ :=
    expireNeighbors_invariant hremove hT hinv (Nat.zero_add _) hQ
  rw [← hbuf₁] at hbuf
  have hL₁ := hL (neighbors, T₁) hrun
  rw [helloIface]
  simp only
  rw [hrun, ok_bind]
  simp only
  by_cases hname : iface.name = msg.interface
  · rw [if_neg (not_not.mpr hname)]
    have hmis : helloMismatch { iface with neighbors := neighbors } msg = helloMismatch iface msg :=
      rfl
    rw [hmis]
    by_cases hm : helloMismatch iface msg
    · rw [if_pos hm]
      exact ⟨_, T₁, found, false, rfl, rfl, hbuf, hT₁, hcore, hinv₁⟩
    · rw [if_neg hm, if_neg (by omega)]
      obtain ⟨T₂, hrun₂, hT₂, hcase⟩ := labelSubnet_spec hT₁ msg
      have hfinal : SameCore T₁ T₂ ∧ I T₂ := by
        rcases hcase with rfl | hlab
        · exact ⟨.refl _, hinv₁⟩
        · exact ⟨hlab.core, hlabel T₁ msg T₂ hT₁ hinv₁ (hL₁ hname (by simpa using hm)) hT₂ hlab⟩
      let record := recordNeighbor (later (2 * iface.neighbors.size) clock) msg found neighbors
      exact ⟨{ iface with neighbors := record.1 }, T₂, record.2, true,
        by rw [hrun₂, ok_bind]; rfl, rfl, recordNeighbor_bufSize _ _ _ hbuf, hT₂,
        hcore.trans hfinal.1, hfinal.2⟩
  · rw [if_pos hname]
    exact ⟨_, T₁, found, true, rfl, rfl, hbuf, hT₁, hcore, hinv₁⟩

include hremove hlabel in
theorem helloLoop_invariant {initTime : Time} {msg : HelloMsg} {clock : Nat → Time} {found : Bool}
    {interfaces : List PwospfIflist} {T : Topo} (hT : T.Wf) (hinv : I T)
    (hbuf : ∀ i ∈ interfaces, 0 < i.neighbors.bufSize)
    (hall : HelloAll Q L initTime msg clock found interfaces T) :
    ∃ interfaces' T', helloLoop initTime msg clock found interfaces T = .ok (interfaces', T') ∧
      interfaces'.map PwospfIflist.static = interfaces.map PwospfIflist.static ∧
      (∀ i ∈ interfaces', 0 < i.neighbors.bufSize) ∧ T'.Wf ∧ SameCore T T' ∧ I T' := by
  induction interfaces generalizing clock found T with
  | nil => exact ⟨[], T, rfl, rfl, hbuf, hT, .refl T, hinv⟩
  | cons iface rest ih =>
    obtain ⟨hQ, hL, hrest⟩ := hall
    obtain ⟨iface', T₁, found', goOn, hrun, hstatic, hbuf₁, hT₁, hcore, hinv₁⟩ :=
      helloIface_invariant hremove hlabel found hT hinv (hbuf iface (by simp)) hQ hL
    have hbufs := fun i hi => hbuf i (List.mem_cons_of_mem _ hi)
    rw [helloLoop, hrun, ok_bind]
    simp only
    cases goOn with
    | false =>
      refine ⟨iface' :: rest, T₁, rfl, by simp [hstatic], ?_, hT₁, hcore, hinv₁⟩
      intro i hi
      rcases List.mem_cons.mp hi with rfl | hi
      exacts [hbuf₁, hbufs i hi]
    | true =>
      obtain ⟨rest', T', hrun', hstatic', hbuf', hT', hcore', hinv'⟩ :=
        ih hT₁ hinv₁ hbufs (hrest (iface', T₁, found', true) hrun rfl)
      refine ⟨iface' :: rest', T', ?_, by simp [hstatic, hstatic'], ?_, hT', hcore.trans hcore',
        hinv'⟩
      · rw [if_pos rfl, hrun', ok_bind]
        rfl
      · intro i hi
        rcases List.mem_cons.mp hi with rfl | hi
        exacts [hbuf₁, hbuf' i hi]

end Rule

end PWOSPF
