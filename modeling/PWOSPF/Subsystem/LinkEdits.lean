import PWOSPF.Subsystem.Neighbors
import PWOSPF.Topology.Pruning

/-!
# A HELLO as a list of edits

What a HELLO does to the links of this router follows from the neighbor records alone: it deletes a
link for every record that timed out after the start, and labels a subnet where it is accepted.
Run on the subnets of this router, this list of edits gives the subnets after the handler.
-/

namespace PWOSPF

open Framework Topo

/-- What a HELLO does to the links of this router. -/
inductive LinkEdit
  | drop (id : UInt32)
  | label
  deriving DecidableEq, Repr

/-- The ids of the neighbors whose links the first inner loop of `handle_HELLO` deletes. -/
def expiredEdits (initTime : Time) :
    (Nat → Time) → Nat → Nat → DynArray NeighborList → List LinkEdit
  | _, 0, _, _ => []
  | clock, n + 1, i, neighbors =>
    match neighbors.elems[i]? with
    | none => []
    | some nbr =>
      if nbr.timenotvalid < clock 0 then
        (if initTime < clock 1 then [.drop nbr.id] else []) ++
          expiredEdits initTime (later 2 clock) n i (neighbors.swapErase i)
      else expiredEdits initTime (later 2 clock) n (i + 1) neighbors

/-- The edits at one interface. -/
def ifaceEdits (initTime : Time) (clock : Nat → Time) (msg : HelloMsg) (iface : PwospfIflist) :
    List LinkEdit :=
  expiredEdits initTime clock iface.neighbors.size 0 iface.neighbors ++
    if iface.name = msg.interface ∧ helloMismatch iface msg = false then [.label] else []

def helloEdits (initTime : Time) (msg : HelloMsg) : (Nat → Time) → List PwospfIflist → List LinkEdit
  | _, [] => []
  | clock, iface :: rest =>
    ifaceEdits initTime clock msg iface ++
      if iface.name = msg.interface ∧ helloMismatch iface msg = true then []
      else helloEdits initTime msg (later (helloTicks iface) clock) rest

/-- The edits of a whole HELLO. -/
def PwospfSubsys.edits (S : PwospfSubsys) (clock : Nat → Time) (msg : HelloMsg) : List LinkEdit :=
  if msg.len < helloLen then [] else helloEdits S.initTime msg clock S.interfaces

/-- `labelSubnet` on the array alone. -/
def labelFirst (msg : HelloMsg) (subs : List Route) : List Route :=
  let newPref := msg.ipSrc &&& htonl msg.nmask
  match subs.find? fun s => s.pfix = newPref with
  | none => subs
  | some old =>
    if old.rId = 0 ∧ old.mask = ntohl msg.nmask then
      subs.modify (subs.findIdx fun s => s.pfix = newPref) fun s => { s with rId := msg.rid }
    else subs

def LinkEdit.run (thisRid : UInt32) (msg : HelloMsg) : LinkEdit → List Route → List Route
  | .drop id, subs => dropNamed thisRid id subs
  | .label, subs => labelFirst msg subs

def runEdits (thisRid : UInt32) (msg : HelloMsg) : List LinkEdit → List Route → List Route
  | [], subs => subs
  | e :: es, subs => runEdits thisRid msg es (e.run thisRid msg subs)

@[simp] theorem runEdits_nil (thisRid : UInt32) (msg : HelloMsg) (subs : List Route) :
    runEdits thisRid msg [] subs = subs := rfl

@[simp] theorem runEdits_append (thisRid : UInt32) (msg : HelloMsg) (es es' : List LinkEdit)
    (subs : List Route) : runEdits thisRid msg (es ++ es') subs =
      runEdits thisRid msg es' (runEdits thisRid msg es subs) := by
  induction es generalizing subs with
  | nil => rfl
  | cons e es ih => exact ih (e.run thisRid msg subs)

/-- `T'` is `T` after the edits: the subnets of this router are those the edits leave, and it lost
its adjacencies to the routers whose links were deleted. -/
structure LinksEdited (thisRid : UInt32) (msg : HelloMsg) (T : Topo) (es : List LinkEdit)
    (T' : Topo) : Prop where
  wf : T'.Wf
  core : SameCore T T'
  subs : T'.subs T.thisRouter = runEdits thisRid msg es (T.subs T.thisRouter)
  adj : ∀ b, b ∈ T'.adj T.thisRouter ↔
    b ∈ T.adj T.thisRouter ∧ ∀ id, LinkEdit.drop id ∈ es → T.ridOf b ≠ some id

section Edits

variable {thisRid : UInt32} {msg : HelloMsg} {T T' T'' : Topo} {es es' : List LinkEdit}

theorem LinksEdited.refl (hT : T.Wf) : LinksEdited thisRid msg T [] T :=
  ⟨hT, .refl T, rfl, by simp⟩

theorem LinksEdited.ridOf_this (h : LinksEdited thisRid msg T es T')
    (hthis : T.ridOf T.thisRouter = some thisRid) : T'.ridOf T'.thisRouter = some thisRid := by
  rw [h.core.thisRouter, h.core.ridOf, hthis]

theorem LinksEdited.trans (h : LinksEdited thisRid msg T es T')
    (h' : LinksEdited thisRid msg T' es' T'') : LinksEdited thisRid msg T (es ++ es') T'' := by
  have hsubs := h'.subs
  have hadj := h'.adj
  rw [h.core.thisRouter] at hsubs hadj
  refine ⟨h'.wf, h.core.trans h'.core, by rw [hsubs, h.subs, runEdits_append], ?_⟩
  intro b
  rw [hadj, h.adj, and_assoc]
  simp only [h.core.ridOf, List.mem_append, or_imp, forall_and]

theorem LinkRemoved.edited {id : UInt32} (hT : T.Wf) (hthis : T.ridOf T.thisRouter = some thisRid)
    (hT' : T'.Wf) (h : LinkRemoved T T.thisRouter thisRid id T') :
    LinksEdited thisRid msg T [.drop id] T' := by
  refine ⟨hT', h.core, h.subs_host hT hthis, ?_⟩
  intro b
  rw [h.adj]
  simp only [List.mem_singleton, LinkEdit.drop.injEq, forall_eq]
  apply and_congr_right
  intro _
  constructor
  · intro hnot hb
    exact (hnot b (hT.adjListContains_iff.mpr hb)).2 ⟨True.intro, rfl⟩
  · intro hb n hn
    have hne : b ≠ n := by
      rintro rfl
      exact hb (hT.adjListContains_iff.mp hn)
    exact ⟨fun hself => hne (hself.2.trans hself.1), fun hother => hne hother.2⟩

theorem labelSubnet_edited (hT : T.Wf) (h : labelSubnet T msg = .ok T') :
    LinksEdited thisRid msg T [.label] T' := by
  obtain ⟨this, hthis⟩ := mem_addrs_iff.mp hT.thisListed
  have hsame : ∀ T₁, T₁.Wf → SameCore T T₁ → T₁.adj = T.adj →
      T₁.subs T.thisRouter = labelFirst msg this.subnets.elems →
      LinksEdited thisRid msg T [.label] T₁ := by
    intro T₁ hT₁ hcore hadj hsubs
    refine ⟨hT₁, hcore, ?_, ?_⟩
    · rw [hsubs, subs_of_find hthis]
      rfl
    · intro b
      simp [hadj]
  rw [labelSubnet, deref_of_find hthis, ok_bind] at h
  simp only [routerContainsSubnet] at h
  cases hold : this.subnets.elems.find? fun s => s.pfix = msg.ipSrc &&& htonl msg.nmask with
  | none =>
    rw [hold] at h
    cases h
    apply hsame T hT (.refl T) rfl
    rw [subs_of_find hthis, labelFirst, hold]
  | some old =>
    rw [hold] at h
    simp only at h
    by_cases hc : old.rId = 0 ∧ old.mask = ntohl msg.nmask
    · rw [if_pos hc] at h
      cases h
      obtain ⟨hcore, hadj, -⟩ := setRId_spec hthis hold msg.rid
      apply hsame _ (hT.of_sameAdj hcore hadj) hcore hadj
      rw [subs_modify hthis (Router.setRId _ msg.rid) fun _ => rfl, Function.update_self, labelFirst,
        hold]
      simp only [if_pos hc]
      rfl
    · rw [if_neg hc] at h
      cases h
      apply hsame T hT (.refl T) rfl
      rw [subs_of_find hthis, labelFirst, hold]
      simp only [if_neg hc]

end Edits

/-! ## The loops of `handle_HELLO` -/

section Loops

variable {thisRid : UInt32} {msg : HelloMsg} {initTime : Time} {T T' : Topo}

theorem expireNeighbors_edited {clock : Nat → Time} {n i : Nat}
    {neighbors neighbors' : DynArray NeighborList} (hT : T.Wf)
    (hthis : T.ridOf T.thisRouter = some thisRid)
    (h : expireNeighbors initTime clock n i neighbors T = .ok (neighbors', T')) :
    LinksEdited thisRid msg T (expiredEdits initTime clock n i neighbors) T' := by
  induction n generalizing clock i neighbors T with
  | zero =>
    cases h
    exact .refl hT
  | succ n ih =>
    rw [expireNeighbors] at h
    rw [expiredEdits]
    cases hnbr : neighbors.elems[i]? with
    | none =>
      rw [hnbr] at h
      cases h
    | some nbr =>
      rw [hnbr] at h
      simp only at h ⊢
      by_cases hold : nbr.timenotvalid < clock 0
      · rw [if_pos hold] at h ⊢
        by_cases hlate : initTime < clock 1
        · rw [if_pos hlate] at h ⊢
          obtain ⟨this, hfind⟩ := mem_addrs_iff.mp hT.thisListed
          have hrid := ridOf_of_find hfind
          rw [hthis, Option.some.injEq] at hrid
          obtain ⟨T₁, hrun, hT₁, hrem⟩ := removeLink_spec hT hthis nbr.id
          rw [deref_of_find hfind, ok_bind, ← hrid, hrun, ok_bind] at h
          have hone : LinksEdited thisRid msg T [.drop nbr.id] T₁ := hrem.edited hT hthis hT₁
          exact hone.trans (ih hT₁ (hone.ridOf_this hthis) h)
        · rw [if_neg hlate] at h ⊢
          exact ih hT hthis h
      · rw [if_neg hold] at h ⊢
        exact ih hT hthis h

theorem helloIface_edited {clock : Nat → Time} {i i' : PwospfIflist} {found found' goOn : Bool}
    (hT : T.Wf) (hthis : T.ridOf T.thisRouter = some thisRid)
    (h : helloIface initTime clock msg i T found = .ok (i', T', found', goOn)) :
    LinksEdited thisRid msg T (ifaceEdits initTime clock msg i) T' := by
  obtain ⟨left, T₁, hexpire, hcases⟩ := helloIface_ok h
  have hone : LinksEdited thisRid msg T _ T₁ := expireNeighbors_edited hT hthis hexpire
  rw [ifaceEdits]
  rcases hcases with ⟨hname, -, -, -, rfl⟩ | ⟨hname, hmis, -, -, rfl⟩ | ⟨hname, hmis, -, -, hlabel⟩
  · simpa [hname] using hone
  · simpa [hmis] using hone
  · rw [if_pos ⟨hname, hmis⟩]
    exact hone.trans (labelSubnet_edited hone.wf hlabel)

theorem helloLoop_edited {clock : Nat → Time} {found : Bool}
    {interfaces interfaces' : List PwospfIflist} (hT : T.Wf)
    (hthis : T.ridOf T.thisRouter = some thisRid)
    (h : helloLoop initTime msg clock found interfaces T = .ok (interfaces', T')) :
    LinksEdited thisRid msg T (helloEdits initTime msg clock interfaces) T' := by
  induction interfaces generalizing clock found interfaces' T with
  | nil =>
    cases h
    exact .refl hT
  | cons i rest ih =>
    obtain ⟨i', T₁, found', goOn, hiface, hon, hoff⟩ := helloLoop_cons h
    have hone : LinksEdited thisRid msg T _ T₁ := helloIface_edited hT hthis hiface
    have hstop : goOn = false ↔ i.name = msg.interface ∧ helloMismatch i msg = true := by
      rcases helloIface_cases hiface with ⟨hname, hgo, -⟩ | ⟨hname, hmis, hgo, -⟩ |
        ⟨hname, hmis, hgo, -⟩
      · simp [hgo, hname]
      · simp [hgo, hname, hmis]
      · simp [hgo, hmis]
    rw [helloEdits]
    cases goOn with
    | false =>
      obtain ⟨-, rfl⟩ := hoff rfl
      rw [if_pos (hstop.mp rfl), List.append_nil]
      exact hone
    | true =>
      obtain ⟨rest', -, hrest⟩ := hon rfl
      rw [if_neg fun hc => by cases hstop.mpr hc]
      exact hone.trans (ih hone.wf (hone.ridOf_this hthis) hrest)

/-- A HELLO is handled without a fault, and does its edits. -/
theorem handleHello_edited {S : PwospfSubsys} (hS : S.Wf) (clock : Nat → Time) (msg : HelloMsg)
    (hthis : S.top.ridOf S.top.thisRouter = some thisRid) :
    ∃ S', handleHello S clock msg = .ok S' ∧
      LinksEdited thisRid msg S.top (S.edits clock msg) S'.top := by
  obtain ⟨S', hrun⟩ := handleHello_exists hS clock msg
  refine ⟨S', hrun, ?_⟩
  rw [PwospfSubsys.edits]
  by_cases hlen : msg.len < helloLen
  · rw [handleHello, if_pos hlen] at hrun
    cases hrun
    rw [if_pos hlen]
    exact .refl hS.top
  · obtain ⟨x, hloop, rfl⟩ := (handleHello_ok_iff (Nat.not_lt.mp hlen)).mp hrun
    rw [if_neg hlen]
    exact helloLoop_edited hS.top hthis hloop

end Loops

/-- Router 7 says hello over the link at `eth0`. -/
def helloOf7 : HelloMsg := ⟨32, eth0Interface, 0xfffffffe, 0x0500, 7, 0x0000000a⟩

end PWOSPF
