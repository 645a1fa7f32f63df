import Mathlib.Logic.Function.Basic
import PWOSPF.Area.Copies
import PWOSPF.Subsystem.Duplicates
import PWOSPF.Subsystem.OwnSubnets

/-!
# The routers of an area

Any number of routers that exchange HELLOs and LSUs. A copy that was handed to a link stays there: it
may arrive late, more than once, at any router, or never. In every run the links hold nothing but
HELLOs of the routers and LSUs as their originators issued them.
-/

namespace PWOSPF

open Framework Topo PacketField

/-- The routers, the copies handed to the links, the LSUs the routers sent and the copies they took,
oldest first. -/
structure Area (ι : Type) where
  nodes : ι → Node
  wire : List Handoff
  issued : List (ι × Lsu)
  received : List (ι × Handoff)

/-- What a router does next. It receives a copy from the links as the packet that the copy became. -/
inductive AreaInput (ι : Type)
  | receive (i : ι) (env : Env) (c : Handoff) (ps : PacketState)
  | timeout (i : ι) (clock : Nat → Time)
  | sendLsu (i : ι) (env : Env)
  | sendHello (i : ι) (env : Env)

variable {ι : Type}

def Area.start (S₀ : ι → PwospfSubsys) : Area ι := ⟨fun i => .start (S₀ i), [], [], []⟩

def Area.subsys (a : Area ι) (i : ι) : PwospfSubsys := (a.nodes i).subsys

/-- The router that changes, and what it runs. -/
def AreaInput.local (sr : ι → SrInstance) : AreaInput ι → Option (ι × Input)
  | .receive i env _ ps => some (i, .packet env ps)
  | .timeout i clock => some (i, .timeout clock)
  | .sendLsu i env => some (i, .send (sr i) env)
  | .sendHello _ _ => none

/-- The copies that are handed over. -/
def AreaInput.copies (sr : ι → SrInstance) (a : Area ι) : AreaInput ι → Exec (List Handoff)
  | .receive i env _ ps => do return (← handlePwospf (a.subsys i) env ps).copies
  | .timeout _ _ => .ok []
  | .sendLsu i env => do return (← PWOSPF.sendLsu (sr i) (a.subsys i) env).2
  | .sendHello i env => PWOSPF.sendHello (a.subsys i) env

def AreaInput.issues (sr : ι → SrInstance) (a : Area ι) : AreaInput ι → List (ι × Lsu)
  | .receive _ _ _ _ => []
  | .timeout _ _ => []
  | .sendLsu i _ =>
    ((a.subsys i).top.find (a.subsys i).top.thisRouter).toList.map fun this =>
      (i, ownLsu (sr i) (a.subsys i) this)
  | .sendHello _ _ => []

def AreaInput.takes : AreaInput ι → List (ι × Handoff)
  | .receive i _ c _ => [(i, c)]
  | .timeout _ _ => []
  | .sendLsu _ _ => []
  | .sendHello _ _ => []

def Area.act [DecidableEq ι] (a : Area ι) : Option (ι × Input) → Exec (ι → Node)
  | some (i, x) => do return Function.update a.nodes i (← (a.nodes i).run x)
  | none => .ok a.nodes

def Area.run [DecidableEq ι] (sr : ι → SrInstance) (a : Area ι) (k : AreaInput ι) :
    Exec (Area ι) := do
  let copies ← k.copies sr a
  let nodes ← a.act (k.local sr)
  return ⟨nodes, a.wire ++ copies, a.issued ++ k.issues sr a, a.received ++ k.takes⟩

/-- A copy is taken from the links, and an LSU fits into a packet. -/
def AreaInput.Possible (sr : ι → SrInstance) (a : Area ι) : AreaInput ι → Prop
  | .receive _ _ c ps => c ∈ a.wire ∧ c.Delivers ps.packet
  | .timeout _ _ => True
  | .sendLsu i _ => LsuFits (sr i) (a.subsys i)
  | .sendHello _ _ => True

def AreaStep [DecidableEq ι] (sr : ι → SrInstance) (a : Area ι) (k : AreaInput ι) (a' : Area ι) :
    Prop :=
  k.Possible sr a ∧ a.run sr k = .ok a'

/-- The routers are well formed, belong to the area and have these ids. -/
structure Boots (area : UInt32) (rid : ι → UInt32) (S₀ : ι → PwospfSubsys) : Prop where
  wf : ∀ i, (S₀ i).Wf
  areaId : ∀ i, (S₀ i).areaId = area
  autype : ∀ i, (S₀ i).autype = 0
  rid : ∀ i, (S₀ i).top.ridOf (S₀ i).top.thisRouter = some (rid i)

/-- What a router keeps from its start. -/
structure Booted (area : UInt32) (rid : UInt32) (S₀ S : PwospfSubsys) : Prop
    extends InArea area S where
  wf : S.Wf
  rid : S.top.ridOf S.top.thisRouter = some rid
  interfaces : S.interfaces.map PwospfIflist.static = S₀.interfaces.map PwospfIflist.static

/-- A copy on the links is a HELLO that a router sent out of one of its interfaces, or one sent an LSU
that was issued out of one of its interfaces. -/
inductive Genuine (area : UInt32) (rid : ι → UInt32) (S₀ : ι → PwospfSubsys)
    (issued : List (ι × Lsu)) (c : Handoff) : Prop
  | lsu (o : ι) (l : Lsu) (ttl : Nat) (pair : PwospfIflist × NeighborList) (j : ι)
      (hissued : (o, l) ∈ issued) (hsrc : ∃ f ∈ (S₀ j).interfaces, f.address = pair.1.address)
      (h : CarriesBetween area l ttl c.frame pair)
  | hello (o : ι) (i : PwospfIflist) (hnow : c.awaits = none)
      (hsrc : ∃ f ∈ (S₀ o).interfaces, f.address = i.address) (h : SaysHello c.frame area (rid o) i)

/-! ## What is on the links -/

variable {area : UInt32} {rid : ι → UInt32} {S₀ : ι → PwospfSubsys}
  {issued issued' : List (ι × Lsu)}

theorem Genuine.mono {c : Handoff}
    (h : Genuine area rid S₀ issued c) (hsub : issued ⊆ issued') : Genuine area rid S₀ issued' c := by
  cases h with
  | lsu o l ttl pair j hissued hsrc h => exact .lsu o l ttl pair j (hsub hissued) hsrc h
  | hello o i hnow hsrc h => exact .hello o i hnow hsrc h

/-- An LSU from the links is merged and passed on as it is, a HELLO goes no further. -/
inductive Taken (rid : ι → UInt32) (issued : List (ι × Lsu)) (S : PwospfSubsys) (env : Env)
    (area : UInt32) (out : Outcome) : Prop
  | lsu (o : ι) (l : Lsu) (ttl : Nat) (src : InAddr) (hissued : (o, l) ∈ issued)
      (h : LsuTaken S env area l ttl src out)
  | hello (o : ι) (h : HelloTaken S env (rid o) out)

theorem Handoff.Delivers.eq_frame {c : Handoff} {f : Frame} (h : c.Delivers f)
    (hnow : c.awaits = none) : f = c.frame := by
  unfold Handoff.Delivers at h
  rwa [hnow] at h

theorem Genuine.taken {c : Handoff} (h : Genuine area rid S₀ issued c)
    {ps : PacketState} (hdel : c.Delivers ps.packet) {S : PwospfSubsys} (hS : InArea area S)
    {env : Env} {out : Outcome} (hrun : handlePwospf S env ps = .ok out) :
    Taken rid issued S env area out := by
  cases h with
  | lsu o l ttl pair j hissued hsrc h =>
    have hcarries := h.delivered hdel
    exact .lsu o l ttl _ hissued (handlePwospf_taken hcarries.carries hS hcarries.ipSrc hrun)
  | hello o i hnow hsrc h =>
    have hframe := hdel.eq_frame hnow
    exact .hello o (handlePwospf_helloTaken (hframe ▸ h.type) (hframe ▸ h.rid) hrun)

theorem HelloTaken.silent {S : PwospfSubsys} {env : Env} {id : UInt32} {out : Outcome}
    (h : HelloTaken S env id out) : out.copies = [] ∧ out.applied = none := by
  cases h with
  | dropped hout => rw [hout]; exact ⟨rfl, rfl⟩
  | heard _ _ _ hout => rw [hout]; exact ⟨rfl, rfl⟩

theorem Booted.ownRid {id : UInt32} {S S' : PwospfSubsys} (h : Booted area id S S') {this : Router}
    (hthis : S'.top.find S'.top.thisRouter = some this) : this.rid = id := by
  have hrid := h.rid
  rwa [ridOf, hthis, Option.map_some, Option.some.injEq] at hrid

theorem Booted.address {id : UInt32} {S S' : PwospfSubsys} (h : Booted area id S S')
    {skip : InAddr → Bool} :
    ∀ p ∈ floodPairs skip S'.interfaces, ∃ f ∈ S.interfaces, f.address = p.1.address := by
  intro p hp
  obtain ⟨i, hi, hp⟩ := List.mem_flatMap.mp hp
  obtain ⟨nbr, -, rfl⟩ := List.mem_map.mp hp
  exact exists_of_static (p := fun f => f.address = i.address) (fun _ => Iff.rfl)
    h.interfaces.symm ⟨i, hi, rfl⟩

/-- Copies of an LSU for the neighbors. -/
theorem genuine_of_forall₂ {o j : ι} {l : Lsu} {ttl : Nat} (hissued : (o, l) ∈ issued)
    {copies : List Handoff} {pairs : List (PwospfIflist × NeighborList)}
    (hsrc : ∀ p ∈ pairs, ∃ f ∈ (S₀ j).interfaces, f.address = p.1.address)
    (h : List.Forall₂ (fun c => CarriesBetween area l ttl c.frame) copies pairs) :
    ∀ c ∈ copies, Genuine area rid S₀ issued c := by
  induction h with
  | nil =>
    intro c hc
    cases hc
  | cons hcopy _ ih =>
    obtain ⟨hp, hrest⟩ := List.forall_mem_cons.mp hsrc
    exact List.forall_mem_cons.mpr ⟨.lsu o l ttl _ j hissued hp hcopy, ih hrest⟩

theorem LsuTaken.genuine {o j : ι} {l : Lsu} {S : PwospfSubsys} {env : Env} {ttl : Nat}
    {src : InAddr} {out : Outcome} (h : LsuTaken S env area l ttl src out)
    (hS : Booted area (rid j) (S₀ j) S) (hissued : (o, l) ∈ issued) :
    ∀ c ∈ out.copies, Genuine area rid S₀ issued c := by
  cases h with
  | dropped _ hout =>
    rw [hout]
    intro c hc
    cases hc
  | merged R' _ _ _ _ _ hcopies =>
    refine genuine_of_forall₂ (j := j) hissued ?_ hcopies
    split
    · exact hS.address
    · intro p hp
      cases hp

theorem sendHello_says {S : PwospfSubsys} (hS : InArea area S) {id : UInt32}
    (hrid : S.top.ridOf S.top.thisRouter = some id) {env : Env} {copies : List Handoff}
    (hrun : sendHello S env = .ok copies) :
    ∀ c ∈ copies, c.awaits = none ∧ ∃ i ∈ S.interfaces, SaysHello c.frame area id i := by
  obtain ⟨this, hthis⟩ := mem_addrs_iff.mp hS.thisListed
  rw [ridOf, hthis, Option.map_some, Option.some.injEq] at hrid
  have hifs : S.interfaces ≠ [] := by
    intro hnone
    obtain ⟨f₁, -, hrun⟩ := bind_eq_ok.mp hrun
    obtain ⟨f₂, -, hrun⟩ := bind_eq_ok.mp hrun
    obtain ⟨this', -, hrun⟩ := bind_eq_ok.mp hrun
    obtain ⟨f₃, -, hrun⟩ := bind_eq_ok.mp hrun
    rw [if_pos hnone] at hrun
    cases hrun
  obtain ⟨copies', hrun', hall⟩ := sendHello_spec hthis hifs env
  have hsame : copies' = copies := Except.ok.inj (hrun'.symm.trans hrun)
  subst hsame
  rw [hS.areaId, hrid] at hall
  intro c hc
  obtain ⟨n, hn, rfl⟩ := List.getElem_of_mem hc
  obtain ⟨-, hnow, hsays⟩ := hall.get hn (by rw [← hall.length_eq]; exact hn)
  exact ⟨hnow, _, List.get_mem _ _, hsays⟩

theorem sendLsu_genuine {sr : ι → SrInstance} {a : Area ι} {o : ι}
    (hS : Booted area (rid o) (S₀ o) (a.subsys o)) (hfits : LsuFits (sr o) (a.subsys o)) {env : Env} {x : PwospfSubsys × List Handoff}
    (hrun : sendLsu (sr o) (a.subsys o) env = .ok x) :
    ∀ c ∈ x.2, Genuine area rid S₀ (issued ++ (AreaInput.sendLsu o env).issues sr a) c := by
  obtain ⟨this, hthis, hcopies⟩ := sendLsu_carries hfits hrun
  rw [hS.areaId] at hcopies
  have hissues : (AreaInput.sendLsu o env).issues sr a =
      [(o, ownLsu (sr o) (a.subsys o) this)] := by
    simp only [AreaInput.issues, hthis, Option.toList_some, List.map_cons, List.map_nil]
  rw [hissues]
  exact genuine_of_forall₂ (List.mem_append_right _ List.mem_cons_self) hS.address hcopies

theorem inArea_of_init {r : SrInstance} {clock : Nat → Time} {S : PwospfSubsys}
    (h : pwospfInit r clock area = .ok S) : InArea area S := by
  have hstart : Reach Step (fun _ _ => True) S S := .start
  exact inArea_of_reach h hstart

theorem Boots.of_init {sr : ι → SrInstance} {clock : ι → Nat → Time} {S₀ : ι → PwospfSubsys}
    (h₀ : ∀ i, pwospfInit (sr i) (clock i) area = .ok (S₀ i)) : ∃ rid, Boots area rid S₀ := by
  have harea : ∀ i, InArea area (S₀ i) := fun i => inArea_of_init (h₀ i)
  choose rid hrid using fun i => ridOf_isSome (harea i).thisListed
  exact ⟨rid, fun i => pwospfInit_wf (h₀ i), fun i => (harea i).areaId, fun i => (harea i).autype,
    hrid⟩

section Step

variable [DecidableEq ι] {sr : ι → SrInstance} {a a' : Area ι} {k : AreaInput ι}
  {S₀ : ι → PwospfSubsys}

/-! ## One step -/

/-- Only one router changes, and it runs what it received. -/
inductive StepEffect (sr : ι → SrInstance) (a : Area ι) (k : AreaInput ι) (nodes : ι → Node) : Prop
  | act (i : ι) (x : Input) (n : Node) (hlocal : k.local sr = some (i, x))
      (hstep : NodeStep (a.nodes i) x n) (hnodes : nodes = Function.update a.nodes i n)
  | idle (hlocal : k.local sr = none) (hnodes : nodes = a.nodes)

theorem AreaStep.effect (h : AreaStep sr a k a') : StepEffect sr a k a'.nodes := by
  obtain ⟨copies, -, hrun⟩ := bind_eq_ok.mp h.2
  obtain ⟨nodes, hnodes, hrun⟩ := bind_eq_ok.mp hrun
  cases hrun
  cases hlocal : k.local sr with
  | none =>
    rw [hlocal] at hnodes
    exact .idle hlocal (Except.ok.inj hnodes).symm
  | some y =>
    rw [hlocal] at hnodes
    obtain ⟨n, hn, hnodes⟩ := bind_eq_ok.mp hnodes
    exact .act y.1 y.2 n hlocal hn (Except.ok.inj hnodes).symm

/-- What a step hands over and records. -/
theorem AreaStep.logs (h : AreaStep sr a k a') :
    (∃ copies, k.copies sr a = .ok copies ∧ a'.wire = a.wire ++ copies) ∧
      a'.issued = a.issued ++ k.issues sr a ∧ a'.received = a.received ++ k.takes := by
  obtain ⟨copies, hcopies, hrun⟩ := bind_eq_ok.mp h.2
  obtain ⟨nodes, -, hrun⟩ := bind_eq_ok.mp hrun
  cases hrun
  exact ⟨⟨copies, hcopies, rfl⟩, rfl, rfl⟩

/-- Every router goes through a run of its own. -/
theorem node_of_area {ok : Area ι → AreaInput ι → Prop} {okN : Node → Input → Prop}
    (hok : ∀ a k i x, ok a k → k.local sr = some (i, x) → okN (a.nodes i) x)
    (h : Reach (AreaStep sr) ok (.start S₀) a) (i : ι) :
    Reach NodeStep okN (.start (S₀ i)) (a.nodes i) := by
  induction h with
  | start => exact .start
  | @next a a' k _ hk hstep ih =>
    cases hstep.effect with
    | idle hlocal hnodes =>
      rw [hnodes]
      exact ih
    | act j x n hlocal hn hnodes =>
      rw [hnodes]
      by_cases hj : i = j
      · subst hj
        rw [Function.update_self]
        exact .next ih (hok a k i x hk hlocal) hn
      · rw [Function.update_of_ne hj]
        exact ih

theorem anyNode_of_area {ok : Area ι → AreaInput ι → Prop}
    (h : Reach (AreaStep sr) ok (.start S₀) a) (i : ι) :
    Reach NodeStep (fun _ _ => True) (.start (S₀ i)) (a.nodes i) :=
  node_of_area (fun _ _ _ _ _ _ => True.intro) h i

theorem Boots.booted (hboot : Boots area rid S₀) {ok : Area ι → AreaInput ι → Prop}
    (h : Reach (AreaStep sr) ok (.start S₀) a) (i : ι) : Booted area (rid i) (S₀ i) (a.subsys i) := by
  have hn := anyNode_of_area h i
  have hwf := node_wf (hboot.wf i) hn
  obtain ⟨-, hconf⟩ := run_wf (hboot.wf i) (node_reach hn)
  have hrid := hconf.thisRid.trans (hboot.rid i)
  rw [← hconf.thisRouter] at hrid
  exact ⟨⟨hconf.areaId.trans (hboot.areaId i), hconf.autype.trans (hboot.autype i),
    hwf.top.thisListed⟩, hwf, hrid, hconf.interfaces⟩

/-! ## Runs -/

/-- A step puts nothing else on the links. -/
theorem AreaStep.genuine (h : AreaStep sr a k a') (hboot : ∀ i, Booted area (rid i) (S₀ i) (a.subsys i))
    (hwire : ∀ c ∈ a.wire, Genuine area rid S₀ a.issued c) :
    ∀ c ∈ a'.wire, Genuine area rid S₀ a'.issued c := by
  obtain ⟨⟨copies, hcopies, hwire'⟩, hissued, -⟩ := h.logs
  rw [hwire', hissued]
  refine List.forall_mem_append.mpr ⟨?_, ?_⟩
  · intro c hc
    exact (hwire c hc).mono (List.subset_append_left _ _)
  · cases k with
    | receive i env c ps =>
      obtain ⟨hc, hdel⟩ := h.1
      obtain ⟨out, hrun, hout⟩ := bind_eq_ok.mp hcopies
      cases hout
      rw [AreaInput.issues, List.append_nil]
      cases (hwire c hc).taken hdel (hboot i).toInArea hrun with
      | lsu o l ttl src hissued htaken => exact htaken.genuine (hboot i) hissued
      | hello o htaken =>
        rw [htaken.silent.1]
        intro c hc
        cases hc
    | timeout i clock =>
      cases hcopies
      intro c hc
      cases hc
    | sendLsu i env =>
      obtain ⟨x, hrun, hx⟩ := bind_eq_ok.mp hcopies
      cases hx
      exact sendLsu_genuine (hboot i) h.1 hrun
    | sendHello i env =>
      intro c hc
      obtain ⟨hnow, iface, hi, hsays⟩ := sendHello_says (hboot i).toInArea (hboot i).rid hcopies c hc
      refine .hello i iface hnow ?_ hsays
      exact exists_of_static (p := fun f => f.address = iface.address) (fun _ => Iff.rfl)
        (hboot i).interfaces.symm ⟨iface, hi, rfl⟩

theorem wire_genuine (hboot : Boots area rid S₀) {ok : Area ι → AreaInput ι → Prop}
    (h : Reach (AreaStep sr) ok (.start S₀) a) : ∀ c ∈ a.wire, Genuine area rid S₀ a.issued c := by
  induction h with
  | start =>
    intro c hc
    cases hc
  | next hreach _ hstep ih => exact hstep.genuine (fun i => hboot.booted hreach i) ih

theorem received_wire {ok : Area ι → AreaInput ι → Prop}
    (h : Reach (AreaStep sr) ok (.start S₀) a) : ∀ x ∈ a.received, x.2 ∈ a.wire := by
  induction h with
  | start =>
    intro x hx
    cases hx
  | @next a a' k _ _ hstep ih =>
    obtain ⟨⟨copies, -, hwire⟩, -, hreceived⟩ := hstep.logs
    rw [hwire, hreceived]
    refine List.forall_mem_append.mpr ⟨fun x hx => List.mem_append_left _ (ih x hx), ?_⟩
    intro x hx
    cases k with
    | receive i env c ps =>
      rw [List.mem_singleton.mp hx]
      exact List.mem_append_left _ hstep.1.1
    | timeout | sendLsu | sendHello => cases hx

end Step

/-! ## Running areas -/

/-- A copy that has its MAC already is taken as it is. -/
def AreaInput.allowed (sr : ι → SrInstance) (a : Area ι) : AreaInput ι → Bool
  | .receive _ _ c ps => c ∈ a.wire ∧ c.awaits = none ∧ ps.packet = c.frame
  | .timeout _ _ => true
  | .sendLsu i _ => LsuFits (sr i) (a.subsys i)
  | .sendHello _ _ => true

theorem AreaInput.possible_of_allowed {sr : ι → SrInstance} {a : Area ι} {k : AreaInput ι}
    (h : k.allowed sr a = true) : k.Possible sr a := by
  cases k with
  | receive i env c ps =>
    obtain ⟨hc, hnow, hpacket⟩ := of_decide_eq_true h
    refine ⟨hc, ?_⟩
    unfold Handoff.Delivers
    rw [hnow]
    exact hpacket
  | timeout => exact True.intro
  | sendLsu i env =>
    have hfits : LsuFits (sr i) (a.subsys i) := of_decide_eq_true h
    exact hfits
  | sendHello => exact True.intro

section Demo

/-- 10.0.0.1, with a static default route, and 10.0.0.0 on the other end of its link. -/
def demoRouters : Bool → SrInstance
  | true => demoRouted
  | false => demoPeerSr

def demoOther : PwospfSubsys :=
  match pwospfInit demoPeerSr (fun _ => 0) 0 with
  | .ok S => S
  | .error _ => demoStart

def demoSubsys : Bool → PwospfSubsys
  | true => demoStart
  | false => demoOther

theorem demoSubsys_init (i : Bool) : pwospfInit (demoRouters i) (fun _ => 0) 0 = .ok (demoSubsys i) := by
  cases i with
  | true => rfl
  | false => decide +kernel

def demoRid (i : Bool) : UInt32 := if i then 0x0100000a else 0x0000000a

/-- A router sends a HELLO or an LSU, or it gets the copy at a position of the links. -/
inductive DemoMove
  | hello (i : Bool)
  | lsu (i : Bool)
  | deliver (i : Bool) (n : Nat)

def DemoMove.input (a : Area Bool) : DemoMove → Option (AreaInput Bool)
  | .hello i => some (.sendHello i demoEnv)
  | .lsu i => some (.sendLsu i demoEnv)
  | .deliver i n => a.wire[n]?.map fun c => .receive i demoEnv c ⟨c.frame, eth0Interface⟩

/-- The moves one after the other, as long as `ok` admits them. -/
def demoRun (sr : Bool → SrInstance) (ok : Area Bool → AreaInput Bool → Prop)
    [∀ a k, Decidable (ok a k)] : List DemoMove → Area Bool → Option (Area Bool)
  | [], a => some a
  | m :: ms, a => do
    let k ← m.input a
    if k.allowed sr a ∧ ok a k then
      match a.run sr k with
      | .ok a' => demoRun sr ok ms a'
      | .error _ => none
    else none

theorem demoRun_reach {sr : Bool → SrInstance} {ok : Area Bool → AreaInput Bool → Prop}
    [∀ a k, Decidable (ok a k)] {ms : List DemoMove} {a₀ a a' : Area Bool}
    (ha : Reach (AreaStep sr) ok a₀ a) (h : demoRun sr ok ms a = some a') :
    Reach (AreaStep sr) ok a₀ a' := by
  induction ms generalizing a with
  | nil =>
    cases h
    exact ha
  | cons m ms ih =>
    obtain ⟨k, -, h⟩ := Option.bind_eq_some_iff.mp h
    by_cases hk : k.allowed sr a ∧ ok a k
    · rw [if_pos hk] at h
      cases hrun : a.run sr k with
      | error e =>
        rw [hrun] at h
        cases h
      | ok a₁ =>
        rw [hrun] at h
        exact ih (.next ha hk.2 ⟨AreaInput.possible_of_allowed hk.1, hrun⟩) h
    · rw [if_neg hk] at h
      cases h

end Demo

end PWOSPF
