import PWOSPF.Subsystem.LsuFormat
import PWOSPF.Subsystem.ReadBounds
import PWOSPF.Subsystem.Rebuilds

/-!
# Neighbors that fall silent

A neighbor record is valid for `OSPF_NEIGHBOR_TIMEOUT` seconds after a HELLO, but only the next HELLO
that is handled deletes it. The functions that use the lists do not look at the time, so they use
live neighbors as long as the HELLOs keep coming.
-/

namespace PWOSPF

open Framework Topo PacketField

/-- The HELLO in a packet that passes the checks, if it is one and long enough. -/
def arrivedHello (S : PwospfSubsys) (ps : PacketState) : Option HelloMsg :=
  match checkPwospf S ps.packet with
  | .ok (some f) =>
    match f.get ospfType, readHello S { ps with packet := f } with
    | .ok type, .ok msg => if type = ospfTypeHello ∧ helloLen ≤ msg.len then some msg else none
    | _, _ => none
  | _ => none

def Input.hello (S : PwospfSubsys) : Input → Option ((Nat → Time) × HelloMsg)
  | .packet env ps => (arrivedHello S ps).map fun msg => (env.clock, msg)
  | _ => none

/-- A router with the HELLOs it has handled, oldest first, each with the clock at that time. -/
structure Listener where
  node : Node
  hellos : List ((Nat → Time) × HelloMsg)

def Listener.start (S : PwospfSubsys) : Listener := ⟨.start S, []⟩

def Listener.run (s : Listener) (x : Time × Input) : Exec Listener := do
  return ⟨← s.node.run x.2, s.hellos ++ (x.2.hello s.node.subsys).toList⟩

/-- Inputs come with the time at which the neighbor lists are used. -/
def ListenerStep (s : Listener) (x : Time × Input) (s' : Listener) : Prop := s.run x = .ok s'

/-! ## Using the lists -/

/-- The loops of `send_lsu` and `forward_lsu` make a copy for the neighbor. -/
def Recipient (skip : InAddr → Bool) (interfaces : List PwospfIflist) (nbr : NeighborList) : Prop :=
  ∃ iface ∈ interfaces, nbr ∈ iface.neighbors.elems ∧ skip nbr.ipAddress = false

/-- `update_ftable` looks the neighbor up as the first hop of a route. -/
def NextHop (T : Topo) (interfaces : List PwospfIflist) (nbr : NeighborList) : Prop :=
  ∃ dest ∈ T.network, ∃ nextHop numhops iface, findNextHop T dest = .ok (some nextHop, numhops) ∧
    getIfAndNeighbor .zero .zero nextHop.rid interfaces = (iface, nbr, 1)

/-- The neighbors that a step selects. -/
inductive Selects (S : PwospfSubsys) : Input → NeighborList → Prop
  | sendLsu {sr : SrInstance} {env : Env} {nbr : NeighborList}
      (h : Recipient (fun _ => false) S.interfaces nbr) : Selects S (.send sr env) nbr
  | forwardLsu {env : Env} {ps : PacketState} {out : Outcome} {src : Nat} {nbr : NeighborList}
      (hrun : handlePwospf S env ps = .ok out) (hmerged : out.applied ≠ none)
      (hsrc : ps.packet.get ipSrc = .ok src)
      (h : Recipient (fun a => a = UInt32.ofNat src) out.subsys.interfaces nbr) :
      Selects S (.packet env ps) nbr
  | mergedLsu {env : Env} {ps : PacketState} {rid : UInt32} {seq : UInt16} {ads : List Route}
      {T T' : Topo} {nbr : NeighborList} (harrived : arrivedLsu S ps = some (rid, seq))
      (hmerge : (Event.lsu env.clock rid ads).rebuilt S = some T) (hrun : dijkstra T = .ok T')
      (h : NextHop T' S.interfaces nbr) : Selects S (.packet env ps) nbr
  | timeout {clock : Nat → Time} {T T' : Topo} {nbr : NeighborList}
      (hexpired : (Event.timeout clock).rebuilt S = some T) (hrun : dijkstra T = .ok T')
      (h : NextHop T' S.interfaces nbr) : Selects S (.timeout clock) nbr

/-- The inputs that may use the neighbor lists: LSUs, timer ticks and the sending of an LSU. -/
def Input.UsesNeighbors (S : PwospfSubsys) : Input → Prop
  | .packet _ ps => (arrivedLsu S ps).isSome
  | .timeout _ => True
  | .send _ _ => True

theorem getIfAndNeighbor_mem {ifret iface : PwospfIflist} {nbrret nbr : NeighborList} {id : UInt32}
    {interfaces : List PwospfIflist}
    (h : getIfAndNeighbor ifret nbrret id interfaces = (iface, nbr, 1)) :
    ∃ k : Nat, interfaces[k]? = some iface ∧ nbr ∈ iface.neighbors.elems := by
  induction interfaces with
  | nil => cases h
  | cons curIf rest ih =>
    rw [getIfAndNeighbor] at h
    cases hfind : curIf.neighbors.elems.find? fun n => n.id = id with
    | some n =>
      rw [hfind] at h
      cases h
      exact ⟨0, rfl, List.mem_of_find?_eq_some hfind⟩
    | none =>
      rw [hfind] at h
      obtain ⟨k, hk, hmem⟩ := ih h
      exact ⟨k + 1, hk, hmem⟩

/-! ## Silence -/

/-- The HELLO that was the last one accepted from its sender at the `k`-th interface, and the HELLOs
after it. -/
structure LastHello (hellos : List ((Nat → Time) × HelloMsg)) (interfaces : List PwospfIflist)
    (k : Nat) (clock : Nat → Time) (msg : HelloMsg) (post : List ((Nat → Time) × HelloMsg)) :
    Prop where
  split : ∃ pre, hellos = pre ++ (clock, msg) :: post
  accepted : visit msg interfaces k = .accepted
  last : ∀ y ∈ post, visit y.2 interfaces k = .accepted → y.2.ipSrc ≠ msg.ipSrc

/-- When the lists are used, no neighbor has been silent for longer than the timeout, unless another
HELLO came after the timeout and was carried up to the interface of the neighbor. -/
def Heard (s : Listener) (x : Time × Input) : Prop :=
  x.2.UsesNeighbors s.node.subsys →
    ∀ k clock msg post, LastHello s.hellos s.node.subsys.interfaces k clock msg post →
      (∀ j, x.1 ≤ clock j + ospfNeighborTimeout) ∨
        ∃ y ∈ post, visit y.2 s.node.subsys.interfaces k ≠ .untouched ∧
          ∀ i j, clock i + ospfNeighborTimeout < y.1 j

/-- The record was written for the last HELLO of its neighbor at the `k`-th interface, and the HELLOs
that were carried there since then came before it ran out. -/
def HeardOf (hellos : List ((Nat → Time) × HelloMsg)) (interfaces : List PwospfIflist) (k : Nat)
    (nbr : NeighborList) : Prop :=
  ∃ clock msg post, LastHello hellos interfaces k clock msg post ∧ msg.ipSrc = nbr.ipAddress ∧
    (∃ j, nbr.timenotvalid = clock j + ospfNeighborTimeout) ∧
    ∀ y ∈ post, visit y.2 interfaces k ≠ .untouched → ∃ j, y.1 j ≤ nbr.timenotvalid

def AllHeardOf (hellos : List ((Nat → Time) × HelloMsg)) (interfaces : List PwospfIflist) : Prop :=
  ∀ k i, interfaces[k]? = some i → ∀ nbr ∈ i.neighbors.elems, HeardOf hellos interfaces k nbr

section Trace

variable {hellos : List ((Nat → Time) × HelloMsg)} {interfaces interfaces' : List PwospfIflist}
  {k : Nat} {nbr : NeighborList} {clock : Nat → Time} {msg : HelloMsg} {found : Bool}

theorem visit_congr
    (h : interfaces'.map PwospfIflist.static = interfaces.map PwospfIflist.static) :
    visit msg interfaces' k = visit msg interfaces k := by
  induction interfaces' generalizing interfaces k with
  | nil =>
    rw [List.map_nil, eq_comm, List.map_eq_nil_iff] at h
    rw [h]
  | cons i' rest' ih =>
    cases interfaces with
    | nil => cases h
    | cons i rest =>
      obtain ⟨hhead, hrest⟩ := List.cons.inj h
      have hname : i'.static.name = i.static.name := congrArg _ hhead
      have hmask : i'.static.mask = i.static.mask := congrArg _ hhead
      have hint : i'.static.helloint = i.static.helloint := congrArg _ hhead
      change i'.name = i.name at hname
      change i'.mask = i.mask at hmask
      change i'.helloint = i.helloint at hint
      have hmis : helloMismatch i' msg = helloMismatch i msg := by
        rw [helloMismatch, helloMismatch, hmask, hint]
      cases k with
      | zero => rw [visit, visit, hname, hmis]
      | succ k => rw [visit, visit, hname, hmis, ih hrest]

theorem HelloWalk.static (h : HelloWalk clock msg found interfaces interfaces') :
    interfaces'.map PwospfIflist.static = interfaces.map PwospfIflist.static := by
  induction h with
  | done => rfl
  | other _ hswept _ ih => rw [List.map_cons, List.map_cons, hswept.static, ih]
  | refused _ _ hswept => rw [List.map_cons, List.map_cons, hswept.static]
  | accepted _ _ hrec _ ih => rw [List.map_cons, List.map_cons, hrec.static, ih]

theorem HeardOf.congr (h : HeardOf hellos interfaces k nbr)
    (hstatic : interfaces'.map PwospfIflist.static = interfaces.map PwospfIflist.static) :
    HeardOf hellos interfaces' k nbr := by
  have hvisit : ∀ msg, visit msg interfaces' k = visit msg interfaces k :=
    fun msg => visit_congr hstatic
  obtain ⟨clock, msg, post, hlast, hsrc, hvalid, hlive⟩ := h
  refine ⟨clock, msg, post, ⟨hlast.split, ?_, ?_⟩, hsrc, hvalid, ?_⟩
  · rw [hvisit]
    exact hlast.accepted
  · intro y hy haccepted
    rw [hvisit] at haccepted
    exact hlast.last y hy haccepted
  · intro y hy hcarried
    rw [hvisit] at hcarried
    exact hlive y hy hcarried

/-- A record that another HELLO leaves alone. -/
theorem HeardOf.later (h : HeardOf hellos interfaces k nbr)
    (hother : visit msg interfaces k = .accepted → msg.ipSrc ≠ nbr.ipAddress)
    (hlive : visit msg interfaces k ≠ .untouched → ∃ j, clock j ≤ nbr.timenotvalid) :
    HeardOf (hellos ++ [(clock, msg)]) interfaces k nbr := by
  obtain ⟨clock₀, msg₀, post, ⟨⟨pre, hsplit⟩, haccepted, hlast⟩, hsrc, hvalid, hpost⟩ := h
  refine ⟨clock₀, msg₀, post ++ [(clock, msg)], ⟨⟨pre, ?_⟩, haccepted, ?_⟩, hsrc, hvalid, ?_⟩
  · rw [hsplit, List.append_assoc, List.cons_append]
  · intro y hy hacc
    cases List.mem_append.mp hy with
    | inl hy => exact hlast y hy hacc
    | inr hy =>
      rw [List.mem_singleton.mp hy] at hacc ⊢
      rw [hsrc]
      exact hother hacc
  · intro y hy hcarried
    cases List.mem_append.mp hy with
    | inl hy => exact hpost y hy hcarried
    | inr hy =>
      rw [List.mem_singleton.mp hy] at hcarried ⊢
      exact hlive hcarried

theorem HeardOf.new (haccepted : visit msg interfaces k = .accepted)
    (hsrc : nbr.ipAddress = msg.ipSrc)
    (hvalid : ∃ j, nbr.timenotvalid = clock j + ospfNeighborTimeout) :
    HeardOf (hellos ++ [(clock, msg)]) interfaces k nbr :=
  ⟨clock, msg, [], ⟨⟨hellos, rfl⟩, haccepted, fun _ hy => absurd hy List.not_mem_nil⟩, hsrc.symm,
    hvalid, fun _ hy => absurd hy List.not_mem_nil⟩

/-- A HELLO keeps every record traced: what is left at an interface did not run out, and what is
new there stands for this HELLO. -/
theorem AllHeardOf.hello (h : AllHeardOf hellos interfaces)
    (hwalk : HelloWalk clock msg found interfaces interfaces') :
    AllHeardOf (hellos ++ [(clock, msg)]) interfaces' := by
  intro k i' hk nbr hnbr
  have htraced : HeardOf (hellos ++ [(clock, msg)]) interfaces k nbr := by
    obtain ⟨i, hi, huntouched | hswept | haccepted⟩ := hwalk.visited hk
    · obtain ⟨hvisit, rfl⟩ := huntouched
      apply (h k i' hi nbr hnbr).later
      · rw [hvisit]
        intro hacc
        cases hacc
      · intro hcarried
        exact absurd hvisit hcarried
    · obtain ⟨hvisit, hswept⟩ := hswept
      obtain ⟨hmem, hlive⟩ := hswept.left nbr hnbr
      apply (h k i hi nbr hmem).later
      · rw [hvisit]
        intro hacc
        cases hacc
      · exact fun _ => hlive
    · obtain ⟨hvisit, found, hrec⟩ := haccepted
      by_cases hsrc : nbr.ipAddress = msg.ipSrc
      · exact .new hvisit hsrc (hrec.fresh nbr hnbr hsrc)
      · obtain ⟨hmem, hlive⟩ := hrec.left nbr hnbr hsrc
        exact (h k i hi nbr hmem).later (fun _ => Ne.symm hsrc) fun _ => hlive
  exact htraced.congr hwalk.static

end Trace

/-! ## What a packet does to the lists -/

section Effect

variable {S S' : PwospfSubsys} {env : Env} {ps : PacketState} {out : Outcome}

theorem handleLsu_interfaces {f : Frame} (h : handleLsu S env f = .ok out) :
    out.subsys.interfaces = S.interfaces := by
  cases handleLsu_cases h with
  | dropped hout =>
    rw [hout]
    rfl
  | merged rid seq this ads S₁ copies hrid hthis hother hseq hnew hmerge hout =>
    rw [hout]
    exact (setSequence_interfaces _ _).trans (addToTop_interfaces hmerge)

theorem arrivedHello_of_type {f : Frame} {type : Nat} (hcheck : checkPwospf S ps.packet = .ok (some f))
    (htype : f.get ospfType = .ok type) (hne : type ≠ ospfTypeHello) : arrivedHello S ps = none := by
  simp only [arrivedHello, hcheck, htype]
  cases readHello S { ps with packet := f } with
  | ok msg => exact if_neg fun hboth => hne hboth.1
  | error e => rfl

/-- The lists change with a HELLO and with nothing else. -/
theorem handlePwospf_interfaces (h : handlePwospf S env ps = .ok out) :
    (∃ msg, arrivedHello S ps = some msg ∧
        HelloWalk env.clock msg false S.interfaces out.subsys.interfaces) ∨
      arrivedHello S ps = none ∧ out.subsys.interfaces = S.interfaces := by
  cases handlePwospf_cases h with
  | refused hcheck hout =>
    right
    rw [arrivedHello, hcheck, hout]
    exact ⟨rfl, rfl⟩
  | unknown f type hcheck htype hhello hlsu hout =>
    right
    rw [hout]
    exact ⟨arrivedHello_of_type hcheck htype hhello, rfl⟩
  | lsu f hcheck htype hrun =>
    right
    exact ⟨arrivedHello_of_type hcheck htype (by decide), handleLsu_interfaces hrun⟩
  | hello f msg S' hcheck htype hmsg hrun hout =>
    rw [hout]
    have harrived : arrivedHello S ps = if helloLen ≤ msg.len then some msg else none := by
      simp only [arrivedHello, hcheck, htype, hmsg, true_and]
    by_cases hlen : msg.len < helloLen
    · right
      rw [handleHello, if_pos hlen] at hrun
      cases hrun
      exact ⟨harrived.trans (if_neg (Nat.not_le.mpr hlen)), rfl⟩
    · left
      have hlong := Nat.not_lt.mp hlen
      exact ⟨msg, harrived.trans (if_pos hlong), handleHello_walk hlong hrun⟩

theorem merged_interfaces (h : handlePwospf S env ps = .ok out) (hmerged : out.applied ≠ none) :
    out.subsys.interfaces = S.interfaces := by
  cases handlePwospf_cases h with
  | lsu f hcheck htype hrun => exact handleLsu_interfaces hrun
  | refused hcheck hout =>
    rw [hout]
    rfl
  | unknown f type hcheck htype hhello hlsu hout =>
    rw [hout]
    rfl
  | hello f msg S' hcheck htype hmsg hrun hout =>
    rw [hout] at hmerged
    exact absurd rfl hmerged

end Effect

/-! ## Runs -/

section Runs

variable {S₀ : PwospfSubsys} {s s' : Listener} {now : Time} {i : Input} {nbr : NeighborList}

theorem ListenerStep.heardOf {x : Time × Input}
    (h : AllHeardOf s.hellos s.node.subsys.interfaces) (hstep : ListenerStep s x s') :
    AllHeardOf s'.hellos s'.node.subsys.interfaces := by
  obtain ⟨now, i⟩ := x
  obtain ⟨n, hrun, hs'⟩ := bind_eq_ok.mp hstep
  cases hs'
  cases i with
  | packet env ps =>
    obtain ⟨out, hout, hn⟩ := bind_eq_ok.mp hrun
    cases hn
    obtain ⟨msg, harrived, hwalk⟩ | ⟨hnone, hsame⟩ := handlePwospf_interfaces hout
    · simp only [Input.hello, harrived]
      exact h.hello hwalk
    · simp only [Input.hello, hnone, hsame]
      rw [Option.map_none, Option.toList_none, List.append_nil]
      exact h
  | timeout clock =>
    obtain ⟨S', hout, hn⟩ := bind_eq_ok.mp hrun
    cases hn
    simp only [Input.hello, checkTopInvalid_interfaces hout, Option.toList_none, List.append_nil]
    exact h
  | send sr env =>
    obtain ⟨y, hout, hn⟩ := bind_eq_ok.mp hrun
    cases hn
    simp only [Input.hello, sendLsu_subsys hout, setLastSeqSent_interfaces, Option.toList_none,
      List.append_nil]
    exact h

theorem listener_heardOf {sr : SrInstance} {clock : Nat → Time} {areaId : UInt32}
    {ok : Listener → Time × Input → Prop} (h₀ : pwospfInit sr clock areaId = .ok S₀)
    (hs : Reach ListenerStep ok (.start S₀) s) :
    AllHeardOf s.hellos s.node.subsys.interfaces := by
  refine Reach.invariant (I := fun s => AllHeardOf s.hellos s.node.subsys.interfaces) ?_
    (fun s x s' h _ hstep => hstep.heardOf h) hs
  obtain ⟨_, -, -, -, -, -, -, hif, -⟩ := pwospfInit_spec h₀
  intro k i hk nbr hnbr
  have hi : i ∈ createPwospfIfaces sr := hif ▸ List.mem_of_getElem? hk
  obtain ⟨srIf, -, rfl⟩ := List.mem_map.mp hi
  exact absurd hnbr List.not_mem_nil

theorem Recipient.listed {skip : InAddr → Bool} {interfaces : List PwospfIflist}
    (h : Recipient skip interfaces nbr) :
    ∃ (k : Nat) (iface : PwospfIflist), interfaces[k]? = some iface ∧ nbr ∈ iface.neighbors.elems := by
  obtain ⟨iface, hiface, hnbr, -⟩ := h
  obtain ⟨k, hk⟩ := List.mem_iff_getElem?.mp hiface
  exact ⟨k, iface, hk, hnbr⟩

theorem NextHop.listed {T : Topo} {interfaces : List PwospfIflist} (h : NextHop T interfaces nbr) :
    ∃ (k : Nat) (iface : PwospfIflist), interfaces[k]? = some iface ∧ nbr ∈ iface.neighbors.elems := by
  obtain ⟨dest, -, nextHop, numhops, iface, -, hget⟩ := h
  obtain ⟨k, hk, hnbr⟩ := getIfAndNeighbor_mem hget
  exact ⟨k, iface, hk, hnbr⟩

/-- Only the inputs that may use the lists do, and what they select is listed. -/
theorem Selects.listed {S : PwospfSubsys} (h : Selects S i nbr) :
    i.UsesNeighbors S ∧ ∃ (k : Nat) (iface : PwospfIflist),
      S.interfaces[k]? = some iface ∧ nbr ∈ iface.neighbors.elems := by
  cases h with
  | sendLsu h => exact ⟨True.intro, h.listed⟩
  | @forwardLsu env ps out src _ hrun hmerged hsrc h =>
    have harrived := (handlePwospf_effect hrun).arrived hmerged
    rw [merged_interfaces hrun hmerged] at h
    exact ⟨harrived, h.listed⟩
  | mergedLsu harrived hmerge hrun h =>
    refine ⟨?_, h.listed⟩
    rw [Input.UsesNeighbors, harrived]
    rfl
  | timeout hexpired hrun h => exact ⟨True.intro, h.listed⟩

/-- As long as every neighbor is heard of in time, or another HELLO sweeps it away, a neighbor that
is selected is live: a HELLO from it was accepted within the last `OSPF_NEIGHBOR_TIMEOUT` seconds. -/
theorem selected_live {sr : SrInstance} {clock : Nat → Time} {areaId : UInt32}
    (h₀ : pwospfInit sr clock areaId = .ok S₀) (hs : Reach ListenerStep Heard (.start S₀) s)
    (hheard : Heard s (now, i)) (hsel : Selects s.node.subsys i nbr) :
    now ≤ nbr.timenotvalid ∧ ∃ x ∈ s.hellos, x.2.ipSrc = nbr.ipAddress ∧
      (∃ k, visit x.2 s.node.subsys.interfaces k = .accepted) ∧
      ∃ j, now ≤ x.1 j + ospfNeighborTimeout := by
  obtain ⟨huses, k, iface, hk, hnbr⟩ := hsel.listed
  obtain ⟨clock, msg, post, hlast, hsrc, ⟨j, hvalid⟩, hpost⟩ := listener_heardOf h₀ hs k iface hk nbr hnbr
  have hlive : now ≤ nbr.timenotvalid := by
    rw [hvalid]
    cases hheard huses k clock msg post hlast with
    | inl hrecent => exact hrecent j
    | inr hswept =>
      obtain ⟨y, hy, hcarried, hlate⟩ := hswept
      obtain ⟨j', hj'⟩ := hpost y hy hcarried
      rw [hvalid] at hj'
      exact absurd (hlate j j') (Int.not_lt.mpr hj')
  refine ⟨hlive, (clock, msg), ?_, hsrc, ⟨k, hlast.accepted⟩, j, hvalid ▸ hlive⟩
  obtain ⟨pre, hpre⟩ := hlast.split
  rw [hpre]
  exact List.mem_append_right _ List.mem_cons_self

end Runs

section Demo

/-- A HELLO of router 7 at 10.0.0.0 to all routers. -/
def demoHello : Frame :=
  [0, 0, 0, 0, 0, 5, 0, 0, 0, 0, 0, 3, 8, 0,
    0x45, 0, 0, 52, 0, 0, 0, 0, 64, 89, 0, 0, 10, 0, 0, 0, 224, 0, 0, 5,
    2, 1, 0, 32, 7, 0, 0, 0, 0, 0, 0, 0, 0xf6, 0xde, 0, 0, 0, 0, 0, 0, 0, 0, 0, 0,
    0xfe, 0xff, 0xff, 0xff, 0, 5, 0, 0]

/-- The HELLO arrives at second 1. -/
def demoGreeting : Time × Input :=
  (1, .packet { demoEnv with clock := fun _ => 1 } ⟨demoHello, eth0Interface⟩)

def demoNeighbor : NeighborList := ⟨7, 0x0000000a, 21⟩

theorem heard_of_recent {s : Listener} {x : Time × Input}
    (h : ∀ y ∈ s.hellos, ∀ j, x.1 ≤ y.1 j + ospfNeighborTimeout) : Heard s x := by
  intro _ k clock msg post hlast
  obtain ⟨pre, hpre⟩ := hlast.split
  left
  apply h (clock, msg)
  rw [hpre]
  exact List.mem_append_right _ List.mem_cons_self

theorem demoGreeting_run :
    ∃ s, Reach ListenerStep Heard (.start demoStart) s ∧
      s.node.subsys.interfaces.map (fun i => i.neighbors.elems) = [[demoNeighbor]] ∧
      ∀ y ∈ s.hellos, ∀ j, y.1 j = 1 := by
  have hlists : ((Listener.start demoStart).run demoGreeting).map
      (fun s => s.node.subsys.interfaces.map fun i => i.neighbors.elems) =
        .ok [[demoNeighbor]] := by
    decide +kernel
  obtain ⟨s, hrun, hs⟩ := map_eq_ok.mp hlists
  refine ⟨s, .next .start (heard_of_recent fun y hy => absurd hy List.not_mem_nil) hrun, hs, ?_⟩
  obtain ⟨n, -, hs'⟩ := bind_eq_ok.mp hrun
  cases hs'
  intro y hy j
  change y ∈ ((arrivedHello demoStart ⟨demoHello, eth0Interface⟩).map fun msg =>
    (fun _ => 1, msg)).toList at hy
  obtain ⟨msg, -, rfl⟩ := Option.map_eq_some_iff.mp (Option.mem_toList.mp hy)
  rfl

theorem demoNeighbor_recipient {S : PwospfSubsys}
    (h : S.interfaces.map (fun i => i.neighbors.elems) = [[demoNeighbor]]) :
    Recipient (fun _ => false) S.interfaces demoNeighbor := by
  have hmem : [demoNeighbor] ∈ S.interfaces.map fun i => i.neighbors.elems := by
    rw [h]
    exact List.mem_singleton_self _
  obtain ⟨iface, hiface, helems⟩ := List.mem_map.mp hmem
  refine ⟨iface, hiface, ?_, rfl⟩
  rw [helems]
  exact List.mem_singleton_self _

theorem selected_live_demo :
    ∃ s, Reach ListenerStep Heard (.start demoStart) s ∧
      Selects s.node.subsys (.send demoSr demoEnv) demoNeighbor ∧
      21 ≤ demoNeighbor.timenotvalid := by
  obtain ⟨s, hs, hlists, hclock⟩ := demoGreeting_run
  have hsel : Selects s.node.subsys (.send demoSr demoEnv) demoNeighbor :=
    .sendLsu (demoNeighbor_recipient hlists)
  have hheard : Heard s (21, .send demoSr demoEnv) := heard_of_recent fun y hy j => by
    rw [hclock y hy j]
    decide
  exact ⟨s, hs, hsel, (selected_live demoStart_init hs hheard hsel).1⟩

/-- Nothing is heard after the HELLO. The timer ticks at second 31, and the LSU sent then goes to the
neighbor, though its record ran out at second 21. -/
theorem selected_dead :
    ∃ s, Reach ListenerStep (fun _ _ => True) (.start demoStart) s ∧
      Selects s.node.subsys (.send demoSr demoEnv) demoNeighbor ∧
      (∃ out, sendLsu demoSr s.node.subsys demoEnv = .ok out ∧
        out.2.map (fun c => c.frame.get ipDst) = [.ok demoNeighbor.ipAddress.toNat]) ∧
      ¬ 31 ≤ demoNeighbor.timenotvalid := by
  have hrun : (runAll Listener.run (fun _ _ => true) [demoGreeting, (31, .timeout fun _ => 31)]
      (.start demoStart)).map (fun s => (s.node.subsys.interfaces.map (fun i => i.neighbors.elems),
        (sendLsu demoSr s.node.subsys demoEnv).map fun out =>
          out.2.map fun c => c.frame.get ipDst)) =
      some ([[demoNeighbor]], .ok [.ok demoNeighbor.ipAddress.toNat]) := by
    decide +kernel
  obtain ⟨s, hs, hend⟩ := Option.map_eq_some_iff.mp hrun
  obtain ⟨hlists, hsent⟩ := Prod.mk.inj hend
  have hreach : Reach ListenerStep (fun _ _ => True) (.start demoStart) s :=
    Reach.of_runAll (fun _ _ _ _ h => ⟨True.intro, h⟩) .start hs
  exact ⟨s, hreach, .sendLsu (demoNeighbor_recipient hlists), map_eq_ok.mp hsent, by decide⟩

end Demo

end PWOSPF
