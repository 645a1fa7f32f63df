import PWOSPF.Subsystem.Packets
import PWOSPF.Subsystem.Runs

/-!
# The router between packets

A router that receives packets, expires routers and sends its own LSUs, one after the other. What a
packet does to the subsystem is what the events of `Runs` do, so every state between packets is one
that events reach, up to the sequence number sent last.
-/

namespace PWOSPF

open Framework Topo PacketField

/-- The originator and the sequence number in a packet that passes the checks, if it is an LSU. -/
def arrivedLsu (S : PwospfSubsys) (ps : PacketState) : Option (UInt32 × UInt16) :=
  match checkPwospf S ps.packet with
  | .ok (some f) =>
    match f.get ospfType, f.get ospfRid, f.get lsuSeq with
    | .ok type, .ok rid, .ok seq =>
      if type = ospfTypeLsu then some (.ofNat rid, .ofNat seq) else none
    | _, _, _ => none
  | _ => none

/-- What a packet does to the subsystem, in terms of events. -/
inductive PacketEffect (S : PwospfSubsys) (env : Env) (ps : PacketState) (out : Outcome) : Prop
  | dropped (h : out = .dropped S)
  | hello (msg : HelloMsg) (hrun : Event.run S (.hello env.clock msg) = .ok out.subsys)
      (hcopies : out.copies = []) (happlied : out.applied = none)
  | lsu (rid : UInt32) (seq : UInt16) (ads : List Route) (S₁ : PwospfSubsys)
      (harrived : arrivedLsu S ps = some (rid, seq))
      (hother : S.top.ridOf S.top.thisRouter ≠ some rid) (hnew : getSequence S rid ≠ seq)
      (hmerge : Event.run S (.lsu env.clock rid ads) = .ok S₁)
      (hsubsys : out.subsys = setSequence S₁ rid seq) (happlied : out.applied = some (rid, seq))

theorem handlePwospf_effect {S : PwospfSubsys} {env : Env} {ps : PacketState} {out : Outcome}
    (h : handlePwospf S env ps = .ok out) : PacketEffect S env ps out := by
  cases handlePwospf_cases h with
  | refused hcheck hout => exact .dropped hout
  | unknown f type hcheck htype hhello hlsu hout => exact .dropped hout
  | hello f msg S' hcheck htype hmsg hrun hout =>
    rw [hout]
    exact .hello msg hrun rfl rfl
  | lsu f hcheck htype hrun =>
    cases handleLsu_cases hrun with
    | dropped hout => exact .dropped hout
    | merged rid seq this ads S₁ copies hrid hthis hother hseq hnew hmerge hout =>
      rw [hout]
      apply PacketEffect.lsu _ _ ads S₁ _ _ hnew hmerge rfl rfl
      · simp only [arrivedLsu, hcheck, htype, hrid, hseq, if_true]
      · rw [ridOf, deref_eq_ok_iff.mp hthis]
        intro he
        exact hother (Option.some.inj he).symm

/-- A packet that is not merged is not flooded either. -/
theorem PacketEffect.copies {S : PwospfSubsys} {env : Env} {ps : PacketState} {out : Outcome}
    (h : PacketEffect S env ps out) (hnone : out.applied = none) : out.copies = [] := by
  cases h with
  | dropped h => rw [h]; rfl
  | hello msg hrun hcopies happlied => exact hcopies
  | lsu rid seq ads S₁ harrived hother hnew hmerge hsubsys happlied =>
    rw [happlied] at hnone
    cases hnone

/-- Only an LSU is merged. -/
theorem PacketEffect.arrived {S : PwospfSubsys} {env : Env} {ps : PacketState} {out : Outcome}
    (h : PacketEffect S env ps out) (hmerged : out.applied ≠ none) : (arrivedLsu S ps).isSome := by
  cases h with
  | dropped h =>
    rw [h] at hmerged
    exact absurd rfl hmerged
  | hello msg hrun hcopies happlied => exact absurd happlied hmerged
  | lsu rid seq ads S₁ harrived hother hnew hmerge hsubsys happlied =>
    rw [harrived]
    rfl

/-! ## Runs -/

/-- The subsystem with the LSUs that arrived and those that were merged and flooded, oldest first. -/
structure Node where
  subsys : PwospfSubsys
  arrived : List (UInt32 × UInt16)
  applied : List (UInt32 × UInt16)

inductive Input
  | packet (env : Env) (ps : PacketState)
  | timeout (clock : Nat → Time)
  | send (sr : SrInstance) (env : Env)

def Node.start (S : PwospfSubsys) : Node := ⟨S, [], []⟩

def Node.run (n : Node) : Input → Exec Node
  | .packet env ps => do
    let out ← handlePwospf n.subsys env ps
    return ⟨out.subsys, n.arrived ++ (arrivedLsu n.subsys ps).toList,
      n.applied ++ out.applied.toList⟩
  | .timeout clock => do return { n with subsys := ← checkTopInvalid n.subsys clock }
  | .send sr env => do return { n with subsys := (← sendLsu sr n.subsys env).1 }

def NodeStep (n : Node) (i : Input) (n' : Node) : Prop := n.run i = .ok n'

/-! ## Packets as events -/

def PwospfSubsys.setLastSeqSent (k : UInt16) (S : PwospfSubsys) : PwospfSubsys :=
  { S with lastSeqSent := k }

@[simp] theorem setLastSeqSent_top (S : PwospfSubsys) (k : UInt16) :
    (S.setLastSeqSent k).top = S.top := rfl

@[simp] theorem setLastSeqSent_interfaces (S : PwospfSubsys) (k : UInt16) :
    (S.setLastSeqSent k).interfaces = S.interfaces := rfl

@[simp] theorem setLastSeqSent_initTime (S : PwospfSubsys) (k : UInt16) :
    (S.setLastSeqSent k).initTime = S.initTime := rfl

theorem recompute_setLastSeqSent (S : PwospfSubsys) (k : UInt16) :
    recompute (S.setLastSeqSent k) = (recompute S).map (PwospfSubsys.setLastSeqSent k) := by
  rw [recompute, recompute, setLastSeqSent_top, setLastSeqSent_interfaces]
  cases rebuild S.top S.interfaces with
  | error e => rfl
  | ok x => rfl

/-- No event looks at the sequence number sent last. -/
theorem Event.run_setLastSeqSent (S : PwospfSubsys) (e : Event) (k : UInt16) :
    e.run (S.setLastSeqSent k) = (e.run S).map (PwospfSubsys.setLastSeqSent k) := by
  cases e with
  | lsu clock hostRid ads =>
    rw [Event.run, Event.run, addToTop, addToTop, setLastSeqSent_top, setLastSeqSent_initTime]
    cases mergeAdverts S.top S.initTime clock hostRid ads with
    | error e => rfl
    | ok T => exact recompute_setLastSeqSent { S with top := T } k
  | seq routerId lastSeq =>
    rw [Event.run, Event.run, setSequence, setSequence, setLastSeqSent_top]
    cases adjListContains S.top routerId with
    | none => rfl
    | some p => rfl
  | hello clock msg =>
    rw [Event.run, Event.run, handleHello, handleHello]
    by_cases hlen : msg.len < helloLen
    · rw [if_pos hlen, if_pos hlen]
      rfl
    · rw [if_neg hlen, if_neg hlen]
      rw [setLastSeqSent_top, setLastSeqSent_interfaces, setLastSeqSent_initTime]
      cases helloLoop S.initTime msg clock false S.interfaces S.top with
      | error e => rfl
      | ok x => rfl
  | timeout clock =>
    rw [Event.run, Event.run, checkTopInvalid, checkTopInvalid, setLastSeqSent_top]
    cases expiryLoop (later 1 clock) S.top.addrs S.top false with
    | error e => rfl
    | ok x =>
      obtain ⟨T, changed⟩ := x
      cases changed with
      | true => exact recompute_setLastSeqSent { S with top := T } k
      | false => rfl

theorem Step.setLastSeqSent {S S' : PwospfSubsys} {e : Event} (h : Step S e S') (k : UInt16) :
    Step (S.setLastSeqSent k) e (S'.setLastSeqSent k) := by
  constructor
  · cases e with
    | lsu clock hostRid ads => exact h.1
    | seq => exact True.intro
    | hello => exact True.intro
    | timeout => exact True.intro
  · rw [Event.run_setLastSeqSent, h.2]
    rfl

theorem sendLsu_subsys {sr : SrInstance} {S : PwospfSubsys} {env : Env}
    {x : PwospfSubsys × List Handoff} (h : sendLsu sr S env = .ok x) :
    x.1 = S.setLastSeqSent (S.lastSeqSent + 1) := by
  obtain ⟨this, -, h⟩ := bind_eq_ok.mp h
  obtain ⟨pack₁, -, h⟩ := bind_eq_ok.mp h
  obtain ⟨pack₂, -, h⟩ := bind_eq_ok.mp h
  obtain ⟨csum, -, h⟩ := bind_eq_ok.mp h
  obtain ⟨pack₃, -, h⟩ := bind_eq_ok.mp h
  obtain ⟨y, -, h⟩ := bind_eq_ok.mp h
  cases h
  rfl

/-- Between packets the subsystem is in a state that events reach. -/
theorem node_reach {S₀ : PwospfSubsys} {ok : Node → Input → Prop} {n : Node}
    (h : Reach NodeStep ok (.start S₀) n) :
    Reach Step (fun _ _ => True) S₀ (n.subsys.setLastSeqSent S₀.lastSeqSent) := by
  induction h with
  | start => exact .start
  | @next n n' i _ _ hstep ih =>
    cases i with
    | packet env ps =>
      obtain ⟨out, hrun, hn'⟩ := bind_eq_ok.mp hstep
      cases hn'
      cases handlePwospf_effect hrun with
      | dropped h =>
        rw [h]
        exact ih
      | hello msg hhello hcopies happlied =>
        have hs : Step n.subsys (.hello env.clock msg) out.subsys := ⟨True.intro, hhello⟩
        exact .next ih True.intro (hs.setLastSeqSent _)
      | lsu rid seq ads S₁ harrived hother hnew hmerge hsubsys happlied =>
        have hs₁ : Step n.subsys (.lsu env.clock rid ads) S₁ := ⟨hother, hmerge⟩
        have hs₂ : Step S₁ (.seq rid seq) out.subsys := ⟨True.intro, by rw [hsubsys]; rfl⟩
        exact .next (.next ih True.intro (hs₁.setLastSeqSent _)) True.intro (hs₂.setLastSeqSent _)
    | timeout clock =>
      obtain ⟨S', hrun, hn'⟩ := bind_eq_ok.mp hstep
      cases hn'
      have hs : Step n.subsys (.timeout clock) S' := ⟨True.intro, hrun⟩
      exact .next ih True.intro (hs.setLastSeqSent _)
    | send sr env =>
      obtain ⟨x, hrun, hn'⟩ := bind_eq_ok.mp hstep
      cases hn'
      show Reach _ _ _ (x.1.setLastSeqSent _)
      rw [sendLsu_subsys hrun]
      exact ih

theorem node_wf {S₀ : PwospfSubsys} {ok : Node → Input → Prop} {n : Node} (h₀ : S₀.Wf)
    (h : Reach NodeStep ok (.start S₀) n) : n.subsys.Wf := by
  obtain ⟨hWf, -⟩ := run_wf h₀ (node_reach h)
  exact ⟨hWf.top, hWf.prevListed, hWf.buffers⟩

end PWOSPF
