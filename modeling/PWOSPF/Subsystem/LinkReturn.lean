import PWOSPF.Subsystem.LinkEdits
import PWOSPF.Subsystem.Packets

/-!
# A link that comes back

Only `pwospf_init` makes the subnets of the interfaces, and the expiry of a neighbor or the LSU of
one deletes them. An accepted HELLO only labels, so the link is announced again exactly where the
subnet was still there to be labelled, or labelled already, and is not deleted by the same HELLO.
-/

namespace PWOSPF

open Framework Topo

/-- The subnet stands for the link at the interface, with a router at the other end. -/
def Announces (i : PwospfIflist) (s : Route) : Prop :=
  s.pfix = i.address &&& i.mask ∧ s.mask = i.mask ∧ s.rId ≠ 0

/-- This router holds such a subnet. -/
def LinkAnnounced (i : PwospfIflist) (T : Topo) : Prop := ∃ s ∈ T.subs T.thisRouter, Announces i s

/-- The HELLO passes the checks at the first interface with the name of the receiving one. -/
structure Accepted (S : PwospfSubsys) (msg : HelloMsg) (i : PwospfIflist) : Prop where
  length : helloLen ≤ msg.len
  receiving : S.interfaces.find? (fun i => i.name = msg.interface) = some i
  checked : helloMismatch i msg = false

/-- The subnet of the interface is still there, without a label, and the HELLO gives it one. -/
def LabelsLink (i : PwospfIflist) (msg : HelloMsg) (subs : List Route) : Prop :=
  msg.rid ≠ 0 ∧ msg.ipSrc &&& i.mask = i.address &&& i.mask ∧
    ∃ s ∈ subs.find? (fun s => s.pfix = i.address &&& i.mask), s.rId = 0 ∧ s.mask = i.mask

/-- Every deletion leaves a subnet that announces the link. -/
def LeavesOne (i : PwospfIflist) (thisRid : UInt32) (msg : HelloMsg) :
    List LinkEdit → List Route → Prop
  | [], _ => True
  | .drop id :: es, subs => (∃ s ∈ dropNamed thisRid id subs, Announces i s) ∧
      LeavesOne i thisRid msg es (dropNamed thisRid id subs)
  | .label :: es, subs => LeavesOne i thisRid msg es (labelFirst msg subs)

/-- When the HELLO comes to label a subnet, the one of the interface is labelled already or gets its
label now, and the deletions after that leave it. -/
def LinkReturns (i : PwospfIflist) (thisRid : UInt32) (msg : HelloMsg) (es : List LinkEdit)
    (subs : List Route) : Prop :=
  ∃ before after, es = before ++ .label :: after ∧ LinkEdit.label ∉ after ∧
    ((∃ s ∈ runEdits thisRid msg before subs, Announces i s) ∨
      LabelsLink i msg (runEdits thisRid msg before subs)) ∧
    LeavesOne i thisRid msg after (labelFirst msg (runEdits thisRid msg before subs))

instance (i : PwospfIflist) (s : Route) : Decidable (Announces i s) :=
  inferInstanceAs (Decidable (_ ∧ _))

instance (i : PwospfIflist) (T : Topo) : Decidable (LinkAnnounced i T) :=
  inferInstanceAs (Decidable (∃ _ ∈ _, _))

instance (S : PwospfSubsys) (msg : HelloMsg) (i : PwospfIflist) : Decidable (Accepted S msg i) :=
  decidable_of_iff (helloLen ≤ msg.len ∧
      S.interfaces.find? (fun i => i.name = msg.interface) = some i ∧ helloMismatch i msg = false)
    ⟨fun h => ⟨h.1, h.2.1, h.2.2⟩, fun h => ⟨h.length, h.receiving, h.checked⟩⟩

/-! ## What an accepted HELLO does at the link -/

section Link

variable {i : PwospfIflist} {thisRid : UInt32} {msg : HelloMsg} {subs : List Route}

theorem Accepted.mask {S : PwospfSubsys} (h : Accepted S msg i) : ntohl msg.nmask = i.mask := by
  have hchecked := h.checked
  simp only [helloMismatch, ne_eq, Bool.or_eq_false_iff, decide_eq_false_iff_not, not_not] at hchecked
  exact hchecked.1.symm

/-- An accepted HELLO labels, after the deletions at the interfaces in front. -/
theorem Accepted.labels {S : PwospfSubsys} (h : Accepted S msg i) (clock : Nat → Time) :
    LinkEdit.label ∈ S.edits clock msg := by
  have hloop : ∀ (interfaces : List PwospfIflist) (clock : Nat → Time),
      interfaces.find? (fun i => i.name = msg.interface) = some i →
      LinkEdit.label ∈ helloEdits S.initTime msg clock interfaces := by
    intro interfaces
    induction interfaces with
    | nil =>
      intro _ hfind
      cases hfind
    | cons iface rest ih =>
      intro clock hfind
      rw [helloEdits]
      by_cases hname : iface.name = msg.interface
      · rw [List.find?_cons_of_pos (by simpa using hname), Option.some.injEq] at hfind
        subst hfind
        apply List.mem_append_left
        rw [ifaceEdits, if_pos ⟨hname, h.checked⟩]
        exact List.mem_append_right _ List.mem_cons_self
      · rw [List.find?_cons_of_neg (by simpa using hname)] at hfind
        rw [if_neg fun hc => hname hc.1]
        exact List.mem_append_right _ (ih _ hfind)
  rw [PwospfSubsys.edits, if_neg (Nat.not_lt.mpr h.length)]
  exact hloop _ clock h.receiving

/-- The labelling makes the link announced only by labelling its subnet. -/
theorem announced_labelFirst_iff (hmask : ntohl msg.nmask = i.mask) :
    (∃ s ∈ labelFirst msg subs, Announces i s) ↔
      (∃ s ∈ subs, Announces i s) ∨ LabelsLink i msg subs := by
  have hpfix : msg.ipSrc &&& htonl msg.nmask = msg.ipSrc &&& i.mask := by rw [← hmask, ntohl]
  rw [labelFirst, hpfix, hmask]
  cases hold : subs.find? fun s => s.pfix = msg.ipSrc &&& i.mask with
  | none =>
    rw [or_iff_left]
    rintro ⟨-, hsrc, s, hs, -⟩
    rw [hsrc] at hold
    rw [hold] at hs
    cases hs
  | some old =>
    have holdPfix : old.pfix = msg.ipSrc &&& i.mask := by simpa using List.find?_some hold
    simp only
    by_cases hc : old.rId = 0 ∧ old.mask = i.mask
    · rw [if_pos hc]
      obtain ⟨pre, post, hsplit, hmod⟩ :=
        modify_findIdx_split hold fun s => { s with rId := msg.rid }
      have hlabels : LabelsLink i msg subs ↔ Announces i { old with rId := msg.rid } := by
        rw [LabelsLink, Announces, holdPfix]
        constructor
        · rintro ⟨hrid, hsrc, -⟩
          exact ⟨hsrc, hc.2, hrid⟩
        · rintro ⟨hsrc, -, hrid⟩
          exact ⟨hrid, hsrc, old, by rw [← hsrc]; exact hold, hc⟩
      have hunlabelled : ¬ Announces i old := fun h => h.2.2 hc.1
      rw [hlabels, hmod, hsplit]
      simp only [List.mem_append, List.mem_cons, or_and_right, exists_or, exists_eq_left,
        hunlabelled, false_or]
      rw [← or_assoc, or_right_comm]
    · rw [if_neg hc, or_iff_left]
      rintro ⟨-, hsrc, s, hs, hs'⟩
      rw [hsrc] at hold
      rw [hold, Option.mem_some_iff] at hs
      subst hs
      exact hc hs'

theorem mem_of_mem_dropNamed {id : UInt32} {s : Route} (h : s ∈ dropNamed thisRid id subs) :
    s ∈ subs := by
  rw [dropNamed] at h
  split at h
  · exact mem_of_mem_swapEraseP (mem_of_mem_swapEraseP h)
  · exact mem_of_mem_swapEraseP h

/-- Without a further label, the link is announced in the end if it was and every deletion left
it. -/
theorem announced_runEdits_iff {es : List LinkEdit} (hes : LinkEdit.label ∉ es) :
    (∃ s ∈ runEdits thisRid msg es subs, Announces i s) ↔
      (∃ s ∈ subs, Announces i s) ∧ LeavesOne i thisRid msg es subs := by
  induction es generalizing subs with
  | nil => simp [LeavesOne]
  | cons e es ih =>
    have hrest := List.not_mem_of_not_mem_cons hes
    cases e with
    | drop id =>
      have hrun : runEdits thisRid msg (.drop id :: es) subs =
          runEdits thisRid msg es (dropNamed thisRid id subs) := rfl
      rw [hrun, ih hrest, LeavesOne]
      constructor
      · intro h
        obtain ⟨s, hs, hann⟩ := h.1
        exact ⟨⟨s, mem_of_mem_dropNamed hs, hann⟩, h⟩
      · exact fun h => h.2
    | label => exact absurd List.mem_cons_self hes

theorem exists_last {α : Type} {a : α} {l : List α} (h : a ∈ l) :
    ∃ before after, l = before ++ a :: after ∧ a ∉ after := by
  obtain ⟨pre, post, hsplit, hpre⟩ := List.eq_append_cons_of_mem (List.mem_reverse.mpr h)
  refine ⟨post.reverse, pre.reverse, ?_, by rwa [List.mem_reverse]⟩
  rw [← List.reverse_reverse l, hsplit]
  simp

theorem announced_iff_linkReturns (hmask : ntohl msg.nmask = i.mask) {es : List LinkEdit}
    (hlabel : LinkEdit.label ∈ es) :
    (∃ s ∈ runEdits thisRid msg es subs, Announces i s) ↔ LinkReturns i thisRid msg es subs := by
  have hsplit : ∀ before after, LinkEdit.label ∉ after →
      ((∃ s ∈ runEdits thisRid msg (before ++ .label :: after) subs, Announces i s) ↔
        ((∃ s ∈ runEdits thisRid msg before subs, Announces i s) ∨
            LabelsLink i msg (runEdits thisRid msg before subs)) ∧
          LeavesOne i thisRid msg after (labelFirst msg (runEdits thisRid msg before subs))) := by
    intro before after hafter
    rw [runEdits_append, ← announced_labelFirst_iff hmask]
    exact announced_runEdits_iff hafter
  constructor
  · intro hann
    obtain ⟨before, after, rfl, hafter⟩ := exists_last hlabel
    exact ⟨before, after, rfl, hafter, (hsplit before after hafter).mp hann⟩
  · rintro ⟨before, after, rfl, hafter, h⟩
    exact (hsplit before after hafter).mpr h

end Link

/-! ## The next LSU -/

/-- `generate_adv` lists every subnet, so that the next LSU announces the link. -/
theorem LinkAnnounced.advertised {i : PwospfIflist} {T : Topo} (h : LinkAnnounced i T)
    {this : Router} (hthis : T.deref T.thisRouter = .ok this) (sr : SrInstance) :
    ∃ ad ∈ generateAdv this sr,
      ad.subnet = i.address &&& i.mask ∧ ad.mask = i.mask ∧ ad.rid ≠ 0 := by
  obtain ⟨s, hs, hpfix, hmask, hrid⟩ := h
  rw [subs_of_find (deref_eq_ok_iff.mp hthis)] at hs
  exact ⟨⟨s.pfix, s.mask, s.rId⟩, List.mem_append_left _ (List.mem_map_of_mem hs), hpfix, hmask, hrid⟩

/-- In every reachable state an accepted HELLO leaves the link of the receiving interface announced
exactly when its subnet is still held, or can be labelled, and is not deleted after that. -/
theorem linkAnnounced_iff {sr : SrInstance} {start : Nat → Time} {areaId : UInt32}
    {S₀ S : PwospfSubsys} {thisRid : UInt32} {msg : HelloMsg} {i : PwospfIflist}
    (h₀ : pwospfInit sr start areaId = .ok S₀) (hS : Reach Step (fun _ _ => True) S₀ S)
    (hthis : S.top.ridOf S.top.thisRouter = some thisRid) (hacc : Accepted S msg i)
    (clock : Nat → Time) :
    ∃ S', handleHello S clock msg = .ok S' ∧ (LinkAnnounced i S'.top ↔
      LinkReturns i thisRid msg (S.edits clock msg) (S.top.subs S.top.thisRouter)) := by
  obtain ⟨hWf, -⟩ := run_wf (pwospfInit_wf h₀) hS
  obtain ⟨S', hrun, hedited⟩ := handleHello_edited hWf clock msg hthis
  refine ⟨S', hrun, ?_⟩
  rw [LinkAnnounced, hedited.core.thisRouter, hedited.subs]
  exact announced_iff_linkReturns hacc.mask (hacc.labels clock)

/-- Router 7 is heard at 1. -/
theorem heard_reach {P : PwospfSubsys → Prop} [DecidablePred P]
    (h : (runAll Event.run (fun S e => decide (e.Admitted S)) [.hello (fun _ => 1) helloOf7]
      demoStart).map (fun S => decide (P S)) = some true) :
    ∃ S, Reach Step (fun _ _ => True) demoStart S ∧ P S := by
  obtain ⟨S, hrun, hP⟩ := Option.map_eq_some_iff.mp h
  exact ⟨S, reach_of_runAll (fun S e h => ⟨by simpa using h, True.intro⟩) hrun, by simpa using hP⟩

/-- It was silent until 50, but links are not deleted that early. -/
theorem linkAnnounced_iff_early :
    ∃ S S' i, Reach Step (fun _ _ => True) demoStart S ∧ Accepted S helloOf7 i ∧
      handleHello S (fun _ => 50) helloOf7 = .ok S' ∧ LinkAnnounced i S'.top := by
  obtain ⟨S, hS, hthis, i, -, hacc, hann, hedits⟩ := heard_reach
    (P := fun S => S.top.ridOf S.top.thisRouter = some 0x0100000a ∧ ∃ i ∈ S.interfaces,
      Accepted S helloOf7 i ∧ LinkAnnounced i S.top ∧
        S.edits (fun _ => 50) helloOf7 = [.label]) (by decide)
  obtain ⟨S', hrun, hiff⟩ := linkAnnounced_iff demoStart_init hS hthis hacc (fun _ => 50)
  refine ⟨S, S', i, hS, hacc, hrun, hiff.mpr ?_⟩
  exact ⟨[], [], hedits, List.not_mem_nil, Or.inl hann, True.intro⟩

/-- It was silent until 100: its HELLO deletes the subnet and finds none to label. -/
theorem link_not_announced :
    ∃ S S' i, Reach Step (fun _ _ => True) demoStart S ∧ Accepted S helloOf7 i ∧
      handleHello S (fun _ => 100) helloOf7 = .ok S' ∧ ¬ LinkAnnounced i S'.top := by
  obtain ⟨S, hS, i, -, hacc, hnot⟩ := heard_reach
    (P := fun S => ∃ i ∈ S.interfaces, Accepted S helloOf7 i ∧
      (handleHello S (fun _ => 100) helloOf7).map (fun S' => decide (LinkAnnounced i S'.top)) =
        .ok false) (by decide)
  obtain ⟨S', hrun, hann⟩ := map_eq_ok.mp hnot
  exact ⟨S, S', i, hS, hacc, hrun, of_decide_eq_false hann⟩

end PWOSPF
