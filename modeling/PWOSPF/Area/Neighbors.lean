import PWOSPF.Area.Network
import PWOSPF.Subsystem.InStep
import PWOSPF.Subsystem.NeighborTable

/-!
# Who the neighbors are

A record is made from a HELLO and later only refreshed or dropped. In an area it therefore names a
router of the area, together with the address of one of that router's interfaces, whatever happens to
the packets.
-/

namespace PWOSPF

open Framework Topo PacketField

/-- What every neighbor record says. -/
def RecordsSay (P : UInt32 → InAddr → Prop) (interfaces : List PwospfIflist) : Prop :=
  ∀ i ∈ interfaces, ∀ n ∈ i.neighbors.elems, P n.id n.ipAddress

/-! ## A HELLO -/

section Hello

variable {P : UInt32 → InAddr → Prop} {clock : Nat → Time} {msg : HelloMsg} {found : Bool}
  {initTime : Time} {T T' : Topo} {interfaces interfaces' : List PwospfIflist}

/-- A record is refreshed as it is, or it is that of the sender. -/
theorem recordNeighbor_say {neighbors : DynArray NeighborList}
    (h : ∀ n ∈ neighbors.elems, P n.id n.ipAddress) (hmsg : P msg.rid msg.ipSrc) :
    ∀ n ∈ (recordNeighbor clock msg found neighbors).1.elems, P n.id n.ipAddress := by
  intro n hn
  have hkey := List.mem_map_of_mem (f := NeighborList.key) hn
  rw [(recordNeighbor_spec clock msg found neighbors).2] at hkey
  rcases List.mem_append.mp hkey with hold | hnew
  · obtain ⟨n', hn', heq⟩ := List.mem_map.mp hold
    obtain ⟨hid, hip⟩ := Prod.mk.inj heq
    exact hid ▸ hip ▸ h n' hn'
  · split at hnew
    · cases hnew
    · obtain ⟨hid, hip⟩ := Prod.mk.inj (List.mem_singleton.mp hnew)
      exact hid.symm ▸ hip.symm ▸ hmsg

/-- `hmsg` is needed only where the HELLO is accepted. -/
theorem helloLoop_say (h : RecordsSay P interfaces)
    (hmsg : ∀ i ∈ interfaces, helloMismatch i msg = false → P msg.rid msg.ipSrc)
    (hrun : helloLoop initTime msg clock found interfaces T = .ok (interfaces', T')) :
    RecordsSay P interfaces' := by
  induction interfaces generalizing clock found interfaces' T with
  | nil =>
    cases hrun
    exact h
  | cons i rest ih =>
    obtain ⟨hi, hrest⟩ := List.forall_mem_cons.mp h
    obtain ⟨i', T₁, found', goOn, hiface, hon, hoff⟩ := helloLoop_cons hrun
    obtain ⟨left, T₂, hexpire, hcases⟩ := helloIface_ok hiface
    have hleft : ∀ n ∈ left.elems, P n.id n.ipAddress := by
      intro n hn
      rcases expireNeighbors_left hexpire (Nat.zero_add _) hn with hfront | ⟨hold, -⟩
      · cases hfront
      · exact hi n hold
    have hi' : ∀ n ∈ i'.neighbors.elems, P n.id n.ipAddress := by
      rcases hcases with ⟨-, -, -, rfl, -⟩ | ⟨-, -, -, rfl, -⟩ | ⟨-, hmatch, -, rfl, -⟩
      · exact hleft
      · exact hleft
      · exact recordNeighbor_say hleft (hmsg i List.mem_cons_self hmatch)
    cases goOn with
    | false =>
      obtain ⟨rfl, -⟩ := hoff rfl
      exact List.forall_mem_cons.mpr ⟨hi', hrest⟩
    | true =>
      obtain ⟨rest', rfl, hloop⟩ := hon rfl
      exact List.forall_mem_cons.mpr
        ⟨hi', ih hrest (fun j hj => hmsg j (List.mem_cons_of_mem _ hj)) hloop⟩

/-- What is read of a HELLO is what its sender wrote, or no interface accepts it. -/
theorem readHello_sender {S : PwospfSubsys} {ps : PacketState} (h : readHello S ps = .ok msg)
    {id src : UInt32} (hid : ps.packet.get ospfRid = .ok id.toNat)
    (hsrc : ps.packet.get ipSrc = .ok src.toNat) :
    msg.helloint = 0 ∨ msg.rid = id ∧ msg.ipSrc = src := by
  rw [readHello] at h
  simp only at h
  split at h
  · cases h
    exact Or.inl rfl
  · split at h
    · cases h
      exact Or.inl rfl
    · obtain ⟨mask, -, h⟩ := bind_eq_ok.mp h
      split at h
      · cases h
        exact Or.inl rfl
      · obtain ⟨helloint, -, h⟩ := bind_eq_ok.mp h
        rw [hid, ok_bind, hsrc, ok_bind] at h
        cases h
        exact Or.inr ⟨UInt32.ofNat_toNat, UInt32.ofNat_toNat⟩

end Hello

/-! ## The area -/

section Area

variable {ι : Type} {sr : ι → SrInstance} {a a' : Area ι} {k : AreaInput ι} {area : UInt32}
  {rid : ι → UInt32} {S₀ : ι → PwospfSubsys} {P : UInt32 → InAddr → Prop}

/-- The interfaces send HELLOs. -/
def SayHello (interfaces : List PwospfIflist) : Prop := ∀ i ∈ interfaces, i.helloint ≠ 0

section Init

variable {r : SrInstance} {clock : Nat → Time} {S : PwospfSubsys}

theorem pwospfInit_interface (h : pwospfInit r clock area = .ok S) {f : PwospfIflist}
    (hf : f ∈ S.interfaces) : ∃ g ∈ r.ifList,
      f = ⟨g.ip, ntohl ifMask, g.name, ospfDefaultHelloint, g.addr, .alloc defNbrBuf⟩ := by
  obtain ⟨r, -, -, -, -, -, -, hif, -⟩ := pwospfInit_spec h
  rw [hif] at hf
  obtain ⟨g, hg, rfl⟩ := List.mem_map.mp hf
  exact ⟨g, hg, rfl⟩

theorem pwospfInit_sayHello (h : pwospfInit r clock area = .ok S) : SayHello S.interfaces := by
  intro f hf
  obtain ⟨g, -, rfl⟩ := pwospfInit_interface h hf
  show ospfDefaultHelloint ≠ 0
  decide

theorem pwospfInit_noRecords (h : pwospfInit r clock area = .ok S) : RecordsSay P S.interfaces := by
  intro f hf n hn
  obtain ⟨g, -, rfl⟩ := pwospfInit_interface h hf
  cases hn

end Init

theorem SayHello.of_static {interfaces interfaces' : List PwospfIflist} (h : SayHello interfaces)
    (hstatic : interfaces'.map PwospfIflist.static = interfaces.map PwospfIflist.static) :
    SayHello interfaces' := by
  intro i hi
  obtain ⟨j, hj, heq⟩ := exists_of_static (p := fun f => f.helloint = i.helloint) (fun _ => Iff.rfl)
    hstatic.symm ⟨i, hi, rfl⟩
  exact heq ▸ h j hj

/-- The records stay true when a router takes a copy from the links. -/
theorem RecordsSay.taken {S : PwospfSubsys} (h : RecordsSay P S.interfaces) (hS : InArea area S)
    (hello : SayHello S.interfaces)
    (hreal : ∀ o, ∀ f ∈ (S₀ o).interfaces, P (rid o) f.address) {issued : List (ι × Lsu)}
    {c : Handoff} (hc : Genuine area rid S₀ issued c) {ps : PacketState} (hdel : c.Delivers ps.packet)
    {env : Env} {out : Outcome} (hrun : handlePwospf S env ps = .ok out) :
    RecordsSay P out.subsys.interfaces := by
  cases hc with
  | lsu o l ttl pair j _ _ hcarries =>
    have hcopy := hcarries.delivered hdel
    cases handlePwospf_taken hcopy.carries hS hcopy.ipSrc hrun with
    | dropped _ hout => exact hout ▸ h
    | merged S' _ _ hmerge hsubsys _ _ =>
      rw [hsubsys, setSequence_interfaces, addToTop_interfaces hmerge]
      exact h
  | hello o i hnow hsrc hsays =>
    obtain ⟨f, hf, haddr⟩ := hsrc
    have hframe := hdel.eq_frame hnow
    cases handlePwospf_cases hrun with
    | refused _ hout => exact hout ▸ h
    | unknown _ _ _ _ _ _ hout => exact hout ▸ h
    | lsu g hcheck htype _ =>
      have hg := Frame.get_set_apart (checkPwospf_accepts hcheck).1 (b := ospfType) (by decide)
      rw [hg, hframe, hsays.type] at htype
      cases htype
    | hello g msg S' hcheck _ hmsg hhello hout =>
      have hset := (checkPwospf_accepts hcheck).1
      have hread := readHello_sender hmsg
        ((Frame.get_set_apart hset (b := ospfRid) (by decide)).trans (hframe ▸ hsays.rid))
        ((Frame.get_set_apart hset (b := ipSrc) (by decide)).trans (hframe ▸ hsays.ipSrc))
      rw [hout]
      by_cases hlen : msg.len < helloLen
      · rw [handleHello, if_pos hlen] at hhello
        cases hhello
        exact h
      · obtain ⟨x, hloop, rfl⟩ := (handleHello_ok_iff (Nat.not_lt.mp hlen)).mp hhello
        refine helloLoop_say h ?_ hloop
        intro i hi hmatch
        rcases hread with hzero | ⟨hid, hip⟩
        · -- no interface has the interval 0
          simp only [helloMismatch, Bool.or_eq_false_iff, decide_eq_false_iff_not, not_not] at hmatch
          exact absurd (hmatch.2.trans (by rw [hzero]; rfl)) (hello i hi)
        · rw [hid, hip, ← haddr]
          exact hreal o f hf

variable [DecidableEq ι]

/-- One step keeps the records of all routers true. -/
theorem AreaStep.recordsSay (hstep : AreaStep sr a k a')
    (hboot : ∀ i, Booted area (rid i) (S₀ i) (a.subsys i)) (hello : ∀ i, SayHello (S₀ i).interfaces)
    (hreal : ∀ o, ∀ f ∈ (S₀ o).interfaces, P (rid o) f.address)
    (hwire : ∀ c ∈ a.wire, Genuine area rid S₀ a.issued c)
    (h : ∀ i, RecordsSay P (a.subsys i).interfaces) (i : ι) :
    RecordsSay P (a'.subsys i).interfaces := by
  cases hstep.effect with
  | idle _ hnodes =>
    rw [Area.subsys, hnodes]
    exact h i
  | act j x n hlocal hn hnodes =>
    rw [Area.subsys, hnodes]
    by_cases hij : i = j
    · subst hij
      rw [Function.update_self]
      cases k with
      | receive j env c ps =>
        cases hlocal
        obtain ⟨out, hrun, hout⟩ := bind_eq_ok.mp hn
        cases hout
        obtain ⟨hc, hdel⟩ := hstep.1
        exact (h i).taken (hboot i).toInArea ((hello i).of_static (hboot i).interfaces) hreal
          (hwire c hc) hdel hrun
      | timeout j clock =>
        cases hlocal
        obtain ⟨S', hrun, hS'⟩ := bind_eq_ok.mp hn
        cases hS'
        show RecordsSay P S'.interfaces
        rw [checkTopInvalid_interfaces hrun]
        exact h i
      | sendLsu j env =>
        cases hlocal
        obtain ⟨y, hrun, hy⟩ := bind_eq_ok.mp hn
        cases hy
        show RecordsSay P y.1.interfaces
        rw [sendLsu_subsys hrun]
        exact h i
      | sendHello j env => cases hlocal
    · rw [Function.update_of_ne hij]
      exact h i

theorem area_recordsSay (hboot : Boots area rid S₀) (hello : ∀ i, SayHello (S₀ i).interfaces)
    (hreal : ∀ o, ∀ f ∈ (S₀ o).interfaces, P (rid o) f.address)
    (hstart : ∀ i, RecordsSay P (S₀ i).interfaces) {ok : Area ι → AreaInput ι → Prop}
    (h : Reach (AreaStep sr) ok (.start S₀) a) (i : ι) : RecordsSay P (a.subsys i).interfaces := by
  induction h generalizing i with
  | start => exact hstart i
  | next hreach _ hstep ih =>
    exact hstep.recordsSay (fun i => hboot.booted hreach i) hello hreal (wire_genuine hboot hreach) ih i

/-- Every neighbor is real. In every run of an area, whatever is lost, repeated, delayed or delivered
to the wrong router, a neighbor record names a router of the area and an address of that router. -/
theorem area_neighbors_real {clock : ι → Nat → Time}
    (h₀ : ∀ i, pwospfInit (sr i) (clock i) area = .ok (S₀ i))
    (h : Reach (AreaStep sr) (fun _ _ => True) (.start S₀) a) (i : ι) :
    ∀ f ∈ (a.subsys i).interfaces, ∀ n ∈ f.neighbors.elems,
      ∃ o, (a.subsys o).top.ridOf (a.subsys o).top.thisRouter = some n.id ∧
        ∃ g ∈ (sr o).ifList, g.ip = n.ipAddress := by
  obtain ⟨rid, hboot⟩ := Boots.of_init h₀
  have hsay := area_recordsSay
    (P := fun id ip => ∃ o, rid o = id ∧ ∃ g ∈ (sr o).ifList, g.ip = ip) hboot
    (fun j => pwospfInit_sayHello (h₀ j))
    (by
      intro o f hf
      obtain ⟨g, hg, rfl⟩ := pwospfInit_interface (h₀ o) hf
      exact ⟨o, rfl, g, hg, rfl⟩)
    (fun j => pwospfInit_noRecords (h₀ j)) h i
  intro f hf n hn
  obtain ⟨o, hrid, hg⟩ := hsay f hf n hn
  exact ⟨o, hrid ▸ (hboot.booted h o).rid, hg⟩

end Area

theorem area_neighbors_real_demo :
    ∃ a, Reach (AreaStep demoRouters) (fun _ _ => True) (.start demoSubsys) a ∧
      ∃ f ∈ (a.subsys true).interfaces, ∃ n ∈ f.neighbors.elems,
        ∃ o, (a.subsys o).top.ridOf (a.subsys o).top.thisRouter = some n.id := by
  have hrecords : (demoRun demoRouters (fun _ _ => True) [.hello false, .deliver true 0]
      (.start demoSubsys)).map (fun a =>
        (a.subsys true).interfaces.map fun f => f.neighbors.elems.length) = some [1] := by
    decide +kernel
  obtain ⟨a, ha, hlen⟩ := Option.map_eq_some_iff.mp hrecords
  have hreach := demoRun_reach .start ha
  obtain ⟨f, hf, hone⟩ := List.map_eq_singleton_iff.mp hlen
  obtain ⟨n, hn⟩ := List.exists_mem_of_length_pos (Nat.lt_of_lt_of_eq Nat.zero_lt_one hone.symm)
  have hmem : f ∈ (a.subsys true).interfaces := by
    rw [hf]
    exact List.mem_singleton_self f
  obtain ⟨o, ho, -⟩ := area_neighbors_real demoSubsys_init hreach true f hmem n hn
  exact ⟨a, hreach, f, hmem, n, hn, o, ho⟩

end PWOSPF
