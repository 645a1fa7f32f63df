import PWOSPF.Arp.OneCycle

/-!
# What becomes of queued packets

A packet given to `get_mac_address` stays in a buffer, is sent with the MAC that was found, or is
given up when all requests have been sent, as long as nobody queues a packet for a next hop after its
thread has sent the buffers and before it has reset them.
-/

namespace PWOSPF

open Framework PacketField

/-- How often the packet of a call is in the buffers. -/
def packetsHeld (pending : List Arpq) (call : Nat) : Nat :=
  (pending.map fun entry => entry.pacBuf.nodes.countP fun p => p.call = call).sum

def lsusHeld (pending : List Arpq) (call : Nat) : Nat :=
  (pending.map fun entry => entry.lsuBuf.nodes.countP fun p => p.call = call).sum

def ArpLog.transmits (call : Nat) : ArpLog → Bool
  | .transmitted n _ => n = call
  | _ => false

def ArpLog.answers (call : Nat) : ArpLog → Bool
  | .unreachable n _ => n = call
  | _ => false

def ArpLog.drops (call : Nat) : ArpLog → Bool
  | .dropped n _ => n = call
  | _ => false

/-- The entry of the log is about this call and justified: the packet went to the MAC that was found
for its next hop, or all requests had been sent. -/
def ArpLog.Right (sr : SrInstance) (calls : List Call) (log : List ArpLog) : ArpLog → Prop
  | .transmitted n t => ∃ c mac, calls[n]? = some c ∧ .resolved c.nextHop mac ∈ log ∧
      c.packet.store etherDhost.offset mac.toList = .ok t.frame
  | .unreachable n t => ∃ c hdr bytes, calls[n]? = some c ∧ c.kind = .data hdr ∧
      sendIcmp sr bytes c.packet hdr = .ok t
  | .dropped n requests => ∃ c, calls[n]? = some c ∧ c.kind = .lsu ∧ (requests : Int) = maxArpRequests
  | .requested _ => True
  | .resolved _ _ => True

/-- The nodes of the entry's buffers are packets of calls for its next hop. -/
structure Arpq.Holds (calls : List Call) (entry : Arpq) : Prop where
  packets : ∀ p ∈ entry.pacBuf.nodes, ∃ c, calls[p.call]? = some c ∧ c.nextHop = entry.ip ∧
    c.packet = p.packet ∧ c.kind = .data p.oldEth
  lsus : ∀ p ∈ entry.lsuBuf.nodes, ∃ c, calls[p.call]? = some c ∧ c.nextHop = entry.ip ∧
    c.packet = p.lsuPacket ∧ c.kind = .lsu

/-- How often the packet of the call is in the entry's buffers. -/
def Arpq.held (call : Nat) (entry : Arpq) : Nat :=
  (entry.pacBuf.nodes.countP fun p => p.call = call) +
    entry.lsuBuf.nodes.countP fun p => p.call = call

/-- The log says what became of the packet of the call. -/
def ArpLog.settles (call : Nat) (f : ArpLog) : Bool := f.transmits call || f.answers call || f.drops call

@[simp] theorem settles_transmitted (call n : Nat) (t : Transmission) :
    (ArpLog.transmitted n t).settles call = decide (n = call) := by
  simp [ArpLog.settles, ArpLog.transmits, ArpLog.answers, ArpLog.drops]

@[simp] theorem settles_unreachable (call n : Nat) (t : Transmission) :
    (ArpLog.unreachable n t).settles call = decide (n = call) := by
  simp [ArpLog.settles, ArpLog.transmits, ArpLog.answers, ArpLog.drops]

@[simp] theorem settles_dropped (call n requests : Nat) :
    (ArpLog.dropped n requests).settles call = decide (n = call) := by
  simp [ArpLog.settles, ArpLog.transmits, ArpLog.answers, ArpLog.drops]

variable {sr : SrInstance} {s s' : ArpSubsys} {t t' : ArpThread} {entry entry' : Arpq}
  {bytes : Nat → UInt8} {found : Option Mac} {log : List ArpLog} {calls : List Call} {c : Call}

/-- Calls keep their numbers. -/
theorem calls_append {n : Nat} (h : calls[n]? = some c) (later : List Call) :
    (calls ++ later)[n]? = some c := by
  rw [List.getElem?_append_left (List.getElem?_eq_some_iff.mp h).1]
  exact h

theorem ArpLog.Right.mono {f : ArpLog} (h : f.Right sr calls log) (c : List Call)
    (log' : List ArpLog) : f.Right sr (calls ++ c) (log ++ log') := by
  cases f with
  | transmitted n t =>
    obtain ⟨x, mac, hn, hfound, hsent⟩ := h
    exact ⟨x, mac, calls_append hn c, List.mem_append_left _ hfound, hsent⟩
  | unreachable n t =>
    obtain ⟨x, hdr, bytes, hn, hkind, hsent⟩ := h
    exact ⟨x, hdr, bytes, calls_append hn c, hkind, hsent⟩
  | dropped n requests =>
    obtain ⟨x, hn, hkind, hall⟩ := h
    exact ⟨x, calls_append hn c, hkind, hall⟩
  | requested t => trivial
  | resolved ip mac => trivial

theorem Arpq.Holds.mono (h : entry.Holds calls) (c : List Call) : entry.Holds (calls ++ c) := by
  constructor
  · intro p hp
    obtain ⟨x, hn, hx⟩ := h.packets p hp
    exact ⟨x, calls_append hn c, hx⟩
  · intro p hp
    obtain ⟨x, hn, hx⟩ := h.lsus p hp
    exact ⟨x, calls_append hn c, hx⟩

/-- Nothing waits in empty buffers. -/
theorem Arpq.empty_holds (hpac : entry.pacBuf.nodes = []) (hlsu : entry.lsuBuf.nodes = [])
    (calls : List Call) : entry.Holds calls ∧ ∀ call, entry.held call = 0 := by
  refine ⟨⟨?_, ?_⟩, ?_⟩
  · rw [hpac]
    exact fun _ hp => absurd hp List.not_mem_nil
  · rw [hlsu]
    exact fun _ hp => absurd hp List.not_mem_nil
  · intro call
    rw [Arpq.held, hpac, hlsu]
    rfl

/-! ## Queueing -/

/-- The packet of a new call is in the buffers once. -/
theorem Arpq.add_holds (h : entry.Holds calls) (hip : entry.ip = c.nextHop)
    (hadd : entry.add calls.length c = .ok entry') :
    entry'.Holds (calls ++ [c]) ∧
      ∀ call, entry'.held call = entry.held call + if calls.length = call then 1 else 0 := by
  have hnew : (calls ++ [c])[calls.length]? = some c := List.getElem?_concat_length
  have hmono := h.mono [c]
  rw [Arpq.add] at hadd
  cases hkind : c.kind with
  | lsu =>
    rw [hkind] at hadd
    cases hadd
    refine ⟨⟨hmono.packets, ?_⟩, ?_⟩
    · intro p hp
      cases List.mem_cons.mp hp with
      | inl hp =>
        subst hp
        exact ⟨c, hnew, hip.symm, rfl, hkind⟩
      | inr hp => exact hmono.lsus p hp
    · intro call
      simp only [Arpq.held, addToLsuBuff, List.countP_cons, decide_eq_true_eq, Nat.add_assoc]
  | data hdr =>
    rw [hkind] at hadd
    obtain ⟨buf, hbuf, hadd⟩ := bind_eq_ok.mp hadd
    cases hadd
    have hnodes := addToPackBuff_nodes hbuf
    refine ⟨⟨?_, hmono.lsus⟩, ?_⟩
    · intro p hp
      rw [hnodes] at hp
      cases List.mem_append.mp hp with
      | inl hp => exact hmono.packets p hp
      | inr hp =>
        cases List.mem_singleton.mp hp
        exact ⟨c, hnew, hip.symm, rfl, hkind⟩
    · intro call
      simp only [Arpq.held, hnodes, List.countP_append, List.countP_singleton, decide_eq_true_eq]
      omega

/-! ## Emptying the buffers -/

theorem sendAllPacks_spec {buff : Buf PacketBuffer} {mac : Mac} {iface : IfName}
    {sent : List (Nat × Transmission)} (h : sendAllPacks buff mac iface = .ok sent) :
    List.Forall₂ (fun p x => x.1 = p.call ∧
      p.packet.store etherDhost.offset mac.toList = .ok x.2.frame) buff.nodes sent := by
  obtain ⟨nodes, hwalk, h⟩ := bind_eq_ok.mp h
  rw [Buf.walk_eq hwalk] at h
  apply (mapM_eq_ok h).imp
  intro p x hx
  obtain ⟨frame, hstore, hx⟩ := bind_eq_ok.mp hx
  cases hx
  exact ⟨rfl, hstore⟩

theorem sendAllLsus_spec {buff : Buf LsuBufEnt} {mac : Mac} {iface : IfName}
    {sent : List (Nat × Transmission)} (h : sendAllLsus buff mac iface = .ok sent) :
    List.Forall₂ (fun p x => x.1 = p.call ∧
      p.lsuPacket.store etherDhost.offset mac.toList = .ok x.2.frame) buff.nodes sent := by
  obtain ⟨nodes, hwalk, h⟩ := bind_eq_ok.mp h
  rw [Buf.walk_eq hwalk] at h
  apply (mapM_eq_ok h).imp
  intro p x hx
  obtain ⟨frame, hstore, hx⟩ := bind_eq_ok.mp hx
  cases hx
  exact ⟨rfl, hstore⟩

theorem sendAllIcmps_spec {buff : Buf PacketBuffer} {sent : List (Nat × Transmission)}
    (h : sendAllIcmps sr bytes buff = .ok sent) :
    List.Forall₂ (fun p x => x.1 = p.call ∧ sendIcmp sr bytes p.packet p.oldEth = .ok x.2)
      buff.nodes sent := by
  obtain ⟨nodes, hwalk, h⟩ := bind_eq_ok.mp h
  rw [Buf.walk_eq hwalk] at h
  apply (mapM_eq_ok h).imp
  intro p x hx
  obtain ⟨icmp, hicmp, hx⟩ := bind_eq_ok.mp hx
  cases hx
  exact ⟨rfl, hicmp⟩

/-- The flush settles what was in the buffers. -/
theorem flush_settles {mac : Mac} {iface : IfName} {packs lsus : List (Nat × Transmission)}
    (hpacks : sendAllPacks entry.pacBuf mac iface = .ok packs)
    (hlsus : sendAllLsus entry.lsuBuf mac iface = .ok lsus) (call : Nat) :
    ((packs ++ lsus).map fun x => ArpLog.transmitted x.1 x.2).countP (ArpLog.settles call) =
      entry.held call := by
  have hsettles : (ArpLog.settles call ∘ fun x : Nat × Transmission => ArpLog.transmitted x.1 x.2) =
      fun x => decide (x.1 = call) := by
    funext x
    simp
  rw [List.countP_map, hsettles, List.countP_append, Arpq.held]
  congr 1
  · exact (countP_of_forall₂ (sendAllPacks_spec hpacks) fun p x hx => by rw [hx.1]).symm
  · exact (countP_of_forall₂ (sendAllLsus_spec hlsus) fun p x hx => by rw [hx.1]).symm

/-- So does the last section if all requests have been sent. -/
theorem giveUp_settles {i : Int} {requests : Nat} (h : giveUp sr bytes i requests entry = .ok log)
    (hi : i > 0) (call : Nat) : log.countP (ArpLog.settles call) = entry.held call := by
  rw [giveUp, if_pos hi] at h
  obtain ⟨icmps, hicmps, h⟩ := bind_eq_ok.mp h
  obtain ⟨lsus, hlsus, h⟩ := bind_eq_ok.mp h
  cases h
  rw [deleteAllLsu_eq hlsus]
  have hanswer : (ArpLog.settles call ∘ fun x : Nat × Transmission => ArpLog.unreachable x.1 x.2) =
      fun x => decide (x.1 = call) := by
    funext x
    simp
  have hdrop : (ArpLog.settles call ∘ fun n => ArpLog.dropped n requests) =
      fun n => decide (n = call) := by
    funext x
    simp
  rw [List.countP_append, List.countP_map, List.countP_map, List.countP_map, hanswer, hdrop,
    Arpq.held]
  congr 1
  exact (countP_of_forall₂ (sendAllIcmps_spec hicmps) fun p x hx => by rw [hx.1]).symm

/-! ## The invariant -/

/-- What holds of the entry while its thread is at this place: the buffers are empty after the flush,
and the MAC at hand was found for the entry's address. -/
def ArpThread.Knows (log : List ArpLog) (t : ArpThread) (entry : Arpq) : Prop :=
  match t.pc with
  | .head i => i = 0 → entry.pacBuf.nodes = [] ∧ entry.lsuBuf.nodes = []
  | .search _ temp => temp = entry.ip
  | .flush _ mac => .resolved entry.ip mac ∈ log
  | _ => True

structure Accounted (sr : SrInstance) (s : ArpSubsys) : Prop where
  total : ∀ call, (s.pending.map (Arpq.held call)).sum + s.log.countP (ArpLog.settles call) =
    if call < s.calls.length then 1 else 0
  holds : ∀ entry ∈ s.pending, entry.Holds s.calls
  right : ∀ f ∈ s.log, f.Right sr s.calls s.log
  knows : ∀ t ∈ s.threads, t.pc ≠ .done → ∀ entry, s.pending[t.entry]? = some entry →
    t.Knows s.log entry

/-- Nobody queues a packet for a next hop while its thread is between the flush and the reset. -/
def Undisturbed (s : ArpSubsys) : ArpEvent → Prop
  | .call c => ∀ t ∈ s.threads, t.pc = .head 0 → s.pending[t.entry]?.map Arpq.ip ≠ some c.nextHop
  | .thread _ _ _ => True

instance (s : ArpSubsys) : (x : ArpEvent) → Decidable (Undisturbed s x)
  | .call c => inferInstanceAs
      (Decidable (∀ t ∈ s.threads, t.pc = .head 0 → s.pending[t.entry]?.map Arpq.ip ≠ some c.nextHop))
  | .thread _ _ _ => .isTrue trivial

theorem ArpThread.Knows.queue (h : t.Knows log entry) (hip : entry'.ip = entry.ip)
    (hpc : t.pc ≠ .head 0) : t.Knows log entry' := by
  rw [ArpThread.Knows] at h ⊢
  cases hat : t.pc with
  | head i =>
    intro hi
    rw [hat, hi] at hpc
    exact absurd rfl hpc
  | search i temp =>
    rw [hat] at h
    exact h.trans hip.symm
  | flush i mac =>
    rw [hat] at h
    show ArpLog.resolved entry'.ip mac ∈ log
    rw [hip]
    exact h
  | creating => trivial
  | start => trivial
  | request i => trivial
  | done => trivial

theorem ArpThread.Knows.mono (h : t.Knows log entry) (log' : List ArpLog) :
    t.Knows (log ++ log') entry := by
  rw [ArpThread.Knows] at h ⊢
  cases hat : t.pc with
  | flush i mac =>
    rw [hat] at h
    exact List.mem_append_left _ h
  | head i =>
    rw [hat] at h
    exact h
  | search i temp =>
    rw [hat] at h
    exact h
  | creating => trivial
  | start => trivial
  | request i => trivial
  | done => trivial

theorem giveUp_right {i : Int} {log₀ : List ArpLog}
    (h : giveUp sr bytes i t.requests entry = .ok log) (hi : i > 0 → (t.requests : Int) = maxArpRequests)
    (hholds : entry.Holds calls) : ∀ f ∈ log, f.Right sr calls log₀ := by
  rw [giveUp] at h
  by_cases hpos : i > 0
  · rw [if_pos hpos] at h
    obtain ⟨icmps, hicmps, h⟩ := bind_eq_ok.mp h
    obtain ⟨lsus, hlsus, h⟩ := bind_eq_ok.mp h
    cases h
    intro f hf
    cases List.mem_append.mp hf with
    | inl hf =>
      obtain ⟨x, hx, rfl⟩ := List.mem_map.mp hf
      obtain ⟨p, hp, hcall, hicmp⟩ := exists_of_forall₂ (sendAllIcmps_spec hicmps) hx
      obtain ⟨c, hc, -, hpacket, hkind⟩ := hholds.packets p hp
      rw [← hcall] at hc
      exact ⟨c, p.oldEth, bytes, hc, hkind, hpacket ▸ hicmp⟩
    | inr hf =>
      obtain ⟨n, hn, rfl⟩ := List.mem_map.mp hf
      rw [deleteAllLsu_eq hlsus] at hn
      obtain ⟨p, hp, rfl⟩ := List.mem_map.mp hn
      obtain ⟨c, hc, -, -, hkind⟩ := hholds.lsus p hp
      exact ⟨c, hc, hkind, hi hpos⟩
  · rw [if_neg hpos] at h
    cases h
    intro f hf
    cases hf

theorem flush_right {mac : Mac} {iface : IfName} {packs lsus : List (Nat × Transmission)}
    (hpacks : sendAllPacks entry.pacBuf mac iface = .ok packs)
    (hlsus : sendAllLsus entry.lsuBuf mac iface = .ok lsus) (hholds : entry.Holds calls)
    (hfound : .resolved entry.ip mac ∈ log) :
    ∀ f ∈ (packs ++ lsus).map fun x => ArpLog.transmitted x.1 x.2, f.Right sr calls log := by
  intro f hf
  obtain ⟨x, hx, rfl⟩ := List.mem_map.mp hf
  cases List.mem_append.mp hx with
  | inl hx =>
    obtain ⟨p, hp, hcall, hstore⟩ := exists_of_forall₂ (sendAllPacks_spec hpacks) hx
    obtain ⟨c, hc, hip, hpacket, -⟩ := hholds.packets p hp
    rw [← hcall] at hc
    exact ⟨c, mac, hc, hip.symm ▸ hfound, hpacket ▸ hstore⟩
  | inr hx =>
    obtain ⟨p, hp, hcall, hstore⟩ := exists_of_forall₂ (sendAllLsus_spec hlsus) hx
    obtain ⟨c, hc, hip, hpacket, -⟩ := hholds.lsus p hp
    rw [← hcall] at hc
    exact ⟨c, mac, hc, hip.symm ▸ hfound, hpacket ▸ hstore⟩

/-- A section moves packets from the buffers to the log, and the log is right about them. -/
theorem arpReqInit_accounts {log₀ : List ArpLog}
    (hrun : arpReqInit sr bytes found t entry = .ok (t', entry', log))
    (hfits : t.Fits entry.numRequests) (hholds : entry.Holds calls) (hknows : t.Knows log₀ entry) :
    entry'.Holds calls ∧
      (∀ call, entry'.held call + log.countP (ArpLog.settles call) = entry.held call) ∧
      (∀ f ∈ log, f.Right sr calls (log₀ ++ log)) ∧ t'.Knows (log₀ ++ log) entry' := by
  rw [ArpThread.Knows] at hknows
  rw [ArpThread.Fits] at hfits
  have hrequested : ∀ {tr : Transmission}, ∀ f ∈ [ArpLog.requested tr],
      f.Right sr calls (log₀ ++ [.requested tr]) := by
    intro tr f hf
    cases List.mem_singleton.mp hf
    trivial
  cases arpReqInit_section hrun with
  | create hpc => exact ⟨hholds, fun _ => rfl, fun _ hf => absurd hf List.not_mem_nil, trivial⟩
  | first hpc => exact ⟨hholds, fun _ => rfl, hrequested, fun h => by cases h⟩
  | loop hpc hloop => exact ⟨hholds, fun _ => rfl, fun _ hf => absurd hf List.not_mem_nil, rfl⟩
  | @leave i fates hpc hloop hfates =>
    simp only [hpc] at hfits hknows
    obtain ⟨hnone, hheld⟩ := @Arpq.empty_holds { entry with
      numRequests := -1, pacBuf := Buf.null, lsuBuf := Buf.null } rfl rfl calls
    refine ⟨hnone, ?_, ?_, trivial⟩
    · intro call
      rw [hheld, Nat.zero_add]
      by_cases hpos : i > 0
      · exact giveUp_settles hfates hpos call
      · rw [giveUp, if_neg hpos] at hfates
        cases hfates
        obtain ⟨hpac, hlsu⟩ := hknows (by omega)
        exact ((Arpq.empty_holds hpac hlsu calls).2 call).symm
    · apply giveUp_right hfates _ hholds
      intro hpos
      rw [maxArpRequests] at hloop ⊢
      omega
  | @resolve i temp mac hpc hfound =>
    simp only [hpc] at hknows
    refine ⟨hholds, fun _ => rfl, ?_, ?_⟩
    · intro f hf
      cases List.mem_singleton.mp hf
      trivial
    · show ArpLog.resolved entry.ip mac ∈ log₀ ++ [.resolved temp mac]
      rw [hknows]
      exact List.mem_append_right _ List.mem_cons_self
  | miss hpc hfound => exact ⟨hholds, fun _ => rfl, fun _ hf => absurd hf List.not_mem_nil, trivial⟩
  | flush hpc hpacks hlsus =>
    simp only [hpc] at hknows
    obtain ⟨hnone, hheld⟩ := @Arpq.empty_holds { entry with
      pacBuf := entry.pacBuf.freed, lsuBuf := entry.lsuBuf.freed } rfl rfl calls
    refine ⟨hnone, ?_, ?_, fun _ => ⟨rfl, rfl⟩⟩
    · intro call
      rw [hheld, Nat.zero_add]
      exact flush_settles hpacks hlsus call
    · exact flush_right hpacks hlsus hholds (List.mem_append_left _ hknows)
  | request hpc =>
    simp only [hpc] at hfits
    exact ⟨⟨hholds.packets, hholds.lsus⟩, fun _ => rfl, hrequested, fun h => by omega⟩
  | done hpc =>
    rw [hpc] at hfits
    exact hfits.elim

theorem Accounted.init : Accounted sr arpSubsysInit where
  total := fun _ => rfl
  holds := fun _ he => nomatch he
  right := fun _ hf => nomatch hf
  knows := fun _ ht => nomatch ht

theorem calls_settled (calls : List Call) (c : Call) (call : Nat) :
    (if call < (calls ++ [c]).length then 1 else 0) =
      (if call < calls.length then 1 else 0) + if calls.length = call then 1 else 0 := by
  rw [List.length_append, List.length_singleton]
  split <;> split <;> split <;> omega

/-- The packet of a call is put into the buffers of an entry that is there. -/
theorem Accounted.queue (h : Accounted sr s) (hquiet : Undisturbed s (.call c)) {e : Nat}
    {x x' x'' : Arpq} (hx : s.pending[e]? = some x) (hip : x.ip = c.nextHop)
    (hadd : x.add s.calls.length c = .ok x') (hip' : x''.ip = x'.ip) (hpac : x''.pacBuf = x'.pacBuf)
    (hlsu : x''.lsuBuf = x'.lsuBuf) :
    (∀ call, ((s.pending.set e x'').map (Arpq.held call)).sum + s.log.countP (ArpLog.settles call) =
      if call < (s.calls ++ [c]).length then 1 else 0) ∧
    (∀ y ∈ s.pending.set e x'', y.Holds (s.calls ++ [c])) ∧
    ∀ t ∈ s.threads, t.pc ≠ .done → ∀ y, (s.pending.set e x'')[t.entry]? = some y →
      t.Knows s.log y := by
  have hsame := (Arpq.add_spec hadd).1
  obtain ⟨hholds, hheld⟩ := Arpq.add_holds (h.holds x (List.mem_of_getElem? hx)) hip hadd
  refine ⟨?_, ?_, ?_⟩
  · intro call
    have htotal := h.total call
    have hsum := sum_map_set (f := Arpq.held call) (b := x'') hx
    have hmore := hheld call
    have hheld' : x''.held call = x'.held call := by rw [Arpq.held, Arpq.held, hpac, hlsu]
    rw [calls_settled]
    omega
  · intro y hy
    cases List.mem_or_eq_of_mem_set hy with
    | inl hy => exact (h.holds y hy).mono [c]
    | inr hy =>
      rw [hy]
      exact ⟨by rw [hpac, hip']; exact hholds.packets, by rw [hlsu, hip']; exact hholds.lsus⟩
  · intro t ht hpc y hy
    by_cases he : e = t.entry
    · rw [← he, List.getElem?_set_self (List.getElem?_eq_some_iff.mp hx).1] at hy
      cases hy
      apply (h.knows t ht hpc x (he ▸ hx)).queue (hip'.trans hsame)
      intro hhead
      apply hquiet t ht hhead
      rw [← he, hx, ← hip]
      rfl
    · rw [List.getElem?_set_ne he] at hy
      exact h.knows t ht hpc y hy

theorem Accounted.call (h : Accounted sr s) (hone : OneCycle s) (hquiet : Undisturbed s (.call c))
    (hstep : getMacAddress sr s c = .ok s') : Accounted sr s' := by
  have hright : ∀ f ∈ s.log, f.Right sr (s.calls ++ [c]) s.log := by
    intro f hf
    have hmono := (h.right f hf).mono [c] []
    rwa [List.append_nil] at hmono
  rcases getMacAddress_cases hstep with ⟨e, x, x', hx, hip, hadd, -, rfl⟩ |
    ⟨e, x, x', hx, hip, hadd, -, rfl⟩ | ⟨x, x', hnone, hcreate, hadd, rfl⟩
  · obtain ⟨htotal, hholds, hknows⟩ := h.queue hquiet hx hip hadd rfl rfl rfl
    exact ⟨htotal, hholds, hright, hknows⟩
  · obtain ⟨htotal, hholds, hknows⟩ := h.queue hquiet hx hip hadd
      (show ({ x' with numRequests := 0 } : Arpq).ip = x'.ip from rfl) rfl rfl
    refine ⟨htotal, hholds, hright, ?_⟩
    intro t ht hpc y hy
    cases List.mem_append.mp ht with
    | inl ht => exact hknows t ht hpc y hy
    | inr ht =>
      rw [List.mem_singleton.mp ht]
      trivial
  · obtain ⟨hip, -, hpac, hlsu⟩ := createEntry_spec hcreate
    obtain ⟨hempty, hnothing⟩ := Arpq.empty_holds (by rw [hpac]; rfl) (by rw [hlsu]; rfl) s.calls
    obtain ⟨hholds, hheld⟩ := Arpq.add_holds hempty hip hadd
    refine ⟨?_, ?_, hright, ?_⟩
    · intro call
      have htotal := h.total call
      have hmore := hheld call
      have hzero := hnothing call
      show ((s.pending ++ [x']).map (Arpq.held call)).sum + s.log.countP (ArpLog.settles call) =
        if call < (s.calls ++ [c]).length then 1 else 0
      rw [calls_settled, List.map_append, List.sum_append, List.map_singleton, List.sum_singleton]
      omega
    · intro y hy
      cases List.mem_append.mp hy with
      | inl hy => exact (h.holds y hy).mono [c]
      | inr hy => exact (List.mem_singleton.mp hy) ▸ hholds
    · intro t ht hpc y hy
      cases List.mem_append.mp ht with
      | inl ht =>
        obtain ⟨z, hz, -⟩ := hone.fits t ht hpc
        rw [List.getElem?_append_left (List.getElem?_eq_some_iff.mp hz).1] at hy
        exact h.knows t ht hpc y hy
      | inr ht =>
        rw [List.mem_singleton.mp ht]
        trivial

theorem Accounted.thread {k : Nat} (h : Accounted sr s) (hone : OneCycle s)
    (hstep : s.step sr (.thread k found bytes) = .ok s') : Accounted sr s' := by
  rcases step_thread_cases hstep with rfl | ⟨t, x, t', x', log, ht, hpc, hx, hrun, rfl⟩
  · exact h
  · have htmem := List.mem_of_getElem? ht
    have hxmem := List.mem_of_getElem? hx
    obtain ⟨y, hy, hfits⟩ := hone.fits t htmem hpc
    rw [hx] at hy
    cases hy
    obtain ⟨hentry, -, -⟩ := arpReqInit_fits hrun hfits
    obtain ⟨hholds, hheld, hright, hknows⟩ :=
      arpReqInit_accounts hrun hfits (h.holds x hxmem) (h.knows t htmem hpc x hx)
    refine ⟨?_, ?_, ?_, ?_⟩
    · intro call
      have htotal := h.total call
      have hsum := sum_map_set (f := Arpq.held call) (b := x') hx
      have hmoved := hheld call
      show ((s.pending.set t.entry x').map (Arpq.held call)).sum +
        (s.log ++ log).countP (ArpLog.settles call) = if call < s.calls.length then 1 else 0
      rw [List.countP_append]
      omega
    · intro y hy
      cases List.mem_or_eq_of_mem_set hy with
      | inl hy => exact h.holds y hy
      | inr hy => exact hy ▸ hholds
    · intro f hf
      cases List.mem_append.mp hf with
      | inl hf =>
        have hmono := (h.right f hf).mono [] log
        rwa [List.append_nil] at hmono
      | inr hf => exact hright f hf
    · intro t'' ht'' hpc'' y hy
      obtain ⟨j, hj⟩ := List.mem_iff_getElem?.mp ht''
      rcases getElem?_set_some hj with ⟨-, rfl⟩ | ⟨hjk, hj⟩
      · rw [hentry, List.getElem?_set_self (List.getElem?_eq_some_iff.mp hx).1] at hy
        cases hy
        exact hknows
      · have hother : t.entry ≠ t''.entry := fun he => hjk (hone.same ht hj hpc hpc'' he).symm
        rw [List.getElem?_set_ne hother] at hy
        exact (h.knows t'' (List.mem_of_getElem? hj) hpc'' y hy).mono log

/-- Each entry of the log settles a call in one way. -/
theorem countP_settles (log : List ArpLog) (call : Nat) :
    log.countP (ArpLog.settles call) = log.countP (ArpLog.transmits call) +
      log.countP (ArpLog.answers call) + log.countP (ArpLog.drops call) := by
  induction log with
  | nil => rfl
  | cons f log ih =>
    rw [List.countP_cons, List.countP_cons, List.countP_cons, List.countP_cons, ih]
    cases f with
    | transmitted n t =>
      simp [ArpLog.transmits, ArpLog.answers, ArpLog.drops]
      omega
    | unreachable n t =>
      simp [ArpLog.transmits, ArpLog.answers, ArpLog.drops]
      omega
    | dropped n requests =>
      simp [ArpLog.transmits, ArpLog.answers, ArpLog.drops]
      omega
    | requested t => rfl
    | resolved ip mac => rfl

theorem sum_held (pending : List Arpq) (call : Nat) :
    (pending.map (Arpq.held call)).sum = packetsHeld pending call + lsusHeld pending call :=
  List.sum_map_add

/-! ## One way for each kind of call -/

section Kinds

variable {n : Nat} {hdr : Frame}

theorem Accounted.lsusHeld_data (h : Accounted sr s) (hc : s.calls[n]? = some c)
    (hkind : c.kind = .data hdr) : lsusHeld s.pending n = 0 := by
  apply sum_map_zero
  intro entry hentry
  apply List.countP_eq_zero.mpr
  intro p hp hcall
  obtain ⟨c', hc', -, -, hkind'⟩ := (h.holds entry hentry).lsus p hp
  rw [of_decide_eq_true hcall, hc] at hc'
  cases hc'
  rw [hkind] at hkind'
  cases hkind'

theorem Accounted.packetsHeld_lsu (h : Accounted sr s) (hc : s.calls[n]? = some c)
    (hkind : c.kind = .lsu) : packetsHeld s.pending n = 0 := by
  apply sum_map_zero
  intro entry hentry
  apply List.countP_eq_zero.mpr
  intro p hp hcall
  obtain ⟨c', hc', -, -, hkind'⟩ := (h.holds entry hentry).packets p hp
  rw [of_decide_eq_true hcall, hc] at hc'
  cases hc'
  rw [hkind] at hkind'
  cases hkind'

theorem Accounted.drops_data (h : Accounted sr s) (hc : s.calls[n]? = some c)
    (hkind : c.kind = .data hdr) : s.log.countP (ArpLog.drops n) = 0 := by
  apply List.countP_eq_zero.mpr
  intro f hf hdrops
  cases f with
  | dropped m requests =>
    obtain ⟨c', hc', hkind', -⟩ := h.right _ hf
    rw [show m = n from of_decide_eq_true hdrops, hc] at hc'
    cases hc'
    rw [hkind] at hkind'
    cases hkind'
  | transmitted m t => cases hdrops
  | unreachable m t => cases hdrops
  | requested t => cases hdrops
  | resolved ip mac => cases hdrops

theorem Accounted.answers_lsu (h : Accounted sr s) (hc : s.calls[n]? = some c)
    (hkind : c.kind = .lsu) : s.log.countP (ArpLog.answers n) = 0 := by
  apply List.countP_eq_zero.mpr
  intro f hf hanswers
  cases f with
  | unreachable m t =>
    obtain ⟨c', hdr, -, hc', hkind', -⟩ := h.right _ hf
    rw [show m = n from of_decide_eq_true hanswers, hc] at hc'
    cases hc'
    rw [hkind] at hkind'
    cases hkind'
  | transmitted m t => cases hanswers
  | dropped m requests => cases hanswers
  | requested t => cases hanswers
  | resolved ip mac => cases hanswers

end Kinds

/-- If no packet is queued between a flush and its reset, then at every moment each data packet is in
a buffer, sent or answered, and each LSU in a buffer, sent or dropped: once, and in one of these ways.
What is sent goes to the MAC that was found, and LSUs are dropped after 5 requests. -/
theorem packets_accounted (h : Reach (ArpStep sr) Undisturbed arpSubsysInit s) :
    (∀ n c hdr, s.calls[n]? = some c → c.kind = .data hdr →
      packetsHeld s.pending n + s.log.countP (ArpLog.transmits n) +
        s.log.countP (ArpLog.answers n) = 1) ∧
    (∀ n c, s.calls[n]? = some c → c.kind = .lsu →
      lsusHeld s.pending n + s.log.countP (ArpLog.transmits n) +
        s.log.countP (ArpLog.drops n) = 1) ∧
    ∀ f ∈ s.log, f.Right sr s.calls s.log := by
  have hinv : OneCycle s ∧ Accounted sr s := by
    apply h.invariant ⟨.init, .init⟩
    intro s x s' hI hquiet hstep
    refine ⟨hI.1.step hstep, ?_⟩
    cases x with
    | call c => exact hI.2.call hI.1 hquiet hstep
    | thread k found bytes => exact hI.2.thread hI.1 hstep
  obtain ⟨-, hacc⟩ := hinv
  have hall : ∀ {n : Nat} {c : Call}, s.calls[n]? = some c →
      packetsHeld s.pending n + lsusHeld s.pending n + (s.log.countP (ArpLog.transmits n) +
        s.log.countP (ArpLog.answers n) + s.log.countP (ArpLog.drops n)) = 1 := by
    intro n c hc
    rw [← sum_held, ← countP_settles, hacc.total, if_pos (List.getElem?_eq_some_iff.mp hc).1]
  refine ⟨?_, ?_, hacc.right⟩
  · intro n c hdr hc hkind
    have hnone := hacc.lsusHeld_data hc hkind
    have hkept := hacc.drops_data hc hkind
    have hone := hall hc
    omega
  · intro n c hc hkind
    have hnone := hacc.packetsHeld_lsu hc hkind
    have hkept := hacc.answers_lsu hc hkind
    have hone := hall hc
    omega

section Demo

def demoMac : Mac := #v[2, 0, 0, 0, 0, 9]

/-- The state after the events, if each of them is admitted. -/
def demoQuiet (events : List ArpEvent) : Option ArpSubsys :=
  runAll (ArpSubsys.step demoArpSr) (fun s x => decide (Undisturbed s x)) events arpSubsysInit

/-- Two packets wait for the MAC, and both are sent to it. -/
theorem packets_accounted_demo :
    ∃ s, demoQuiet [.call demoLsuCall, .call demoDataCall, demoThread none, demoThread none,
      demoThread none, demoThread (some demoMac), demoThread none, demoThread none] = some s ∧
      s.log.length = 4 ∧ packetsHeld s.pending 1 + s.log.countP (ArpLog.transmits 1) +
        s.log.countP (ArpLog.answers 1) = 1 := by
  have hrun : (demoQuiet [.call demoLsuCall, .call demoDataCall, demoThread none, demoThread none,
      demoThread none, demoThread (some demoMac), demoThread none, demoThread none]).map
      (fun s => (s.calls, s.log.length)) = some ([demoLsuCall, demoDataCall], 4) := by
    decide +kernel
  obtain ⟨s, hs, heq⟩ := Option.map_eq_some_iff.mp hrun
  obtain ⟨hcalls, hlog⟩ := Prod.mk.inj heq
  have hreach : Reach (ArpStep demoArpSr) Undisturbed arpSubsysInit s :=
    Reach.of_runAll (fun _ _ _ hallow hstep => ⟨of_decide_eq_true hallow, hstep⟩) .start hs
  exact ⟨s, hs, hlog, (packets_accounted hreach).1 1 demoDataCall _ (by rw [hcalls]; rfl) rfl⟩

/-- A data packet that comes between the flush of an LSU and the reset is neither kept, nor sent, nor
answered. -/
theorem packets_not_accounted :
    ∃ s, Reach (ArpStep demoArpSr) (fun _ _ => True) arpSubsysInit s ∧
      s.calls[1]? = some demoDataCall ∧
      packetsHeld s.pending 1 + s.log.countP (ArpLog.transmits 1) +
        s.log.countP (ArpLog.answers 1) = 0 := by
  have hrun : (demoArp [.call demoLsuCall, demoThread none, demoThread none, demoThread none,
      demoThread (some demoMac), demoThread none, .call demoDataCall, demoThread none]).map
      (fun s => (s.calls[1]?, packetsHeld s.pending 1 + s.log.countP (ArpLog.transmits 1) +
        s.log.countP (ArpLog.answers 1))) = some (some demoDataCall, 0) := by decide +kernel
  obtain ⟨s, hs, heq⟩ := Option.map_eq_some_iff.mp hrun
  obtain ⟨hcall, hlost⟩ := Prod.mk.inj heq
  exact ⟨s, demoArp_reach hs, hcall, hlost⟩

end Demo

end PWOSPF
