import PWOSPF.Arp.Accounting

/-!
# The flush

What `arp_req_init` transmits when it has found the MAC: the packets that were given to
`get_mac_address` since the request became outstanding. Data packets go out in the order of their
calls, LSUs in the reverse order, and all of them on the interface of the call that made the entry.
-/

namespace PWOSPF

open Framework PacketField

/-! ## The calls that wait -/

def Call.isLsu (c : Call) : Bool := c.kind = .lsu

/-- The header that is saved with a data packet. -/
def Call.oldEth (c : Call) : Frame :=
  match c.kind with
  | .data hdr => hdr
  | .lsu => []

/-- The packet of the call with the MAC that was found. -/
def Call.addressed (mac : Mac) (c : Call) : Frame := patch c.packet etherDhost.offset mac.toList

/-- The numbered calls for a next hop from number `n` on. -/
def waitingSince (ip : InAddr) (n : Nat) (calls : List Call) : List (Call × Nat) :=
  (calls.zipIdx.drop n).filter fun x => x.1.nextHop = ip

def packetNodes (l : List (Call × Nat)) : List PacketBuffer :=
  (l.filter fun x => !x.1.isLsu).map fun x => ⟨x.2, x.1.packet, x.1.oldEth⟩

def lsuNodes (l : List (Call × Nat)) : List LsuBufEnt :=
  (l.filter fun x => x.1.isLsu).map fun x => ⟨x.2, x.1.packet⟩

theorem waitingSince_append {ip : InAddr} {n : Nat} {calls : List Call} (hn : n ≤ calls.length)
    (c : Call) :
    waitingSince ip n (calls ++ [c]) =
      waitingSince ip n calls ++ if c.nextHop = ip then [(c, calls.length)] else [] := by
  have hlen : n ≤ calls.zipIdx.length := by rwa [List.length_zipIdx]
  rw [waitingSince, List.zipIdx_append, List.drop_append_of_le_length hlen, List.filter_append]
  congr 1
  by_cases h : c.nextHop = ip <;> simp [h]

theorem waitingSince_all (ip : InAddr) (calls : List Call) :
    waitingSince ip calls.length calls = [] := by
  rw [waitingSince, ← List.length_zipIdx (l := calls) (i := 0), List.drop_length, List.filter_nil]

theorem waitingSince_calls (ip : InAddr) (n : Nat) (calls : List Call) :
    (waitingSince ip n calls).map Prod.fst = (calls.drop n).filter fun c => c.nextHop = ip := by
  have hfst : (calls.zipIdx.drop n).map Prod.fst = calls.drop n := by
    rw [List.map_drop, List.zipIdx_map_fst]
  rw [waitingSince, ← hfst, List.filter_map]
  rfl

theorem getElem?_of_waiting {ip : InAddr} {n : Nat} {calls : List Call} {x : Call × Nat}
    (h : x ∈ waitingSince ip n calls) : calls[x.2]? = some x.1 :=
  List.mem_zipIdx_iff_getElem?.mp (List.mem_of_mem_drop (List.mem_of_mem_filter h))

/-- The buffers of the entry hold the packets of these calls. -/
structure Arpq.Queued (l : List (Call × Nat)) (entry : Arpq) : Prop where
  packets : entry.pacBuf = ⟨packetNodes l, false⟩
  lsus : entry.lsuBuf = ⟨(lsuNodes l).reverse, false⟩

theorem Arpq.Queued.add {l : List (Call × Nat)} {entry entry' : Arpq} {n : Nat} {c : Call}
    (h : entry.Queued l) (hadd : entry.add n c = .ok entry') : entry'.Queued (l ++ [(c, n)]) := by
  rw [Arpq.add] at hadd
  cases hkind : c.kind with
  | lsu =>
    rw [hkind] at hadd
    cases hadd
    have hlsu : c.isLsu = true := by simp [Call.isLsu, hkind]
    refine ⟨?_, ?_⟩
    · simp [h.packets, packetNodes, List.filter_append, hlsu]
    · simp [h.lsus, addToLsuBuff, lsuNodes, List.filter_append, hlsu]
  | data hdr =>
    rw [hkind] at hadd
    obtain ⟨buf, hbuf, hadd⟩ := bind_eq_ok.mp hadd
    cases hadd
    have hdata : c.isLsu = false := by simp [Call.isLsu, hkind]
    have hold : c.oldEth = hdr := by simp [Call.oldEth, hkind]
    rw [addToPackBuff, h.packets] at hbuf
    cases hbuf
    refine ⟨?_, ?_⟩
    · simp [packetNodes, List.filter_append, hdata, hold]
    · simp [h.lsus, lsuNodes, List.filter_append, hdata]

/-! ## Over whole runs -/

variable {sr : SrInstance} {s s' s₀ : ArpSubsys} {t t' : ArpThread} {entry entry' : Arpq}
  {bytes : Nat → UInt8} {found : Option Mac} {log : List ArpLog} {c : Call} {ip : InAddr}

/-- What holds of the pending list in every reachable state: an entry without a thread has no
buffers, and an entry has the interface of the first call for its next hop. -/
structure Kept (s : ArpSubsys) : Prop where
  oneCycle : OneCycle s
  emptied : ∀ entry ∈ s.pending, entry.numRequests < 0 → entry.pacBuf = .null ∧ entry.lsuBuf = .null
  firstIface : ∀ entry ∈ s.pending,
    (s.calls.find? fun c => c.nextHop = entry.ip).map Call.iface = some entry.ifaceName
  called : ∀ c ∈ s.calls, ∃ entry ∈ s.pending, entry.ip = c.nextHop

theorem Arpq.add_ifaceName {n : Nat} (h : entry.add n c = .ok entry') :
    entry'.ifaceName = entry.ifaceName := by
  rw [Arpq.add] at h
  cases hkind : c.kind with
  | lsu =>
    rw [hkind] at h
    cases h
    rfl
  | data hdr =>
    rw [hkind] at h
    obtain ⟨buf, -, h⟩ := bind_eq_ok.mp h
    cases h
    rfl

theorem createEntry_ifaceName {iface : IfName} (h : createEntry sr ip iface = .ok entry) :
    entry.ifaceName = iface := by
  obtain ⟨request, -, h⟩ := bind_eq_ok.mp h
  cases h
  rfl

/-- The thread ends with empty buffers, and no section changes the interface of its entry. -/
theorem arpReqInit_keeps (hrun : arpReqInit sr bytes found t entry = .ok (t', entry', log)) :
    entry'.ifaceName = entry.ifaceName ∧
      (t'.pc = .done → entry'.pacBuf = .null ∧ entry'.lsuBuf = .null ∨ t.pc = .done) := by
  cases arpReqInit_section hrun with
  | leave hpc hloop hfates => exact ⟨rfl, fun _ => Or.inl ⟨rfl, rfl⟩⟩
  | done hpc => exact ⟨rfl, fun _ => Or.inr hpc⟩
  | create hpc | first hpc | loop hpc hloop | resolve hpc hfound | miss hpc hfound
  | flush hpc hpacks hlsus | request hpc => exact ⟨rfl, fun h => by cases h⟩

theorem Kept.init : Kept arpSubsysInit where
  oneCycle := .init
  emptied := fun _ h => nomatch h
  firstIface := fun _ h => nomatch h
  called := fun _ h => nomatch h

/-- The first call for a next hop stays the first one. -/
theorem find?_append_of_map {calls : List Call} {p : Call → Bool} {iface : IfName}
    (h : (calls.find? p).map Call.iface = some iface) (later : List Call) :
    ((calls ++ later).find? p).map Call.iface = some iface := by
  obtain ⟨x, hx, rfl⟩ := Option.map_eq_some_iff.mp h
  rw [List.find?_append, hx]
  rfl

/-- One entry changes, and calls come in for its next hop. -/
theorem Kept.update (h : Kept s) (hone : OneCycle s') {e : Nat} {later : List Call}
    (hx : s.pending[e]? = some entry) (hpending : s'.pending = s.pending.set e entry')
    (hcalls : s'.calls = s.calls ++ later) (hlater : ∀ c ∈ later, entry.ip = c.nextHop)
    (hip : entry'.ip = entry.ip) (hif : entry'.ifaceName = entry.ifaceName)
    (hnull : entry'.numRequests < 0 → entry'.pacBuf = .null ∧ entry'.lsuBuf = .null) : Kept s' := by
  have hmem := List.mem_of_getElem? hx
  refine ⟨hone, ?_, ?_, ?_⟩
  · intro y hy hidle
    rw [hpending] at hy
    rcases List.mem_or_eq_of_mem_set hy with hy | rfl
    exacts [h.emptied y hy hidle, hnull hidle]
  · intro y hy
    rw [hpending] at hy
    rw [hcalls]
    apply find?_append_of_map
    rcases List.mem_or_eq_of_mem_set hy with hy | rfl
    · exact h.firstIface y hy
    · rw [hip, hif]
      exact h.firstIface entry hmem
  · have hips : ∀ a, (∃ y ∈ s.pending, y.ip = a) → ∃ y ∈ s'.pending, y.ip = a := by
      rintro a ⟨y, hy, rfl⟩
      have hmap := map_ip_set hx hip
      rw [← hpending] at hmap
      have hin : y.ip ∈ s'.pending.map Arpq.ip := hmap ▸ List.mem_map_of_mem hy
      obtain ⟨y', hy', heq⟩ := List.mem_map.mp hin
      exact ⟨y', hy', heq⟩
    intro c hc
    apply hips
    rw [hcalls] at hc
    rcases List.mem_append.mp hc with hc | hc
    exacts [h.called c hc, ⟨entry, hmem, hlater c hc⟩]

theorem Kept.call (h : Kept s) (hstep : getMacAddress sr s c = .ok s') : Kept s' := by
  have hone := h.oneCycle.call hstep
  have hlater : ∀ {x : Arpq}, x.ip = c.nextHop → ∀ c' ∈ [c], x.ip = c'.nextHop := by
    intro x hip c' hc'
    rw [List.mem_singleton.mp hc']
    exact hip
  rcases getMacAddress_cases hstep with ⟨e, x, x', hx, hip, hadd, hbusy, rfl⟩ |
    ⟨e, x, x', hx, hip, hadd, -, rfl⟩ | ⟨x, x', hnone, hcreate, hadd, rfl⟩
  · obtain ⟨hip', hnum⟩ := Arpq.add_spec hadd
    exact h.update hone hx rfl rfl (hlater hip) hip' (Arpq.add_ifaceName hadd)
      (fun hidle => absurd hidle (by rw [hnum]; exact Int.not_lt.mpr hbusy))
  · exact h.update hone hx (show _ = s.pending.set e { x' with numRequests := 0 } from rfl) rfl
      (hlater hip)
      (show x'.ip = x.ip from (Arpq.add_spec hadd).1)
      (show x'.ifaceName = x.ifaceName from Arpq.add_ifaceName hadd)
      (fun hidle => absurd hidle (by simp))
  · obtain ⟨hip', hnum⟩ := Arpq.add_spec hadd
    obtain ⟨hip, hnum₀, -, -⟩ := createEntry_spec hcreate
    have hnew : s.calls.find? (fun c' => c'.nextHop = c.nextHop) = none := by
      apply List.find?_eq_none.mpr
      intro c' hc' hsame
      obtain ⟨y, hy, hyip⟩ := h.called c' hc'
      exact hnone y hy (hyip.trans (of_decide_eq_true hsame))
    refine ⟨hone, ?_, ?_, ?_⟩
    · intro y hy hidle
      rcases List.mem_append.mp hy with hy | hy
      · exact h.emptied y hy hidle
      · rw [List.mem_singleton.mp hy, hnum, hnum₀] at hidle
        exact absurd hidle (by decide)
    · intro y hy
      rcases List.mem_append.mp hy with hy | hy
      · exact find?_append_of_map (h.firstIface y hy) _
      · rw [List.mem_singleton.mp hy, hip', hip, List.find?_append, hnew, Arpq.add_ifaceName hadd,
          createEntry_ifaceName hcreate]
        simp
    · intro c' hc'
      rcases List.mem_append.mp hc' with hc' | hc'
      · obtain ⟨y, hy, hyip⟩ := h.called c' hc'
        exact ⟨y, List.mem_append_left _ hy, hyip⟩
      · rw [List.mem_singleton.mp hc']
        exact ⟨x', List.mem_append_right _ (List.mem_singleton_self _), hip'.trans hip⟩

theorem Kept.step {x : ArpEvent} (h : Kept s) (hstep : ArpStep sr s x s') : Kept s' := by
  have hone := h.oneCycle.step hstep
  cases x with
  | call c => exact h.call hstep
  | thread k found bytes =>
    rcases step_thread_cases hstep with rfl | ⟨t, y, t', y', log, ht, hpc, hy, hrun, rfl⟩
    · exact h
    · obtain ⟨z, hz, hfits⟩ := h.oneCycle.fits t (List.mem_of_getElem? ht) hpc
      rw [hy] at hz
      cases hz
      obtain ⟨-, hip, hnext⟩ := arpReqInit_fits hrun hfits
      obtain ⟨hif, hdone⟩ := arpReqInit_keeps hrun
      refine h.update hone hy rfl (List.append_nil _).symm (fun _ hc => nomatch hc) hip hif ?_
      intro hidle
      cases hnext with
      | inl hlive => exact absurd hidle (Int.not_lt.mpr hlive.2.range.1)
      | inr hended => exact (hdone hended.1).resolve_right hpc

/-! ## While a request is outstanding -/

/-- No thread works for the next hop. -/
def Idle (ip : InAddr) (s : ArpSubsys) : Prop :=
  ∀ entry ∈ s.pending, entry.ip = ip → entry.numRequests < 0

/-- The thread neither flushes nor leaves its loop next. -/
def ArpThread.Waits (t : ArpThread) : Prop :=
  match t.pc with
  | .flush _ _ => False
  | .head i => i > 0 ∧ i < maxArpRequests
  | _ => True

instance (t : ArpThread) : Decidable t.Waits :=
  match hpc : t.pc with
  | .flush _ _ => .isFalse fun h => by rw [ArpThread.Waits, hpc] at h; exact h
  | .head i => decidable_of_iff (i > 0 ∧ i < maxArpRequests) (by rw [ArpThread.Waits, hpc])
  | .creating => .isTrue (by rw [ArpThread.Waits, hpc]; trivial)
  | .start => .isTrue (by rw [ArpThread.Waits, hpc]; trivial)
  | .search _ _ => .isTrue (by rw [ArpThread.Waits, hpc]; trivial)
  | .request _ => .isTrue (by rw [ArpThread.Waits, hpc]; trivial)
  | .done => .isTrue (by rw [ArpThread.Waits, hpc]; trivial)

/-- The event does not end the wait for the MAC of `ip`. -/
def Outstanding (ip : InAddr) (s : ArpSubsys) : ArpEvent → Prop
  | .call _ => True
  | .thread k _ _ => ∀ t, s.threads[k]? = some t → s.pending[t.entry]?.map Arpq.ip = some ip → t.Waits

instance (ip : InAddr) (s : ArpSubsys) : (x : ArpEvent) → Decidable (Outstanding ip s x)
  | .call _ => .isTrue trivial
  | .thread k _ _ =>
    match hk : s.threads[k]? with
    | none => .isTrue fun t ht => by rw [hk] at ht; cases ht
    | some t => decidable_of_iff (s.pending[t.entry]?.map Arpq.ip = some ip → t.Waits)
        ⟨fun h t' ht' => by rw [hk] at ht'; cases ht'; exact h, fun h => h t hk⟩

/-- The buffers for `ip` hold what was given since there were `n` calls. -/
structure Waiting (ip : InAddr) (n : Nat) (s : ArpSubsys) : Prop extends Kept s where
  since : n ≤ s.calls.length
  queued : ∀ entry ∈ s.pending, entry.ip = ip → entry.Queued (waitingSince ip n s.calls)

theorem Arpq.queued_null (hpac : entry.pacBuf = .null) (hlsu : entry.lsuBuf = .null) :
    entry.Queued [] := ⟨hpac, hlsu⟩

theorem Waiting.start (h : Kept s) (hidle : Idle ip s) : Waiting ip s.calls.length s := by
  refine ⟨h, Nat.le_refl _, fun y hy hip => ?_⟩
  obtain ⟨hpac, hlsu⟩ := h.emptied y hy (hidle y hy hip)
  rw [waitingSince_all]
  exact Arpq.queued_null hpac hlsu

/-- A waiting thread leaves the buffers alone. -/
theorem arpReqInit_waits (hrun : arpReqInit sr bytes found t entry = .ok (t', entry', log))
    (hwaits : t.Waits) : entry'.pacBuf = entry.pacBuf ∧ entry'.lsuBuf = entry.lsuBuf := by
  rw [ArpThread.Waits] at hwaits
  cases arpReqInit_section hrun with
  | leave hpc hloop hfates =>
    rw [hpc] at hwaits
    exact absurd hwaits hloop
  | flush hpc hpacks hlsus =>
    rw [hpc] at hwaits
    exact hwaits.elim
  | create hpc | first hpc | loop hpc hloop | resolve hpc hfound | miss hpc hfound | request hpc
  | done hpc => exact ⟨rfl, rfl⟩

/-- One entry changes. Another one for the same next hop there is not. -/
theorem Waiting.set {n e : Nat} {calls : List Call} (h : Waiting ip n s)
    (hx : s.pending[e]? = some entry) (hip : entry'.ip = entry.ip)
    (hself : entry.ip = ip → entry'.Queued (waitingSince ip n calls))
    (hother : entry.ip ≠ ip → waitingSince ip n calls = waitingSince ip n s.calls) :
    ∀ y ∈ s.pending.set e entry', y.ip = ip → y.Queued (waitingSince ip n calls) := by
  intro y hy hyip
  obtain ⟨j, hj⟩ := List.mem_iff_getElem?.mp hy
  rcases getElem?_set_some hj with ⟨-, rfl⟩ | ⟨hje, hj⟩
  · exact hself (hip.symm.trans hyip)
  · have hne : entry.ip ≠ ip := by
      intro heq
      apply hje
      have hips : (s.pending.map Arpq.ip)[j]? = (s.pending.map Arpq.ip)[e]? := by
        rw [List.getElem?_map, List.getElem?_map, hj, hx, Option.map_some, Option.map_some, hyip, heq]
      have hlt : j < (s.pending.map Arpq.ip).length := by
        rw [List.length_map]
        exact (List.getElem?_eq_some_iff.mp hj).1
      exact (List.getElem?_inj hlt h.oneCycle.nodup).mp hips
    rw [hother hne]
    exact h.queued y (List.mem_of_getElem? hj) hyip

theorem Waiting.call {n : Nat} (h : Waiting ip n s) (hstep : getMacAddress sr s c = .ok s') :
    ∀ entry ∈ s'.pending, entry.ip = ip → entry.Queued (waitingSince ip n s'.calls) := by
  have hadded : ∀ {x x' : Arpq}, x.Queued (waitingSince ip n s.calls) → c.nextHop = ip →
      x.add s.calls.length c = .ok x' → x'.Queued (waitingSince ip n (s.calls ++ [c])) := by
    intro x x' hq heq hadd
    rw [waitingSince_append h.since, if_pos heq]
    exact hq.add hadd
  have hother : c.nextHop ≠ ip →
      waitingSince ip n (s.calls ++ [c]) = waitingSince ip n s.calls := by
    intro hne
    rw [waitingSince_append h.since, if_neg hne, List.append_nil]
  rcases getMacAddress_cases hstep with ⟨e, x, x', hx, hip, hadd, -, rfl⟩ |
    ⟨e, x, x', hx, hip, hadd, -, rfl⟩ | ⟨x, x', hnone, hcreate, hadd, rfl⟩
  · apply h.set hx (Arpq.add_spec hadd).1
    · exact fun heq => hadded (h.queued x (List.mem_of_getElem? hx) heq) (hip.symm.trans heq) hadd
    · exact fun hne => hother (hip ▸ hne)
  · refine h.set hx ?_ ?_ ?_
    · exact (Arpq.add_spec hadd).1
    · intro heq
      have hq := hadded (h.queued x (List.mem_of_getElem? hx) heq) (hip.symm.trans heq) hadd
      exact ⟨hq.packets, hq.lsus⟩
    · exact fun hne => hother (hip ▸ hne)
  · obtain ⟨hip, -, hpac, hlsu⟩ := createEntry_spec hcreate
    intro y hy hyip
    rcases List.mem_append.mp hy with hy | hy
    · have hne : c.nextHop ≠ ip := fun heq => hnone y hy (hyip.trans heq.symm)
      rw [hother hne]
      exact h.queued y hy hyip
    · rw [List.mem_singleton.mp hy, (Arpq.add_spec hadd).1, hip] at hyip
      rw [List.mem_singleton.mp hy]
      have hempty : waitingSince ip n s.calls = [] := by
        apply List.filter_eq_nil_iff.mpr
        intro z hz hsame
        have hzc : z.1 ∈ s.calls :=
          List.mem_of_getElem? (List.mem_zipIdx_iff_getElem?.mp (List.mem_of_mem_drop hz))
        obtain ⟨y', hy', hyip'⟩ := h.called z.1 hzc
        exact hnone y' hy' (hyip'.trans ((of_decide_eq_true hsame).trans hyip.symm))
      apply hadded _ hyip hadd
      rw [hempty]
      exact Arpq.queued_null hpac hlsu

theorem Waiting.step {n : Nat} {x : ArpEvent} (h : Waiting ip n s) (hout : Outstanding ip s x)
    (hstep : ArpStep sr s x s') : Waiting ip n s' := by
  have hkept := h.toKept.step hstep
  cases x with
  | call c =>
    refine ⟨hkept, ?_, h.call hstep⟩
    have hcalls : s'.calls = s.calls ++ [c] := by
      rcases getMacAddress_cases hstep with ⟨e, x, x', -, -, -, -, rfl⟩ |
        ⟨e, x, x', -, -, -, -, rfl⟩ | ⟨x, x', -, -, -, rfl⟩ <;> rfl
    rw [hcalls, List.length_append]
    exact Nat.le_trans h.since (Nat.le_add_right _ _)
  | thread k found bytes =>
    rcases step_thread_cases hstep with rfl | ⟨t, y, t', y', log, ht, hpc, hy, hrun, rfl⟩
    · exact h
    · refine ⟨hkept, h.since, ?_⟩
      obtain ⟨z, hz, hfits⟩ := h.oneCycle.fits t (List.mem_of_getElem? ht) hpc
      rw [hy] at hz
      cases hz
      obtain ⟨-, hip, -⟩ := arpReqInit_fits hrun hfits
      apply h.set hy hip
      · intro heq
        obtain ⟨hpac, hlsu⟩ := arpReqInit_waits hrun (hout t ht (by rw [hy, Option.map_some, heq]))
        have hq := h.queued y (List.mem_of_getElem? hy) heq
        exact ⟨hpac.trans hq.packets, hlsu.trans hq.lsus⟩
      · exact fun _ => rfl

/-! ## What the flush transmits -/

/-- The packet of a call as it is asked for: with the MAC, on the interface of the call. -/
def Call.sentTo (mac : Mac) (c : Call) : Transmission := ⟨c.addressed mac, c.iface⟩

/-- Of what was sent, the data packets are those of the waiting calls in the order of the calls, and
so are the LSUs, each on the interface of its call and with nothing but the MAC changed. -/
structure FlushedRight (calls waiting : List Call) (mac : Mac) (sent : List (Nat × Transmission)) :
    Prop where
  data : (sent.filter fun x => calls[x.1]?.any fun c => !c.isLsu).map Prod.snd =
    (waiting.filter fun c => !c.isLsu).map (Call.sentTo mac)
  lsus : (sent.filter fun x => calls[x.1]?.any fun c => c.isLsu).map Prod.snd =
    (waiting.filter fun c => c.isLsu).map (Call.sentTo mac)
  known : ∀ x ∈ sent, x.1 < calls.length

theorem mapM_store_iff {α : Type} (nodes : List α) (call : α → Nat) (packet : α → Frame) (mac : Mac)
    (iface : IfName) (sent : List (Nat × Transmission)) :
    (nodes.mapM fun p => do
        return (call p, (⟨← (packet p).store etherDhost.offset mac.toList, iface⟩ : Transmission))) =
        (.ok sent : Exec _) ↔
      (∀ p ∈ nodes, etherAddrLen ≤ (packet p).length) ∧
        sent = nodes.map fun p => (call p, ⟨patch (packet p) etherDhost.offset mac.toList, iface⟩) := by
  have hmac : mac.toList.length = etherAddrLen := by simp [etherAddrLen]
  by_cases hlong : ∀ p ∈ nodes, etherAddrLen ≤ (packet p).length
  · have hrun : (nodes.mapM fun p => do
        return (call p, (⟨← (packet p).store etherDhost.offset mac.toList, iface⟩ : Transmission)) :
        Exec (List (Nat × Transmission))) =
        .ok (nodes.map fun p => (call p, ⟨patch (packet p) etherDhost.offset mac.toList, iface⟩)) := by
      apply mapM_ok
      intro p hp
      have hin : etherDhost.offset + mac.toList.length ≤ (packet p).length := by
        rw [hmac]
        exact Nat.le_trans (Nat.le_of_eq (Nat.zero_add _)) (hlong p hp)
      simp only [Frame.store_eq_ok.mpr ⟨hin, rfl⟩, ok_bind]
      rfl
    rw [hrun, Except.ok.injEq]
    exact ⟨fun h => ⟨hlong, h.symm⟩, fun h => h.2.symm⟩
  · refine iff_of_false (fun h => hlong fun p hp => ?_) fun h => hlong h.1
    obtain ⟨x, -, hx⟩ := exists_of_forall₂_left (mapM_eq_ok h) hp
    obtain ⟨frame, hstore, -⟩ := bind_eq_ok.mp hx
    have hin := (Frame.store_eq_ok.mp hstore).1
    rw [hmac] at hin
    exact Nat.le_trans (Nat.le_add_left _ _) hin

/-- What the flush sends for the calls that wait, over `iface`. -/
def flushed (l : List (Call × Nat)) (mac : Mac) (iface : IfName) : List (Nat × Transmission) :=
  ((l.filter fun x => !x.1.isLsu).map fun x => (x.2, ⟨x.1.addressed mac, iface⟩)) ++
    ((l.filter fun x => x.1.isLsu).map fun x => (x.2, ⟨x.1.addressed mac, iface⟩)).reverse

theorem sendAllPacks_iff {l : List (Call × Nat)} {mac : Mac} {iface : IfName}
    {sent : List (Nat × Transmission)} :
    sendAllPacks ⟨packetNodes l, false⟩ mac iface = .ok sent ↔
      (∀ x ∈ l, x.1.isLsu = false → etherAddrLen ≤ x.1.packet.length) ∧
        sent = (l.filter fun x => !x.1.isLsu).map fun x => (x.2, ⟨x.1.addressed mac, iface⟩) := by
  refine (mapM_store_iff (packetNodes l) PacketBuffer.call PacketBuffer.packet mac iface sent).trans
    (and_congr ?_ ?_)
  · rw [packetNodes, List.forall_mem_map]
    simp [List.mem_filter]
  · rw [packetNodes, List.map_map]
    rfl

theorem sendAllLsus_iff {l : List (Call × Nat)} {mac : Mac} {iface : IfName}
    {sent : List (Nat × Transmission)} :
    sendAllLsus ⟨(lsuNodes l).reverse, false⟩ mac iface = .ok sent ↔
      (∀ x ∈ l, x.1.isLsu = true → etherAddrLen ≤ x.1.packet.length) ∧
        sent = ((l.filter fun x => x.1.isLsu).map
          fun x => (x.2, ⟨x.1.addressed mac, iface⟩)).reverse := by
  refine (mapM_store_iff (lsuNodes l).reverse LsuBufEnt.call LsuBufEnt.lsuPacket mac iface
    sent).trans (and_congr ?_ ?_)
  · rw [lsuNodes, ← List.map_reverse, List.forall_mem_map]
    simp [List.mem_filter]
  · rw [lsuNodes, List.map_reverse, List.map_map]
    rfl

/-- The flush succeeds where every packet has room for the MAC. -/
theorem flush_sends_iff {i : Int} {mac : Mac} {l : List (Call × Nat)} (hpc : t.pc = .flush i mac)
    (hq : entry.Queued l) {sent : List (Nat × Transmission)} :
    (∃ t' entry', arpReqInit sr bytes found t entry =
        .ok (t', entry', sent.map fun x => .transmitted x.1 x.2)) ↔
      (∀ x ∈ l, etherAddrLen ≤ x.1.packet.length) ∧ sent = flushed l mac entry.ifaceName := by
  rw [arpReqInit, hpc]
  simp only [hq.packets, hq.lsus]
  constructor
  · rintro ⟨t', entry', hrun⟩
    obtain ⟨packs, hpacks, hrun⟩ := bind_eq_ok.mp hrun
    obtain ⟨lsus, hlsus, hrun⟩ := bind_eq_ok.mp hrun
    obtain ⟨hdata, rfl⟩ := sendAllPacks_iff.mp hpacks
    obtain ⟨hlsu, rfl⟩ := sendAllLsus_iff.mp hlsus
    refine ⟨fun x hx => ?_, ?_⟩
    · cases hkind : x.1.isLsu with
      | false => exact hdata x hx hkind
      | true => exact hlsu x hx hkind
    · have hlog := congrArg (fun r => r.2.2) (Except.ok.inj hrun)
      have hinj : Function.Injective fun x : Nat × Transmission => ArpLog.transmitted x.1 x.2 := by
        intro x y hxy
        exact Prod.ext (ArpLog.transmitted.inj hxy).1 (ArpLog.transmitted.inj hxy).2
      exact (List.map_injective_iff.mpr hinj hlog).symm
  · rintro ⟨hlong, rfl⟩
    rw [sendAllPacks_iff.mpr ⟨fun x hx _ => hlong x hx, rfl⟩, ok_bind,
      sendAllLsus_iff.mpr ⟨fun x hx _ => hlong x hx, rfl⟩, ok_bind]
    exact ⟨_, _, rfl⟩

/-- The LSUs of the calls, with the MAC that was found. -/
def lsuFrames (mac : Mac) (calls : List Call) : List Frame :=
  (calls.filter fun c => c.isLsu).map (Call.addressed mac)

section Order

variable {l : List (Call × Nat)} {calls : List Call} {mac : Mac} {iface : IfName}

/-- The part of the flush for one kind of calls. -/
theorem filter_sent (hl : ∀ x ∈ l, calls[x.2]? = some x.1) (p q : Call → Bool) :
    (((l.filter fun x => p x.1).map fun x => (x.2, (⟨x.1.addressed mac, iface⟩ : Transmission))).filter
        fun x => calls[x.1]?.any q) =
      (l.filter fun x => p x.1 && q x.1).map fun x => (x.2, ⟨x.1.addressed mac, iface⟩) := by
  rw [List.filter_map, List.filter_filter]
  congr 1
  apply List.filter_congr
  intro x hx
  simp only [Function.comp_apply, hl x hx, Option.any_some, Bool.and_comm]

theorem filter_data (hl : ∀ x ∈ l, calls[x.2]? = some x.1) :
    (flushed l mac iface).filter (fun x => calls[x.1]?.any fun c => !c.isLsu) =
      (l.filter fun x => !x.1.isLsu).map fun x => (x.2, ⟨x.1.addressed mac, iface⟩) := by
  rw [flushed, List.filter_append, List.filter_reverse, filter_sent hl (fun c => !c.isLsu),
    filter_sent hl (fun c => c.isLsu)]
  simp

theorem filter_lsus (hl : ∀ x ∈ l, calls[x.2]? = some x.1) :
    (flushed l mac iface).filter (fun x => calls[x.1]?.any fun c => c.isLsu) =
      ((l.filter fun x => x.1.isLsu).map fun x => (x.2, ⟨x.1.addressed mac, iface⟩)).reverse := by
  rw [flushed, List.filter_append, List.filter_reverse, filter_sent hl (fun c => !c.isLsu),
    filter_sent hl (fun c => c.isLsu)]
  simp

theorem filter_fst (l : List (Call × Nat)) (p : Call → Bool) :
    (l.map Prod.fst).filter p = (l.filter fun x => p x.1).map Prod.fst := List.filter_map

/-- Packets that all leave on one interface, in the reverse order. -/
theorem reverse_sent_iff {α : Type} (m : List α) (frame : α → Frame) (own : α → IfName) :
    (m.map fun x => (⟨frame x, iface⟩ : Transmission)).reverse = m.map (fun x => ⟨frame x, own x⟩) ↔
      (∀ x ∈ m, own x = iface) ∧ (m.map frame).reverse = m.map frame := by
  constructor
  · intro h
    constructor
    · intro x hx
      have hmem : (⟨frame x, own x⟩ : Transmission) ∈ m.map fun x => ⟨frame x, own x⟩ :=
        List.mem_map_of_mem hx
      rw [← h, List.mem_reverse] at hmem
      obtain ⟨y, -, heq⟩ := List.mem_map.mp hmem
      exact (Transmission.mk.inj heq).2.symm
    · have hframes := congrArg (List.map Transmission.frame) h
      rw [List.map_reverse, List.map_map, List.map_map] at hframes
      exact hframes
  · rintro ⟨hown, hframes⟩
    have hall : m.map (fun x => (⟨frame x, own x⟩ : Transmission)) =
        (m.map frame).map fun f => ⟨f, iface⟩ := by
      rw [List.map_map]
      exact List.map_congr_left fun x hx => by rw [hown x hx]; rfl
    have hsent : m.map (fun x => (⟨frame x, iface⟩ : Transmission)) =
        (m.map frame).map fun f => ⟨f, iface⟩ := by
      rw [List.map_map]
      rfl
    rw [hall, hsent, ← List.map_reverse, hframes]

/-- The flush is as asked for exactly if all calls name the interface that is used, and the LSUs read
the same in both directions. -/
theorem flushedRight_iff (hl : ∀ x ∈ l, calls[x.2]? = some x.1) :
    FlushedRight calls (l.map Prod.fst) mac (flushed l mac iface) ↔
      (∀ c ∈ l.map Prod.fst, c.iface = iface) ∧
        (lsuFrames mac (l.map Prod.fst)).reverse = lsuFrames mac (l.map Prod.fst) := by
  have hdata : ((flushed l mac iface).filter fun x => calls[x.1]?.any fun c => !c.isLsu).map Prod.snd =
      ((l.map Prod.fst).filter fun c => !c.isLsu).map (Call.sentTo mac) ↔
      ∀ x ∈ l.filter fun x => !x.1.isLsu, x.1.iface = iface := by
    rw [filter_data hl, filter_fst, List.map_map, List.map_map, List.map_inj_left]
    refine forall₂_congr fun x _ => ?_
    exact ⟨fun h => (Transmission.mk.inj h).2.symm, fun h => by simp [Call.sentTo, h]⟩
  have hlsus : ((flushed l mac iface).filter fun x => calls[x.1]?.any fun c => c.isLsu).map Prod.snd =
      ((l.map Prod.fst).filter fun c => c.isLsu).map (Call.sentTo mac) ↔
      (∀ x ∈ l.filter fun x => x.1.isLsu, x.1.iface = iface) ∧
        (lsuFrames mac (l.map Prod.fst)).reverse = lsuFrames mac (l.map Prod.fst) := by
    rw [filter_lsus hl, List.map_reverse, lsuFrames, filter_fst, List.map_map, List.map_map,
      List.map_map]
    exact reverse_sent_iff _ (fun x : Call × Nat => x.1.addressed mac) fun x => x.1.iface
  have hall : (∀ c ∈ l.map Prod.fst, c.iface = iface) ↔
      (∀ x ∈ l.filter fun x => !x.1.isLsu, x.1.iface = iface) ∧
        ∀ x ∈ l.filter fun x => x.1.isLsu, x.1.iface = iface := by
    rw [List.forall_mem_map]
    simp only [List.mem_filter, Bool.not_eq_true', and_imp]
    refine ⟨fun h => ⟨fun x hx _ => h x hx, fun x hx _ => h x hx⟩, fun h x hx => ?_⟩
    cases hkind : x.1.isLsu with
    | false => exact h.1 x hx hkind
    | true => exact h.2 x hx hkind
  have hknown : ∀ x ∈ flushed l mac iface, x.1 < calls.length := by
    intro x hx
    have hnum : ∃ y ∈ l, y.2 = x.1 := by
      rcases List.mem_append.mp hx with hx | hx
      · obtain ⟨y, hy, rfl⟩ := List.mem_map.mp hx
        exact ⟨y, List.mem_of_mem_filter hy, rfl⟩
      · obtain ⟨y, hy, rfl⟩ := List.mem_map.mp (List.mem_reverse.mp hx)
        exact ⟨y, List.mem_of_mem_filter hy, rfl⟩
    obtain ⟨y, hy, hyx⟩ := hnum
    rw [← hyx]
    exact (List.getElem?_eq_some_iff.mp (hl y hy)).1
  rw [hall, and_assoc, ← hlsus, ← hdata]
  exact ⟨fun h => ⟨h.data, h.lsus⟩, fun h => ⟨h.1, h.2, hknown⟩⟩

end Order

/-- The calls for the next hop between two states of a run. -/
def givenSince (ip : InAddr) (s₀ s : ArpSubsys) : List Call :=
  (s.calls.drop s₀.calls.length).filter fun c => c.nextHop = ip

/-- A step that flushes adds to the log what `arp_req_init` sends. -/
theorem flush_step {k : Nat} (ht : s.threads[k]? = some t) (hentry : s.pending[t.entry]? = some entry) :
    (∃ s', s.step sr (.thread k found bytes) = .ok s' ∧ s'.log = s.log ++ log) ↔
      ∃ t' entry', arpReqInit sr bytes found t entry = .ok (t', entry', log) := by
  rw [ArpSubsys.step]
  simp only [ht, hentry]
  constructor
  · rintro ⟨s', hstep, hlog⟩
    obtain ⟨⟨t', entry', log'⟩, hrun, hstep⟩ := bind_eq_ok.mp hstep
    cases hstep
    rw [← List.append_cancel_left hlog]
    exact ⟨t', entry', hrun⟩
  · rintro ⟨t', entry', hrun⟩
    rw [hrun, ok_bind]
    exact ⟨_, rfl, rfl⟩

theorem Waiting.of_reach (h₀ : Reach (ArpStep sr) (fun _ _ => True) arpSubsysInit s₀)
    (hidle : Idle ip s₀) (h : Reach (ArpStep sr) (Outstanding ip) s₀ s) :
    Waiting ip s₀.calls.length s := by
  have hkept : Kept s₀ := h₀.invariant .init fun _ _ _ hI _ hstep => hI.step hstep
  exact h.invariant (.start hkept hidle) fun _ _ _ hI hout hstep => hI.step hout hstep

/-- The flush of a state in which the calls since `s₀` wait. -/
theorem Waiting.flush_iff (hwait : Waiting ip s₀.calls.length s) {k : Nat}
    (ht : s.threads[k]? = some t) {i : Int} {mac : Mac} (hpc : t.pc = .flush i mac)
    (hentry : s.pending[t.entry]? = some entry) (hip : entry.ip = ip) :
    (∃ s' sent, s.step sr (.thread k found bytes) = .ok s' ∧
        s'.log = s.log ++ sent.map (fun x => .transmitted x.1 x.2) ∧
        FlushedRight s.calls (givenSince ip s₀ s) mac sent) ↔
      (∀ c ∈ givenSince ip s₀ s, etherAddrLen ≤ c.packet.length) ∧
        (∀ c ∈ givenSince ip s₀ s,
          (s.calls.find? fun c => c.nextHop = ip).map Call.iface = some c.iface) ∧
        (lsuFrames mac (givenSince ip s₀ s)).reverse = lsuFrames mac (givenSince ip s₀ s) := by
  have hmem := List.mem_of_getElem? hentry
  have hq := hwait.queued entry hmem hip
  have hfirst := hwait.firstIface entry hmem
  rw [hip] at hfirst
  rw [hfirst, givenSince, ← waitingSince_calls]
  let l := waitingSince ip s₀.calls.length s.calls
  have hright : FlushedRight s.calls (l.map Prod.fst) mac (flushed l mac entry.ifaceName) ↔ _ :=
    flushedRight_iff fun x hx => getElem?_of_waiting hx
  have hlong : (∀ x ∈ l, etherAddrLen ≤ x.1.packet.length) ↔
      ∀ c ∈ l.map Prod.fst, etherAddrLen ≤ c.packet.length := by rw [List.forall_mem_map]
  have hsome : ∀ c : Call, some entry.ifaceName = some c.iface ↔ c.iface = entry.ifaceName :=
    fun c => by rw [Option.some.injEq, eq_comm]
  simp only [hsome]
  constructor
  · rintro ⟨s', sent, hstep, hlog, hsent⟩
    obtain ⟨hin, rfl⟩ := (flush_sends_iff hpc hq).mp ((flush_step ht hentry).mp ⟨s', hstep, hlog⟩)
    exact ⟨hlong.mp hin, hright.mp hsent⟩
  · rintro ⟨hin, hrest⟩
    have hsent : ∃ s', s.step sr (.thread k found bytes) = .ok s' ∧ s'.log = s.log ++ _ :=
      (flush_step ht hentry).mpr ((flush_sends_iff hpc hq).mpr ⟨hlong.mpr hin, rfl⟩)
    obtain ⟨s', hstep, hlog⟩ := hsent
    exact ⟨s', _, hstep, hlog, hright.mpr hrest⟩

/-- While the request for the MAC of `ip` was outstanding, from a state without a thread for it on,
any calls were made. The flush transmits what they gave as they asked for it exactly if every packet
has room for a MAC, every call names the interface of the first call ever for this next hop, and the
LSUs read the same in both directions. -/
theorem flush_faithful_iff (h₀ : Reach (ArpStep sr) (fun _ _ => True) arpSubsysInit s₀)
    (hidle : Idle ip s₀) (h : Reach (ArpStep sr) (Outstanding ip) s₀ s) {k : Nat}
    (ht : s.threads[k]? = some t) {i : Int} {mac : Mac} (hpc : t.pc = .flush i mac)
    (hentry : s.pending[t.entry]? = some entry) (hip : entry.ip = ip) (found : Option Mac)
    (bytes : Nat → UInt8) :
    (∃ s' sent, s.step sr (.thread k found bytes) = .ok s' ∧
        s'.log = s.log ++ sent.map (fun x => .transmitted x.1 x.2) ∧
        FlushedRight s.calls (givenSince ip s₀ s) mac sent) ↔
      (∀ c ∈ givenSince ip s₀ s, etherAddrLen ≤ c.packet.length) ∧
        (∀ c ∈ givenSince ip s₀ s,
          (s.calls.find? fun c => c.nextHop = ip).map Call.iface = some c.iface) ∧
        (lsuFrames mac (givenSince ip s₀ s)).reverse = lsuFrames mac (givenSince ip s₀ s) :=
  (Waiting.of_reach h₀ hidle h).flush_iff ht hpc hentry hip

section Demo


/-- A data packet, an LSU and another data packet, and what the thread does until it has the MAC. -/
def demoWaiting (calls : List Call) : List ArpEvent :=
  calls.map .call ++ [demoThread none, demoThread none, demoThread none, demoThread (some demoMac)]

/-- The state in front of the flush. -/
def demoFlush (calls : List Call) : Option ArpSubsys :=
  runAll (ArpSubsys.step demoArpSr) (fun s x => decide (Outstanding 7 s x)) (demoWaiting calls)
    arpSubsysInit

theorem demoFlush_reach {calls : List Call} (h : demoFlush calls = some s) :
    Reach (ArpStep demoArpSr) (Outstanding 7) arpSubsysInit s :=
  Reach.of_runAll (fun _ _ _ hok hrun => ⟨of_decide_eq_true hok, hrun⟩) .start h

/-- The thread of the first entry has found the MAC. -/
theorem demoFlush_thread (calls : List Call)
    (h : (demoFlush calls).map (fun s => (s.threads.map fun t => (t.entry, t.pc), s.pending.map Arpq.ip,
      s.calls)) = some ([(0, .flush 1 demoMac)], [7], calls)) :
    ∃ s t entry, demoFlush calls = some s ∧ s.threads[0]? = some t ∧ t.pc = .flush 1 demoMac ∧
      s.pending[t.entry]? = some entry ∧ entry.ip = 7 ∧ s.calls = calls := by
  obtain ⟨s, hs, heq⟩ := Option.map_eq_some_iff.mp h
  simp only [Prod.mk.injEq] at heq
  obtain ⟨hthreads, hips, hcalls⟩ := heq
  obtain ⟨t, ht, hpc⟩ := List.map_eq_singleton_iff.mp hthreads
  obtain ⟨entry, hentry, hip⟩ := List.map_eq_singleton_iff.mp hips
  rw [Prod.mk.injEq] at hpc
  exact ⟨s, t, entry, hs, by rw [ht]; rfl, hpc.2, by rw [hpc.1, hentry]; rfl, hip, hcalls⟩

theorem flush_faithful_demo :
    ∃ s s' sent, demoFlush [demoDataCall, demoLsuCall, demoDataCall] = some s ∧
      s.step demoArpSr (demoThread none) = .ok s' ∧
      s'.log = s.log ++ sent.map (fun x => .transmitted x.1 x.2) ∧
      FlushedRight s.calls [demoDataCall, demoLsuCall, demoDataCall] demoMac sent := by
  obtain ⟨s, t, entry, hs, ht, hpc, hentry, hip, hcalls⟩ :=
    demoFlush_thread [demoDataCall, demoLsuCall, demoDataCall] (by decide +kernel)
  have hgiven : givenSince 7 arpSubsysInit s = [demoDataCall, demoLsuCall, demoDataCall] := by
    rw [givenSince, hcalls]
    decide
  have hflush := (flush_faithful_iff .start (fun _ h => nomatch h) (demoFlush_reach hs) ht hpc hentry
    hip none fun _ => 0).mpr (by rw [hgiven, hcalls]; decide)
  rw [hgiven] at hflush
  obtain ⟨s', sent, hstep, hlog, hright⟩ := hflush
  exact ⟨s, s', sent, hs, hstep, hlog, hright⟩

/-- A second, newer LSU for the same next hop. -/
def demoNewerLsu : Call := ⟨7, List.replicate 66 1, [101], .lsu⟩

/-- The newer one of two LSUs is sent first. -/
theorem flush_faithful_false :
    ¬ ∀ (sr : SrInstance) (s₀ s : ArpSubsys) (ip : InAddr) (k : Nat) (t : ArpThread) (i : Int)
      (mac : Mac) (entry : Arpq),
      Reach (ArpStep sr) (fun _ _ => True) arpSubsysInit s₀ → Idle ip s₀ →
        Reach (ArpStep sr) (Outstanding ip) s₀ s → s.threads[k]? = some t → t.pc = .flush i mac →
          s.pending[t.entry]? = some entry → entry.ip = ip →
            (∀ c ∈ givenSince ip s₀ s, sizeofEther ≤ c.packet.length) →
              ∃ s' sent, s.step sr (.thread k none fun _ => 0) = .ok s' ∧
                s'.log = s.log ++ sent.map (fun x => .transmitted x.1 x.2) ∧
                FlushedRight s.calls (givenSince ip s₀ s) mac sent := by
  intro h
  obtain ⟨s, t, entry, hs, ht, hpc, hentry, hip, hcalls⟩ :=
    demoFlush_thread [demoLsuCall, demoNewerLsu] (by decide +kernel)
  have hgiven : givenSince 7 arpSubsysInit s = [demoLsuCall, demoNewerLsu] := by
    rw [givenSince, hcalls]
    decide
  have hidle : Idle 7 arpSubsysInit := fun _ h => nomatch h
  have hreach := demoFlush_reach hs
  have hsent := h demoArpSr arpSubsysInit s 7 0 t 1 demoMac entry .start hidle hreach ht hpc hentry
    hip (by rw [hgiven]; decide)
  have horder := (((Waiting.of_reach .start hidle hreach).flush_iff ht hpc hentry hip).mp hsent).2.2
  rw [hgiven] at horder
  exact absurd horder (by decide)

end Demo

end PWOSPF
