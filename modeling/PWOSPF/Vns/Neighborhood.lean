import Mathlib.Logic.Function.Basic
import PWOSPF.Arp.Accounting
import PWOSPF.Arp.HostUnreachable
import PWOSPF.Vns.Stations

/-!
# Packets for neighbors

Packets wait for the MAC of their next hop while threads ask for it, in every router at the same time.
As long as no host lies, no cache ever holds a wrong address, whatever frames get lost, come again or
arrive out of order. `search_cache` returns a pointer into the cache and `arp_req_init` reads the MAC behind
it later, so that a packet is only sure to reach its owner if the entry has not been freed by then.
-/

namespace PWOSPF

open Framework PacketField

/-- The entry whose MAC `search_cache` points to. -/
def searchedEntry (cache : List ArpCacheEntry) (clock : Nat → Time) (ip : InAddr) :
    Option ArpCacheEntry :=
  (searchCache cache clock ip).1.find? fun cacheWalker => ip = cacheWalker.ipAdd

/-- What `search_cache` finds for a thread that asks next, and the cache afterwards. -/
def Station.search (st : Station) (k : Nat) (clock : Nat → Time) :
    List ArpCacheEntry × Option ArpCacheEntry :=
  match st.queue.threads[k]?.map ArpThread.pc with
  | some (.search _ temp) => ((searchCache st.cache clock temp).1, searchedEntry st.cache clock temp)
  | _ => (st.cache, none)

/-- What a thread reads through its pointer: the MAC of the entry while it is in the cache, and anything
else when `check_cache_invalid` has freed it. Entries differ in the time even if they are for one address. -/
def Station.behind (st : Station) (k : Nat) (stale : Mac) : Mac :=
  match st.pointers.lookup k with
  | some e => if e ∈ st.cache then e.mac else stale
  | none => stale

/-- The MAC is read when the thread sends its packets. -/
def ArpThread.reads (mac : Mac) (t : ArpThread) : ArpThread :=
  match t.pc with
  | .flush i _ => { t with pc := .flush i mac }
  | _ => t

def ArpSubsys.reads (q : ArpSubsys) (k : Nat) (mac : Mac) : ArpSubsys :=
  { q with threads := q.threads.modify k (ArpThread.reads mac) }

/-- The frames that go out with it. -/
def ArpLog.sends (sr : SrInstance) : ArpLog → List Transmission
  | .transmitted _ t | .unreachable _ t | .requested t => srSendPacket sr t.frame t.iface
  | .dropped _ _ | .resolved _ _ => []

/-- The next section of a thread. -/
def Station.work (st : Station) (k : Nat) (clock : Nat → Time) (bytes : Nat → UInt8) (stale : Mac) :
    Exec (Station × List Transmission) := do
  let (cache, found) := st.search k clock
  let queue ← (st.queue.reads k (st.behind k stale)).step st.client.sr
    (.thread k (found.map ArpCacheEntry.mac) bytes)
  return ({ st with
      cache := cache
      queue := queue
      pointers := (found.map fun e => (k, e)).toList ++ st.pointers },
    (queue.log.drop st.queue.log.length).flatMap (ArpLog.sends st.client.sr))

/-- All routers, and every frame that was sent so far. -/
structure Network (ι : Type*) where
  stations : ι → Station
  wire : List Frame

def Network.set {ι : Type*} [DecidableEq ι] (N : Network ι) (i : ι) (st : Station)
    (sent : List Transmission) : Network ι :=
  ⟨Function.update N.stations i st, N.wire ++ sent.map Transmission.frame⟩

/-- `owns` tells who has which address. What happens, in any order: a router takes a frame that somebody
sent at some time, looks an address up, hands a packet to `get_mac_address` or lets a thread go on; or
anybody else sends an honest frame. -/
inductive StationStep {ι : Type*} [DecidableEq ι] (owns : InAddr → Mac → Prop) :
    Network ι → Network ι → Prop
  | receives {N : Network ι} (i : ι) {cfg : VnsConfig} {host : VnsHost} {env : Env}
      {p : Frame × IfName} {st : Station} {sent : List Transmission} (hsent : p.1 ∈ N.wire)
      (harrives : Arrives (N.stations i).client.sr p)
      (hreceive : (N.stations i).receive cfg host env p = .ok (st, sent)) :
      StationStep owns N (N.set i st sent)
  | looksUp {N : Network ι} (i : ι) (clock : Nat → Time) (ip : InAddr) :
      StationStep owns N (N.set i { N.stations i with
        cache := (searchCache (N.stations i).cache clock ip).1 } [])
  | hands {N : Network ι} (i : ι) {c : Call} {queue : ArpSubsys} (hpacket : ¬ IsArp c.packet)
      (hcall : getMacAddress (N.stations i).client.sr (N.stations i).queue c = .ok queue) :
      StationStep owns N (N.set i { N.stations i with queue := queue } [])
  | works {N : Network ι} (i : ι) {k : Nat} {clock : Nat → Time} {bytes : Nat → UInt8} {stale : Mac}
      {st : Station} {sent : List Transmission}
      (hwork : (N.stations i).work k clock bytes stale = .ok (st, sent)) :
      StationStep owns N (N.set i st sent)
  | speaks {N : Network ι} {f : Frame} (hf : Honest owns f) :
      StationStep owns N { N with wire := N.wire ++ [f] }

/-! ## The queue -/

/-- The packet of the call, which was for this next hop, went to this MAC. -/
def SentTo (calls : List Call) (ip : InAddr) (mac : Mac) (n : Nat) (t : Transmission) : Prop :=
  ∃ c, calls[n]? = some c ∧ c.nextHop = ip ∧ c.packet.store etherDhost.offset mac.toList = .ok t.frame

/-- The thread looks for the MAC of the address. -/
def ArpThread.Looks (t : ArpThread) (ip : InAddr) : Prop :=
  match t.pc with
  | .search _ temp => temp = ip
  | _ => True

structure ArpSubsys.Sound (owns : InAddr → Mac → Prop) (q : ArpSubsys) : Prop where
  calls : ∀ c ∈ q.calls, ¬ IsArp c.packet
  holds : ∀ entry ∈ q.pending, entry.Holds q.calls ∧ Honest owns entry.arpRequest
  threads : ∀ t ∈ q.threads, ∃ ip, (q.pending.map Arpq.ip)[t.entry]? = some ip ∧ t.Looks ip

variable {owns : InAddr → Mac → Prop} {sr : SrInstance} {q q' : ArpSubsys} {t t' : ArpThread}
  {entry entry' : Arpq} {bytes : Nat → UInt8} {found : Option Mac} {log : List ArpLog}
  {calls : List Call} {c : Call} {f : Frame} {name : IfName} {ip : InAddr}

theorem ArpSubsys.Sound.init : arpSubsysInit.Sound owns where
  calls := fun _ h => nomatch h
  holds := fun _ h => nomatch h
  threads := fun _ h => nomatch h

/-! ## Frames of other protocols -/

theorem not_isArp_of_type {type : Nat} (htype : f.get etherType = .ok type)
    (hother : ntohs (.ofNat type) ≠ ethertypeArp) : ¬ IsArp f := by
  rintro ⟨type', htype', harp⟩
  cases htype.symm.trans htype'
  exact hother harp

theorem Honest.of_not_isArp (h : ¬ IsArp f) : Honest owns f :=
  ⟨fun harp => absurd harp h, fun harp => absurd harp h⟩

theorem isArp_of_take {n : Nat} (h : IsArp (f.take n)) : IsArp f := by
  rcases Nat.le_total f.length n with hn | hn
  · rwa [List.take_of_length_le hn] at h
  · obtain ⟨type, htype, harp⟩ := h
    have hin := Frame.get_bounds htype
    rw [List.length_take, Nat.min_eq_left hn] at hin
    rw [Frame.get_take hin hn] at htype
    exact ⟨type, htype, harp⟩

/-- The receiver of the frame does not matter. -/
theorem isArp_of_dhost {g : Frame} {mac : Mac} (hstore : f.store etherDhost.offset mac.toList = .ok g)
    (h : IsArp g) : IsArp f := by
  obtain ⟨type, htype, harp⟩ := h
  have hapart : PacketField.Apart ⟨etherDhost.offset, mac.toList.length⟩ etherType := by
    rw [Vector.length_toList]
    decide
  rw [Frame.get_store_apart hstore hapart] at htype
  exact ⟨type, htype, harp⟩

/-- A host unreachable is an IP packet. -/
theorem sendIcmp_not_isArp {packet oldEth : Frame} {tr : Transmission}
    (h : sendIcmp sr bytes packet oldEth = .ok tr) : ¬ IsArp tr.frame := by
  rw [sendIcmp_eq] at h
  obtain ⟨f₁, -, h⟩ := bind_eq_ok.mp h
  obtain ⟨f₂, -, h⟩ := bind_eq_ok.mp h
  obtain ⟨mac, -, h⟩ := bind_eq_ok.mp h
  cases hif : getIfFromMac sr mac with
  | none =>
    rw [hif] at h
    cases h
  | some iface =>
    rw [hif] at h
    obtain ⟨f₃, -, h⟩ := bind_eq_ok.mp h
    obtain ⟨f₄, hether, h⟩ := bind_eq_ok.mp h
    cases h
    obtain ⟨shost, -, hether⟩ := bind_eq_ok.mp hether
    obtain ⟨f₅, -, hether⟩ := bind_eq_ok.mp hether
    obtain ⟨f₆, -, hether⟩ := bind_eq_ok.mp hether
    intro harp
    exact not_isArp_of_type (Frame.get_set hether (by decide)) (by decide) (isArp_of_take harp)

/-- The requests of a router are honest. -/
theorem constructRequest_honest {request : Frame} (h : constructRequest sr name ip = .ok request) :
    Honest owns request := by
  cases hif : srGetInterface sr name with
  | none =>
    rw [constructRequest] at h
    obtain ⟨r₁, -, h⟩ := bind_eq_ok.mp h
    obtain ⟨r₂, -, h⟩ := bind_eq_ok.mp h
    rw [hif] at h
    cases h
  | some iface =>
    rw [constructRequest_eq hif] at h
    cases h
    exact honest_request iface.addr iface.ip ip

theorem srSendPacket_mem {tr : Transmission} (h : tr ∈ srSendPacket sr f name) : tr = ⟨f, name⟩ := by
  rw [srSendPacket] at h
  split at h
  · cases h
  · split at h
    · cases h
    · split at h
      · exact List.mem_singleton.mp h
      · cases h

/-! ## What a step keeps -/

theorem createEntry_request (h : createEntry sr ip name = .ok entry) : Honest owns entry.arpRequest := by
  obtain ⟨request, hrequest, h⟩ := bind_eq_ok.mp h
  cases h
  exact constructRequest_honest hrequest

theorem Arpq.add_arpRequest {n : Nat} (h : entry.add n c = .ok entry') :
    entry'.arpRequest = entry.arpRequest := by
  rw [Arpq.add] at h
  cases hkind : c.kind with
  | lsu =>
    rw [hkind] at h
    cases h
    rfl
  | data hdr =>
    rw [hkind] at h
    obtain ⟨buf, -, h⟩ := bind_eq_ok.mp h
    cases h
    rfl

/-- Another call, and the threads it starts. -/
theorem ArpSubsys.Sound.called (h : q.Sound owns) (hpacket : ¬ IsArp c.packet) {pending : List Arpq}
    {started : List ArpThread} {rest : List InAddr}
    (hips : pending.map Arpq.ip = q.pending.map Arpq.ip ++ rest)
    (hholds : ∀ entry ∈ pending, entry.Holds (q.calls ++ [c]) ∧ Honest owns entry.arpRequest)
    (hstarted : ∀ t ∈ started, t.pc = .creating ∧ t.entry < pending.length) :
    ArpSubsys.Sound owns ⟨pending, q.threads ++ started, q.calls ++ [c], q.log⟩ := by
  refine ⟨fun c' hc' => ?_, hholds, fun t ht => ?_⟩
  · rcases List.mem_append.mp hc' with hc' | hc'
    · exact h.calls c' hc'
    · rwa [List.mem_singleton.mp hc']
  · rcases List.mem_append.mp ht with ht | ht
    · obtain ⟨ip, hip, hlooks⟩ := h.threads t ht
      refine ⟨ip, ?_, hlooks⟩
      rw [hips, List.getElem?_append_left (List.getElem?_eq_some_iff.mp hip).1]
      exact hip
    · obtain ⟨hpc, hlt⟩ := hstarted t ht
      refine ⟨_, List.getElem?_eq_getElem (by rwa [List.length_map]), ?_⟩
      rw [ArpThread.Looks, hpc]
      trivial

theorem ArpSubsys.Sound.call (h : q.Sound owns) (hpacket : ¬ IsArp c.packet)
    (hcall : getMacAddress sr q c = .ok q') : q'.Sound owns := by
  have hkept : ∀ entry ∈ q.pending, entry.Holds (q.calls ++ [c]) ∧ Honest owns entry.arpRequest :=
    fun entry hentry => ⟨(h.holds entry hentry).1.mono [c], (h.holds entry hentry).2⟩
  rcases getMacAddress_cases hcall with ⟨e, x, x', hx, hip, hadd, -, rfl⟩ |
    ⟨e, x, x', hx, hip, hadd, -, rfl⟩ | ⟨x, x', -, hcreate, hadd, rfl⟩
  · obtain ⟨hholds, hrequest⟩ := h.holds x (List.mem_of_getElem? hx)
    have hips := map_ip_set hx (Arpq.add_spec hadd).1
    have hnew := @ArpSubsys.Sound.called owns q c h hpacket (q.pending.set e x') [] []
      (by rw [hips, List.append_nil]) ?_ (fun t ht => nomatch ht)
    · rwa [List.append_nil] at hnew
    intro entry hentry
    rcases List.mem_or_eq_of_mem_set hentry with hentry | rfl
    · exact hkept entry hentry
    · exact ⟨(Arpq.add_holds hholds hip hadd).1, by rw [Arpq.add_arpRequest hadd]; exact hrequest⟩
  · obtain ⟨hholds, hrequest⟩ := h.holds x (List.mem_of_getElem? hx)
    have hips := @map_ip_set x { x' with numRequests := 0 } q.pending e hx (Arpq.add_spec hadd).1
    refine h.called hpacket (by rw [hips, List.append_nil]) ?_ fun t ht => ?_
    · intro entry hentry
      rcases List.mem_or_eq_of_mem_set hentry with hentry | rfl
      · exact hkept entry hentry
      · have hnew := (Arpq.add_holds hholds hip hadd).1
        exact ⟨⟨hnew.packets, hnew.lsus⟩, by
          show Honest owns x'.arpRequest
          rw [Arpq.add_arpRequest hadd]
          exact hrequest⟩
    · obtain rfl := List.mem_singleton.mp ht
      exact ⟨rfl, by rw [List.length_set]; exact (List.getElem?_eq_some_iff.mp hx).1⟩
  · obtain ⟨hip, -, hpac, hlsu⟩ := createEntry_spec hcreate
    have hempty := (Arpq.empty_holds (by rw [hpac]; rfl) (by rw [hlsu]; rfl) q.calls).1
    refine h.called hpacket (by rw [List.map_append]) ?_ fun t ht => ?_
    · intro entry hentry
      rcases List.mem_append.mp hentry with hentry | hentry
      · exact hkept entry hentry
      · obtain rfl := List.mem_singleton.mp hentry
        exact ⟨(Arpq.add_holds hempty hip hadd).1, by
          rw [Arpq.add_arpRequest hadd]
          exact createEntry_request hcreate⟩
    · obtain rfl := List.mem_singleton.mp ht
      exact ⟨rfl, by simp⟩

theorem SentTo.honest {mac : Mac} {n : Nat} {tr : Transmission} (h : SentTo calls ip mac n tr)
    (hcalls : ∀ c ∈ calls, ¬ IsArp c.packet) : Honest owns tr.frame := by
  obtain ⟨c, hc, -, hstore⟩ := h
  exact .of_not_isArp fun harp => hcalls c (List.mem_of_getElem? hc) (isArp_of_dhost hstore harp)

/-- What the flush sends goes to the MAC that it reads. -/
theorem flush_sent {mac : Mac} {packs lsus : List (Nat × Transmission)} (hholds : entry.Holds calls)
    (hpacks : sendAllPacks entry.pacBuf mac name = .ok packs)
    (hlsus : sendAllLsus entry.lsuBuf mac name = .ok lsus) :
    ∀ y ∈ packs ++ lsus, SentTo calls entry.ip mac y.1 y.2 := by
  intro y hy
  rcases List.mem_append.mp hy with hy | hy
  · obtain ⟨p, hp, hcall, hstore⟩ := exists_of_forall₂ (sendAllPacks_spec hpacks) hy
    obtain ⟨c, hc, hip, hpacket, -⟩ := hholds.packets p hp
    exact ⟨c, hcall ▸ hc, hip, hpacket ▸ hstore⟩
  · obtain ⟨p, hp, hcall, hstore⟩ := exists_of_forall₂ (sendAllLsus_spec hlsus) hy
    obtain ⟨c, hc, hip, hpacket, -⟩ := hholds.lsus p hp
    exact ⟨c, hcall ▸ hc, hip, hpacket ▸ hstore⟩

/-- What goes out with the log entry is honest. -/
def ArpLog.Harmless (owns : InAddr → Mac → Prop) (sr : SrInstance) (x : ArpLog) : Prop :=
  ∀ tr ∈ x.sends sr, Honest owns tr.frame

/-- A thread that gives up answers with IP packets. -/
theorem giveUp_harmless {i : Int} {requests : Nat} (h : giveUp sr bytes i requests entry = .ok log) :
    ∀ x ∈ log, x.Harmless owns sr := by
  intro x hx
  rw [giveUp] at h
  split at h
  · obtain ⟨icmps, hicmps, h⟩ := bind_eq_ok.mp h
    obtain ⟨lsus, -, h⟩ := bind_eq_ok.mp h
    cases h
    rcases List.mem_append.mp hx with hx | hx
    · obtain ⟨y, hy, rfl⟩ := List.mem_map.mp hx
      obtain ⟨p, -, -, hicmp⟩ := exists_of_forall₂ (sendAllIcmps_spec hicmps) hy
      intro tr htr
      rw [srSendPacket_mem htr]
      exact .of_not_isArp (sendIcmp_not_isArp hicmp)
    · obtain ⟨n, -, rfl⟩ := List.mem_map.mp hx
      exact fun tr htr => absurd htr List.not_mem_nil
  · cases h
    cases hx

/-- A thread that gives up sends no queued packet. -/
theorem giveUp_transmits {i : Int} {requests n : Nat} {tr : Transmission}
    (h : giveUp sr bytes i requests entry = .ok log) : .transmitted n tr ∉ log := by
  intro hmem
  rw [giveUp] at h
  split at h
  · obtain ⟨icmps, -, h⟩ := bind_eq_ok.mp h
    obtain ⟨lsus, -, h⟩ := bind_eq_ok.mp h
    cases h
    rcases List.mem_append.mp hmem with hmem | hmem
    · obtain ⟨y, -, heq⟩ := List.mem_map.mp hmem
      cases heq
    · obtain ⟨y, -, heq⟩ := List.mem_map.mp hmem
      cases heq
  · cases h
    cases hmem

/-- A section of a thread, whatever MAC it reads. -/
theorem arpReqInit_sound (hcalls : ∀ c ∈ calls, ¬ IsArp c.packet) (hholds : entry.Holds calls)
    (hrequest : Honest owns entry.arpRequest) (hlooks : t.Looks entry.ip)
    (hrun : arpReqInit sr bytes found t entry = .ok (t', entry', log)) :
    t'.entry = t.entry ∧ entry'.ip = entry.ip ∧ entry'.arpRequest = entry.arpRequest ∧
      entry'.Holds calls ∧ t'.Looks entry.ip ∧ ∀ x ∈ log, x.Harmless owns sr := by
  have hquiet : ∀ x ∈ ([] : List ArpLog), x.Harmless owns sr := fun x hx => absurd hx List.not_mem_nil
  have hasks : ∀ x ∈ [ArpLog.requested ⟨entry.arpRequest, entry.ifaceName⟩], x.Harmless owns sr := by
    intro x hx tr htr
    obtain rfl := List.mem_singleton.mp hx
    rw [srSendPacket_mem htr]
    exact hrequest
  cases arpReqInit_section hrun with
  | create hpc => exact ⟨rfl, rfl, rfl, hholds, trivial, hquiet⟩
  | first hpc => exact ⟨rfl, rfl, rfl, hholds, trivial, hasks⟩
  | loop hpc hloop => exact ⟨rfl, rfl, rfl, hholds, rfl, hquiet⟩
  | miss hpc hnone => exact ⟨rfl, rfl, rfl, hholds, trivial, hquiet⟩
  | request hpc => exact ⟨rfl, rfl, rfl, ⟨hholds.packets, hholds.lsus⟩, trivial, hasks⟩
  | done hpc => exact ⟨rfl, rfl, rfl, hholds, hlooks, hquiet⟩
  | resolve hpc hmac =>
    refine ⟨rfl, rfl, rfl, hholds, trivial, fun x hx tr htr => ?_⟩
    obtain rfl := List.mem_singleton.mp hx
    exact absurd htr List.not_mem_nil
  | flush hpc hpacks hlsus =>
    refine ⟨rfl, rfl, rfl, (Arpq.empty_holds rfl rfl calls).1, trivial, fun x hx tr htr => ?_⟩
    obtain ⟨y, hy, rfl⟩ := List.mem_map.mp hx
    rw [srSendPacket_mem htr]
    exact (flush_sent hholds hpacks hlsus y hy).honest hcalls
  | leave hpc hloop hfates =>
    exact ⟨rfl, rfl, rfl, (Arpq.empty_holds rfl rfl calls).1, trivial, giveUp_harmless hfates⟩

/-- Only the flush sends queued packets. -/
theorem arpReqInit_transmits (hholds : entry.Holds calls)
    (hrun : arpReqInit sr bytes found t entry = .ok (t', entry', log)) {n : Nat} {tr : Transmission}
    (hmem : .transmitted n tr ∈ log) : ∃ i mac, t.pc = .flush i mac ∧ SentTo calls entry.ip mac n tr := by
  cases arpReqInit_section hrun with
  | create hpc | loop hpc hloop | miss hpc hnone | done hpc => exact absurd hmem List.not_mem_nil
  | first hpc | request hpc | resolve hpc hmac => cases List.mem_singleton.mp hmem
  | leave hpc hloop hfates => exact absurd hmem (giveUp_transmits hfates)
  | flush hpc hpacks hlsus =>
    obtain ⟨y, hy, heq⟩ := List.mem_map.mp hmem
    cases heq
    exact ⟨_, _, hpc, flush_sent hholds hpacks hlsus y hy⟩

/-- A thread comes to the flush when `search_cache` has found a MAC. -/
theorem arpReqInit_found (hrun : arpReqInit sr bytes found t entry = .ok (t', entry', log)) {i : Int}
    {mac : Mac} (hpc' : t'.pc = .flush i mac) :
    t'.entry = t.entry ∧ ∃ i temp, t.pc = .search i temp ∧ found = some mac := by
  cases arpReqInit_section hrun with
  | create hpc | first hpc | loop hpc hloop | leave hpc hloop hfates | miss hpc hnone | flush hpc hpacks hlsus
  | request hpc => cases hpc'
  | done hpc =>
    rw [hpc] at hpc'
    cases hpc'
  | resolve hpc hmac =>
    cases hpc'
    exact ⟨rfl, _, _, hpc, hmac⟩

theorem ArpSubsys.Sound.thread (h : q.Sound owns) {k : Nat}
    (hstep : q.step sr (.thread k found bytes) = .ok q') :
    q'.Sound owns ∧ q'.pending.map Arpq.ip = q.pending.map Arpq.ip ∧
      ∃ log, q'.log = q.log ++ log ∧ ∀ x ∈ log, x.Harmless owns sr := by
  rcases step_thread_cases hstep with rfl |
    ⟨t, entry, t', entry', log, ht, -, hentry, hrun, rfl⟩
  · exact ⟨h, rfl, [], (List.append_nil _).symm, fun x hx => nomatch hx⟩
  · obtain ⟨ip, hip, hlooks⟩ := h.threads t (List.mem_of_getElem? ht)
    rw [List.getElem?_map, hentry] at hip
    obtain rfl := Option.some.inj hip
    obtain ⟨hholds, hrequest⟩ := h.holds entry (List.mem_of_getElem? hentry)
    obtain ⟨hplace, hip', hrequest', hholds', hlooks', hlog⟩ :=
      arpReqInit_sound h.calls hholds hrequest hlooks hrun
    have hips := map_ip_set hentry hip'
    refine ⟨⟨h.calls, fun x hx => ?_, fun u hu => ?_⟩, hips, log, rfl, hlog⟩
    · rcases List.mem_or_eq_of_mem_set hx with hx | rfl
      · exact h.holds x hx
      · exact ⟨hholds', by rwa [hrequest']⟩
    · show ∃ ip, ((q.pending.set t.entry entry').map Arpq.ip)[u.entry]? = some ip ∧ _
      rw [hips]
      rcases List.mem_or_eq_of_mem_set hu with hu | rfl
      · exact h.threads u hu
      · exact ⟨entry.ip, by rw [hplace, List.getElem?_map, hentry]; rfl, hlooks'⟩

/-- What a thread sends of the queue, in its next section. -/
theorem ArpSubsys.Sound.transmits (h : q.Sound owns) {k : Nat}
    (hstep : q.step sr (.thread k found bytes) = .ok q') (hlog : q'.log = q.log ++ log) {n : Nat}
    {tr : Transmission} (hmem : .transmitted n tr ∈ log) :
    ∃ t i mac ip, q.threads[k]? = some t ∧ t.pc = .flush i mac ∧
      (q.pending.map Arpq.ip)[t.entry]? = some ip ∧ SentTo q.calls ip mac n tr := by
  rcases step_thread_cases hstep with rfl |
    ⟨t, entry, t', entry', log', ht, -, hentry, hrun, rfl⟩
  · obtain rfl := List.self_eq_append_right.mp hlog
    cases hmem
  · obtain rfl := List.append_cancel_left hlog
    obtain ⟨hholds, -⟩ := h.holds entry (List.mem_of_getElem? hentry)
    obtain ⟨i, mac, hpc, hsent⟩ := arpReqInit_transmits hholds hrun hmem
    exact ⟨t, i, mac, entry.ip, ht, hpc, by rw [List.getElem?_map, hentry]; rfl, hsent⟩

/-- The threads that are in front of the flush after a section. -/
theorem step_thread_found {k : Nat} (hstep : q.step sr (.thread k found bytes) = .ok q') {j : Nat}
    {i : Int} {mac : Mac} (ht' : q'.threads[j]? = some t') (hpc : t'.pc = .flush i mac) :
    q.threads[j]? = some t' ∨ j = k ∧ ∃ t i temp, q.threads[k]? = some t ∧ t.entry = t'.entry ∧
      t.pc = .search i temp ∧ found = some mac := by
  rcases step_thread_cases hstep with rfl |
    ⟨t, entry, t'', entry', log, ht, -, hentry, hrun, rfl⟩
  · exact .inl ht'
  · rcases Nat.decEq k j with hne | rfl
    · rw [List.getElem?_set_ne hne] at ht'
      exact .inl ht'
    · rw [List.getElem?_set_self (List.getElem?_eq_some_iff.mp ht).1] at ht'
      cases ht'
      obtain ⟨hplace, i', temp, hsearch, hmac⟩ := arpReqInit_found hrun hpc
      exact .inr ⟨rfl, t, i', temp, ht, hplace.symm, hsearch, hmac⟩

/-! ## Reading the MAC -/

section Reads

variable {k : Nat} {mac mac' : Mac} {i : Int}

theorem ArpThread.reads_entry (mac : Mac) (t : ArpThread) : (t.reads mac).entry = t.entry := by
  rw [ArpThread.reads]
  split <;> rfl

theorem ArpThread.Looks.reads (h : t.Looks ip) (mac : Mac) : (t.reads mac).Looks ip := by
  rw [ArpThread.reads]
  split
  · trivial
  · exact h

theorem ArpSubsys.reads_getElem? (q : ArpSubsys) (k : Nat) (mac : Mac) (j : Nat) :
    (q.reads k mac).threads[j]? = (q.threads[j]?).map fun t => if k = j then t.reads mac else t := by
  exact List.getElem?_modify (ArpThread.reads mac) k q.threads j

theorem ArpSubsys.Sound.reads (h : q.Sound owns) (k : Nat) (mac : Mac) : (q.reads k mac).Sound owns := by
  refine ⟨h.calls, h.holds, fun t' ht' => ?_⟩
  obtain ⟨j, hj⟩ := List.mem_iff_getElem?.mp ht'
  rw [ArpSubsys.reads_getElem?] at hj
  obtain ⟨t, ht, rfl⟩ := Option.map_eq_some_iff.mp hj
  obtain ⟨ip, hip, hlooks⟩ := h.threads t (List.mem_of_getElem? ht)
  split
  · exact ⟨ip, by rwa [ArpThread.reads_entry], hlooks.reads mac⟩
  · exact ⟨ip, hip, hlooks⟩

theorem ArpThread.reads_flush (hpc : (t.reads mac).pc = .flush i mac') :
    mac' = mac ∧ ∃ mac'', t.pc = .flush i mac'' := by
  rw [ArpThread.reads] at hpc
  split at hpc
  · next j mac'' hat =>
    cases hpc
    exact ⟨rfl, mac'', hat⟩
  · next hnot => exact absurd hpc (hnot _ _)

theorem ArpThread.reads_search {temp : InAddr} (hpc : (t.reads mac).pc = .search i temp) :
    t.pc = .search i temp := by
  rw [ArpThread.reads] at hpc
  split at hpc
  · cases hpc
  · exact hpc

/-- Threads stay where they are, and one that is in front of the flush has what it has read. -/
theorem ArpSubsys.reads_thread {j : Nat} (ht' : (q.reads k mac).threads[j]? = some t') :
    ∃ t, q.threads[j]? = some t ∧ t.entry = t'.entry ∧
      (∀ i temp, t'.pc = .search i temp → t.pc = .search i temp) ∧
      ∀ i mac', t'.pc = .flush i mac' → (k = j → mac' = mac) ∧ ∃ mac'', t.pc = .flush i mac'' := by
  rw [ArpSubsys.reads_getElem?] at ht'
  obtain ⟨t, ht, heq⟩ := Option.map_eq_some_iff.mp ht'
  by_cases hj : k = j
  · rw [if_pos hj] at heq
    subst heq
    refine ⟨t, ht, (ArpThread.reads_entry mac t).symm, fun i temp => ArpThread.reads_search, ?_⟩
    intro i mac' hpc
    obtain ⟨hread, hat⟩ := ArpThread.reads_flush hpc
    exact ⟨fun _ => hread, hat⟩
  · rw [if_neg hj] at heq
    subst heq
    exact ⟨t, ht, rfl, fun i temp => id, fun i mac' hpc => ⟨fun heq => absurd heq hj, mac', hpc⟩⟩

end Reads

/-! ## The network -/

section Net

variable {cfg : VnsConfig} {host : VnsHost} {env : Env} {st st' : Station} {p : Frame × IfName}
  {sent : List Transmission}

/-- A thread in front of the flush has found the entry of the owner. -/
def Station.Finds (owns : InAddr → Mac → Prop) (st : Station) : Prop :=
  ∀ j t i mac, st.queue.threads[j]? = some t → t.pc = .flush i mac →
    ∃ e, st.pointers.lookup j = some e ∧
      (st.queue.pending.map Arpq.ip)[t.entry]? = some e.ipAdd ∧ owns e.ipAdd e.mac

/-- The router takes commands, its addresses are its own, and what it remembers is right. -/
structure Station.Sound (owns : InAddr → Mac → Prop) (st : Station) : Prop where
  running : st.client.phase = .running
  own : ∀ iface ∈ st.client.sr.ifList, owns iface.ip iface.addr
  cache : CacheOwned owns st.cache
  queue : st.queue.Sound owns
  finds : st.Finds owns

theorem mem_ifList {iface : SrIf} (h : srGetInterface sr name = some iface) : iface ∈ sr.ifList :=
  List.mem_of_find?_eq_some h

theorem Station.Sound.receive (h : st.Sound owns) (hf : Honest owns p.1) (hp : Arrives st.client.sr p)
    (hrun : st.receive cfg host env p = .ok (st', sent)) :
    st'.Sound owns ∧ ∀ t ∈ sent, Honest owns t.frame := by
  obtain ⟨iface, hif⟩ := hp.known
  rw [Station.receive_eq h.running hp hif] at hrun
  by_cases hfor : NotForUs iface p.1
  · rw [if_pos hfor] at hrun
    cases hrun
    exact ⟨h, fun t ht => nomatch ht⟩
  · rw [if_neg hfor] at hrun
    obtain ⟨out, hout, hrun⟩ := bind_eq_ok.mp hrun
    obtain ⟨hcache, hsent⟩ :=
      srHandlepacketArp_honest hif (h.own iface (mem_ifList hif)) hf hfor h.cache hout
    cases hrun
    exact ⟨⟨h.running, h.own, hcache, h.queue, h.finds⟩, hsent⟩

/-- A call starts at most one thread, which has not looked anything up. -/
theorem getMacAddress_threads (hcall : getMacAddress sr q c = .ok q') {j : Nat} {i : Int} {mac : Mac}
    (ht : q'.threads[j]? = some t) (hpc : t.pc = .flush i mac) :
    q.threads[j]? = some t ∧ ∀ ip, (q.pending.map Arpq.ip)[t.entry]? = some ip →
      (q'.pending.map Arpq.ip)[t.entry]? = some ip := by
  have hold : ∀ {e : Nat}, (q.threads ++ [⟨e, .creating, 0⟩])[j]? = some t → q.threads[j]? = some t := by
    intro e hj
    rcases Nat.lt_or_ge j q.threads.length with hlt | hge
    · rwa [List.getElem?_append_left hlt] at hj
    · rw [List.getElem?_append_right hge] at hj
      obtain rfl := List.mem_singleton.mp (List.mem_of_getElem? hj)
      cases hpc
  rcases getMacAddress_cases hcall with ⟨e, x, x', hx, hip, hadd, -, rfl⟩ |
    ⟨e, x, x', hx, hip, hadd, -, rfl⟩ | ⟨x, x', -, hcreate, hadd, rfl⟩
  · refine ⟨ht, fun ip hmem => ?_⟩
    rwa [map_ip_set hx (Arpq.add_spec hadd).1]
  · refine ⟨hold ht, fun ip hmem => ?_⟩
    rwa [@map_ip_set x { x' with numRequests := 0 } q.pending e hx (Arpq.add_spec hadd).1]
  · refine ⟨hold ht, fun ip hmem => ?_⟩
    rw [List.map_append, List.getElem?_append_left (List.getElem?_eq_some_iff.mp hmem).1]
    exact hmem

theorem Station.Sound.hand (h : st.Sound owns) (hpacket : ¬ IsArp c.packet)
    (hcall : getMacAddress st.client.sr st.queue c = .ok q') :
    Station.Sound owns { st with queue := q' } := by
  refine ⟨h.running, h.own, h.cache, h.queue.call hpacket hcall, fun j t i mac ht hpc => ?_⟩
  obtain ⟨hold, hips⟩ := getMacAddress_threads hcall ht hpc
  obtain ⟨e, hpointer, hip, hown⟩ := h.finds j t i mac hold hpc
  exact ⟨e, hpointer, hips _ hip, hown⟩

theorem CacheOwned.search {cache : List ArpCacheEntry} (h : CacheOwned owns cache)
    (clock : Nat → Time) (ip : InAddr) : CacheOwned owns (searchCache cache clock ip).1 := by
  intro e he
  rw [searchCache_fst] at he
  exact h e ((unexpired_sublist _ _).mem he)

/-- The entry that is found is the one of the owner. -/
theorem CacheOwned.searched {cache : List ArpCacheEntry} (h : CacheOwned owns cache)
    {clock : Nat → Time} {ip : InAddr} {e : ArpCacheEntry} (hfound : searchedEntry cache clock ip = some e) :
    e.ipAdd = ip ∧ owns e.ipAdd e.mac := by
  rw [searchedEntry] at hfound
  have hip := List.find?_some hfound
  exact ⟨(of_decide_eq_true hip).symm, h.search clock ip e (List.mem_of_find?_eq_some hfound)⟩

theorem Station.search_owned (h : CacheOwned owns st.cache) (k : Nat) (clock : Nat → Time) :
    CacheOwned owns (st.search k clock).1 := by
  rw [Station.search]
  split
  · next i temp hpc => exact h.search clock temp
  · exact h

/-- Only a thread that asks finds something. -/
theorem Station.search_some {k : Nat} {clock : Nat → Time} {e : ArpCacheEntry}
    (hfound : (st.search k clock).2 = some e) : ∃ t i temp, st.queue.threads[k]? = some t ∧
      t.pc = .search i temp ∧ searchedEntry st.cache clock temp = some e := by
  rw [Station.search] at hfound
  split at hfound
  · next i temp hpc =>
    obtain ⟨t, ht, hat⟩ := Option.map_eq_some_iff.mp hpc
    exact ⟨t, i, temp, ht, hat, hfound⟩
  · cases hfound

/-- A section, the entry that is found in it, and what it does to the queue. -/
theorem Station.work_eq {k : Nat} {clock : Nat → Time} {stale : Mac}
    (hrun : st.work k clock bytes stale = .ok (st', sent)) :
    ∃ queue, (st.queue.reads k (st.behind k stale)).step st.client.sr
        (.thread k ((st.search k clock).2.map ArpCacheEntry.mac) bytes) = .ok queue ∧
      st' = ⟨st.client, (st.search k clock).1, queue,
        ((st.search k clock).2.map fun e => (k, e)).toList ++ st.pointers⟩ ∧
      sent = (queue.log.drop st.queue.log.length).flatMap (ArpLog.sends st.client.sr) := by
  obtain ⟨queue, hstep, hrun⟩ := bind_eq_ok.mp hrun
  cases hrun
  exact ⟨queue, hstep, rfl, rfl⟩

/-- What another thread finds does not change the pointer of one in front of the flush. -/
theorem Station.lookup_pointers {j k : Nat} {clock : Nat → Time} {i : Int} {mac : Mac}
    (ht : st.queue.threads[j]? = some t) (hpc : t.pc = .flush i mac) :
    (((st.search k clock).2.map fun e => (k, e)).toList ++ st.pointers).lookup j =
      st.pointers.lookup j := by
  cases hfound : (st.search k clock).2 with
  | none => rfl
  | some e =>
    obtain ⟨u, i', temp, hu, hasks, -⟩ := Station.search_some hfound
    have hne : j ≠ k := by
      rintro rfl
      cases ht.symm.trans hu
      cases hpc.symm.trans hasks
    show List.lookup j ((k, e) :: st.pointers) = _
    rw [List.lookup_cons, beq_false_of_ne hne]

theorem Station.Finds.work (h : st.Sound owns) {k : Nat} {clock : Nat → Time} {stale : Mac}
    (hrun : st.work k clock bytes stale = .ok (st', sent)) : st'.Finds owns := by
  obtain ⟨queue, hstep, rfl, -⟩ := Station.work_eq hrun
  obtain ⟨-, hips, -⟩ := (h.queue.reads k (st.behind k stale)).thread hstep
  intro j t' i mac ht' hpc
  show ∃ e : ArpCacheEntry, _ ∧ (queue.pending.map Arpq.ip)[t'.entry]? = some e.ipAdd ∧ _
  rw [hips]
  rcases step_thread_found hstep ht' hpc with hold | ⟨rfl, u, i', temp, hu, hplace, hsearch, hmac⟩
  · obtain ⟨t, ht, hplace, -, hflush⟩ := ArpSubsys.reads_thread hold
    obtain ⟨-, mac', hat⟩ := hflush i mac hpc
    obtain ⟨e, hpointer, hip, hown⟩ := h.finds j t i mac' ht hat
    exact ⟨e, (Station.lookup_pointers ht hat).trans hpointer, hplace ▸ hip, hown⟩
  · -- it has just found the entry
    obtain ⟨t, ht, hplace', hasked, -⟩ := ArpSubsys.reads_thread hu
    have hat := hasked i' temp hsearch
    obtain ⟨e, hfound, rfl⟩ := Option.map_eq_some_iff.mp hmac
    obtain ⟨v, i'', temp', hv, hasks, hentry⟩ := Station.search_some hfound
    cases ht.symm.trans hv
    cases hat.symm.trans hasks
    obtain ⟨hip, hown⟩ := h.cache.searched hentry
    obtain ⟨ip, hplaced, hlooks⟩ := h.queue.threads t (List.mem_of_getElem? ht)
    rw [ArpThread.Looks, hat] at hlooks
    refine ⟨e, ?_, ?_, hown⟩
    · show List.lookup j (((st.search j clock).2.map fun e => (j, e)).toList ++ st.pointers) = some e
      rw [hfound]
      exact List.lookup_cons_self
    · rw [← hplace, ← hplace', hip, hlooks]
      exact hplaced

theorem Station.Sound.work (h : st.Sound owns) {k : Nat} {clock : Nat → Time} {stale : Mac}
    (hrun : st.work k clock bytes stale = .ok (st', sent)) :
    st'.Sound owns ∧ ∀ t ∈ sent, Honest owns t.frame := by
  have hfinds := Station.Finds.work h hrun
  obtain ⟨queue, hstep, rfl, rfl⟩ := Station.work_eq hrun
  obtain ⟨hqueue, -, log, hlog, hsent⟩ := (h.queue.reads k (st.behind k stale)).thread hstep
  refine ⟨⟨h.running, h.own, Station.search_owned h.cache k clock, hqueue, hfinds⟩, fun t ht => ?_⟩
  rw [hlog] at ht
  obtain ⟨x, hx, ht⟩ := List.mem_flatMap.mp ht
  rw [show (st.queue.reads k (st.behind k stale)).log = st.queue.log from rfl, List.drop_left] at hx
  exact hsent x hx t ht

/-- A section that reads through its pointer while the entry is in the cache. -/
theorem Station.Sound.transmits (h : st.Sound owns) {k : Nat} {clock : Nat → Time} {stale : Mac}
    (hrun : st.work k clock bytes stale = .ok (st', sent))
    (hkept : ∀ e, st.pointers.lookup k = some e → e ∈ st.cache) :
    ∃ log, st'.queue.log = st.queue.log ++ log ∧ sent = log.flatMap (ArpLog.sends st.client.sr) ∧
      ∀ n tr, .transmitted n tr ∈ log → ∃ c mac, st.queue.calls[n]? = some c ∧ owns c.nextHop mac ∧
        c.packet.store etherDhost.offset mac.toList = .ok tr.frame := by
  obtain ⟨queue, hstep, rfl, rfl⟩ := Station.work_eq hrun
  have hreads := h.queue.reads k (st.behind k stale)
  obtain ⟨-, -, log, hlog, -⟩ := hreads.thread hstep
  refine ⟨log, hlog, ?_, fun n tr hmem => ?_⟩
  · rw [hlog, show (st.queue.reads k (st.behind k stale)).log = st.queue.log from rfl, List.drop_left]
  · obtain ⟨t', i, mac, ip, ht', hpc, hip, c, hc, rfl, hstore⟩ := hreads.transmits hstep hlog hmem
    obtain ⟨t, ht, hplace, -, hflush⟩ := ArpSubsys.reads_thread ht'
    obtain ⟨hread, mac', hat⟩ := hflush i mac hpc
    obtain ⟨e, hpointer, hip', hown⟩ := h.finds k t i mac' ht hat
    rw [hplace] at hip'
    have hnext : e.ipAdd = c.nextHop := Option.some.inj (hip'.symm.trans hip)
    have hmac : st.behind k stale = e.mac := by
      rw [Station.behind, hpointer]
      exact if_pos (hkept e hpointer)
    rw [hread rfl, hmac] at hstore
    exact ⟨c, e.mac, hc, hnext ▸ hown, hstore⟩

variable {ι : Type*} [DecidableEq ι] {N N' : Network ι}

structure Network.Sound {ι : Type*} (owns : InAddr → Mac → Prop) (N : Network ι) : Prop where
  stations : ∀ i, (N.stations i).Sound owns
  wire : ∀ f ∈ N.wire, Honest owns f

theorem Network.Sound.set (h : N.Sound owns) (i : ι) (hst : st.Sound owns)
    (hsent : ∀ t ∈ sent, Honest owns t.frame) : (N.set i st sent).Sound owns := by
  refine ⟨fun j => ?_, fun f hf => ?_⟩
  · show (Function.update N.stations i st j).Sound owns
    by_cases hj : j = i
    · subst hj
      rwa [Function.update_self]
    · rw [Function.update_of_ne hj]
      exact h.stations j
  · rcases List.mem_append.mp hf with hf | hf
    · exact h.wire f hf
    · obtain ⟨t, ht, rfl⟩ := List.mem_map.mp hf
      exact hsent t ht

theorem Network.Sound.step (h : N.Sound owns) (hstep : StationStep owns N N') : N'.Sound owns := by
  cases hstep with
  | receives i hsent harrives hreceive =>
    obtain ⟨hst, hanswers⟩ := (h.stations i).receive (h.wire _ hsent) harrives hreceive
    exact h.set i hst hanswers
  | looksUp i clock ip =>
    have hst := h.stations i
    have hcache := hst.cache.search clock ip
    exact h.set i ⟨hst.running, hst.own, hcache, hst.queue, hst.finds⟩ fun t ht => nomatch ht
  | hands i hpacket hcall =>
    exact h.set i ((h.stations i).hand hpacket hcall) fun t ht => nomatch ht
  | works i hwork =>
    obtain ⟨hst, hsent⟩ := (h.stations i).work hwork
    exact h.set i hst hsent
  | speaks hf =>
    refine ⟨h.stations, fun g hg => (List.mem_append.mp hg).elim (h.wire g) fun hg => ?_⟩
    obtain rfl := List.mem_singleton.mp hg
    exact hf

theorem Network.Sound.run (hN : N.Sound owns) (h : Relation.ReflTransGen (StationStep owns) N N') :
    N'.Sound owns := by
  induction h with
  | refl => exact hN
  | tail _ hstep ih => exact ih.step hstep

/-- In every run, whoever asks, whatever is lost, repeated or reordered: the address that a router looks
up is the one of the owner. -/
theorem arp_sound (hN : N.Sound owns) (h : Relation.ReflTransGen (StationStep owns) N N') (i : ι)
    (clock : Nat → Time) (ip : InAddr) (mac : Mac)
    (hfound : (searchCache (N'.stations i).cache clock ip).2 = some mac) : owns ip mac := by
  obtain ⟨e, he, rfl, rfl⟩ := searchCache_some hfound
  exact ((hN.run h).stations i).cache e ((unexpired_sublist _ _).mem he)

/-- In every run, whatever other threads have read: if the entry that was found for a thread is still in
the cache when it reads the MAC, every packet that it sends of its queue goes to the owner of the next hop,
and is otherwise as it was handed over. -/
theorem queued_to_owner (hN : N.Sound owns) (h : Relation.ReflTransGen (StationStep owns) N N') (i : ι)
    {k : Nat} {clock : Nat → Time} {stale : Mac}
    (hwork : (N'.stations i).work k clock bytes stale = .ok (st, sent))
    (hkept : ∀ e, (N'.stations i).pointers.lookup k = some e → e ∈ (N'.stations i).cache) :
    ∃ log, st.queue.log = (N'.stations i).queue.log ++ log ∧
      sent = log.flatMap (ArpLog.sends (N'.stations i).client.sr) ∧
      ∀ n tr, .transmitted n tr ∈ log → ∃ c mac, (N'.stations i).queue.calls[n]? = some c ∧
        owns c.nextHop mac ∧ c.packet.store etherDhost.offset mac.toList = .ok tr.frame :=
  ((hN.run h).stations i).transmits hwork hkept

end Net

section Demo

def demoOwns (ip : InAddr) (mac : Mac) : Prop :=
  ip = 0x0100000a ∧ mac = Vector.replicate 6 2 ∨ ip = 0x0200000a ∧ mac = Vector.replicate 6 4

/-- One router and what was sent. -/
def demoNetwork (st : Station) (wire : List Frame) : Network Unit := ⟨fun _ => st, wire⟩

theorem demoNetwork_set (st st' : Station) (wire : List Frame) (sent : List Transmission) :
    (demoNetwork st wire).set () st' sent = demoNetwork st' (wire ++ sent.map Transmission.frame) := by
  rw [Network.set, demoNetwork, demoNetwork, Network.mk.injEq]
  exact ⟨funext fun _ => Function.update_self _ _ _, rfl⟩

theorem demoNetwork_sound : (demoNetwork (demoStation (Vector.replicate 6 2) 0x0100000a) []).Sound
    demoOwns := by
  refine ⟨fun _ => ⟨rfl, fun iface hmem => ?_, fun e he => (nomatch he), .init,
    fun j t i mac ht => (nomatch ht)⟩, fun f hf => nomatch hf⟩
  obtain rfl := List.mem_singleton.mp hmem
  exact Or.inl ⟨rfl, rfl⟩

/-- The router, when the reply of the neighbor has come in. -/
def demoLearned : Station :=
  ⟨⟨.running, demoArpHost, [.handles (demoArpFrame 2 [10, 0, 0, 2]) eth0Interface]⟩,
    [⟨0x0200000a, Vector.replicate 6 4, 15⟩], arpSubsysInit, []⟩

theorem demoLearned_run : Relation.ReflTransGen (StationStep demoOwns)
    (demoNetwork (demoStation (Vector.replicate 6 2) 0x0100000a) [])
    (demoNetwork demoLearned [demoArpFrame 2 [10, 0, 0, 2]]) := by
  have hhonest : Honest demoOwns (demoArpFrame 2 [10, 0, 0, 2]) := by
    have hrep : HasArp arpReply (demoArpFrame 2 [10, 0, 0, 2]) :=
      ⟨by decide, 0x0200, by decide, by decide⟩
    refine ⟨fun _ hreq => absurd hreq hrep.not_request, fun _ _ sip hsip => ?_⟩
    have hvalue : (demoArpFrame 2 [10, 0, 0, 2]).get arSip = .ok 0x0200000a := by decide
    obtain rfl := Except.ok.inj (hsip.symm.trans hvalue)
    exact Or.inr ⟨by decide, by decide⟩
  have hreceive : (demoStation (Vector.replicate 6 2) 0x0100000a).receive demoConfig demoHost demoArpEnv
      (demoArpFrame 2 [10, 0, 0, 2], eth0Interface) = .ok (demoLearned, []) := by
    decide +kernel
  have hfirst := @StationStep.speaks Unit _ demoOwns
    (demoNetwork (demoStation (Vector.replicate 6 2) 0x0100000a) []) _ hhonest
  have hsecond := @StationStep.receives Unit _ demoOwns
    (demoNetwork (demoStation (Vector.replicate 6 2) 0x0100000a) [demoArpFrame 2 [10, 0, 0, 2]]) ()
    demoConfig demoHost demoArpEnv (demoArpFrame 2 [10, 0, 0, 2], eth0Interface) _ _
    List.mem_cons_self ⟨by decide, by decide, _, rfl⟩ hreceive
  rw [demoNetwork_set, List.map_nil, List.append_nil] at hsecond
  exact (Relation.ReflTransGen.single hfirst).tail hsecond

/-- The reply of the neighbor comes in. -/
theorem arp_sound_demo : ∃ N : Network Unit,
    Relation.ReflTransGen (StationStep demoOwns)
      (demoNetwork (demoStation (Vector.replicate 6 2) 0x0100000a) []) N ∧
    (searchCache (N.stations ()).cache (fun _ => 0) 0x0200000a).2 = some (Vector.replicate 6 4) ∧
    demoOwns 0x0200000a (Vector.replicate 6 4) :=
  ⟨_, demoLearned_run, by decide,
    arp_sound demoNetwork_sound demoLearned_run () (fun _ => 0) 0x0200000a _ (by decide)⟩

/-- Sections of the first thread, one after another. -/
def demoWorks (st : Station) : Nat → Exec Station
  | 0 => .ok st
  | n + 1 => do
    let st ← demoWorks st n
    return (← st.work 0 (fun _ => 0) (fun _ => 0) (Vector.replicate 6 0)).1

theorem demoWorks_run {st st' : Station} {n : Nat} (wire : List Frame)
    (h : demoWorks st n = .ok st') :
    ∃ wire', Relation.ReflTransGen (StationStep demoOwns) (demoNetwork st wire)
      (demoNetwork st' wire') := by
  induction n generalizing st' with
  | zero =>
    cases h
    exact ⟨wire, .refl⟩
  | succ n ih =>
    obtain ⟨st₁, h₁, h⟩ := bind_eq_ok.mp h
    obtain ⟨⟨st₂, sent⟩, hwork, h⟩ := bind_eq_ok.mp h
    cases h
    obtain ⟨wire₁, hrun⟩ := ih h₁
    have hstep := @StationStep.works Unit _ demoOwns (demoNetwork st₁ wire₁) () 0 _ _ _ _ _ hwork
    rw [demoNetwork_set] at hstep
    exact ⟨_, hrun.tail hstep⟩

/-- An IP packet for the neighbor. -/
def demoNeighborCall : Call :=
  ⟨0x0200000a, List.replicate 12 0 ++ [8, 0] ++ List.replicate 46 1, eth0Interface, .lsu⟩

/-- The thread has found the MAC. -/
def demoQueued : Exec Station := do
  let queue ← getMacAddress demoArpHost arpSubsysInit demoNeighborCall
  demoWorks { demoLearned with queue := queue } 4

/-- The packet with the MAC of the neighbor. -/
def demoTransmission : Transmission :=
  ⟨List.replicate 6 4 ++ List.replicate 6 0 ++ [8, 0] ++ List.replicate 46 1, eth0Interface⟩

/-- The entry is still there, and the packet goes to the neighbor. -/
theorem queued_to_owner_demo : ∃ (N : Network Unit) (st : Station) (sent : List Transmission),
    Relation.ReflTransGen (StationStep demoOwns)
      (demoNetwork (demoStation (Vector.replicate 6 2) 0x0100000a) []) N ∧
    (N.stations ()).work 0 (fun _ => 0) (fun _ => 0) (Vector.replicate 6 0) = .ok (st, sent) ∧
    st.queue.log = (N.stations ()).queue.log ++ [.transmitted 0 demoTransmission] ∧
    ∃ c mac, (N.stations ()).queue.calls[0]? = some c ∧ demoOwns c.nextHop mac ∧
      c.packet.store etherDhost.offset mac.toList = .ok demoTransmission.frame := by
  have hrun : (do
      let st ← demoQueued
      let x ← st.work 0 (fun _ => 0) (fun _ => 0) (Vector.replicate 6 0)
      return (st.pointers, st.cache,
        decide (x.1.queue.log = st.queue.log ++ [ArpLog.transmitted 0 demoTransmission]))) =
      .ok ([(0, ⟨0x0200000a, Vector.replicate 6 4, 15⟩)], [⟨0x0200000a, Vector.replicate 6 4, 15⟩],
        true) := by
    decide +kernel
  obtain ⟨st, hq, hrun⟩ := bind_eq_ok.mp hrun
  obtain ⟨⟨st', sent⟩, hwork, hrun⟩ := bind_eq_ok.mp hrun
  have hparts := Prod.mk.inj (Except.ok.inj hrun)
  obtain ⟨hcache, hnew⟩ := Prod.mk.inj hparts.2
  have hlog := of_decide_eq_true hnew
  have hkept : ∀ e, st.pointers.lookup 0 = some e → e ∈ st.cache := by
    intro e hpointer
    rw [hparts.1, List.lookup_cons_self] at hpointer
    rw [hcache, ← Option.some.inj hpointer]
    exact List.mem_cons_self
  obtain ⟨queue, hcall, hworks⟩ := bind_eq_ok.mp hq
  have hpacket : ¬ IsArp demoNeighborCall.packet :=
    @not_isArp_of_type demoNeighborCall.packet 8 (by decide) (by decide)
  have hhand := @StationStep.hands Unit _ demoOwns
    (demoNetwork demoLearned [demoArpFrame 2 [10, 0, 0, 2]]) () _ _ hpacket hcall
  rw [demoNetwork_set, List.map_nil, List.append_nil] at hhand
  obtain ⟨wire, hrun⟩ := demoWorks_run [demoArpFrame 2 [10, 0, 0, 2]] hworks
  have hall := (demoLearned_run.tail hhand).trans hrun
  obtain ⟨log, hsame, -, hgoes⟩ := queued_to_owner demoNetwork_sound hall () hwork hkept
  obtain rfl := List.append_cancel_left (hlog.symm.trans hsame)
  exact ⟨_, st', sent, hall, hwork, hlog, hgoes 0 demoTransmission List.mem_cons_self⟩

end Demo

end PWOSPF
