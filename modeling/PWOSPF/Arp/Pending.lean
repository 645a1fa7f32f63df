import PWOSPF.Arp.Buffers
import PWOSPF.Framework.Tally

/-!
# Next hops that wait for their MAC

`arpq.c`: callers queue packets for a next hop and start a thread for it, and the thread sends ARP
requests, looks into the cache, and sends or answers what has been queued. Whatever happens between
`lock_arp_q` and `unlock_arp_q` is one step, and steps of all callers and threads follow each other
in any order.
-/

namespace PWOSPF

open Framework PacketField

def maxArpRequests : Int := 5

/-- The last two arguments of `get_mac_address`: `type`, and the header of a packet that is no LSU. -/
inductive PacketKind
  | data (hdr : Frame)
  | lsu
  deriving DecidableEq, Repr

structure Call where
  nextHop : InAddr
  packet : Frame
  iface : IfName
  kind : PacketKind
  deriving DecidableEq, Repr

structure Arpq where
  ip : InAddr
  numRequests : Int
  arpRequest : Frame
  pacBuf : Buf PacketBuffer
  lsuBuf : Buf LsuBufEnt
  ifaceName : IfName
  deriving DecidableEq, Repr

/-- Where a thread is: not created yet, in front of its first section, at the head of its loop, in
front of `search_cache`, of the flush or of another request, and at its end. The MAC of the flush is what
the pointer from `search_cache` leads to. -/
inductive Pc
  | creating
  | start
  | head (i : Int)
  | search (i : Int) (temp : InAddr)
  | flush (i : Int) (mac : Mac)
  | request (i : Int)
  | done
  deriving DecidableEq, Repr

/-- `requests` counts what the thread has sent. -/
structure ArpThread where
  entry : Nat
  pc : Pc
  requests : Nat
  deriving DecidableEq, Repr

/-- What happened to a queued packet; also the requests sent and the MACs found. -/
inductive ArpLog
  | transmitted (call : Nat) (t : Transmission)
  | unreachable (call : Nat) (t : Transmission)
  | dropped (call : Nat) (requests : Nat)
  | requested (t : Transmission)
  | resolved (ip : InAddr) (mac : Mac)
  deriving DecidableEq, Repr

/-- The pending list, in which an entry keeps its place for ever, and the threads; besides, the calls
so far and what came of them. -/
structure ArpSubsys where
  pending : List Arpq
  threads : List ArpThread
  calls : List Call
  log : List ArpLog
  deriving DecidableEq, Repr

def arpSubsysInit : ArpSubsys := ⟨[], [], [], []⟩

def getEntry (pending : List Arpq) (nextHop : InAddr) : Option Nat :=
  pending.findIdx? fun current => current.ip = nextHop

def createEntry (sr : SrInstance) (nextHop : InAddr) (iface : IfName) : Exec Arpq := do
  return ⟨nextHop, 0, ← constructRequest sr iface nextHop, .null, .null, iface⟩

/-- Puts the packet of a call into the buffer for its kind. -/
def Arpq.add (entry : Arpq) (call : Nat) (c : Call) : Exec Arpq :=
  match c.kind with
  | .lsu => .ok { entry with lsuBuf := addToLsuBuff entry.lsuBuf ⟨call, c.packet⟩ }
  | .data hdr => do
    return { entry with pacBuf := ← addToPackBuff entry.pacBuf ⟨call, c.packet, hdr⟩ }

/-- The locked section of `get_mac_address`. The thread it starts is created after the unlock. -/
def getMacAddress (sr : SrInstance) (s : ArpSubsys) (c : Call) : Exec ArpSubsys :=
  let calls := s.calls ++ [c]
  match getEntry s.pending c.nextHop with
  | some e =>
    match s.pending[e]? with
    | some entry => do
      let entry' ← entry.add s.calls.length c
      if entry.numRequests ≥ 0 then
        return { s with pending := s.pending.set e entry', calls := calls }
      else
        return { s with
          pending := s.pending.set e { entry' with numRequests := 0 }
          threads := s.threads ++ [⟨e, .creating, 0⟩]
          calls := calls }
    | none => .error .dangling
  | none => do
    let entry ← createEntry sr c.nextHop c.iface
    let entry' ← entry.add s.calls.length c
    return { s with
      pending := s.pending ++ [entry']
      threads := s.threads ++ [⟨s.pending.length, .creating, 0⟩]
      calls := calls }

/-- What becomes of the packets in the last section: if `i > 0`, all requests have been sent. -/
def giveUp (sr : SrInstance) (bytes : Nat → UInt8) (i : Int) (requests : Nat) (entry : Arpq) :
    Exec (List ArpLog) :=
  if i > 0 then do
    let icmps ← sendAllIcmps sr bytes entry.pacBuf
    let lsus ← deleteAllLsu entry.lsuBuf
    return icmps.map (fun x => .unreachable x.1 x.2) ++ lsus.map fun call => .dropped call requests
  else .ok []

/-- The next section of a thread of `arp_req_init`. `found` is what `search_cache` answers if that is
the next thing it does. -/
def arpReqInit (sr : SrInstance) (bytes : Nat → UInt8) (found : Option Mac) (t : ArpThread)
    (entry : Arpq) : Exec (ArpThread × Arpq × List ArpLog) :=
  match t.pc with
  | .creating => .ok ({ t with pc := .start }, entry, [])
  | .start =>
    .ok ({ t with pc := .head 1, requests := t.requests + 1 }, entry,
      [.requested ⟨entry.arpRequest, entry.ifaceName⟩])
  | .head i =>
    if i > 0 ∧ i < maxArpRequests then .ok ({ t with pc := .search i entry.ip }, entry, [])
    else do
      let fates ← giveUp sr bytes i t.requests entry
      return ({ t with pc := .done },
        { entry with numRequests := -1, pacBuf := .null, lsuBuf := .null }, fates)
  | .search i temp =>
    match found with
    | some mac => .ok ({ t with pc := .flush i mac }, entry, [.resolved temp mac])
    | none => .ok ({ t with pc := .request i }, entry, [])
  | .flush _ mac => do
    let packs ← sendAllPacks entry.pacBuf mac entry.ifaceName
    let lsus ← sendAllLsus entry.lsuBuf mac entry.ifaceName
    -- `i = -1`, and the loop adds 1
    return ({ t with pc := .head (-1 + 1) },
      { entry with pacBuf := entry.pacBuf.freed, lsuBuf := entry.lsuBuf.freed },
      (packs ++ lsus).map fun x => .transmitted x.1 x.2)
  | .request i =>
    .ok ({ t with pc := .head (i + 1), requests := t.requests + 1 },
      { entry with numRequests := entry.numRequests + 1 },
      [.requested ⟨entry.arpRequest, entry.ifaceName⟩])
  | .done => .ok (t, entry, [])

inductive ArpEvent
  | call (c : Call)
  | thread (k : Nat) (found : Option Mac) (bytes : Nat → UInt8)

def ArpSubsys.step (sr : SrInstance) (s : ArpSubsys) : ArpEvent → Exec ArpSubsys
  | .call c => getMacAddress sr s c
  | .thread k found bytes =>
    match s.threads[k]? with
    | none => .ok s
    | some t =>
      match s.pending[t.entry]? with
      | none => .error .dangling
      | some entry => do
        let (t', entry', log) ← arpReqInit sr bytes found t entry
        return { s with
          pending := s.pending.set t.entry entry'
          threads := s.threads.set k t'
          log := s.log ++ log }

/-- A step of a caller or a thread that does not fault. -/
def ArpStep (sr : SrInstance) (s : ArpSubsys) (x : ArpEvent) (s' : ArpSubsys) : Prop :=
  s.step sr x = .ok s'

/-! ## What a step does -/

variable {sr : SrInstance} {s s' : ArpSubsys} {c : Call} {call : Nat} {entry entry' : Arpq}

theorem getEntry_some {pending : List Arpq} {ip : InAddr} {e : Nat}
    (h : getEntry pending ip = some e) : ∃ entry, pending[e]? = some entry ∧ entry.ip = ip := by
  obtain ⟨hlt, hip, -⟩ := List.findIdx?_eq_some_iff_getElem.mp h
  exact ⟨_, List.getElem?_eq_getElem hlt, of_decide_eq_true hip⟩

theorem getEntry_none {pending : List Arpq} {ip : InAddr} (h : getEntry pending ip = none) :
    ∀ entry ∈ pending, entry.ip ≠ ip := by
  intro entry hentry hip
  have hnot := List.findIdx?_eq_none_iff.mp h entry hentry
  rw [hip] at hnot
  simp at hnot

/-- A call puts its packet into an entry that a thread serves, into one without a thread, or into a
new one. -/
theorem getMacAddress_cases (h : getMacAddress sr s c = .ok s') :
    (∃ e entry entry', s.pending[e]? = some entry ∧ entry.ip = c.nextHop ∧
      entry.add s.calls.length c = .ok entry' ∧ 0 ≤ entry.numRequests ∧
      s' = { s with pending := s.pending.set e entry', calls := s.calls ++ [c] }) ∨
    (∃ e entry entry', s.pending[e]? = some entry ∧ entry.ip = c.nextHop ∧
      entry.add s.calls.length c = .ok entry' ∧ entry.numRequests < 0 ∧
      s' = { s with
        pending := s.pending.set e { entry' with numRequests := 0 }
        threads := s.threads ++ [⟨e, .creating, 0⟩]
        calls := s.calls ++ [c] }) ∨
    ∃ entry entry', (∀ x ∈ s.pending, x.ip ≠ c.nextHop) ∧
      createEntry sr c.nextHop c.iface = .ok entry ∧ entry.add s.calls.length c = .ok entry' ∧
      s' = { s with
        pending := s.pending ++ [entry']
        threads := s.threads ++ [⟨s.pending.length, .creating, 0⟩]
        calls := s.calls ++ [c] } := by
  rw [getMacAddress] at h
  cases hget : getEntry s.pending c.nextHop with
  | some e =>
    obtain ⟨entry, hentry, hip⟩ := getEntry_some hget
    simp only [hget, hentry] at h
    obtain ⟨entry', hadd, h⟩ := bind_eq_ok.mp h
    by_cases hbusy : entry.numRequests ≥ 0
    · rw [if_pos hbusy] at h
      cases h
      exact Or.inl ⟨e, entry, entry', hentry, hip, hadd, hbusy, rfl⟩
    · rw [if_neg hbusy] at h
      cases h
      exact Or.inr (Or.inl ⟨e, entry, entry', hentry, hip, hadd, Int.not_le.mp hbusy, rfl⟩)
  | none =>
    simp only [hget] at h
    obtain ⟨entry, hcreate, h⟩ := bind_eq_ok.mp h
    obtain ⟨entry', hadd, h⟩ := bind_eq_ok.mp h
    cases h
    exact Or.inr (Or.inr ⟨entry, entry', getEntry_none hget, hcreate, hadd, rfl⟩)

/-- A thread that has not ended changes itself and its entry. -/
theorem step_thread_cases {k : Nat} {found : Option Mac} {bytes : Nat → UInt8}
    (h : s.step sr (.thread k found bytes) = .ok s') :
    s' = s ∨ ∃ t entry t' entry' log, s.threads[k]? = some t ∧ t.pc ≠ .done ∧
      s.pending[t.entry]? = some entry ∧
      arpReqInit sr bytes found t entry = .ok (t', entry', log) ∧
      s' = { s with
        pending := s.pending.set t.entry entry'
        threads := s.threads.set k t'
        log := s.log ++ log } := by
  rw [ArpSubsys.step] at h
  cases ht : s.threads[k]? with
  | none =>
    rw [ht] at h
    exact Or.inl (Except.ok.inj h).symm
  | some t =>
    cases hentry : s.pending[t.entry]? with
    | none =>
      simp only [ht, hentry] at h
      cases h
    | some entry =>
      simp only [ht, hentry] at h
      obtain ⟨⟨t', entry', log⟩, hrun, h⟩ := bind_eq_ok.mp h
      cases h
      by_cases hdone : t.pc = .done
      · rw [arpReqInit, hdone] at hrun
        cases hrun
        obtain ⟨hk, hkt⟩ := List.getElem?_eq_some_iff.mp ht
        obtain ⟨he, hee⟩ := List.getElem?_eq_some_iff.mp hentry
        refine Or.inl ?_
        show { s with pending := _, threads := _, log := _ } = s
        rw [← hkt, List.set_getElem_self, hkt, ← hee, List.set_getElem_self, List.append_nil]
      · exact Or.inr ⟨t, entry, t', entry', log, rfl, hdone, hentry, hrun, rfl⟩

/-- The sections of `arp_req_init`, one constructor each. -/
inductive ArpSection (sr : SrInstance) (bytes : Nat → UInt8) (found : Option Mac) (t : ArpThread)
    (entry : Arpq) : ArpThread → Arpq → List ArpLog → Prop
  | create : t.pc = .creating → ArpSection sr bytes found t entry { t with pc := .start } entry []
  | first : t.pc = .start → ArpSection sr bytes found t entry
      { t with pc := .head 1, requests := t.requests + 1 } entry
      [.requested ⟨entry.arpRequest, entry.ifaceName⟩]
  | loop {i : Int} : t.pc = .head i → i > 0 ∧ i < maxArpRequests →
      ArpSection sr bytes found t entry { t with pc := .search i entry.ip } entry []
  | leave {i : Int} {fates : List ArpLog} : t.pc = .head i → ¬ (i > 0 ∧ i < maxArpRequests) →
      giveUp sr bytes i t.requests entry = .ok fates →
      ArpSection sr bytes found t entry { t with pc := .done }
        { entry with numRequests := -1, pacBuf := .null, lsuBuf := .null } fates
  | resolve {i : Int} {temp : InAddr} {mac : Mac} : t.pc = .search i temp → found = some mac →
      ArpSection sr bytes found t entry { t with pc := .flush i mac } entry [.resolved temp mac]
  | miss {i : Int} {temp : InAddr} : t.pc = .search i temp → found = none →
      ArpSection sr bytes found t entry { t with pc := .request i } entry []
  | flush {i : Int} {mac : Mac} {packs lsus : List (Nat × Transmission)} : t.pc = .flush i mac →
      sendAllPacks entry.pacBuf mac entry.ifaceName = .ok packs →
      sendAllLsus entry.lsuBuf mac entry.ifaceName = .ok lsus →
      ArpSection sr bytes found t entry { t with pc := .head 0 }
        { entry with pacBuf := entry.pacBuf.freed, lsuBuf := entry.lsuBuf.freed }
        ((packs ++ lsus).map fun x => .transmitted x.1 x.2)
  | request {i : Int} : t.pc = .request i → ArpSection sr bytes found t entry
      { t with pc := .head (i + 1), requests := t.requests + 1 }
      { entry with numRequests := entry.numRequests + 1 }
      [.requested ⟨entry.arpRequest, entry.ifaceName⟩]
  | done : t.pc = .done → ArpSection sr bytes found t entry t entry []

theorem arpReqInit_section {found : Option Mac} {bytes : Nat → UInt8} {t t' : ArpThread}
    {log : List ArpLog} (h : arpReqInit sr bytes found t entry = .ok (t', entry', log)) :
    ArpSection sr bytes found t entry t' entry' log := by
  rw [arpReqInit] at h
  cases hpc : t.pc with
  | creating =>
    rw [hpc] at h
    cases h
    exact .create hpc
  | start =>
    rw [hpc] at h
    cases h
    exact .first hpc
  | head i =>
    simp only [hpc] at h
    by_cases hloop : i > 0 ∧ i < maxArpRequests
    · rw [if_pos hloop] at h
      cases h
      exact .loop hpc hloop
    · rw [if_neg hloop] at h
      obtain ⟨fates, hfates, h⟩ := bind_eq_ok.mp h
      cases h
      exact .leave hpc hloop hfates
  | search i temp =>
    rw [hpc] at h
    cases found with
    | some mac =>
      cases h
      exact .resolve hpc rfl
    | none =>
      cases h
      exact .miss hpc rfl
  | flush i mac =>
    simp only [hpc] at h
    obtain ⟨packs, hpacks, h⟩ := bind_eq_ok.mp h
    obtain ⟨lsus, hlsus, h⟩ := bind_eq_ok.mp h
    cases h
    exact .flush hpc hpacks hlsus
  | request i =>
    rw [hpc] at h
    cases h
    exact .request hpc
  | done =>
    rw [hpc] at h
    cases h
    exact .done hpc

theorem createEntry_spec {ip : InAddr} {iface : IfName}
    (h : createEntry sr ip iface = .ok entry) :
    entry.ip = ip ∧ entry.numRequests = 0 ∧ entry.pacBuf = .null ∧ entry.lsuBuf = .null := by
  obtain ⟨request, -, h⟩ := bind_eq_ok.mp h
  cases h
  exact ⟨rfl, rfl, rfl, rfl⟩

/-- Only the buffers change. -/
theorem Arpq.add_spec (h : entry.add call c = .ok entry') :
    entry'.ip = entry.ip ∧ entry'.numRequests = entry.numRequests := by
  rw [Arpq.add] at h
  cases hkind : c.kind with
  | lsu =>
    rw [hkind] at h
    cases h
    exact ⟨rfl, rfl⟩
  | data hdr =>
    rw [hkind] at h
    obtain ⟨buf, -, h⟩ := bind_eq_ok.mp h
    cases h
    exact ⟨rfl, rfl⟩

end PWOSPF
