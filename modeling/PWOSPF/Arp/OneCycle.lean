import PWOSPF.Arp.Pending

/-!
# One ARP cycle for a next hop

`num_requests` tells callers whether a thread serves an entry: it is -1 exactly if there is none, and
otherwise what the only one of them has counted so far.
-/

namespace PWOSPF

open Framework

/-- What the counter of the entry is while the thread that serves it is at this place. -/
def ArpThread.Fits (t : ArpThread) (numRequests : Int) : Prop :=
  match t.pc with
  | .creating | .start => t.requests = 0 ∧ numRequests = 0
  | .head i =>
    (i = 0 ∧ 0 ≤ numRequests ∧ numRequests ≤ 3 ∧ t.requests ≤ 4) ∨
      (1 ≤ i ∧ i ≤ 5 ∧ t.requests = i ∧ numRequests = i - 1)
  | .search i _ | .flush i _ | .request i =>
    1 ≤ i ∧ i ≤ 4 ∧ t.requests = i ∧ numRequests = i - 1
  | .done => False

def ArpThread.Serves (e : Nat) (t : ArpThread) : Prop := t.entry = e ∧ t.pc ≠ .done

instance (e : Nat) (t : ArpThread) : Decidable (t.Serves e) := inferInstanceAs (Decidable (_ ∧ _))

/-- The threads, created or about to be, that may still touch the entry. -/
def servers (threads : List ArpThread) (e : Nat) : Nat := threads.countP fun t => t.Serves e

structure OneCycle (s : ArpSubsys) : Prop where
  nodup : (s.pending.map Arpq.ip).Nodup
  fits : ∀ t ∈ s.threads, t.pc ≠ .done →
    ∃ entry, s.pending[t.entry]? = some entry ∧ t.Fits entry.numRequests
  one : ∀ (e : Nat) (entry : Arpq), s.pending[e]? = some entry →
    servers s.threads e = if 0 ≤ entry.numRequests then 1 else 0
  sentinel : ∀ entry ∈ s.pending, -1 ≤ entry.numRequests
  requests : ∀ t ∈ s.threads, t.requests ≤ 5

variable {sr : SrInstance} {s s' : ArpSubsys} {t t' : ArpThread} {entry entry' : Arpq}
  {bytes : Nat → UInt8} {found : Option Mac} {log : List ArpLog}

theorem ArpThread.Fits.range {n : Int} (h : t.Fits n) : 0 ≤ n ∧ n ≤ 4 ∧ t.requests ≤ 5 := by
  rw [ArpThread.Fits] at h
  cases hpc : t.pc <;> rw [hpc] at h <;> simp only at h <;> omega

/-- A section counts a request when it sends one, and the last one leaves -1. -/
theorem arpReqInit_fits (hrun : arpReqInit sr bytes found t entry = .ok (t', entry', log))
    (hfits : t.Fits entry.numRequests) :
    t'.entry = t.entry ∧ entry'.ip = entry.ip ∧
      ((t'.pc ≠ .done ∧ t'.Fits entry'.numRequests) ∨
        (t'.pc = .done ∧ t'.requests ≤ 5 ∧ entry'.numRequests = -1)) := by
  have hrange := hfits.range
  rw [ArpThread.Fits] at hfits
  cases arpReqInit_section hrun with
  | create hpc =>
    rw [hpc] at hfits
    exact ⟨rfl, rfl, Or.inl ⟨(fun h => by cases h), hfits⟩⟩
  | first hpc =>
    rw [hpc] at hfits
    refine ⟨rfl, rfl, Or.inl ⟨(fun h => by cases h), Or.inr ⟨by decide, by decide, ?_, ?_⟩⟩⟩
    · show ((t.requests + 1 : Nat) : Int) = 1
      rw [hfits.1]
      rfl
    · exact hfits.2
  | @loop i hpc hloop =>
    simp only [hpc] at hfits
    refine ⟨rfl, rfl, Or.inl ⟨(fun h => by cases h), ?_⟩⟩
    show 1 ≤ i ∧ i ≤ 4 ∧ (t.requests : Int) = i ∧ entry.numRequests = i - 1
    have hmax := hloop.2
    rw [maxArpRequests] at hmax
    omega
  | leave hpc hloop hfates => exact ⟨rfl, rfl, Or.inr ⟨rfl, hrange.2.2, rfl⟩⟩
  | resolve hpc hfound =>
    rw [hpc] at hfits
    exact ⟨rfl, rfl, Or.inl ⟨(fun h => by cases h), hfits⟩⟩
  | miss hpc hfound =>
    rw [hpc] at hfits
    exact ⟨rfl, rfl, Or.inl ⟨(fun h => by cases h), hfits⟩⟩
  | flush hpc hpacks hlsus =>
    simp only [hpc] at hfits
    refine ⟨rfl, rfl, Or.inl ⟨(fun h => by cases h), Or.inl ⟨rfl, ?_⟩⟩⟩
    show 0 ≤ entry.numRequests ∧ entry.numRequests ≤ 3 ∧ t.requests ≤ 4
    omega
  | @request i hpc =>
    simp only [hpc] at hfits
    refine ⟨rfl, rfl, Or.inl ⟨(fun h => by cases h), Or.inr ?_⟩⟩
    show 1 ≤ i + 1 ∧ i + 1 ≤ 5 ∧ ((t.requests + 1 : Nat) : Int) = i + 1 ∧
      entry.numRequests + 1 = i + 1 - 1
    omega
  | done hpc =>
    rw [hpc] at hfits
    exact hfits.elim

/-! ## The invariant -/

theorem map_ip_set {pending : List Arpq} {e : Nat} (h : pending[e]? = some entry)
    (hip : entry'.ip = entry.ip) : (pending.set e entry').map Arpq.ip = pending.map Arpq.ip := by
  obtain ⟨he, hee⟩ := List.getElem?_eq_some_iff.mp h
  rw [List.map_set, hip, ← List.map_set, ← hee, List.set_getElem_self]

theorem OneCycle.init : OneCycle arpSubsysInit where
  nodup := List.nodup_nil
  fits := fun _ ht => nomatch ht
  one := fun _ _ he => nomatch he
  sentinel := fun _ he => nomatch he
  requests := fun _ ht => nomatch ht

/-- Two threads that serve an entry are the same one. -/
theorem OneCycle.same (h : OneCycle s) {j k : Nat} (hj : s.threads[j]? = some t)
    (hk : s.threads[k]? = some t') (hpc : t.pc ≠ .done) (hpc' : t'.pc ≠ .done)
    (he : t.entry = t'.entry) : j = k := by
  obtain ⟨entry, hentry, -⟩ := h.fits t' (List.mem_of_getElem? hk) hpc'
  have hone := h.one t'.entry entry hentry
  apply eq_of_countP_le_one (p := fun t => decide (t.Serves t'.entry)) _ hj hk
    (decide_eq_true ⟨he, hpc⟩) (decide_eq_true ⟨rfl, hpc'⟩)
  show servers s.threads t'.entry ≤ 1
  rw [hone]
  split <;> omega

/-- What has to be shown when one entry changes, and threads of that entry only. -/
theorem OneCycle.update (h : OneCycle s) {e : Nat} (hentry : s.pending[e]? = some entry)
    (hip : entry'.ip = entry.ip) (hpending : s'.pending = s.pending.set e entry')
    (hother : ∀ e', e' ≠ e → servers s'.threads e' = servers s.threads e')
    (hone : servers s'.threads e = if 0 ≤ entry'.numRequests then 1 else 0)
    (hsentinel : -1 ≤ entry'.numRequests)
    (hthreads : ∀ t ∈ s'.threads, t.pc ≠ .done →
      (t ∈ s.threads ∧ t.entry ≠ e) ∨ (t.entry = e ∧ t.Fits entry'.numRequests))
    (hrequests : ∀ t ∈ s'.threads, t.requests ≤ 5) : OneCycle s' := by
  have hself : (s.pending.set e entry')[e]? = some entry' :=
    List.getElem?_set_self (List.getElem?_eq_some_iff.mp hentry).1
  refine ⟨?_, ?_, ?_, ?_, hrequests⟩
  · rw [hpending, map_ip_set hentry hip]
    exact h.nodup
  · intro t ht hpc
    rw [hpending]
    cases hthreads t ht hpc with
    | inl hold =>
      obtain ⟨x, hx, hfits⟩ := h.fits t hold.1 hpc
      exact ⟨x, by rw [List.getElem?_set_ne hold.2.symm]; exact hx, hfits⟩
    | inr hnew => exact ⟨entry', by rw [hnew.1]; exact hself, hnew.2⟩
  · intro e' x hx
    rw [hpending] at hx
    by_cases hee : e' = e
    · rw [hee, hself] at hx
      cases hx
      rw [hee]
      exact hone
    · rw [List.getElem?_set_ne (Ne.symm hee)] at hx
      rw [hother e' hee]
      exact h.one e' x hx
  · intro x hx
    rw [hpending] at hx
    cases List.mem_or_eq_of_mem_set hx with
    | inl hx => exact h.sentinel x hx
    | inr hx => exact hx ▸ hsentinel

theorem servers_start (threads : List ArpThread) (e e' : Nat) :
    servers (threads ++ [⟨e, .creating, 0⟩]) e' = servers threads e' + if e = e' then 1 else 0 := by
  rw [servers, List.countP_append]
  by_cases hee : e = e'
  · simp [servers, ArpThread.Serves, hee]
  · simp [servers, ArpThread.Serves, hee]

theorem servers_set {threads : List ArpThread} {k : Nat} (hk : threads[k]? = some t) (e : Nat) :
    servers (threads.set k t') e =
      servers threads e - (if t.Serves e then 1 else 0) + if t'.Serves e then 1 else 0 := by
  obtain ⟨hlt, hkt⟩ := List.getElem?_eq_some_iff.mp hk
  rw [servers, List.countP_set hlt, hkt]
  simp only [decide_eq_true_eq]
  rfl

theorem not_serves_of_servers {threads : List ArpThread} {e : Nat} (h : servers threads e = 0)
    (ht : t ∈ threads) : ¬ t.Serves e := by
  have hnone := List.countP_eq_zero.mp h t ht
  exact fun hserves => hnone (decide_eq_true hserves)

/-- A thread that is about to be created has sent nothing. -/
theorem requests_start {threads : List ArpThread} (h : ∀ t ∈ threads, t.requests ≤ 5) (e : Nat) :
    ∀ t ∈ threads ++ [⟨e, .creating, 0⟩], t.requests ≤ 5 := by
  intro t ht
  cases List.mem_append.mp ht with
  | inl ht => exact h t ht
  | inr ht =>
    rw [List.mem_singleton.mp ht]
    exact Nat.zero_le 5

section Call

variable {c : Call} {e : Nat} {x x' : Arpq} {calls : List Call}

/-- The entry is being served: the packet is added, and nothing else happens. -/
theorem OneCycle.queue (h : OneCycle s) (hx : s.pending[e]? = some x)
    (hadd : x.add s.calls.length c = .ok x') :
    OneCycle { s with pending := s.pending.set e x', calls := calls } := by
  obtain ⟨hip, hnum⟩ := Arpq.add_spec hadd
  refine h.update hx hip rfl (fun _ _ => rfl) ?_ ?_ ?_ h.requests
  · rw [hnum]
    exact h.one e x hx
  · rw [hnum]
    exact h.sentinel x (List.mem_of_getElem? hx)
  · intro t ht hpc
    by_cases he : t.entry = e
    · obtain ⟨y, hy, hfits⟩ := h.fits t ht hpc
      rw [he, hx] at hy
      cases hy
      rw [hnum]
      exact Or.inr ⟨he, hfits⟩
    · exact Or.inl ⟨ht, he⟩

/-- The entry is idle: it gets a thread, and its counter is 0. -/
theorem OneCycle.restart (h : OneCycle s) (hx : s.pending[e]? = some x) (hip : x'.ip = x.ip)
    (hfree : x.numRequests < 0) :
    OneCycle { s with
      pending := s.pending.set e { x' with numRequests := 0 }
      threads := s.threads ++ [⟨e, .creating, 0⟩]
      calls := calls } := by
  have hidle : servers s.threads e = 0 := by
    rw [h.one e x hx, if_neg (Int.not_le.mpr hfree)]
  refine @OneCycle.update s _ x { x' with numRequests := 0 } h e hx hip rfl ?_ ?_ ?_ ?_
    (requests_start h.requests e)
  · intro e' hee
    rw [servers_start, if_neg (Ne.symm hee)]
    rfl
  · rw [servers_start, hidle, if_pos rfl]
    rfl
  · show (-1 : Int) ≤ 0
    decide
  · intro t ht hpc
    cases List.mem_append.mp ht with
    | inl ht => exact Or.inl ⟨ht, fun he => not_serves_of_servers hidle ht ⟨he, hpc⟩⟩
    | inr ht =>
      rw [List.mem_singleton.mp ht]
      exact Or.inr ⟨rfl, rfl, rfl⟩

/-- There is no entry for the next hop: one is made, with its thread. -/
theorem OneCycle.newEntry (h : OneCycle s) (hnone : ∀ y ∈ s.pending, y.ip ≠ x'.ip)
    (hnum : x'.numRequests = 0) :
    OneCycle { s with
      pending := s.pending ++ [x']
      threads := s.threads ++ [⟨s.pending.length, .creating, 0⟩]
      calls := calls } := by
  have hidle : servers s.threads s.pending.length = 0 := by
    apply List.countP_eq_zero.mpr
    intro t ht hserves
    obtain ⟨he, hpc⟩ := of_decide_eq_true hserves
    obtain ⟨y, hy, -⟩ := h.fits t ht hpc
    have hlt := (List.getElem?_eq_some_iff.mp hy).1
    omega
  refine ⟨?_, ?_, ?_, ?_, requests_start h.requests _⟩
  · rw [List.map_append, List.nodup_append]
    refine ⟨h.nodup, List.nodup_singleton _, ?_⟩
    intro a ha b hb hab
    obtain ⟨y, hy, rfl⟩ := List.mem_map.mp ha
    rw [List.mem_singleton.mp hb] at hab
    exact hnone y hy hab
  · intro t ht hpc
    cases List.mem_append.mp ht with
    | inl ht =>
      obtain ⟨y, hy, hfits⟩ := h.fits t ht hpc
      have hlt := (List.getElem?_eq_some_iff.mp hy).1
      exact ⟨y, by rw [List.getElem?_append_left hlt]; exact hy, hfits⟩
    | inr ht =>
      rw [List.mem_singleton.mp ht]
      exact ⟨x', List.getElem?_concat_length, rfl, hnum⟩
  · intro e y hy
    rw [servers_start]
    by_cases he : s.pending.length = e
    · rw [← he, List.getElem?_concat_length] at hy
      cases hy
      rw [if_pos he, ← he, hidle, hnum]
      rfl
    · have hlt : e < s.pending.length := by
        have hlt := (List.getElem?_eq_some_iff.mp hy).1
        rw [List.length_append, List.length_singleton] at hlt
        omega
      rw [List.getElem?_append_left hlt] at hy
      rw [if_neg he, Nat.add_zero]
      exact h.one e y hy
  · intro y hy
    cases List.mem_append.mp hy with
    | inl hy => exact h.sentinel y hy
    | inr hy =>
      rw [List.mem_singleton.mp hy, hnum]
      decide

end Call

theorem OneCycle.call {c : Call} (h : OneCycle s) (hstep : getMacAddress sr s c = .ok s') :
    OneCycle s' := by
  rcases getMacAddress_cases hstep with ⟨e, x, x', hx, -, hadd, hbusy, rfl⟩ |
    ⟨e, x, x', hx, -, hadd, hfree, rfl⟩ | ⟨x, x', hnone, hcreate, hadd, rfl⟩
  · exact h.queue hx hadd
  · exact h.restart hx (Arpq.add_spec hadd).1 hfree
  · obtain ⟨hip, hnum⟩ := Arpq.add_spec hadd
    obtain ⟨hip₀, hnum₀, -⟩ := createEntry_spec hcreate
    apply h.newEntry _ (hnum.trans hnum₀)
    rw [hip, hip₀]
    exact hnone

theorem OneCycle.thread {k : Nat} (h : OneCycle s)
    (hstep : s.step sr (.thread k found bytes) = .ok s') : OneCycle s' := by
  rcases step_thread_cases hstep with rfl | ⟨t, x, t', x', log, ht, hpc, hx, hrun, rfl⟩
  · exact h
  · have htmem := List.mem_of_getElem? ht
    obtain ⟨y, hy, hfits⟩ := h.fits t htmem hpc
    rw [hx] at hy
    cases hy
    have hbusy : servers s.threads t.entry = 1 := by
      rw [h.one t.entry x hx, if_pos hfits.range.1]
    obtain ⟨hentry, hip, hnext⟩ := arpReqInit_fits hrun hfits
    refine h.update hx hip rfl ?_ ?_ ?_ ?_ ?_
    · intro e' hee
      have hnot : ¬ t.Serves e' := fun hserves => hee hserves.1.symm
      have hnot' : ¬ t'.Serves e' := fun hserves => hee (hserves.1.symm.trans hentry)
      rw [servers_set ht, if_neg hnot, if_neg hnot']
      rfl
    · rw [servers_set ht, hbusy, if_pos ⟨rfl, hpc⟩]
      cases hnext with
      | inl hlive => rw [if_pos ⟨hentry, hlive.1⟩, if_pos hlive.2.range.1]
      | inr hdone =>
        rw [if_neg fun hserves => hserves.2 hdone.1, hdone.2.2]
        rfl
    · cases hnext with
      | inl hlive => exact Int.le_trans (by decide) hlive.2.range.1
      | inr hdone => exact Int.le_of_eq hdone.2.2.symm
    · intro t'' ht'' hpc''
      obtain ⟨j, hj⟩ := List.mem_iff_getElem?.mp ht''
      rcases getElem?_set_some hj with ⟨-, rfl⟩ | ⟨hjk, hj⟩
      · cases hnext with
        | inl hlive => exact Or.inr ⟨hentry, hlive.2⟩
        | inr hdone => exact absurd hdone.1 hpc''
      · exact Or.inl ⟨List.mem_of_getElem? hj,
          fun he => hjk (h.same ht hj hpc hpc'' he.symm).symm⟩
    · intro t'' ht''
      cases List.mem_or_eq_of_mem_set ht'' with
      | inl ht'' => exact h.requests t'' ht''
      | inr ht'' =>
        rw [ht'']
        cases hnext with
        | inl hlive => exact hlive.2.range.2.2
        | inr hdone => exact hdone.2.1

theorem OneCycle.step {x : ArpEvent} (h : OneCycle s) (hstep : ArpStep sr s x s') : OneCycle s' := by
  cases x with
  | call c => exact h.call hstep
  | thread k found bytes => exact h.thread hstep

/-- In every state that callers and threads lead to: one entry for an address; an entry whose counter
is at least 0 is served by exactly one thread, any other by none; the counter is between -1 and 4;
and no thread has sent more than 5 requests. -/
theorem one_arp_cycle (h : Reach (ArpStep sr) (fun _ _ => True) arpSubsysInit s) :
    (s.pending.map Arpq.ip).Nodup ∧
      (∀ e entry, s.pending[e]? = some entry →
        (s.threads.countP fun t => t.entry = e ∧ t.pc ≠ .done) =
          (if 0 ≤ entry.numRequests then 1 else 0) ∧
        -1 ≤ entry.numRequests ∧ entry.numRequests ≤ 4) ∧
      ∀ t ∈ s.threads, t.requests ≤ 5 := by
  have hinv : OneCycle s := h.invariant .init fun _ _ _ hI _ hstep => hI.step hstep
  refine ⟨hinv.nodup, ?_, hinv.requests⟩
  intro e entry hentry
  refine ⟨hinv.one e entry hentry, hinv.sentinel entry (List.mem_of_getElem? hentry), ?_⟩
  by_cases hbusy : 0 ≤ entry.numRequests
  · have hone := hinv.one e entry hentry
    rw [if_pos hbusy] at hone
    obtain ⟨t, ht, hserves⟩ := List.countP_pos_iff.mp (Nat.lt_of_lt_of_eq Nat.zero_lt_one hone.symm)
    obtain ⟨he, hpc⟩ := of_decide_eq_true hserves
    obtain ⟨x, hx, hfits⟩ := hinv.fits t ht hpc
    rw [he, hentry] at hx
    cases hx
    exact hfits.range.2.1
  · omega

section Demo

/-- A router with one interface. -/
def demoArpSr : SrInstance := ⟨[⟨[101], #v[2, 0, 0, 0, 0, 1], 0x0100000a⟩], []⟩

def demoLsuCall : Call := ⟨7, List.replicate 66 0, [101], .lsu⟩

def demoDataCall : Call :=
  ⟨7, List.replicate 60 1, [101], .data [2, 0, 0, 0, 0, 1, 2, 0, 0, 0, 0, 9, 8, 0]⟩

/-- The next section of the first thread. -/
def demoThread (found : Option Mac) : ArpEvent := .thread 0 found fun _ => 0

/-- The state after the events. -/
def demoArp (events : List ArpEvent) : Option ArpSubsys :=
  runAll (ArpSubsys.step demoArpSr) (fun _ _ => true) events arpSubsysInit

theorem demoArp_reach {events : List ArpEvent} (h : demoArp events = some s) :
    Reach (ArpStep demoArpSr) (fun _ _ => True) arpSubsysInit s :=
  Reach.of_runAll (fun _ _ _ _ hrun => ⟨trivial, hrun⟩) .start h

/-- The second packet finds the thread of the first one after its second request. -/
theorem one_arp_cycle_demo :
    ∃ s entry, demoArp [.call demoLsuCall, demoThread none, demoThread none, demoThread none,
      demoThread none, demoThread none, .call demoDataCall] = some s ∧ s.pending = [entry] ∧
      entry.numRequests = 1 ∧ (s.threads.countP fun t => t.entry = 0 ∧ t.pc ≠ .done) = 1 := by
  have hrun : (demoArp [.call demoLsuCall, demoThread none, demoThread none, demoThread none,
      demoThread none, demoThread none, .call demoDataCall]).map
      (fun s => s.pending.map Arpq.numRequests) = some [1] := by decide +kernel
  obtain ⟨s, hs, hnum⟩ := Option.map_eq_some_iff.mp hrun
  obtain ⟨entry, hentry, hone⟩ := List.map_eq_singleton_iff.mp hnum
  have hcycle := (one_arp_cycle (demoArp_reach hs)).2.1 0 entry (by rw [hentry]; rfl)
  rw [hone] at hcycle
  exact ⟨s, entry, hs, hentry, hone, hcycle.1⟩

end Demo

end PWOSPF
