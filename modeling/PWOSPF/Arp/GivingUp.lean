import PWOSPF.Arp.Cache
import PWOSPF.Arp.OneCycle
import PWOSPF.Framework.History

/-!
# Giving up on a next hop

The threads of `arp_req_init` next to the cache they look into, with the clock and their sleeps. A
thread looks into the cache before each request but the first, and not again after the last one: the
reply to the fifth request comes too late.
-/

namespace PWOSPF

open Framework

def arpReqInterval : Time := 5

/-- The pending list and its threads with the cache, the time, and when each thread may go on. -/
structure TimedArp where
  queue : ArpSubsys
  cache : List ArpCacheEntry
  now : Time
  awake : Nat → Time

def timedArpInit (now : Time) : TimedArp := ⟨arpSubsysInit, [], now, fun _ => now⟩

/-- The operations on the cache are those of anybody but the threads. -/
inductive TimedEvent
  | call (c : Call)
  | thread (k : Nat) (bytes : Nat → UInt8)
  | cache (op : CacheOp)

/-- An event with the clock readings during it and the time at its end. -/
structure TimedInput where
  clock : Nat → Time
  last : Time
  event : TimedEvent

/-- The look-up of a thread that stands in front of one. -/
def TimedArp.look (w : TimedArp) (clock : Nat → Time) (k : Nat) :
    List ArpCacheEntry × Option Mac :=
  match w.queue.threads[k]?.map ArpThread.pc with
  | some (.search _ temp) => searchCache w.cache clock temp
  | _ => (w.cache, none)

/-- After sending a request at time `t` a thread sleeps. -/
def TimedArp.sleep (w : TimedArp) (k : Nat) (t : Time) : Nat → Time :=
  match w.queue.threads[k]?.map ArpThread.pc with
  | some .start | some (.request _) => Function.update w.awake k (t + arpReqInterval)
  | _ => w.awake

def TimedArp.step (sr : SrInstance) (w : TimedArp) (x : TimedInput) : Exec TimedArp :=
  match x.event with
  | .call c => do return { w with queue := ← w.queue.step sr (.call c), now := x.last }
  | .thread k bytes => do
    let (cache, found) := w.look x.clock k
    return ⟨← w.queue.step sr (.thread k found bytes), cache, x.last, w.sleep k x.last⟩
  | .cache op => do
    let (cache, _) ← op.run w.cache x.clock
    return { w with cache := cache, now := x.last }

/-- The thread of the event has slept enough. -/
def TimedArp.Awake (w : TimedArp) (x : TimedInput) : Prop :=
  match x.event with
  | .thread k _ => w.awake k ≤ x.clock 0
  | _ => True

structure TimedStep (sr : SrInstance) (w : TimedArp) (x : TimedInput) (w' : TimedArp) : Prop where
  mono : Monotone x.clock
  start : w.now ≤ x.clock 0
  last : ∀ n, x.clock n ≤ x.last
  awake : w.Awake x
  run : w.step sr x = .ok w'

/-! ## What a thread knows of the cache -/

/-- The address whose MAC the thread waits for. -/
def ArpSubsys.ipOf (s : ArpSubsys) (t : ArpThread) : Option InAddr :=
  s.pending[t.entry]?.map Arpq.ip

/-- The next section of the thread leaves the loop without a MAC. -/
def ArpThread.GivesUp (t : ArpThread) : Prop := ∃ i, t.pc = .head i ∧ maxArpRequests ≤ i

/-- The thread will not look into the cache again. -/
def ArpThread.Late (t : ArpThread) : Prop :=
  match t.pc with
  | .request i => maxArpRequests ≤ i + 1
  | .head i => maxArpRequests ≤ i
  | _ => False

theorem ArpThread.GivesUp.late {t : ArpThread} (h : t.GivesUp) : t.Late := by
  obtain ⟨i, hpc, hi⟩ := h
  rw [ArpThread.Late, hpc]
  exact hi

theorem ArpThread.Late.not_done {t : ArpThread} (h : t.Late) : t.pc ≠ .done := by
  intro hpc
  rw [ArpThread.Late, hpc] at h
  exact h

section Thread

variable {sr : SrInstance} {s s' : ArpSubsys} {t t' : ArpThread} {entry entry' : Arpq}
  {bytes : Nat → UInt8} {found : Option Mac} {log : List ArpLog}

/-- A thread gets late by a look-up that finds nothing. -/
theorem arpReqInit_late (hrun : arpReqInit sr bytes found t entry = .ok (t', entry', log))
    (hlate : t'.Late) : t.Late ∨ (found = none ∧ ∃ i temp, t.pc = .search i temp) := by
  cases arpReqInit_section hrun with
  | miss hpc hfound => exact Or.inr ⟨hfound, _, _, hpc⟩
  | request hpc =>
    left
    rw [ArpThread.Late, hpc]
    exact hlate
  | done hpc => exact Or.inl hlate
  | first hpc => exact absurd hlate (by decide : ¬ (5 : Int) ≤ 1)
  | flush hpc hpacks hlsus => exact absurd hlate (by decide : ¬ (5 : Int) ≤ 0)
  | create hpc | loop hpc hloop | leave hpc hloop hfates | resolve hpc hfound => exact hlate.elim

/-- A thread looks for the address of its entry. -/
theorem arpReqInit_temp (hrun : arpReqInit sr bytes found t entry = .ok (t', entry', log))
    {i : Int} {temp : InAddr} (hpc' : t'.pc = .search i temp) : temp = entry.ip := by
  cases arpReqInit_section hrun with
  | loop hpc hloop =>
    cases hpc'
    rfl
  | done hpc =>
    rw [hpc] at hpc'
    cases hpc'
  | create hpc | first hpc | leave hpc hloop hfates | resolve hpc hfound | miss hpc hfound
  | flush hpc hpacks hlsus | request hpc => cases hpc'

end Thread

section Queue

variable {sr : SrInstance} {s s' : ArpSubsys} {t t' : ArpThread} {x : ArpEvent} {k : Nat}
  {ip : InAddr}

/-- Thread `k` waits for the MAC of `ip` and will not look for it again. -/
def ArpSubsys.LateFor (s : ArpSubsys) (k : Nat) (ip : InAddr) : Prop :=
  ∃ t, s.threads[k]? = some t ∧ t.Late ∧ s.ipOf t = some ip

/-- Besides, every thread looks for the address of its entry. -/
structure LooksRight (s : ArpSubsys) : Prop extends OneCycle s where
  temp : ∀ t ∈ s.threads, ∀ i temp, t.pc = .search i temp → s.ipOf t = some temp

/-- The addresses of the entries stay, and further ones come behind. -/
theorem step_pending (h : OneCycle s) (hstep : ArpStep sr s x s') :
    ∃ later, s'.pending.map Arpq.ip = s.pending.map Arpq.ip ++ later := by
  cases x with
  | call c =>
    rcases getMacAddress_cases hstep with ⟨e, y, y', hy, -, hadd, -, rfl⟩ |
      ⟨e, y, y', hy, -, hadd, -, rfl⟩ | ⟨y, y', -, -, -, rfl⟩
    · exact ⟨[], (map_ip_set hy (Arpq.add_spec hadd).1).trans (List.append_nil _).symm⟩
    · refine ⟨[], (map_ip_set hy ?_).trans (List.append_nil _).symm⟩
      exact (Arpq.add_spec hadd).1
    · exact ⟨[y'.ip], List.map_append⟩
  | thread k found bytes =>
    rcases step_thread_cases hstep with rfl | ⟨t, y, t', y', log, ht, hpc, hy, hrun, rfl⟩
    · exact ⟨[], (List.append_nil _).symm⟩
    · obtain ⟨z, hz, hfits⟩ := h.fits t (List.mem_of_getElem? ht) hpc
      rw [hy] at hz
      cases hz
      exact ⟨[], (map_ip_set hy (arpReqInit_fits hrun hfits).2.1).trans (List.append_nil _).symm⟩

theorem ipOf_step (h : OneCycle s) (hstep : ArpStep sr s x s') (ht : s.ipOf t = some ip)
    (hentry : t'.entry = t.entry) : s'.ipOf t' = some ip := by
  obtain ⟨later, hlater⟩ := step_pending h hstep
  rw [ArpSubsys.ipOf, ← List.getElem?_map] at ht ⊢
  have hlt := (List.getElem?_eq_some_iff.mp ht).1
  rw [hentry, hlater, List.getElem?_append_left hlt]
  exact ht

/-- A thread was there before, is new, or has just run a section. -/
theorem thread_before (hstep : ArpStep sr s x s') (ht' : s'.threads[k]? = some t') :
    s.threads[k]? = some t' ∨ t'.pc = .creating ∨
      ∃ found bytes t entry entry' log, x = .thread k found bytes ∧ s.threads[k]? = some t ∧
        s.pending[t.entry]? = some entry ∧
        arpReqInit sr bytes found t entry = .ok (t', entry', log) := by
  have hnew : ∀ {e : Nat}, (s.threads ++ [⟨e, .creating, 0⟩])[k]? = some t' →
      s.threads[k]? = some t' ∨ t'.pc = .creating := by
    intro e ht'
    rcases Nat.lt_or_ge k s.threads.length with hlt | hge
    · rw [List.getElem?_append_left hlt] at ht'
      exact Or.inl ht'
    · rw [List.getElem?_append_right hge] at ht'
      rw [List.mem_singleton.mp (List.mem_of_getElem? ht')]
      exact Or.inr rfl
  cases x with
  | call c =>
    rcases getMacAddress_cases hstep with ⟨e, y, y', -, -, -, -, rfl⟩ |
      ⟨e, y, y', -, -, -, -, rfl⟩ | ⟨y, y', -, -, -, rfl⟩
    · exact Or.inl ht'
    · exact (hnew ht').imp_right Or.inl
    · exact (hnew ht').imp_right Or.inl
  | thread j found bytes =>
    rcases step_thread_cases hstep with rfl | ⟨t, y, t₁, y', log, ht, hpc, hy, hrun, rfl⟩
    · exact Or.inl ht'
    · rcases getElem?_set_some ht' with ⟨rfl, rfl⟩ | ⟨-, hold⟩
      · exact Or.inr (Or.inr ⟨found, bytes, t, y, y', log, rfl, ht, hy, hrun⟩)
      · exact Or.inl hold

theorem LooksRight.init : LooksRight arpSubsysInit where
  toOneCycle := .init
  temp := fun _ ht => nomatch ht

/-- A section keeps its thread at its entry. -/
theorem OneCycle.section_entry (h : OneCycle s) (ht : s.threads[k]? = some t) {entry entry' : Arpq}
    (hentry : s.pending[t.entry]? = some entry) {found : Option Mac} {bytes : Nat → UInt8}
    {log : List ArpLog} (hrun : arpReqInit sr bytes found t entry = .ok (t', entry', log)) :
    t'.entry = t.entry := by
  by_cases hpc : t.pc = .done
  · rw [arpReqInit, hpc] at hrun
    cases hrun
    rfl
  · obtain ⟨z, hz, hfits⟩ := h.fits t (List.mem_of_getElem? ht) hpc
    rw [hentry] at hz
    cases hz
    exact (arpReqInit_fits hrun hfits).1

theorem LooksRight.step (h : LooksRight s) (hstep : ArpStep sr s x s') : LooksRight s' := by
  refine ⟨h.toOneCycle.step hstep, fun t' ht' i temp hpc => ?_⟩
  obtain ⟨k, hk⟩ := List.mem_iff_getElem?.mp ht'
  rcases thread_before hstep hk with hold | hnew |
    ⟨found, bytes, t, entry, entry', log, rfl, ht, hentry, hrun⟩
  · exact ipOf_step h.toOneCycle hstep (h.temp t' (List.mem_of_getElem? hold) i temp hpc) rfl
  · rw [hnew] at hpc
    cases hpc
  · have hip : s.ipOf t = some temp := by
      rw [ArpSubsys.ipOf, hentry, arpReqInit_temp hrun hpc]
      rfl
    exact ipOf_step h.toOneCycle hstep hip (h.section_entry ht hentry hrun)

/-- A thread that is late was so before, or has just looked for its address in vain. -/
theorem LooksRight.lateFor (h : LooksRight s) (hstep : ArpStep sr s x s') (hlate : s'.LateFor k ip) :
    s.LateFor k ip ∨ ∃ bytes t i, x = .thread k none bytes ∧ s.threads[k]? = some t ∧
      t.pc = .search i ip := by
  obtain ⟨t', ht', hlate, hip'⟩ := hlate
  have hback : ∀ {t : ArpThread}, (∃ a, s.ipOf t = some a) → t'.entry = t.entry →
      s.ipOf t = some ip := by
    rintro t ⟨a, ha⟩ hentry
    have hsame := ipOf_step h.toOneCycle hstep ha hentry
    rw [hip'] at hsame
    rw [ha, ← hsame]
  rcases thread_before hstep ht' with hold | hnew |
    ⟨found, bytes, t, entry, entry', log, rfl, ht, hentry, hrun⟩
  · obtain ⟨entry, hentry, -⟩ := h.fits t' (List.mem_of_getElem? hold) hlate.not_done
    exact Or.inl ⟨t', hold, hlate, hback ⟨entry.ip, by rw [ArpSubsys.ipOf, hentry]; rfl⟩ rfl⟩
  · rw [ArpThread.Late, hnew] at hlate
    exact hlate.elim
  · have hip : s.ipOf t = some ip :=
      hback ⟨entry.ip, by rw [ArpSubsys.ipOf, hentry]; rfl⟩ (h.section_entry ht hentry hrun)
    rcases arpReqInit_late hrun hlate with hlate | ⟨rfl, i, temp, hpc⟩
    · exact Or.inl ⟨t, ht, hlate, hip⟩
    · have htemp := h.temp t (List.mem_of_getElem? ht) i temp hpc
      rw [hip, Option.some.injEq] at htemp
      exact Or.inr ⟨bytes, t, i, rfl, ht, by rw [hpc, htemp]⟩

end Queue

/-! ## What happens to the cache -/

section Cache

variable {sr : SrInstance} {w w' : TimedArp} {x : TimedInput} {k : Nat} {ip : InAddr}
  {e : ArpCacheEntry}

/-- The event puts the entry into the cache. -/
def TimedArp.Adds (w : TimedArp) (x : TimedInput) (e : ArpCacheEntry) : Prop :=
  x.event = .cache (.addCacheEntry e.ipAdd e.mac) ∧
    (searchCache w.cache x.clock e.ipAdd).2 = none ∧
    e.timenotvalid = x.clock w.cache.length + arpTimeout

/-- After a step of the run the time is that of its end, and the queue has taken a step or none. -/
theorem TimedStep.queue (h : TimedStep sr w x w') :
    w'.now = x.last ∧ (w'.queue = w.queue ∨ ∃ y, ArpStep sr w.queue y w'.queue) := by
  have hrun := h.run
  rw [TimedArp.step] at hrun
  cases hx : x.event with
  | call c =>
    simp only [hx] at hrun
    obtain ⟨queue, hqueue, hrun⟩ := bind_eq_ok.mp hrun
    cases hrun
    exact ⟨rfl, Or.inr ⟨_, hqueue⟩⟩
  | thread k bytes =>
    simp only [hx] at hrun
    obtain ⟨queue, hqueue, hrun⟩ := bind_eq_ok.mp hrun
    cases hrun
    exact ⟨rfl, Or.inr ⟨_, hqueue⟩⟩
  | cache op =>
    simp only [hx] at hrun
    obtain ⟨⟨cache, found⟩, hcache, hrun⟩ := bind_eq_ok.mp hrun
    cases hrun
    exact ⟨rfl, Or.inl rfl⟩

theorem TimedArp.not_adds (hx : ∀ ip mac, x.event ≠ .cache (.addCacheEntry ip mac)) (e : ArpCacheEntry) :
    ¬ w.Adds x e := fun h => hx _ _ h.1

theorem TimedArp.adds_iff {ip : InAddr} {mac : Mac} (hx : x.event = .cache (.addCacheEntry ip mac))
    (e : ArpCacheEntry) : w.Adds x e ↔ (searchCache w.cache x.clock ip).2 = none ∧
      e = ⟨ip, mac, x.clock w.cache.length + arpTimeout⟩ := by
  rw [TimedArp.Adds, hx]
  constructor
  · rintro ⟨hev, hnone, ht⟩
    cases hev
    exact ⟨hnone, by rw [← ht]⟩
  · rintro ⟨hnone, rfl⟩
    exact ⟨rfl, hnone, rfl⟩

/-- The cache after a step: the old one, or what has not expired of it, with what the step adds. -/
theorem TimedStep.cache_cases (h : TimedStep sr w x w') :
    (w'.cache = w.cache ∧ ∀ e, ¬ w.Adds x e) ∨
      (w'.cache = unexpired x.clock w.cache ∧ ∀ e, ¬ w.Adds x e) ∨
      ∃ e, w'.cache = unexpired x.clock w.cache ++ [e] ∧ ∀ e', w.Adds x e' ↔ e' = e := by
  have hrun := h.run
  rw [TimedArp.step] at hrun
  cases hx : x.event with
  | call c =>
    simp only [hx] at hrun
    obtain ⟨queue, -, hrun⟩ := bind_eq_ok.mp hrun
    cases hrun
    exact Or.inl ⟨rfl, TimedArp.not_adds fun ip mac heq => by rw [hx] at heq; cases heq⟩
  | thread k bytes =>
    have hno := @TimedArp.not_adds w x fun ip mac heq => by rw [hx] at heq; cases heq
    simp only [hx] at hrun
    obtain ⟨queue, -, hrun⟩ := bind_eq_ok.mp hrun
    cases hrun
    show ((w.look x.clock k).1 = w.cache ∧ _) ∨ ((w.look x.clock k).1 = _ ∧ _) ∨ _
    rw [TimedArp.look]
    split
    · exact Or.inr (Or.inl ⟨searchCache_fst _ _ _, hno⟩)
    · exact Or.inl ⟨rfl, hno⟩
  | cache op =>
    simp only [hx] at hrun
    obtain ⟨⟨cache, found⟩, hcache, hrun⟩ := bind_eq_ok.mp hrun
    cases hrun
    cases op with
    | searchCache ip =>
      have hfst := congrArg Prod.fst (Except.ok.inj hcache)
      rw [searchCache_fst] at hfst
      exact Or.inr (Or.inl ⟨hfst.symm, TimedArp.not_adds fun ip mac heq => by rw [hx] at heq; cases heq⟩)
    | addCacheEntry ip mac =>
      obtain ⟨cache', hadd, hcache⟩ := bind_eq_ok.mp hcache
      cases hcache
      simp only [TimedArp.adds_iff hx]
      right
      cases hfound : (searchCache w.cache x.clock ip).2 with
      | some mac' =>
        rw [addCacheEntry_some hfound] at hadd
        cases hadd
        exact Or.inl ⟨rfl, fun e hnew => nomatch hnew.1⟩
      | none =>
        rw [addCacheEntry_none hfound] at hadd
        split at hadd
        · cases hadd
        · cases hadd
          exact Or.inr ⟨_, rfl, fun e => and_iff_right rfl⟩

/-- Nothing comes into the cache but what is added. -/
theorem TimedStep.mem_before (h : TimedStep sr w x w') (he : e ∈ w'.cache) :
    e ∈ w.cache ∨ w.Adds x e := by
  have hsub := (unexpired_sublist x.clock w.cache).subset
  rcases h.cache_cases with ⟨heq, -⟩ | ⟨heq, -⟩ | ⟨e', heq, hiff⟩
  · exact Or.inl (heq ▸ he)
  · exact Or.inl (hsub (heq ▸ he))
  · rw [heq] at he
    rcases List.mem_append.mp he with he | he
    · exact Or.inl (hsub he)
    · exact Or.inr ((hiff e).mpr (List.mem_singleton.mp he))

/-- What was there, or is added, stays until it expires. -/
theorem TimedStep.mem_after (h : TimedStep sr w x w') (he : e ∈ w.cache ∨ w.Adds x e)
    (hle : w'.now ≤ e.timenotvalid) : e ∈ w'.cache := by
  have hkept : e ∈ w.cache → e ∈ unexpired x.clock w.cache := fun he =>
    mem_unexpired_of_le he fun i _ => Int.le_trans (h.last i) (by rw [← h.queue.1]; exact hle)
  rcases h.cache_cases with ⟨heq, hno⟩ | ⟨heq, hno⟩ | ⟨e', heq, hiff⟩
  · exact heq ▸ he.resolve_right (hno e)
  · exact heq ▸ hkept (he.resolve_right (hno e))
  · rw [heq]
    rcases he with he | hadds
    · exact List.mem_append_left _ (hkept he)
    · exact List.mem_append_right _ (List.mem_singleton.mpr ((hiff e).mp hadds))

/-- When a thread gets late, its address is not in the cache. -/
theorem TimedStep.lateFor (h : TimedStep sr w x w') (hlooks : LooksRight w.queue)
    (hlate : w'.queue.LateFor k ip) : w.queue.LateFor k ip ∨ ∀ e ∈ w'.cache, e.ipAdd ≠ ip := by
  have hrun := h.run
  rw [TimedArp.step] at hrun
  cases hx : x.event with
  | call c =>
    simp only [hx] at hrun
    obtain ⟨queue, hqueue, hrun⟩ := bind_eq_ok.mp hrun
    cases hrun
    rcases hlooks.lateFor hqueue hlate with hlate | ⟨bytes, t, i, hcall, -⟩
    · exact Or.inl hlate
    · cases hcall
  | thread j bytes =>
    simp only [hx] at hrun
    obtain ⟨queue, hqueue, hrun⟩ := bind_eq_ok.mp hrun
    cases hrun
    rcases hlooks.lateFor hqueue hlate with hlate | ⟨bytes', t, i, hthread, ht, hpc⟩
    · exact Or.inl hlate
    · obtain ⟨rfl, hnone, -⟩ := ArpEvent.thread.inj hthread
      right
      show ∀ e ∈ (w.look x.clock j).1, e.ipAdd ≠ ip
      have hlook : w.look x.clock j = searchCache w.cache x.clock ip := by
        rw [TimedArp.look, ht, Option.map_some, hpc]
      rw [hlook] at hnone ⊢
      rw [searchCache_fst]
      exact searchCache_none hnone
  | cache op =>
    simp only [hx] at hrun
    obtain ⟨⟨cache, found⟩, -, hrun⟩ := bind_eq_ok.mp hrun
    cases hrun
    exact Or.inl hlate

end Cache

/-! ## Over whole runs -/

/-- The thread of the event, if it gives up on an address, does so with no valid entry for it in the
cache. -/
def Unanswered (w : TimedArp) (x : TimedInput) : Prop :=
  ∀ k bytes t ip, x.event = .thread k bytes → w.queue.threads[k]? = some t → t.GivesUp →
    w.queue.ipOf t = some ip → ∀ e ∈ w.cache, e.ipAdd = ip → ¬ x.clock 0 ≤ e.timenotvalid

/-- The event of `y` caches a reply when thread `k` will not look for it any more, and the reply is
valid when the thread gives up in the event of `z`. -/
def TooLate (y z : TimedArp × TimedInput) : Prop :=
  ∃ k bytes t e, y.1.queue.LateFor k e.ipAdd ∧ y.1.Adds y.2 e ∧ z.2.event = .thread k bytes ∧
    z.1.queue.threads[k]? = some t ∧ t.GivesUp ∧ z.1.queue.ipOf t = some e.ipAdd ∧
    z.2.clock 0 ≤ e.timenotvalid

section Runs

variable {sr : SrInstance} {w w' : TimedArp} {x : TimedInput} {now : Time} {k : Nat} {ip : InAddr}
  {past : List (TimedArp × TimedInput)} {e : ArpCacheEntry}

theorem TimedStep.looksRight (h : TimedStep sr w x w') (hlooks : LooksRight w.queue) :
    LooksRight w'.queue := by
  rcases h.queue.2 with heq | ⟨y, hstep⟩
  · exact heq ▸ hlooks
  · exact hlooks.step hstep

theorem TimedStep.now_le (h : TimedStep sr w x w') : w.now ≤ w'.now := by
  rw [h.queue.1]
  exact Int.le_trans h.start (h.last 0)

theorem looksRight_of_history (h : History (TimedStep sr) (timedArpInit now) past w) :
    LooksRight w.queue :=
  h.invariant (J := fun w => LooksRight w.queue) .init fun _ _ _ hI hstep =>
    TimedStep.looksRight hstep hI

/-- An entry for the address of a late thread was added when the thread was late already. -/
theorem added_late (h : History (TimedStep sr) (timedArpInit now) past w)
    (hlate : w.queue.LateFor k e.ipAdd) (he : e ∈ w.cache) :
    ∃ y ∈ past, y.1.queue.LateFor k e.ipAdd ∧ y.1.Adds y.2 e := by
  induction h with
  | start => exact nomatch he
  | @next past w w' x hpast hstep ih =>
    rcases hstep.lateFor (looksRight_of_history hpast) hlate with hbefore | hnone
    · rcases hstep.mem_before he with hold | hadds
      · obtain ⟨y, hy, hlater⟩ := ih hbefore hold
        exact ⟨y, List.mem_append_left _ hy, hlater⟩
      · exact ⟨(w, x), List.mem_append_right _ (List.mem_singleton_self _), hbefore, hadds⟩
    · exact absurd rfl (hnone e he)

/-- What was added is there until it expires. -/
theorem added_stays (h : History (TimedStep sr) (timedArpInit now) past w)
    (hadded : ∃ y ∈ past, y.1.Adds y.2 e) (hle : w.now ≤ e.timenotvalid) : e ∈ w.cache := by
  induction h with
  | start =>
    obtain ⟨y, hy, -⟩ := hadded
    exact nomatch hy
  | @next past w w' x hpast hstep ih =>
    apply hstep.mem_after _ hle
    obtain ⟨y, hy, hadds⟩ := hadded
    rcases List.mem_append.mp hy with hy | hy
    · exact Or.inl (ih ⟨y, hy, hadds⟩ (Int.le_trans hstep.now_le hle))
    · rw [List.mem_singleton.mp hy] at hadds
      exact Or.inr hadds

/-- One giving up against all that was cached before it. -/
theorem unanswered_iff (h : History (TimedStep sr) (timedArpInit now) past w)
    (hnow : w.now ≤ x.clock 0) : Unanswered w x ↔ ∀ y ∈ past, ¬ TooLate y (w, x) := by
  constructor
  · rintro hun y hy ⟨k, bytes, t, e, -, hadds, hev, ht, hgives, hip, hle⟩
    have he := added_stays h ⟨y, hy, hadds⟩ (Int.le_trans hnow hle)
    exact hun k bytes t e.ipAdd hev ht hgives hip e he rfl hle
  · rintro hnone k bytes t ip hev ht hgives hip e he rfl hle
    obtain ⟨y, hy, hlate, hadds⟩ := added_late h ⟨t, ht, hgives.late, hip⟩ he
    exact hnone y hy ⟨k, bytes, t, e, hlate, hadds, hev, ht, hgives, hip, hle⟩

/-- In a run of callers, threads and operations on the cache, at any clock readings in order, every
thread that gives up does so without a valid entry for its next hop exactly if no reply was cached
between the last look-up of the thread and its giving up that is still valid then. -/
theorem gives_up_unanswered_iff (h : History (TimedStep sr) (timedArpInit now) past w) :
    (∀ z ∈ past, Unanswered z.1 z.2) ↔ past.Pairwise fun y z => ¬ TooLate y z := by
  induction h with
  | start => simp
  | @next past w w' x hpast hstep ih =>
    rw [List.forall_mem_append, List.forall_mem_singleton, List.pairwise_append, ih,
      unanswered_iff hpast hstep.start]
    simp

end Runs

section Demo

def demoInput (x : Time × TimedEvent) : TimedInput := ⟨fun _ => x.1, x.1, x.2⟩

/-- A run in which no operation takes longer than the clock can tell. -/
def demoTimed (events : List (Time × TimedEvent)) : Option TimedArp :=
  runAll (fun w x => w.step demoArpSr (demoInput x))
    (fun w x => decide (w.now ≤ x.1) && match x.2 with
      | .thread k _ => decide (w.awake k ≤ x.1)
      | _ => true) events (timedArpInit 0)

theorem demoTimed_history {events : List (Time × TimedEvent)} {w : TimedArp}
    (h : demoTimed events = some w) :
    ∃ past, History (TimedStep demoArpSr) (timedArpInit 0) past w ∧
      past.map Prod.snd = events.map demoInput := by
  refine History.of_runAll (fun w x w' hallow hrun => ?_) h
  obtain ⟨hnow, hawake⟩ := Bool.and_eq_true_iff.mp hallow
  refine ⟨monotone_const, of_decide_eq_true hnow, fun _ => Int.le_refl _, ?_, hrun⟩
  obtain ⟨t, event⟩ := x
  cases event with
  | thread k bytes =>
    show w.awake k ≤ t
    exact of_decide_eq_true hawake
  | call c => trivial
  | cache op => trivial

def demoSection : TimedEvent := .thread 0 fun _ => 0

def demoHopMac : Mac := Vector.replicate 6 2

/-- A data packet, five requests in 20 seconds, and five more seconds of sleep. -/
def demoRequests : List (Time × TimedEvent) :=
  [(0, .call demoDataCall), (0, demoSection), (0, demoSection)] ++
    [5, 10, 15, 20].flatMap fun t => [(t, demoSection), (t, demoSection), (t, demoSection)]

/-- No reply comes. -/
theorem gives_up_unanswered_demo :
    ∃ past w, History (TimedStep demoArpSr) (timedArpInit 0) past w ∧
      (w.queue.threads.map ArpThread.pc = [.done]) ∧ ∀ z ∈ past, Unanswered z.1 z.2 := by
  have hrun : (demoTimed (demoRequests ++ [(25, demoSection)])).map
      (fun w => w.queue.threads.map ArpThread.pc) = some [.done] := by decide +kernel
  obtain ⟨w, hw, hpc⟩ := Option.map_eq_some_iff.mp hrun
  obtain ⟨past, hpast, hinputs⟩ := demoTimed_history hw
  refine ⟨past, w, hpast, hpc, (gives_up_unanswered_iff hpast).mpr ?_⟩
  have hnone : ∀ x ∈ demoRequests ++ [(25, demoSection)], ∀ op, x.2 ≠ .cache op := by
    simp [demoRequests, demoSection]
  apply List.pairwise_of_forall_mem_list
  rintro y hy z - ⟨k, bytes, t, e, -, hadds, -⟩
  have hin : y.2 ∈ past.map Prod.snd := List.mem_map_of_mem hy
  rw [hinputs] at hin
  obtain ⟨x, hx, hxy⟩ := List.mem_map.mp hin
  apply hnone x hx
  rw [← hadds.1, ← hxy]
  rfl

/-- The reply to the fifth request comes after a second, and the packets are given up on four seconds
later. -/
theorem gives_up_unanswered_false :
    ¬ ∀ (sr : SrInstance) (now : Time) (past : List (TimedArp × TimedInput)) (w : TimedArp),
      History (TimedStep sr) (timedArpInit now) past w → ∀ z ∈ past, Unanswered z.1 z.2 := by
  intro hclaim
  have hrun : (demoTimed (demoRequests ++ [(21, .cache (.addCacheEntry 7 demoHopMac))])).map
      (fun w => (w.queue.threads.map fun t => (t.pc, w.queue.ipOf t), w.cache, [w.now, w.awake 0],
        (w.step demoArpSr (demoInput (25, demoSection))).toOption.isSome)) =
      some ([(.head 5, some 7)], [⟨7, demoHopMac, 36⟩], [21, 25], true) := by decide +kernel
  obtain ⟨w, hw, hfacts⟩ := Option.map_eq_some_iff.mp hrun
  simp only [Prod.mk.injEq] at hfacts
  obtain ⟨hthread, hcache, htimes, hsome⟩ := hfacts
  obtain ⟨hnow, hawake⟩ : w.now = 21 ∧ w.awake 0 = 25 := by simpa using htimes
  obtain ⟨past, hpast, -⟩ := demoTimed_history hw
  obtain ⟨t, ht, hthread⟩ := List.map_eq_singleton_iff.mp hthread
  obtain ⟨hpc, hip⟩ := Prod.mk.inj hthread
  cases hlast : w.step demoArpSr (demoInput (25, demoSection)) with
  | error f =>
    rw [hlast] at hsome
    cases hsome
  | ok w' =>
    have hstep : TimedStep demoArpSr w (demoInput (25, demoSection)) w' := by
      refine ⟨monotone_const, ?_, fun _ => Int.le_refl _, ?_, hlast⟩
      · rw [hnow]
        decide
      · show w.awake 0 ≤ 25
        rw [hawake]
    have hun := hclaim _ _ _ _ (.next hpast hstep) _
      (List.mem_append_right _ (List.mem_singleton_self _))
    apply hun 0 _ t 7 rfl (by rw [ht]; rfl) ⟨5, hpc, Int.le_refl 5⟩ hip ⟨7, demoHopMac, 36⟩ _ rfl
    · exact (by decide : (25 : Time) ≤ 36)
    · show _ ∈ w.cache
      rw [hcache]
      exact List.mem_singleton_self _

end Demo

end PWOSPF
