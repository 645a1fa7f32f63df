import PWOSPF.Framework.LockOrder
import PWOSPF.Topology.State
import Mathlib.Data.Fintype.EquivFin

/-!
# The three mutexes of the router

Every function that takes a lock, directly or through a call, is reduced to its control flow: the
calls of `pwospf_lock`, `lock_cache` and `lock_arp_q` and of their counterparts, thread creation,
early returns and the loops and branches around them. Branches and loops without any of these are
left out. The receive thread, the PWOSPF thread and the ARP threads run these skeletons.
-/

namespace PWOSPF.Locking

open Framework Framework.Skeleton

/-- The lock of the PWOSPF subsystem, `cache_lock` and `arp_q_lock`. -/
inductive Mutex
  | pwospf
  | cache
  | queue
  deriving DecidableEq

/-- The receive thread, the thread of `pwospf_run_thread` and those of `arp_req_init`. -/
inductive Role
  | receive
  | pwospf
  | arp
  deriving DecidableEq

/-- The PWOSPF lock comes before the two ARP locks, which are not ordered. -/
instance : PartialOrder Mutex where
  le a b := a = .pwospf ∨ a = b
  lt a b := a = .pwospf ∧ b ≠ .pwospf
  le_refl a := .inr rfl
  le_trans a b c hab hbc := by
    rcases hab with rfl | rfl
    · exact .inl rfl
    · exact hbc
  le_antisymm a b hab hba := by
    rcases hab with rfl | rfl
    · rcases hba with rfl | rfl <;> rfl
    · rfl
  lt_iff_le_not_ge a b := by cases a <;> cases b <;> simp

instance : Fintype Mutex := ⟨{.pwospf, .cache, .queue}, by intro m; cases m <;> simp⟩

theorem mutex_lt_iff {a b : Mutex} : a < b ↔ a = .pwospf ∧ b ≠ .pwospf := Iff.rfl

instance : DecidableLT Mutex := fun a b => decidable_of_iff _ (mutex_lt_iff (a := a) (b := b)).symm

@[simp] theorem pwospf_lt_cache : Mutex.pwospf < .cache := by decide

@[simp] theorem pwospf_lt_queue : Mutex.pwospf < .queue := by decide

@[simp] def pwospfLock : Skeleton Mutex Role := act (.acquire .pwospf)

@[simp] def pwospfUnlock : Skeleton Mutex Role := act (.release .pwospf)

@[simp] def lockCache : Skeleton Mutex Role := act (.acquire .cache)

@[simp] def unlockCache : Skeleton Mutex Role := act (.release .cache)

@[simp] def lockArpQ : Skeleton Mutex Role := act (.acquire .queue)

@[simp] def unlockArpQ : Skeleton Mutex Role := act (.release .queue)

/-- `pthread_create` with `arp_req_init`. -/
@[simp] def createArpThread : Skeleton Mutex Role := act (.spawn .arp)

/-! ### arp.c -/

def searchCache : Skeleton Mutex Role :=
  block [lockCache,
    loop (either (block [unlockCache, ret]) skip),
    unlockCache, ret]

def addCacheEntry : Skeleton Mutex Role :=
  block [call searchCache, either (block [lockCache, unlockCache]) skip]

def gotReply : Skeleton Mutex Role :=
  block [call addCacheEntry, call searchCache, ret]

/-- A frame shorter than the header, a request, a reply and any other operation. -/
def handleArp : Skeleton Mutex Role :=
  block [either skip (either ret (either (block [call gotReply, ret]) ret)), ret]

/-! ### arpq.c -/

/-- An entry that is being resolved, one that was given up and no entry. -/
def getMacAddress : Skeleton Mutex Role :=
  block [lockArpQ,
    either unlockArpQ
      (either (block [unlockArpQ, createArpThread]) (block [unlockArpQ, createArpThread]))]

def arpReqInit : Skeleton Mutex Role :=
  block [lockArpQ, unlockArpQ,
    loop (block [lockArpQ, unlockArpQ, call searchCache,
      either (block [lockArpQ, unlockArpQ]) (block [lockArpQ, unlockArpQ])]),
    lockArpQ, unlockArpQ, ret]

/-! ### hello.c -/

/-- The inner return is the one for a HELLO that does not match the receiving interface. -/
def handleHello : Skeleton Mutex Role :=
  block [pwospfLock,
    either skip (loop (either (either (block [pwospfUnlock, ret]) skip) skip)),
    pwospfUnlock, ret]

def sendHello : Skeleton Mutex Role := block [pwospfLock, pwospfUnlock]

/-! ### top_info.c -/

def checkTopInvalid : Skeleton Mutex Role := block [pwospfLock, pwospfUnlock]

def addToTop : Skeleton Mutex Role := block [pwospfLock, pwospfUnlock, ret]

def getSequence : Skeleton Mutex Role :=
  block [pwospfLock, loop (either (block [pwospfUnlock, ret]) skip), pwospfUnlock, ret]

def setSequence : Skeleton Mutex Role :=
  block [pwospfLock, loop (either brk skip), pwospfUnlock]

/-! ### lsu.c -/

/-- The two loops run over the interfaces and over the neighbors of one. -/
def forwardLsu : Skeleton Mutex Role :=
  either (either
    (block [pwospfLock,
      loop (loop (either (block [call searchCache, either skip (call getMacAddress)]) skip)),
      pwospfUnlock])
    skip) skip

def handleLsu : Skeleton Mutex Role :=
  block [pwospfLock,
    either (block [pwospfUnlock, ret]) skip,
    pwospfUnlock, call getSequence,
    either ret skip,
    call addToTop, call setSequence, call forwardLsu, ret]

def sendLsu : Skeleton Mutex Role :=
  block [pwospfLock,
    loop (loop (block [call searchCache, either skip (call getMacAddress)])),
    pwospfUnlock]

/-! ### sr_pwospf.c -/

/-- The version, the checksum, the area and the authentication type are checked before the type. -/
def handlePwospf : Skeleton Mutex Role :=
  block [either ret skip, either ret skip, either ret skip, either ret skip,
    either (call handleHello) (either (call handleLsu) ret), ret]

/-- The calls of one round of the loop of `pwospf_run_thread`. -/
def pwospfRunThread : List (Skeleton Mutex Role) :=
  List.replicate (ospfDefaultLsuint / ospfDefaultHelloint.toNat).toNat sendHello ++
    [checkTopInvalid, sendLsu]

/-! ### sr_router.c -/

def getDynRoutingIf : Skeleton Mutex Role :=
  block [pwospfLock, either (block [pwospfUnlock, ret]) (block [pwospfUnlock, ret])]

def createEthHdr : Skeleton Mutex Role :=
  block [either (either skip (either skip ret)) ret,
    either skip (either skip ret),
    call searchCache,
    either ret (block [call getMacAddress, ret]),
    ret]

/-- The branch of `handle_ip` for a datagram addressed to the interface under consideration. Only
one that comes from an external to an internal interface goes through the firewall. -/
def handleIpDestination : Skeleton Mutex Role :=
  block [
    either
      (either (either ret skip)
        (either (either (either ret skip) ret)
          (either (block [call handlePwospf, ret]) ret)))
      skip,
    either skip (either (block [call handlePwospf, ret]) skip),
    ret]

/-- The branch of `handle_ip` for a datagram to be forwarded. -/
def handleIpForward : Skeleton Mutex Role :=
  block [call getDynRoutingIf,
    either (either ret skip) skip,
    either
      -- from an external interface: the route leads to an internal one or not
      (either
        (either (either ret skip)
          (either (either (either ret skip) (either (block [call handlePwospf, ret]) ret)) ret))
        skip)
      (either (either ret skip) (either (either (either ret skip) ret) ret))]

def handleIp : Skeleton Mutex Role :=
  block [either ret skip, either ret skip,
    loop (either handleIpDestination (either (block [call handlePwospf, ret]) skip)),
    either handleIpForward skip,
    ret]

def srHandlepacket : Skeleton Mutex Role :=
  either skip
    (either (block [call handleIp, either (call createEthHdr) skip])
      (either (call handleArp) skip))

/-- What a thread runs as its `k`-th call: the receive thread one frame after the other, the PWOSPF
thread its rounds, an ARP thread the one function it was created with. -/
def program : Role → Nat → Option (Skeleton Mutex Role)
  | .receive, _ => some srHandlepacket
  | .pwospf, k => pwospfRunThread[k % pwospfRunThread.length]?
  | .arp, k => if k = 0 then some arpReqInit else none

/-- `pwospf_init` creates the second thread; both are about to make their first call. -/
def start : List (Thread Mutex Role) := [.spawned .receive, .spawned .pwospf]

abbrev System := List (Thread Mutex Role)

/-- Any thread may make the next step. -/
abbrev Reached : System → Prop := Reach (ThreadStep program) (fun _ _ => True) start

/-! ### What every function does to the locks it is called with -/

section Functions

variable {held : List Mutex}

/-- The two functions that are called with the PWOSPF lock and without it. -/
theorem searchCache_keeps (h : ∀ m ∈ held, m = .pwospf) : searchCache.Keeps held := by
  have hlt : ∀ m ∈ held, m < .cache := fun m hm => h m hm ▸ pwospf_lt_cache
  rw [Keeps, searchCache]
  simpa using hlt

theorem getMacAddress_keeps (h : ∀ m ∈ held, m = .pwospf) : getMacAddress.Keeps held := by
  have hlt : ∀ m ∈ held, m < .queue := fun m hm => h m hm ▸ pwospf_lt_queue
  rw [Keeps, getMacAddress]
  simpa using hlt

theorem addCacheEntry_keeps : addCacheEntry.Keeps [] := by
  rw [Keeps, addCacheEntry]
  simp [searchCache_keeps]

theorem gotReply_keeps : gotReply.Keeps [] := by
  rw [Keeps, gotReply]
  simp [addCacheEntry_keeps, searchCache_keeps]

theorem handleArp_keeps : handleArp.Keeps [] := by
  rw [Keeps, handleArp]
  simp [gotReply_keeps]

theorem arpReqInit_keeps : arpReqInit.Keeps [] := by
  rw [Keeps, arpReqInit]
  simp [searchCache_keeps]

theorem handleHello_keeps : handleHello.Keeps [] := by
  rw [Keeps, handleHello]
  simp

/-- An early return without the unlock would not pass. -/
example : ¬ (block [pwospfLock, either ret skip, pwospfUnlock, ret]).Keeps [] := by
  rw [Keeps]
  simp

theorem sendHello_keeps : sendHello.Keeps [] := by
  rw [Keeps, sendHello]
  simp

theorem checkTopInvalid_keeps : checkTopInvalid.Keeps [] := by
  rw [Keeps, checkTopInvalid]
  simp

theorem addToTop_keeps : addToTop.Keeps [] := by
  rw [Keeps, addToTop]
  simp

theorem getSequence_keeps : getSequence.Keeps [] := by
  rw [Keeps, getSequence]
  simp

theorem setSequence_keeps : setSequence.Keeps [] := by
  rw [Keeps, setSequence]
  simp

theorem forwardLsu_keeps : forwardLsu.Keeps [] := by
  rw [Keeps, forwardLsu]
  simp [searchCache_keeps, getMacAddress_keeps]

theorem handleLsu_keeps : handleLsu.Keeps [] := by
  rw [Keeps, handleLsu]
  simp [getSequence_keeps, addToTop_keeps, setSequence_keeps, forwardLsu_keeps]

theorem sendLsu_keeps : sendLsu.Keeps [] := by
  rw [Keeps, sendLsu]
  simp [searchCache_keeps, getMacAddress_keeps]

theorem handlePwospf_keeps : handlePwospf.Keeps [] := by
  rw [Keeps, handlePwospf]
  simp [handleHello_keeps, handleLsu_keeps]

theorem getDynRoutingIf_keeps : getDynRoutingIf.Keeps [] := by
  rw [Keeps, getDynRoutingIf]
  simp

theorem createEthHdr_keeps : createEthHdr.Keeps [] := by
  rw [Keeps, createEthHdr]
  simp [searchCache_keeps, getMacAddress_keeps]

theorem handleIp_keeps : handleIp.Keeps [] := by
  rw [Keeps, handleIp]
  simp [handleIpDestination, handleIpForward, handlePwospf_keeps, getDynRoutingIf_keeps]

theorem srHandlepacket_keeps : srHandlepacket.Keeps [] := by
  rw [Keeps, srHandlepacket]
  simp [handleIp_keeps, createEthHdr_keeps, handleArp_keeps]

end Functions

theorem program_keeps {r : Role} {k : Nat} {p : Skeleton Mutex Role} (h : program r k = some p) :
    p.Keeps [] := by
  cases r with
  | receive =>
    cases h
    exact srHandlepacket_keeps
  | pwospf =>
    have hmem := List.mem_of_getElem? h
    rw [pwospfRunThread, List.mem_append, List.mem_replicate] at hmem
    rcases hmem with ⟨_, rfl⟩ | hmem
    · exact sendHello_keeps
    · rcases List.mem_pair.mp hmem with rfl | rfl
      · exact checkTopInvalid_keeps
      · exact sendLsu_keeps
  | arp =>
    rw [program] at h
    split at h
    · cases h
      exact arpReqInit_keeps
    · cases h

theorem Reached.ordered {s : System} (h : Reached s) : ∀ t ∈ s, t.Ordered := by
  apply Reach.ordered (fun _ _ _ => program_keeps) _ h
  simp [start, Thread.spawned, Thread.Ordered, heldAfter]

/-- What stands between lock and unlock of one mutex is never interleaved with another thread's. -/
theorem Reached.exclusive {s : System} (h : Reached s) : Exclusive s := by
  apply Reach.exclusive _ h
  rintro i j m ⟨t, ht, hm⟩
  have hnone : t.held = [] := by
    rcases List.mem_pair.mp (List.mem_of_getElem? ht) with rfl | rfl <;> rfl
  rw [hnone] at hm
  cases hm

/-- The router never hangs on its mutexes: as long as a call is under way, one of the threads with a
call under way can make its next step. -/
theorem calls_goOn {s : System} (h : Reached s) (hbusy : ∃ t ∈ s, t.todo ≠ []) :
    ∃ i t, s[i]? = some t ∧ t.todo ≠ [] ∧ ∃ s', ThreadStep program s i s' :=
  exists_step h.ordered hbusy

/-- The operations of a frame with an LSU that is flooded to a neighbor with unknown address. -/
def floodOps : List (LockOp Mutex Role) :=
  [.acquire .pwospf, .release .pwospf, .acquire .pwospf, .release .pwospf,
    .acquire .pwospf, .release .pwospf, .acquire .pwospf, .release .pwospf,
    .acquire .pwospf, .acquire .cache, .release .cache, .acquire .queue, .release .queue,
    .spawn .arp, .release .pwospf]

theorem floodOps_path : Path (.call srHandlepacket) floodOps .done := by
  have hsearch : Path (.call searchCache) _ .done :=
    .call (.seq (.act _) (.seq .stop (.seq (.act _) (.leave .ret nofun)))) nofun
  have hmac : Path (.call getMacAddress) _ .done :=
    .call (.seq (.act _)
      (.seq (.right (.right (.seq (.act _) (.seq (.act _) .skip)))) .skip)) nofun
  have hforward : Path (.call forwardLsu) _ .done :=
    .call (.left (.left (.seq (.act _)
      (.seq (.again (.again (.left (.seq hsearch (.seq (.right hmac) .skip))) .stop) .stop)
        (.seq (.act _) .skip))))) nofun
  have hget : Path (.call getSequence) _ .done :=
    .call (.seq (.act _) (.seq .stop (.seq (.act _) (.leave .ret nofun)))) nofun
  have hadd : Path (.call addToTop) _ .done :=
    .call (.seq (.act _) (.seq (.act _) (.leave .ret nofun))) nofun
  have hset : Path (.call setSequence) _ .done :=
    .call (.seq (.act _) (.seq .stop (.seq (.act _) .skip))) nofun
  have hlsu : Path (.call handleLsu) _ .done :=
    .call (.seq (.act _) (.seq (.right .skip) (.seq (.act _) (.seq hget (.seq (.right .skip)
      (.seq hadd (.seq hset (.seq hforward (.leave .ret nofun))))))))) nofun
  have hpwospf : Path (.call handlePwospf) _ .done :=
    .call (.seq (.right .skip) (.seq (.right .skip) (.seq (.right .skip) (.seq (.right .skip)
      (.seq (.right (.left hlsu)) (.leave .ret nofun)))))) nofun
  have hip : Path (.call handleIp) _ .done :=
    .call (.seq (.right .skip) (.seq (.right .skip)
      (.leave (.returned (.right (.left (.seq hpwospf (.leave .ret nofun))))) nofun))) nofun
  have h : Path (.call srHandlepacket) _ .done :=
    .call (.right (.left (.seq hip (.seq (.right .skip) .skip)))) nofun
  exact h

/-- The receive thread floods an LSU and looks up a neighbor's address, the PWOSPF thread is about
to send its first HELLO. -/
def floodState : System :=
  [⟨.receive, 1, [.cache, .pwospf], floodOps.drop 10⟩,
    ⟨.pwospf, 1, [], [.acquire .pwospf, .release .pwospf]⟩]

theorem reached_floodState : Reached floodState := by
  have hhello : Path (.call sendHello) _ .done :=
    .call (.seq (.act _) (.seq (.act _) .skip)) nofun
  have h₀ : Reached start := .start
  have h₁ : Reached _ := .next h₀ trivial (.begin (i := 1) rfl rfl rfl hhello)
  have h₂ : Reached _ := .next h₁ trivial (.begin (i := 0) rfl rfl rfl floodOps_path)
  -- the comparison with the own router ID, `get_sequence`, `add_to_top` and `set_sequence`
  have h₃ : Reached _ := .next h₂ trivial (.acquire (i := 0) rfl rfl (by decide))
  have h₄ : Reached _ := .next h₃ trivial (.release (i := 0) rfl rfl)
  have h₅ : Reached _ := .next h₄ trivial (.acquire (i := 0) rfl rfl (by decide))
  have h₆ : Reached _ := .next h₅ trivial (.release (i := 0) rfl rfl)
  have h₇ : Reached _ := .next h₆ trivial (.acquire (i := 0) rfl rfl (by decide))
  have h₈ : Reached _ := .next h₇ trivial (.release (i := 0) rfl rfl)
  have h₉ : Reached _ := .next h₈ trivial (.acquire (i := 0) rfl rfl (by decide))
  have h₁₀ : Reached _ := .next h₉ trivial (.release (i := 0) rfl rfl)
  -- `forward_lsu` and in it `search_cache`
  have h₁₁ : Reached _ := .next h₁₀ trivial (.acquire (i := 0) rfl rfl (by decide))
  have h₁₂ : Reached _ := .next h₁₁ trivial (.acquire (i := 0) rfl rfl (by decide))
  exact h₁₂

/-- In any interleaving no thread requests a mutex it holds, a thread between two calls holds none,
no set of threads waits in a circle, a mutex is only requested by a thread that holds none or by one that
holds the PWOSPF lock and requests another, and a thread can go on as long as a call is under way. -/
theorem lock_discipline {s : System} (h : Reached s) :
    (∀ t ∈ s, ∀ m, t.Requests m → m ∉ t.held) ∧
    (∀ t ∈ s, t.todo = [] → t.held = []) ∧
    (∀ S, ¬ CircularWait s S) ∧
    (∀ t ∈ s, ∀ m, t.Requests m → ∀ k ∈ t.held, k = .pwospf ∧ m ≠ .pwospf) ∧
    ((∃ t ∈ s, t.todo ≠ []) → ∃ i t, s[i]? = some t ∧ t.todo ≠ [] ∧ ∃ s', ThreadStep program s i s') := by
  have hordered := h.ordered
  have hlt : ∀ t ∈ s, ∀ m, t.Requests m → ∀ k ∈ t.held, k < m :=
    fun t ht _ hreq => (hordered t ht).held_lt hreq
  refine ⟨?_, ?_, not_circularWait hordered, ?_, calls_goOn h⟩
  · intro t ht m hreq hheld
    exact lt_irrefl m (hlt t ht m hreq m hheld)
  · intro t ht hidle
    exact (hordered t ht).held_eq_nil hidle
  · intro t ht m hreq k hk
    exact mutex_lt_iff.mp (hlt t ht m hreq k hk)

theorem lock_discipline_flood :
    Waits floodState 1 0 ∧
    (∀ t ∈ floodState, ∀ m, t.Requests m → m ∉ t.held) ∧
    (∀ t ∈ floodState, t.todo = [] → t.held = []) ∧
    (∀ S, ¬ CircularWait floodState S) ∧
    (∀ t ∈ floodState, ∀ m, t.Requests m → ∀ k ∈ t.held, k = .pwospf ∧ m ≠ .pwospf) ∧
    ∃ i t, floodState[i]? = some t ∧ t.todo ≠ [] ∧ ∃ s', ThreadStep program floodState i s' := by
  obtain ⟨hown, hidle, hcircle, hnested, hgoes⟩ := lock_discipline reached_floodState
  refine ⟨⟨_, _, .pwospf, rfl, rfl, rfl, by decide⟩, hown, hidle, hcircle, hnested, ?_⟩
  exact hgoes ⟨_, List.mem_cons_self, by decide⟩

end PWOSPF.Locking
