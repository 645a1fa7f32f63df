import Mathlib
import PWOSPF.Framework.TimedMap
import PWOSPF.Topology.State

/-!
# The ARP cache

`arp.c`: a list of entries that every look-up walks to unlink the expired ones, reading the clock for
each entry. It answers like a map with expiring bindings, and holds one entry for an address.
-/

namespace PWOSPF

open Framework

def arpTimeout : Time := 15

structure ArpCacheEntry where
  ipAdd : InAddr
  mac : Mac
  timenotvalid : Time
  deriving DecidableEq, Repr

/-- The loop of `check_cache_invalid`, with the entries up to `prev` in `kept`. -/
def checkCacheInvalid (clock : Nat → Time) (kept : List ArpCacheEntry) :
    List ArpCacheEntry → List ArpCacheEntry
  | [] => kept
  | walker :: rest =>
    if walker.timenotvalid < clock 0 then
      match kept, rest with
      | [], _ :: _ => checkCacheInvalid (later 1 clock) [] rest
      | [], [] => []
      | _ :: _, [] => kept
      | _ :: _, _ :: _ => checkCacheInvalid (later 1 clock) kept rest
    else checkCacheInvalid (later 1 clock) (kept ++ [walker]) rest

/-- Also the MAC of the address, if it is in the cache. -/
def searchCache (cache : List ArpCacheEntry) (clock : Nat → Time) (ip : InAddr) :
    List ArpCacheEntry × Option Mac :=
  let cache := checkCacheInvalid clock [] cache
  (cache, (cache.find? fun cacheWalker => ip = cacheWalker.ipAdd).map ArpCacheEntry.mac)

def addCacheEntry (cache : List ArpCacheEntry) (clock : Nat → Time) (ip : InAddr) (mac : Mac) :
    Exec (List ArpCacheEntry) :=
  match searchCache cache clock ip with
  | (cache', some _) => .ok cache'
  | (cache', none) =>
    if ip = 0 then .error .assertion
    else .ok (cache' ++ [⟨ip, mac, clock cache.length + arpTimeout⟩])

/-! ## Expiry -/

variable {cache : List ArpCacheEntry} {clock : Nat → Time} {e : ArpCacheEntry}

/-- The entries that have not expired when the walk comes to them. -/
def unexpired (clock : Nat → Time) : List ArpCacheEntry → List ArpCacheEntry
  | [] => []
  | e :: rest =>
    if e.timenotvalid < clock 0 then unexpired (later 1 clock) rest
    else e :: unexpired (later 1 clock) rest

/-- The branches for the head, the middle and the end of the list unlink the same way. -/
theorem checkCacheInvalid_eq (clock : Nat → Time) (kept rest : List ArpCacheEntry) :
    checkCacheInvalid clock kept rest = kept ++ unexpired clock rest := by
  induction rest generalizing clock kept with
  | nil => rw [checkCacheInvalid, unexpired, List.append_nil]
  | cons walker rest ih =>
    unfold checkCacheInvalid
    rw [unexpired]
    by_cases hexp : walker.timenotvalid < clock 0
    · rw [if_pos hexp, if_pos hexp]
      cases kept with
      | nil =>
        cases rest with
        | nil => rfl
        | cons next rest => exact ih (later 1 clock) []
      | cons prev kept =>
        cases rest with
        | nil => rw [unexpired, List.append_nil]
        | cons next rest => exact ih (later 1 clock) (prev :: kept)
    · rw [if_neg hexp, if_neg hexp, ih, List.append_assoc, List.singleton_append]

theorem unexpired_sublist (clock : Nat → Time) (cache : List ArpCacheEntry) :
    (unexpired clock cache).Sublist cache := by
  induction cache generalizing clock with
  | nil => exact List.Sublist.slnil
  | cons e rest ih =>
    rw [unexpired]
    split
    · exact (ih (later 1 clock)).cons e
    · exact (ih (later 1 clock)).cons_cons e

/-- An entry that stays had not expired at some reading. -/
theorem mem_unexpired (h : e ∈ unexpired clock cache) :
    ∃ i, i < cache.length ∧ clock i ≤ e.timenotvalid := by
  induction cache generalizing clock with
  | nil => cases h
  | cons a rest ih =>
    have hrest : e ∈ unexpired (later 1 clock) rest →
        ∃ i, i < (a :: rest).length ∧ clock i ≤ e.timenotvalid := by
      intro h
      obtain ⟨i, hi, hle⟩ := ih h
      exact ⟨i + 1, Nat.succ_lt_succ hi, hle⟩
    rw [unexpired] at h
    by_cases hexp : a.timenotvalid < clock 0
    · rw [if_pos hexp] at h
      exact hrest h
    · rw [if_neg hexp] at h
      cases h with
      | head => exact ⟨0, Nat.succ_pos _, Int.not_lt.mp hexp⟩
      | tail _ h => exact hrest h

/-- An entry that has not expired at any of the readings stays. -/
theorem mem_unexpired_of_le (he : e ∈ cache) (h : ∀ i < cache.length, clock i ≤ e.timenotvalid) :
    e ∈ unexpired clock cache := by
  induction cache generalizing clock with
  | nil => cases he
  | cons a rest ih =>
    have hrest : e ∈ rest → e ∈ unexpired (later 1 clock) rest := fun he =>
      ih he fun i hi => h (i + 1) (Nat.succ_lt_succ hi)
    rw [unexpired]
    by_cases hexp : a.timenotvalid < clock 0
    · rw [if_pos hexp]
      cases he with
      | head => exact absurd (h 0 (Nat.succ_pos _)) (Int.not_le.mpr hexp)
      | tail _ he => exact hrest he
    · rw [if_neg hexp]
      cases he with
      | head => exact List.mem_cons_self
      | tail _ he => exact List.mem_cons_of_mem _ (hrest he)

theorem searchCache_fst (cache : List ArpCacheEntry) (clock : Nat → Time) (ip : InAddr) :
    (searchCache cache clock ip).1 = unexpired clock cache := by
  rw [searchCache, checkCacheInvalid_eq, List.nil_append]

theorem searchCache_some {ip : InAddr} {mac : Mac} (h : (searchCache cache clock ip).2 = some mac) :
    ∃ e ∈ unexpired clock cache, e.ipAdd = ip ∧ e.mac = mac := by
  rw [searchCache, checkCacheInvalid_eq, List.nil_append] at h
  obtain ⟨e, hfind, hmac⟩ := Option.map_eq_some_iff.mp h
  have hip := List.find?_some hfind
  exact ⟨e, List.mem_of_find?_eq_some hfind, (of_decide_eq_true hip).symm, hmac⟩

theorem searchCache_none {ip : InAddr} (h : (searchCache cache clock ip).2 = none) :
    ∀ e ∈ unexpired clock cache, e.ipAdd ≠ ip := by
  rw [searchCache, checkCacheInvalid_eq, List.nil_append] at h
  intro e he hip
  have hnot := List.find?_eq_none.mp (Option.map_eq_none_iff.mp h) e he
  exact hnot (decide_eq_true hip.symm)

theorem searchCache_eq_none {ip : InAddr} :
    (searchCache cache clock ip).2 = none ↔ ∀ e ∈ unexpired clock cache, e.ipAdd ≠ ip := by
  constructor
  · exact searchCache_none
  · intro hnone
    cases hfound : (searchCache cache clock ip).2 with
    | none => rfl
    | some mac =>
      obtain ⟨e, he, hip, -⟩ := searchCache_some hfound
      exact absurd hip (hnone e he)

/-- The walk comes to the last entry after all others. -/
theorem unexpired_concat (clock : Nat → Time) (cache : List ArpCacheEntry) (e : ArpCacheEntry) :
    unexpired clock (cache ++ [e]) =
      unexpired clock cache ++ if e.timenotvalid < clock cache.length then [] else [e] := by
  induction cache generalizing clock with
  | nil => rfl
  | cons a rest ih =>
    rw [List.cons_append, unexpired, unexpired, ih, List.length_cons]
    by_cases hexp : a.timenotvalid < clock 0
    · rw [if_pos hexp, if_pos hexp]
      rfl
    · rw [if_neg hexp, if_neg hexp]
      rfl

section Add

variable {ip : InAddr} {mac mac' : Mac}

/-- An address that is in the cache keeps its MAC. -/
theorem addCacheEntry_some (h : (searchCache cache clock ip).2 = some mac') (mac : Mac) :
    addCacheEntry cache clock ip mac = .ok (unexpired clock cache) := by
  rw [addCacheEntry, ← searchCache_fst cache clock ip]
  cases hfound : searchCache cache clock ip with
  | mk cache' found =>
    rw [hfound] at h
    cases h
    rfl

theorem addCacheEntry_none (h : (searchCache cache clock ip).2 = none) (mac : Mac) :
    addCacheEntry cache clock ip mac =
      if ip = 0 then .error .assertion
      else .ok (unexpired clock cache ++ [⟨ip, mac, clock cache.length + arpTimeout⟩]) := by
  rw [addCacheEntry, ← searchCache_fst cache clock ip]
  cases hfound : searchCache cache clock ip with
  | mk cache' found =>
    rw [hfound] at h
    cases h
    rfl

end Add

/-! ## The map -/

/-- One entry for an address, and from `now` on the entries are the bindings of the map. -/
structure Caches (now : Time) (cache : List ArpCacheEntry) (m : TimedMap InAddr Mac Time) : Prop where
  nodup : (cache.map ArpCacheEntry.ipAdd).Nodup
  bound : ∀ e : ArpCacheEntry, now ≤ e.timenotvalid →
    (e ∈ cache ↔ m e.ipAdd = some (e.mac, e.timenotvalid))

variable {now now' : Time} {m : TimedMap InAddr Mac Time} {ip : InAddr} {mac : Mac}

theorem Caches.unexpired (h : Caches now cache m) (hnow : now ≤ now') (hclock : ∀ n, clock n ≤ now') :
    Caches now' (unexpired clock cache) m := by
  have hsub := unexpired_sublist clock cache
  refine ⟨h.nodup.sublist (hsub.map _), ?_⟩
  intro e he
  rw [← h.bound e (Int.le_trans hnow he)]
  constructor
  · exact fun hmem => hsub.mem hmem
  · exact fun hmem => mem_unexpired_of_le hmem fun i _ => Int.le_trans (hclock i) he

/-- What is found is bound at the reading for its entry. -/
theorem Caches.search_some (h : Caches now cache m) (hmono : Monotone clock) (hnow : now ≤ clock 0)
    (hfound : (searchCache cache clock ip).2 = some mac) :
    ∃ i, m.lookup (clock i) ip = some mac := by
  obtain ⟨e, he, hip, hmac⟩ := searchCache_some hfound
  obtain ⟨i, -, hle⟩ := mem_unexpired he
  have hlater : now ≤ clock i := Int.le_trans hnow (hmono (Nat.zero_le i))
  have hbound := (h.bound e (Int.le_trans hlater hle)).mp ((unexpired_sublist _ _).mem he)
  rw [hip, hmac] at hbound
  exact ⟨i, TimedMap.lookup_eq_some.mpr ⟨_, hbound, hle⟩⟩

/-- What is not found is not bound after the walk. -/
theorem Caches.search_none (h : Caches now cache m) (hmono : Monotone clock) (hnow : now ≤ clock 0)
    (hfound : (searchCache cache clock ip).2 = none) :
    m.lookup (clock cache.length) ip = none := by
  apply TimedMap.lookup_eq_none.mpr
  intro v last hbound hle
  have hlater : now ≤ clock cache.length := Int.le_trans hnow (hmono (Nat.zero_le _))
  have hmem : (⟨ip, v, last⟩ : ArpCacheEntry) ∈ cache :=
    (h.bound ⟨ip, v, last⟩ (Int.le_trans hlater hle)).mpr hbound
  have hkept : (⟨ip, v, last⟩ : ArpCacheEntry) ∈ PWOSPF.unexpired clock cache :=
    mem_unexpired_of_le hmem fun i hi => Int.le_trans (hmono (Nat.le_of_lt hi)) hle
  exact searchCache_none hfound _ hkept rfl

/-- An insertion changes the cache as it changes the map at one of its clock readings. -/
theorem Caches.add (h : Caches now cache m) (hmono : Monotone clock) (hnow : now ≤ clock 0)
    (hclock : ∀ n, clock n ≤ now') (hip : ip ≠ 0) (mac : Mac) :
    ∃ cache' n, addCacheEntry cache clock ip mac = .ok cache' ∧
      Caches now' cache' (m.insert (clock n) (clock n + arpTimeout) ip mac) := by
  have hfits := h.unexpired (Int.le_trans hnow (hclock 0)) hclock
  cases hsearch : (searchCache cache clock ip).2 with
  | some mac' =>
    obtain ⟨i, hbound⟩ := h.search_some hmono hnow hsearch
    exact ⟨_, i, addCacheEntry_some hsearch mac, (TimedMap.insert_bound hbound).symm ▸ hfits⟩
  | none =>
    have hfree := h.search_none hmono hnow hsearch
    have hnew := searchCache_none hsearch
    refine ⟨_, cache.length, by rw [addCacheEntry_none hsearch, if_neg hip], ?_, ?_⟩
    · rw [List.map_append, List.nodup_append]
      refine ⟨hfits.nodup, List.nodup_singleton _, ?_⟩
      intro a ha b hb hab
      obtain ⟨e, he, rfl⟩ := List.mem_map.mp ha
      rw [List.mem_singleton.mp hb] at hab
      exact hnew e he hab
    · intro e he
      by_cases heq : e.ipAdd = ip
      · rw [heq, TimedMap.insert_self hfree, List.mem_append, List.mem_singleton]
        have hold : ¬ e ∈ PWOSPF.unexpired clock cache := fun hmem => hnew e hmem heq
        rw [or_iff_right hold, Option.some.injEq, Prod.mk.injEq]
        constructor
        · intro hself
          rw [hself]
          exact ⟨rfl, rfl⟩
        · intro hself
          obtain ⟨eip, emac, elast⟩ := e
          cases heq
          cases hself.1
          cases hself.2
          rfl
      · have hother : e ≠ ⟨ip, mac, clock cache.length + arpTimeout⟩ := fun hself =>
          heq (congrArg ArpCacheEntry.ipAdd hself)
        rw [TimedMap.insert_other heq, ← hfits.bound e he, List.mem_append, List.mem_singleton,
          or_iff_left hother]

/-! ## Runs -/

inductive CacheOp
  | searchCache (ip : InAddr)
  | addCacheEntry (ip : InAddr) (mac : Mac)

/-- The cache after the operation, and what a look-up found. -/
def CacheOp.run (cache : List ArpCacheEntry) (clock : Nat → Time) :
    CacheOp → Exec (List ArpCacheEntry × Option Mac)
  | .searchCache ip => .ok (PWOSPF.searchCache cache clock ip)
  | .addCacheEntry ip mac => do return (← PWOSPF.addCacheEntry cache clock ip mac, none)

/-- What the operation does to the map at time `t`. -/
def CacheOp.spec (m : TimedMap InAddr Mac Time) (t : Time) :
    CacheOp → TimedMap InAddr Mac Time × Option Mac
  | .searchCache ip => (m, m.lookup t ip)
  | .addCacheEntry ip mac => (m.insert t (t + arpTimeout) ip mac, none)

/-- `add_cache_entry` asserts that the address is not 0. -/
def CacheOp.NonZero : CacheOp → Prop
  | .searchCache _ => True
  | .addCacheEntry ip _ => ip ≠ 0

def runOps : List ((Nat → Time) × CacheOp) → List ArpCacheEntry →
    Exec (List ArpCacheEntry × List (Option Mac))
  | [], cache => .ok (cache, [])
  | (clock, op) :: rest, cache => do
    let (cache, found) ← op.run cache clock
    let (cache, answers) ← runOps rest cache
    return (cache, found :: answers)

def specOps : List (Time × CacheOp) → TimedMap InAddr Mac Time → List (Option Mac)
  | [], _ => []
  | (t, op) :: rest, m => (op.spec m t).2 :: specOps rest (op.spec m t).1

/-- The clock readings of the operations do not decrease, nor from one operation to the next. -/
def InOrder (now : Time) : List ((Nat → Time) × CacheOp) → Prop
  | [] => True
  | (clock, _) :: rest =>
    Monotone clock ∧ now ≤ clock 0 ∧ ∃ now', (∀ n, clock n ≤ now') ∧ InOrder now' rest

/-- One operation, at one of its readings. -/
theorem Caches.step (h : Caches now cache m) (hmono : Monotone clock) (hnow : now ≤ clock 0)
    (hclock : ∀ n, clock n ≤ now') {op : CacheOp} (hip : op.NonZero) :
    ∃ cache' n, op.run cache clock = .ok (cache', (op.spec m (clock n)).2) ∧
      Caches now' cache' (op.spec m (clock n)).1 := by
  cases op with
  | searchCache ip =>
    have hfits := h.unexpired (Int.le_trans hnow (hclock 0)) hclock
    rw [← searchCache_fst cache clock ip] at hfits
    have hanswer : ∃ n, (PWOSPF.searchCache cache clock ip).2 = m.lookup (clock n) ip := by
      cases hfound : (PWOSPF.searchCache cache clock ip).2 with
      | some mac =>
        obtain ⟨i, hi⟩ := h.search_some hmono hnow hfound
        exact ⟨i, hi.symm⟩
      | none => exact ⟨_, (h.search_none hmono hnow hfound).symm⟩
    obtain ⟨n, hn⟩ := hanswer
    exact ⟨_, n, by rw [CacheOp.run, CacheOp.spec, ← hn], hfits⟩
  | addCacheEntry ip mac =>
    obtain ⟨cache', n, hrun, hfits⟩ := h.add hmono hnow hclock hip mac
    exact ⟨cache', n, by rw [CacheOp.run, hrun]; rfl, hfits⟩

theorem Caches.runs {ops : List ((Nat → Time) × CacheOp)} (h : Caches now cache m)
    (hops : InOrder now ops) (hip : ∀ x ∈ ops, x.2.NonZero) :
    ∃ cache' answers times, runOps ops cache = .ok (cache', answers) ∧
      (cache'.map ArpCacheEntry.ipAdd).Nodup ∧
      List.Forall₂ (fun t x => ∃ n, t = x.1 n) times ops ∧
      specOps (times.zip (ops.map Prod.snd)) m = answers := by
  induction ops generalizing now cache m with
  | nil => exact ⟨cache, [], [], rfl, h.nodup, .nil, rfl⟩
  | cons x rest ih =>
    obtain ⟨clock, op⟩ := x
    obtain ⟨hmono, hnow, now', hclock, hrest⟩ := hops
    obtain ⟨cache₁, n, hrun, hfits⟩ := h.step hmono hnow hclock (hip _ List.mem_cons_self)
    obtain ⟨cache', answers, times, hruns, hnodup, htimes, hanswers⟩ :=
      ih hfits hrest fun x hx => hip x (List.mem_cons_of_mem _ hx)
    refine ⟨cache', (op.spec m (clock n)).2 :: answers, clock n :: times, ?_, hnodup,
      .cons ⟨n, rfl⟩ htimes, ?_⟩
    · rw [runOps, hrun, ok_bind]
      simp only [hruns, ok_bind, pure_eq_ok]
    · rw [List.map_cons, List.zip_cons_cons, specOps, hanswers]

/-- An earlier walk unlinks only what a later one unlinks as well. -/
theorem unexpired_unexpired {t : Time} (hclock : ∀ n, clock n ≤ t) :
    unexpired (fun _ => t) (unexpired clock cache) = unexpired (fun _ => t) cache := by
  induction cache generalizing clock with
  | nil => rfl
  | cons e rest ih =>
    have hrest := @ih (later 1 clock) fun n => hclock (n + 1)
    rw [unexpired]
    by_cases hexp : e.timenotvalid < clock 0
    · rw [if_pos hexp, hrest, unexpired, if_pos (Int.lt_of_lt_of_le hexp (hclock 0))]
      rfl
    · rw [if_neg hexp, unexpired, unexpired]
      show (if e.timenotvalid < t then unexpired (fun _ => t) (unexpired (later 1 clock) rest) else
        e :: unexpired (fun _ => t) (unexpired (later 1 clock) rest)) = _
      rw [hrest]
      rfl

/-- However the cache came about, it holds one entry for an address, its look-ups answered like those
of a map with expiring bindings when each operation takes place at one of its clock readings, and a
look-up changes no later answer. -/
theorem arpCache_refines {ops : List ((Nat → Time) × CacheOp)} (hops : InOrder now ops)
    (hip : ∀ x ∈ ops, x.2.NonZero) :
    ∃ cache answers times, runOps ops [] = .ok (cache, answers) ∧
      (cache.map ArpCacheEntry.ipAdd).Nodup ∧
      List.Forall₂ (fun t x => ∃ n, t = x.1 n) times ops ∧
      specOps (times.zip (ops.map Prod.snd)) .empty = answers ∧
      ∀ clock ip t ip', (∀ n, clock n ≤ t) →
        (searchCache (searchCache cache clock ip).1 (fun _ => t) ip').2 =
          (searchCache cache (fun _ => t) ip').2 := by
  have hempty : Caches now [] .empty := by
    refine ⟨List.nodup_nil, ?_⟩
    intro e _
    constructor
    · intro he
      cases he
    · intro he
      cases he
  obtain ⟨cache, answers, times, hrun, hnodup, htimes, hanswers⟩ := hempty.runs hops hip
  refine ⟨cache, answers, times, hrun, hnodup, htimes, hanswers, ?_⟩
  intro clock ip t ip' hclock
  rw [searchCache_fst, searchCache, searchCache, checkCacheInvalid_eq, checkCacheInvalid_eq,
    unexpired_unexpired hclock]

section Demo

/-- A MAC is added, found, kept when another one is offered, and gone after 15 seconds. -/
def demoCacheOps : List ((Nat → Time) × CacheOp) :=
  [(fun _ => 3, .addCacheEntry 7 #v[2, 0, 0, 0, 0, 7]), (fun _ => 18, .searchCache 7),
    (fun _ => 18, .addCacheEntry 7 #v[2, 0, 0, 0, 0, 8]), (fun _ => 19, .searchCache 7)]

theorem arpCache_refines_demo :
    ∃ cache answers, runOps demoCacheOps [] = .ok (cache, answers) ∧
      answers = [none, some #v[2, 0, 0, 0, 0, 7], none, none] ∧
      (cache.map ArpCacheEntry.ipAdd).Nodup := by
  have hops : InOrder 0 demoCacheOps :=
    ⟨monotone_const, by decide, 3, fun _ => Int.le_refl _, monotone_const, by decide, 18, fun _ => Int.le_refl _,
      monotone_const, by decide, 18, fun _ => Int.le_refl _, monotone_const, by decide, 19,
      fun _ => Int.le_refl _, trivial⟩
  obtain ⟨cache, answers, times, hrun, hnodup, -⟩ := arpCache_refines hops (by
    intro x hx
    simp only [demoCacheOps, List.mem_cons, List.not_mem_nil, or_false] at hx
    rcases hx with rfl | rfl | rfl | rfl
    · exact (by decide : (7 : InAddr) ≠ 0)
    · trivial
    · exact (by decide : (7 : InAddr) ≠ 0)
    · trivial)
  have hdemo : (runOps demoCacheOps []).map Prod.snd =
      .ok [none, some #v[2, 0, 0, 0, 0, 7], none, none] := by decide
  rw [hrun] at hdemo
  exact ⟨cache, answers, hrun, Except.ok.inj hdemo, hnodup⟩

end Demo

end PWOSPF
