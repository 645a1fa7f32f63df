import Mathlib
import PWOSPF.Firewall.FlowTable

/-!
# The flow table over whole runs

However the calls follow each other, the counter is the length of the list, a connection has at most
one live entry, and no entry is live for longer than the number of its updates allows.
-/

namespace PWOSPF

open Framework

inductive FwCall
  | tellValid (flow : Flow)
  | checkConnection (flow : Flow)
  | removeStaleEntries

def FwCall.run (fw : Firewall) (clock : Nat → Time) : FwCall → Exec (Firewall × Bool)
  | .tellValid flow => PWOSPF.tellValid fw clock flow
  | .checkConnection flow => .ok (PWOSPF.checkConnection fw clock flow)
  | .removeStaleEntries => do return (← PWOSPF.removeStaleEntries fw (clock 0), true)

/-- Entries of the connection that are in the table are not live at this time. -/
def NoLive (t : Time) (flow : Flow) (T : List FtEntry) : Prop :=
  ∀ e ∈ T, e.toFlow = flow → ¬ e.Live t

variable {fw fw' : Firewall} {clock : Nat → Time} {flow : Flow} {call : FwCall} {now now' : Time}

theorem noLive_of_ftContains (h : ftContains clock flow fw.flowTable = none)
    (hclock : ∀ n, clock n ≤ now') : NoLive now' flow fw.flowTable := by
  intro e he hflow hlive
  obtain ⟨i, hi⟩ := List.mem_iff_getElem?.mp he
  exact ftContains_none h hi hflow (hlive.earlier (hclock i))

/-! ## The invariant -/

/-- The counter and the list agree, there is room left or none, and connections have one entry. -/
structure FlowInv (now : Time) (fw : Firewall) : Prop where
  size : fw.ftSize = fw.flowTable.length
  bound : fw.ftSize ≤ maxFtSize
  one : OneLive FtEntry.toFlow FtEntry.Live now fw.flowTable

theorem FlowInv.mono (h : FlowInv now fw) (hle : now ≤ now') : FlowInv now' fw :=
  ⟨h.size, h.bound, h.one.later (fun _ _ _ ht hlive => hlive.earlier ht) hle⟩

theorem FlowInv.extend {i : Nat} (h : FlowInv (clock i) fw)
    (hfound : ftContains clock flow fw.flowTable = some i) :
    FlowInv (clock i) { fw with flowTable := fw.flowTable.modify i FtEntry.extend } := by
  refine ⟨?_, h.bound, ?_⟩
  · show fw.ftSize = ((fw.flowTable.modify i FtEntry.extend).length : Nat)
    rw [List.length_modify]
    exact h.size
  · apply h.one.modify (f := FtEntry.extend) (fun _ => rfl)
    intro a ha
    obtain ⟨e, he, -, hlive⟩ := ftContains_some hfound
    rw [ha] at he
    cases he
    exact hlive

theorem FlowInv.dropStale (h : FlowInv now fw) {current : Time} :
    FlowInv now (fw.dropStale current) := by
  have hsize := h.size
  have hbound := h.bound
  have hle := (dropStale_suffix fw current).length_le
  refine ⟨?_, ?_, h.one.sublist (dropStale_suffix _ _).sublist⟩
  · rw [dropStale_ftSize]
    omega
  · rw [dropStale_ftSize]
    omega

theorem FlowInv.addConnect (h : FlowInv now fw) (hroom : fw.ftSize < maxFtSize)
    (hnew : NoLive now flow fw.flowTable) {current : Time} :
    FlowInv now (addConnect fw current flow) := by
  refine ⟨?_, ?_, h.one.concat hnew⟩
  · have hsize := h.size
    show fw.ftSize + 1 = ((fw.flowTable ++ _).length : Nat)
    rw [List.length_append, List.length_singleton]
    omega
  · show fw.ftSize + 1 ≤ maxFtSize
    omega

theorem FlowInv.tellValid (h : FlowInv now fw) (hnow : now ≤ clock 0) (hmono : Monotone clock)
    (hclock : ∀ n, clock n ≤ now') {r : Bool} (hrun : tellValid fw clock flow = .ok (fw', r)) :
    FlowInv now' fw' := by
  have hinv := h.mono (Int.le_trans hnow (hclock 0))
  cases tellValid_told hrun with
  | known i hfound =>
    have hi : now ≤ clock i := Int.le_trans hnow (hmono (Nat.zero_le i))
    exact ((h.mono hi).extend hfound).mono (hclock i)
  | added hnew hroom => exact hinv.addConnect hroom (noLive_of_ftContains hnew hclock)
  | swept hnew hfull hroom =>
    have hnone := noLive_of_ftContains hnew hclock
    exact hinv.dropStale.addConnect hroom fun e he => hnone e ((dropStale_suffix _ _).mem he)
  | refused hnew hfull hroom => exact hinv.dropStale

theorem FlowInv.checkConnection (h : FlowInv now fw) (hnow : now ≤ clock 0) (hmono : Monotone clock)
    (hclock : ∀ n, clock n ≤ now') : FlowInv now' (checkConnection fw clock flow).1 := by
  have hinv := h.mono (Int.le_trans hnow (hclock 0))
  rw [PWOSPF.checkConnection]
  by_cases hrule : ruleContains fw flow = true
  · rw [if_pos hrule]
    exact hinv
  · rw [if_neg hrule]
    cases hfound : ftContains clock flow fw.flowTable with
    | none => exact hinv
    | some i =>
      have hi : now ≤ clock i := Int.le_trans hnow (hmono (Nat.zero_le i))
      exact ((h.mono hi).extend hfound).mono (hclock i)

/-! ## Runs at non-decreasing times -/

structure FlowState where
  now : Time
  fw : Firewall

/-- A call reads the clock after `s.now` and before `s'.now`. -/
def FlowStep (s : FlowState) (x : (Nat → Time) × FwCall) (s' : FlowState) : Prop :=
  Monotone x.1 ∧ s.now ≤ x.1 0 ∧ (∀ n, x.1 n ≤ s'.now) ∧ ∃ r, x.2.run s.fw x.1 = .ok (s'.fw, r)

theorem FlowInv.step {s s' : FlowState} {x : (Nat → Time) × FwCall} (h : FlowInv s.now s.fw)
    (hstep : FlowStep s x s') : FlowInv s'.now s'.fw := by
  obtain ⟨clock, call⟩ := x
  obtain ⟨hmono, hnow, hclock, r, hrun⟩ := hstep
  cases call with
  | tellValid flow => exact h.tellValid hnow hmono hclock hrun
  | checkConnection flow =>
    have heq : PWOSPF.checkConnection s.fw clock flow = (s'.fw, r) := Except.ok.inj hrun
    have hinv := @FlowInv.checkConnection _ _ flow _ _ h hnow hmono hclock
    rwa [heq] at hinv
  | removeStaleEntries =>
    rw [FwCall.run, removeStaleEntries_eq] at hrun
    have hfw : s.fw.dropStale (clock 0) = s'.fw := congrArg Prod.fst (Except.ok.inj hrun)
    rw [← hfw]
    exact (h.mono (Int.le_trans hnow (hclock 0))).dropStale

/-- No call runs out of fuel or into a freed entry. -/
theorem FwCall.run_exists (fw : Firewall) (clock : Nat → Time) (call : FwCall) :
    ∃ x, call.run fw clock = .ok x := by
  cases call with
  | tellValid flow =>
    rw [FwCall.run]
    cases hfound : ftContains clock flow fw.flowTable with
    | some i => exact ⟨_, tellValid_known hfound⟩
    | none =>
      simp only [tellValid_new hfound]
      split
      · exact ⟨_, rfl⟩
      · split
        · exact ⟨_, rfl⟩
        · exact ⟨_, rfl⟩
  | checkConnection flow => exact ⟨_, rfl⟩
  | removeStaleEntries =>
    rw [FwCall.run, removeStaleEntries_eq]
    exact ⟨_, rfl⟩

/-- A refusal changes nothing, and all entries are live when `remove_stale_entries` looks. -/
theorem tellValid_refuses (h : FlowInv now fw)
    (hrun : tellValid fw clock flow = .ok (fw', false)) :
    fw' = fw ∧ (fw.flowTable.length : Int) = maxFtSize ∧
      ∀ e ∈ fw.flowTable, e.Live (clock fw.flowTable.length) := by
  cases tellValid_told hrun with
  | refused hnew hfull hroom =>
    have hsize := h.size
    have hbound := h.bound
    have hle := (dropStale_suffix fw (clock fw.flowTable.length)).length_le
    rw [dropStale_ftSize] at hroom
    have hsame := (dropStale_suffix fw (clock fw.flowTable.length)).eq_of_length (by omega)
    refine ⟨dropStale_same hsame, by omega, ?_⟩
    intro e he
    rw [← hsame] at he
    exact dropStale_live he

theorem flowInv_of_reach {fw₀ : Firewall} {now₀ : Time} {s : FlowState}
    (htable : fw₀.flowTable = []) (hsize : fw₀.ftSize = 0)
    (h : Reach FlowStep (fun _ _ => True) ⟨now₀, fw₀⟩ s) : FlowInv s.now s.fw := by
  have hstart : FlowInv now₀ fw₀ := by
    refine ⟨?_, ?_, ?_⟩
    · rw [hsize, htable]
      rfl
    · rw [hsize]
      decide
    · rw [htable]
      exact .nil
  exact Reach.invariant (I := fun s : FlowState => FlowInv s.now s.fw) hstart
    (fun _ _ _ hI _ hstep => hI.step hstep) h

/-- In every state that calls at non-decreasing times lead to, the counter is the length of the list
and at most `MAX_FT_SIZE`, a connection has at most one live entry, every call returns, and
`tell_valid` refuses only if the table is full of live entries. -/
theorem flowTable_invariant {fw₀ : Firewall} {now₀ : Time} {s : FlowState}
    (htable : fw₀.flowTable = []) (hsize : fw₀.ftSize = 0)
    (h : Reach FlowStep (fun _ _ => True) ⟨now₀, fw₀⟩ s) :
    s.fw.ftSize = s.fw.flowTable.length ∧ s.fw.ftSize ≤ maxFtSize ∧
      (∀ t, s.now ≤ t → OneLive FtEntry.toFlow FtEntry.Live t s.fw.flowTable) ∧
      (∀ clock call, ∃ x, FwCall.run s.fw clock call = .ok x) ∧
      ∀ clock flow fw', tellValid s.fw clock flow = .ok (fw', false) →
        fw' = s.fw ∧ (s.fw.flowTable.length : Int) = maxFtSize ∧
          ∀ e ∈ s.fw.flowTable, e.Live (clock s.fw.flowTable.length) := by
  have hinv := flowInv_of_reach htable hsize h
  exact ⟨hinv.size, hinv.bound, fun t ht => (hinv.mono ht).one, fun clock call =>
    FwCall.run_exists s.fw clock call, fun clock flow fw' => tellValid_refuses hinv⟩

/-! ## How long an entry lives -/

/-- A firewall with the times at which `add_connect` made its entries. -/
structure AgedFirewall where
  fw : Firewall
  created : List Time
  deriving DecidableEq

/-- Entries leave the table at its head, and `add_connect` puts new ones behind the others. -/
def createdAfter (fw : Firewall) (clock : Nat → Time) (created : List Time) : FwCall → List Time
  | .tellValid flow =>
    let current := clock fw.flowTable.length
    let kept := created.drop (fw.flowTable.length - (fw.dropStale current).flowTable.length)
    if (ftContains clock flow fw.flowTable).isSome then created
    else if fw.ftSize < maxFtSize then created ++ [current]
    else if (fw.dropStale current).ftSize < maxFtSize then
      kept ++ [clock (fw.flowTable.length + 1)]
    else kept
  | .checkConnection _ => created
  | .removeStaleEntries =>
    created.drop (fw.flowTable.length - (fw.dropStale (clock 0)).flowTable.length)

def AgedStep (s : AgedFirewall) (x : (Nat → Time) × FwCall) (s' : AgedFirewall) : Prop :=
  (∃ r, x.2.run s.fw x.1 = .ok (s'.fw, r)) ∧ s'.created = createdAfter s.fw x.1 s.created x.2

/-- The expiry of an entry made at `t₀` stands for its number of updates, which is bounded. -/
def Aged (e : FtEntry) (t₀ : Time) : Prop :=
  e.expTime = t₀ + ttlIncrement * (1 + e.ttlUpdates.toNat) ∧ e.ttlUpdates ≤ maxTtlUpdates + 1

variable {created : List Time}

theorem Aged.extend {e : FtEntry} {t₀ : Time} (h : Aged e t₀) {t : Time} (hlive : e.Live t) :
    Aged e.extend t₀ := by
  obtain ⟨hexp, -⟩ := h
  have hupd : e.ttlUpdates.toNat ≤ 80 := UInt32.le_iff_toNat_le.mp hlive.2
  have hnext : (e.ttlUpdates + 1).toNat = e.ttlUpdates.toNat + 1 := by
    rw [UInt32.toNat_add]
    exact Nat.mod_eq_of_lt (by simp only [UInt32.toNat_one]; omega)
  refine ⟨?_, ?_⟩
  · show e.expTime + ttlIncrement = t₀ + ttlIncrement * (1 + (e.ttlUpdates + 1).toNat)
    rw [hexp, hnext, Nat.cast_succ]
    ring
  · show e.ttlUpdates + 1 ≤ maxTtlUpdates + 1
    rw [UInt32.le_iff_toNat_le, hnext]
    exact Nat.succ_le_succ hupd

theorem aged_extend {i : Nat} (h : List.Forall₂ Aged fw.flowTable created)
    (hfound : ftContains clock flow fw.flowTable = some i) :
    List.Forall₂ Aged (fw.flowTable.modify i FtEntry.extend) created := by
  obtain ⟨e, he, -, hlive⟩ := ftContains_some hfound
  generalize fw.flowTable = T at h he
  generalize clock i = t at hlive
  clear hfound
  induction h generalizing i with
  | nil => cases he
  | cons hage hrest ih =>
    cases i with
    | zero =>
      cases he
      exact .cons (hage.extend hlive) hrest
    | succ i => exact .cons hage (ih he)

theorem aged_suffix {T T' : List FtEntry} (h : List.Forall₂ Aged T created) (hsuf : T' <:+ T) :
    List.Forall₂ Aged T' (created.drop (T.length - T'.length)) := by
  rw [List.suffix_iff_eq_drop.mp hsuf, List.length_drop]
  have hle := hsuf.length_le
  rw [show T.length - (T.length - (T.length - T'.length)) = T.length - T'.length by omega]
  exact List.forall₂_drop _ h

theorem aged_addConnect (h : List.Forall₂ Aged fw.flowTable created) (current : Time) :
    List.Forall₂ Aged (addConnect fw current flow).flowTable (created ++ [current]) := by
  apply List.rel_append h
  refine .cons ⟨?_, UInt32.le_iff_toNat_le.mpr (Nat.zero_le _)⟩ .nil
  show current + ttlIncrement = current + ttlIncrement * (1 + ((0 : UInt32).toNat : Int))
  simp

theorem aged_tellValid (h : List.Forall₂ Aged fw.flowTable created) {r : Bool}
    (hrun : tellValid fw clock flow = .ok (fw', r)) :
    List.Forall₂ Aged fw'.flowTable (createdAfter fw clock created (.tellValid flow)) := by
  rw [createdAfter]
  have hkept := aged_suffix h (dropStale_suffix fw (clock fw.flowTable.length))
  cases tellValid_told hrun with
  | known i hfound =>
    rw [hfound]
    exact aged_extend h hfound
  | added hnew hroom =>
    rw [hnew, if_pos hroom]
    exact aged_addConnect h _
  | swept hnew hfull hroom =>
    rw [hnew, if_neg hfull, if_pos hroom]
    exact aged_addConnect hkept _
  | refused hnew hfull hroom =>
    rw [hnew, if_neg hfull, if_neg hroom]
    exact hkept

theorem aged_checkConnection (clock : Nat → Time) (flow : Flow)
    (h : List.Forall₂ Aged fw.flowTable created) :
    List.Forall₂ Aged (checkConnection fw clock flow).1.flowTable created := by
  rw [checkConnection]
  by_cases hrule : ruleContains fw flow = true
  · rw [if_pos hrule]
    exact h
  · rw [if_neg hrule]
    cases hfound : ftContains clock flow fw.flowTable with
    | none => exact h
    | some i => exact aged_extend h hfound

theorem AgedStep.aged {s s' : AgedFirewall} {x : (Nat → Time) × FwCall}
    (h : List.Forall₂ Aged s.fw.flowTable s.created) (hstep : AgedStep s x s') :
    List.Forall₂ Aged s'.fw.flowTable s'.created := by
  obtain ⟨clock, call⟩ := x
  obtain ⟨⟨r, hrun⟩, hcreated⟩ := hstep
  rw [hcreated]
  cases call with
  | tellValid flow => exact aged_tellValid h hrun
  | checkConnection flow =>
    have heq : checkConnection s.fw clock flow = (s'.fw, r) := Except.ok.inj hrun
    have haged := aged_checkConnection clock flow h
    rwa [heq] at haged
  | removeStaleEntries =>
    rw [FwCall.run, removeStaleEntries_eq] at hrun
    have hfw : s.fw.dropStale (clock 0) = s'.fw := congrArg Prod.fst (Except.ok.inj hrun)
    rw [← hfw]
    exact aged_suffix h (dropStale_suffix _ _)

/-- Whatever the calls and the clock readings, an entry's expiry stands for its updates, of which
there are at most `MAX_TTL_UPDATES + 1`, and it is found only for so long after its creation. -/
theorem hole_closes {fw₀ : Firewall} {s : AgedFirewall} (htable : fw₀.flowTable = [])
    (h : Reach AgedStep (fun _ _ => True) ⟨fw₀, []⟩ s) :
    List.Forall₂ (fun e t₀ => e.expTime = t₀ + ttlIncrement * (1 + e.ttlUpdates.toNat) ∧
      e.ttlUpdates ≤ maxTtlUpdates + 1) s.fw.flowTable s.created ∧
    ∀ clock flow i t₀, ftContains clock flow s.fw.flowTable = some i → s.created[i]? = some t₀ →
      clock i ≤ t₀ + ttlIncrement * (maxTtlUpdates.toNat + 1) := by
  have hstart : List.Forall₂ Aged fw₀.flowTable [] := by
    rw [htable]
    exact .nil
  have haged : List.Forall₂ Aged s.fw.flowTable s.created :=
    Reach.invariant (I := fun s : AgedFirewall => List.Forall₂ Aged s.fw.flowTable s.created) hstart
      (fun _ _ _ hI _ hstep => AgedStep.aged hI hstep) h
  refine ⟨haged, ?_⟩
  intro clock flow i t₀ hfound ht₀
  obtain ⟨e, he, -, hlive⟩ := ftContains_some hfound
  obtain ⟨hi, hget⟩ := List.getElem?_eq_some_iff.mp he
  obtain ⟨hi', hget'⟩ := List.getElem?_eq_some_iff.mp ht₀
  obtain ⟨hexp, -⟩ := haged.get hi hi'
  rw [List.get_eq_getElem, hget, List.get_eq_getElem, hget'] at hexp
  have hupd : e.ttlUpdates.toNat ≤ maxTtlUpdates.toNat := UInt32.le_iff_toNat_le.mp hlive.2
  calc clock i ≤ e.expTime := hlive.1
    _ = t₀ + ttlIncrement * (1 + e.ttlUpdates.toNat) := hexp
    _ ≤ t₀ + ttlIncrement * (maxTtlUpdates.toNat + 1) := by
      apply Int.add_le_add_left
      apply Int.mul_le_mul_of_nonneg_left _ (by decide)
      show (1 : Int) + (e.ttlUpdates.toNat : Int) ≤ (maxTtlUpdates.toNat : Int) + 1
      omega

section Demo

def demoFlow : Flow := ⟨0x0100000a, 0x0500010a, 6, 80, 4000⟩

def demoFirewall : Firewall := ⟨[], [], 0, [], []⟩

/-- The entry is refreshed at 70 and expired at 121, when the connection gets a second one. -/
theorem flowTable_invariant_demo :
    ∃ s : FlowState, s.fw.flowTable = [⟨demoFlow, 120, 1⟩, ⟨demoFlow, 171, 0⟩] ∧ s.fw.ftSize = 2 ∧
      ∀ t, 121 ≤ t → OneLive FtEntry.toFlow FtEntry.Live t s.fw.flowTable := by
  have hopen : FlowStep ⟨0, demoFirewall⟩ (fun _ => 20, .tellValid demoFlow)
      ⟨20, ⟨[⟨demoFlow, 70, 0⟩], [], 1, [], []⟩⟩ :=
    ⟨monotone_const, by decide, fun _ => Int.le_refl _, true, by rfl⟩
  have hrefresh : FlowStep ⟨20, ⟨[⟨demoFlow, 70, 0⟩], [], 1, [], []⟩⟩
      (fun _ => 70, .checkConnection demoFlow) ⟨70, ⟨[⟨demoFlow, 120, 1⟩], [], 1, [], []⟩⟩ :=
    ⟨monotone_const, by decide, fun _ => Int.le_refl _, true, by rfl⟩
  have hagain : FlowStep ⟨70, ⟨[⟨demoFlow, 120, 1⟩], [], 1, [], []⟩⟩
      (fun _ => 121, .tellValid demoFlow)
      ⟨121, ⟨[⟨demoFlow, 120, 1⟩, ⟨demoFlow, 171, 0⟩], [], 2, [], []⟩⟩ :=
    ⟨monotone_const, by decide, fun _ => Int.le_refl _, true, by rfl⟩
  have hreach : Reach FlowStep (fun _ _ => True) _ _ :=
    .next (.next (.next .start trivial hopen) trivial hrefresh) trivial hagain
  exact ⟨_, rfl, rfl, (flowTable_invariant rfl rfl hreach).2.2.1⟩

/-- The entry made at 20 is refreshed from outside at 70. -/
theorem hole_closes_demo :
    ∃ s : AgedFirewall, s.fw.flowTable = [⟨demoFlow, 120, 1⟩] ∧ s.created = [20] ∧
      ∀ clock, ftContains clock demoFlow s.fw.flowTable = some 0 → clock 0 ≤ 20 + 50 * 81 := by
  have hopen : AgedStep ⟨demoFirewall, []⟩ (fun _ => 20, .tellValid demoFlow)
      ⟨⟨[⟨demoFlow, 70, 0⟩], [], 1, [], []⟩, [20]⟩ := ⟨⟨true, by rfl⟩, by rfl⟩
  have hrefresh : AgedStep ⟨⟨[⟨demoFlow, 70, 0⟩], [], 1, [], []⟩, [20]⟩
      (fun _ => 70, .checkConnection demoFlow)
      ⟨⟨[⟨demoFlow, 120, 1⟩], [], 1, [], []⟩, [20]⟩ := ⟨⟨true, by rfl⟩, by rfl⟩
  have hreach : Reach AgedStep (fun _ _ => True) _ _ :=
    .next (.next .start trivial hopen) trivial hrefresh
  refine ⟨⟨⟨[⟨demoFlow, 120, 1⟩], [], 1, [], []⟩, [20]⟩, rfl, rfl, ?_⟩
  intro clock hfound
  exact (hole_closes rfl hreach).2 clock demoFlow 0 20 hfound rfl

end Demo

end PWOSPF
