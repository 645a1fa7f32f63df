import PWOSPF.Firewall.FlowRuns

/-!
# What the firewall lets in

Three places where the code misses what it is after: a rule's protocol is compared with the
destination address, live entries in front of a stale one are evicted with it, and an entry that is
refreshed once more than `MAX_TTL_UPDATES` times is not found again.
-/

namespace PWOSPF

open Framework

variable {fw fw' : Firewall} {flow : Flow}

/-! ## Rules -/

/-- Each field of the rule is the wildcard or that of the connection. -/
structure FtEntry.Permits (rule : FtEntry) (flow : Flow) : Prop where
  ipS : rule.ipS = flow.ipS ∨ rule.ipS = 0
  ipD : rule.ipD = flow.ipD ∨ rule.ipD = 0
  protocol : rule.protocol = flow.protocol ∨ rule.protocol = 0
  portS : rule.portS = flow.portS ∨ rule.portS = 0
  portD : rule.portD = flow.portD ∨ rule.portD = 0

/-- So are all but the protocol. -/
def FtEntry.Fits (rule : FtEntry) (flow : Flow) : Prop :=
  (rule.ipS = flow.ipS ∨ rule.ipS = 0) ∧ (rule.ipD = flow.ipD ∨ rule.ipD = 0) ∧
    (rule.portS = flow.portS ∨ rule.portS = 0) ∧ (rule.portD = flow.portD ∨ rule.portD = 0)

/-- The connection is allowed if a rule permits it, in whatever order the rules are. -/
structure MatchesRules (fw : Firewall) (flow : Flow) : Prop where
  exact : ruleContains fw flow = true ↔ ∃ rule ∈ fw.rules, rule.Permits flow
  anyOrder : ∀ rules : List FtEntry, rules.Perm fw.rules →
    ruleContains { fw with rules := rules } flow = ruleContains fw flow

theorem FtEntry.permits_iff {rule : FtEntry} : rule.Permits flow ↔
    rule.Fits flow ∧ (rule.protocol = flow.protocol ∨ rule.protocol = 0) := by
  constructor
  · exact fun h => ⟨⟨h.ipS, h.ipD, h.portS, h.portD⟩, h.protocol⟩
  · exact fun h => ⟨h.1.1, h.1.2.1, h.2, h.1.2.2.1, h.1.2.2.2⟩

/-- What the loop over the rules finds. -/
theorem ruleContains_iff : ruleContains fw flow = true ↔
    ∃ rule ∈ fw.rules, rule.Fits flow ∧
      (rule.protocol.toUInt32 = flow.ipD ∨ rule.protocol = 0) := by
  simp only [ruleContains, List.any_eq_true, decide_eq_true_eq]
  apply exists_congr
  intro rule
  apply and_congr_right'
  constructor
  · intro h
    obtain ⟨hipS, hipD, hprotocol, hports⟩ := h
    exact ⟨⟨hipS, hipD, hports⟩, hprotocol⟩
  · intro h
    obtain ⟨⟨hipS, hipD, hports⟩, hprotocol⟩ := h
    exact ⟨hipS, hipD, hprotocol, hports⟩

/-- The rules are matched as they should be exactly if a rule that fits has the wildcard for its
protocol, or both or neither of these is there: one with the protocol of the connection, one with
the number that is the destination address. -/
theorem ruleContains_exact_iff (fw : Firewall) (flow : Flow) : MatchesRules fw flow ↔
    (∃ rule ∈ fw.rules, rule.Fits flow ∧ rule.protocol = 0) ∨
      ((∃ rule ∈ fw.rules, rule.Fits flow ∧ rule.protocol = flow.protocol) ↔
        ∃ rule ∈ fw.rules, rule.Fits flow ∧ rule.protocol.toUInt32 = flow.ipD) := by
  have hsplit : ∀ P : FtEntry → Prop,
      (∃ rule ∈ fw.rules, rule.Fits flow ∧ (P rule ∨ rule.protocol = 0)) ↔
        (∃ rule ∈ fw.rules, rule.Fits flow ∧ P rule) ∨
          ∃ rule ∈ fw.rules, rule.Fits flow ∧ rule.protocol = 0 := by
    intro P
    simp only [and_or_left, exists_or]
  have hexact : (ruleContains fw flow = true ↔ ∃ rule ∈ fw.rules, rule.Permits flow) ↔
      (∃ rule ∈ fw.rules, rule.Fits flow ∧ rule.protocol = 0) ∨
        ((∃ rule ∈ fw.rules, rule.Fits flow ∧ rule.protocol = flow.protocol) ↔
          ∃ rule ∈ fw.rules, rule.Fits flow ∧ rule.protocol.toUInt32 = flow.ipD) := by
    simp only [FtEntry.permits_iff, ruleContains_iff, hsplit]
    by_cases hwild : ∃ rule ∈ fw.rules, rule.Fits flow ∧ rule.protocol = 0
    · simp only [hwild, or_true, true_or]
    · simp only [hwild, or_false, false_or]
      exact iff_comm
  constructor
  · exact fun h => hexact.mp h.exact
  · intro h
    refine ⟨hexact.mpr h, ?_⟩
    intro rules hperm
    rw [Bool.eq_iff_iff, ruleContains_iff, ruleContains_iff]
    simp only [hperm.mem_iff]

/-- A rule for TCP from anywhere to anywhere. -/
def tcpPolicy : Firewall := ⟨[], [⟨⟨0, 0, 6, 0, 0⟩, 0, 0⟩], 0, [], []⟩

theorem tcpRule_missed : ¬ MatchesRules tcpPolicy demoFlow := by
  intro h
  have hpermits : FtEntry.Permits ⟨⟨0, 0, 6, 0, 0⟩, 0, 0⟩ demoFlow :=
    ⟨Or.inr rfl, Or.inr rfl, Or.inl rfl, Or.inr rfl, Or.inr rfl⟩
  have hfound := h.exact.mpr ⟨_, List.mem_cons_self, hpermits⟩
  exact absurd hfound (by decide)

/-! ## Eviction -/

/-- `remove_stale_entries` leaves exactly the live entries if and only if no live entry stands in front
of a stale one. -/
theorem removeStaleEntries_filter_iff (fw : Firewall) (current : Time) :
    (∃ fw', removeStaleEntries fw current = .ok fw' ∧
        fw'.flowTable = fw.flowTable.filter fun e => e.Live current) ↔
      fw.flowTable.Pairwise fun e e' => e.Live current → e'.Live current := by
  have hrest : (fw.dropStale current).flowTable =
      fw.flowTable.rtakeWhile fun e => e.Live current := rfl
  have hiff := @rtakeWhile_eq_filter_iff _ fw.flowTable fun e => decide (e.Live current)
  simp only [decide_eq_true_eq] at hiff
  rw [← hiff, ← hrest, removeStaleEntries_eq]
  constructor
  · intro h
    obtain ⟨fw', hrun, hkept⟩ := h
    cases hrun
    exact hkept
  · exact fun hkept => ⟨_, rfl, hkept⟩

/-- A live entry, and behind it one that expired at 50. -/
def staleBehindLive : Firewall :=
  ⟨[⟨demoFlow, 120, 0⟩, ⟨⟨0, 0, 17, 0, 0⟩, 50, 0⟩], [], 2, [], []⟩

theorem liveEntry_evicted : ¬ ∃ fw', removeStaleEntries staleBehindLive 100 = .ok fw' ∧
    fw'.flowTable = staleBehindLive.flowTable.filter fun e => e.Live 100 := by
  intro h
  obtain ⟨fw', hrun, hkept⟩ := h
  rw [removeStaleEntries_eq] at hrun
  cases hrun
  exact absurd hkept (by decide)

/-! ## Answers -/

variable {t : Time}

theorem FtEntry.Live.extend_iff {e : FtEntry} (h : e.Live t) :
    e.extend.Live t ↔ e.ttlUpdates < maxTtlUpdates := by
  have hupd : e.ttlUpdates.toNat ≤ 80 := UInt32.le_iff_toNat_le.mp h.2
  have hnext : (e.ttlUpdates + 1).toNat = e.ttlUpdates.toNat + 1 := by
    rw [UInt32.toNat_add]
    exact Nat.mod_eq_of_lt (by simp only [UInt32.toNat_one]; omega)
  have hlater : e.expTime + ttlIncrement ≥ t := Int.le_trans h.1 (Int.le_add_of_nonneg_right (by decide))
  rw [UInt32.lt_iff_toNat_lt]
  constructor
  · intro hlive
    have hle := UInt32.le_iff_toNat_le.mp hlive.2
    rwa [FtEntry.extend, hnext] at hle
  · intro hlt
    refine ⟨hlater, UInt32.le_iff_toNat_le.mpr ?_⟩
    rwa [FtEntry.extend, hnext]

theorem Told.rules {clock : Nat → Time} {r : Bool} (h : Told fw clock flow fw' r) :
    fw'.rules = fw.rules := by
  cases h <;> rfl

/-- What `tell_valid` lets out is in the table as a live entry, unless the entry it refreshed was at
the limit. -/
theorem Told.found (h : Told fw (fun _ => t) flow fw' true)
    (hfew : ∀ e ∈ fw.flowTable, e.toFlow = flow → e.Live t → e.ttlUpdates < maxTtlUpdates) :
    (ftContains (fun _ => t) flow fw'.flowTable).isSome = true := by
  have hadded : ∀ fw₁ : Firewall,
      (ftContains (fun _ => t) flow (addConnect fw₁ t flow).flowTable).isSome = true := by
    intro fw₁
    refine ftContains_isSome_iff.mpr ⟨fw₁.flowTable.length, _, List.getElem?_concat_length, rfl, ?_⟩
    exact ⟨Int.le_add_of_nonneg_right (by decide), UInt32.le_iff_toNat_le.mpr (Nat.zero_le _)⟩
  cases h with
  | known i hfound =>
    obtain ⟨e, he, hflow, hlive⟩ := ftContains_some hfound
    refine ftContains_isSome_iff.mpr ⟨i, e.extend, ?_, hflow, ?_⟩
    · rw [List.getElem?_modify_eq, he]
      rfl
    · exact hlive.extend_iff.mpr (hfew e (List.mem_of_getElem? he) hflow hlive)
  | added hnew hroom => exact hadded fw
  | swept hnew hfull hroom => exact hadded _

/-- A connection with one live entry that is at the limit has none once it is refreshed. -/
theorem Told.lost {r : Bool} (h : Told fw (fun _ => t) flow fw' r)
    (hone : OneLive FtEntry.toFlow FtEntry.Live t fw.flowTable) {e : FtEntry}
    (he : e ∈ fw.flowTable) (hflow : e.toFlow = flow) (hlive : e.Live t)
    (hmany : ¬ e.ttlUpdates < maxTtlUpdates) :
    (ftContains (fun _ => t) flow fw'.flowTable).isSome = false := by
  obtain ⟨k, hk⟩ := List.mem_iff_getElem?.mp he
  have hsome : (ftContains (fun _ => t) flow fw.flowTable).isSome = true :=
    ftContains_isSome_iff.mpr ⟨k, e, hk, hflow, hlive⟩
  cases h with
  | known i hfound =>
    obtain ⟨e', he', hflow', hlive'⟩ := ftContains_some hfound
    have hik := hone.unique he' hk (hflow'.trans hflow.symm) hlive' hlive
    subst hik
    rw [Bool.eq_false_iff]
    intro hstill
    obtain ⟨j, e₁, hj, hflow₁, hlive₁⟩ := ftContains_isSome_iff.mp hstill
    rw [List.getElem?_modify] at hj
    by_cases hij : i = j
    · subst hij
      rw [hk] at hj
      simp only [if_true, Option.map_eq_map, Option.map_some, Option.some.injEq] at hj
      subst hj
      exact hmany (hlive.extend_iff.mp hlive₁)
    · simp only [if_neg hij, Option.map_eq_map, Option.map_id_fun', id_eq] at hj
      exact hij (hone.unique hk hj (hflow.trans hflow₁.symm) hlive hlive₁)
  | added hnew hroom => simp [hnew] at hsome
  | swept hnew hfull hroom => simp [hnew] at hsome
  | refused hnew hfull hroom => simp [hnew] at hsome

/-- In every state that calls at non-decreasing times lead to, what `tell_valid` lets out may come back
at once if and only if a rule lets it in, or no live entry of the connection has been refreshed
`MAX_TTL_UPDATES` times. -/
theorem answer_allowed_iff {fw₀ : Firewall} {now₀ : Time} {s : FlowState}
    (htable : fw₀.flowTable = []) (hsize : fw₀.ftSize = 0)
    (h : Reach FlowStep (fun _ _ => True) ⟨now₀, fw₀⟩ s) (ht : s.now ≤ t)
    (hrun : tellValid s.fw (fun _ => t) flow = .ok (fw', true)) :
    (checkConnection fw' (fun _ => t) flow).2 = true ↔ ruleContains s.fw flow = true ∨
      ∀ e ∈ s.fw.flowTable, e.toFlow = flow → e.Live t → e.ttlUpdates < maxTtlUpdates := by
  have hone := ((flowInv_of_reach htable hsize h).mono ht).one
  have htold := tellValid_told hrun
  have hrules : ruleContains fw' flow = ruleContains s.fw flow := by
    rw [ruleContains, htold.rules]
    rfl
  rw [checkConnection_allowed_iff, hrules]
  constructor
  · intro hallowed
    cases hallowed with
    | inl hrule => exact Or.inl hrule
    | inr hfound =>
      right
      intro e he hflow hlive
      by_contra hmany
      rw [htold.lost hone he hflow hlive hmany] at hfound
      cases hfound
  · intro hcond
    cases hcond with
    | inl hrule => exact Or.inl hrule
    | inr hfew => exact Or.inr (htold.found hfew)

section Demo

/-- The table after a connection was entered and refreshed `n` times, all at time 0. -/
def refreshedTable (n : Nat) : Firewall :=
  ⟨[⟨demoFlow, ttlIncrement * (n + 1 : Nat), .ofNat n⟩], [], 1, [], []⟩

theorem refreshedTable_tellValid {n : Nat} (hn : n ≤ 80) :
    tellValid (refreshedTable n) (fun _ => 0) demoFlow = .ok (refreshedTable (n + 1), true) := by
  have hlive : FtEntry.Live 0 ⟨demoFlow, ttlIncrement * (n + 1 : Nat), .ofNat n⟩ := by
    refine ⟨Int.mul_nonneg (by decide) (Int.natCast_nonneg _), UInt32.le_iff_toNat_le.mpr ?_⟩
    rw [UInt32.toNat_ofNat_of_lt' (show n < 2 ^ 32 by omega)]
    exact hn
  have hfound : ftContains (fun _ => 0) demoFlow (refreshedTable n).flowTable = some 0 := by
    rw [refreshedTable, ftContains, if_pos ⟨rfl, hlive⟩]
  have hextend : FtEntry.extend ⟨demoFlow, ttlIncrement * (n + 1 : Nat), .ofNat n⟩ =
      ⟨demoFlow, ttlIncrement * (n + 1 + 1 : Nat), .ofNat (n + 1)⟩ := by
    rw [FtEntry.extend, UInt32.ofNat_add, Nat.cast_succ (n + 1), mul_add, mul_one]
    rfl
  rw [tellValid_known hfound, refreshedTable, List.modify_zero_cons, hextend]
  rfl

theorem refreshedTable_reach {n : Nat} (hn : n ≤ 80) :
    Reach FlowStep (fun _ _ => True) ⟨0, demoFirewall⟩ ⟨0, refreshedTable n⟩ := by
  induction n with
  | zero =>
    refine .next .start trivial (i := (fun _ => 0, .tellValid demoFlow)) ?_
    exact ⟨monotone_const, Int.le_refl _, fun _ => Int.le_refl _, true, by rfl⟩
  | succ n ih =>
    refine .next (ih (by omega)) trivial (i := (fun _ => 0, .tellValid demoFlow)) ?_
    exact ⟨monotone_const, Int.le_refl _, fun _ => Int.le_refl _, true,
      refreshedTable_tellValid (by omega)⟩

theorem answer_allowed_iff_demo : ∃ s : FlowState, s.fw = refreshedTable 79 ∧
    (checkConnection (refreshedTable 80) (fun _ => 0) demoFlow).2 = true := by
  refine ⟨⟨0, refreshedTable 79⟩, rfl, ?_⟩
  refine (answer_allowed_iff rfl rfl (refreshedTable_reach (by decide)) (Int.le_refl _)
    (refreshedTable_tellValid (by decide))).mpr (Or.inr ?_)
  decide

/-- The connection may go out for the 82nd time, but its answer is refused. -/
theorem answer_refused : ∃ (s : FlowState) (fw' : Firewall),
    Reach FlowStep (fun _ _ => True) ⟨0, demoFirewall⟩ s ∧
      tellValid s.fw (fun _ => 0) demoFlow = .ok (fw', true) ∧
      (checkConnection fw' (fun _ => 0) demoFlow).2 = false :=
  ⟨_, _, refreshedTable_reach (Nat.le_refl 80), refreshedTable_tellValid (Nat.le_refl 80), by decide⟩

end Demo

end PWOSPF
