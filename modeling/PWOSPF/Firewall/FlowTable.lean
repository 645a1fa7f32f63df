import Mathlib.Tactic.Ring
import PWOSPF.Framework.Leases
import PWOSPF.Topology.State

/-!
# The flow table of the firewall

`fw.c`: the rules, the flow table and the counter kept beside it. The `i`-th clock reading of
`ft_contains` is that for the `i`-th entry, if it makes one.
-/

namespace PWOSPF

open Framework

def ttlIncrement : Time := 50
def maxTtlUpdates : UInt32 := 80
def maxFtSize : Int := 30

/-- What identifies a connection. -/
structure Flow where
  ipS : InAddr
  ipD : InAddr
  protocol : UInt8
  portS : UInt16
  portD : UInt16
  deriving DecidableEq, Repr

structure FtEntry extends Flow where
  expTime : Time
  ttlUpdates : UInt32
  deriving DecidableEq, Repr

/-- The firewall's part of `struct sr_instance`. -/
structure Firewall where
  flowTable : List FtEntry
  rules : List FtEntry
  ftSize : Int
  inter : List IfName
  exter : List IfName
  deriving DecidableEq, Repr

def FtEntry.Live (current : Time) (e : FtEntry) : Prop :=
  e.expTime ≥ current ∧ e.ttlUpdates ≤ maxTtlUpdates

instance (current : Time) (e : FtEntry) : Decidable (e.Live current) :=
  inferInstanceAs (Decidable (_ ∧ _))

/-- `ent->exp_time += TTL_INCREMENT; ent->ttl_updates++` -/
def FtEntry.extend (e : FtEntry) : FtEntry :=
  { e with expTime := e.expTime + ttlIncrement, ttlUpdates := e.ttlUpdates + 1 }

/-- The position of the first live entry of the connection. -/
def ftContains (clock : Nat → Time) (flow : Flow) : List FtEntry → Option Nat
  | [] => none
  | walker :: rest =>
    if walker.toFlow = flow ∧ walker.Live (clock 0) then some 0
    else (ftContains (later 1 clock) flow rest).map (· + 1)

/-- The protocol of a rule is compared with the destination address. -/
def ruleContains (fw : Firewall) (flow : Flow) : Bool :=
  fw.rules.any fun walker =>
    (walker.ipS = flow.ipS ∨ walker.ipS = 0) ∧ (walker.ipD = flow.ipD ∨ walker.ipD = 0) ∧
    (walker.protocol.toUInt32 = flow.ipD ∨ walker.protocol = 0) ∧
    (walker.portS = flow.portS ∨ walker.portS = 0) ∧
    (walker.portD = flow.portD ∨ walker.portD = 0)

def isExternal (fw : Firewall) (iface : IfName) : Bool := fw.exter.any fun walker => walker = iface
def isInternal (fw : Firewall) (iface : IfName) : Bool := fw.inter.any fun walker => walker = iface

def addConnect (fw : Firewall) (current : Time) (flow : Flow) : Firewall :=
  { fw with
    flowTable := fw.flowTable ++ [{ flow with expTime := current + ttlIncrement, ttlUpdates := 0 }]
    ftSize := fw.ftSize + 1 }

/-- The loop of `remove_stale_entries` with `walker` at the first of `rest`. With no `prev`, a stale
entry makes it unlink the head of the list, wherever `walker` is, and start over; with one, it frees
`walker` and reads it again. -/
def removeStaleLoop (current : Time) (prev : Option FtEntry) :
    Nat → List FtEntry → List FtEntry → Int → Exec (List FtEntry × Int)
  | 0, _, _, _ => .error .outOfFuel
  | _ + 1, passed, [], ftSize => .ok (passed, ftSize)
  | fuel + 1, passed, walker :: rest, ftSize =>
    if walker.ttlUpdates > maxTtlUpdates ∨ walker.expTime < current then
      match prev with
      | none =>
        removeStaleLoop current prev fuel [] (passed ++ walker :: rest).tail (ftSize - 1)
      | some _ => .error .dangling
    else removeStaleLoop current prev fuel (passed ++ [walker]) rest ftSize

def removeStaleEntries (fw : Firewall) (current : Time) : Exec Firewall := do
  let n := fw.flowTable.length
  let (flowTable, ftSize) ← removeStaleLoop current none ((n + 1) * (n + 1)) [] fw.flowTable fw.ftSize
  return { fw with flowTable := flowTable, ftSize := ftSize }

/-- Also whether the connection is allowed. -/
def checkConnection (fw : Firewall) (clock : Nat → Time) (flow : Flow) : Firewall × Bool :=
  if ruleContains fw flow then (fw, true)
  else
    match ftContains clock flow fw.flowTable with
    | some i => ({ fw with flowTable := fw.flowTable.modify i FtEntry.extend }, true)
    | none => (fw, false)

def tellValid (fw : Firewall) (clock : Nat → Time) (flow : Flow) : Exec (Firewall × Bool) :=
  match ftContains clock flow fw.flowTable with
  | some i => .ok ({ fw with flowTable := fw.flowTable.modify i FtEntry.extend }, true)
  | none =>
    let clock := later fw.flowTable.length clock
    if fw.ftSize < maxFtSize then .ok (addConnect fw (clock 0) flow, true)
    else do
      let fw ← removeStaleEntries fw (clock 0)
      if fw.ftSize < maxFtSize then return (addConnect fw (clock 1) flow, true)
      else return (fw, false)

/-! ## Looking up -/

variable {fw fw' : Firewall} {clock : Nat → Time} {flow : Flow} {T : List FtEntry}

theorem FtEntry.Live.earlier {e : FtEntry} {t t' : Time} (h : e.Live t') (ht : t ≤ t') : e.Live t :=
  ⟨Int.le_trans ht h.1, h.2⟩

theorem FtEntry.stale_iff {e : FtEntry} {t : Time} :
    (e.ttlUpdates > maxTtlUpdates ∨ e.expTime < t) ↔ ¬ e.Live t := by
  rw [FtEntry.Live, not_and_or, or_comm, UInt32.not_le, ge_iff_le, Int.not_le]

theorem ftContains_some {i : Nat} (h : ftContains clock flow T = some i) :
    ∃ e, T[i]? = some e ∧ e.toFlow = flow ∧ e.Live (clock i) := by
  induction T generalizing clock i with
  | nil => cases h
  | cons walker rest ih =>
    rw [ftContains] at h
    by_cases hlive : walker.toFlow = flow ∧ walker.Live (clock 0)
    · rw [if_pos hlive] at h
      cases h
      exact ⟨walker, rfl, hlive⟩
    · rw [if_neg hlive] at h
      obtain ⟨j, hj, rfl⟩ := Option.map_eq_some_iff.mp h
      exact ih hj

theorem ftContains_none (h : ftContains clock flow T = none) {i : Nat} {e : FtEntry}
    (he : T[i]? = some e) (hflow : e.toFlow = flow) : ¬ e.Live (clock i) := by
  induction T generalizing clock i with
  | nil => cases he
  | cons walker rest ih =>
    rw [ftContains] at h
    by_cases hlive : walker.toFlow = flow ∧ walker.Live (clock 0)
    · rw [if_pos hlive] at h
      cases h
    · rw [if_neg hlive] at h
      cases i with
      | zero =>
        cases he
        exact fun hl => hlive ⟨hflow, hl⟩
      | succ i => exact ih (Option.map_eq_none_iff.mp h) he

/-- A live entry of the connection is found, be it that one or an earlier one. -/
theorem ftContains_isSome_iff : (ftContains clock flow T).isSome = true ↔
    ∃ (i : Nat) (e : FtEntry), T[i]? = some e ∧ e.toFlow = flow ∧ e.Live (clock i) := by
  cases hfound : ftContains clock flow T with
  | some i => simpa using ⟨i, ftContains_some hfound⟩
  | none =>
    simp only [Option.isSome_none, Bool.false_eq_true, false_iff, not_exists, not_and]
    exact fun i e he hflow => ftContains_none hfound he hflow

theorem checkConnection_allowed_iff : (checkConnection fw clock flow).2 = true ↔
    ruleContains fw flow = true ∨ (ftContains clock flow fw.flowTable).isSome = true := by
  rw [checkConnection]
  by_cases hrule : ruleContains fw flow = true
  · simp [hrule]
  · rw [if_neg hrule]
    cases ftContains clock flow fw.flowTable <;> simp [hrule]

/-! ## Removing stale entries -/

/-- The loop unlinks entries from the head of the list until no stale one is left. -/
theorem removeStaleLoop_eq {current : Time} (fuel : Nat) (passed rest : List FtEntry) (ftSize : Int)
    (hfresh : ∀ e ∈ passed, e.Live current)
    (hfuel : (passed ++ rest).length * ((passed ++ rest).length + 1) + rest.length + 1 ≤ fuel) :
    removeStaleLoop current none fuel passed rest ftSize =
      .ok ((passed ++ rest).rtakeWhile fun e => e.Live current,
        ftSize - ((passed ++ rest).length -
          ((passed ++ rest).rtakeWhile fun e => e.Live current).length : Nat)) := by
  induction fuel generalizing passed rest ftSize with
  | zero => omega
  | succ fuel ih =>
    cases rest with
    | nil =>
      have hall : (passed.rtakeWhile fun e => e.Live current) = passed :=
        List.rtakeWhile_eq_self_iff.mpr fun e he => decide_eq_true (hfresh e he)
      rw [removeStaleLoop, List.append_nil, hall, Nat.sub_self]
      simp
    | cons walker rest =>
      rw [removeStaleLoop]
      by_cases hstale : walker.ttlUpdates > maxTtlUpdates ∨ walker.expTime < current
      · rw [if_pos hstale]
        obtain ⟨head, tail, hsplit⟩ := List.exists_cons_of_ne_nil
          (List.append_ne_nil_of_right_ne_nil passed (List.cons_ne_nil walker rest))
        have hcut : ((head :: tail).rtakeWhile fun e => decide (e.Live current)) =
            tail.rtakeWhile fun e => decide (e.Live current) := by
          apply rtakeWhile_cons
          refine ⟨walker, ?_, decide_eq_false (FtEntry.stale_iff.mp hstale)⟩
          rw [← hsplit]
          exact List.mem_append_right _ List.mem_cons_self
        have hle : (tail.rtakeWhile fun e => decide (e.Live current)).length ≤ tail.length :=
          (List.rtakeWhile_suffix _ _).length_le
        have hlen := congrArg List.length hsplit
        rw [List.length_append, List.length_cons, List.length_cons] at hlen
        rw [hsplit, List.length_cons, List.length_cons] at hfuel
        rw [hsplit, hcut, List.tail_cons, ih [] tail (ftSize - 1) (fun _ he => nomatch he)]
        · rw [List.nil_append, List.length_cons]
          congr 2
          omega
        · have hround : (tail.length + 1) * (tail.length + 1 + 1) =
              tail.length * (tail.length + 1) + 2 * (tail.length + 1) := by ring
          rw [List.nil_append]
          omega
      · have hmove : passed ++ [walker] ++ rest = passed ++ walker :: rest := by
          rw [List.append_assoc, List.singleton_append]
        rw [if_neg hstale, ih, hmove]
        · intro e he
          cases List.mem_append.mp he with
          | inl he => exact hfresh e he
          | inr he =>
            rw [List.mem_singleton.mp he]
            exact Decidable.not_not.mp fun hdead => hstale (FtEntry.stale_iff.mpr hdead)
        · rw [hmove]
          rw [List.length_cons] at hfuel
          omega

/-- What `remove_stale_entries` leaves: the end of the list behind its last stale entry. -/
def Firewall.dropStale (fw : Firewall) (current : Time) : Firewall :=
  let fresh := fw.flowTable.rtakeWhile fun e => e.Live current
  { fw with flowTable := fresh, ftSize := fw.ftSize - (fw.flowTable.length - fresh.length : Nat) }

theorem removeStaleEntries_eq (fw : Firewall) (current : Time) :
    removeStaleEntries fw current = .ok (fw.dropStale current) := by
  have hfuel : fw.flowTable.length * (fw.flowTable.length + 1) + fw.flowTable.length + 1 =
      (fw.flowTable.length + 1) * (fw.flowTable.length + 1) := by ring
  rw [removeStaleEntries, removeStaleLoop_eq _ _ _ _ (by simp)]
  · rfl
  · rw [List.nil_append, hfuel]

section DropStale

variable {current : Time}

theorem dropStale_suffix (fw : Firewall) (current : Time) :
    (fw.dropStale current).flowTable <:+ fw.flowTable :=
  List.rtakeWhile_suffix _ _

theorem dropStale_live {e : FtEntry} (he : e ∈ (fw.dropStale current).flowTable) :
    e.Live current := by
  have hfresh := List.mem_rtakeWhile_imp he
  exact of_decide_eq_true hfresh

theorem dropStale_ftSize : (fw.dropStale current).ftSize =
    fw.ftSize - (fw.flowTable.length - (fw.dropStale current).flowTable.length : Nat) := rfl

theorem dropStale_same (h : (fw.dropStale current).flowTable = fw.flowTable) :
    fw.dropStale current = fw := by
  have hsize : (fw.dropStale current).ftSize = fw.ftSize := by
    rw [dropStale_ftSize, h, Nat.sub_self]
    exact Int.sub_zero _
  show { fw with
    flowTable := (fw.dropStale current).flowTable
    ftSize := (fw.dropStale current).ftSize } = fw
  rw [h, hsize]

end DropStale

/-- A connection without a live entry gets one, if there is room or room can be made. -/
theorem tellValid_new (h : ftContains clock flow fw.flowTable = none) :
    tellValid fw clock flow =
      let current := clock fw.flowTable.length
      if fw.ftSize < maxFtSize then .ok (addConnect fw current flow, true)
      else if (fw.dropStale current).ftSize < maxFtSize then
        .ok (addConnect (fw.dropStale current) (clock (fw.flowTable.length + 1)) flow, true)
      else .ok (fw.dropStale current, false) := by
  rw [tellValid, h]
  simp only [removeStaleEntries_eq, ok_bind, pure_eq_ok, later, Nat.zero_add, Nat.add_comm 1]

theorem tellValid_known {i : Nat} (h : ftContains clock flow fw.flowTable = some i) :
    tellValid fw clock flow =
      .ok ({ fw with flowTable := fw.flowTable.modify i FtEntry.extend }, true) := by
  rw [tellValid, h]

/-- What `tell_valid` does: it refreshes the live entry of the connection, or makes one if there is
room, or once `remove_stale_entries` made room, or refuses. -/
inductive Told (fw : Firewall) (clock : Nat → Time) (flow : Flow) : Firewall → Bool → Prop
  | known (i : Nat) (hfound : ftContains clock flow fw.flowTable = some i) :
      Told fw clock flow { fw with flowTable := fw.flowTable.modify i FtEntry.extend } true
  | added (hnew : ftContains clock flow fw.flowTable = none) (hroom : fw.ftSize < maxFtSize) :
      Told fw clock flow (addConnect fw (clock fw.flowTable.length) flow) true
  | swept (hnew : ftContains clock flow fw.flowTable = none) (hfull : ¬ fw.ftSize < maxFtSize)
      (hroom : (fw.dropStale (clock fw.flowTable.length)).ftSize < maxFtSize) :
      Told fw clock flow (addConnect (fw.dropStale (clock fw.flowTable.length))
        (clock (fw.flowTable.length + 1)) flow) true
  | refused (hnew : ftContains clock flow fw.flowTable = none) (hfull : ¬ fw.ftSize < maxFtSize)
      (hroom : ¬ (fw.dropStale (clock fw.flowTable.length)).ftSize < maxFtSize) :
      Told fw clock flow (fw.dropStale (clock fw.flowTable.length)) false

theorem tellValid_told {r : Bool} (h : tellValid fw clock flow = .ok (fw', r)) :
    Told fw clock flow fw' r := by
  cases hfound : ftContains clock flow fw.flowTable with
  | some i =>
    rw [tellValid_known hfound] at h
    cases h
    exact .known i hfound
  | none =>
    rw [tellValid_new hfound] at h
    by_cases hroom : fw.ftSize < maxFtSize
    · rw [if_pos hroom] at h
      cases h
      exact .added hfound hroom
    · rw [if_neg hroom] at h
      by_cases hroom' : (fw.dropStale (clock fw.flowTable.length)).ftSize < maxFtSize
      · rw [if_pos hroom'] at h
        cases h
        exact .swept hfound hroom hroom'
      · rw [if_neg hroom'] at h
        cases h
        exact .refused hfound hroom hroom'

/-! ## The connections in the table -/

theorem extend_toFlow (T : List FtEntry) (i : Nat) :
    (T.modify i FtEntry.extend).map FtEntry.toFlow = T.map FtEntry.toFlow := by
  induction T generalizing i with
  | nil => cases i <;> rfl
  | cons e T ih =>
    cases i with
    | zero => rfl
    | succ i => rw [List.modify_succ_cons, List.map_cons, List.map_cons, ih]

theorem checkConnection_toFlow (fw : Firewall) (clock : Nat → Time) (flow : Flow) :
    (checkConnection fw clock flow).1.flowTable.map FtEntry.toFlow =
      fw.flowTable.map FtEntry.toFlow := by
  unfold checkConnection
  split
  · rfl
  · split
    · exact extend_toFlow _ _
    · rfl

/-- What `tell_valid` accepts is in the table afterwards; it enters nothing else. -/
theorem tellValid_toFlow {r : Bool} (h : tellValid fw clock flow = .ok (fw', r)) :
    (r = true → flow ∈ fw'.flowTable.map FtEntry.toFlow) ∧
      ∀ flow' ∈ fw'.flowTable.map FtEntry.toFlow,
        flow' ∈ fw.flowTable.map FtEntry.toFlow ∨ r = true ∧ flow' = flow := by
  have hadd : ∀ fw₁ : Firewall, (∀ flow' ∈ fw₁.flowTable.map FtEntry.toFlow,
      flow' ∈ fw.flowTable.map FtEntry.toFlow) → ∀ current,
      flow ∈ (addConnect fw₁ current flow).flowTable.map FtEntry.toFlow ∧
        ∀ flow' ∈ (addConnect fw₁ current flow).flowTable.map FtEntry.toFlow,
          flow' ∈ fw.flowTable.map FtEntry.toFlow ∨ flow' = flow := by
    intro fw₁ hold current
    rw [addConnect, List.map_append, List.map_singleton]
    constructor
    · exact List.mem_append_right _ List.mem_cons_self
    · intro flow' hflow'
      cases List.mem_append.mp hflow' with
      | inl hmem => exact Or.inl (hold flow' hmem)
      | inr hnew => exact Or.inr (List.mem_singleton.mp hnew)
  have hdrop : ∀ current, ∀ flow' ∈ (fw.dropStale current).flowTable.map FtEntry.toFlow,
      flow' ∈ fw.flowTable.map FtEntry.toFlow := fun current flow' hflow' =>
    ((dropStale_suffix fw current).sublist.map FtEntry.toFlow).mem hflow'
  cases tellValid_told h with
  | known i hfound =>
    obtain ⟨e, he, hflow, -⟩ := ftContains_some hfound
    simp only [extend_toFlow]
    constructor
    · intro _
      rw [← hflow]
      exact List.mem_map_of_mem (List.mem_of_getElem? he)
    · exact fun flow' hflow' => Or.inl hflow'
  | added hnew hroom =>
    have hnew := hadd fw (fun _ h => h) (clock fw.flowTable.length)
    exact ⟨fun _ => hnew.1, fun flow' hflow' => (hnew.2 flow' hflow').imp_right fun h => ⟨rfl, h⟩⟩
  | swept hnew hfull hroom =>
    have hnew := hadd _ (hdrop (clock fw.flowTable.length)) (clock (fw.flowTable.length + 1))
    exact ⟨fun _ => hnew.1, fun flow' hflow' => (hnew.2 flow' hflow').imp_right fun h => ⟨rfl, h⟩⟩
  | refused hnew hfull hroom =>
    constructor
    · intro hfalse
      cases hfalse
    · exact fun flow' hflow' => Or.inl (hdrop _ flow' hflow')

end PWOSPF
