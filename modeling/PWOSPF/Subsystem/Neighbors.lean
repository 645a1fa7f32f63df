import PWOSPF.Subsystem.Runs

/-!
# Neighbor records

`handle_HELLO` is the only function that writes the neighbor lists. It walks over the interfaces up
to the one that refuses the HELLO: it deletes the records that ran out, and where the HELLO is
accepted it refreshes the record of the sender or makes one.
-/

namespace PWOSPF

open Framework Topo

/-- What a HELLO does at an interface. -/
inductive Visit
  | untouched
  | swept
  | accepted
  deriving DecidableEq, Repr

/-- What the HELLO does at the `k`-th interface. -/
def visit (msg : HelloMsg) : List PwospfIflist → Nat → Visit
  | [], _ => .untouched
  | iface :: _, 0 =>
    if iface.name = msg.interface ∧ helloMismatch iface msg = false then .accepted else .swept
  | iface :: rest, k + 1 =>
    if iface.name = msg.interface ∧ helloMismatch iface msg then .untouched else visit msg rest k

variable {clock : Nat → Time} {msg : HelloMsg}

/-- The records that did not run out are left. -/
structure Swept (clock : Nat → Time) (i i' : PwospfIflist) : Prop where
  static : i'.static = i.static
  left : ∀ nbr ∈ i'.neighbors.elems, nbr ∈ i.neighbors.elems ∧ ∃ j, clock j ≤ nbr.timenotvalid

/-- The records of the sender are refreshed, and there is one unless it was found before. -/
structure Refreshed (clock : Nat → Time) (msg : HelloMsg) (found : Bool) (i i' : PwospfIflist) :
    Prop where
  static : i'.static = i.static
  left : ∀ nbr ∈ i'.neighbors.elems, nbr.ipAddress ≠ msg.ipSrc →
    nbr ∈ i.neighbors.elems ∧ ∃ j, clock j ≤ nbr.timenotvalid
  fresh : ∀ nbr ∈ i'.neighbors.elems, nbr.ipAddress = msg.ipSrc →
    ∃ j, nbr.timenotvalid = clock j + ospfNeighborTimeout
  heard : found = false → ∃ nbr ∈ i'.neighbors.elems, nbr.ipAddress = msg.ipSrc

/-- The interfaces before and after a HELLO. -/
inductive HelloWalk (clock : Nat → Time) (msg : HelloMsg) :
    Bool → List PwospfIflist → List PwospfIflist → Prop
  | done {found : Bool} : HelloWalk clock msg found [] []
  | other {found : Bool} {i i' : PwospfIflist} {rest rest' : List PwospfIflist}
      (hname : i.name ≠ msg.interface) (h : Swept clock i i')
      (hrest : HelloWalk clock msg found rest rest') :
      HelloWalk clock msg found (i :: rest) (i' :: rest')
  | refused {found : Bool} {i i' : PwospfIflist} {rest : List PwospfIflist}
      (hname : i.name = msg.interface) (hmis : helloMismatch i msg = true) (h : Swept clock i i') :
      HelloWalk clock msg found (i :: rest) (i' :: rest)
  | accepted {found found' : Bool} {i i' : PwospfIflist} {rest rest' : List PwospfIflist}
      (hname : i.name = msg.interface) (hmis : helloMismatch i msg = false)
      (h : Refreshed clock msg found i i') (hrest : HelloWalk clock msg found' rest rest') :
      HelloWalk clock msg found (i :: rest) (i' :: rest')

section Loop

variable {initTime : Time} {found : Bool} {neighbors neighbors' : DynArray NeighborList} {T T' : Topo}
  {i i' : PwospfIflist} {interfaces interfaces' : List PwospfIflist}

theorem swapErase_take {α : Type*} {l : List α} {n : Nat} (hn : n < l.length) :
    (swapErase l n).take n = l.take n := by
  have hne : l ≠ [] := List.ne_nil_of_length_pos (Nat.zero_lt_of_lt hn)
  rw [swapErase, List.getLast?_eq_some_getLast hne]
  simp only
  rw [List.dropLast_eq_take, List.take_take, List.length_set, Nat.min_eq_left (by omega),
    List.take_set_of_le (Nat.le_refl n)]

/-- The first of the records left to look at is deleted or passed. -/
theorem expireNeighbors_succ {m n : Nat}
    (h : expireNeighbors initTime clock (m + 1) n neighbors T = .ok (neighbors', T'))
    (hlen : n + (m + 1) = neighbors.size) :
    ∃ hn : n < neighbors.elems.length,
      (neighbors.elems[n].timenotvalid < clock 0 ∧ n + m = (neighbors.swapErase n).size ∧
        ∃ T₁, expireNeighbors initTime (later 2 clock) m n (neighbors.swapErase n) T₁ =
          .ok (neighbors', T')) ∨
      clock 0 ≤ neighbors.elems[n].timenotvalid ∧
        expireNeighbors initTime (later 2 clock) m (n + 1) neighbors T = .ok (neighbors', T') := by
  rw [DynArray.size] at hlen
  have hn : n < neighbors.elems.length := by omega
  refine ⟨hn, ?_⟩
  rw [expireNeighbors, List.getElem?_eq_getElem hn] at h
  by_cases hold : neighbors.elems[n].timenotvalid < clock 0
  · left
    have hl := length_swapErase neighbors.elems n hn
    refine ⟨hold, ?_, ?_⟩
    · change n + m = (Framework.swapErase neighbors.elems n).length
      omega
    · simp only [if_pos hold] at h
      by_cases hlate : initTime < clock 1
      · rw [if_pos hlate] at h
        obtain ⟨this, -, h⟩ := bind_eq_ok.mp h
        obtain ⟨T₁, -, h⟩ := bind_eq_ok.mp h
        exact ⟨T₁, h⟩
      · rw [if_neg hlate] at h
        exact ⟨T, h⟩
  · right
    simp only [if_neg hold] at h
    exact ⟨Int.not_lt.mp hold, h⟩

/-- The induction is on the records not looked at yet; those in front of position `n` stay. -/
theorem expireNeighbors_left {m n : Nat}
    (h : expireNeighbors initTime clock m n neighbors T = .ok (neighbors', T'))
    (hlen : n + m = neighbors.size) {nbr : NeighborList} (hnbr : nbr ∈ neighbors'.elems) :
    nbr ∈ neighbors.elems.take n ∨
      nbr ∈ neighbors.elems ∧ ∃ j, clock j ≤ nbr.timenotvalid := by
  induction m generalizing clock n neighbors T with
  | zero =>
    cases h
    left
    rw [Nat.add_zero, DynArray.size] at hlen
    rw [List.take_of_length_le (Nat.le_of_eq hlen.symm)]
    exact hnbr
  | succ m ih =>
    obtain ⟨hn, hdeleted | hpassed⟩ := expireNeighbors_succ h hlen
    · obtain ⟨-, hsize, T₁, hrest⟩ := hdeleted
      cases ih hrest hsize with
      | inl hfront =>
        left
        have htake := swapErase_take hn
        rw [← htake]
        exact hfront
      | inr hlive =>
        obtain ⟨hmem, j, hj⟩ := hlive
        right
        exact ⟨List.mem_of_mem_eraseIdx ((swapErase_perm neighbors.elems n hn).mem_iff.mp hmem),
          j + 2, hj⟩
    · obtain ⟨hlive, hrest⟩ := hpassed
      cases ih hrest (by omega) with
      | inl hfront =>
        rw [List.take_succ_eq_append_getElem hn, List.mem_append] at hfront
        cases hfront with
        | inl hfront => exact Or.inl hfront
        | inr hlast =>
          right
          rw [List.mem_singleton.mp hlast]
          exact ⟨List.getElem_mem hn, 0, hlive⟩
      | inr hlive =>
        obtain ⟨hmem, j, hj⟩ := hlive
        exact Or.inr ⟨hmem, j + 2, hj⟩

theorem mem_recordNeighbor {nbr : NeighborList}
    (h : nbr ∈ (recordNeighbor clock msg found neighbors).1.elems) :
    nbr.ipAddress ≠ msg.ipSrc ∧ nbr ∈ neighbors.elems ∨
      nbr.ipAddress = msg.ipSrc ∧ ∃ j, nbr.timenotvalid = clock j + ospfNeighborTimeout := by
  rw [recordNeighbor_elems] at h
  cases List.mem_append.mp h with
  | inl h =>
    obtain ⟨k, hk, hnbr⟩ := List.mem_mapIdx.mp h
    by_cases hsrc : neighbors.elems[k].ipAddress = msg.ipSrc
    · rw [if_pos hsrc] at hnbr
      right
      rw [← hnbr]
      exact ⟨hsrc, k, rfl⟩
    · rw [if_neg hsrc] at hnbr
      left
      rw [← hnbr]
      exact ⟨hsrc, List.getElem_mem hk⟩
  | inr h =>
    split at h
    · cases h
    · rw [List.mem_singleton.mp h]
      exact Or.inr ⟨rfl, _, rfl⟩

theorem recordNeighbor_heard :
    ∃ nbr ∈ (recordNeighbor clock msg false neighbors).1.elems, nbr.ipAddress = msg.ipSrc := by
  rw [recordNeighbor_elems, Bool.false_or]
  by_cases hany : (neighbors.elems.any fun nbr => nbr.ipAddress = msg.ipSrc) = true
  · obtain ⟨nbr, hnbr, hsrc⟩ := List.any_eq_true.mp hany
    obtain ⟨k, hk, hget⟩ := List.mem_iff_getElem.mp hnbr
    have hsrc' : neighbors.elems[k].ipAddress = msg.ipSrc := by
      rw [hget]
      exact of_decide_eq_true hsrc
    refine ⟨_, List.mem_append_left _ (List.mem_mapIdx.mpr ⟨k, hk, rfl⟩), ?_⟩
    rw [if_pos hsrc']
    exact hsrc'
  · rw [if_neg hany]
    exact ⟨_, List.mem_append_right _ List.mem_cons_self, rfl⟩

/-! ## The walk over the interfaces -/

theorem Swept.earlier {k : Nat} (h : Swept (later k clock) i i') : Swept clock i i' where
  static := h.static
  left := by
    intro nbr hnbr
    obtain ⟨hmem, j, hj⟩ := h.left nbr hnbr
    exact ⟨hmem, j + k, hj⟩

theorem Refreshed.earlier {k : Nat} (h : Refreshed (later k clock) msg found i i') :
    Refreshed clock msg found i i' where
  static := h.static
  left := by
    intro nbr hnbr hsrc
    obtain ⟨hmem, j, hj⟩ := h.left nbr hnbr hsrc
    exact ⟨hmem, j + k, hj⟩
  fresh := by
    intro nbr hnbr hsrc
    obtain ⟨j, hj⟩ := h.fresh nbr hnbr hsrc
    exact ⟨j + k, hj⟩
  heard := h.heard

theorem HelloWalk.earlier {k : Nat} (h : HelloWalk (later k clock) msg found interfaces interfaces') :
    HelloWalk clock msg found interfaces interfaces' := by
  induction h with
  | done => exact .done
  | other hname hswept _ ih => exact .other hname hswept.earlier ih
  | refused hname hmis hswept => exact .refused hname hmis hswept.earlier
  | accepted hname hmis hrec _ ih => exact .accepted hname hmis hrec.earlier ih

/-- The three ways through an iteration. -/
theorem helloIface_ok {goOn found' : Bool}
    (h : helloIface initTime clock msg i T found = .ok (i', T', found', goOn)) :
    ∃ left T₁, expireNeighbors initTime clock i.neighbors.size 0 i.neighbors T = .ok (left, T₁) ∧
      (i.name ≠ msg.interface ∧ goOn = true ∧ found' = found ∧ i' = { i with neighbors := left } ∧
          T' = T₁ ∨
        i.name = msg.interface ∧ helloMismatch i msg = true ∧ goOn = false ∧
          i' = { i with neighbors := left } ∧ T' = T₁ ∨
        i.name = msg.interface ∧ helloMismatch i msg = false ∧ goOn = true ∧
          i' = { i with neighbors :=
            (recordNeighbor (later (2 * i.neighbors.size) clock) msg found left).1 } ∧
          labelSubnet T₁ msg = .ok T') := by
  obtain ⟨⟨left, T₁⟩, hexpire, h⟩ := bind_eq_ok.mp h
  refine ⟨left, T₁, hexpire, ?_⟩
  simp only at h
  by_cases hname : i.name = msg.interface
  · rw [if_neg (not_not.mpr hname)] at h
    have hsame : helloMismatch { i with neighbors := left } msg = helloMismatch i msg := rfl
    rw [hsame] at h
    by_cases hmis : helloMismatch i msg = true
    · rw [if_pos hmis] at h
      cases h
      exact Or.inr (Or.inl ⟨hname, hmis, rfl, rfl, rfl⟩)
    · rw [if_neg hmis] at h
      by_cases hbuf : left.bufSize = 0
      · rw [if_pos hbuf] at h
        cases h
      · rw [if_neg hbuf] at h
        obtain ⟨T₂, hlabel, h⟩ := bind_eq_ok.mp h
        cases h
        exact Or.inr (Or.inr ⟨hname, Bool.eq_false_iff.mpr hmis, rfl, rfl, hlabel⟩)
  · rw [if_pos hname] at h
    cases h
    exact Or.inl ⟨hname, rfl, rfl, rfl, rfl⟩

/-- The first iteration, and the rest of the loop unless it returned. -/
theorem helloLoop_cons {rest : List PwospfIflist}
    (h : helloLoop initTime msg clock found (i :: rest) T = .ok (interfaces', T')) :
    ∃ i' T₁ found' goOn, helloIface initTime clock msg i T found = .ok (i', T₁, found', goOn) ∧
      (goOn = true → ∃ rest', interfaces' = i' :: rest' ∧
        helloLoop initTime msg (later (helloTicks i) clock) found' rest T₁ = .ok (rest', T')) ∧
      (goOn = false → interfaces' = i' :: rest ∧ T' = T₁) := by
  obtain ⟨⟨i', T₁, found', goOn⟩, hiface, h⟩ := bind_eq_ok.mp h
  refine ⟨i', T₁, found', goOn, hiface, ?_, ?_⟩
  · rintro rfl
    simp only [if_pos] at h
    obtain ⟨⟨rest', T₂⟩, hrest, h⟩ := bind_eq_ok.mp h
    cases h
    exact ⟨rest', rfl, hrest⟩
  · rintro rfl
    cases h
    exact ⟨rfl, rfl⟩

theorem helloIface_cases {goOn found' : Bool}
    (h : helloIface initTime clock msg i T found = .ok (i', T', found', goOn)) :
    i.name ≠ msg.interface ∧ goOn = true ∧ found' = found ∧ Swept clock i i' ∨
      i.name = msg.interface ∧ helloMismatch i msg = true ∧ goOn = false ∧ Swept clock i i' ∨
      i.name = msg.interface ∧ helloMismatch i msg = false ∧ goOn = true ∧
        Refreshed clock msg found i i' := by
  obtain ⟨left, T₁, hexpire, hcases⟩ := helloIface_ok h
  have hleft : ∀ nbr ∈ left.elems, nbr ∈ i.neighbors.elems ∧ ∃ j, clock j ≤ nbr.timenotvalid := by
    intro nbr hnbr
    cases expireNeighbors_left hexpire (Nat.zero_add _) hnbr with
    | inl hfront => cases hfront
    | inr hlive => exact hlive
  have hswept : Swept clock i { i with neighbors := left } := ⟨rfl, hleft⟩
  rcases hcases with ⟨hname, hgo, hfound, rfl, -⟩ | ⟨hname, hmis, hgo, rfl, -⟩ |
    ⟨hname, hmis, hgo, rfl, -⟩
  · exact Or.inl ⟨hname, hgo, hfound, hswept⟩
  · exact Or.inr (Or.inl ⟨hname, hmis, hgo, hswept⟩)
  · refine Or.inr (Or.inr ⟨hname, hmis, hgo, rfl, ?_, ?_, ?_⟩)
    · intro nbr hnbr hsrc
      cases mem_recordNeighbor hnbr with
      | inl hold => exact hleft nbr hold.2
      | inr hnew => exact absurd hnew.1 hsrc
    · intro nbr hnbr hsrc
      cases mem_recordNeighbor hnbr with
      | inl hold => exact absurd hsrc hold.1
      | inr hnew =>
        obtain ⟨-, j, hj⟩ := hnew
        exact ⟨j + 2 * i.neighbors.size, hj⟩
    · intro hfound
      rw [hfound]
      exact recordNeighbor_heard

theorem helloLoop_walk
    (h : helloLoop initTime msg clock found interfaces T = .ok (interfaces', T')) :
    HelloWalk clock msg found interfaces interfaces' := by
  induction interfaces generalizing clock found interfaces' T with
  | nil =>
    cases h
    exact .done
  | cons i rest ih =>
    obtain ⟨i', T₁, found', goOn, hiface, hon, hoff⟩ := helloLoop_cons h
    rcases helloIface_cases hiface with ⟨hname, hgo, hfound, hswept⟩ | ⟨hname, hmis, hgo, hswept⟩ |
      ⟨hname, hmis, hgo, hrec⟩
    · obtain ⟨rest', rfl, hrest⟩ := hon hgo
      rw [hfound] at hrest
      exact .other hname hswept (ih hrest).earlier
    · obtain ⟨rfl, -⟩ := hoff hgo
      exact .refused hname hmis hswept
    · obtain ⟨rest', rfl, hrest⟩ := hon hgo
      exact .accepted hname hmis hrec (ih hrest).earlier

/-- What the walk did at each of the interfaces. -/
theorem HelloWalk.visited (h : HelloWalk clock msg found interfaces interfaces') {k : Nat}
    (hk : interfaces'[k]? = some i') :
    ∃ i, interfaces[k]? = some i ∧
      (visit msg interfaces k = .untouched ∧ i' = i ∨
        visit msg interfaces k = .swept ∧ Swept clock i i' ∨
        visit msg interfaces k = .accepted ∧ ∃ found, Refreshed clock msg found i i') := by
  induction h generalizing k with
  | done => cases hk
  | other hname hswept hrest ih =>
    cases k with
    | zero =>
      cases hk
      refine ⟨_, rfl, Or.inr (Or.inl ⟨?_, hswept⟩)⟩
      exact if_neg fun hmatch => hname hmatch.1
    | succ k =>
      rw [visit, if_neg fun hmatch => hname hmatch.1]
      exact ih hk
  | refused hname hmis hswept =>
    cases k with
    | zero =>
      cases hk
      refine ⟨_, rfl, Or.inr (Or.inl ⟨?_, hswept⟩)⟩
      exact if_neg fun hmatch => by
        rw [hmis] at hmatch
        cases hmatch.2
    | succ k =>
      rw [visit, if_pos ⟨hname, hmis⟩]
      exact ⟨i', hk, Or.inl ⟨rfl, rfl⟩⟩
  | accepted hname hmis hrec hrest ih =>
    cases k with
    | zero =>
      cases hk
      refine ⟨_, rfl, Or.inr (Or.inr ⟨?_, _, hrec⟩)⟩
      exact if_pos ⟨hname, hmis⟩
    | succ k =>
      rw [visit, if_neg fun hmatch => by
        rw [hmis] at hmatch
        cases hmatch.2]
      exact ih hk

end Loop

/-! ## Events -/

section Events

variable {S S' : PwospfSubsys}

theorem handleHello_ok_iff (hlen : helloLen ≤ msg.len) : handleHello S clock msg = .ok S' ↔
    ∃ x, helloLoop S.initTime msg clock false S.interfaces S.top = .ok x ∧
      S' = { S with interfaces := x.1, top := x.2 } := by
  rw [handleHello, if_neg (Nat.not_lt.mpr hlen)]
  constructor
  · intro h
    obtain ⟨x, hloop, h⟩ := bind_eq_ok.mp h
    exact ⟨x, hloop, (Except.ok.inj h).symm⟩
  · rintro ⟨x, hloop, rfl⟩
    rw [hloop]
    rfl

/-- A HELLO is handled without a fault. -/
theorem handleHello_exists (hS : S.Wf) (clock : Nat → Time) (msg : HelloMsg) :
    ∃ S', handleHello S clock msg = .ok S' := by
  by_cases hlen : msg.len < helloLen
  · exact ⟨S, by rw [handleHello, if_pos hlen]; rfl⟩
  · obtain ⟨interfaces, T, hrun, -⟩ := helloLoop_invariant (I := fun _ => True)
      (Q := fun _ _ => True) (L := fun _ _ => True) (by simp) (by simp) hS.top True.intro hS.buffers
      (HelloAll.trivial S.initTime msg clock false S.interfaces S.top)
    exact ⟨_, (handleHello_ok_iff (Nat.not_lt.mp hlen)).mpr ⟨_, hrun, rfl⟩⟩

theorem handleHello_walk (hlen : helloLen ≤ msg.len) (h : handleHello S clock msg = .ok S') :
    HelloWalk clock msg false S.interfaces S'.interfaces := by
  obtain ⟨x, hloop, rfl⟩ := (handleHello_ok_iff hlen).mp h
  exact helloLoop_walk hloop

theorem recompute_interfaces (h : recompute S = .ok S') : S'.interfaces = S.interfaces := by
  obtain ⟨x, -, hS'⟩ := bind_eq_ok.mp h
  cases hS'
  rfl

theorem addToTop_interfaces {clock : Nat → Time} {rid : UInt32} {ads : List Route}
    (h : addToTop S clock rid ads = .ok S') : S'.interfaces = S.interfaces := by
  obtain ⟨T, -, h⟩ := bind_eq_ok.mp h
  exact recompute_interfaces (S := { S with top := T }) h

theorem setSequence_interfaces (rid : UInt32) (seq : UInt16) :
    (setSequence S rid seq).interfaces = S.interfaces := by
  unfold setSequence
  cases adjListContains S.top rid with
  | none => rfl
  | some p => rfl

theorem checkTopInvalid_interfaces {clock : Nat → Time} (h : checkTopInvalid S clock = .ok S') :
    S'.interfaces = S.interfaces := by
  obtain ⟨⟨T, changed⟩, -, h⟩ := bind_eq_ok.mp h
  cases changed with
  | true => exact recompute_interfaces (S := { S with top := T }) h
  | false =>
    cases h
    rfl

theorem Event.run_interfaces {e : Event} (h : e.run S = .ok S') :
    (∃ clock msg, handleHello S clock msg = .ok S') ∨ S'.interfaces = S.interfaces := by
  cases e with
  | lsu clock rid ads => exact Or.inr (addToTop_interfaces h)
  | seq rid seq =>
    right
    cases h
    exact setSequence_interfaces rid seq
  | hello clock msg => exact Or.inl ⟨clock, msg, h⟩
  | timeout clock => exact Or.inr (checkTopInvalid_interfaces h)

end Events

end PWOSPF
