import PWOSPF.Topology.State

/-!
# Choosing a route

`get_dyn_routing_if` and `get_static_routing_if` walk over a table and keep the last of the entries
that match the destination under the largest mask, masks being compared as they were loaded.
-/

namespace PWOSPF

section ClosestMatch

variable {α : Type} (mask pfix : α → InAddr) (dst : InAddr)

/-- The loop over a table, with `min_mask` and `response`. -/
def closestMatch : InAddr → Option α → List α → Option α
  | _, response, [] => response
  | minMask, response, current :: rest =>
    if mask current &&& dst = pfix current ∧ minMask ≤ mask current then
      closestMatch (mask current) (some current) rest
    else closestMatch minMask response rest

/-- The entry under which the destination falls. -/
def Matches (e : α) : Prop := mask e &&& dst = pfix e

/-- The last of the entries that match under the largest mask. -/
structure ClosestMatch (l : List α) (e : α) : Prop where
  matches_self : Matches mask pfix dst e
  split : ∃ front back, l = front ++ e :: back ∧
    (∀ e' ∈ front, Matches mask pfix dst e' → mask e' ≤ mask e) ∧
    ∀ e' ∈ back, Matches mask pfix dst e' → mask e' < mask e

/-- What the loop returns is what it had, if all that match have a smaller mask, or the closest match. -/
theorem closestMatch_loop (minMask : InAddr) (response : Option α) (l : List α) :
    (closestMatch mask pfix dst minMask response l = response ∧
        ∀ e ∈ l, Matches mask pfix dst e → mask e < minMask) ∨
      ∃ e, closestMatch mask pfix dst minMask response l = some e ∧ minMask ≤ mask e ∧
        ClosestMatch mask pfix dst l e := by
  induction l generalizing minMask response with
  | nil => exact Or.inl ⟨rfl, fun _ he => absurd he List.not_mem_nil⟩
  | cons current rest ih =>
    rw [closestMatch]
    by_cases hbetter : mask current &&& dst = pfix current ∧ minMask ≤ mask current
    · obtain ⟨hmatch, hle⟩ := hbetter
      rw [if_pos ⟨hmatch, hle⟩]
      right
      cases ih (mask current) (some current) with
      | inl hsame =>
        obtain ⟨heq, hless⟩ := hsame
        exact ⟨current, heq, hle, hmatch, [], rest, rfl, fun _ he => absurd he List.not_mem_nil, hless⟩
      | inr hlater =>
        obtain ⟨e, heq, hlee, hmatche, front, back, hsplit, hfront, hback⟩ := hlater
        refine ⟨e, heq, UInt32.le_trans hle hlee, hmatche, current :: front, back, ?_, ?_, hback⟩
        · rw [hsplit, List.cons_append]
        · exact List.forall_mem_cons.mpr ⟨fun _ => hlee, hfront⟩
    · rw [if_neg hbetter]
      have hcurrent : Matches mask pfix dst current → mask current < minMask := fun hmatch =>
        UInt32.not_le.mp fun hle => hbetter ⟨hmatch, hle⟩
      cases ih minMask response with
      | inl hsame => exact Or.inl ⟨hsame.1, List.forall_mem_cons.mpr ⟨hcurrent, hsame.2⟩⟩
      | inr hlater =>
        right
        obtain ⟨e, heq, hlee, hmatche, front, back, hsplit, hfront, hback⟩ := hlater
        refine ⟨e, heq, hlee, hmatche, current :: front, back, ?_, ?_, hback⟩
        · rw [hsplit, List.cons_append]
        · refine List.forall_mem_cons.mpr ⟨?_, hfront⟩
          exact fun hmatch => UInt32.le_of_lt (UInt32.lt_of_lt_of_le (hcurrent hmatch) hlee)

variable {mask pfix dst}

theorem closestMatch_some {l : List α} {e : α} (h : closestMatch mask pfix dst 0 none l = some e) :
    ClosestMatch mask pfix dst l e := by
  cases closestMatch_loop mask pfix dst 0 none l with
  | inl hnone =>
    rw [hnone.1] at h
    cases h
  | inr hsome =>
    obtain ⟨e', heq, -, hclosest⟩ := hsome
    rw [heq, Option.some.injEq] at h
    exact h ▸ hclosest

theorem closestMatch_isSome_iff {l : List α} :
    (closestMatch mask pfix dst 0 none l).isSome = true ↔ ∃ e ∈ l, Matches mask pfix dst e := by
  cases closestMatch_loop mask pfix dst 0 none l with
  | inl hnone =>
    obtain ⟨heq, hless⟩ := hnone
    rw [heq]
    constructor
    · intro hsome
      cases hsome
    · intro hsome
      obtain ⟨e, he, hmatch⟩ := hsome
      exact absurd (hless e he hmatch) (UInt32.not_lt.mpr UInt32.zero_le)
  | inr hsome =>
    obtain ⟨e, heq, -, hmatch, front, back, rfl, -⟩ := hsome
    rw [heq]
    exact ⟨fun _ => ⟨e, by simp, hmatch⟩, fun _ => rfl⟩

end ClosestMatch

def getDynRoutingIf (S : PwospfSubsys) (ipDst : InAddr) : Option FtableEntry :=
  closestMatch FtableEntry.mask FtableEntry.pfix ipDst 0 none S.fwrdTable

def getStaticRoutingIf (sr : SrInstance) (ipDst : InAddr) : Option SrRt :=
  closestMatch SrRt.mask SrRt.dest ipDst 0 none sr.routingTable

end PWOSPF
