import PWOSPF.Framework.FirstLeast
import PWOSPF.Topology.Dijkstra

/-!
# The choice of the next router

`get_smallest_unknown` returns the first router in list order among those that are unknown and have
the least non-negative distance. The loop looks twice at every router it takes, so that it needs at
most two rounds a router.
-/

namespace PWOSPF

open Framework

/-- Not settled yet, and reached by the search. -/
def Router.Open (r : Router) : Prop := r.known = false ∧ 0 ≤ r.dist

/-- What the loop carries after the routers `seen`: no minimum yet and nothing seen that qualifies,
or the first of the nearest ones. -/
inductive Nearest (seen : List Router) : Int → Option Ptr → Prop
  | nothing (hseen : ∀ r ∈ seen, ¬ r.Open) : Nearest seen (-1) none
  | found (r : Router) (hr : FirstLeast Router.Open Router.dist seen r) :
      Nearest seen r.dist (some r.addr)

namespace Nearest

variable {seen : List Router} {r : Router} {minDist : Int} {least : Option Ptr}

theorem pass (h : Nearest seen minDist least)
    (hr : r.known = false → 0 ≤ r.dist → 0 ≤ minDist ∧ minDist ≤ r.dist) :
    Nearest (seen ++ [r]) minDist least := by
  cases h with
  | nothing hseen =>
    apply Nearest.nothing
    intro x hx hopen
    rcases List.mem_append.mp hx with hx | hx
    · exact hseen x hx hopen
    · rw [List.mem_singleton] at hx
      subst hx
      have := (hr hopen.1 hopen.2).1
      omega
  | found a ha => exact .found a (ha.keep fun hopen => (hr hopen.1 hopen.2).2)

theorem take (h : Nearest seen minDist least) (hopen : r.Open)
    (hless : r.dist < minDist ∨ minDist < 0) : Nearest (seen ++ [r]) r.dist (some r.addr) := by
  refine .found r (.take hopen fun x hx hxopen => ?_)
  cases h with
  | nothing hseen => exact absurd hxopen (hseen x hx)
  | found a ha =>
    have hle := ha.le hx hxopen
    have h0 := ha.holds.2
    omega

end Nearest

/-- Two rounds for each router and one to see the end of the list are enough. -/
theorem smallestUnknownLoop_nearest (l : List Router) {seen : List Router} {minDist : Int}
    {least : Option Ptr} (h : Nearest seen minDist least) :
    ∃ minDist' res, Nearest (seen ++ l) minDist' res ∧
      ∀ fuel, 2 * l.length < fuel → smallestUnknownLoop fuel l minDist least = .ok res := by
  induction l generalizing seen minDist least with
  | nil =>
    refine ⟨minDist, least, by simpa using h, fun fuel hfuel => ?_⟩
    obtain ⟨fuel, rfl⟩ := Nat.exists_eq_succ_of_ne_zero (Nat.ne_zero_of_lt hfuel)
    rfl
  | cons r l ih =>
    have happ : seen ++ r :: l = seen ++ [r] ++ l := by simp
    rw [happ]
    by_cases htake : r.known = false ∧ 0 ≤ r.dist ∧ (r.dist < minDist ∨ minDist < 0)
    · obtain ⟨hk, h0, hless⟩ := htake
      obtain ⟨minDist', res, hres, hrun⟩ := ih (h.take ⟨hk, h0⟩ hless)
      refine ⟨minDist', res, hres, fun fuel hfuel => ?_⟩
      rw [List.length_cons] at hfuel
      obtain ⟨fuel, rfl⟩ : ∃ k, fuel = k + 1 + 1 := ⟨fuel - 2, by omega⟩
      rw [smallestUnknownLoop_take fuel hk h0 hless]
      exact hrun fuel (by omega)
    · have hpass : r.known = false → 0 ≤ r.dist → 0 ≤ minDist ∧ minDist ≤ r.dist := by
        intro hk h0
        have hless := not_and.mp (not_and.mp htake hk) h0
        omega
      obtain ⟨minDist', res, hres, hrun⟩ := ih (h.pass hpass)
      refine ⟨minDist', res, hres, fun fuel hfuel => ?_⟩
      rw [List.length_cons] at hfuel
      obtain ⟨fuel, rfl⟩ : ∃ k, fuel = k + 1 := ⟨fuel - 1, by omega⟩
      rw [smallestUnknownLoop_pass fuel hpass]
      exact hrun fuel (by omega)

/-- The loop ends within two rounds a router. It returns nothing exactly where no router is both
unknown and at a non-negative distance, and otherwise the first one of those that are nearest. -/
theorem getSmallestUnknown_firstLeast (network : List Router) :
    ∃ res, getSmallestUnknown network = .ok res ∧
      (∀ fuel, 2 * network.length < fuel →
        smallestUnknownLoop fuel network (-1) none = .ok res) ∧
      (res = none ↔ ∀ r ∈ network, ¬ (r.known = false ∧ 0 ≤ r.dist)) ∧
      ∀ p, res = some p → ∃ r, r.addr = p ∧ FirstLeast Router.Open Router.dist network r := by
  have hstart : Nearest [] (-1) none := .nothing (by simp)
  obtain ⟨m, res, hres, hrun⟩ := smallestUnknownLoop_nearest network hstart
  rw [List.nil_append] at hres
  refine ⟨res, hrun _ (Nat.lt_succ_self _), hrun, ?_, ?_⟩
  · cases hres with
    | nothing hseen => exact ⟨fun _ => hseen, fun _ => rfl⟩
    | found r hr => exact ⟨fun h => absurd h (Option.some_ne_none _), fun hall => absurd hr.holds (hall r hr.mem)⟩
  · intro p hp
    subst hp
    cases hres with
    | found r hr => exact ⟨r, rfl, hr⟩

end PWOSPF
