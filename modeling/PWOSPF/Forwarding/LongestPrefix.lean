import PWOSPF.Forwarding.RouteChoice

/-!
# Longest prefix match

Masks are compared as they were loaded, least significant byte first, although they are stored in
network order. For network masks that is the order of their lengths: in the byte where two of them
differ first, the longer one has more leading ones, and the bytes behind it weigh more.
-/

namespace PWOSPF

/-- The network mask with `n` leading ones, as it is loaded. -/
def prefixMask (n : Nat) : InAddr := htonl (.ofNat (2 ^ 32 - 2 ^ (32 - n)))

/-- The number of ones. -/
def maskLen (mask : InAddr) : Nat := (List.range 32).countP mask.toNat.testBit

def Contiguous (mask : InAddr) : Prop := ∃ n ≤ 32, mask = prefixMask n

instance (mask : InAddr) : Decidable (Contiguous mask) :=
  inferInstanceAs (Decidable (∃ n ≤ 32, mask = prefixMask n))

theorem maskLen_prefixMask {n : Nat} (hn : n ≤ 32) : maskLen (prefixMask n) = n := by
  have hall : ∀ n ≤ 32, maskLen (prefixMask n) = n := by decide
  exact hall n hn

theorem prefixMask_lt_succ {n : Nat} (hn : n < 32) : prefixMask n < prefixMask (n + 1) := by
  have hall : ∀ n < 32, prefixMask n < prefixMask (n + 1) := by decide
  exact hall n hn

theorem prefixMask_lt {n m : Nat} (hnm : n < m) (hm : m ≤ 32) : prefixMask n < prefixMask m := by
  induction m with
  | zero => omega
  | succ m ih =>
    have hlast := prefixMask_lt_succ (n := m) hm
    cases Nat.lt_succ_iff_lt_or_eq.mp hnm with
    | inl hlt => exact UInt32.lt_trans (ih hlt (Nat.le_of_succ_le hm)) hlast
    | inr heq => exact heq ▸ hlast

/-- The longer of two network masks is the larger number. -/
theorem Contiguous.lt_iff {a b : InAddr} (ha : Contiguous a) (hb : Contiguous b) :
    a < b ↔ maskLen a < maskLen b := by
  obtain ⟨n, hn, rfl⟩ := ha
  obtain ⟨m, hm, rfl⟩ := hb
  rw [maskLen_prefixMask hn, maskLen_prefixMask hm]
  constructor
  · intro hlt
    by_contra hge
    cases Nat.lt_or_eq_of_le (Nat.not_lt.mp hge) with
    | inl hmn => exact UInt32.lt_asymm hlt (prefixMask_lt hmn hn)
    | inr heq =>
      rw [heq] at hlt
      exact UInt32.lt_irrefl _ hlt
  · exact fun hlt => prefixMask_lt hlt hm

theorem Contiguous.le_iff {a b : InAddr} (ha : Contiguous a) (hb : Contiguous b) :
    a ≤ b ↔ maskLen a ≤ maskLen b := by
  rw [← UInt32.not_lt, hb.lt_iff ha, Nat.not_lt]

/-- What a look-up in the table is to find: an entry whose prefix is the destination under its mask,
if there is one, and then the last of those with the longest mask. -/
structure LongestPrefix {α : Type} (mask pfix : α → InAddr) (dst : InAddr) (table : List α)
    (found : Option α) : Prop where
  found_iff : found.isSome = true ↔ ∃ e ∈ table, pfix e = dst &&& mask e
  longest : ∀ e, found = some e → pfix e = dst &&& mask e ∧
    ∃ front back, table = front ++ e :: back ∧
      (∀ e' ∈ front, pfix e' = dst &&& mask e' → maskLen (mask e') ≤ maskLen (mask e)) ∧
      ∀ e' ∈ back, pfix e' = dst &&& mask e' → maskLen (mask e') < maskLen (mask e)

theorem closestMatch_longestPrefix {α : Type} (mask pfix : α → InAddr) (dst : InAddr)
    {table : List α} (hmask : ∀ e ∈ table, Contiguous (mask e)) :
    LongestPrefix mask pfix dst table (closestMatch mask pfix dst 0 none table) := by
  have hmatches : ∀ e, pfix e = dst &&& mask e ↔ Matches mask pfix dst e := by
    intro e
    rw [Matches, UInt32.and_comm, eq_comm]
  constructor
  · simp only [closestMatch_isSome_iff, hmatches]
  · intro e hfound
    obtain ⟨hmatch, front, back, rfl, hfront, hback⟩ := closestMatch_some hfound
    have he := hmask e (by simp)
    refine ⟨(hmatches e).mpr hmatch, front, back, rfl, ?_, ?_⟩
    · intro e' he' hmatch'
      exact ((hmask e' (by simp [he'])).le_iff he).mp (hfront e' he' ((hmatches e').mp hmatch'))
    · intro e' he' hmatch'
      exact ((hmask e' (by simp [he'])).lt_iff he).mp (hback e' he' ((hmatches e').mp hmatch'))

/-- Both look-ups find the longest prefix match in tables with network masks. -/
theorem routingIf_longestPrefix {S : PwospfSubsys} {sr : SrInstance} (dst : InAddr)
    (hdyn : ∀ e ∈ S.fwrdTable, Contiguous e.mask)
    (hstatic : ∀ e ∈ sr.routingTable, Contiguous e.mask) :
    LongestPrefix FtableEntry.mask FtableEntry.pfix dst S.fwrdTable (getDynRoutingIf S dst) ∧
      LongestPrefix SrRt.mask SrRt.dest dst sr.routingTable (getStaticRoutingIf sr dst) :=
  ⟨closestMatch_longestPrefix _ _ dst hdyn, closestMatch_longestPrefix _ _ dst hstatic⟩

section Demo

/-- Routes to 10.0.0.0/8 and 10.128.0.0/9, which differ in the second byte. -/
def demoTables : PwospfSubsys × SrInstance :=
  (⟨⟨[], 0, 0⟩, [⟨0x0000800a, 0x000080ff, 1, [1], 1⟩, ⟨0x0000000a, 0x000000ff, 2, [2], 1⟩], [], 0, 0, 0,
      0⟩,
    ⟨[], [⟨0x0000000a, 1, 0x000000ff, [1]⟩, ⟨0, 2, 0, [2]⟩]⟩)

/-- To 10.200.0.1, the first dynamic and the first static route. -/
theorem routingIf_longestPrefix_demo :
    (getDynRoutingIf demoTables.1 0x0100c80a).map FtableEntry.interface = some [1] ∧
      LongestPrefix FtableEntry.mask FtableEntry.pfix 0x0100c80a demoTables.1.fwrdTable
        (getDynRoutingIf demoTables.1 0x0100c80a) ∧
      LongestPrefix SrRt.mask SrRt.dest 0x0100c80a demoTables.2.routingTable
        (getStaticRoutingIf demoTables.2 0x0100c80a) :=
  ⟨by decide, routingIf_longestPrefix 0x0100c80a (by decide) (by decide)⟩

end Demo

end PWOSPF
