import Mathlib.Data.Fintype.Card
import Mathlib.Logic.Relation

/-!
# Flooding with hop counts

One piece of news spreads over a directed graph: whoever learns it from a copy hands copies with one
hop less to everybody it has a link to, but for the one it got it from, as long as hops are left.
Copies are taken in any order, any number of times, and by anybody. When every copy has been taken by
the node it is for, the news is wherever a path of links leads, if there are at least as many hops as
nodes.
-/

namespace Framework

variable {ι : Type*}

/-- A copy on its way; it may be for nobody. -/
structure FloodCopy (ι : Type*) where
  src : ι
  dst : Option ι
  hops : Nat

/-- Who knows the news, the copies made, and who took which. -/
@[ext]
structure Flood (ι : Type*) where
  informed : Finset ι
  sent : List (FloodCopy ι)
  taken : List (ι × FloodCopy ι)

/-- The copies `news` of `i` with so many hops go along all links of `i` but those to `skip`. -/
structure Spreads (link : ι → ι → Prop) (skip : ι → Prop) (i : ι) (hops : Nat)
    (news : List (FloodCopy ι)) : Prop where
  src : ∀ d ∈ news, d.src = i
  hops : ∀ d ∈ news, d.hops = hops
  all : ∀ j, link i j → ¬ skip j → ∃ d ∈ news, d.dst = some j

/-- The source `o` has sent its copies. -/
structure Flood.Starts (link : ι → ι → Prop) (o : ι) (hops : Nat) (F : Flood ι) : Prop where
  informed : F.informed = {o}
  spreads : Spreads link (fun _ => False) o hops F.sent
  taken : F.taken = []

/-- A copy is taken: it is ignored by a node that knows the news, and spread by one that does not. -/
inductive FloodStep [DecidableEq ι] (link : ι → ι → Prop) (F : Flood ι) :
    ι × FloodCopy ι → Flood ι → Prop
  | known {i : ι} {c : FloodCopy ι} (hsent : c ∈ F.sent) (hknown : i ∈ F.informed) :
      FloodStep link F (i, c) { F with taken := F.taken ++ [(i, c)] }
  | learn {i : ι} {c : FloodCopy ι} (news : List (FloodCopy ι)) (hsent : c ∈ F.sent)
      (hnew : i ∉ F.informed)
      (hnews : if 1 < c.hops then Spreads link (fun j => j = c.src) i (c.hops - 1) news
        else news = []) :
      FloodStep link F (i, c) ⟨insert i F.informed, F.sent ++ news, F.taken ++ [(i, c)]⟩

/-- Whoever knows the news has told all it has links to, or they know it; and the copies have at
least as many hops left as nodes do not know the news. -/
structure Flood.Sound (link : ι → ι → Prop) (o : ι) (hops : Nat) (F : Flood ι) : Prop where
  source : o ∈ F.informed
  src : ∀ c ∈ F.sent, c.src ∈ F.informed
  hops : ∀ c ∈ F.sent, hops < c.hops + F.informed.card
  told : ∀ i ∈ F.informed, ∀ j, link i j →
    j ∈ F.informed ∨ ∃ c ∈ F.sent, c.src = i ∧ c.dst = some j
  taken : ∀ x ∈ F.taken, x.1 ∈ F.informed

variable {link : ι → ι → Prop} {o i : ι} {hops : Nat} {F F' : Flood ι} {c : FloodCopy ι}

theorem Flood.Starts.sound (h : F.Starts link o hops) : F.Sound link o hops where
  source := by simp [h.informed]
  src := by
    intro c hc
    simp [h.informed, h.spreads.src c hc]
  hops := by
    intro c hc
    rw [h.spreads.hops c hc, h.informed, Finset.card_singleton]
    exact Nat.lt_succ_self hops
  told := by
    intro i hi j hij
    rw [h.informed, Finset.mem_singleton] at hi
    subst hi
    obtain ⟨d, hd, hdst⟩ := h.spreads.all j hij not_false
    exact Or.inr ⟨d, hd, h.spreads.src d hd, hdst⟩
  taken := by
    intro c hc
    rw [h.taken] at hc
    cases hc

section Step

variable [DecidableEq ι]

/-- What is sent when a node learns the news. -/
theorem Flood.Sound.learn [Fintype ι] (h : F.Sound link o hops) (hcard : Fintype.card ι ≤ hops)
    (hsent : c ∈ F.sent) (hnew : i ∉ F.informed) {news : List (FloodCopy ι)}
    (hnews : if 1 < c.hops then Spreads link (fun j => j = c.src) i (c.hops - 1) news
      else news = []) :
    Flood.Sound link o hops ⟨insert i F.informed, F.sent ++ news, F.taken ++ [(i, c)]⟩ := by
  have hone : (insert i F.informed).card = F.informed.card + 1 := Finset.card_insert_of_notMem hnew
  -- the node that learns the news is not among those that have it
  have hlive : 1 < c.hops := by
    have hle := Finset.card_le_univ (insert i F.informed)
    have hhops := h.hops c hsent
    omega
  rw [if_pos hlive] at hnews
  refine ⟨Finset.mem_insert_of_mem h.source, ?_, ?_, ?_, ?_⟩
  · intro d hd
    rcases List.mem_append.mp hd with hd | hd
    · exact Finset.mem_insert_of_mem (h.src d hd)
    · rw [hnews.src d hd]
      exact Finset.mem_insert_self i _
  · intro d hd
    rw [hone]
    rcases List.mem_append.mp hd with hd | hd
    · exact Nat.lt_succ_of_lt (h.hops d hd)
    · have hhops := h.hops c hsent
      rw [hnews.hops d hd]
      omega
  · intro k hk j hkj
    rcases Finset.mem_insert.mp hk with rfl | hk
    · by_cases hj : j = c.src
      · exact Or.inl (Finset.mem_insert_of_mem (hj ▸ h.src c hsent))
      · obtain ⟨d, hd, hdst⟩ := hnews.all j hkj hj
        exact Or.inr ⟨d, List.mem_append_right _ hd, hnews.src d hd, hdst⟩
    · rcases h.told k hk j hkj with hj | ⟨d, hd, hds⟩
      · exact Or.inl (Finset.mem_insert_of_mem hj)
      · exact Or.inr ⟨d, List.mem_append_left _ hd, hds⟩
  · intro x hx
    rcases List.mem_append.mp hx with hx | hx
    · exact Finset.mem_insert_of_mem (h.taken x hx)
    · rw [List.mem_singleton.mp hx]
      exact Finset.mem_insert_self i _

theorem FloodStep.sound [Fintype ι] {x : ι × FloodCopy ι} (hstep : FloodStep link F x F')
    (hcard : Fintype.card ι ≤ hops) (h : F.Sound link o hops) : F'.Sound link o hops := by
  cases hstep with
  | known hsent hknown =>
    refine ⟨h.source, h.src, h.hops, h.told, ?_⟩
    intro x hx
    rcases List.mem_append.mp hx with hx | hx
    · exact h.taken x hx
    · rw [List.mem_singleton.mp hx]
      exact hknown
  | learn news hsent hnew hnews => exact h.learn hcard hsent hnew hnews

end Step

/-- When all copies have been taken, everybody knows the news whom links lead to. -/
theorem Flood.Sound.covers (h : F.Sound link o hops)
    (hall : ∀ c ∈ F.sent, ∀ j, c.dst = some j → (j, c) ∈ F.taken) {j : ι}
    (hj : Relation.ReflTransGen link o j) : j ∈ F.informed := by
  induction hj with
  | refl => exact h.source
  | tail _ hlink ih =>
    rcases h.told _ ih _ hlink with hinf | ⟨c, hc, -, hdst⟩
    · exact hinf
    · exact h.taken _ (hall c hc _ hdst)

end Framework
