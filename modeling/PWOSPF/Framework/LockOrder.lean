import PWOSPF.Framework.Execution
import PWOSPF.Framework.Tally
import Mathlib.Order.WellFounded
import Mathlib.Data.Set.Basic

/-!
# Threads that take their locks in order

A `Skeleton` is the control flow of a function reduced to what it does to locks, and `Path` relates
it to the sequences of operations it can perform. `Skeleton.wp` computes what the locks held before
have to satisfy so that, on every path, each lock taken is above all the locks held and only locks
held are given back. Threads that run such skeletons on non-recursive locks never wait in a circle.
-/

namespace Framework

variable {M R : Type*}

inductive LockOp (M R : Type*)
  | acquire (m : M)
  | release (m : M)
  | spawn (r : R)

section Skeletons

inductive Skeleton (M R : Type*)
  | skip
  | act (o : LockOp M R)
  | seq (p q : Skeleton M R)
  | either (p q : Skeleton M R)
  | loop (p : Skeleton M R)
  | brk
  | ret
  | call (p : Skeleton M R)

/-- How control leaves a piece of a function. -/
inductive Exit
  | done
  | brk
  | ret

namespace Skeleton

@[simp] def block : List (Skeleton M R) → Skeleton M R
  | [] => skip
  | p :: ps => seq p (block ps)

/-- Conditions are not evaluated: both branches are paths and a loop may end after any round. -/
inductive Path : Skeleton M R → List (LockOp M R) → Exit → Prop
  | skip : Path .skip [] .done
  | act (o : LockOp M R) : Path (.act o) [o] .done
  | seq {p q l l' e} : Path p l .done → Path q l' e → Path (.seq p q) (l ++ l') e
  | leave {p q l e} : Path p l e → e ≠ .done → Path (.seq p q) l e
  | left {p q l e} : Path p l e → Path (.either p q) l e
  | right {p q l e} : Path q l e → Path (.either p q) l e
  | stop {p} : Path (.loop p) [] .done
  | again {p l l' e} : Path p l .done → Path (.loop p) l' e → Path (.loop p) (l ++ l') e
  | broken {p l} : Path p l .brk → Path (.loop p) l .done
  | returned {p l} : Path p l .ret → Path (.loop p) l .ret
  | brk : Path .brk [] .brk
  | ret : Path .ret [] .ret
  | call {p l e} : Path p l e → e ≠ .brk → Path (.call p) l .done

end Skeleton

variable [Preorder M] [DecidableEq M] [DecidableLT M]

/-- The locks held after one operation; there are none when it breaks the order. -/
def LockOp.after : LockOp M R → List M → Option (List M)
  | .acquire m, held => if ∀ h ∈ held, h < m then some (m :: held) else none
  | .release m, held => if m ∈ held then some (held.erase m) else none
  | .spawn _, held => some held

def heldAfter (held : List M) : List (LockOp M R) → Option (List M)
  | [] => some held
  | o :: l => (o.after held).bind fun held' => heldAfter held' l

theorem heldAfter_append (held : List M) (l l' : List (LockOp M R)) :
    heldAfter held (l ++ l') = (heldAfter held l).bind fun held' => heldAfter held' l' := by
  induction l generalizing held with
  | nil => rfl
  | cons o l ih =>
    rw [List.cons_append, heldAfter, heldAfter, Option.bind_assoc]
    congr 1
    funext held'
    exact ih held'

namespace Skeleton

/-- A round of a loop that goes on leaves the locks as it found them. -/
@[simp] def afterRound (Q : Exit → List M → Prop) (held : List M) : Exit → List M → Prop
  | .done, held' => held' = held
  | .brk, held' => Q .done held'
  | .ret, held' => Q .ret held'

/-- A function gives its caller back the locks it was entered with. -/
@[simp] def Restores (held : List M) : Exit → List M → Prop
  | .brk, _ => False
  | _, held' => held' = held

/-- The precondition on the locks held under which every path takes locks in order and ends in `Q`. -/
def wp : Skeleton M R → (Exit → List M → Prop) → List M → Prop
  | .skip, Q, held => Q .done held
  | .act o, Q, held => ∃ held', o.after held = some held' ∧ Q .done held'
  | .seq p q, Q, held => p.wp (fun
      | .done, held' => q.wp Q held'
      | e, held' => Q e held') held
  | .either p q, Q, held => p.wp Q held ∧ q.wp Q held
  | .loop p, Q, held => p.wp (afterRound Q held) held ∧ Q .done held
  | .brk, Q, held => Q .brk held
  | .ret, Q, held => Q .ret held
  | .call p, Q, held => p.wp (Restores held) held ∧ Q .done held

/-- The function `p` can be called with the locks `held`. -/
def Keeps (p : Skeleton M R) (held : List M) : Prop := p.wp (Restores held) held

section Rules

variable {p q : Skeleton M R} {Q : Exit → List M → Prop} {held : List M} {m : M} {r : R}

@[simp] theorem wp_skip : (skip : Skeleton M R).wp Q held ↔ Q .done held := Iff.rfl

@[simp] theorem wp_brk : (brk : Skeleton M R).wp Q held ↔ Q .brk held := Iff.rfl

@[simp] theorem wp_ret : (ret : Skeleton M R).wp Q held ↔ Q .ret held := Iff.rfl

@[simp] theorem wp_spawn : (act (.spawn r) : Skeleton M R).wp Q held ↔ Q .done held := by
  simp [wp, LockOp.after]

@[simp] theorem wp_acquire :
    (act (.acquire m) : Skeleton M R).wp Q held ↔ (∀ h ∈ held, h < m) ∧ Q .done (m :: held) := by
  simp [wp, LockOp.after, and_assoc]

@[simp] theorem wp_release :
    (act (.release m) : Skeleton M R).wp Q held ↔ m ∈ held ∧ Q .done (held.erase m) := by
  simp [wp, LockOp.after, and_assoc]

@[simp] theorem wp_seq : (seq p q).wp Q held ↔
    p.wp (fun
      | .done, held' => q.wp Q held'
      | e, held' => Q e held') held := Iff.rfl

@[simp] theorem wp_either : (either p q).wp Q held ↔ p.wp Q held ∧ q.wp Q held := Iff.rfl

@[simp] theorem wp_loop :
    (loop p).wp Q held ↔ p.wp (afterRound Q held) held ∧ Q .done held := Iff.rfl

@[simp] theorem wp_call : (call p).wp Q held ↔ p.Keeps held ∧ Q .done held := Iff.rfl

end Rules

theorem Path.sound {p : Skeleton M R} {l : List (LockOp M R)} {e : Exit} (h : Path p l e)
    {Q : Exit → List M → Prop} {held : List M} (hwp : p.wp Q held) :
    ∃ held', heldAfter held l = some held' ∧ Q e held' := by
  induction h generalizing Q held with
  | skip | brk | ret => exact ⟨held, rfl, hwp⟩
  | stop => exact ⟨held, rfl, hwp.2⟩
  | act o =>
    obtain ⟨held', hafter, hQ⟩ := hwp
    exact ⟨held', by simp [heldAfter, hafter], hQ⟩
  | seq _ _ ihp ihq =>
    obtain ⟨held₁, hp, hrest⟩ := ihp hwp
    obtain ⟨held₂, hq, hQ⟩ := ihq hrest
    exact ⟨held₂, by rw [heldAfter_append, hp]; exact hq, hQ⟩
  | @leave p q l e _ hexit ih =>
    obtain ⟨held', hp, hrest⟩ := ih hwp
    cases e with
    | done => exact absurd rfl hexit
    | brk | ret => exact ⟨held', hp, hrest⟩
  | left _ ih => exact ih hwp.1
  | right _ ih => exact ih hwp.2
  | again _ _ ihp ihloop =>
    -- a full round ends with the locks it began with, so the loop starts over
    obtain ⟨held₁, hp, rfl⟩ := ihp hwp.1
    obtain ⟨held₂, hloop, hQ⟩ := ihloop hwp
    exact ⟨held₂, by rw [heldAfter_append, hp]; exact hloop, hQ⟩
  | broken _ ih | returned _ ih =>
    obtain ⟨held', hp, hQ⟩ := ih hwp.1
    exact ⟨held', hp, hQ⟩
  | @call p l e _ hexit ih =>
    obtain ⟨held', hp, hrest⟩ := ih hwp.1
    cases e with
    | brk => exact absurd rfl hexit
    | done | ret =>
      cases hrest
      exact ⟨held, hp, hwp.2⟩

/-- A function entered with no lock takes its locks in order and gives all of them back. -/
theorem Keeps.heldAfter_call {p : Skeleton M R} (h : p.Keeps []) {l : List (LockOp M R)} {e : Exit}
    (hpath : Path (.call p) l e) : heldAfter [] l = some ([] : List M) := by
  have hwp : (Skeleton.call p).wp (fun _ held' => held' = []) [] := ⟨h, rfl⟩
  obtain ⟨held', hafter, rfl⟩ := hpath.sound hwp
  exact hafter

end Skeleton

end Skeletons

section Threads

/-- A thread, the number of calls it began and the rest of the path of the one under way. -/
structure Thread (M R : Type*) where
  role : R
  begun : Nat
  held : List M
  todo : List (LockOp M R)

namespace Thread

def spawned (r : R) : Thread M R := ⟨r, 0, [], []⟩

def Requests (t : Thread M R) (m : M) : Prop := t.todo.head? = some (.acquire m)

end Thread

def Owns (s : List (Thread M R)) (i : Nat) (m : M) : Prop := ∃ t, s[i]? = some t ∧ m ∈ t.held

theorem Owns.of_set {s : List (Thread M R)} {i j : Nat} {m : M} {t : Thread M R}
    (h : Owns (s.set i t) j m) :
    Owns s j m ∨ j = i ∧ m ∈ t.held := by
  obtain ⟨u, hu, hm⟩ := h
  rcases getElem?_set_some hu with ⟨hji, rfl⟩ | ⟨-, hu⟩
  · exact .inr ⟨hji, hm⟩
  · exact .inl ⟨u, hu, hm⟩

variable [DecidableEq M]

/-- One step of the thread with the given number. A lock is taken when no thread holds it, the
thread itself included. `program r k` is the call a thread of role `r` makes as its `k`-th. Its path
is chosen when it begins, which no other thread can tell from choices made on the way. -/
inductive ThreadStep (program : R → Nat → Option (Skeleton M R)) :
    List (Thread M R) → Nat → List (Thread M R) → Prop
  | begin {s i t p l e} : s[i]? = some t → t.todo = [] → program t.role t.begun = some p →
      Skeleton.Path (.call p) l e →
      ThreadStep program s i (s.set i { t with begun := t.begun + 1, todo := l })
  | acquire {s i t m l} : s[i]? = some t → t.todo = .acquire m :: l → (∀ u ∈ s, m ∉ u.held) →
      ThreadStep program s i (s.set i { t with held := m :: t.held, todo := l })
  | release {s i t m l} : s[i]? = some t → t.todo = .release m :: l →
      ThreadStep program s i (s.set i { t with held := t.held.erase m, todo := l })
  | spawn {s i t r l} : s[i]? = some t → t.todo = .spawn r :: l →
      ThreadStep program s i (s.set i { t with todo := l } ++ [.spawned r])

/-- Thread `i` requests a lock that thread `j` holds. -/
def Waits (s : List (Thread M R)) (i j : Nat) : Prop :=
  ∃ t u m, s[i]? = some t ∧ s[j]? = some u ∧ t.Requests m ∧ m ∈ u.held

/-- Every thread of the set waits for a thread of the set. -/
def CircularWait (s : List (Thread M R)) (S : Set Nat) : Prop :=
  S.Nonempty ∧ ∀ i ∈ S, ∃ j ∈ S, Waits s i j

section Exclusion

variable {program : R → Nat → Option (Skeleton M R)} {s s' : List (Thread M R)} {i j : Nat} {m : M}

/-- A lock gets a new holder only when no thread held it. -/
theorem ThreadStep.owns (hstep : ThreadStep program s i s') (h : Owns s' j m) :
    Owns s j m ∨ j = i ∧ ∀ k, ¬ Owns s k m := by
  cases hstep with
  | @begin t p l e hi =>
    rcases h.of_set with h | ⟨rfl, hm⟩
    · exact .inl h
    · exact .inl ⟨t, hi, hm⟩
  | @acquire t m' l hi _ hfree =>
    rcases h.of_set with h | ⟨rfl, hm⟩
    · exact .inl h
    · rcases List.mem_cons.mp hm with rfl | hm
      · right
        refine ⟨rfl, ?_⟩
        rintro k ⟨u, hu, hheld⟩
        exact hfree u (List.mem_of_getElem? hu) hheld
      · exact .inl ⟨t, hi, hm⟩
  | @release t m' l hi =>
    rcases h.of_set with h | ⟨rfl, hm⟩
    · exact .inl h
    · exact .inl ⟨t, hi, List.mem_of_mem_erase hm⟩
  | @spawn t r l hi =>
    obtain ⟨u, hu, hm⟩ := h
    rw [List.getElem?_append] at hu
    split at hu
    · rcases Owns.of_set ⟨u, hu, hm⟩ with h | ⟨rfl, hm⟩
      · exact .inl h
      · exact .inl ⟨t, hi, hm⟩
    · -- the new thread holds nothing
      cases List.mem_singleton.mp (List.mem_of_getElem? hu)
      cases hm

def Exclusive (s : List (Thread M R)) : Prop := ∀ i j m, Owns s i m → Owns s j m → i = j

theorem ThreadStep.exclusive (hstep : ThreadStep program s i s') (h : Exclusive s) :
    Exclusive s' := by
  intro j k m hj hk
  rcases hstep.owns hj with hj | ⟨rfl, hfree⟩
  · rcases hstep.owns hk with hk | ⟨rfl, hfree⟩
    · exact h j k m hj hk
    · exact absurd hj (hfree j)
  · rcases hstep.owns hk with hk | ⟨rfl, _⟩
    · exact absurd hk (hfree k)
    · rfl

theorem Reach.exclusive {ok : List (Thread M R) → Nat → Prop} {s₀ : List (Thread M R)}
    (hs₀ : Exclusive s₀) (h : Reach (ThreadStep program) ok s₀ s) : Exclusive s :=
  h.invariant hs₀ fun _ _ _ hs _ hstep => hstep.exclusive hs

end Exclusion

variable [Preorder M] [DecidableLT M]

/-- The rest of the path takes locks in order and gives all of them back. -/
def Thread.Ordered (t : Thread M R) : Prop := heldAfter t.held t.todo = some []

namespace Thread.Ordered

variable {t : Thread M R} {m : M}

theorem held_eq_nil (h : t.Ordered) (hidle : t.todo = []) : t.held = [] := by
  rw [Thread.Ordered, hidle] at h
  exact Option.some.inj h

theorem acquire {l : List (LockOp M R)} (h : t.Ordered) (htodo : t.todo = .acquire m :: l) :
    (∀ k ∈ t.held, k < m) ∧ heldAfter (m :: t.held) l = some [] := by
  rw [Thread.Ordered, htodo, heldAfter, LockOp.after] at h
  by_cases hlt : ∀ k ∈ t.held, k < m
  · rw [if_pos hlt] at h
    exact ⟨hlt, h⟩
  · rw [if_neg hlt] at h
    cases h

theorem release {l : List (LockOp M R)} (h : t.Ordered) (htodo : t.todo = .release m :: l) :
    heldAfter (t.held.erase m) l = some [] := by
  rw [Thread.Ordered, htodo, heldAfter, LockOp.after] at h
  by_cases hmem : m ∈ t.held
  · rw [if_pos hmem] at h
    exact h
  · rw [if_neg hmem] at h
    cases h

theorem spawn {r : R} {l : List (LockOp M R)} (h : t.Ordered) (htodo : t.todo = .spawn r :: l) :
    heldAfter t.held l = some [] := by
  rw [Thread.Ordered, htodo] at h
  exact h

theorem held_lt (h : t.Ordered) (hreq : t.Requests m) : ∀ k ∈ t.held, k < m := by
  obtain ⟨l, htodo⟩ := List.head?_eq_some_iff.mp hreq
  exact (h.acquire htodo).1

end Thread.Ordered

variable {program : R → Nat → Option (Skeleton M R)} {s s' : List (Thread M R)}

theorem ThreadStep.ordered (hprogram : ∀ r k p, program r k = some p → p.Keeps []) {i : Nat}
    (hstep : ThreadStep program s i s') (hs : ∀ t ∈ s, t.Ordered) : ∀ t ∈ s', t.Ordered := by
  intro u hu
  cases hstep with
  | @begin t p l e hi hidle hp hpath =>
    rcases List.mem_or_eq_of_mem_set hu with hu | rfl
    · exact hs u hu
    · have hheld := (hs t (List.mem_of_getElem? hi)).held_eq_nil hidle
      rw [Thread.Ordered, hheld]
      exact (hprogram _ _ p hp).heldAfter_call hpath
  | @acquire t m l hi htodo _ =>
    rcases List.mem_or_eq_of_mem_set hu with hu | rfl
    · exact hs u hu
    · exact ((hs t (List.mem_of_getElem? hi)).acquire htodo).2
  | @release t m l hi htodo =>
    rcases List.mem_or_eq_of_mem_set hu with hu | rfl
    · exact hs u hu
    · exact (hs t (List.mem_of_getElem? hi)).release htodo
  | @spawn t r l hi htodo =>
    rcases List.mem_append.mp hu with hu | hu
    · rcases List.mem_or_eq_of_mem_set hu with hu | rfl
      · exact hs u hu
      · exact (hs t (List.mem_of_getElem? hi)).spawn htodo
    · cases List.mem_singleton.mp hu
      rfl

theorem Reach.ordered {ok : List (Thread M R) → Nat → Prop} {s₀ : List (Thread M R)}
    (hprogram : ∀ r k p, program r k = some p → p.Keeps []) (hs₀ : ∀ t ∈ s₀, t.Ordered)
    (h : Reach (ThreadStep program) ok s₀ s) : ∀ t ∈ s, t.Ordered :=
  h.invariant hs₀ fun _ _ _ hs _ hstep => hstep.ordered hprogram hs

/-- Along a chain of waiting threads the locks requested only go up. -/
theorem not_circularWait [WellFoundedGT M] (hs : ∀ t ∈ s, t.Ordered) (S : Set Nat) :
    ¬ CircularWait s S := by
  rintro ⟨⟨i, hi⟩, hwait⟩
  have hnone : ∀ m, ∀ i ∈ S, ∀ t, s[i]? = some t → ¬ t.Requests m := by
    intro m
    induction m using WellFoundedGT.induction with
    | ind m ih =>
      intro i hi t ht hreq
      obtain ⟨j, hj, t', u, m', ht', hu, hreq', hheld⟩ := hwait i hi
      cases ht.symm.trans ht'
      cases hreq.symm.trans hreq'
      obtain ⟨k, hk, u', v, m₂, hu', hv, hreq₂, _⟩ := hwait j hj
      cases hu.symm.trans hu'
      have hlt : m < m₂ := (hs u (List.mem_of_getElem? hu)).held_lt hreq₂ m hheld
      exact ih m₂ hlt j hj u hu hreq₂
  obtain ⟨j, hj, t, u, m, ht, _, hreq, _⟩ := hwait i hi
  exact hnone m i hi t ht hreq

/-- As long as a call is under way, a thread with one under way can go on. -/
theorem exists_step [WellFoundedGT M] (hs : ∀ t ∈ s, t.Ordered) (hbusy : ∃ t ∈ s, t.todo ≠ []) :
    ∃ i t, s[i]? = some t ∧ t.todo ≠ [] ∧ ∃ s', ThreadStep program s i s' := by
  obtain ⟨t₀, ht₀, hbusy⟩ := hbusy
  obtain ⟨i₀, hi₀⟩ := List.mem_iff_getElem?.mp ht₀
  have hfree := not_circularWait hs {i | ∃ t, s[i]? = some t ∧ t.todo ≠ []}
  rw [CircularWait, not_and] at hfree
  have hfree := hfree ⟨i₀, t₀, hi₀, hbusy⟩
  push Not at hfree
  obtain ⟨i, ⟨t, hi, htodo⟩, hnowait⟩ := hfree
  refine ⟨i, t, hi, htodo, ?_⟩
  cases hops : t.todo with
  | nil => exact absurd hops htodo
  | cons o l =>
    cases o with
    | release m => exact ⟨_, .release hi hops⟩
    | spawn r => exact ⟨_, .spawn hi hops⟩
    | acquire m =>
      have hunheld : ∀ u ∈ s, m ∉ u.held := by
        intro u hu hm
        obtain ⟨j, hj⟩ := List.mem_iff_getElem?.mp hu
        have hreq : t.Requests m := by rw [Thread.Requests, hops]; rfl
        by_cases hidle : u.todo = []
        · rw [(hs u hu).held_eq_nil hidle] at hm
          cases hm
        · exact hnowait j ⟨u, hj, hidle⟩ ⟨t, u, m, hi, hj, hreq, hm⟩
      exact ⟨_, .acquire hi hops hunheld⟩

end Threads

end Framework
