import Mathlib.Tactic.Common

/-!
# Text that is read line by line

A text is cut behind every end of a line. A reader whose buffer holds `size` symbols cuts it besides
where the buffer is full: it delivers the lines exactly if none is longer, and more pieces than there
are lines otherwise.
-/

namespace Framework

variable {α : Type*} [DecidableEq α] {stop : α}

/-- The lines of a text, each with its end, where `line` has been read of the first one. -/
def linesFrom (stop : α) (line : List α) : List α → List (List α)
  | [] => if line = [] then [] else [line]
  | c :: rest =>
    if c = stop then (line ++ [c]) :: linesFrom stop [] rest else linesFrom stop (line ++ [c]) rest

/-- The pieces that a reader delivers, where `room` symbols fit behind `line`. -/
def piecesFrom (stop : α) (size room : Nat) (line : List α) : List α → List (List α)
  | [] => if line = [] then [] else [line]
  | c :: rest =>
    if c = stop ∨ room ≤ 1 then (line ++ [c]) :: piecesFrom stop size size [] rest
    else piecesFrom stop size (room - 1) (line ++ [c]) rest

theorem linesFrom_nil_of_ne {line : List α} (h : line ≠ []) : linesFrom stop line [] = [line] :=
  if_neg h

/-- What was read before belongs to the first line. -/
theorem linesFrom_append (stop : α) (line : List α) {text : List α} (h : text ≠ []) :
    ∃ first more, first ≠ [] ∧ linesFrom stop line text = first :: more ∧
      ∀ before, linesFrom stop (before ++ line) text = (before ++ first) :: more := by
  induction text generalizing line with
  | nil => exact absurd rfl h
  | cons c rest ih =>
    by_cases hstop : c = stop
    · refine ⟨line ++ [c], linesFrom stop [] rest, by simp, if_pos hstop, fun before => ?_⟩
      rw [linesFrom, if_pos hstop, List.append_assoc]
    · have hskip : ∀ line', linesFrom stop line' (c :: rest) = linesFrom stop (line' ++ [c]) rest :=
        fun _ => if_neg hstop
      by_cases hrest : rest = []
      · refine ⟨line ++ [c], [], by simp, ?_, fun before => ?_⟩
        · rw [hskip, hrest, linesFrom_nil_of_ne (by simp)]
        · rw [hskip, hrest, linesFrom_nil_of_ne (by simp), List.append_assoc]
      · obtain ⟨first, more, hne, hlines, hbefore⟩ := ih (line ++ [c]) hrest
        refine ⟨first, more, hne, (hskip _).trans hlines, fun before => ?_⟩
        rw [hskip, List.append_assoc]
        exact hbefore before

/-- The reader delivers the lines, or some line is too long for it and there are more pieces. -/
theorem piecesFrom_cases {size room : Nat} {line : List α} (hroom : 0 < room)
    (hsize : line.length + room = size) (text : List α) :
    (piecesFrom stop size room line text = linesFrom stop line text ∧
        ∀ x ∈ linesFrom stop line text, x.length ≤ size) ∨
      (∃ x ∈ linesFrom stop line text, size < x.length) ∧
        (linesFrom stop line text).length < (piecesFrom stop size room line text).length := by
  induction text generalizing line room with
  | nil =>
    refine Or.inl ⟨rfl, fun x hx => ?_⟩
    rw [linesFrom] at hx
    split at hx
    · cases hx
    · rw [List.mem_singleton.mp hx]
      omega
  | cons c rest ih =>
    have hnext := @ih size [] (by omega) (Nat.zero_add size)
    by_cases hstop : c = stop
    · rw [linesFrom, piecesFrom, if_pos hstop, if_pos (Or.inl hstop)]
      rcases hnext with ⟨heq, hshort⟩ | ⟨⟨x, hx, hlong⟩, hmore⟩
      · refine Or.inl ⟨by rw [heq], List.forall_mem_cons.mpr ⟨?_, hshort⟩⟩
        rw [List.length_append, List.length_singleton]
        omega
      · exact Or.inr ⟨⟨x, List.mem_cons_of_mem _ hx, hlong⟩, Nat.succ_lt_succ hmore⟩
    · rw [linesFrom, if_neg hstop, piecesFrom]
      by_cases hfull : room ≤ 1
      · rw [if_pos (Or.inr hfull)]
        by_cases hrest : rest = []
        · rw [hrest, linesFrom_nil_of_ne (by simp)]
          refine Or.inl ⟨rfl, fun x hx => ?_⟩
          rw [List.mem_singleton.mp hx, List.length_append, List.length_singleton]
          omega
        · -- the rest of the line is delivered as a line of its own
          obtain ⟨first, more, hne, hlines, hbefore⟩ := linesFrom_append stop [] hrest
          have hline := hbefore (line ++ [c])
          rw [List.append_nil] at hline
          rw [hline]
          have hfirst := List.length_pos_iff.mpr hne
          refine Or.inr ⟨⟨_, List.mem_cons_self, ?_⟩, ?_⟩
          · rw [List.length_append, List.length_append, List.length_singleton]
            omega
          · rw [List.length_cons, List.length_cons]
            rw [hlines, List.length_cons] at hnext
            rcases hnext with ⟨heq, -⟩ | ⟨-, hmore⟩
            · rw [heq, List.length_cons]
              omega
            · omega
      · rw [if_neg (not_or.mpr ⟨hstop, hfull⟩)]
        apply ih (by omega)
        rw [List.length_append, List.length_singleton]
        omega

/-- A line that is not the last one. -/
theorem linesFrom_cons {line body rest : List α} (h : stop ∉ body) :
    linesFrom stop line (body ++ stop :: rest) = (line ++ body ++ [stop]) :: linesFrom stop [] rest := by
  induction body generalizing line with
  | nil => rw [List.nil_append, linesFrom, if_pos rfl, List.append_nil]
  | cons c body ih =>
    obtain ⟨hc, hbody⟩ := List.ne_and_not_mem_of_not_mem_cons h
    rw [List.cons_append, linesFrom, if_neg (Ne.symm hc), ih hbody, List.append_assoc line [c],
      List.singleton_append]

/-- The reader delivers the lines that the text was put together from, if they fit its buffer. -/
theorem piecesFrom_flatten {size : Nat} {lines : List (List α)} (hsize : 0 < size)
    (hlines : ∀ x ∈ lines, x.length ≤ size ∧ ∃ body, x = body ++ [stop] ∧ stop ∉ body) :
    piecesFrom stop size size [] lines.flatten = lines := by
  have heq : linesFrom stop [] lines.flatten = lines := by
    induction lines with
    | nil => rfl
    | cons x lines ih =>
      obtain ⟨⟨-, body, rfl, hbody⟩, hrest⟩ := List.forall_mem_cons.mp hlines
      rw [List.flatten_cons, List.append_assoc, List.singleton_append, linesFrom_cons hbody, ih hrest,
        List.nil_append]
  rcases @piecesFrom_cases _ _ stop size size [] hsize (Nat.zero_add size) lines.flatten with
    ⟨hpieces, -⟩ | ⟨⟨x, hx, hlong⟩, -⟩
  · rw [hpieces, heq]
  · rw [heq] at hx
    exact absurd (hlines x hx).1 (Nat.not_le.mpr hlong)

end Framework
