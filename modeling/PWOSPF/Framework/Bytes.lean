import Mathlib.Tactic.Common
import Mathlib.Tactic.Ring
import Mathlib.Data.List.Basic

/-!
# Byte strings as raw memory

Fixed-width naturals in little-endian byte order, and reading and overwriting a range of a byte
string at an offset. Two accesses interact only where their ranges meet.
-/

namespace Framework

/-- The low `width` bytes of `n`, least significant first. -/
def leBytes : Nat → Nat → List UInt8
  | 0, _ => []
  | width + 1, n => UInt8.ofNat n :: leBytes width (n / 256)

def leValue (bs : List UInt8) : Nat := bs.foldr (fun b rest => b.toNat + 256 * rest) 0

@[simp] theorem leBytes_length (width n : Nat) : (leBytes width n).length = width := by
  induction width generalizing n with
  | zero => rfl
  | succ width ih => simp [leBytes, ih]

theorem leValue_cons (b : UInt8) (bs : List UInt8) :
    leValue (b :: bs) = b.toNat + 256 * leValue bs := rfl

theorem leValue_lt (bs : List UInt8) : leValue bs < 256 ^ bs.length := by
  induction bs with
  | nil => simp [leValue]
  | cons b bs ih =>
    have hb := b.toNat_lt
    rw [leValue_cons, List.length_cons, pow_succ]
    omega

theorem leValue_leBytes (width n : Nat) (hn : n < 256 ^ width) :
    leValue (leBytes width n) = n := by
  induction width generalizing n with
  | zero =>
    have : n = 0 := by simpa using hn
    subst this
    rfl
  | succ width ih =>
    have hdiv : n / 256 < 256 ^ width := by
      rw [pow_succ] at hn
      omega
    have hbyte : (UInt8.ofNat n).toNat = n % 256 := by simp
    rw [leBytes, leValue_cons, ih _ hdiv, hbyte]
    omega

theorem leBytes_leValue (bs : List UInt8) : leBytes bs.length (leValue bs) = bs := by
  induction bs with
  | nil => rfl
  | cons b bs ih =>
    have hb := b.toNat_lt
    have hlow : UInt8.ofNat (b.toNat + 256 * leValue bs) = b := by
      apply UInt8.toNat_inj.mp
      simp only [UInt8.toNat_ofNat']
      omega
    have hhigh : (b.toNat + 256 * leValue bs) / 256 = leValue bs := by omega
    rw [List.length_cons, leValue_cons, leBytes, hlow, hhigh, ih]

/-- `n` bytes at offset `o`. -/
def slice (f : List UInt8) (o n : Nat) : List UInt8 := (f.drop o).take n

/-- `f` with the bytes from offset `o` on overwritten by `bs`. -/
def patch (f : List UInt8) (o : Nat) (bs : List UInt8) : List UInt8 :=
  f.take o ++ (bs ++ f.drop (o + bs.length))

theorem slice_length {f : List UInt8} {o n : Nat} (h : o + n ≤ f.length) :
    (slice f o n).length = n := by
  simp only [slice, List.length_take, List.length_drop]
  omega

theorem slice_add (f : List UInt8) (o m n : Nat) :
    slice f o (m + n) = slice f o m ++ slice f (o + m) n := by
  rw [slice, slice, slice, List.take_add, List.drop_drop]

@[simp] theorem patch_length {f : List UInt8} {o : Nat} {bs : List UInt8}
    (h : o + bs.length ≤ f.length) : (patch f o bs).length = f.length := by
  simp only [patch, List.length_append, List.length_take, List.length_drop]
  omega

theorem patch_getElem? {f : List UInt8} {o : Nat} {bs : List UInt8}
    (h : o + bs.length ≤ f.length) (i : Nat) :
    (patch f o bs)[i]? = if o ≤ i ∧ i < o + bs.length then bs[i - o]? else f[i]? := by
  have ho : (f.take o).length = o := by simp only [List.length_take]; omega
  rw [patch]
  by_cases h1 : i < o
  · rw [List.getElem?_append_left (by omega), if_neg (by omega), List.getElem?_take_of_lt h1]
  · rw [List.getElem?_append_right (by omega), ho]
    by_cases h2 : i < o + bs.length
    · rw [List.getElem?_append_left (by omega), if_pos (by omega)]
    · rw [List.getElem?_append_right (by omega), if_neg (by omega), List.getElem?_drop]
      congr 1
      omega

theorem slice_getElem? (f : List UInt8) (o n i : Nat) :
    (slice f o n)[i]? = if i < n then f[o + i]? else none := by
  by_cases h : i < n
  · rw [slice, List.getElem?_take_of_lt h, List.getElem?_drop, if_pos h]
  · rw [if_neg h, slice, List.getElem?_eq_none]
    simp only [List.length_take]
    omega

/-- A range that lies inside the overwritten one reads the new bytes. -/
theorem slice_patch_inside {f : List UInt8} {o o' n : Nat} {bs : List UInt8}
    (h : o + bs.length ≤ f.length) (hlo : o ≤ o') (hhi : o' + n ≤ o + bs.length) :
    slice (patch f o bs) o' n = slice bs (o' - o) n := by
  apply List.ext_getElem?
  intro i
  rw [slice_getElem?, slice_getElem?, patch_getElem? h]
  by_cases hi : i < n
  · rw [if_pos hi, if_pos hi, if_pos (by omega)]
    congr 1
    omega
  · rw [if_neg hi, if_neg hi]

theorem slice_patch_self {f : List UInt8} {o : Nat} {bs : List UInt8}
    (h : o + bs.length ≤ f.length) : slice (patch f o bs) o bs.length = bs := by
  rw [slice_patch_inside h (Nat.le_refl _) (Nat.le_refl _), Nat.sub_self]
  simp [slice]

/-- A range that does not meet the overwritten one reads the old bytes. -/
theorem slice_patch_outside {f : List UInt8} {o o' n : Nat} {bs : List UInt8}
    (h : o + bs.length ≤ f.length) (hd : o' + n ≤ o ∨ o + bs.length ≤ o') :
    slice (patch f o bs) o' n = slice f o' n := by
  apply List.ext_getElem?
  intro i
  rw [slice_getElem?, slice_getElem?, patch_getElem? h]
  by_cases hi : i < n
  · rw [if_pos hi, if_pos hi, if_neg (by omega)]
  · rw [if_neg hi, if_neg hi]

theorem slice_split {f : List UInt8} {k n o m : Nat} (hk : k ≤ o) (hn : o + m ≤ k + n) :
    slice f k n = slice f k (o - k) ++ (slice f o m ++ slice f (o + m) (k + n - (o + m))) := by
  have hsum : n = (o - k) + (m + (k + n - (o + m))) := by omega
  conv_lhs => rw [hsum]
  rw [slice_add, slice_add, Nat.add_sub_cancel' hk]

/-- A range around the overwritten one. -/
theorem slice_patch_around {f : List UInt8} {o k n : Nat} {bs : List UInt8}
    (h : o + bs.length ≤ f.length) (hk : k ≤ o) (hn : o + bs.length ≤ k + n) :
    slice (patch f o bs) k n = slice f k (o - k) ++
      (bs ++ slice f (o + bs.length) (k + n - (o + bs.length))) := by
  rw [slice_split hk hn, slice_patch_outside h (Or.inl (by omega)), slice_patch_self h,
    slice_patch_outside h (Or.inr (Nat.le_refl _))]

@[simp] theorem patch_nil (f : List UInt8) (o : Nat) : patch f o [] = f := by
  rw [patch, List.nil_append, List.length_nil, Nat.add_zero, List.take_append_drop]

/-- Overwriting a range and the one right behind it. -/
theorem patch_patch_next {f : List UInt8} {o : Nat} {bs cs : List UInt8}
    (h : o + bs.length + cs.length ≤ f.length) :
    patch (patch f o bs) (o + bs.length) cs = patch f o (bs ++ cs) := by
  have hin : o + bs.length ≤ f.length := by omega
  apply List.ext_getElem?
  intro i
  rw [patch_getElem? (by rw [patch_length hin]; exact h), patch_getElem? hin,
    patch_getElem? (by rw [List.length_append]; omega), List.length_append]
  by_cases hi : i < o + bs.length
  · rw [if_neg (by omega)]
    by_cases ho : o ≤ i
    · rw [if_pos ⟨ho, hi⟩, if_pos (by omega), List.getElem?_append_left (by omega)]
    · rw [if_neg (by omega), if_neg (by omega)]
  · by_cases hj : i < o + (bs.length + cs.length)
    · rw [if_pos (by omega), if_pos (by omega), List.getElem?_append_right (by omega)]
      congr 1
      omega
    · rw [if_neg (by omega), if_neg (by omega), if_neg (by omega)]

theorem patch_append {f g : List UInt8} {o : Nat} {bs : List UInt8} (h : o + bs.length ≤ f.length) :
    patch (f ++ g) o bs = patch f o bs ++ g := by
  rw [patch, patch, List.take_append_of_le_length (by omega), List.drop_append_of_le_length h,
    List.append_assoc, List.append_assoc]

/-- What lies behind the overwritten range stays. -/
theorem drop_patch_outside {f : List UInt8} {o k : Nat} {bs : List UInt8}
    (h : o + bs.length ≤ f.length) (hk : o + bs.length ≤ k) : (patch f o bs).drop k = f.drop k := by
  apply List.ext_getElem?
  intro i
  rw [List.getElem?_drop, List.getElem?_drop, patch_getElem? h, if_neg (by omega)]

theorem drop_patch_inside {f : List UInt8} {o k : Nat} {bs : List UInt8}
    (h : o + bs.length ≤ f.length) (hk : k ≤ o) :
    (patch f o bs).drop k = patch (f.drop k) (o - k) bs := by
  have hdrop : o - k + bs.length ≤ (f.drop k).length := by
    rw [List.length_drop]
    omega
  apply List.ext_getElem?
  intro i
  rw [List.getElem?_drop, patch_getElem? h, patch_getElem? hdrop, List.getElem?_drop]
  by_cases hi : o - k ≤ i ∧ i < o - k + bs.length
  · rw [if_pos (by omega), if_pos hi]
    congr 1
    omega
  · rw [if_neg (by omega), if_neg hi]

theorem slice_drop (f : List UInt8) {k o : Nat} (h : k ≤ o) (n : Nat) :
    slice (f.drop k) (o - k) n = slice f o n := by
  rw [slice, slice, List.drop_drop, Nat.add_sub_cancel' h]

/-- Cutting off what lies behind a range keeps the range. -/
theorem slice_take (f : List UInt8) {o n k : Nat} (h : o + n ≤ k) :
    slice (f.take k) o n = slice f o n := by
  rw [slice, slice, List.drop_take, List.take_take, Nat.min_eq_left (by omega)]

/-- A range of a range. -/
theorem slice_slice (f : List UInt8) {k m n : Nat} (h : k + m ≤ n) (o : Nat) :
    slice (slice f o n) k m = slice f (o + k) m := by
  apply List.ext_getElem?
  intro i
  rw [slice_getElem?, slice_getElem?, slice_getElem?]
  by_cases hi : i < m
  · rw [if_pos hi, if_pos hi, if_pos (by omega), Nat.add_assoc]
  · rw [if_neg hi, if_neg hi]

theorem slice_patch_within {f : List UInt8} {o k n : Nat} {bs : List UInt8} (hk : k ≤ o)
    (hn : o + bs.length ≤ k + n) (h : k + n ≤ f.length) :
    slice (patch f o bs) k n = patch (slice f k n) (o - k) bs := by
  have hin : o - k + bs.length ≤ (slice f k n).length := by
    rw [slice_length h]
    omega
  apply List.ext_getElem?
  intro i
  rw [slice_getElem?, patch_getElem? hin, patch_getElem? (by omega), slice_getElem?]
  by_cases hi : o - k ≤ i ∧ i < o - k + bs.length
  · rw [if_pos (by omega), if_pos (by omega), if_pos hi]
    congr 1
    omega
  · rw [if_neg (show ¬ (o ≤ k + i ∧ k + i < o + bs.length) by omega), if_neg hi]

theorem slice_congr {f g : List UInt8} {o n : Nat} (h : ∀ i, o ≤ i → i < o + n → g[i]? = f[i]?) :
    slice g o n = slice f o n := by
  apply List.ext_getElem?
  intro i
  rw [slice_getElem?, slice_getElem?]
  by_cases hi : i < n
  · rw [if_pos hi, if_pos hi]
    exact h (o + i) (Nat.le_add_right _ _) (by omega)
  · rw [if_neg hi, if_neg hi]

/-! Changing a single byte -/

theorem slice_set_inside (f : List UInt8) {i o : Nat} (h : o ≤ i) (n : Nat) (b : UInt8) :
    slice (f.set i b) o n = (slice f o n).set (i - o) b := by
  rw [slice, slice, List.drop_set, if_neg (Nat.not_lt.mpr h), List.take_set]

theorem slice_set_outside (f : List UInt8) {i o n : Nat} (h : i < o ∨ o + n ≤ i) (b : UInt8) :
    slice (f.set i b) o n = slice f o n := by
  apply List.ext_getElem?
  intro j
  rw [slice_getElem?, slice_getElem?]
  by_cases hj : j < n
  · rw [if_pos hj, if_pos hj, List.getElem?_set_ne (by omega)]
  · rw [if_neg hj, if_neg hj]

end Framework
