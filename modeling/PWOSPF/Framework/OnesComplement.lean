import PWOSPF.Framework.Bytes

/-!
# The Internet checksum

Sums of 16-bit words with end-around carry. Such a sum is the plain sum reduced modulo 65535, where
a sum that is not 0 has the representative 65535 instead of 0. The checksum is its complement: it
makes the sum of what it was stored into 65535, and it notices any change of a single byte.
-/

namespace Framework

/-- Addition with end-around carry. -/
def ocAdd (a b : Nat) : Nat := (a + b) % 2 ^ 16 + (a + b) / 2 ^ 16

def ocSum (words : List Nat) : Nat := words.foldl ocAdd 0

/-- The bytes as words, high byte first; an odd last byte is padded with zero. -/
def beWords : List UInt8 → List Nat
  | [] => []
  | [a] => [256 * a.toNat]
  | a :: b :: rest => (256 * a.toNat + b.toNat) :: beWords rest

/-- The complement of the sum of the words. -/
def inetChecksum (bs : List UInt8) : Nat := 65535 - ocSum (beWords bs)

/-! ## Folding -/

/-- What repeated end-around carries make of a sum. -/
def ocFold (n : Nat) : Nat := if n = 0 then 0 else (n - 1) % 65535 + 1

theorem ocFold_le (n : Nat) : ocFold n ≤ 65535 := by
  rw [ocFold]
  split <;> omega

theorem ocFold_of_lt {n : Nat} (h : n < 2 ^ 16) : ocFold n = n := by
  rw [ocFold]
  split <;> omega

theorem ocFold_add_eq_iff {a b : Nat} (hb : b < 65535) : ocFold (a + b) = ocFold a ↔ b = 0 := by
  rw [ocFold, ocFold]
  split
  · rw [if_pos (by omega)]
    omega
  · split <;> omega

/-- To a sum that is not 0, exactly the multiples of 65535 can be added. -/
theorem ocFold_add_eq_iff_mod {a : Nat} (ha : 0 < a) (b : Nat) :
    ocFold (a + b) = ocFold a ↔ b % 65535 = 0 := by
  rw [ocFold, ocFold, if_neg (by omega), if_neg (by omega)]
  omega

/-- A carry that is added to the low word changes nothing. -/
theorem ocFold_carry (n : Nat) : ocFold (n % 2 ^ 16 + n / 2 ^ 16) = ocFold n := by
  have hsplit := Nat.div_add_mod n (2 ^ 16)
  rw [ocFold, ocFold]
  split
  · rw [if_pos (by omega)]
  · rw [if_neg (by omega)]
    omega

theorem ocAdd_ocFold {a b : Nat} (hb : b < 2 ^ 16) : ocAdd (ocFold a) b = ocFold (a + b) := by
  rw [ocAdd, ocFold, ocFold]
  split
  · rw [show a = 0 by assumption, Nat.zero_add]
    split <;> omega
  · rw [if_neg (by omega)]
    omega

theorem ocSum_eq {words : List Nat} (h : ∀ w ∈ words, w < 2 ^ 16) : ocSum words = ocFold words.sum := by
  have hacc : ∀ a, words.foldl ocAdd (ocFold a) = ocFold (a + words.sum) := by
    induction words with
    | nil => exact fun _ => rfl
    | cons w words ih =>
      intro a
      obtain ⟨hw, hwords⟩ := List.forall_mem_cons.mp h
      rw [List.foldl_cons, ocAdd_ocFold hw, ih hwords, List.sum_cons, Nat.add_assoc]
  have hzero := hacc 0
  rwa [Nat.zero_add] at hzero

/-! ## Words of bytes -/

def wordSum (bs : List UInt8) : Nat := (beWords bs).sum

theorem wordSum_cons_cons (a b : UInt8) (bs : List UInt8) :
    wordSum (a :: b :: bs) = 256 * a.toNat + b.toNat + wordSum bs := rfl

theorem wordSum_singleton (a : UInt8) : wordSum [a] = 256 * a.toNat := rfl

theorem beWords_lt (bs : List UInt8) : ∀ w ∈ beWords bs, w < 2 ^ 16 := by
  induction bs using beWords.induct with
  | case1 => simp [beWords]
  | case2 a =>
    have ha := a.toNat_lt
    simp only [beWords, List.mem_singleton, forall_eq]
    omega
  | case3 a b rest ih =>
    have ha := a.toNat_lt
    have hb := b.toNat_lt
    rw [beWords]
    exact List.forall_mem_cons.mpr ⟨by omega, ih⟩

theorem inetChecksum_eq (bs : List UInt8) : inetChecksum bs = 65535 - ocFold (wordSum bs) := by
  rw [inetChecksum, ocSum_eq (beWords_lt bs), wordSum]

theorem wordSum_le (bs : List UInt8) : wordSum bs ≤ 65535 * ((bs.length + 1) / 2) := by
  induction bs using beWords.induct with
  | case1 => exact Nat.zero_le _
  | case2 a =>
    have ha := a.toNat_lt
    rw [wordSum_singleton, List.length_singleton]
    omega
  | case3 a b rest ih =>
    have ha := a.toNat_lt
    have hb := b.toNat_lt
    rw [wordSum_cons_cons, List.length_cons, List.length_cons]
    omega

theorem wordSum_append {as : List UInt8} (h : as.length % 2 = 0) (bs : List UInt8) :
    wordSum (as ++ bs) = wordSum as + wordSum bs := by
  induction as using beWords.induct with
  | case1 => exact (Nat.zero_add _).symm
  | case2 a => simp at h
  | case3 a b rest ih =>
    rw [List.length_cons, List.length_cons] at h
    rw [List.cons_append, List.cons_append, wordSum_cons_cons, wordSum_cons_cons, ih (by omega)]
    omega

/-- A byte behind an odd number of bytes takes the place of the padding. -/
theorem wordSum_concat {bs : List UInt8} (h : bs.length % 2 = 1) (b : UInt8) :
    wordSum (bs ++ [b]) = wordSum bs + b.toNat := by
  induction bs using beWords.induct with
  | case1 => simp at h
  | case2 a => rfl
  | case3 a c rest ih =>
    rw [List.length_cons, List.length_cons] at h
    rw [List.cons_append, List.cons_append, wordSum_cons_cons, wordSum_cons_cons, ih (by omega)]
    omega

theorem wordSum_pos {bs : List UInt8} {b : UInt8} (h : b ∈ bs) (hb : b ≠ 0) : 0 < wordSum bs := by
  have hpos : 0 < b.toNat := Nat.pos_of_ne_zero fun hzero => hb (UInt8.toNat_inj.mp hzero)
  induction bs using beWords.induct with
  | case1 => cases h
  | case2 a =>
    rw [List.mem_singleton] at h
    rw [wordSum_singleton, ← h]
    omega
  | case3 a c rest ih =>
    rw [List.mem_cons, List.mem_cons] at h
    rw [wordSum_cons_cons]
    rcases h with rfl | rfl | h
    · omega
    · omega
    · have hrest := ih h
      omega

/-- What a byte at position `i` counts in the sum. -/
def byteWeight (i : Nat) : Nat := if i % 2 = 0 then 256 else 1

theorem wordSum_set {bs : List UInt8} {i : Nat} (h : i < bs.length) (b : UInt8) :
    wordSum (bs.set i b) + byteWeight i * bs[i].toNat = wordSum bs + byteWeight i * b.toNat := by
  induction bs using beWords.induct generalizing i with
  | case1 => simp at h
  | case2 a =>
    obtain rfl : i = 0 := by simpa using h
    rw [List.set_cons_zero, wordSum_singleton, wordSum_singleton]
    exact Nat.add_comm _ _
  | case3 a c rest ih =>
    match i, h with
    | 0, _ =>
      rw [List.set_cons_zero, wordSum_cons_cons, wordSum_cons_cons, List.getElem_cons_zero]
      show _ + 256 * a.toNat = _ + 256 * b.toNat
      omega
    | 1, _ =>
      rw [List.set_cons_succ, List.set_cons_zero, wordSum_cons_cons, wordSum_cons_cons,
        List.getElem_cons_succ, List.getElem_cons_zero]
      show _ + 1 * c.toNat = _ + 1 * b.toNat
      omega
    | i + 2, h =>
      rw [List.length_cons, List.length_cons] at h
      have hweight : byteWeight (i + 2) = byteWeight i := by rw [byteWeight, byteWeight, Nat.add_mod_right]
      have hrest := ih (i := i) (by omega)
      rw [List.set_cons_succ, List.set_cons_succ, wordSum_cons_cons, wordSum_cons_cons,
        List.getElem_cons_succ, List.getElem_cons_succ, hweight]
      omega

/-! ## What the checksum is good for -/

/-- A single byte that is changed changes the checksum. -/
theorem inetChecksum_set_ne {bs : List UInt8} {i : Nat} (h : i < bs.length) {b : UInt8}
    (hne : b ≠ bs[i]) : inetChecksum (bs.set i b) ≠ inetChecksum bs := by
  have hsum := wordSum_set h b
  have hold := bs[i].toNat_lt
  have hnew := b.toNat_lt
  have hdiff : b.toNat ≠ bs[i].toNat := fun heq => hne (UInt8.toNat_inj.mp heq)
  have hle := ocFold_le (wordSum bs)
  have hle' := ocFold_le (wordSum (bs.set i b))
  rw [inetChecksum_eq, inetChecksum_eq]
  rw [ocFold] at hle hle' ⊢
  rw [ocFold]
  rw [byteWeight] at hsum
  split at hsum <;> split <;> split <;> omega

/-- Stored where the word 0 was, the checksum makes the sum complete. -/
theorem inetChecksum_stored {as cs : List UInt8} (h : as.length % 2 = 0) {c : Nat}
    (hc : c = inetChecksum (as ++ ([0, 0] ++ cs))) :
    inetChecksum (as ++ ([UInt8.ofNat (c / 256), UInt8.ofNat c] ++ cs)) = 0 := by
  have hpair : ∀ a b : UInt8, wordSum (as ++ ([a, b] ++ cs)) =
      wordSum as + wordSum cs + (256 * a.toNat + b.toNat) := by
    intro a b
    rw [wordSum_append h, List.cons_append, List.singleton_append, wordSum_cons_cons]
    omega
  have hlt : c < 2 ^ 16 := by
    rw [hc, inetChecksum]
    omega
  rw [inetChecksum_eq, hpair] at hc ⊢
  have hword : 256 * (UInt8.ofNat (c / 256)).toNat + (UInt8.ofNat c).toNat = c := by
    rw [UInt8.toNat_ofNat', UInt8.toNat_ofNat']
    omega
  rw [hword]
  have hzero : 256 * (0 : UInt8).toNat + (0 : UInt8).toNat = 0 := rfl
  rw [hzero, Nat.add_zero] at hc
  rw [ocFold] at hc ⊢
  split at hc <;> split <;> omega

end Framework
