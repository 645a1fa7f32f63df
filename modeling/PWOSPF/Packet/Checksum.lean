import PWOSPF.Framework.OnesComplement
import PWOSPF.Packet.Frame

/-!
# The checksum

`cksum` of `sr_router.c`, with its 16-bit loop counter and the 32-bit sum that is folded at the end.
-/

namespace PWOSPF

open Framework

/-- The loop over the 16-bit words of `buff`, high byte first. A counter that wraps before it
reaches `len` never ends the loop. -/
def cksumLoop (buff : Frame) (len : Nat) : Nat → UInt16 → UInt32 → Exec UInt32
  | 0, _, _ => .error .outOfFuel
  | fuel + 1, i, sum =>
    if i.toNat < len then do
      let bytes ← buff.load i.toNat 2
      cksumLoop buff len fuel (i + 2) (sum + UInt32.ofNat (leValue bytes.reverse))
    else return sum

/-- `while(sum>>16) sum = (sum & 0xffff) + (sum >> 16)` -/
def foldCarries : Nat → UInt32 → Exec UInt32
  | 0, _ => .error .outOfFuel
  | fuel + 1, sum =>
    if sum >>> 16 ≠ 0 then foldCarries fuel ((sum &&& (0xffff : UInt32)) + (sum >>> 16)) else return sum

def cksum (buff : Frame) (len : Nat) : Exec UInt16 := do
  let sum ← cksumLoop buff len (len / 2 + 2) 0 0
  let sum ← foldCarries 3 sum
  return (~~~ sum).toUInt16

/-! ## The loops -/

theorem toNat_add_two {i : UInt16} (hi : i.toNat + 2 < 2 ^ 16) : (i + 2).toNat = i.toNat + 2 := by
  rw [UInt16.toNat_add]
  exact Nat.mod_eq_of_lt hi

theorem leValue_reverse_pair {bytes : List UInt8} (h : bytes.length = 2) :
    leValue bytes.reverse = wordSum bytes := by
  obtain ⟨a, b, rfl⟩ := List.length_eq_two.mp h
  show b.toNat + 256 * (a.toNat + 256 * 0) = 256 * a.toNat + b.toNat + 0
  omega

section Loop

variable {buff : Frame} {n len : Nat}

/-- The loop adds up the words of the first `len` bytes, or of one byte more if `len` is odd. -/
theorem cksumLoop_eq (hbuff : 2 * n ≤ buff.length) (hn : 2 * n < 2 ^ 16) (hlen : (len + 1) / 2 = n)
    (left fuel : Nat) {i : UInt16} (hi : i.toNat + 2 * left = 2 * n) (hfuel : left < fuel)
    (sum : UInt32) :
    cksumLoop buff len fuel i sum = .ok (sum + .ofNat (wordSum (slice buff i.toNat (2 * left)))) := by
  induction left generalizing fuel i sum with
  | zero =>
    obtain ⟨fuel, rfl⟩ := Nat.exists_eq_add_one_of_ne_zero (Nat.ne_of_gt hfuel)
    rw [cksumLoop, if_neg (by omega), slice, Nat.mul_zero, List.take_zero]
    show _ = Except.ok (sum + 0)
    rw [UInt32.add_zero]
    rfl
  | succ left ih =>
    obtain ⟨fuel, rfl⟩ := Nat.exists_eq_add_one_of_ne_zero (Nat.ne_zero_of_lt hfuel)
    have hnext := toNat_add_two (i := i) (by omega)
    have hword : (slice buff i.toNat 2).length = 2 := slice_length (by omega)
    rw [cksumLoop, if_pos (by omega), Frame.load, if_pos (by omega), ok_bind,
      ih fuel (by rw [hnext]; omega) (Nat.lt_of_succ_lt_succ hfuel), hnext, leValue_reverse_pair hword,
      Nat.mul_succ, Nat.add_comm (2 * left), slice_add, wordSum_append (by rw [hword]), UInt32.ofNat_add,
      UInt32.add_assoc]

/-- The loop reads on behind the end of a buffer that is too short. -/
theorem cksumLoop_overread (hbuff : buff.length < 2 * n) (hn : 2 * n < 2 ^ 16)
    (hlen : (len + 1) / 2 = n) (left fuel : Nat) {i : UInt16} (hi : i.toNat + 2 * left = 2 * n)
    (hin : i.toNat ≤ buff.length) (hfuel : left < fuel) (sum : UInt32) :
    cksumLoop buff len fuel i sum = .error .outOfBounds := by
  induction left generalizing fuel i sum with
  | zero => omega
  | succ left ih =>
    obtain ⟨fuel, rfl⟩ := Nat.exists_eq_add_one_of_ne_zero (Nat.ne_zero_of_lt hfuel)
    have hnext := toNat_add_two (i := i) (by omega)
    rw [cksumLoop, if_pos (by omega), Frame.load]
    by_cases hload : i.toNat + 2 ≤ buff.length
    · rw [if_pos hload, ok_bind]
      exact ih fuel (by rw [hnext]; omega) (by rw [hnext]; exact hload) (Nat.lt_of_succ_lt_succ hfuel) _
    · rw [if_neg hload]
      rfl

theorem toNat_foldCarry (sum : UInt32) :
    ((sum &&& (0xffff : UInt32)) + (sum >>> 16)).toNat = sum.toNat % 2 ^ 16 + sum.toNat / 2 ^ 16 := by
  have hlt := sum.toNat_lt
  have hlow : (sum &&& (0xffff : UInt32)).toNat = sum.toNat % 2 ^ 16 := by
    rw [UInt32.toNat_and]
    exact Nat.and_two_pow_sub_one_eq_mod sum.toNat 16
  have hhigh : (sum >>> 16).toNat = sum.toNat / 2 ^ 16 := by
    rw [UInt32.toNat_shiftRight]
    exact Nat.shiftRight_eq_div_pow _ _
  rw [UInt32.toNat_add, hlow, hhigh]
  omega

/-- Two rounds fold the carries of any sum. -/
theorem foldCarries_eq (sum : UInt32) :
    ∃ sum', foldCarries 3 sum = .ok sum' ∧ sum'.toNat = ocFold sum.toNat := by
  have hstop : ∀ {fuel : Nat} {sum : UInt32}, sum.toNat < 2 ^ 16 →
      foldCarries (fuel + 1) sum = .ok sum := by
    intro fuel sum hlt
    have hzero : sum >>> 16 = 0 := by
      apply UInt32.toNat_inj.mp
      rw [UInt32.toNat_shiftRight]
      exact (Nat.shiftRight_eq_div_pow _ _).trans (Nat.div_eq_of_lt hlt)
    rw [foldCarries, hzero]
    rfl
  have hround : ∀ {fuel : Nat} {sum : UInt32}, ¬ sum.toNat < 2 ^ 16 →
      foldCarries (fuel + 1) sum = foldCarries fuel ((sum &&& (0xffff : UInt32)) + (sum >>> 16)) := by
    intro fuel sum hge
    rw [foldCarries, if_pos]
    intro hzero
    have hdiv := congrArg UInt32.toNat hzero
    rw [UInt32.toNat_shiftRight] at hdiv
    have hdiv' : sum.toNat / 2 ^ 16 = 0 := (Nat.shiftRight_eq_div_pow _ _).symm.trans hdiv
    omega
  have hlt := sum.toNat_lt
  have h₁ := toNat_foldCarry sum
  by_cases hshort : sum.toNat < 2 ^ 16
  · exact ⟨sum, hstop hshort, (ocFold_of_lt hshort).symm⟩
  · rw [hround hshort]
    by_cases hshort₁ : ((sum &&& (0xffff : UInt32)) + (sum >>> 16)).toNat < 2 ^ 16
    · refine ⟨_, hstop hshort₁, ?_⟩
      rw [← ocFold_of_lt hshort₁, h₁, ocFold_carry]
    · rw [hround hshort₁]
      have hshort₂ := toNat_foldCarry ((sum &&& (0xffff : UInt32)) + (sum >>> 16))
      rw [h₁] at hshort₂
      have hlt₂ := Nat.lt_of_le_of_lt (Nat.le_of_eq hshort₂) (show _ < 2 ^ 16 by omega)
      refine ⟨_, hstop hlt₂, ?_⟩
      rw [← ocFold_of_lt hlt₂, hshort₂, ocFold_carry, ocFold_carry]

/-- The complement of a folded sum, cut to 16 bits. -/
theorem toNat_complement {sum : UInt32} (h : sum.toNat ≤ 65535) :
    (~~~ sum).toUInt16 = .ofNat (65535 - sum.toNat) := by
  apply UInt16.toNat_inj.mp
  rw [UInt32.toNat_toUInt16, UInt32.toNat_not, UInt16.toNat_ofNat']
  have hsize : UInt32.size = 2 ^ 32 := rfl
  omega

theorem cksum_eq (hbuff : 2 * n ≤ buff.length) (hn : 2 * n < 2 ^ 16) (hlen : (len + 1) / 2 = n) :
    cksum buff len = .ok (.ofNat (inetChecksum (buff.take (2 * n)))) := by
  have hloop := cksumLoop_eq (i := 0) hbuff hn hlen n (len / 2 + 2) (Nat.zero_add _) (by omega) 0
  have hslice : slice buff (0 : UInt16).toNat (2 * n) = buff.take (2 * n) := rfl
  have hbound := wordSum_le (buff.take (2 * n))
  rw [List.length_take, Nat.min_eq_left hbuff] at hbound
  have hsum : (UInt32.ofNat (wordSum (buff.take (2 * n)))).toNat = wordSum (buff.take (2 * n)) :=
    UInt32.toNat_ofNat_of_lt' (show _ < 2 ^ 32 by omega)
  obtain ⟨sum, hfold, hnat⟩ := foldCarries_eq (UInt32.ofNat (wordSum (buff.take (2 * n))))
  rw [hsum] at hnat
  rw [cksum, hloop, ok_bind, hslice, UInt32.zero_add, hfold, ok_bind,
    toNat_complement (by rw [hnat]; exact ocFold_le _), hnat, inetChecksum_eq]
  rfl

theorem cksum_exists (hbuff : 2 * n ≤ buff.length) (hn : 2 * n < 2 ^ 16) :
    ∃ c, cksum buff (2 * n) = .ok c :=
  ⟨_, cksum_eq hbuff hn (by omega)⟩

theorem cksum_overread (hbuff : buff.length < 2 * n) (hn : 2 * n < 2 ^ 16) (hlen : (len + 1) / 2 = n) :
    cksum buff len = .error .outOfBounds := by
  rw [cksum, cksumLoop_overread (i := 0) hbuff hn hlen n (len / 2 + 2) (Nat.zero_add _) (Nat.zero_le _)
    (by omega) 0]
  rfl

end Loop

-- the example header of 20 bytes whose checksum is 0xb861
example : cksum [0x45, 0, 0, 0x73, 0, 0, 0x40, 0, 0x40, 0x11, 0, 0, 0xc0, 0xa8, 0, 1, 0xc0, 0xa8, 0,
    0xc7] 20 = .ok 0xb861 := by decide

end PWOSPF
