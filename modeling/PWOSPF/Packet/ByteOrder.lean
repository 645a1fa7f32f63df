import PWOSPF.Framework.Bytes

/-!
# Byte order

The router runs on little-endian hosts: a 16- or 32-bit field is loaded and stored least
significant byte first, and `htons`, `htonl` and their inverses reverse the bytes.
-/

namespace PWOSPF

open Framework

def htonl (x : UInt32) : UInt32 := UInt32.ofNat (leValue (leBytes 4 x.toNat).reverse)
def ntohl (x : UInt32) : UInt32 := htonl x
def htons (x : UInt16) : UInt16 := UInt16.ofNat (leValue (leBytes 2 x.toNat).reverse)
def ntohs (x : UInt16) : UInt16 := htons x

private theorem leValue_reverse_toNat {width n : Nat} (hn : n < 256 ^ width) :
    leValue (leBytes width (leValue (leBytes width n).reverse)).reverse = n := by
  have hlen : ((leBytes width n).reverse).length = width := by simp
  have hback := leBytes_leValue (leBytes width n).reverse
  rw [hlen] at hback
  rw [hback, List.reverse_reverse, leValue_leBytes width n hn]

private theorem leValue_reverse_lt (width n : Nat) :
    leValue (leBytes width n).reverse < 256 ^ width := by
  have h := leValue_lt (leBytes width n).reverse
  simpa using h

@[simp] theorem ntohl_htonl (x : UInt32) : ntohl (htonl x) = x := by
  have hx : x.toNat < 256 ^ 4 := x.toNat_lt
  have hr : leValue (leBytes 4 x.toNat).reverse < 2 ^ 32 := leValue_reverse_lt 4 x.toNat
  rw [ntohl, htonl, htonl, UInt32.toNat_ofNat_of_lt' hr, leValue_reverse_toNat hx]
  simp

@[simp] theorem ntohs_htons (x : UInt16) : ntohs (htons x) = x := by
  have hx : x.toNat < 256 ^ 2 := x.toNat_lt
  have hr : leValue (leBytes 2 x.toNat).reverse < 2 ^ 16 := leValue_reverse_lt 2 x.toNat
  rw [ntohs, htons, htons, UInt16.toNat_ofNat_of_lt' hr, leValue_reverse_toNat hx]
  simp

theorem htons_injective {x y : UInt16} (h : htons x = htons y) : x = y := by
  have := congrArg ntohs h
  simpa using this

example : htonl 0xfffffffe = 0xfeffffff := by decide

end PWOSPF
