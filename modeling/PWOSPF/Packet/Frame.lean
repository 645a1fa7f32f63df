import PWOSPF.Packet.ByteOrder
import PWOSPF.Topology.State

/-!
# Packet buffers

A received or built packet as raw memory, with the header fields of `sr_protocol.h` and
`pwospf_protocol.h` at their offsets. A load or store that leaves the buffer is a fault. Fields hold
numbers in host byte order, and a store changes no field apart from its own.
-/

namespace PWOSPF

open Framework

abbrev Frame := List UInt8

structure PacketField where
  offset : Nat
  width : Nat
  deriving DecidableEq, Repr

namespace PacketField

def Apart (a b : PacketField) : Prop :=
  a.offset + a.width ≤ b.offset ∨ b.offset + b.width ≤ a.offset

instance (a b : PacketField) : Decidable (Apart a b) := inferInstanceAs (Decidable (_ ∨ _))

theorem Apart.symm {a b : PacketField} (h : Apart a b) : Apart b a := Or.symm h

end PacketField

namespace Frame

def load (f : Frame) (o n : Nat) : Exec (List UInt8) :=
  if o + n ≤ f.length then .ok (slice f o n) else .error .outOfBounds

def store (f : Frame) (o : Nat) (bs : List UInt8) : Exec Frame :=
  if o + bs.length ≤ f.length then .ok (patch f o bs) else .error .outOfBounds

def get (f : Frame) (fd : PacketField) : Exec Nat := do return leValue (← f.load fd.offset fd.width)

def set (f : Frame) (fd : PacketField) (v : Nat) : Exec Frame := f.store fd.offset (leBytes fd.width v)

/-- A sequence of assignments to fields. -/
def assign (f : Frame) : List (PacketField × Nat) → Exec Frame
  | [] => .ok f
  | (fd, v) :: rest => do (← f.set fd v).assign rest

variable {f f' : Frame} {a b : PacketField} {v w : Nat}

theorem store_eq_ok {o : Nat} {bs : List UInt8} :
    f.store o bs = .ok f' ↔ o + bs.length ≤ f.length ∧ f' = patch f o bs := by
  unfold store
  by_cases h : o + bs.length ≤ f.length
  · simp [h, eq_comm]
  · simp [h]

theorem store_length {o : Nat} {bs : List UInt8} (h : f.store o bs = .ok f') :
    f'.length = f.length := by
  obtain ⟨hlen, rfl⟩ := store_eq_ok.mp h
  exact patch_length hlen

theorem set_eq_ok : f.set a v = .ok f' ↔
    a.offset + a.width ≤ f.length ∧ f' = patch f a.offset (leBytes a.width v) := by
  rw [set, store_eq_ok, leBytes_length]

theorem set_length (h : f.set a v = .ok f') : f'.length = f.length := store_length h

theorem get_of_slice (h : slice f' b.offset b.width = slice f b.offset b.width)
    (hlen : f'.length = f.length) : f'.get b = f.get b := by
  rw [get, get, load, load, h, hlen]

/-- A field inside a range that two packets share is the same in both. -/
theorem get_of_window {o n : Nat} (h : slice f' o n = slice f o n) (hf : o + n ≤ f.length)
    (hf' : o + n ≤ f'.length) (hlo : o ≤ b.offset) (hhi : b.offset + b.width ≤ o + n) :
    f'.get b = f.get b := by
  have hfield : ∀ g : Frame, slice g b.offset b.width = slice (slice g o n) (b.offset - o) b.width := by
    intro g
    rw [slice_slice g (by omega), Nat.add_sub_cancel' hlo]
  rw [get, get, load, load, if_pos (by omega), if_pos (by omega), hfield f', hfield f, h]

theorem get_store_apart {o : Nat} {bs : List UInt8} (h : f.store o bs = .ok f')
    (hab : PacketField.Apart ⟨o, bs.length⟩ b) : f'.get b = f.get b := by
  have hlen := store_length h
  obtain ⟨hin, rfl⟩ := store_eq_ok.mp h
  apply get_of_slice _ hlen
  exact slice_patch_outside hin hab.symm

/-- A byte in front of or behind a field that is assigned stays. -/
theorem getElem?_set_apart {i : Nat} (h : f.set a v = .ok f')
    (hi : i < a.offset ∨ a.offset + a.width ≤ i) : f'[i]? = f[i]? := by
  obtain ⟨hin, rfl⟩ := set_eq_ok.mp h
  rw [patch_getElem? (by rw [leBytes_length]; exact hin), if_neg (by rw [leBytes_length]; omega)]

theorem get_set_apart (h : f.set a v = .ok f') (hab : a.Apart b) : f'.get b = f.get b := by
  apply get_store_apart h
  rw [leBytes_length]
  exact hab

theorem get_set (h : f.set a v = .ok f') (hv : v < 256 ^ a.width) : f'.get a = .ok v := by
  have hlen := set_length h
  obtain ⟨hin, rfl⟩ := set_eq_ok.mp h
  have hself : slice (patch f a.offset (leBytes a.width v)) a.offset (leBytes a.width v).length =
      leBytes a.width v := slice_patch_self (by simpa using hin)
  rw [leBytes_length] at hself
  rw [get, load, hlen, if_pos hin, ok_bind, hself, leValue_leBytes _ _ hv, pure_eq_ok]

theorem set_set (h : f.set a v = .ok f') : f'.set a w = f.set a w := by
  have hlen := set_length h
  obtain ⟨hin, rfl⟩ := set_eq_ok.mp h
  rw [set, set, store, store, hlen]
  simp only [leBytes_length, hin, if_true]
  congr 1
  apply List.ext_getElem?
  intro i
  rw [patch_getElem? (by simp only [leBytes_length]; omega), patch_getElem? (by simpa using hin),
    patch_getElem? (by simpa using hin)]
  simp only [leBytes_length]
  split <;> rfl

theorem get_bounds (h : f.get b = .ok v) : b.offset + b.width ≤ f.length := by
  by_contra hout
  rw [get, load, if_neg hout] at h
  cases h

/-- The bytes of a field. -/
theorem leBytes_of_get (h : f.get b = .ok v) : leBytes b.width v = slice f b.offset b.width := by
  have hin := get_bounds h
  have hback := leBytes_leValue (slice f b.offset b.width)
  rw [get, load, if_pos hin] at h
  rwa [slice_length hin, Except.ok.inj h] at hback

/-- Storing what the field holds changes nothing. -/
theorem set_of_get (h : f.get a = .ok v) : f.set a v = .ok f := by
  have hin := get_bounds h
  rw [set, leBytes_of_get h, store, slice_length hin, if_pos hin, patch, slice_length hin, slice,
    ← List.drop_drop, List.take_append_drop, List.take_append_drop]

theorem get_overread (h : f.length < b.offset + b.width) : f.get b = .error .outOfBounds := by
  rw [get, load, if_neg (Nat.not_le.mpr h)]
  rfl

theorem get_lt (h : f.get b = .ok v) : v < 256 ^ b.width := by
  have hin := get_bounds h
  rw [get, load, if_pos hin] at h
  cases h
  have hlt := leValue_lt (slice f b.offset b.width)
  rwa [slice_length hin] at hlt

theorem get_exists (h : b.offset + b.width ≤ f.length) : ∃ v, f.get b = .ok v := by
  rw [get, load, if_pos h, ok_bind]
  exact ⟨_, rfl⟩

theorem getElem?_of_get {o : Nat} (h : f.get ⟨o, 1⟩ = .ok v) : f[o]? = some (.ofNat v) := by
  have hbyte := slice_getElem? f o 1 0
  rw [← leBytes_of_get h, if_pos Nat.zero_lt_one] at hbyte
  exact hbyte.symm

theorem get_of_getElem? {o : Nat} {c : UInt8} (h : f[o]? = some c) : f.get ⟨o, 1⟩ = .ok c.toNat := by
  obtain ⟨hin, -⟩ := List.getElem?_eq_some_iff.mp h
  obtain ⟨v, hv⟩ := get_exists (f := f) (b := ⟨o, 1⟩) hin
  have hlt : v < 256 ^ 1 := get_lt hv
  rw [getElem?_of_get hv, Option.some.injEq] at h
  rw [hv, ← h, UInt8.toNat_ofNat_of_lt' hlt]

/-- Cutting the packet off behind a field keeps the field. -/
theorem get_take {n : Nat} (hb : b.offset + b.width ≤ n) (hn : n ≤ f.length) :
    get (f.take n) b = f.get b := by
  have hlen : (f.take n).length = n := by rw [List.length_take, Nat.min_eq_left hn]
  rw [get, get, load, load, hlen, if_pos hb, if_pos (Nat.le_trans hb hn), slice_take f hb]

theorem store_exists {o : Nat} {bs : List UInt8} (h : o + bs.length ≤ f.length) :
    ∃ f', f.store o bs = .ok f' :=
  ⟨_, store_eq_ok.mpr ⟨h, rfl⟩⟩

theorem set_exists (h : a.offset + a.width ≤ f.length) (v : Nat) : ∃ f', f.set a v = .ok f' :=
  ⟨_, set_eq_ok.mpr ⟨h, rfl⟩⟩

section Assign

variable {l : List (PacketField × Nat)}

theorem assign_length (h : f.assign l = .ok f') : f'.length = f.length := by
  induction l generalizing f with
  | nil => rw [Except.ok.inj h]
  | cons x l ih =>
    obtain ⟨f₁, h₁, hrest⟩ := bind_eq_ok.mp h
    rw [ih hrest, set_length h₁]

theorem assign_exists (h : ∀ a ∈ l.map Prod.fst, a.offset + a.width ≤ f.length) :
    ∃ f', f.assign l = .ok f' := by
  induction l generalizing f with
  | nil => exact ⟨f, rfl⟩
  | cons x l ih =>
    rw [List.map_cons] at h
    obtain ⟨f₁, h₁⟩ := set_exists (h _ List.mem_cons_self) x.2
    rw [assign, h₁, ok_bind]
    apply ih
    intro a ha
    rw [set_length h₁]
    exact h a (List.mem_cons_of_mem _ ha)

theorem assign_append {l' : List (PacketField × Nat)} :
    f.assign (l ++ l') = (f.assign l).bind fun f => f.assign l' := by
  induction l generalizing f with
  | nil => rfl
  | cons x l ih =>
    rw [List.cons_append, assign, assign]
    cases f.set x.1 x.2 with
    | error e => rfl
    | ok f₁ => exact ih

/-- Repeating the last assignment changes nothing. -/
theorem set_assign_concat (h : f.assign (l ++ [(a, v)]) = .ok f') : f'.set a v = .ok f' := by
  rw [assign_append] at h
  obtain ⟨f₁, -, hlast⟩ := bind_eq_ok.mp h
  obtain ⟨f₂, hset, heq⟩ := bind_eq_ok.mp hlast
  cases heq
  rw [set_set hset, hset]

/-- Assignments in front of `n` leave what is behind it. -/
theorem drop_assign {n : Nat} (h : f.assign l = .ok f')
    (hn : ∀ a ∈ l.map Prod.fst, a.offset + a.width ≤ n) : f'.drop n = f.drop n := by
  induction l generalizing f with
  | nil => rw [Except.ok.inj h]
  | cons x l ih =>
    obtain ⟨f₁, h₁, hrest⟩ := bind_eq_ok.mp h
    rw [List.map_cons] at hn
    rw [ih hrest fun a ha => hn a (List.mem_cons_of_mem _ ha)]
    obtain ⟨hin, rfl⟩ := set_eq_ok.mp h₁
    apply drop_patch_outside
    · rw [leBytes_length]
      exact hin
    · rw [leBytes_length]
      exact hn _ List.mem_cons_self

theorem get_assign_apart (h : f.assign l = .ok f') (hab : ∀ a ∈ l.map Prod.fst, a.Apart b) :
    f'.get b = f.get b := by
  induction l generalizing f with
  | nil => rw [Except.ok.inj h]
  | cons x l ih =>
    obtain ⟨f₁, h₁, hrest⟩ := bind_eq_ok.mp h
    rw [List.map_cons] at hab
    rw [ih hrest fun a ha => hab a (List.mem_cons_of_mem _ ha), get_set_apart h₁ (hab _ (by simp))]

theorem get_assign (h : f.assign l = .ok f') (hl : (l.map Prod.fst).Pairwise PacketField.Apart)
    (hmem : (a, v) ∈ l) (hv : v < 256 ^ a.width) : f'.get a = .ok v := by
  induction l generalizing f with
  | nil => cases hmem
  | cons x l ih =>
    obtain ⟨f₁, h₁, hrest⟩ := bind_eq_ok.mp h
    obtain ⟨hx, hl'⟩ := List.pairwise_cons.mp hl
    rcases List.mem_cons.mp hmem with rfl | hmem
    · rw [get_assign_apart hrest fun a ha => (hx a ha).symm, get_set h₁ hv]
    · exact ih hrest hl' hmem

/-! Adjacent fields -/

/-- The fields follow each other from offset `o` on. -/
def Adjacent : Nat → List (PacketField × Nat) → Prop
  | _, [] => True
  | o, x :: rest => x.1.offset = o ∧ Adjacent (o + x.1.width) rest

def fieldBytes (l : List (PacketField × Nat)) : List UInt8 := l.flatMap fun x => leBytes x.1.width x.2

/-- Assigning adjacent fields stores their bytes in a row. -/
theorem assign_adjacent {o : Nat} (hl : Adjacent o l) (hin : o + (fieldBytes l).length ≤ f.length) :
    f.assign l = .ok (patch f o (fieldBytes l)) := by
  induction l generalizing f o with
  | nil =>
    rw [fieldBytes, List.flatMap_nil, patch_nil]
    rfl
  | cons x l ih =>
    obtain ⟨⟨offset, width⟩, v⟩ := x
    obtain ⟨rfl, hrest⟩ := hl
    rw [fieldBytes, List.flatMap_cons, List.length_append, leBytes_length] at hin
    have hset : f.set ⟨offset, width⟩ v = .ok (patch f offset (leBytes width v)) :=
      set_eq_ok.mpr ⟨Nat.le_trans (Nat.add_le_add_left (Nat.le_add_right _ _) _) hin, rfl⟩
    have hlen := set_length hset
    have hbehind : offset + width + (fieldBytes l).length ≤
        (patch f offset (leBytes width v)).length := by
      rw [hlen, fieldBytes, Nat.add_assoc]
      exact hin
    have hnext := @patch_patch_next f offset (leBytes width v) (fieldBytes l) (by
      rw [leBytes_length, fieldBytes, Nat.add_assoc]
      exact hin)
    rw [leBytes_length] at hnext
    rw [assign, hset, ok_bind, ih hrest hbehind, hnext]
    rfl

end Assign

end Frame

/-! ## Headers -/

namespace PacketField

-- `struct sr_ethernet_hdr`
def etherDhost : PacketField := ⟨0, 6⟩
def etherShost : PacketField := ⟨6, 6⟩
def etherType : PacketField := ⟨12, 2⟩

-- `struct ip`; its first byte holds `ip_v` in the low and `ip_hl` in the high half
def ipHead : PacketField := ⟨14, 1⟩
def ipTos : PacketField := ⟨15, 1⟩
def ipLen : PacketField := ⟨16, 2⟩
def ipId : PacketField := ⟨18, 2⟩
def ipOff : PacketField := ⟨20, 2⟩
def ipTtl : PacketField := ⟨22, 1⟩
def ipP : PacketField := ⟨23, 1⟩
def ipSum : PacketField := ⟨24, 2⟩
def ipSrc : PacketField := ⟨26, 4⟩
def ipDst : PacketField := ⟨30, 4⟩

-- `struct ospfv2_hdr`
def ospfVersion : PacketField := ⟨34, 1⟩
def ospfType : PacketField := ⟨35, 1⟩
def ospfLen : PacketField := ⟨36, 2⟩
def ospfRid : PacketField := ⟨38, 4⟩
def ospfAid : PacketField := ⟨42, 4⟩
def ospfCsum : PacketField := ⟨46, 2⟩
def ospfAutype : PacketField := ⟨48, 2⟩
def ospfAudata : PacketField := ⟨50, 8⟩

-- `struct ospfv2_hello_hdr`
def helloNmask : PacketField := ⟨58, 4⟩
def helloHelloint : PacketField := ⟨62, 2⟩
def helloPadding : PacketField := ⟨64, 2⟩

-- `struct ospfv2_lsu_hdr`
def lsuSeq : PacketField := ⟨58, 2⟩
def lsuTtl : PacketField := ⟨61, 1⟩
def lsuNumAdv : PacketField := ⟨62, 4⟩

-- the `i`-th `struct ospfv2_lsu_adv`
def advSubnet (i : Nat) : PacketField := ⟨66 + 12 * i, 4⟩
def advMask (i : Nat) : PacketField := ⟨70 + 12 * i, 4⟩
def advRid (i : Nat) : PacketField := ⟨74 + 12 * i, 4⟩

-- `struct icmp_hdr`
def icmpType : PacketField := ⟨34, 1⟩
def icmpCode : PacketField := ⟨35, 1⟩
def icmpSum : PacketField := ⟨36, 2⟩
def icmpOpt1 : PacketField := ⟨38, 2⟩
def icmpOpt2 : PacketField := ⟨40, 2⟩

-- `struct sr_arphdr`
def arHrd : PacketField := ⟨14, 2⟩
def arPro : PacketField := ⟨16, 2⟩
def arHln : PacketField := ⟨18, 1⟩
def arPln : PacketField := ⟨19, 1⟩
def arOp : PacketField := ⟨20, 2⟩
def arSha : PacketField := ⟨22, 6⟩
def arSip : PacketField := ⟨28, 4⟩
def arTha : PacketField := ⟨32, 6⟩
def arTip : PacketField := ⟨38, 4⟩

end PacketField

def sizeofEther : Nat := 14
def sizeofIp : Nat := 20
def sizeofOspf : Nat := 24
def sizeofHello : Nat := 8
def sizeofLsu : Nat := 8
def sizeofAdv : Nat := 12
def sizeofIcmp : Nat := 8
def sizeofArp : Nat := 28

def initTtl : Nat := 255
def ethertypeIp : UInt16 := 0x0800

/-- Where the IP and the OSPF header of a packet start. -/
def ipStart : Nat := sizeofEther
def ospfStart : Nat := sizeofEther + sizeofIp

end PWOSPF
