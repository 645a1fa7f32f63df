import PWOSPF.Packet.Checksum

/-!
# Checksums of packets

`cksum` is the Internet checksum of an even number of bytes. Of an odd number it takes the next byte,
which is not its own, for the low half of the last word. A header whose checksum field holds what
`cksum` makes of the header with that field cleared passes the receiver's check.
-/

namespace PWOSPF

open Framework

variable {buff f f' : Frame} {len n o p : Nat}

/-- The Internet checksum of the first `len` bytes and of nothing else; stored in a cleared field, it
makes the checksum 0. -/
structure IsInetChecksum (buff : Frame) (len : Nat) : Prop where
  value : cksum buff len = .ok (.ofNat (inetChecksum (buff.take len)))
  ownBytes : ∀ buff' : Frame, len ≤ buff'.length → buff'.take len = buff.take len →
    cksum buff' len = cksum buff len
  verifies : ∀ (o : Nat) (c : UInt16) (buff' : Frame), len % 2 = 0 → o % 2 = 0 → o + 2 ≤ len →
    slice buff o 2 = [0, 0] → cksum buff len = .ok c →
    buff.set ⟨o, 2⟩ (htons c).toNat = .ok buff' → cksum buff' len = .ok 0

/-- The checksum of the `n` bytes at `o`, that in its field included, is 0. -/
def SumsUp (f : Frame) (o n : Nat) : Prop := inetChecksum (slice f o n) = 0

instance (f : Frame) (o n : Nat) : Decidable (SumsUp f o n) := inferInstanceAs (Decidable (_ = _))

/-! ## Storing a checksum -/

/-- A word in network order is stored high byte first. -/
theorem leBytes_htons (c : UInt16) :
    leBytes 2 (htons c).toNat = [.ofNat (c.toNat / 256), .ofNat c.toNat] := by
  have hrev : (leBytes 2 c.toNat).reverse = [.ofNat (c.toNat / 256), .ofNat c.toNat] := rfl
  have hback := leBytes_leValue (leBytes 2 c.toNat).reverse
  have hlt := leValue_lt (leBytes 2 c.toNat).reverse
  rw [List.length_reverse, leBytes_length] at hback hlt
  rw [htons, UInt16.toNat_ofNat_of_lt' hlt, hback, hrev]

theorem slice_of_get_zero (h : f.get ⟨p, 2⟩ = .ok 0) : slice f p 2 = [0, 0] :=
  (Frame.leBytes_of_get h).symm

/-- What `cksum` says of a header with a cleared checksum field, stored there in network order, makes
the header sum up. -/
theorem sumsUp_of_set {c : UInt16} (hn : n % 2 = 0) (ho : o ≤ p) (hodd : (p - o) % 2 = 0)
    (hp : p + 2 ≤ o + n) (hfits : n < 2 ^ 16) (hlen : o + n ≤ f.length)
    (hclear : slice f p 2 = [0, 0]) (hsum : cksum (f.drop o) n = .ok c)
    (hset : f.set ⟨p, 2⟩ (htons c).toNat = .ok f') : SumsUp f' o n := by
  obtain ⟨hin, heq⟩ := Frame.set_eq_ok.mp hset
  have hstored : f' = patch f p [.ofNat (c.toNat / 256), .ofNat c.toNat] := by
    rw [← leBytes_htons]
    exact heq
  have hwhole : (f.drop o).take (2 * (n / 2)) = slice f o n := by
    rw [Nat.mul_div_cancel' (Nat.dvd_of_mod_eq_zero hn)]
    rfl
  rw [cksum_eq (n := n / 2) (by rw [List.length_drop]; omega) (by omega) (by omega), hwhole,
    Except.ok.injEq] at hsum
  have hfront : (slice f o (p - o)).length % 2 = 0 := by
    rw [slice_length (by omega)]
    exact hodd
  have hc : c.toNat = inetChecksum (slice f o n) := by
    have hlt : inetChecksum (slice f o n) < 2 ^ 16 := by
      rw [inetChecksum]
      omega
    rw [← hsum, UInt16.toNat_ofNat_of_lt' hlt]
  rw [slice_split ho hp, hclear] at hc
  rw [SumsUp, hstored, slice_patch_around hin ho hp]
  exact inetChecksum_stored hfront hc

/-! ## Checksums in their places -/

/-- The field at `p` holds the checksum of the `n` bytes at `o`, its own two taken for 0. -/
def HoldsChecksum (f : Frame) (p o n : Nat) : Prop :=
  f.get ⟨p, 2⟩ =
    .ok (htons (.ofNat (inetChecksum (patch (slice f o n) (p - o) [0, 0])))).toNat

instance (f : Frame) (p o n : Nat) : Decidable (HoldsChecksum f p o n) :=
  inferInstanceAs (Decidable (_ = _))

theorem holdsChecksum_set_iff {c : UInt16} (ho : o ≤ p) (hp : p + 2 ≤ o + n) (hlen : o + n ≤ f.length)
    (hclear : f.get ⟨p, 2⟩ = .ok 0) (hset : f.set ⟨p, 2⟩ (htons c).toNat = .ok f') :
    HoldsChecksum f' p o n ↔ c = .ofNat (inetChecksum (slice f o n)) := by
  have hback : f'.set ⟨p, 2⟩ 0 = .ok f := (Frame.set_set hset).trans (Frame.set_of_get hclear)
  obtain ⟨-, hpatch⟩ := Frame.set_eq_ok.mp hback
  have hbytes : slice f o n = patch (slice f' o n) (p - o) [0, 0] := by
    rw [hpatch]
    exact slice_patch_within ho hp (by rw [Frame.set_length hset]; exact hlen)
  rw [HoldsChecksum, ← hbytes, Frame.get_set hset (UInt16.toNat_lt _), Except.ok.injEq,
    UInt16.toNat_inj]
  exact ⟨htons_injective, fun h => congrArg htons h⟩

theorem holdsChecksum_of_set {c : UInt16} (hn : n % 2 = 0) (ho : o ≤ p) (hp : p + 2 ≤ o + n)
    (hfits : n < 2 ^ 16) (hlen : o + n ≤ f.length) (hclear : f.get ⟨p, 2⟩ = .ok 0)
    (hsum : cksum (f.drop o) n = .ok c) (hset : f.set ⟨p, 2⟩ (htons c).toNat = .ok f') :
    HoldsChecksum f' p o n := by
  have hdouble : 2 * (n / 2) = n := Nat.mul_div_cancel' (Nat.dvd_of_mod_eq_zero hn)
  rw [cksum_eq (n := n / 2) (by rw [List.length_drop, hdouble]; omega) (by omega) (by omega), hdouble,
    Except.ok.injEq] at hsum
  exact (holdsChecksum_set_iff ho hp hlen hclear hset).mpr hsum.symm

/-- Where the checksum field of the IP header is cleared, `cksum` fills it. -/
theorem ipSum_stored (hlen : sizeofEther + sizeofIp ≤ f.length) (hclear : f.get PacketField.ipSum = .ok 0) :
    ∃ csum f', cksum (f.drop ipStart) sizeofIp = .ok csum ∧
      f.set PacketField.ipSum (htons csum).toNat = .ok f' ∧
      HoldsChecksum f' PacketField.ipSum.offset ipStart sizeofIp := by
  have h34 : 34 ≤ f.length := hlen
  have hbuff : 2 * 10 ≤ (f.drop ipStart).length := by
    rw [List.length_drop, ipStart, sizeofEther]
    omega
  obtain ⟨csum, hcsum⟩ := cksum_exists hbuff (by decide)
  obtain ⟨f', hset⟩ := Frame.set_exists (f := f) (a := PacketField.ipSum)
    (Nat.le_trans (by decide) h34) (htons csum).toNat
  exact ⟨csum, f', hcsum, hset, holdsChecksum_of_set (by decide) (by decide) (by decide) (by decide) hlen
    hclear hcsum hset⟩

theorem HoldsChecksum.congr (h : HoldsChecksum f p o n) (ho : o ≤ p) (hp : p + 2 ≤ o + n)
    (hlen : o + n ≤ f.length) (hlen' : o + n ≤ f'.length) (hsame : slice f' o n = slice f o n) :
    HoldsChecksum f' p o n := by
  rw [HoldsChecksum, Frame.get_of_window hsame hlen hlen' ho hp, hsame]
  exact h

/-- A checksum is that of a longer range, too, if the bytes that are added sum up to nothing. -/
theorem HoldsChecksum.extend_iff (h : HoldsChecksum f p o n) (hn : n % 2 = 0) (ho : o ≤ p)
    (hp : p + 2 ≤ o + n) (hlen : o + n ≤ f.length)
    (hpos : 0 < wordSum (patch (slice f o n) (p - o) [0, 0])) (m : Nat) :
    HoldsChecksum f p o (n + m) ↔ wordSum (slice f (o + n) m) % 65535 = 0 := by
  have hin : p - o + 2 ≤ (slice f o n).length := by
    rw [slice_length hlen]
    omega
  have heven : (patch (slice f o n) (p - o) [0, 0]).length % 2 = 0 := by
    rw [patch_length hin, slice_length hlen]
    exact hn
  have hfold := ocFold_add_eq_iff_mod hpos (wordSum (slice f (o + n) m))
  have hle := ocFold_le (wordSum (patch (slice f o n) (p - o) [0, 0]))
  have hle' := ocFold_le (wordSum (patch (slice f o n) (p - o) [0, 0]) + wordSum (slice f (o + n) m))
  rw [HoldsChecksum] at h
  rw [HoldsChecksum, h, slice_add, patch_append hin, inetChecksum_eq, inetChecksum_eq,
    wordSum_append heven, ← hfold, Except.ok.injEq, UInt16.toNat_inj]
  constructor
  · intro heq
    have hsame := congrArg UInt16.toNat (htons_injective heq)
    rw [UInt16.toNat_ofNat_of_lt' (show _ < 2 ^ 16 by omega),
      UInt16.toNat_ofNat_of_lt' (show _ < 2 ^ 16 by omega)] at hsame
    omega
  · intro heq
    rw [heq]

/-! ## The checksum of a buffer -/

/-- For an even number of bytes `cksum` is the Internet checksum; for an odd one it reads one byte
too many. -/
theorem cksum_inet_iff (hbuff : len ≤ buff.length) (hlen : len ≤ 65534) :
    IsInetChecksum buff len ↔ len % 2 = 0 := by
  constructor
  · intro h
    by_contra hodd
    have hcut : (buff.take len).length = len := by rw [List.length_take, Nat.min_eq_left hbuff]
    have hown := h.ownBytes (buff.take len) (Nat.le_of_eq hcut.symm) (List.take_take ▸ by simp)
    rw [h.value, cksum_overread (n := (len + 1) / 2) (by rw [hcut]; omega) (by omega) rfl] at hown
    cases hown
  · intro heven
    have hvalue : ∀ b : Frame, len ≤ b.length →
        cksum b len = .ok (.ofNat (inetChecksum (b.take len))) := by
      intro b hb
      have hdouble : 2 * (len / 2) = len := Nat.mul_div_cancel' (Nat.dvd_of_mod_eq_zero heven)
      have heq : cksum b len = .ok (.ofNat (inetChecksum (b.take (2 * (len / 2))))) :=
        cksum_eq (by rw [hdouble]; exact hb) (by omega) (by omega)
      rwa [hdouble] at heq
    refine ⟨hvalue buff hbuff, ?_, ?_⟩
    · intro buff' hbuff' hsame
      rw [hvalue buff' hbuff', hvalue buff hbuff, hsame]
    · intro o c buff' _ ho hin hclear hsum hset
      have hup : SumsUp buff' 0 len := sumsUp_of_set heven (Nat.zero_le o) ho (by omega) (by omega)
        (by omega) hclear hsum hset
      rw [hvalue buff' (by rw [Frame.set_length hset]; exact hbuff)]
      have hzero : inetChecksum (buff'.take len) = 0 := hup
      rw [hzero]
      rfl

theorem cksum_inet_iff_demo : IsInetChecksum [0x45, 0, 0, 0x73, 0xff, 1] 6 :=
  (cksum_inet_iff (by decide) (by decide)).mpr rfl

/-- The word of the single byte 1 is 0x100, but the byte behind it is counted, too. -/
theorem oddTail_counted : ¬ IsInetChecksum [1, 1] 1 := by
  intro h
  exact absurd h.value (by decide)

/-- The result alone is right if the byte that is read too many is the padding by chance. -/
theorem cksum_value_iff (hbuff : len ≤ buff.length) (hlen : len ≤ 65534) :
    cksum buff len = .ok (.ofNat (inetChecksum (buff.take len))) ↔
      len % 2 = 0 ∨ buff[len]? = some 0 := by
  by_cases heven : len % 2 = 0
  · simp only [heven, true_or, iff_true]
    exact ((cksum_inet_iff hbuff hlen).mpr heven).value
  · simp only [heven, false_or]
    by_cases hmore : len < buff.length
    · have hcut : (buff.take len).length = len := by rw [List.length_take, Nat.min_eq_left hbuff]
      have htwo : 2 * ((len + 1) / 2) = len + 1 := by omega
      have hbyte := buff[len].toNat_lt
      have hle := ocFold_le (wordSum (buff.take len))
      have hle' := ocFold_le (wordSum (buff.take len) + buff[len].toNat)
      have hfold : 65535 - ocFold (wordSum (buff.take len) + buff[len].toNat) =
          65535 - ocFold (wordSum (buff.take len)) ↔ buff[len].toNat = 0 := by
        rw [← ocFold_add_eq_iff (a := wordSum (buff.take len)) (Nat.lt_trans hbyte (by decide))]
        omega
      rw [cksum_eq (n := (len + 1) / 2) (by omega) (by omega) rfl, htwo, List.take_add_one,
        List.getElem?_eq_getElem hmore, Option.toList_some, inetChecksum_eq, inetChecksum_eq,
        wordSum_concat (by rw [hcut]; omega), Except.ok.injEq, Option.some.injEq,
        ← UInt16.toNat_inj, UInt16.toNat_ofNat_of_lt' (show _ < 2 ^ 16 by omega),
        UInt16.toNat_ofNat_of_lt' (show _ < 2 ^ 16 by omega), hfold, ← UInt8.toNat_inj]
      rfl
    · rw [cksum_overread (n := (len + 1) / 2) (by omega) (by omega) rfl,
        List.getElem?_eq_none (Nat.not_lt.mp hmore)]
      constructor
      · intro h
        cases h
      · intro h
        cases h

end PWOSPF
