import PWOSPF.Vns.Sha1

/-!
# What the digest is

The digest of the padded message as FIPS 180-1 defines it: words by a recurrence, one round for each of
80 words, one compression for each of the blocks. The code computes it in portions, whichever way the
message is cut into them.
-/

namespace PWOSPF

open Framework

/-! ## The standard -/

/-- The `t`-th word of a block, the first byte the most significant. -/
def fipsInput (block : List UInt8) (t : Nat) : UInt32 :=
  .ofNat (leValue (slice block (t * 4) 4).reverse)

/-- `W_t`. -/
def fipsWord (block : List UInt8) (t : Nat) : UInt32 :=
  if t < 16 then fipsInput block t
  else sha1CircularShift 1 (fipsWord block (t - 3) ^^^ fipsWord block (t - 8) ^^^
    fipsWord block (t - 14) ^^^ fipsWord block (t - 16))
termination_by t

/-- `f_t`. -/
def fipsFunction (t : Nat) : UInt32 → UInt32 → UInt32 → UInt32 :=
  if t < 20 then choose else if t < 40 then parity else if t < 60 then majority else parity

/-- `K_t`. -/
def fipsConstant (t : Nat) : UInt32 :=
  if t < 20 then 0x5A827999 else if t < 40 then 0x6ED9EBA1 else if t < 60 then 0x8F1BBCDC
  else 0xCA62C1D6

def fipsRound (block : List UInt8) (x : Sha1Words) (t : Nat) : Sha1Words :=
  sha1Round (fipsFunction t) (fipsConstant t) (fipsWord block t) x

def fipsCompress (h : Sha1Words) (block : List UInt8) : Sha1Words :=
  h.add ((List.range 80).foldl (fipsRound block) h)

/-- A one, zeros, and the number of bits in 8 bytes, so that the last block is whole. -/
def fipsPadding (n : Nat) : List UInt8 :=
  0x80 :: (List.replicate ((119 - n % 64) % 64) 0 ++ (leBytes 8 (8 * n)).reverse)

def fipsDigest (message : List UInt8) : Sha1Words :=
  (blocks 64 (message ++ fipsPadding message.length)).foldl fipsCompress sha1Start

/-! ## A block -/

section Block

variable {block : Frame} {c c' : SHA1Context}

theorem bytes_word (b₀ b₁ b₂ b₃ : UInt8) :
    UInt32.ofNat b₀.toNat <<< 24 ||| UInt32.ofNat b₁.toNat <<< 16 ||| UInt32.ofNat b₂.toNat <<< 8 |||
      UInt32.ofNat b₃.toNat = .ofNat (leValue [b₃, b₂, b₁, b₀]) := by
  have h₀ := b₀.toNat_lt
  have h₁ := b₁.toNat_lt
  have h₂ := b₂.toNat_lt
  have h₃ := b₃.toNat_lt
  have hvalue : leValue [b₃, b₂, b₁, b₀] = b₃.toNat + 256 * (b₂.toNat + 256 * (b₁.toNat + 256 * b₀.toNat)) := by
    simp [leValue]
  have hbyte : ∀ (b : UInt8) (k : UInt32), k.toNat ≤ 24 →
      (UInt32.ofNat b.toNat <<< k).toNat = 2 ^ k.toNat * b.toNat := by
    intro b k hk
    have hb := b.toNat_lt
    have hword : (UInt32.ofNat b.toNat).toNat = b.toNat :=
      UInt32.toNat_ofNat_of_lt' (Nat.lt_trans hb (by decide))
    have hsmall : 2 ^ k.toNat * b.toNat < 2 ^ 32 := by
      calc 2 ^ k.toNat * b.toNat ≤ 2 ^ 24 * b.toNat :=
            Nat.mul_le_mul_right _ (Nat.pow_le_pow_right (by decide) hk)
        _ < 2 ^ 32 := by omega
    have hshift : k.toNat % 32 = k.toNat := Nat.mod_eq_of_lt (by omega)
    rw [UInt32.toNat_shiftLeft, hword, hshift, Nat.shiftLeft_eq, Nat.mul_comm, Nat.mod_eq_of_lt hsmall]
  have hlast : (UInt32.ofNat b₃.toNat).toNat = b₃.toNat :=
    UInt32.toNat_ofNat_of_lt' (Nat.lt_trans h₃ (by decide))
  have hor : ∀ i a c : Nat, c < 2 ^ i → 2 ^ i * a ||| c = 2 ^ i * a + c :=
    fun i a c hc => (Nat.two_pow_add_eq_or_of_lt hc a).symm
  apply UInt32.toNat_inj.mp
  rw [hvalue, UInt32.toNat_or, UInt32.toNat_or, UInt32.toNat_or, hbyte b₀ 24 (by decide),
    hbyte b₁ 16 (by decide), hbyte b₂ 8 (by decide), hlast, UInt32.toNat_ofNat_of_lt' (show _ < 2 ^ 32 by omega)]
  show 2 ^ 24 * b₀.toNat ||| 2 ^ 16 * b₁.toNat ||| 2 ^ 8 * b₂.toNat ||| b₃.toNat = _
  rw [hor 24 _ _ (by omega), show 2 ^ 24 * b₀.toNat + 2 ^ 16 * b₁.toNat =
      2 ^ 16 * (256 * b₀.toNat + b₁.toNat) by omega, hor 16 _ _ (by omega),
    show 2 ^ 16 * (256 * b₀.toNat + b₁.toNat) + 2 ^ 8 * b₂.toNat =
      2 ^ 8 * (256 * (256 * b₀.toNat + b₁.toNat) + b₂.toNat) by omega, hor 8 _ _ (by omega)]
  omega

theorem blockWord_ok (hlen : block.length = 64) {t : Nat} (ht : t < 16) :
    blockWord block t = .ok (fipsInput block t) := by
  have hbyte : ∀ i, i < 4 → ∃ b : UInt8, block[t * 4 + i]? = some b ∧
      block.get ⟨t * 4 + i, 1⟩ = .ok b.toNat := by
    intro i hi
    have hin : t * 4 + i < block.length := by omega
    exact ⟨block[t * 4 + i], List.getElem?_eq_getElem hin,
      Frame.get_of_getElem? (List.getElem?_eq_getElem hin)⟩
  obtain ⟨b₀, h₀, hget₀⟩ := hbyte 0 (by decide)
  obtain ⟨b₁, h₁, hget₁⟩ := hbyte 1 (by decide)
  obtain ⟨b₂, h₂, hget₂⟩ := hbyte 2 (by decide)
  obtain ⟨b₃, h₃, hget₃⟩ := hbyte 3 (by decide)
  have hslice : slice block (t * 4) 4 = [b₀, b₁, b₂, b₃] := by
    apply List.ext_getElem?
    intro i
    rw [slice_getElem?]
    match i with
    | 0 => exact h₀
    | 1 => exact h₁
    | 2 => exact h₂
    | 3 => exact h₃
    | i + 4 => rw [if_neg (by omega)]; rfl
  rw [blockWord, ← Nat.add_zero (t * 4), hget₀, ok_bind, Nat.add_zero, hget₁, ok_bind, hget₂, ok_bind,
    hget₃, ok_bind, bytes_word, fipsInput, hslice]
  rfl

theorem fipsWord_early {t : Nat} (ht : t < 16) : fipsWord block t = fipsInput block t := by
  rw [fipsWord, if_pos ht]

theorem fipsWord_late {t : Nat} (ht : 16 ≤ t) : fipsWord block t = sha1CircularShift 1
    (fipsWord block (t - 3) ^^^ fipsWord block (t - 8) ^^^ fipsWord block (t - 14) ^^^
      fipsWord block (t - 16)) := by
  rw [fipsWord, if_neg (Nat.not_lt.mpr ht)]

theorem expandWords_eq (block : List UInt8) :
    expandWords ((List.range 16).map (fipsInput block)) = (List.range 80).map (fipsWord block) := by
  have hloop : ∀ n, (List.range' 16 n).foldl (fun w t => w ++ [sha1CircularShift 1
      (w.getD (t - 3) 0 ^^^ w.getD (t - 8) 0 ^^^ w.getD (t - 14) 0 ^^^ w.getD (t - 16) 0)])
        ((List.range 16).map (fipsInput block)) = (List.range (16 + n)).map (fipsWord block) := by
    intro n
    induction n with
    | zero =>
      apply List.map_congr_left
      intro t ht
      exact (fipsWord_early (List.mem_range.mp ht)).symm
    | succ n ih =>
      have hget : ∀ k, k < 16 + n → ((List.range (16 + n)).map (fipsWord block)).getD k 0 =
          fipsWord block k := by
        intro k hk
        rw [List.getD_eq_getElem?_getD, List.getElem?_map, List.getElem?_range hk]
        rfl
      rw [List.range'_1_concat, List.foldl_append, ih, List.foldl_cons, List.foldl_nil,
        hget _ (by omega), hget _ (by omega), hget _ (by omega), hget _ (by omega),
        ← Nat.add_assoc, List.range_succ, List.map_append, List.map_singleton]
      congr 2
      exact (fipsWord_late (Nat.le_add_right 16 n)).symm
  exact hloop 64

theorem sha1Rounds_eq (block : List UInt8) {f : UInt32 → UInt32 → UInt32 → UInt32} {k : UInt32}
    {start : Nat} (x : Sha1Words) (hend : start + 20 ≤ 80)
    (hf : ∀ t, start ≤ t → t < start + 20 → fipsFunction t = f ∧ fipsConstant t = k) :
    sha1Rounds f k ((List.range 80).map (fipsWord block)) start x =
      (List.range' start 20).foldl (fipsRound block) x := by
  apply List.foldl_ext
  intro x t ht
  obtain ⟨hlo, hhi⟩ := List.mem_range'_1.mp ht
  obtain ⟨rfl, rfl⟩ := hf t hlo hhi
  rw [fipsRound, List.getD_eq_getElem?_getD, List.getElem?_map, List.getElem?_range (by omega)]
  rfl

/-- The four loops are the 80 rounds. -/
theorem fipsRounds_eq (block : List UInt8) (x : Sha1Words) :
    (List.range 80).foldl (fipsRound block) x =
      let w := (List.range 80).map (fipsWord block)
      sha1Rounds parity 0xCA62C1D6 w 60 (sha1Rounds majority 0x8F1BBCDC w 40
        (sha1Rounds parity 0x6ED9EBA1 w 20 (sha1Rounds choose 0x5A827999 w 0 x))) := by
  have hsplit : (List.range 80).foldl (fipsRound block) x =
      (List.range' 0 20 ++ List.range' 20 20 ++ List.range' 40 20 ++ List.range' 60 20).foldl
        (fipsRound block) x := rfl
  rw [hsplit, List.foldl_append, List.foldl_append, List.foldl_append]
  simp only
  rw [sha1Rounds_eq block _ (by decide), sha1Rounds_eq block _ (by decide),
    sha1Rounds_eq block _ (by decide), sha1Rounds_eq block _ (by decide)]
  all_goals
    unfold fipsFunction fipsConstant
    grind

theorem sha1ProcessMessageBlock_ok (hlen : c.messageBlock.length = 64) :
    sha1ProcessMessageBlock c = .ok { c with
      messageDigest := fipsCompress c.messageDigest c.messageBlock
      messageBlockIndex := 0 } := by
  have hwords : (List.range 16).mapM (blockWord c.messageBlock) =
      .ok ((List.range 16).map (fipsInput c.messageBlock)) :=
    mapM_ok fun t ht => blockWord_ok hlen (List.mem_range.mp ht)
  rw [sha1ProcessMessageBlock, hwords, ok_bind, expandWords_eq, fipsCompress, fipsRounds_eq]
  rfl

end Block

/-! ## The buffer -/

/-- The bytes that wait in the block. -/
structure Filled (x : List UInt8) (c : SHA1Context) : Prop where
  room : c.messageBlock.length = 64
  index : c.messageBlockIndex = x.length
  bytes : c.messageBlock.take x.length = x

/-- Only the block is changed. -/
structure OnlyFills (c c' : SHA1Context) : Prop where
  digest : c'.messageDigest = c.messageDigest
  low : c'.lengthLow = c.lengthLow
  high : c'.lengthHigh = c.lengthHigh
  computed : c'.computed = c.computed
  corrupted : c'.corrupted = c.corrupted

section Buffer

variable {x l m : List UInt8} {c c' : SHA1Context} {b : UInt8}

theorem OnlyFills.refl (c : SHA1Context) : OnlyFills c c := ⟨rfl, rfl, rfl, rfl, rfl⟩

theorem OnlyFills.trans {c'' : SHA1Context} (h : OnlyFills c c') (h' : OnlyFills c' c'') :
    OnlyFills c c'' :=
  ⟨h'.digest.trans h.digest, h'.low.trans h.low, h'.high.trans h.high, h'.computed.trans h.computed,
    h'.corrupted.trans h.corrupted⟩

theorem Filled.put (h : Filled x c) (hx : x.length < 64) (b : UInt8) :
    ∃ c', c.put b = .ok c' ∧ Filled (x ++ [b]) c' ∧ OnlyFills c c' := by
  have hin : c.messageBlockIndex + [b].length ≤ c.messageBlock.length := by
    rw [h.room, h.index]
    exact hx
  have hput : c.put b = .ok { c with
      messageBlock := patch c.messageBlock c.messageBlockIndex [b]
      messageBlockIndex := c.messageBlockIndex + 1 } := by
    rw [SHA1Context.put, Frame.store_eq_ok.mpr ⟨hin, rfl⟩]
    rfl
  refine ⟨_, hput, ⟨(patch_length hin).trans h.room, ?_, ?_⟩, rfl, rfl, rfl, rfl, rfl⟩
  · show c.messageBlockIndex + 1 = _
    rw [h.index, List.length_append, List.length_singleton]
  · show (patch c.messageBlock c.messageBlockIndex [b]).take _ = _
    rw [patch, h.index, h.bytes, ← List.append_assoc]
    exact List.take_left

theorem Filled.fill (h : Filled x c) {n : Nat} (hx : x.length + n ≤ 64) :
    ∃ c', c.fill n = .ok c' ∧ Filled (x ++ List.replicate n 0) c' ∧ OnlyFills c c' := by
  induction n generalizing x c with
  | zero => exact ⟨c, rfl, by rwa [List.replicate_zero, List.append_nil], .refl c⟩
  | succ n ih =>
    obtain ⟨c₁, hput, hfilled, honly⟩ := h.put (by omega) 0
    obtain ⟨c₂, hfill, hfilled', honly'⟩ := ih hfilled (by rw [List.length_append, List.length_singleton]; omega)
    refine ⟨c₂, ?_, ?_, honly.trans honly'⟩
    · rw [SHA1Context.fill, hput, ok_bind, hfill]
    · rwa [List.append_assoc, List.singleton_append, ← List.replicate_succ] at hfilled'

theorem Filled.whole (h : Filled x c) (hx : x.length = 64) : c.messageBlock = x := by
  have hbytes := h.bytes
  rwa [hx, ← h.room, List.take_length] at hbytes

/-- A whole block is mixed into the digest. -/
theorem Filled.process (h : Filled x c) (hx : x.length = 64) :
    ∃ c', sha1ProcessMessageBlock c = .ok c' ∧ Filled [] c' ∧
      c'.messageDigest = fipsCompress c.messageDigest x ∧ c'.lengthLow = c.lengthLow ∧
      c'.lengthHigh = c.lengthHigh ∧ c'.computed = c.computed ∧ c'.corrupted = c.corrupted := by
  refine ⟨_, sha1ProcessMessageBlock_ok h.room, ⟨h.room, rfl, rfl⟩, ?_, rfl, rfl, rfl, rfl⟩
  show fipsCompress c.messageDigest c.messageBlock = _
  rw [h.whole hx]

end Buffer

/-! ## The message -/

/-- The message so far, which has been neither finished nor too long. -/
structure Absorbed (l : List UInt8) (c : SHA1Context) : Prop extends Filled (blocksRest 64 l) c where
  digest : c.messageDigest = (blocks 64 l).foldl fipsCompress sha1Start
  count : c.lengthHigh.toNat * 2 ^ 32 + c.lengthLow.toNat = 8 * l.length
  computed : c.computed = false
  corrupted : c.corrupted = false

section Message

variable {l m : List UInt8} {c c' : SHA1Context}

theorem sha1Reset_absorbed (h : c.messageBlock.length = 64) : Absorbed [] (sha1Reset c) := by
  have hshort : ([] : List UInt8).length < 64 := by decide
  have hempty : Filled (blocksRest 64 []) (sha1Reset c) := by
    rw [blocksRest_of_short hshort]
    exact ⟨h, rfl, rfl⟩
  have hcount : (0 : UInt32).toNat * 2 ^ 32 + (0 : UInt32).toNat = 8 * 0 := by decide
  exact ⟨hempty, by rw [blocks_of_short hshort]; rfl, hcount, rfl, rfl⟩

/-- The counter is that of the bits, until it overflows at 2^64. -/
theorem count_spec {n : Nat} (h : c.lengthHigh.toNat * 2 ^ 32 + c.lengthLow.toNat = 8 * n)
    (hc : c.corrupted = false) :
    if n + 1 < 2 ^ 61 then
      c.count.corrupted = false ∧
        c.count.lengthHigh.toNat * 2 ^ 32 + c.count.lengthLow.toNat = 8 * (n + 1)
    else c.count.corrupted = true := by
  have hhigh := c.lengthHigh.toNat_lt
  have hlow := c.lengthLow.toNat_lt
  have hlow' : (c.lengthLow + 8).toNat = (c.lengthLow.toNat + 8) % 2 ^ 32 := UInt32.toNat_add _ _
  have hhigh' : (c.lengthHigh + 1).toNat = (c.lengthHigh.toNat + 1) % 2 ^ 32 := UInt32.toNat_add _ _
  have hzero : ∀ x : UInt32, x = 0 ↔ x.toNat = 0 := fun x => by
    rw [← UInt32.toNat_inj]
    rfl
  have hclow : c.count.lengthLow = c.lengthLow + 8 := rfl
  have hchigh : c.count.lengthHigh = if c.lengthLow + 8 = 0 then c.lengthHigh + 1 else c.lengthHigh :=
    rfl
  have hwrap : c.count.corrupted = true ↔
      c.count.lengthLow.toNat = 0 ∧ c.count.lengthHigh.toNat = 0 := by
    rw [← hzero, ← hzero]
    simp only [SHA1Context.count, hc, Bool.false_or, Bool.and_eq_true, decide_eq_true_eq]
  rw [← Bool.not_eq_true, hwrap, hclow, hchigh]
  by_cases hcarry : c.lengthLow + 8 = 0
  · rw [if_pos hcarry, hhigh', hlow']
    rw [hzero, hlow'] at hcarry
    split
    · omega
    · omega
  · rw [if_neg hcarry, hlow']
    rw [hzero, hlow'] at hcarry
    split
    · omega
    · omega

theorem Absorbed.put (h : Absorbed l c) (b : UInt8) :
    ∃ c', c.put b = .ok c' ∧ Filled (blocksRest 64 l ++ [b]) c' ∧ OnlyFills c c' :=
  h.toFilled.put (blocksRest_length_lt (by decide) l) b

/-- One byte of the message. -/
theorem Absorbed.byte (h : Absorbed l c) (b : UInt8) :
    ∃ c', sha1InputByte c b = .ok c' ∧ c'.messageBlock.length = 64 ∧
      if l.length + 1 < 2 ^ 61 then Absorbed (l ++ [b]) c' else c'.corrupted = true := by
  obtain ⟨c₁, hput, hfilled, honly⟩ := h.put b
  have hcount := @count_spec c₁ l.length (by rw [honly.high, honly.low, h.count])
    (honly.corrupted.trans h.corrupted)
  have hcounted : Filled (blocksRest 64 l ++ [b]) c₁.count := ⟨hfilled.room, hfilled.index, hfilled.bytes⟩
  have hlen : (blocksRest 64 l ++ [b]).length = (blocksRest 64 l).length + 1 := by
    rw [List.length_append, List.length_singleton]
  have hlt := blocksRest_length_lt (by decide : 0 < 64) l
  rw [sha1InputByte, hput, ok_bind]
  by_cases hwhole : (blocksRest 64 l).length + 1 = 64
  · obtain ⟨c₂, hprocess, hempty, hdigest, hlow, hhigh, hcomputed, hcorrupted⟩ :=
      hcounted.process (hlen.trans hwhole)
    obtain ⟨hblocks, hrest⟩ := blocks_push_of_eq hwhole b
    rw [if_pos (hcounted.index.trans (hlen.trans hwhole))]
    refine ⟨c₂, hprocess, hempty.room, ?_⟩
    split at hcount
    · rename_i hfits
      rw [if_pos hfits]
      refine ⟨by rwa [hrest], ?_, ?_, hcomputed.trans (honly.computed.trans h.computed),
        hcorrupted.trans hcount.1⟩
      · rw [hdigest, hblocks, List.foldl_append, ← h.digest, ← honly.digest]
        rfl
      · rw [hhigh, hlow, List.length_append, List.length_singleton]
        exact hcount.2
    · rename_i hlong
      rw [if_neg hlong]
      exact hcorrupted.trans hcount
  · have hroom : (blocksRest 64 l).length + 1 < 64 := by omega
    obtain ⟨hblocks, hrest⟩ := blocks_push_of_lt hroom b
    rw [if_neg (by rw [hcounted.index, hlen]; exact hwhole)]
    refine ⟨_, rfl, hcounted.room, ?_⟩
    split at hcount
    · rename_i hfits
      rw [if_pos hfits]
      refine ⟨by rwa [hrest], ?_, ?_, honly.computed.trans h.computed, hcount.1⟩
      · rw [hblocks, ← h.digest]
        exact honly.digest
      · rw [List.length_append, List.length_singleton]
        exact hcount.2
    · rename_i hlong
      rw [if_neg hlong]
      exact hcount

/-- A portion of the message. -/
theorem Absorbed.loop (h : Absorbed l c) (m : List UInt8) :
    ∃ c', sha1InputLoop m c = .ok c' ∧ c'.messageBlock.length = 64 ∧
      if (l ++ m).length < 2 ^ 61 then Absorbed (l ++ m) c' else m = [] ∨ c'.corrupted = true := by
  induction m generalizing l c with
  | nil =>
    refine ⟨c, rfl, h.room, ?_⟩
    rw [List.append_nil]
    split
    · exact h
    · exact Or.inl rfl
  | cons b m ih =>
    obtain ⟨c₁, hbyte, hroom, hstep⟩ := h.byte b
    have hsplit : l ++ b :: m = l ++ [b] ++ m := by rw [List.append_assoc, List.singleton_append]
    rw [sha1InputLoop, h.corrupted, if_neg Bool.false_ne_true, hbyte, ok_bind]
    by_cases hfits : l.length + 1 < 2 ^ 61
    · rw [if_pos hfits] at hstep
      obtain ⟨c₂, hloop, hroom', hrest⟩ := ih hstep
      refine ⟨c₂, hloop, hroom', ?_⟩
      rw [hsplit]
      split
      · rename_i hall
        rwa [if_pos hall] at hrest
      · rename_i hall
        rw [if_neg hall] at hrest
        refine Or.inr (hrest.resolve_left ?_)
        rintro rfl
        rw [List.append_nil, List.length_append, List.length_singleton] at hall
        exact hall hfits
    · rw [if_neg hfits] at hstep
      have hstop : sha1InputLoop m c₁ = .ok c₁ := by
        cases m with
        | nil => rfl
        | cons b' m => rw [sha1InputLoop, if_pos hstep]
      refine ⟨c₁, hstop, hroom, ?_⟩
      rw [if_neg (by rw [List.length_append, List.length_cons]; omega)]
      exact Or.inr hstep

end Message

/-! ## The end of the message -/

section Result

variable {x l : List UInt8} {c c' : SHA1Context}

theorem octet_eq (x : UInt32) : (x &&& 0xFF).toUInt8 = UInt8.ofNat x.toNat := by
  apply UInt8.toNat_inj.mp
  have hmask : (0xFF : UInt32).toNat = 2 ^ 8 - 1 := rfl
  rw [UInt32.toNat_toUInt8, UInt32.toNat_and, hmask, Nat.and_two_pow_sub_one_eq_mod, Nat.mod_mod,
    UInt8.toNat_ofNat']

theorem shifted_eq (x k : UInt32) (hk : k.toNat < 32) : (x >>> k).toNat = x.toNat / 2 ^ k.toNat := by
  rw [UInt32.toNat_shiftRight, Nat.mod_eq_of_lt hk, Nat.shiftRight_eq_div_pow]

theorem lengthOctets_eq (high low : UInt32) :
    lengthOctets high low = (leBytes 8 (high.toNat * 2 ^ 32 + low.toNat)).reverse := by
  have hlow := low.toNat_lt
  have hbyte : ∀ m n : Nat, m % 256 = n % 256 → UInt8.ofNat m = UInt8.ofNat n := by
    intro m n h
    apply UInt8.toNat_inj.mp
    rw [UInt8.toNat_ofNat', UInt8.toNat_ofNat']
    exact h
  have h24 := fun x => shifted_eq x 24 (by decide)
  have h16 := fun x => shifted_eq x 16 (by decide)
  have h8 := fun x => shifted_eq x 8 (by decide)
  have hpow24 : (24 : UInt32).toNat = 24 := rfl
  have hpow16 : (16 : UInt32).toNat = 16 := rfl
  have hpow8 : (8 : UInt32).toNat = 8 := rfl
  simp only [lengthOctets, List.map_cons, List.map_nil, leBytes, List.reverse_cons, List.reverse_nil,
    List.nil_append, List.cons_append, octet_eq, h24, h16, h8, hpow24, hpow16, hpow8,
    List.cons.injEq, and_true]
  refine ⟨?_, ?_, ?_, ?_, ?_, ?_, ?_, ?_⟩
  all_goals
    apply hbyte
    omega

/-- The length is stored behind 56 bytes, and the block is whole. -/
theorem Filled.finish (h : Filled x c) (hx : x.length = 56) {octets : List UInt8}
    (ho : octets.length = 8) :
    ∃ c', (do
        let block ← c.messageBlock.store 56 octets
        sha1ProcessMessageBlock { c with messageBlock := block }) = .ok c' ∧
      c'.messageBlock.length = 64 ∧ c'.messageDigest = fipsCompress c.messageDigest (x ++ octets) ∧
      c'.corrupted = c.corrupted := by
  have hin : 56 + octets.length ≤ c.messageBlock.length := by
    rw [ho, h.room]
  have hblock : patch c.messageBlock 56 octets = x ++ octets := by
    have hbehind : c.messageBlock.drop (56 + octets.length) = [] :=
      List.drop_of_length_le (by rw [ho, h.room])
    rw [patch, ← hx, h.bytes, hx, hbehind, List.append_nil]
  have hroom : (x ++ octets).length = 64 := by rw [List.length_append, hx, ho]
  rw [Frame.store_eq_ok.mpr ⟨hin, rfl⟩, ok_bind, hblock, sha1ProcessMessageBlock_ok hroom]
  exact ⟨_, rfl, hroom, rfl, rfl⟩

theorem fipsPadding_short {n : Nat} (hn : n % 64 ≤ 55) : fipsPadding n =
    [0x80] ++ List.replicate (55 - n % 64) 0 ++ (leBytes 8 (8 * n)).reverse := by
  have hcount : (119 - n % 64) % 64 = 55 - n % 64 := by omega
  rw [fipsPadding, hcount, List.append_assoc, List.singleton_append]

theorem fipsPadding_long {n : Nat} (hn : 55 < n % 64) : fipsPadding n =
    ([0x80] ++ List.replicate (63 - n % 64) 0) ++
      (List.replicate 56 0 ++ (leBytes 8 (8 * n)).reverse) := by
  have hcount : (119 - n % 64) % 64 = (63 - n % 64) + 56 := by omega
  rw [fipsPadding, hcount, ← List.replicate_append_replicate, List.append_assoc, List.append_assoc,
    List.singleton_append]

theorem Absorbed.digest_eq (h : Absorbed l c) (y : List UInt8) :
    (blocks 64 (l ++ y)).foldl fipsCompress sha1Start =
      (blocks 64 (blocksRest 64 l ++ y)).foldl fipsCompress c.messageDigest := by
  rw [blocks_append (by decide), List.foldl_append, h.digest]

theorem Absorbed.pad (h : Absorbed l c) :
    ∃ c', sha1PadMessage c = .ok c' ∧ c'.messageBlock.length = 64 ∧
      c'.messageDigest = fipsDigest l ∧ c'.corrupted = false := by
  obtain ⟨c₁, hput, hfilled, honly⟩ := h.put 0x80
  have hrest := blocksRest_length 64 l
  have hindex : c.messageBlockIndex = l.length % 64 := h.index.trans hrest
  have hindex₁ : c₁.messageBlockIndex = l.length % 64 + 1 := by
    rw [hfilled.index, List.length_append, hrest, List.length_singleton]
  have hoctets : lengthOctets c.lengthHigh c.lengthLow = (leBytes 8 (8 * l.length)).reverse := by
    rw [lengthOctets_eq, h.count]
  have hlt : l.length % 64 < 64 := Nat.mod_lt _ (by decide)
  have hlen : ((leBytes 8 (8 * l.length)).reverse).length = 8 := by simp
  rw [sha1PadMessage, hindex, fipsDigest, h.digest_eq]
  by_cases hlong : l.length % 64 > 55
  · -- the length does not fit behind the message any more
    obtain ⟨c₂, hfill, hfull, honly₂⟩ := hfilled.fill (n := 64 - (l.length % 64 + 1))
      (by rw [List.length_append, hrest, List.length_singleton]; omega)
    have hfull' : (blocksRest 64 l ++ [0x80] ++ List.replicate (64 - (l.length % 64 + 1)) 0).length =
        64 := by
      rw [List.length_append, List.length_append, hrest, List.length_singleton, List.length_replicate]
      omega
    obtain ⟨c₃, hprocess, hempty, hdigest, hlow, hhigh, -, hcorrupted⟩ := hfull.process hfull'
    obtain ⟨c₄, hfill', hzeros, honly₄⟩ := hempty.fill (n := 56) (by decide)
    rw [List.nil_append] at hzeros
    have hindex₃ : 56 - c₃.messageBlockIndex = 56 := by rw [hempty.index]; rfl
    obtain ⟨c₅, hend, hroom, hlast, hkept⟩ := hzeros.finish (List.length_replicate ..) hlen
    have hcount : lengthOctets c₄.lengthHigh c₄.lengthLow = (leBytes 8 (8 * l.length)).reverse := by
      rw [honly₄.high, honly₄.low, hhigh, hlow, honly₂.high, honly₂.low, honly.high, honly.low, hoctets]
    rw [← hcount] at hend
    rw [if_pos hlong, hput, ok_bind, hindex₁, hfill, ok_bind, hprocess, ok_bind, hindex₃, hfill', ok_bind]
    refine ⟨c₅, hend, hroom, ?_, ?_⟩
    · have hzeros' : 64 - (l.length % 64 + 1) = 63 - l.length % 64 := by omega
      rw [hlast, honly₄.digest, hdigest, honly₂.digest, honly.digest, fipsPadding_long hlong,
        ← List.append_assoc, ← hzeros', ← List.append_assoc (blocksRest 64 l),
        blocks_append_block (by decide) hfull', blocks_whole (by decide)
          (by rw [List.length_append, List.length_replicate, hlen])]
      rfl
    · rw [hkept, honly₄.corrupted, hcorrupted, honly₂.corrupted, honly.corrupted, h.corrupted]
  · obtain ⟨c₂, hfill, hzeros, honly₂⟩ := hfilled.fill (n := 56 - (l.length % 64 + 1))
      (by rw [List.length_append, hrest, List.length_singleton]; omega)
    have hzeros' : 56 - (l.length % 64 + 1) = 55 - l.length % 64 := by omega
    have hshort : (blocksRest 64 l ++ [0x80] ++ List.replicate (56 - (l.length % 64 + 1)) 0).length =
        56 := by
      rw [List.length_append, List.length_append, hrest, List.length_singleton, List.length_replicate]
      omega
    obtain ⟨c₃, hend, hroom, hlast, hkept⟩ := hzeros.finish hshort hlen
    have hcount : lengthOctets c₂.lengthHigh c₂.lengthLow = (leBytes 8 (8 * l.length)).reverse := by
      rw [honly₂.high, honly₂.low, honly.high, honly.low, hoctets]
    rw [← hcount] at hend
    rw [if_neg hlong, hput, ok_bind, hindex₁, hfill, ok_bind]
    refine ⟨c₃, hend, hroom, ?_, ?_⟩
    · rw [hlast, honly₂.digest, honly.digest, fipsPadding_short (Nat.not_lt.mp hlong), ← hzeros',
        ← List.append_assoc, ← List.append_assoc, blocks_whole (by decide)
          (by rw [List.length_append, hshort, hlen])]
      rfl
    · rw [hkept, honly₂.corrupted, honly.corrupted, h.corrupted]

end Result

/-! ## Calls -/

inductive Sha1Call
  | reset
  | input (message : List UInt8)
  | result
  deriving DecidableEq, Repr

/-- Also the digest that the caller can read after `SHA1Result` returned 1. -/
def sha1Call (c : SHA1Context) : Sha1Call → Exec (SHA1Context × Option Sha1Words)
  | .reset => .ok (sha1Reset c, none)
  | .input message => do return (← sha1Input c message, none)
  | .result => do
    let (c, ok) ← sha1Result c
    return (c, if ok then some c.messageDigest else none)

def sha1Calls (c : SHA1Context) : List Sha1Call → Exec (List (Option Sha1Words))
  | [] => .ok []
  | call :: calls => do
    let (c, seen) ← sha1Call c call
    return seen :: (← sha1Calls c calls)

/-- A message that is read, one that was read to its end, or none. -/
inductive Hashing
  | reading (message : List UInt8)
  | finished (message : List UInt8)
  | spoiled
  deriving DecidableEq, Repr

/-- Portions may be empty. The length of the message in bits is less than 2^64. -/
def Hashing.call : Hashing → Sha1Call → Hashing
  | _, .reset => .reading []
  | .reading l, .input m => if (l ++ m).length < 2 ^ 61 then .reading (l ++ m) else .spoiled
  | .finished l, .input m => if m = [] then .finished l else .spoiled
  | .spoiled, .input _ | .spoiled, .result => .spoiled
  | .reading l, .result => .finished l
  | .finished l, .result => .finished l

def Hashing.seen (h : Hashing) : Sha1Call → Option Sha1Words
  | .reset | .input _ => none
  | .result =>
    match h with
    | .reading l | .finished l => some (fipsDigest l)
    | .spoiled => none

def Hashing.calls (h : Hashing) : List Sha1Call → List (Option Sha1Words)
  | [] => []
  | call :: calls => h.seen call :: (h.call call).calls calls

/-- The context stands for the message. -/
def Hashing.In (c : SHA1Context) : Hashing → Prop
  | .reading l => Absorbed l c ∧ l.length < 2 ^ 61
  | .finished l => c.messageBlock.length = 64 ∧ c.computed = true ∧ c.corrupted = false ∧
    c.messageDigest = fipsDigest l
  | .spoiled => c.messageBlock.length = 64 ∧ c.corrupted = true

section Calls

variable {c : SHA1Context} {h : Hashing}

theorem Hashing.In.room (hin : h.In c) : c.messageBlock.length = 64 := by
  cases h with
  | reading l => exact hin.1.room
  | finished l | spoiled => exact hin.1

theorem sha1Reset_refines (hin : h.In c) : (h.call .reset).In (sha1Reset c) :=
  ⟨sha1Reset_absorbed hin.room, by decide⟩

theorem sha1Input_refines (hin : h.In c) (m : List UInt8) :
    ∃ c', sha1Input c m = .ok c' ∧ (h.call (.input m)).In c' := by
  by_cases hm : m = []
  · subst hm
    refine ⟨c, by rw [sha1Input, if_pos rfl], ?_⟩
    cases h with
    | reading l =>
      rw [Hashing.call, List.append_nil, if_pos hin.2]
      exact hin
    | finished l => exact hin
    | spoiled => exact hin
  · rw [sha1Input, if_neg hm]
    cases h with
    | reading l =>
      obtain ⟨habsorbed, -⟩ := hin
      obtain ⟨c', hloop, hroom, hrest⟩ := habsorbed.loop m
      rw [habsorbed.computed, habsorbed.corrupted, Bool.or_false, if_neg Bool.false_ne_true]
      refine ⟨c', hloop, ?_⟩
      rw [Hashing.call]
      split at hrest
      · rename_i hfits
        rw [if_pos hfits]
        exact ⟨hrest, hfits⟩
      · rename_i hlong
        rw [if_neg hlong]
        exact ⟨hroom, hrest.resolve_left hm⟩
    | finished l =>
      rw [hin.2.1, Bool.true_or, if_pos rfl, Hashing.call, if_neg hm]
      exact ⟨_, rfl, hin.1, rfl⟩
    | spoiled =>
      obtain ⟨hroom, hcorrupted⟩ := hin
      rw [hcorrupted, Bool.or_true, if_pos rfl]
      exact ⟨_, rfl, hroom, rfl⟩

theorem sha1Result_refines (hin : h.In c) :
    ∃ c' ok, sha1Result c = .ok (c', ok) ∧ (h.call .result).In c' ∧
      (if ok then some c'.messageDigest else none) = h.seen .result := by
  rw [sha1Result]
  cases h with
  | reading l =>
    obtain ⟨habsorbed, -⟩ := hin
    obtain ⟨c', hpad, hroom, hdigest, hcorrupted⟩ := habsorbed.pad
    rw [habsorbed.corrupted, if_neg Bool.false_ne_true, habsorbed.computed, if_neg Bool.false_ne_true,
      hpad]
    exact ⟨_, true, rfl, ⟨hroom, rfl, hcorrupted, hdigest⟩, congrArg some hdigest⟩
  | finished l =>
    obtain ⟨hroom, hcomputed, hcorrupted, hdigest⟩ := hin
    rw [hcorrupted, if_neg Bool.false_ne_true, hcomputed, if_pos rfl]
    exact ⟨c, true, rfl, ⟨hroom, hcomputed, hcorrupted, hdigest⟩, congrArg some hdigest⟩
  | spoiled =>
    obtain ⟨hroom, hcorrupted⟩ := hin
    rw [if_pos hcorrupted]
    exact ⟨c, false, rfl, ⟨hroom, hcorrupted⟩, rfl⟩

theorem sha1Calls_refine (hin : h.In c) (calls : List Sha1Call) :
    sha1Calls c calls = .ok (h.calls calls) := by
  induction calls generalizing c h with
  | nil => rfl
  | cons call calls ih =>
    cases call with
    | reset =>
      rw [sha1Calls, sha1Call, ok_bind]
      simp only [ih (sha1Reset_refines hin), ok_bind]
      rfl
    | input m =>
      obtain ⟨c', hrun, hin'⟩ := sha1Input_refines hin m
      rw [sha1Calls, sha1Call, hrun, ok_bind, pure_eq_ok, ok_bind]
      simp only [ih hin', ok_bind]
      rfl
    | result =>
      obtain ⟨c', ok, hrun, hin', hseen⟩ := sha1Result_refines hin
      rw [sha1Calls, sha1Call, hrun, ok_bind]
      simp only [pure_eq_ok, ok_bind, ih hin', hseen]
      rfl

/-- Whatever the calls are, also those of `SHA1Reset`: the context gives the digest of the message that the
portions since the last reset make up, as long as it is not too long and nothing is added behind the
result. No byte outside the block is read or written. -/
theorem sha1_refines (hroom : c.messageBlock.length = 64) (calls : List Sha1Call) :
    sha1Calls (sha1Reset c) calls = .ok ((Hashing.reading []).calls calls) := by
  have hstart : (Hashing.reading []).In (sha1Reset c) := ⟨sha1Reset_absorbed hroom, by decide⟩
  exact sha1Calls_refine hstart calls

theorem sha1_refines_demo :
    sha1Calls (sha1Reset ⟨sha1Start, 1, 2, List.replicate 64 3, 4, true, true⟩)
        [.input [97], .input [98, 99], .result, .input [100], .result, .reset, .input [97], .result] =
      .ok ((Hashing.reading []).calls [.input [97], .input [98, 99], .result, .input [100], .result,
        .reset, .input [97], .result]) :=
  sha1_refines (by decide) _

end Calls

end PWOSPF
