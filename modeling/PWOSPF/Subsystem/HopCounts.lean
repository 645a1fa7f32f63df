import PWOSPF.Framework.Tally
import PWOSPF.Subsystem.LsuFormat
import PWOSPF.Subsystem.Runs

/-!
# Hop counts

`forward_lsu` takes one off the TTL of the IP header and one off that of the LSU header, both of
them bytes, and floods the packet if neither is 0 then.
-/

namespace PWOSPF

open Framework PacketField

variable {f : Frame} {S : PwospfSubsys} {env : Env}

section Hop

variable {hops hops' : UInt8} {csum : UInt16} {f₁ f₂ f₃ : Frame}

/-- What `forward_lsu` edits before it floods: both hop counts and the checksum. -/
structure Hop (f : Frame) (hops hops' : UInt8) (csum : UInt16) (f₁ f₂ f₃ : Frame) : Prop where
  ipTtl : f.set ipTtl hops.toNat = .ok f₁
  lsuTtl : f₁.assign [(lsuTtl, hops'.toNat), (ospfCsum, 0)] = .ok f₂
  sum : cksum (f₂.drop ospfStart) (sizeofOspf - 8) = .ok csum
  csum : f₂.set ospfCsum (htons csum).toNat = .ok f₃

theorem Hop.exists (hmin : 62 ≤ f.length) (hops hops' : UInt8) :
    ∃ csum f₁ f₂ f₃, Hop f hops hops' csum f₁ f₂ f₃ := by
  obtain ⟨f₁, h₁⟩ := Frame.set_exists (f := f) (a := PacketField.ipTtl)
    (Nat.le_trans (by decide) hmin) hops.toNat
  have hlen₁ := Frame.set_length h₁
  obtain ⟨f₂, h₂⟩ := Frame.assign_exists (f := f₁)
    (l := [(PacketField.lsuTtl, hops'.toNat), (ospfCsum, 0)]) (by
      rw [hlen₁]
      intro a ha
      simp only [List.map, List.mem_cons, List.not_mem_nil, or_false] at ha
      cases ha with
      | inl ha => exact ha ▸ hmin
      | inr ha => exact ha ▸ Nat.le_trans (by decide) hmin)
  have hlen₂ := (Frame.assign_length h₂).trans hlen₁
  obtain ⟨csum, hcsum⟩ := ospfCksum_exists (f := f₂) (Nat.le_trans (by decide) (hlen₂ ▸ hmin))
  obtain ⟨f₃, h₃⟩ := Frame.set_exists (f := f₂) (a := ospfCsum)
    (by rw [hlen₂]; exact Nat.le_trans (by decide) hmin) (htons csum).toNat
  exact ⟨csum, f₁, f₂, f₃, h₁, h₂, hcsum, h₃⟩

theorem Hop.length (h : Hop f hops hops' csum f₁ f₂ f₃) : f₃.length = f.length := by
  rw [Frame.set_length h.csum, Frame.assign_length h.lsuTtl, Frame.set_length h.ipTtl]

theorem Hop.get_ipTtl (h : Hop f hops hops' csum f₁ f₂ f₃) {b : PacketField}
    (hip : PacketField.ipTtl.Apart b) : f₁.get b = f.get b := Frame.get_set_apart h.ipTtl hip

theorem Hop.get_lsuTtl (h : Hop f hops hops' csum f₁ f₂ f₃) {b : PacketField}
    (hcsum : ospfCsum.Apart b) (hip : PacketField.ipTtl.Apart b)
    (hlsu : PacketField.lsuTtl.Apart b) : f₂.get b = f.get b := by
  apply Eq.trans (Frame.get_assign_apart h.lsuTtl _) (h.get_ipTtl hip)
  intro a ha
  simp only [List.map, List.mem_cons, List.not_mem_nil, or_false] at ha
  cases ha with
  | inl ha => exact ha ▸ hlsu
  | inr ha => exact ha ▸ hcsum

theorem Hop.get_csum (h : Hop f hops hops' csum f₁ f₂ f₃) {b : PacketField}
    (hcsum : ospfCsum.Apart b) (hip : PacketField.ipTtl.Apart b)
    (hlsu : PacketField.lsuTtl.Apart b) : f₃.get b = f.get b :=
  (Frame.get_set_apart h.csum hcsum).trans (h.get_lsuTtl hcsum hip hlsu)

theorem Hop.ipHops (h : Hop f hops hops' csum f₁ f₂ f₃) :
    f₃.get PacketField.ipTtl = .ok hops.toNat := by
  have hfits : hops.toNat < 256 ^ 1 := hops.toNat_lt
  rw [Frame.get_set_apart h.csum (by decide),
    Frame.get_assign_apart h.lsuTtl (by simp only [List.map]; decide), Frame.get_set h.ipTtl hfits]

theorem Hop.lsuHops (h : Hop f hops hops' csum f₁ f₂ f₃) :
    f₃.get PacketField.lsuTtl = .ok hops'.toNat := by
  have hfits : hops'.toNat < 256 ^ 1 := hops'.toNat_lt
  rw [Frame.get_set_apart h.csum (by decide),
    Frame.get_assign h.lsuTtl (by simp only [List.map]; decide) List.mem_cons_self hfits]

/-- The checksum field of `f₂` is clear, so its sum is the one that is stored. -/
theorem Hop.ospfSum (h : Hop f hops hops' csum f₁ f₂ f₃) : ospfSum f₃ = .ok csum := by
  have hclear : f₂.set ospfCsum 0 = .ok f₂ :=
    Frame.set_assign_concat (l := [(PacketField.lsuTtl, hops'.toNat)]) h.lsuTtl
  rw [ospfSum_set h.csum, PWOSPF.ospfSum, hclear, ok_bind]
  exact h.sum

end Hop

/-- The bytes that `forward_lsu` copies, as the length field of the OSPF header has them. -/
def relaySize (len : Nat) : UInt16 :=
  .ofNat (sizeofEther + sizeofIp + (ntohs (.ofNat len)).toNat)

section Forward

variable {t l len src : Nat} {csum : UInt16} {f₁ f₂ f₃ : Frame}

/-- A byte counted down from 0 is 255. -/
theorem uint8_pred (hlt : t < 256 ^ 1) :
    (UInt8.ofNat t - 1).toNat = if t = 0 then 255 else t - 1 := by
  have ht : (UInt8.ofNat t).toNat = t := UInt8.toNat_ofNat_of_lt' hlt
  by_cases h0 : t = 0
  · subst h0
    rfl
  · have hle : 1 ≤ UInt8.ofNat t := by
      rw [UInt8.le_iff_toNat_le, ht]
      exact Nat.one_le_iff_ne_zero.mpr h0
    rw [UInt8.toNat_sub_of_le _ _ hle, ht, if_neg h0]
    rfl

theorem uint8_pred_pos (hlt : t < 256 ^ 1) : UInt8.ofNat t - 1 > 0 ↔ t ≠ 1 := by
  rw [gt_iff_lt, UInt8.lt_iff_toNat_lt, uint8_pred hlt]
  show 0 < (if t = 0 then 255 else t - 1) ↔ t ≠ 1
  split <;> omega

theorem forwardLsu_eq (hip : f.get ipTtl = .ok t) (hlsu : f.get lsuTtl = .ok l)
    (hlen : f.get ospfLen = .ok len) (hsrc : f.get ipSrc = .ok src)
    (hop : Hop f (.ofNat t - 1) (.ofNat l - 1) csum f₁ f₂ f₃) :
    forwardLsu S env f =
      if l ≠ 1 ∧ t ≠ 1 then do
        return (← flood env (fun i => .ok i.mac) (relaySize len) (fun a => a = UInt32.ofNat src)
          S.interfaces (f₃, [])).2
      else return [] := by
  simp only [forwardLsu, hip, ok_bind, hop.ipTtl, hop.get_ipTtl (b := lsuTtl) (by decide), hlsu,
    hop.lsuTtl, hop.get_lsuTtl (b := ospfLen) (by decide) (by decide) (by decide), hlen, hop.sum,
    hop.csum, hop.get_csum (b := ipSrc) (by decide) (by decide) (by decide), hsrc, relaySize,
    uint8_pred_pos (Frame.get_lt hip), uint8_pred_pos (Frame.get_lt hlsu)]

/-- Both hop counts of the copy are at least 1 and less than those of the packet. -/
def LosesHops (f f' : Frame) : Prop :=
  ∃ t l t' l', f.get ipTtl = .ok t ∧ f.get lsuTtl = .ok l ∧ f'.get ipTtl = .ok t' ∧
    f'.get lsuTtl = .ok l' ∧ 1 ≤ t' ∧ t' < t ∧ 1 ≤ l' ∧ l' < l

/-- What a copy carries of the hop counts if it is long enough. -/
theorem losesHops_copy_iff (hip : f.get ipTtl = .ok t) (hlsu : f.get lsuTtl = .ok l)
    (hop : Hop f (.ofNat t - 1) (.ofNat l - 1) csum f₁ f₂ f₃) (ht : t ≠ 1) (hl : l ≠ 1) {n : Nat}
    (hn : n ≤ f₃.length) {c : Handoff} {target : IfName × InAddr} (hc : CopyFor f₃ n c target) :
    LosesHops f c.frame ↔ 1 < t ∧ 1 < l ∧ 62 ≤ n := by
  have ht' := uint8_pred (Frame.get_lt hip)
  have hl' := uint8_pred (Frame.get_lt hlsu)
  constructor
  · intro h
    obtain ⟨t₀, l₀, t', l', hip₀, hlsu₀, hipc, hlsuc, hpos, htt, hlpos, hll⟩ := h
    have hin : 62 ≤ n := by
      rw [← hc.length hn]
      exact Frame.get_bounds hlsuc
    rw [hip, Except.ok.injEq] at hip₀
    rw [hlsu, Except.ok.injEq] at hlsu₀
    rw [hc.get_ipTtl hn (Nat.le_trans (by decide) hin), hop.ipHops, Except.ok.injEq] at hipc
    rw [hc.get_body (b := lsuTtl) hn (by decide) hin, hop.lsuHops, Except.ok.injEq] at hlsuc
    subst hip₀ hlsu₀ hipc hlsuc
    rw [ht'] at htt
    rw [hl'] at hll
    refine ⟨?_, ?_, hin⟩
    · split at htt <;> omega
    · split at hll <;> omega
  · intro h
    obtain ⟨hlt, hll, hin⟩ := h
    rw [if_neg (by omega)] at ht' hl'
    refine ⟨t, l, t - 1, l - 1, hip, hlsu, ?_, ?_, by omega, by omega, by omega, by omega⟩
    · rw [hc.get_ipTtl hn (Nat.le_trans (by decide) hin), hop.ipHops, ht']
    · rw [hc.get_body (b := lsuTtl) hn (by decide) hin, hop.lsuHops, hl']

/-- What holds of each copy or of none holds of all exactly if it holds of each or there is none. -/
theorem forall_copies_iff {α β : Type*} {R : α → β → Prop} {P : α → Prop} {q : Prop} {l : List α}
    {l' : List β} (h : List.Forall₂ R l l') (hiff : ∀ a b, R a b → (P a ↔ q)) :
    (∀ a ∈ l, P a) ↔ l' = [] ∨ q := by
  have hboth := forall₂_iff_of_const (P := fun a b => P a ∧ R a b) h fun a b hab => by
    rw [and_iff_left hab, hiff a b hab]
  rw [← hboth, List.forall₂_and_left, and_iff_left h]

/-- Every copy loses hops exactly if there is no copy to make (no other neighbor, or a hop count
is used up) or both hop counts are above 1 and the length field covers the LSU header. -/
theorem forwardLsu_losesHops_iff (hip : f.get ipTtl = .ok t) (hlsu : f.get lsuTtl = .ok l)
    (hlen : f.get ospfLen = .ok len) (hsrc : f.get ipSrc = .ok src) {copies : List Handoff}
    (hrun : forwardLsu S env f = .ok copies) :
    (∀ c ∈ copies, LosesHops f c.frame) ↔
      targets (fun a => a = UInt32.ofNat src) S.interfaces = [] ∨ t = 1 ∨ l = 1 ∨
        (1 < t ∧ 1 < l ∧ 62 ≤ (relaySize len).toNat) := by
  have hmin : 62 ≤ f.length := Frame.get_bounds hlsu
  obtain ⟨csum, f₁, f₂, f₃, hop⟩ := Hop.exists hmin (.ofNat t - 1) (.ofNat l - 1)
  have hmin₃ : ospfStart ≤ f₃.length := by
    rw [hop.length]
    exact Nat.le_trans (by decide) hmin
  rw [forwardLsu_eq hip hlsu hlen hsrc hop] at hrun
  by_cases hlive : l ≠ 1 ∧ t ≠ 1
  · rw [if_pos hlive] at hrun
    obtain ⟨x, hflood, hrun⟩ := bind_eq_ok.mp hrun
    cases hrun
    rw [or_iff_right hlive.2, or_iff_right hlive.1]
    by_cases hsize : (relaySize len).toNat ≤ f₃.length
    · obtain ⟨f₄, copies, hspec, hcopies⟩ := flood_spec env (fun a => a = UInt32.ofNat src)
        S.interfaces [] (fun i _ => ⟨i.mac, rfl⟩) hmin₃ hsize
      rw [hflood, List.nil_append] at hspec
      cases hspec
      exact forall_copies_iff hcopies fun c target hc =>
        losesHops_copy_iff hip hlsu hop hlive.2 hlive.1 hsize hc
    · obtain ⟨hnone, hsome⟩ := flood_overread env (fun a => a = UInt32.ofNat src)
        S.interfaces [] (fun i _ => ⟨i.mac, rfl⟩) hmin₃
        (Nat.lt_of_not_le hsize)
      by_cases htargets : targets (fun a => a = UInt32.ofNat src) S.interfaces = []
      · obtain ⟨f₄, hspec⟩ := hnone htargets
        rw [hflood] at hspec
        cases hspec
        simp [htargets]
      · rw [hsome htargets] at hflood
        cases hflood
  · rw [if_neg hlive] at hrun
    cases hrun
    simp only [List.not_mem_nil, false_implies, implies_true, true_iff]
    omega

end Forward

section Demo

def demoEnv : Env where
  clock := fun _ => 0
  searchCache := fun _ _ => some #v[2, 0, 0, 0, 0, 3]
  bytes := fun _ => 0xa5
  nextHops := fun _ => 0

/-- The neighbor of `demoStart` at 10.0.0.0, with another neighbor at 10.0.0.3. -/
def demoRelay : PwospfSubsys :=
  { demoStart with
    top := ⟨[newRouter 0 7 0], 0, 1⟩
    interfaces := [⟨0x0200000a, 0xfeffffff, eth0Interface, 5, #v[0, 0, 0, 0, 0, 2],
      (DynArray.alloc defNbrBuf).store ⟨9, 0x0300000a, 100⟩⟩] }

/-- An LSU of router 8 at 10.0.0.2 without advertisements, with these TTLs in its two headers. -/
def demoLsu (ttl lsuTtl : UInt8) : Frame :=
  [0, 0, 0, 0, 0, 2, 0, 0, 0, 0, 0, 3, 8, 0,
    0x45, 0, 0, 52, 0, 0, 0, 0, ttl, 89, 0, 0, 10, 0, 0, 2, 10, 0, 0, 0,
    2, 4, 0, 32, 8, 0, 0, 0, 0, 0, 0, 0, 0xf5, 0xdb, 0, 0, 0, 0, 0, 0, 0, 0, 0, 0,
    1, 0, 0, lsuTtl, 0, 0, 0, 0]

theorem forwardLsu_losesHops_iff_demo :
    ∃ copies, forwardLsu demoRelay demoEnv (demoLsu 64 32) = .ok copies ∧ copies.length = 1 ∧
      ∀ c ∈ copies, LosesHops (demoLsu 64 32) c.frame := by
  have hruns : (forwardLsu demoRelay demoEnv (demoLsu 64 32)).map List.length = .ok 1 := by
    decide +kernel
  obtain ⟨copies, hrun, hone⟩ := map_eq_ok.mp hruns
  have hiff := @forwardLsu_losesHops_iff (demoLsu 64 32) demoRelay demoEnv 64 32 0x2000 0x0200000a
    rfl rfl rfl rfl copies hrun
  exact ⟨copies, hrun, hone, hiff.mpr (.inr (.inr (.inr (by decide))))⟩

/-- An LSU whose TTL is 0 already is flooded, with the TTL 255. -/
theorem hops_not_lost :
    ∃ out c, handlePwospf demoRelay demoEnv ⟨demoLsu 64 0, eth0Interface⟩ = .ok out ∧
      c ∈ out.copies ∧ ¬ LosesHops (demoLsu 64 0) c.frame := by
  have hruns : (handlePwospf demoRelay demoEnv ⟨demoLsu 64 0, eth0Interface⟩).map
      (fun out => out.copies.length) = .ok 1 := by
    decide +kernel
  obtain ⟨out, hrun, hone⟩ := map_eq_ok.mp hruns
  obtain ⟨c, hc⟩ := List.exists_mem_of_length_pos (Nat.lt_of_lt_of_eq Nat.zero_lt_one hone.symm)
  refine ⟨out, c, hrun, hc, ?_⟩
  intro h
  obtain ⟨t, l, t', l', -, hlsu, -, -, -, -, -, hless⟩ := h
  have hzero : (demoLsu 64 0).get lsuTtl = .ok 0 := rfl
  rw [hzero, Except.ok.injEq] at hlsu
  omega

end Demo

end PWOSPF
