import PWOSPF.Subsystem.HelloFormat
import PWOSPF.Subsystem.LsuSurvival
import PWOSPF.Subsystem.ReadBounds

/-!
# Corrupted packets

The checksum of a PWOSPF packet covers the 16 bytes of its header in front of the authentication
data: senders, relays and receivers agree on `sizeof(struct ospfv2_hdr) - 8`. A byte changed there is
noticed by every router, and a byte changed behind them by none.
-/

namespace PWOSPF

open Framework Topo PacketField

/-- A copy that `send_HELLO` or `send_lsu` hands over. -/
inductive Sent (S : PwospfSubsys) (env : Env) (c : Handoff) : Prop
  | hello {copies : List Handoff} (h : sendHello S env = .ok copies) (hc : c ∈ copies)
  | lsu {sr : SrInstance} {S' : PwospfSubsys} {copies : List Handoff}
      (h : sendLsu sr S env = .ok (S', copies)) (hc : c ∈ copies)

/-- The header passes the checks of the routers of the area. -/
structure Sealed (f : Frame) (area : UInt32) : Prop where
  version : f.get ospfVersion = .ok ospfV2
  aid : f.get ospfAid = .ok (htonl area).toNat
  autype : f.get ospfAutype = .ok 0
  csum : ∃ c, ospfSum f = .ok c ∧ f.get ospfCsum = .ok (htons c).toNat

variable {f f' : Frame} {area : UInt32} {S R : PwospfSubsys} {env env' : Env} {c : Handoff}
  {name : IfName} {i : Nat} {b : UInt8}

/-! ## The covered bytes -/

theorem Sealed.accepted (h : Sealed f area) (hR : InArea area R) :
    ∃ f', checkPwospf R f = .ok (some f') := by
  obtain ⟨c, hsum, hcsum⟩ := h.csum
  obtain ⟨f', hclear⟩ := Frame.set_exists (Frame.get_bounds hcsum) 0
  exact ⟨f', checkPwospf_passes hR h.version hsum hcsum h.aid h.autype hclear⟩

theorem Sealed.sumsUp (h : Sealed f area) : SumsUp f ospfStart (sizeofOspf - 8) := by
  obtain ⟨c, hsum, hcsum⟩ := h.csum
  exact sumsUp_of_ospfSum hsum hcsum

/-- Only the covered bytes matter. -/
theorem Sealed.congr (h : Sealed f area) (hlen : 50 ≤ f.length) (hlen' : 50 ≤ f'.length)
    (hsame : slice f' ospfStart (sizeofOspf - 8) = slice f ospfStart (sizeofOspf - 8)) :
    Sealed f' area := by
  have hget : ∀ b : PacketField, ospfStart ≤ b.offset → b.offset + b.width ≤ 50 →
      f'.get b = f.get b := fun b => Frame.get_of_window hsame hlen hlen'
  obtain ⟨c, hsum, hcsum⟩ := h.csum
  refine ⟨?_, ?_, ?_, c, ?_, ?_⟩
  · rw [hget _ (by decide) (by decide), h.version]
  · rw [hget _ (by decide) (by decide), h.aid]
  · rw [hget _ (by decide) (by decide), h.autype]
  · rw [ospfSum_eq hlen', hsame, ← ospfSum_eq hlen, hsum]
  · rw [hget _ (by decide) (by decide), hcsum]

/-- Changing a covered byte breaks the checksum, whatever the router that looks at it. -/
theorem Sealed.rejected (h : Sealed f area) (hlen : 50 ≤ f.length) (hlo : ospfStart ≤ i)
    (hhi : i < 50) (hb : f[i]? ≠ some b) :
    handlePwospf R env ⟨List.set f i b, name⟩ = .ok (.dropped R) := by
  have hin : i - ospfStart < (slice f ospfStart (sizeofOspf - 8)).length := by
    rw [slice_length hlen]
    exact Nat.sub_lt_left_of_lt_add hlo hhi
  have hne : b ≠ (slice f ospfStart (sizeofOspf - 8))[i - ospfStart] := by
    intro heq
    apply hb
    have hbyte := slice_getElem? f ospfStart (sizeofOspf - 8) (i - ospfStart)
    rw [List.getElem?_eq_getElem hin, if_pos (Nat.sub_lt_left_of_lt_add hlo hhi),
      Nat.add_sub_cancel' hlo, ← heq] at hbyte
    exact hbyte.symm
  have hbroken : ¬ SumsUp (List.set f i b) ospfStart (sizeofOspf - 8) := by
    intro hup
    have hold := h.sumsUp
    rw [SumsUp, slice_set_inside f hlo] at hup
    rw [SumsUp] at hold
    exact inetChecksum_set_ne hin hne (hup.trans hold.symm)
  have hlen' : ospfStart + sizeofOspf - 8 ≤ (List.set f i b).length := by
    rw [List.length_set]
    exact hlen
  obtain ⟨_, _, _, _, _, _, _, f', -, -, -, -, -, -, -, -, hcheck⟩ := checkPwospf_eq (S := R) hlen'
  rw [handlePwospf, hcheck]
  split at hcheck
  · exact absurd (checkPwospf_accepts hcheck).2 hbroken
  · rw [if_neg ‹_›]
    rfl

/-! ## What is sent -/

theorem sendHello_sealed {copies : List Handoff} (h : sendHello S env = .ok copies) :
    ∀ c ∈ copies, Sealed c.frame S.areaId := by
  have hthis : ∃ this, S.top.find S.top.thisRouter = some this := by
    obtain ⟨f₁, -, hrest⟩ := bind_eq_ok.mp h
    obtain ⟨f₂, -, hrest⟩ := bind_eq_ok.mp hrest
    obtain ⟨this, hthis, -⟩ := bind_eq_ok.mp hrest
    exact ⟨this, deref_eq_ok_iff.mp hthis⟩
  have hifs : S.interfaces ≠ [] := by
    intro hnone
    obtain ⟨f₁, -, hrest⟩ := bind_eq_ok.mp h
    obtain ⟨f₂, -, hrest⟩ := bind_eq_ok.mp hrest
    obtain ⟨this, -, hrest⟩ := bind_eq_ok.mp hrest
    obtain ⟨f₃, -, hrest⟩ := bind_eq_ok.mp hrest
    rw [if_pos hnone] at hrest
    cases hrest
  obtain ⟨this, hthis⟩ := hthis
  obtain ⟨copies', hsent, hcopies⟩ := sendHello_spec hthis hifs env
  rw [h, Except.ok.injEq] at hsent
  subst hsent
  have hseal : ∀ (c : Handoff) (i : PwospfIflist), c.iface = i.name ∧ c.awaits = none ∧
      SaysHello c.frame S.areaId this.rid i → Sealed c.frame S.areaId :=
    fun c i hc => ⟨hc.2.2.version, hc.2.2.aid, hc.2.2.autype, hc.2.2.csum⟩
  exact ((List.forall₂_and_left _ _).mp
    (hcopies.imp fun c i hc => And.intro (hseal c i hc) hc)).1

/-- Also of an LSU whose size does not fit into 16 bits a copy has the whole header, unless it is cut
off inside it. -/
theorem sendLsu_sealed {sr : SrInstance} {S' : PwospfSubsys} {copies : List Handoff}
    (h : sendLsu sr S env = .ok (S', copies)) :
    ∀ c ∈ copies, 50 ≤ c.frame.length → Sealed c.frame S.areaId := by
  obtain ⟨this, hthis, h⟩ := bind_eq_ok.mp h
  obtain ⟨p₁, h₁, h⟩ := bind_eq_ok.mp h
  obtain ⟨p₂, h₂, h⟩ := bind_eq_ok.mp h
  obtain ⟨csum, hsum, h⟩ := bind_eq_ok.mp h
  obtain ⟨p₃, h₃, h⟩ := bind_eq_ok.mp h
  obtain ⟨x, hflood, h⟩ := bind_eq_ok.mp h
  cases h
  have hip : ((ipFields csum (.ofNat (sizeofOspf + sizeofLsu +
      sizeofAdv * (generateAdv this sr).length))).map Prod.fst).Pairwise Apart := by
    simp only [ipFields, List.map]
    decide
  have hfield := @field_stored sr S this p₁ p₂ p₃ csum _ h₂ h₃
  have hcsum : p₃.get ospfCsum = .ok (htons csum).toNat :=
    Frame.get_assign h₃ hip List.mem_cons_self (UInt16.toNat_lt _)
  have hsealed : Sealed p₃ S.areaId :=
    { version := hfield (by simp [lsuFields]) (by decide)
      aid := hfield (by simp [lsuFields]) (UInt32.toNat_lt _)
      autype := hfield (by simp [lsuFields, ospfDefaultAuthkey]) (by decide)
      csum := ⟨csum, ospfSum_stored h₂ hsum h₃, hcsum⟩ }
  have hmin : ospfStart ≤ p₃.length := Nat.le_trans (by decide) (Frame.get_bounds hcsum)
  intro c hc hlen
  obtain ⟨full, hfull, hsize, hcut⟩ := flood_copies env (fun _ => false) hmin hflood c hc
  have hlen₃ : c.frame.length ≤ p₃.length := by
    rw [hcut, List.length_take, hfull.length]
    exact Nat.min_le_right _ _
  apply hsealed.congr (Nat.le_trans hlen hlen₃) hlen
  rw [hcut, List.length_take] at hlen
  rw [hcut, slice_take full (Nat.le_trans hlen (Nat.min_le_left _ _)),
    hfull.slice_body (Nat.le_refl _)]

theorem Sent.sealed (h : Sent S env c) (hlen : 50 ≤ c.frame.length) : Sealed c.frame S.areaId := by
  cases h with
  | hello h hc => exact sendHello_sealed h c hc
  | lsu h hc => exact sendLsu_sealed h c hc hlen

/-! ## Corruption -/

/-- A HELLO or LSU with one of the covered bytes changed is dropped by every router, which stays as it
was (or, if an oversized LSU was cut off inside its header, is read behind its end). The other bytes
are not covered: changing one of them keeps the packet acceptable in the whole area. -/
theorem corruption_detected (h : Sent S env c) (hlo : ospfStart ≤ i) (hin : i < c.frame.length)
    (hb : c.frame[i] ≠ b) :
    (i < 50 → handlePwospf R env' ⟨List.set c.frame i b, name⟩ = .ok (.dropped R) ∨
      c.frame.length < 50 ∧
        handlePwospf R env' ⟨List.set c.frame i b, name⟩ = .error .outOfBounds) ∧
    (50 ≤ i → InArea S.areaId R →
      ∃ f', checkPwospf R (List.set c.frame i b) = .ok (some f')) := by
  constructor
  · intro hhi
    by_cases hlen : 50 ≤ c.frame.length
    · apply Or.inl
      apply (h.sealed hlen).rejected hlen hlo hhi
      rw [List.getElem?_eq_getElem hin]
      exact fun heq => hb (Option.some.inj heq)
    · have hshort : (List.set c.frame i b).length < ospfStart + sizeofOspf - 8 := by
        rw [List.length_set]
        exact Nat.not_le.mp hlen
      cases checkPwospf_short (S := R) hshort with
      | inl hversion =>
        obtain ⟨v, -, -, hcheck⟩ := hversion
        apply Or.inl
        rw [handlePwospf, hcheck]
        rfl
      | inr hout =>
        refine Or.inr ⟨Nat.not_le.mp hlen, ?_⟩
        rw [handlePwospf, hout.2]
        rfl
  · intro hhi hR
    have hlen : 50 ≤ c.frame.length := Nat.le_trans hhi (Nat.le_of_lt hin)
    apply Sealed.accepted _ hR
    apply (h.sealed hlen).congr hlen (by rw [List.length_set]; exact hlen)
    exact slice_set_outside _ (Or.inr hhi) b

section Demo

theorem corruption_detected_demo : ∃ c, Sent demoOrigin demoEnv c ∧
    handlePwospf demoReceiver demoEnv ⟨List.set c.frame 38 9, eth0Interface⟩ =
      .ok (.dropped demoReceiver) := by
  have hruns : (sendHello demoOrigin demoEnv).map
      (fun copies => copies.map fun c => (c.frame.length, c.frame[38]?)) = .ok [(66, some 10)] := by
    decide +kernel
  obtain ⟨copies, hrun, hcopies⟩ := map_eq_ok.mp hruns
  obtain ⟨c, rfl, hc⟩ := List.map_eq_singleton_iff.mp hcopies
  obtain ⟨hlen, hbyte⟩ := Prod.mk.inj hc
  have hin : 38 < c.frame.length := by
    rw [hlen]
    decide
  have hb : c.frame[38] ≠ 9 := by
    rw [List.getElem?_eq_getElem hin, Option.some.injEq] at hbyte
    rw [hbyte]
    decide
  have hsent : Sent demoOrigin demoEnv c := .hello hrun List.mem_cons_self
  cases (corruption_detected hsent (by decide) hin hb).1 (by decide) with
  | inl hdropped => exact ⟨c, hsent, hdropped⟩
  | inr hshort => exact absurd hshort.1 (by rw [hlen]; decide)

/-- With another subnet in its advertisement the LSU of `demoOrigin` still passes, and is merged. -/
theorem corruption_undetected : ∃ c out, Sent demoOrigin demoEnv c ∧ c.frame[66]? = some 10 ∧
    handlePwospf demoReceiver demoEnv ⟨List.set c.frame 66 9, eth0Interface⟩ = .ok out ∧
    out.subsys.top ≠ demoReceiver.top := by
  have hruns : (sendLsu demoRouted demoOrigin demoEnv).map (fun x => x.2.map fun c =>
      (c.frame[66]?, (handlePwospf demoReceiver demoEnv
        ⟨List.set c.frame 66 9, eth0Interface⟩).map fun out =>
          decide (out.subsys.top = demoReceiver.top))) = .ok [(some 10, .ok false)] := by
    decide +kernel
  obtain ⟨x, hrun, hcopies⟩ := map_eq_ok.mp hruns
  obtain ⟨c, hx, hc⟩ := List.map_eq_singleton_iff.mp hcopies
  obtain ⟨hbyte, hmerged⟩ := Prod.mk.inj hc
  obtain ⟨out, hout, htop⟩ := map_eq_ok.mp hmerged
  refine ⟨c, out, .lsu hrun ?_, hbyte, hout, of_decide_eq_false htop⟩
  rw [hx]
  exact List.mem_singleton_self c

end Demo

end PWOSPF
