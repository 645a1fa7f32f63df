import PWOSPF.Vns.PacketMessages

/-!
# Hardware information

The server lists the interfaces of the router in one message. `sr_handle_hwinfo` appends them to its
list, whatever other entries stand between, and the router starts if its routes are for interfaces that
it has.
-/

namespace PWOSPF

open Framework VnsField PacketField

/-- The key and the value of an entry, as the server writes them. -/
abbrev HwBytes := UInt32 × List UInt8

/-- What an entry tells. -/
inductive HwItem
  | interface (name : IfName)
  | ethIp (ip : InAddr)
  | ether (addr : Mac)
  | other
  deriving DecidableEq, Repr

def hwItem (e : HwBytes) : HwItem :=
  if e.1 = hwInterface then .interface (cString e.2)
  else if e.1 = hwEthIp then .ethIp (.ofNat (leValue (e.2.take 4)))
  else if e.1 = hwEther then .ether (macOf (e.2.take 6))
  else .other

def HwItem.apply (env : Env) (sr : SrInstance) : HwItem → Exec SrInstance
  | .interface name => .ok (srAddInterface env sr name)
  | .ethIp ip => srSetEtherIp sr ip
  | .ether addr => srSetEtherAddr sr addr
  | .other => .ok sr

def encodeEntry (e : HwBytes) : List UInt8 := netBytes 4 e.1.toNat ++ e.2

/-- The message with these entries. -/
def hwMessage (es : List HwBytes) : Frame :=
  netBytes 4 (sizeofBase + es.length * sizeofHwEntry) ++ netBytes 4 vnsHwinfo.toNat ++
    es.flatMap encodeEntry

/-- The items list these interfaces one after the other, each with its two addresses. -/
inductive Described : List HwItem → List SrIf → Prop
  | nil : Described [] []
  | ipFirst {items : List HwItem} {ifs : List SrIf} (iface : SrIf) (h : Described items ifs) :
      Described (.interface iface.name :: .ethIp iface.ip :: .ether iface.addr :: items) (iface :: ifs)
  | etherFirst {items : List HwItem} {ifs : List SrIf} (iface : SrIf) (h : Described items ifs) :
      Described (.interface iface.name :: .ether iface.addr :: .ethIp iface.ip :: items) (iface :: ifs)

variable {cfg : VnsConfig} {host : VnsHost} {sr : SrInstance} {env : Env} {f : Frame}
  {es : List HwBytes} {items : List HwItem} {ifs : List SrIf}

/-! ## The interfaces -/

theorem setLastIf_concat (g : SrIf → SrIf) (l : List SrIf) (iface : SrIf) :
    setLastIf g (l ++ [iface]) = .ok (l ++ [g iface]) := by
  induction l with
  | nil => rfl
  | cons x l ih =>
    cases l with
    | nil => rfl
    | cons y l =>
      rw [List.cons_append, List.cons_append, setLastIf, ← List.cons_append, ih, ok_bind]
      rfl

/-- Items without effect may be left out. -/
theorem foldlM_acting (env : Env) (items : List HwItem) (sr : SrInstance) :
    items.foldlM (HwItem.apply env) sr =
      (items.filter fun item => item ≠ .other).foldlM (HwItem.apply env) sr := by
  induction items generalizing sr with
  | nil => rfl
  | cons item items ih =>
    by_cases hother : item = .other
    · subst hother
      rw [List.foldlM_cons, List.filter_cons_of_neg (by simp)]
      exact ih sr
    · rw [List.foldlM_cons, List.filter_cons_of_pos (by simpa using hother), List.foldlM_cons]
      exact congrArg _ (funext ih)

/-- The interfaces that are described get into the list. What is in memory does not matter: both
addresses are overwritten. -/
theorem Described.foldlM (h : Described items ifs) (env : Env) (sr : SrInstance) :
    items.foldlM (HwItem.apply env) sr = .ok { sr with ifList := sr.ifList ++ ifs } := by
  induction h generalizing sr with
  | nil => rw [List.foldlM_nil, List.append_nil]; rfl
  | @ipFirst items ifs iface h ih =>
    rw [List.foldlM_cons, HwItem.apply, ok_bind, List.foldlM_cons, HwItem.apply, srSetEtherIp,
      srAddInterface]
    simp only [setLastIf_concat, ok_bind, pure_eq_ok]
    rw [List.foldlM_cons, HwItem.apply, srSetEtherAddr]
    simp only [setLastIf_concat, ok_bind, pure_eq_ok, ih, List.append_assoc, List.singleton_append]
  | @etherFirst items ifs iface h ih =>
    rw [List.foldlM_cons, HwItem.apply, ok_bind, List.foldlM_cons, HwItem.apply, srSetEtherAddr,
      srAddInterface]
    simp only [setLastIf_concat, ok_bind, pure_eq_ok]
    rw [List.foldlM_cons, HwItem.apply, srSetEtherIp]
    simp only [setLastIf_concat, ok_bind, pure_eq_ok, ih, List.append_assoc, List.singleton_append]

/-! ## The message -/

theorem encodeEntry_length {e : HwBytes} (h : e.2.length = 32) :
    (encodeEntry e).length = sizeofHwEntry := by
  rw [encodeEntry, List.length_append, netBytes_length, h]
  rfl

/-- One turn of the loop. -/
theorem hwEntry_eq {e : HwBytes} {rest : List UInt8} {i : Nat} (he : e.2.length = 32)
    (hf : f.drop (sizeofBase + i * sizeofHwEntry) = encodeEntry e ++ rest) :
    hwEntry env f sr i = (hwItem e).apply env sr := by
  have hlong : sizeofBase + i * sizeofHwEntry + sizeofHwEntry ≤ f.length := by
    have hlen := congrArg List.length hf
    rw [List.length_drop, List.length_append, encodeEntry_length he, sizeofHwEntry] at hlen
    rw [sizeofHwEntry]
    omega
  have hkey : slice f (sizeofBase + i * sizeofHwEntry) 4 = netBytes 4 e.1.toNat := by
    rw [slice, hf, encodeEntry, List.append_assoc]
    exact List.take_left' (netBytes_length 4 _)
  have hvalue : slice f (sizeofBase + i * sizeofHwEntry + 4) 32 = e.2 := by
    rw [slice, ← List.drop_drop, hf, encodeEntry, List.append_assoc, List.drop_left' (netBytes_length 4 _)]
    exact List.take_left' he
  have hget : f.get ⟨sizeofBase + i * sizeofHwEntry, 4⟩ = .ok (leValue (netBytes 4 e.1.toNat)) := by
    have hin : sizeofBase + i * sizeofHwEntry + 4 ≤ f.length := Nat.le_trans (by
      rw [sizeofHwEntry]
      omega) hlong
    rw [Frame.get, Frame.load, if_pos hin, ← hkey]
    rfl
  have hload : f.load (sizeofBase + i * sizeofHwEntry + 4) 32 = .ok e.2 := by
    have hin : sizeofBase + i * sizeofHwEntry + 4 + 32 ≤ f.length := by
      rw [sizeofHwEntry] at hlong ⊢
      omega
    rw [Frame.load, if_pos hin, hvalue]
  have hnet : ntohl (.ofNat (leValue (netBytes 4 e.1.toNat))) = e.1 := by
    rw [ntohl_leValue (netBytes_length 4 _), netBytes, List.reverse_reverse,
      leValue_leBytes 4 _ e.1.toNat_lt, UInt32.ofNat_toNat]
  rw [hwEntry]
  simp only [hget, hload, hnet, ok_bind, hwItem]
  by_cases h₁ : e.1 = hwInterface
  · rw [if_pos h₁, if_pos h₁]
    rfl
  · rw [if_neg h₁, if_neg h₁]
    by_cases h₂ : e.1 = hwEthIp
    · rw [if_pos h₂, if_pos h₂]
      rfl
    · rw [if_neg h₂, if_neg h₂]
      by_cases h₃ : e.1 = hwEther
      · rw [if_pos h₃, if_pos h₃]
        rfl
      · rw [if_neg h₃, if_neg h₃]
        rfl

/-- The loop goes through the entries. -/
theorem foldlM_hwEntry {k : Nat} {rest : List UInt8} (hes : ∀ e ∈ es, e.2.length = 32)
    (hf : f.drop (sizeofBase + k * sizeofHwEntry) = es.flatMap encodeEntry ++ rest) :
    (List.range' k es.length).foldlM (hwEntry env f) sr =
      (es.map hwItem).foldlM (HwItem.apply env) sr := by
  induction es generalizing k sr with
  | nil => rfl
  | cons e es ih =>
    have he := hes e List.mem_cons_self
    rw [List.flatMap_cons, List.append_assoc] at hf
    have hnext : f.drop (sizeofBase + (k + 1) * sizeofHwEntry) = es.flatMap encodeEntry ++ rest := by
      rw [Nat.succ_mul, ← Nat.add_assoc, ← List.drop_drop, hf, List.drop_left' (encodeEntry_length he)]
    rw [List.length_cons, List.range'_succ, List.foldlM_cons, List.map_cons, List.foldlM_cons,
      hwEntry_eq he hf]
    congr 1
    funext sr'
    exact ih (fun e' he' => hes e' (List.mem_cons_of_mem _ he')) hnext

theorem flatMap_encodeEntry_length (hes : ∀ e ∈ es, e.2.length = 32) :
    (es.flatMap encodeEntry).length = es.length * sizeofHwEntry := by
  induction es with
  | nil => rfl
  | cons e es ih =>
    rw [List.flatMap_cons, List.length_append, encodeEntry_length (hes e List.mem_cons_self),
      ih fun e' he' => hes e' (List.mem_cons_of_mem _ he'), List.length_cons, Nat.succ_mul, Nat.add_comm]

theorem hwMessage_length (hes : ∀ e ∈ es, e.2.length = 32) :
    (hwMessage es).length = sizeofBase + es.length * sizeofHwEntry := by
  rw [hwMessage, List.length_append, List.length_append, netBytes_length, netBytes_length,
    flatMap_encodeEntry_length hes]
  rfl

/-- It is a command. -/
theorem hwMessage_framed (hes : ∀ e ∈ es, e.2.length = 32)
    (hfits : sizeofBase + es.length * sizeofHwEntry ≤ 10000) :
    WellFramed (hwMessage es) ∧ commandOf (hwMessage es) = vnsHwinfo := by
  have hlen := hwMessage_length hes
  have hhead : (netBytes 4 (sizeofBase + es.length * sizeofHwEntry)).length = 4 := netBytes_length 4 _
  have htype : slice (hwMessage es) 4 4 = netBytes 4 vnsHwinfo.toNat := by
    rw [slice, hwMessage, List.append_assoc, List.drop_left' hhead]
    exact List.take_left' (netBytes_length 4 _)
  refine ⟨⟨?_, ?_, ?_⟩, ?_⟩
  · rw [hlen]
    exact Nat.le_add_right _ _
  · rw [hlen]
    exact hfits
  · rw [hlen, slice, List.drop_zero, hwMessage, List.append_assoc]
    exact List.take_left' hhead
  · rw [commandOf, htype, netBytes, List.reverse_reverse, leValue_leBytes 4 _ (by decide)]
    rfl

/-- The interfaces of the message get into the list. -/
theorem srHandleHwinfo_eq (hes : ∀ e ∈ es, e.2.length = 32)
    (hfits : sizeofBase + es.length * sizeofHwEntry ≤ 10000)
    (hitems : Described ((es.map hwItem).filter fun item => item ≠ .other) ifs) :
    srHandleHwinfo env sr (hostOrder (hwMessage es)) = .ok { sr with ifList := sr.ifList ++ ifs } := by
  have hframed := (hwMessage_framed hes hfits).1
  obtain ⟨hlen, hslice, hdrop⟩ := slice_hostOrder hframed.long
  obtain ⟨v, hget, hv⟩ := @mLen_get (hostOrder (hwMessage es)) (by rw [hlen]; exact hframed.long)
    (by rw [hslice, hlen]; exact hframed.len)
    (by rw [hlen]; exact Nat.lt_of_le_of_lt hframed.short (by decide))
  have hcount : ((ntohl (.ofNat v)).toNat - sizeofBase) / sizeofHwEntry = es.length := by
    rw [hv, hlen, hwMessage_length hes, Nat.add_sub_cancel_left, Nat.mul_div_cancel _ (by decide)]
  have hentries : (hostOrder (hwMessage es)).drop (sizeofBase + 0 * sizeofHwEntry) =
      es.flatMap encodeEntry ++ [] := by
    rw [Nat.zero_mul, Nat.add_zero, hdrop, List.append_nil, hwMessage]
    exact List.drop_left' (by rw [List.length_append, netBytes_length, netBytes_length]; rfl)
  rw [srHandleHwinfo, hget, ok_bind]
  simp only [hcount]
  rw [List.range_eq_range', foldlM_hwEntry hes hentries, foldlM_acting, hitems.foldlM]

/-! ## Starting -/

/-- The routes are for interfaces of the router, and there are some. -/
structure Consistent (sr : SrInstance) : Prop where
  interfaces : sr.ifList ≠ []
  routes : sr.routingTable ≠ []
  known : ∀ rt ∈ sr.routingTable, ∃ iface ∈ sr.ifList, iface.name = rt.interface

theorem srVerifyRoutingTable_eq_zero : srVerifyRoutingTable sr = 0 ↔ Consistent sr := by
  rw [srVerifyRoutingTable]
  by_cases hempty : sr.ifList = [] ∨ sr.routingTable = []
  · rw [if_pos hempty]
    refine ⟨fun h => absurd h (by decide), fun h => ?_⟩
    exact absurd hempty (not_or.mpr ⟨h.interfaces, h.routes⟩)
  · obtain ⟨hifs, hroutes⟩ := not_or.mp hempty
    rw [if_neg hempty, List.countP_eq_zero]
    constructor
    · intro h
      refine ⟨hifs, hroutes, fun rt hrt => ?_⟩
      have hsome := h rt hrt
      simpa using hsome
    · intro h rt hrt
      obtain ⟨iface, hmem, hname⟩ := h.known rt hrt
      simpa using ⟨iface, hmem, hname⟩

instance (sr : SrInstance) : Decidable (Consistent sr) := decidable_of_iff _ srVerifyRoutingTable_eq_zero

variable {x : VnsClient}

/-- Whatever else the message tells: its interfaces are appended, and the router starts with them if its
routes are for interfaces that it has. Otherwise the session ends. -/
theorem serve_hwMessage (hphase : x.phase = .running) (hes : ∀ e ∈ es, e.2.length = 32)
    (hfits : sizeofBase + es.length * sizeofHwEntry ≤ 10000)
    (hitems : Described ((es.map hwItem).filter fun item => item ≠ .other) ifs) :
    x.serve cfg host (hwMessage es) = .ok
      (if Consistent { x.sr with ifList := x.sr.ifList ++ ifs } then
        { x with
          sr := { x.sr with ifList := x.sr.ifList ++ ifs }
          done := x.done ++ [.starts { x.sr with ifList := x.sr.ifList ++ ifs }] }
      else { x with
        phase := .ended
        sr := { x.sr with ifList := x.sr.ifList ++ ifs } }) := by
  have hne : ¬ x.phase = .ended := by
    rw [hphase]
    exact VnsPhase.noConfusion
  have hexpects : x.phase.expects = none := by rw [hphase]; rfl
  rw [VnsClient.serve, if_neg hne, (hwMessage_framed hes hfits).2, VnsClient.receive, hexpects]
  show (do
    let out ← handleCommand cfg host x.sr (hostOrder (hwMessage es)) vnsHwinfo
    _) = _
  rw [handleCommand, if_neg (by decide), if_neg (by decide), if_pos rfl, srHandleHwinfo_eq hes hfits hitems,
    ok_bind]
  generalize ({ x.sr with ifList := x.sr.ifList ++ ifs } : SrInstance) = sr'
  by_cases hconsistent : Consistent sr'
  · have hzero := srVerifyRoutingTable_eq_zero.mpr hconsistent
    simp only [hzero, ne_eq, not_true_eq_false, if_false, pure_eq_ok, ok_bind, if_true,
      VnsClient.proceed, hphase, if_pos hconsistent]
  · have hzero : srVerifyRoutingTable sr' ≠ 0 := fun h =>
      hconsistent (srVerifyRoutingTable_eq_zero.mp h)
    simp only [if_pos hzero, pure_eq_ok, ok_bind, if_neg hconsistent,
      show ¬ (-1 : Int) = 1 by decide, if_false, VnsClient.close, List.append_nil]

end PWOSPF
