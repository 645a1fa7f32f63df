import PWOSPF.Area.Integrity
import PWOSPF.Framework.Flood

/-!
# Reliable flooding

An LSU on its way through an area is a flood of news: the routers are the nodes, the copies of the LSU
the copies, and every step of the area is a step of the flood or changes nothing of it, whatever the
other routers flood meanwhile. So the LSU gets to every router that links lead to, if no copy for a
router is lost for good.
-/

namespace PWOSPF

open Framework Topo PacketField

/-! ## The flood of an LSU -/

/-- A packet with an LSU of this router id is a copy between the routers that have its addresses. -/
def floodCopy {ι : Type} (owner : InAddr → Option ι) (id : UInt32) (f : Frame) :
    Option (FloodCopy ι) :=
  match f.get ospfType, f.get ospfRid, f.get lsuTtl, f.get ipSrc, f.get ipDst with
  | .ok type, .ok rid, .ok ttl, .ok src, .ok dst =>
    if type = ospfTypeLsu ∧ .ofNat rid = id then
      (owner (.ofNat src)).map fun i => ⟨i, owner (.ofNat dst), ttl⟩
    else none
  | _, _, _, _, _ => none

/-- The routers that know the LSU of `o` are those that merged it. -/
def Area.flood {ι : Type} [Fintype ι] [DecidableEq ι] (owner : InAddr → Option ι) (o : ι) (l : Lsu)
    (a : Area ι) : Flood ι where
  informed := Finset.univ.filter fun i => i = o ∨ (l.rid, l.seq) ∈ (a.nodes i).applied
  sent := a.wire.filterMap fun c => floodCopy owner l.rid c.frame
  taken := a.received.filterMap fun x => (floodCopy owner l.rid x.2.frame).map fun d => (x.1, d)

/-- Every link is in the neighbor table of the router it starts at. -/
def LinksUp {ι : Type} (owner : InAddr → Option ι) (link : ι → ι → Prop) (a : Area ι) : Prop :=
  ∀ i j, link i j →
    ∃ f ∈ (a.subsys i).interfaces, ∃ nbr ∈ f.neighbors.elems, owner nbr.ipAddress = some j

/-- No router expires. -/
def AreaInput.Quiet {ι : Type} (a : Area ι) : AreaInput ι → Prop
  | .receive _ _ _ _ => True
  | .timeout i clock => (Event.timeout clock).rebuilt (a.subsys i) = none
  | .sendLsu _ _ => True
  | .sendHello _ _ => True

instance {ι : Type} [Fintype ι] (owner : InAddr → Option ι) [DecidableEq ι] (link : ι → ι → Prop)
    [∀ i j, Decidable (link i j)] (a : Area ι) : Decidable (LinksUp owner link a) :=
  inferInstanceAs (Decidable (∀ _ _, _ → _))

instance {ι : Type} (a : Area ι) : (k : AreaInput ι) → Decidable (k.Quiet a)
  | .receive _ _ _ _ => .isTrue True.intro
  | .timeout i clock =>
    inferInstanceAs (Decidable ((Event.timeout clock).rebuilt (a.subsys i) = none))
  | .sendLsu _ _ => .isTrue True.intro
  | .sendHello _ _ => .isTrue True.intro

section Copies

variable {ι : Type} {owner : InAddr → Option ι} {link : ι → ι → Prop} {f : Frame} {area : UInt32}
  {l : Lsu} {ttl : Nat} {i : ι} {pair : PwospfIflist × NeighborList}

theorem CarriesBetween.floodCopy (h : CarriesBetween area l ttl f pair)
    (howner : owner pair.1.address = some i) :
    floodCopy owner l.rid f = some ⟨i, owner pair.2.ipAddress, ttl⟩ := by
  simp only [PWOSPF.floodCopy, h.carries.type, h.carries.rid, h.carries.lsuTtl, h.ipSrc, h.ipDst,
    UInt32.ofNat_toNat, howner, and_self, if_true, Option.map_some]

/-- The LSUs of other routers are not copies of this one. -/
theorem CarriesBetween.floodCopy_other (h : CarriesBetween area l ttl f pair) {id : UInt32}
    (hother : l.rid ≠ id) : PWOSPF.floodCopy owner id f = none := by
  simp only [PWOSPF.floodCopy, h.carries.type, h.carries.rid, h.carries.lsuTtl, h.ipSrc, h.ipDst,
    UInt32.ofNat_toNat, hother, and_false, if_false]

theorem SaysHello.floodCopy {rid : UInt32} {iface : PwospfIflist}
    (h : SaysHello f area rid iface) {id : UInt32} : floodCopy owner id f = none := by
  unfold PWOSPF.floodCopy
  split
  · next type _ ttl src dst htype _ _ _ _ =>
    rw [h.type, Except.ok.injEq] at htype
    rw [← htype, if_neg fun hlsu => absurd hlsu.1 (by decide)]
  · rfl

theorem floodCopy_others {copies : List Handoff} {pairs : List (PwospfIflist × NeighborList)}
    (h : List.Forall₂ (fun c => CarriesBetween area l ttl c.frame) copies pairs) {id : UInt32}
    (hother : l.rid ≠ id) : ∀ c ∈ copies, PWOSPF.floodCopy owner id c.frame = none := by
  intro c hc
  obtain ⟨pair, -, hcarries⟩ := exists_of_forall₂_left h hc
  exact hcarries.floodCopy_other hother

/-- What a router does with the LSU of another router. -/
theorem LsuTaken.others {R : PwospfSubsys} {env : Env} {src : InAddr} {out : Outcome}
    (h : LsuTaken R env area l ttl src out) {id : UInt32} (hother : l.rid ≠ id) :
    (∀ c ∈ out.copies, PWOSPF.floodCopy owner id c.frame = none) ∧
      ∀ seq, (id, seq) ∉ out.applied.toList := by
  cases h with
  | dropped _ hout =>
    rw [hout]
    exact ⟨fun c hc => absurd hc List.not_mem_nil, fun seq => List.not_mem_nil⟩
  | merged R' _ _ _ _ happlied hcopies =>
    refine ⟨floodCopy_others hcopies hother, fun seq hmem => ?_⟩
    rw [happlied, Option.toList_some, List.mem_singleton, Prod.mk.injEq] at hmem
    exact hother hmem.1.symm

theorem mem_floodPairs {skip : InAddr → Bool} {interfaces : List PwospfIflist} :
    pair ∈ floodPairs skip interfaces ↔
      pair.1 ∈ interfaces ∧ pair.2 ∈ pair.1.neighbors.elems ∧ skip pair.2.ipAddress = false := by
  obtain ⟨iface, nbr⟩ := pair
  simp [floodPairs]

/-- The copies for the neighbors of a router. -/
theorem floodCopy_copies {copies : List Handoff} {pairs : List (PwospfIflist × NeighborList)}
    (h : List.Forall₂ (fun c => CarriesBetween area l ttl c.frame) copies pairs)
    (howner : ∀ p ∈ pairs, owner p.1.address = some i) :
    copies.filterMap (fun c => floodCopy owner l.rid c.frame) =
      pairs.map fun p => ⟨i, owner p.2.ipAddress, ttl⟩ := by
  induction h with
  | nil => rfl
  | cons hc _ ih =>
    obtain ⟨hp, hrest⟩ := List.forall_mem_cons.mp howner
    rw [List.filterMap_cons, hc.floodCopy hp, List.map_cons, ih hrest]

/-- They go along all links but those that are skipped. -/
theorem spreads_pairs {a : Area ι} (hup : LinksUp owner link a) {skip : InAddr → Bool}
    {skipped : ι → Prop} (hskip : ∀ x j, skip x = true → owner x = some j → skipped j) (i : ι)
    (ttl : Nat) :
    Spreads link skipped i ttl ((floodPairs skip (a.subsys i).interfaces).map fun p =>
      ⟨i, owner p.2.ipAddress, ttl⟩) where
  src := by
    intro d hd
    obtain ⟨p, -, rfl⟩ := List.mem_map.mp hd
    rfl
  hops := by
    intro d hd
    obtain ⟨p, -, rfl⟩ := List.mem_map.mp hd
    rfl
  all := by
    intro j hij hj
    obtain ⟨iface, hiface, nbr, hnbr, howner⟩ := hup i j hij
    have hkeep : skip nbr.ipAddress = false := by
      by_contra hs
      exact hj (hskip _ j (by simpa using hs) howner)
    exact ⟨⟨i, owner nbr.ipAddress, ttl⟩, List.mem_map.mpr
      ⟨(iface, nbr), mem_floodPairs.mpr ⟨hiface, hnbr, hkeep⟩, rfl⟩, howner⟩

end Copies

/-! ## The area as a flood -/

/-- Ids and addresses tell the routers apart, there are at most as many as hops, and nobody has the
number of the LSU in store. -/
structure FloodSetup {ι : Type} [Fintype ι] (area : UInt32) (rid : ι → UInt32)
    (S₀ : ι → PwospfSubsys) (owner : InAddr → Option ι) (l : Lsu) : Prop where
  boots : Boots area rid S₀
  distinct : Function.Injective rid
  small : Fintype.card ι ≤ initTtl
  owned : ∀ i, ∀ f ∈ (S₀ i).interfaces, owner f.address = some i
  number : l.seq ≠ 0
  fresh : ∀ i, ∀ r ∈ (S₀ i).top.network, (r.rid, r.lastSeq) ≠ (l.rid, l.seq)

/-- The runs in which the links are up and no router expires. -/
abbrev FloodRun {ι : Type} [DecidableEq ι] (sr : ι → SrInstance) (owner : InAddr → Option ι)
    (link : ι → ι → Prop) (S₀ : ι → PwospfSubsys) (a : Area ι) : Prop :=
  Reach (AreaStep sr) (fun a k => k.Quiet a ∧ LinksUp owner link a) (.start S₀) a

section Flood

variable {ι : Type} [Fintype ι] [DecidableEq ι] {sr : ι → SrInstance} {a a' : Area ι}
  {k : AreaInput ι} {area : UInt32} {rid : ι → UInt32} {S₀ : ι → PwospfSubsys}
  {owner : InAddr → Option ι} {link : ι → ι → Prop} {o i : ι} {l : Lsu}

theorem mem_informed : i ∈ (a.flood owner o l).informed ↔
    i = o ∨ (l.rid, l.seq) ∈ (a.nodes i).applied := by
  simp [Area.flood]

/-- The flood goes on as it is if no LSU is handed over, taken or merged. -/
theorem flood_same (hinformed : ∀ i, (l.rid, l.seq) ∈ (a'.nodes i).applied ↔
      (l.rid, l.seq) ∈ (a.nodes i).applied) {copies : List Handoff} {takes : List (ι × Handoff)}
    (hwire : a'.wire = a.wire ++ copies) (hcopies : ∀ c ∈ copies, floodCopy owner l.rid c.frame = none)
    (hreceived : a'.received = a.received ++ takes)
    (htakes : ∀ x ∈ takes, floodCopy owner l.rid x.2.frame = none) :
    a'.flood owner o l = a.flood owner o l := by
  have hsent : copies.filterMap (fun c => floodCopy owner l.rid c.frame) = [] :=
    List.filterMap_eq_nil_iff.mpr hcopies
  have htaken : takes.filterMap
      (fun x => (floodCopy owner l.rid x.2.frame).map fun d => (x.1, d)) = [] :=
    List.filterMap_eq_nil_iff.mpr fun x hx => by rw [htakes x hx]; rfl
  simp only [Area.flood, hinformed, hwire, hreceived, List.filterMap_append, hsent, htaken,
    List.append_nil]

/-- If `o` issues nothing but the LSU, no other LSU has its router id. -/
theorem FloodSetup.only (hset : FloodSetup area rid S₀ owner l) (h : FloodRun sr owner link S₀ a)
    (hissued : numbersOf o a.issued = [l]) {o' : ι} {l' : Lsu} (hl' : (o', l') ∈ a.issued)
    (hrid : l'.rid = l.rid) : l' = l := by
  have hl : (o, l) ∈ a.issued := mem_numbersOf.mp (by rw [hissued]; exact List.mem_cons_self)
  have ho : o' = o := hset.distinct (by
    rw [← issued_rid hset.boots h hl', hrid, issued_rid hset.boots h hl])
  subst ho
  have hmem := mem_numbersOf.mpr hl'
  rw [hissued] at hmem
  exact List.mem_singleton.mp hmem

/-- The stored number of the LSU's originator, at a router that merged the LSU. -/
theorem stored_of_applied (hset : FloodSetup area rid S₀ owner l)
    (h : FloodRun sr owner link S₀ a) (hissued : numbersOf o a.issued = [l])
    (happlied : (l.rid, l.seq) ∈ (a.nodes i).applied) : getSequence (a.subsys i) l.rid = l.seq := by
  have hquiet : Reach NodeStep (fun n x => x.Quiet n) (.start (S₀ i)) (a.nodes i) := by
    refine node_of_area ?_ h i
    intro a k i x hok hlocal
    cases k with
    | receive | sendLsu => cases hlocal; exact True.intro
    | timeout j clock => cases hlocal; exact hok.1
    | sendHello => cases hlocal
  have hremembers := remembers (hset.boots.wf i) hquiet
  have hmem := mem_numbersOf.mpr happlied
  obtain ⟨seq, hlast⟩ : ∃ seq, (numbersOf l.rid (a.nodes i).applied).getLast? = some seq :=
    ⟨_, List.getLast?_eq_some_getLast (List.ne_nil_of_mem hmem)⟩
  obtain ⟨o', l', hl', heq⟩ := applied_issued hset.boots h i
    (mem_numbersOf.mp (List.mem_of_getLast? hlast))
  rw [Prod.mk.injEq] at heq
  rw [heq.2, hset.only h hissued hl' heq.1.symm] at hlast
  exact getSequence_of_lastSeqOf (hremembers.last l.rid l.seq hlast)

/-- A router drops the LSU if it knows it, and merges it otherwise. -/
theorem informed_of_dropped (hset : FloodSetup area rid S₀ owner l)
    (h : FloodRun sr owner link S₀ a) (hissued : numbersOf o a.issued = [l]) {env : Env} {ttl : Nat}
    {src : InAddr} {out : Outcome} (htaken : LsuTaken (a.subsys i) env area l ttl src out)
    (hdropped : out.applied = none) : i ∈ (a.flood owner o l).informed := by
  have hbooted := hset.boots.booted h i
  have hrid : l.rid = rid o :=
    issued_rid hset.boots h (mem_numbersOf.mp (by rw [hissued]; exact List.mem_cons_self))
  rw [mem_informed]
  by_cases hown : i = o
  · exact Or.inl hown
  · right
    have hother : (a.subsys i).top.ridOf (a.subsys i).top.thisRouter ≠ some l.rid := by
      rw [hbooted.rid, hrid, ne_eq, Option.some.injEq]
      exact fun he => hown (hset.distinct he)
    let base := (S₀ i).top.network.map fun r => (r.rid, r.lastSeq)
    have hbase : StoresOnly base (S₀ i).top := by
      intro p x hx
      obtain ⟨r, hr, rfl⟩ := Option.map_eq_some_iff.mp hx
      exact Or.inr (List.mem_map_of_mem (find_mem hr))
    have hstores := node_stores (hset.boots.wf i) hbase
      (anyNode_of_area h i)
    rcases drop_stored htaken hbooted.wf hstores hother hdropped with h0 | hmem
    · exact absurd h0 hset.number
    · rcases List.mem_append.mp hmem with hold | happlied
      · obtain ⟨r, hr, heq⟩ := List.mem_map.mp hold
        exact absurd heq (hset.fresh i r hr)
      · exact happlied

/-- The copies that a router makes of the LSU when it learns it. -/
theorem learn_spreads (hset : FloodSetup area rid S₀ owner l) (h : FloodRun sr owner link S₀ a)
    (hup : LinksUp owner link a) {src : InAddr} {j : ι} (hsrc : owner src = some j) {ttl : Nat}
    {copies : List Handoff}
    (hcopies : List.Forall₂ (fun c => CarriesBetween area l (ttl - 1) c.frame) copies
      (if 1 < ttl then floodPairs (fun a => a = src) (a.subsys i).interfaces else [])) :
    if 1 < ttl then
      Spreads link (fun k => k = j) i (ttl - 1)
        (copies.filterMap fun c => floodCopy owner l.rid c.frame)
    else copies.filterMap (fun c => floodCopy owner l.rid c.frame) = [] := by
  by_cases hlive : 1 < ttl
  · rw [if_pos hlive] at hcopies ⊢
    have howner : ∀ p ∈ floodPairs (fun a => a = src) (a.subsys i).interfaces,
        owner p.1.address = some i := by
      intro p hp
      obtain ⟨f, hf, hp⟩ := (hset.boots.booted h i).address p hp
      exact hp ▸ hset.owned i f hf
    rw [floodCopy_copies hcopies howner]
    apply spreads_pairs hup
    intro x k hx hk
    rw [of_decide_eq_true hx, hsrc, Option.some.injEq] at hk
    exact hk.symm
  · rw [if_neg hlive] at hcopies ⊢
    cases hcopies
    rfl

/-- A router takes a copy of the LSU. -/
theorem flood_take (hset : FloodSetup area rid S₀ owner l) (h : FloodRun sr owner link S₀ a)
    (hissued : numbersOf o a.issued = [l]) (hup : LinksUp owner link a) {env : Env} {c : Handoff}
    {out : Outcome} {n : Node} (hc : c ∈ a.wire) {ttl : Nat}
    {pair : PwospfIflist × NeighborList} (hcarries : CarriesBetween area l ttl c.frame pair)
    (hsrc : ∃ j, owner pair.1.address = some j)
    (htaken : LsuTaken (a.subsys i) env area l ttl pair.1.address out)
    (hn : n.applied = (a.nodes i).applied ++ out.applied.toList)
    (hnodes : a'.nodes = Function.update a.nodes i n) (hwire : a'.wire = a.wire ++ out.copies)
    (hreceived : a'.received = a.received ++ [(i, c)]) :
    ∃ x, FloodStep link (a.flood owner o l) x (a'.flood owner o l) := by
  obtain ⟨j, hj⟩ := hsrc
  have hcopy : floodCopy owner l.rid c.frame = some ⟨j, owner pair.2.ipAddress, ttl⟩ :=
    hcarries.floodCopy hj
  let d : FloodCopy ι := ⟨j, owner pair.2.ipAddress, ttl⟩
  have hsent : d ∈ (a.flood owner o l).sent := List.mem_filterMap.mpr ⟨c, hc, hcopy⟩
  have htook : (a'.flood owner o l).taken = (a.flood owner o l).taken ++ [(i, d)] := by
    simp only [Area.flood, hreceived, List.filterMap_append, List.filterMap_cons, hcopy,
      Option.map_some, List.filterMap_nil]
    rfl
  have hwire' : (a'.flood owner o l).sent = (a.flood owner o l).sent ++
      out.copies.filterMap fun c => floodCopy owner l.rid c.frame := by
    simp only [Area.flood, hwire, List.filterMap_append]
  have hlog : ∀ k, (l.rid, l.seq) ∈ (a'.nodes k).applied ↔
      (l.rid, l.seq) ∈ (a.nodes k).applied ∨ k = i ∧ out.applied = some (l.rid, l.seq) := by
    intro k
    rw [hnodes]
    by_cases hk : k = i
    · subst hk
      rw [Function.update_self, hn, List.mem_append, Option.mem_toList]
      simp
    · rw [Function.update_of_ne hk]
      simp [hk]
  refine ⟨(i, d), ?_⟩
  cases hmerged : out.applied with
  | none =>
    have hinformed := informed_of_dropped hset h hissued htaken hmerged
    have hcopies : out.copies = [] := by
      cases htaken with
      | dropped _ hout => rw [hout]; rfl
      | merged _ _ _ _ _ happlied _ =>
        rw [hmerged] at happlied
        cases happlied
    have hsame : a'.flood owner o l =
        { a.flood owner o l with taken := (a.flood owner o l).taken ++ [(i, d)] } := by
      rw [hcopies, List.filterMap_nil, List.append_nil] at hwire'
      refine Flood.ext ?_ hwire' htook
      ext k
      rw [mem_informed, mem_informed, hlog, hmerged]
      simp
    rw [hsame]
    exact .known hsent hinformed
  | some x =>
    cases htaken with
    | dropped _ hout =>
      rw [hout] at hmerged
      cases hmerged
    | merged R' hother hnew _ _ happlied hcopies =>
      have hfresh : i ∉ (a.flood owner o l).informed := by
        intro hi
        rcases mem_informed.mp hi with rfl | happl
        · have hrid : l.rid = rid i :=
            issued_rid hset.boots h (mem_numbersOf.mp (by rw [hissued]; exact List.mem_cons_self))
          exact hother (hrid ▸ (hset.boots.booted h i).rid)
        · exact hnew (stored_of_applied hset h hissued happl)
      have hsame : a'.flood owner o l = ⟨insert i (a.flood owner o l).informed,
          (a.flood owner o l).sent ++ out.copies.filterMap fun c => floodCopy owner l.rid c.frame,
          (a.flood owner o l).taken ++ [(i, d)]⟩ := by
        refine Flood.ext ?_ hwire' htook
        ext k
        rw [Finset.mem_insert, mem_informed, mem_informed, hlog, happlied]
        tauto
      rw [hsame]
      exact .learn _ hsent hfresh (learn_spreads hset h hup hj hcopies)

omit [Fintype ι] in
/-- A router whose log keeps the LSU as it was. -/
theorem applied_same {n : Node} (hnodes : a'.nodes = Function.update a.nodes i n)
    (hn : (l.rid, l.seq) ∈ n.applied ↔ (l.rid, l.seq) ∈ (a.nodes i).applied) (j : ι) :
    (l.rid, l.seq) ∈ (a'.nodes j).applied ↔ (l.rid, l.seq) ∈ (a.nodes j).applied := by
  rw [hnodes]
  by_cases hj : j = i
  · subst hj
    rw [Function.update_self, hn]
  · rw [Function.update_of_ne hj]

/-- A router takes a packet from the links: a copy of the LSU, one of another LSU, or a HELLO. -/
theorem flood_receive (hset : FloodSetup area rid S₀ owner l) (h : FloodRun sr owner link S₀ a)
    (hissued : numbersOf o a.issued = [l]) (hup : LinksUp owner link a) {env : Env} {c : Handoff}
    {ps : PacketState} {out : Outcome} {n : Node} (hc : c ∈ a.wire) (hdel : c.Delivers ps.packet)
    (hrun : handlePwospf (a.subsys i) env ps = .ok out)
    (hn : n.applied = (a.nodes i).applied ++ out.applied.toList)
    (hnodes : a'.nodes = Function.update a.nodes i n) (hwire : a'.wire = a.wire ++ out.copies)
    (hreceived : a'.received = a.received ++ [(i, c)]) :
    a'.flood owner o l = a.flood owner o l ∨
      ∃ x, FloodStep link (a.flood owner o l) x (a'.flood owner o l) := by
  cases wire_genuine hset.boots h c hc with
  | lsu o' l' ttl pair j hissued' hsrc hcarries =>
    have hdelivered := hcarries.delivered hdel
    have htaken := handlePwospf_taken hdelivered.carries (hset.boots.booted h i).toInArea
      hdelivered.ipSrc hrun
    rw [UInt32.ofNat_toNat] at htaken
    by_cases hown : l'.rid = l.rid
    · right
      obtain rfl := hset.only h hissued hissued' hown
      obtain ⟨f, hf, haddr⟩ := hsrc
      exact flood_take hset h hissued hup hc hcarries ⟨j, haddr ▸ hset.owned j f hf⟩ htaken hn hnodes
        hwire hreceived
    · -- another LSU that is flooded meanwhile
      obtain ⟨hnone, hother⟩ := @LsuTaken.others ι owner _ _ _ _ _ _ _ htaken _ hown
      refine Or.inl (flood_same (applied_same hnodes ?_) hwire hnone hreceived ?_)
      · rw [hn, List.mem_append]
        exact or_iff_left (hother l.seq)
      · intro x hx
        rw [List.mem_singleton.mp hx]
        exact hcarries.floodCopy_other hown
  | hello o' iface hnow _ hsays =>
    have hframe := hdel.eq_frame hnow
    obtain ⟨hnone, happlied⟩ :=
      (handlePwospf_helloTaken (hframe ▸ hsays.type) (hframe ▸ hsays.rid) hrun).silent
    refine Or.inl (flood_same (applied_same hnodes ?_) hwire ?_ hreceived ?_)
    · rw [hn, happlied, Option.toList_none, List.append_nil]
    · rw [hnone]
      exact fun c hc => absurd hc List.not_mem_nil
    · intro x hx
      rw [List.mem_singleton.mp hx]
      exact hsays.floodCopy

/-- Refinement: while the LSU is on its way, a step of the area is a step of its flood or changes
nothing of it. -/
theorem flood_refines (hset : FloodSetup area rid S₀ owner l) (h : FloodRun sr owner link S₀ a)
    (hissued : numbersOf o a.issued = [l]) (hup : LinksUp owner link a) (hstep : AreaStep sr a k a')
    (hissued' : numbersOf o a'.issued = [l]) :
    a'.flood owner o l = a.flood owner o l ∨
      ∃ x, FloodStep link (a.flood owner o l) x (a'.flood owner o l) := by
  obtain ⟨⟨copies, hcopies, hwire⟩, hlog, hreceived⟩ := hstep.logs
  have hbooted := fun i => hset.boots.booted h i
  have hnobody : ∀ x ∈ ([] : List (ι × Handoff)), floodCopy owner l.rid x.2.frame = none :=
    fun x hx => absurd hx List.not_mem_nil
  cases hstep.effect with
  | idle hlocal hnodes =>
    cases k with
    | receive | timeout | sendLsu => cases hlocal
    | sendHello i env =>
      refine Or.inl (flood_same (fun j => by rw [hnodes]) hwire ?_ hreceived hnobody)
      intro c hc
      obtain ⟨-, iface, -, hsays⟩ := sendHello_says (hbooted i).toInArea (hbooted i).rid hcopies c hc
      exact hsays.floodCopy
  | act i x n hlocal hn hnodes =>
    cases k with
    | receive j env c ps =>
      cases hlocal
      obtain ⟨out, hrun, hout⟩ := bind_eq_ok.mp hn
      obtain ⟨out', hrun', hout'⟩ := bind_eq_ok.mp hcopies
      have hone : out' = out := Except.ok.inj (hrun'.symm.trans hrun)
      subst hone
      cases hout
      cases hout'
      exact flood_receive hset h hissued hup hstep.1.1 hstep.1.2 hrun rfl hnodes hwire hreceived
    | timeout j clock =>
      cases hlocal
      obtain ⟨S', -, hS'⟩ := bind_eq_ok.mp hn
      cases hS'
      cases hcopies
      exact Or.inl (flood_same (applied_same hnodes Iff.rfl) hwire
        (fun c hc => absurd hc List.not_mem_nil) hreceived hnobody)
    | sendLsu j env =>
      cases hlocal
      obtain ⟨y, hrun, hy⟩ := bind_eq_ok.mp hcopies
      cases hy
      obtain ⟨S', -, hS'⟩ := bind_eq_ok.mp hn
      cases hS'
      obtain ⟨this, hthis, hcarries⟩ := sendLsu_carries hstep.1 hrun
      have hother : (ownLsu (sr i) (a.subsys i) this).rid ≠ l.rid := by
        intro hrid
        have hl : (o, l) ∈ a.issued := mem_numbersOf.mp (by rw [hissued]; exact List.mem_cons_self)
        have hi : i = o := hset.distinct (by
          rw [← (hbooted i).ownRid hthis, ← issued_rid hset.boots h hl]
          exact hrid)
        subst hi
        simp [hlog, AreaInput.issues, hthis, numbersOf_concat, hissued] at hissued'
      exact Or.inl (flood_same (applied_same hnodes Iff.rfl) hwire (floodCopy_others hcarries hother)
        hreceived hnobody)
    | sendHello j env => cases hlocal

/-! ## From the first copy on -/

/-- The step that issues the LSU starts the flood. -/
theorem flood_starts (hset : FloodSetup area rid S₀ owner l) (h : FloodRun sr owner link S₀ a)
    (hissued : numbersOf o a.issued = []) (hup : LinksUp owner link a) (hstep : AreaStep sr a k a')
    (hissued' : numbersOf o a'.issued = [l]) : (a'.flood owner o l).Starts link o initTtl := by
  obtain ⟨⟨copies, hcopies, hwire⟩, hlog, hreceived⟩ := hstep.logs
  have hbooted := fun i => hset.boots.booted h i
  cases k with
  | receive | timeout | sendHello =>
    rw [hlog, AreaInput.issues, List.append_nil, hissued] at hissued'
    cases hissued'
  | sendLsu i env =>
    obtain ⟨y, hrun, hy⟩ := bind_eq_ok.mp hcopies
    cases hy
    obtain ⟨this, hthis, hcarries⟩ := sendLsu_carries hstep.1 hrun
    have hone : i = o ∧ ownLsu (sr i) (a.subsys i) this = l := by
      simpa [hlog, AreaInput.issues, hthis, numbersOf_concat, hissued, ite_eq_iff] using hissued'
    obtain ⟨rfl, rfl⟩ := hone
    have hown := (hbooted i).ownRid hthis
    -- no LSU with the router id has been issued before
    have hnew : ∀ o' l', (o', l') ∈ a.issued → l'.rid ≠ (ownLsu (sr i) (a.subsys i) this).rid := by
      intro o' l' hl' hrid
      have ho : o' = i := hset.distinct (by rw [← issued_rid hset.boots h hl', hrid]; exact hown)
      subst ho
      have hmem := mem_numbersOf.mpr hl'
      rw [hissued] at hmem
      cases hmem
    rw [(hbooted i).areaId] at hcarries
    have hnone : ∀ c ∈ a.wire,
        floodCopy owner (ownLsu (sr i) (a.subsys i) this).rid c.frame = none := by
      intro c hc
      cases wire_genuine hset.boots h c hc with
      | lsu o' l' ttl pair j hl' _ hother => exact hother.floodCopy_other (hnew o' l' hl')
      | hello o' iface _ _ hsays => exact hsays.floodCopy
    have hbefore : a.wire.filterMap
        (fun c => floodCopy owner (ownLsu (sr i) (a.subsys i) this).rid c.frame) = [] :=
      List.filterMap_eq_nil_iff.mpr hnone
    have howner : ∀ p ∈ floodPairs (fun _ => false) (a.subsys i).interfaces,
        owner p.1.address = some i := by
      intro p hp
      obtain ⟨f, hf, hp⟩ := (hbooted i).address p hp
      exact hp ▸ hset.owned i f hf
    constructor
    · ext j
      rw [mem_informed, Finset.mem_singleton]
      refine or_iff_left ?_
      intro happlied
      -- nobody merges, and the LSU was not merged before
      cases hstep.effect with
      | idle hlocal => cases hlocal
      | act i' x n hlocal hn hnodes =>
        cases hlocal
        obtain ⟨S', -, hS'⟩ := bind_eq_ok.mp hn
        cases hS'
        obtain ⟨o', l', hl', heq⟩ :=
          applied_issued hset.boots h j ((applied_same hnodes Iff.rfl j).mp happlied)
        rw [Prod.mk.injEq] at heq
        exact hnew o' l' hl' heq.1.symm
    · simp only [Area.flood, hwire, List.filterMap_append, hbefore, List.nil_append]
      rw [floodCopy_copies hcarries howner]
      exact spreads_pairs hup (by intro x j hx; cases hx) i initTtl
    · simp only [Area.flood, hreceived, List.filterMap_append]
      refine List.append_eq_nil_iff.mpr ⟨List.filterMap_eq_nil_iff.mpr ?_, rfl⟩
      intro x hx
      exact congrArg (Option.map fun d => (x.1, d)) (hnone x.2 (received_wire h x hx))

theorem area_flood_sound (hset : FloodSetup area rid S₀ owner l) (h : FloodRun sr owner link S₀ a)
    (hissued : numbersOf o a.issued = [l]) : (a.flood owner o l).Sound link o initTtl := by
  induction h with
  | start => cases hissued
  | @next a a' k hreach hok hstep ih =>
    have hlog := hissued
    rw [hstep.logs.2.1, numbersOf_append] at hlog
    cases hold : numbersOf o a.issued with
    | nil => exact (flood_starts hset hreach hold hok.2 hstep hissued).sound
    | cons x xs =>
      rw [hold, List.cons_append, List.cons.injEq] at hlog
      have hxs : xs = [] := (List.append_eq_nil_iff.mp hlog.2).1
      rw [hlog.1, hxs] at hold
      rcases flood_refines hset hreach hold hok.2 hstep hissued with hsame | ⟨x, hflood⟩
      · exact hsame ▸ ih hold
      · exact hflood.sound hset.small (ih hold)

/-- Reliable flooding. One router issues an LSU, and no other, in an area of at most 255 routers that
flood their own LSUs too. Packets may be repeated, overtake each other, go to the wrong router and wait
for ARP; but once every copy has got to the router that has its address, the LSU has been merged by
every router that the links lead to. -/
theorem area_flood_covers (hset : FloodSetup area rid S₀ owner l) (h : FloodRun sr owner link S₀ a)
    (hissued : numbersOf o a.issued = [l])
    (hall : ∀ c ∈ a.wire, ∀ dst, c.frame.get PacketField.ipDst = .ok dst →
      ∀ j, owner (.ofNat dst) = some j → (j, c) ∈ a.received)
    {j : ι} (hj : Relation.ReflTransGen link o j) (hne : j ≠ o) :
    (l.rid, l.seq) ∈ (a.nodes j).applied := by
  have hsound := area_flood_sound hset h hissued
  refine (mem_informed.mp (hsound.covers ?_ hj)).resolve_left hne
  intro d hd j hdst
  obtain ⟨c, hc, hcopy⟩ := List.mem_filterMap.mp hd
  refine List.mem_filterMap.mpr ⟨(j, c), ?_, by rw [hcopy]; rfl⟩
  have hcopy' := hcopy
  unfold floodCopy at hcopy'
  split at hcopy'
  · next type id ttl src dst _ _ _ _ hget =>
    split at hcopy'
    · obtain ⟨i, -, rfl⟩ := Option.map_eq_some_iff.mp hcopy'
      exact hall c hc dst hget j hdst
    · cases hcopy'
  · cases hcopy'

end Flood

section Demo

/-- The two routers with each other in their neighbor tables. -/
def demoLinked : Bool → PwospfSubsys
  | true => demoOrigin
  | false => { demoOther with interfaces := demoOther.interfaces.map fun i =>
      { i with neighbors := i.neighbors.store ⟨0x0100000a, 0x0100000a, 100⟩ } }

def demoOwner (a : InAddr) : Option Bool :=
  if a = 0x0100000a then some true else if a = 0x0000000a then some false else none

theorem demoLinked_boots : Boots 0 demoRid demoLinked where
  wf := by
    intro i
    have h := pwospfInit_wf (demoSubsys_init i)
    cases i with
    | true => exact ⟨h.top, h.prevListed, by decide⟩
    | false => exact ⟨h.top, h.prevListed, by decide +kernel⟩
  areaId := by decide +kernel
  autype := by decide +kernel
  rid := by decide +kernel

/-- Both routers issue an LSU. -/
theorem area_flood_covers_demo :
    ∃ a l l', FloodRun demoRouters demoOwner (fun i j => i ≠ j) demoLinked a ∧
      a.issued = [(true, l), (false, l')] ∧ (l.rid, l.seq) ∈ (a.nodes false).applied := by
  have hrun : (demoRun demoRouters (fun a k => k.Quiet a ∧ LinksUp demoOwner (fun i j => i ≠ j) a)
      [.lsu true, .lsu false, .deliver true 1, .deliver false 0] (.start demoLinked)).map (fun a =>
        (a.issued.map fun x => (x.1, x.2.rid, x.2.seq), decide (∀ c ∈ a.wire, ∀ dst,
          c.frame.get PacketField.ipDst = .ok dst → ∀ j, demoOwner (.ofNat dst) = some j →
            (j, c) ∈ a.received))) =
      some ([(true, 0x0100000a, 0x0100), (false, 0x0000000a, 0x0100)], true) := by
    decide +kernel
  obtain ⟨a, ha, hlog⟩ := Option.map_eq_some_iff.mp hrun
  rw [Prod.mk.injEq] at hlog
  obtain ⟨hissues, hall⟩ := hlog
  obtain ⟨⟨o, l⟩, rest, hissued, hl, hrest⟩ := List.map_eq_cons_iff.mp hissues
  obtain ⟨⟨o', l'⟩, hlast, hl'⟩ := List.map_eq_singleton_iff.mp hrest
  rw [Prod.mk.injEq, Prod.mk.injEq] at hl hl'
  obtain ⟨rfl, hrid, hseq⟩ := hl
  obtain ⟨rfl, -, -⟩ := hl'
  subst hlast
  have hset : FloodSetup 0 demoRid demoLinked demoOwner l :=
    { boots := demoLinked_boots
      distinct := by decide
      small := by decide
      owned := by decide +kernel
      number := by rw [hseq]; decide
      fresh := by rw [hrid, hseq]; decide +kernel }
  have hreach := demoRun_reach .start ha
  exact ⟨a, l, l', hreach, hissued, area_flood_covers hset hreach (o := true) (by rw [hissued]; rfl)
    (of_decide_eq_true hall) (.single (by decide)) (by decide)⟩

end Demo

end PWOSPF
