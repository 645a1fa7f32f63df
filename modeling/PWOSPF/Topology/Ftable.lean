import PWOSPF.Topology.Dijkstra

/-!
# The forwarding table

`update_ftable` walks the network list once and enters the subnets of every router at the address
and interface of the first hop towards it. `TableOf` says which routers the entries stand for; each
way of entering a subnet extends it by one (router, subnet) pair.
-/

namespace PWOSPF

open Framework Topo

/-- `calloc(1, sizeof(struct pwospf_iflist))` -/
def PwospfIflist.zero : PwospfIflist := ⟨0, 0, [], 0, .replicate 6 0, ⟨[], 0, 0⟩⟩
/-- `calloc(1, sizeof(struct neighbor_list))` -/
def NeighborList.zero : NeighborList := ⟨0, 0, 0⟩

/-- Copies the first neighbor with the given id and its interface over `ifret` and `nbrret`; these
stay as they are and the result is `0` when there is none. -/
def getIfAndNeighbor (ifret : PwospfIflist) (nbrret : NeighborList) (id : UInt32) :
    List PwospfIflist → PwospfIflist × NeighborList × Int
  | [] => (ifret, nbrret, 0)
  | curIf :: rest =>
    match curIf.neighbors.elems.find? fun n => n.id = id with
    | some nbr => (curIf, nbr, 1)
    | none => getIfAndNeighbor ifret nbrret id rest

def getSubnetIf (interfaces : List PwospfIflist) (subnet : Route) : Option PwospfIflist :=
  interfaces.find? fun curIf => curIf.mask &&& curIf.address = subnet.pfix

/-- Position of the entry with the given prefix and mask. -/
def ftableContains (ft : List FtableEntry) (pfix mask : InAddr) : Option Nat :=
  ft.findIdx? fun e => e.pfix = pfix ∧ e.mask = mask

/-- One of this router's own subnets. An empty table contains no entry, so the two branches of the
source that append are one here. -/
def enterOwn (interfaces : List PwospfIflist) (ft : List FtableEntry) (s : Route) :
    Exec (List FtableEntry) :=
  match getSubnetIf interfaces s with
  | none => .error .assertion
  | some iface =>
    match ftableContains ft s.pfix s.mask with
    | some i => .ok (ft.modify i fun e =>
        { e with nextHop := s.nextHop, interface := iface.name, numHops := 0 })
    | none => .ok (ft ++ [⟨s.pfix, s.mask, s.nextHop, iface.name, 0⟩])

/-- A subnet of another router. -/
def enterOther (nbr : NeighborList) (iface : PwospfIflist) (numhops : Int)
    (ft : List FtableEntry) (s : Route) : Exec (List FtableEntry) :=
  match ftableContains ft s.pfix s.mask with
  | none =>
    if numhops = 0 then .error .assertion
    else .ok (ft ++ [⟨s.pfix, s.mask, nbr.ipAddress, iface.name, numhops⟩])
  | some i =>
    match ft[i]? with
    | none => .error .outOfBounds
    | some cur =>
      if cur.numHops > numhops then
        if numhops = 0 then .error .assertion
        else .ok (ft.modify i fun e =>
          { e with nextHop := nbr.ipAddress, interface := iface.name, numHops := numhops })
      else .ok ft

def enterAll (enter : List FtableEntry → Route → Exec (List FtableEntry)) :
    List Route → List FtableEntry → Exec (List FtableEntry)
  | [], ft => .ok ft
  | s :: ss, ft => do enterAll enter ss (← enter ft s)

/-- The loop over the network list, with the value `update_ftable` returns. -/
def updateLoop (T : Topo) (interfaces : List PwospfIflist) :
    List Router → List FtableEntry → Exec (List FtableEntry × Int)
  | [], ft => .ok (ft, 1)
  | dest :: rest, ft => do
    match ← findNextHop T dest with
    | (none, numhops) =>
      if numhops = 0 then
        let this ← T.deref T.thisRouter
        updateLoop T interfaces rest (← enterAll (enterOwn interfaces) this.subnets.elems ft)
      else return (ft, 0)
    | (some nextHop, numhops) =>
      -- the result 0 of the look-up is dropped, and the two blocks are never NULL
      let (iface, nbr, _) := getIfAndNeighbor .zero .zero nextHop.rid interfaces
      updateLoop T interfaces rest
        (← enterAll (enterOther nbr iface numhops) dest.subnets.elems ft)

def updateFtable (T : Topo) (interfaces : List PwospfIflist) : Exec (List FtableEntry × Int) :=
  updateLoop T interfaces T.network []

/-- Some interface has a neighbor record with the id. -/
def HasNeighbor (interfaces : List PwospfIflist) (id : UInt32) : Prop :=
  ∃ i ∈ interfaces, ∃ n ∈ i.neighbors.elems, n.id = id

instance (interfaces : List PwospfIflist) (id : UInt32) : Decidable (HasNeighbor interfaces id) :=
  inferInstanceAs (Decidable (∃ i ∈ interfaces, ∃ n ∈ i.neighbors.elems, n.id = id))

theorem getIfAndNeighbor_spec {interfaces : List PwospfIflist} {id : UInt32}
    (h : HasNeighbor interfaces id) (ifret : PwospfIflist) (nbrret : NeighborList) :
    ∃ i ∈ interfaces, ∃ n ∈ i.neighbors.elems,
      n.id = id ∧ getIfAndNeighbor ifret nbrret id interfaces = (i, n, 1) := by
  induction interfaces with
  | nil =>
    obtain ⟨i, hi, -⟩ := h
    cases hi
  | cons curIf rest ih =>
    rw [getIfAndNeighbor]
    cases hfind : curIf.neighbors.elems.find? fun n => n.id = id with
    | some nbr =>
      exact ⟨curIf, by simp, nbr, List.mem_of_find?_eq_some hfind,
        by simpa using List.find?_some hfind, rfl⟩
    | none =>
      have hrest : HasNeighbor rest id := by
        obtain ⟨i, hi, n, hn, hid⟩ := h
        rcases List.mem_cons.mp hi with rfl | hi
        · exact absurd (decide_eq_true hid) (by simpa using List.find?_eq_none.mp hfind n hn)
        · exact ⟨i, hi, n, hn, hid⟩
      obtain ⟨i, hi, hspec⟩ := ih hrest
      exact ⟨i, List.mem_cons_of_mem _ hi, hspec⟩

/-! ## What an entry stands for -/

/-- The address and interface `update_ftable` enters for the subnet `s` of the router `R`. -/
def Yields (T : Topo) (interfaces : List PwospfIflist) (R : Router) (s : Route)
    (nextHop : InAddr) (interface : IfName) : Prop :=
  (R.addr = T.thisRouter ∧ nextHop = s.nextHop ∧
      ∃ iface, getSubnetIf interfaces s = some iface ∧ interface = iface.name) ∨
    R.addr ≠ T.thisRouter ∧ ∃ n, findNextHop T R = .ok (some n, R.dist) ∧
      T.find n.addr = some n ∧ n.addr ∈ T.adj T.thisRouter ∧
      Walk T.Edge (R.dist.toNat - 1) n.addr R.addr ∧
      nextHop = (getIfAndNeighbor .zero .zero n.rid interfaces).2.1.ipAddress ∧
      interface = (getIfAndNeighbor .zero .zero n.rid interfaces).1.name

/-- The entry was made for the subnet `s` of the router `R`. -/
structure EntryFor (T : Topo) (interfaces : List PwospfIflist) (R : Router) (s : Route)
    (e : FtableEntry) : Prop where
  listed : R ∈ T.network
  held : s ∈ R.subnets.elems
  reached : 0 ≤ R.dist
  pfix : e.pfix = s.pfix
  mask : e.mask = s.mask
  numHops : e.numHops = R.dist
  yields : Yields T interfaces R s e.nextHop e.interface

/-- The table made of the pairs in `done`, a best one for every prefix and mask. -/
structure TableOf (T : Topo) (interfaces : List PwospfIflist) (done : List (Router × Route))
    (ft : List FtableEntry) : Prop where
  keys : (ft.map fun e => (e.pfix, e.mask)).Nodup
  source : ∀ e ∈ ft, ∃ x ∈ done, EntryFor T interfaces x.1 x.2 e
  covers : ∀ x ∈ done, ∃ e ∈ ft, e.pfix = x.2.pfix ∧ e.mask = x.2.mask ∧ e.numHops ≤ x.1.dist

theorem ftableContains_none {ft : List FtableEntry} {pfix mask : InAddr}
    (h : ftableContains ft pfix mask = none) : ∀ e ∈ ft, ¬ (e.pfix = pfix ∧ e.mask = mask) := by
  intro e he
  simpa using List.findIdx?_eq_none_iff.mp h e he

theorem ftableContains_some {ft : List FtableEntry} {pfix mask : InAddr} {i : Nat}
    (h : ftableContains ft pfix mask = some i) (f : FtableEntry → FtableEntry) :
    ∃ pre e post, ft = pre ++ e :: post ∧ e.pfix = pfix ∧ e.mask = mask ∧ ft[i]? = some e ∧
      ft.modify i f = pre ++ f e :: post := by
  induction ft generalizing i with
  | nil => simp [ftableContains] at h
  | cons x ft ih =>
    rw [ftableContains, List.findIdx?_cons] at h
    by_cases hx : x.pfix = pfix ∧ x.mask = mask
    · have h0 : i = 0 := by simpa [hx] using h.symm
      subst h0
      exact ⟨[], x, ft, rfl, hx.1, hx.2, rfl, rfl⟩
    · rw [if_neg (by simpa using hx)] at h
      obtain ⟨j, hj, rfl⟩ := Option.map_eq_some_iff.mp h
      obtain ⟨pre, e, post, hsplit, hp, hm, hget, hmod⟩ := ih hj
      exact ⟨x :: pre, e, post, by rw [hsplit]; rfl, hp, hm, by simpa using hget, by simp [hmod]⟩

namespace TableOf

variable {T : Topo} {interfaces : List PwospfIflist} {done : List (Router × Route)}
  {ft : List FtableEntry} {R : Router} {s : Route} {e : FtableEntry}

theorem append (h : TableOf T interfaces done ft) (he : EntryFor T interfaces R s e)
    (hnew : ∀ x ∈ ft, ¬ (x.pfix = s.pfix ∧ x.mask = s.mask)) :
    TableOf T interfaces (done ++ [(R, s)]) (ft ++ [e]) := by
  refine ⟨?_, ?_, ?_⟩
  · rw [List.map_append, List.nodup_append]
    refine ⟨h.keys, by simp, ?_⟩
    rintro _ hx y hy rfl
    obtain ⟨x, hx, hxy⟩ := List.mem_map.mp hx
    rw [List.map_singleton, List.mem_singleton] at hy
    rw [hy, Prod.mk.injEq, he.pfix, he.mask] at hxy
    exact hnew x hx hxy
  · intro x hx
    rcases List.mem_append.mp hx with hx | hx
    · obtain ⟨y, hy, hfor⟩ := h.source x hx
      exact ⟨y, List.mem_append_left _ hy, hfor⟩
    · rw [List.mem_singleton.mp hx]
      exact ⟨(R, s), by simp, he⟩
  · intro x hx
    rcases List.mem_append.mp hx with hx | hx
    · obtain ⟨y, hy, hcov⟩ := h.covers x hx
      exact ⟨y, List.mem_append_left _ hy, hcov⟩
    · rw [List.mem_singleton.mp hx]
      exact ⟨e, by simp, he.pfix, he.mask, le_of_eq he.numHops⟩

theorem replace {pre post : List FtableEntry} {old : FtableEntry}
    (h : TableOf T interfaces done (pre ++ old :: post)) (he : EntryFor T interfaces R s e)
    (hkey : old.pfix = e.pfix ∧ old.mask = e.mask) (hle : e.numHops ≤ old.numHops) :
    TableOf T interfaces (done ++ [(R, s)]) (pre ++ e :: post) := by
  refine ⟨?_, ?_, ?_⟩
  · have hk := h.keys
    simp only [List.map_append, List.map_cons, hkey] at hk ⊢
    exact hk
  · intro x hx
    by_cases hxe : x = e
    · exact ⟨(R, s), by simp, hxe ▸ he⟩
    · have hold : x ∈ pre ++ old :: post := by
        simp only [List.mem_append, List.mem_cons, hxe, false_or] at hx ⊢
        tauto
      obtain ⟨y, hy, hfor⟩ := h.source x hold
      exact ⟨y, List.mem_append_left _ hy, hfor⟩
  · intro x hx
    rcases List.mem_append.mp hx with hx | hx
    · obtain ⟨y, hy, hp, hm, hn⟩ := h.covers x hx
      by_cases hyo : y = old
      · subst hyo
        exact ⟨e, by simp, hkey.1 ▸ hp, hkey.2 ▸ hm, Int.le_trans hle hn⟩
      · refine ⟨y, ?_, hp, hm, hn⟩
        simp only [List.mem_append, List.mem_cons, hyo, false_or] at hy ⊢
        tauto
    · rw [List.mem_singleton.mp hx]
      exact ⟨e, by simp, he.pfix, he.mask, le_of_eq he.numHops⟩

theorem keep (h : TableOf T interfaces done ft) {old : FtableEntry} (hold : old ∈ ft)
    (hkey : old.pfix = s.pfix ∧ old.mask = s.mask) (hle : old.numHops ≤ R.dist) :
    TableOf T interfaces (done ++ [(R, s)]) ft := by
  refine ⟨h.keys, ?_, ?_⟩
  · intro x hx
    obtain ⟨y, hy, hfor⟩ := h.source x hx
    exact ⟨y, List.mem_append_left _ hy, hfor⟩
  · intro x hx
    rcases List.mem_append.mp hx with hx | hx
    · exact h.covers x hx
    · rw [List.mem_singleton.mp hx]
      exact ⟨old, hold, hkey.1, hkey.2, hle⟩

end TableOf

/-! ## Entering the subnets of one router -/

section Enter

variable {T : Topo} {interfaces : List PwospfIflist} {done : List (Router × Route)}
  {ft : List FtableEntry} {R : Router} {s : Route}

theorem enterOwn_spec (h : TableOf T interfaces done ft) (hR : R ∈ T.network)
    (hs : s ∈ R.subnets.elems) (hself : R.addr = T.thisRouter) (hdist : R.dist = 0)
    (hif : getSubnetIf interfaces s ≠ none) :
    ∃ ft', enterOwn interfaces ft s = .ok ft' ∧ TableOf T interfaces (done ++ [(R, s)]) ft' := by
  obtain ⟨iface, hiface⟩ := Option.ne_none_iff_exists'.mp hif
  have hfor : EntryFor T interfaces R s ⟨s.pfix, s.mask, s.nextHop, iface.name, 0⟩ :=
    ⟨hR, hs, by omega, rfl, rfl, hdist.symm, Or.inl ⟨hself, rfl, iface, hiface, rfl⟩⟩
  cases hc : ftableContains ft s.pfix s.mask with
  | none =>
    refine ⟨_, ?_, h.append hfor (ftableContains_none hc)⟩
    rw [enterOwn, hiface]
    simp only [hc]
  | some i =>
    obtain ⟨pre, old, post, hsplit, hp, hm, -, hmod⟩ := ftableContains_some hc
      fun e => { e with nextHop := s.nextHop, interface := iface.name, numHops := 0 }
    subst hsplit
    obtain ⟨y, hy, hold⟩ := h.source old (by simp)
    refine ⟨_, ?_, h.replace (e := ⟨s.pfix, s.mask, s.nextHop, iface.name, 0⟩) hfor ⟨hp, hm⟩
      (by rw [hold.numHops]; exact hold.reached)⟩
    rw [enterOwn, hiface]
    simp only [hc, hmod, hp, hm]

theorem enterOther_spec (h : TableOf T interfaces done ft) (hR : R ∈ T.network)
    (hs : s ∈ R.subnets.elems) (hpos : 0 < R.dist) {nbr : NeighborList} {iface : PwospfIflist}
    (hyields : Yields T interfaces R s nbr.ipAddress iface.name) :
    ∃ ft', enterOther nbr iface R.dist ft s = .ok ft' ∧
      TableOf T interfaces (done ++ [(R, s)]) ft' := by
  have hfor : EntryFor T interfaces R s ⟨s.pfix, s.mask, nbr.ipAddress, iface.name, R.dist⟩ :=
    ⟨hR, hs, by omega, rfl, rfl, rfl, hyields⟩
  have hne : R.dist ≠ 0 := by omega
  cases hc : ftableContains ft s.pfix s.mask with
  | none =>
    refine ⟨_, ?_, h.append hfor (ftableContains_none hc)⟩
    rw [enterOther, hc]
    simp only [hne, if_false]
  | some i =>
    obtain ⟨pre, old, post, hsplit, hp, hm, hget, hmod⟩ := ftableContains_some hc fun e =>
      { e with nextHop := nbr.ipAddress, interface := iface.name, numHops := R.dist }
    subst hsplit
    by_cases hgt : old.numHops > R.dist
    · refine ⟨_, ?_, h.replace (e := ⟨s.pfix, s.mask, nbr.ipAddress, iface.name, R.dist⟩) hfor
        ⟨hp, hm⟩ (le_of_lt hgt)⟩
      rw [enterOther, hc]
      simp only [hget, hgt, if_true, hne, if_false, hmod, hp, hm]
    · refine ⟨pre ++ old :: post, ?_, h.keep (List.mem_append_right pre List.mem_cons_self) ⟨hp, hm⟩
        (by omega)⟩
      rw [enterOther, hc]
      simp only [hget, hgt, if_false]

theorem enterAll_spec (enter : List FtableEntry → Route → Exec (List FtableEntry))
    (henter : ∀ done ft s, TableOf T interfaces done ft → s ∈ R.subnets.elems →
      ∃ ft', enter ft s = .ok ft' ∧ TableOf T interfaces (done ++ [(R, s)]) ft')
    {ss : List Route} (hss : ∀ s ∈ ss, s ∈ R.subnets.elems) (h : TableOf T interfaces done ft) :
    ∃ ft', enterAll enter ss ft = .ok ft' ∧
      TableOf T interfaces (done ++ ss.map fun s => (R, s)) ft' := by
  induction ss generalizing done ft with
  | nil => exact ⟨ft, rfl, by simpa using h⟩
  | cons s ss ih =>
    obtain ⟨ft₁, hrun, h₁⟩ := henter done ft s h (hss s (by simp))
    obtain ⟨ft', hrun', h'⟩ := ih (fun x hx => hss x (List.mem_cons_of_mem _ hx)) h₁
    refine ⟨ft', ?_, by simpa using h'⟩
    rw [enterAll, hrun, ok_bind, hrun']

end Enter

/-- Every router with each of its subnets. -/
def offers (routers : List Router) : List (Router × Route) :=
  routers.flatMap fun R => R.subnets.elems.map fun s => (R, s)

theorem mem_offers {routers : List Router} {x : Router × Route} :
    x ∈ offers routers ↔ x.1 ∈ routers ∧ x.2 ∈ x.1.subnets.elems := by
  simp only [offers, List.mem_flatMap, List.mem_map]
  constructor
  · rintro ⟨R, hR, s, hs, rfl⟩
    exact ⟨hR, hs⟩
  · rintro ⟨hR, hs⟩
    exact ⟨x.1, hR, x.2, hs, rfl⟩

/-- Each of this router's own subnets has an interface. -/
def OwnMatched (T : Topo) (interfaces : List PwospfIflist) : Prop :=
  ∀ s ∈ T.subs T.thisRouter, getSubnetIf interfaces s ≠ none

instance (T : Topo) (interfaces : List PwospfIflist) : Decidable (OwnMatched T interfaces) :=
  inferInstanceAs (Decidable (∀ s ∈ T.subs T.thisRouter, getSubnetIf interfaces s ≠ none))

section Update

variable {T : Topo} {interfaces : List PwospfIflist}

/-- The routers the loop gets to: those before the first unreached one. -/
def visited (routers : List Router) : List Router := routers.takeWhile fun R => 0 ≤ R.dist

theorem updateLoop_spec (hT : T.Linked) (h : Searched T) (hown : OwnMatched T interfaces)
    (routers : List Router) (hsub : ∀ R ∈ routers, R ∈ T.network) {pre : List Router}
    {ft : List FtableEntry} (hft : TableOf T interfaces (offers pre) ft) :
    ∃ ft' ret, updateLoop T interfaces routers ft = .ok (ft', ret) ∧
      TableOf T interfaces (offers (pre ++ visited routers)) ft' := by
  induction routers generalizing pre ft with
  | nil => exact ⟨ft, 1, rfl, by simpa [visited] using hft⟩
  | cons R rest ih =>
    have hmem := hsub R (by simp)
    have hrest : ∀ X ∈ rest, X ∈ T.network := fun X hX => hsub X (List.mem_cons_of_mem _ hX)
    have hfind := find_of_mem hT.addrsNodup hmem
    have hstep : ∀ ft₁, TableOf T interfaces (offers pre ++ R.subnets.elems.map fun s => (R, s)) ft₁ →
        TableOf T interfaces (offers (pre ++ [R])) ft₁ := by
      intro ft₁ h₁
      simpa [offers] using h₁
    rw [updateLoop]
    rcases findNextHop_spec hT h hfind with ⟨hself, hrun⟩ | ⟨-, hneg, hrun⟩ |
      ⟨hself, hpos, n, hrun, hn, hadj, hwalk⟩
    · have hdist : R.dist = 0 := by
        rw [← dist_of_find hfind, hself]
        exact h.sound.source
      rw [hself] at hfind
      obtain ⟨ft₁, hrun₁, h₁⟩ := enterAll_spec (R := R) (enterOwn interfaces)
        (fun done ft s hd hs => enterOwn_spec hd hmem hs hself hdist
          (hown s (by rw [subs_of_find hfind]; exact hs)))
        (fun s hs => hs) hft
      obtain ⟨ft', ret, hrun', h'⟩ := ih hrest (hstep ft₁ h₁)
      refine ⟨ft', ret, ?_, ?_⟩
      · rw [hrun, ok_bind]
        simp only [if_true]
        rw [deref_of_find hfind, ok_bind, hrun₁, ok_bind, hrun']
      · rw [visited, List.takeWhile_cons_of_pos (by simp [hdist])]
        simpa [visited] using h'
    · refine ⟨ft, 0, ?_, ?_⟩
      · rw [hrun, ok_bind]
        rfl
      · rw [visited, List.takeWhile_cons_of_neg (by simpa using hneg)]
        simpa using hft
    · obtain ⟨ft₁, hrun₁, h₁⟩ := enterAll_spec (R := R)
        (enterOther (getIfAndNeighbor .zero .zero n.rid interfaces).2.1
          (getIfAndNeighbor .zero .zero n.rid interfaces).1 R.dist)
        (fun done ft s hd hs => enterOther_spec hd hmem hs hpos
          (Or.inr ⟨hself, n, hrun, hn, hadj, hwalk, rfl, rfl⟩))
        (fun s hs => hs) hft
      obtain ⟨ft', ret, hrun', h'⟩ := ih hrest (hstep ft₁ h₁)
      refine ⟨ft', ret, ?_, ?_⟩
      · rw [hrun, ok_bind]
        simp only
        rw [hrun₁, ok_bind, hrun']
      · rw [visited, List.takeWhile_cons_of_pos (by simp; omega)]
        simpa [visited] using h'

/-- `update_ftable` meets no failing assertion, and its table stands for the visited routers. -/
theorem updateFtable_spec (hT : T.Linked) (h : Searched T) (hown : OwnMatched T interfaces) :
    ∃ ft ret, updateFtable T interfaces = .ok (ft, ret) ∧
      TableOf T interfaces (offers (visited T.network)) ft :=
  have hnil : TableOf T interfaces (offers []) [] := ⟨List.nodup_nil, by simp, by simp [offers]⟩
  updateLoop_spec hT h hown T.network (fun _ hR => hR) hnil

/-! ## Failing assertions -/

theorem enterAll_fault {enter : List FtableEntry → Route → Exec (List FtableEntry)}
    (henter : ∀ ft s f, enter ft s = .error f → f = .assertion) {ss : List Route}
    {ft : List FtableEntry} {f : Fault} (h : enterAll enter ss ft = .error f) : f = .assertion := by
  induction ss generalizing ft with
  | nil => cases h
  | cons s ss ih =>
    rw [enterAll, bind_eq_error] at h
    rcases h with h | ⟨ft₁, -, h⟩
    · exact henter ft s f h
    · exact ih h

theorem enterOwn_fault {ft : List FtableEntry} {s : Route} {f : Fault}
    (h : enterOwn interfaces ft s = .error f) : f = .assertion := by
  unfold enterOwn at h
  split at h
  · exact (Except.error.inj h).symm
  · split at h <;> cases h

theorem enterOther_fault {nbr : NeighborList} {iface : PwospfIflist} {numhops : Int}
    {ft : List FtableEntry} {s : Route} {f : Fault}
    (h : enterOther nbr iface numhops ft s = .error f) : f = .assertion := by
  unfold enterOther at h
  cases hc : ftableContains ft s.pfix s.mask with
  | none =>
    rw [hc] at h
    simp only at h
    split at h
    · exact (Except.error.inj h).symm
    · cases h
  | some i =>
    obtain ⟨-, e, -, -, -, -, hget, -⟩ := ftableContains_some hc id
    rw [hc] at h
    simp only [hget] at h
    split at h
    · split at h
      · exact (Except.error.inj h).symm
      · cases h
    · cases h

/-- An assertion is the only thing that can fail in `update_ftable`. -/
theorem updateFtable_fault (hT : T.Linked) (h : Searched T) {f : Fault}
    (hf : updateFtable T interfaces = .error f) : f = .assertion := by
  suffices ∀ routers ft, (∀ R ∈ routers, R ∈ T.network) →
      updateLoop T interfaces routers ft = .error f → f = .assertion from
    this T.network [] (fun _ hR => hR) hf
  intro routers
  induction routers with
  | nil => intro ft _ hrun; cases hrun
  | cons R rest ih =>
    intro ft hsub hrun
    have hrest : ∀ X ∈ rest, X ∈ T.network := fun X hX => hsub X (List.mem_cons_of_mem _ hX)
    have hfind := find_of_mem hT.addrsNodup (hsub R (by simp))
    rw [updateLoop] at hrun
    rcases findNextHop_spec hT h hfind with ⟨hself, hnext⟩ | ⟨-, -, hnext⟩ |
      ⟨-, -, n, hnext, -⟩
    · rw [hself] at hfind
      rw [hnext, ok_bind] at hrun
      simp only [if_true, deref_of_find hfind, ok_bind] at hrun
      rcases bind_eq_error.mp hrun with hrun | ⟨ft₁, -, hrun⟩
      · exact enterAll_fault (fun _ _ _ => enterOwn_fault) hrun
      · exact ih ft₁ hrest hrun
    · rw [hnext, ok_bind] at hrun
      cases hrun
    · rw [hnext, ok_bind] at hrun
      rcases bind_eq_error.mp hrun with hrun | ⟨ft₁, -, hrun⟩
      · exact enterAll_fault (fun _ _ _ => enterOther_fault) hrun
      · exact ih ft₁ hrest hrun

end Update

end PWOSPF
