import PWOSPF.Subsystem.Runs

/-!
# Adjacencies and the subnets that support them

A router is adjacent to another exactly when one of its subnets names it. The two arrays are edited
by different look-ups, and every edit finds only the first match, so the correspondence rests on
conditions that exclude parallel links where a link is removed, and leftover or early names where a
router is listed. One loop lemma covers senders listed before and senders listed just now; for the
latter the subnets that already name the sender are linked by advertisements still to come.
-/

namespace PWOSPF

open Framework Topo

/-- Some subnet names the router with the given id. -/
def Names (subs : List Route) (id : UInt32) : Prop := ∃ s ∈ subs, s.rId = id

instance (subs : List Route) (id : UInt32) : Decidable (Names subs id) :=
  inferInstanceAs (Decidable (∃ s ∈ subs, s.rId = id))

/-- The number of subnets that name the router with the given id: its parallel links. -/
def nameCount (subs : List Route) (id : UInt32) : Nat := subs.countP fun s => s.rId = id

def Topo.Supported (T : Topo) : Prop :=
  ∀ a b id, T.ridOf b = some id → a ≠ b → (b ∈ T.adj a ↔ Names (T.subs a) id)

/-- As `Supported`, but a router in `D` may name `host` without being adjacent to it yet. -/
def SupportedBut (D : Ptr → Prop) (host : Ptr) (T : Topo) : Prop :=
  ∀ a b id, T.ridOf b = some id → a ≠ b →
    (b ∈ T.adj a → Names (T.subs a) id) ∧
      (Names (T.subs a) id → b ∈ T.adj a ∨ (b = host ∧ D a))

/-- The id `0` marks a subnet without an attached router, so no router may have it. -/
def Topo.ZeroFree (T : Topo) : Prop := ∀ p, T.ridOf p ≠ some 0

/-! ## Conditions -/

/-- The advertisement leaves adjacencies and names in step: a subnet given up was the only one
with its name; an attached router that refuses the opposite route has no subnet naming the sender;
and an attached router listed just now is named by no third router. -/
def AdvertSupported (hostRid : UInt32) (host : Ptr) (T : Topo) (ad : Route) : Prop :=
  (∀ old ∈ conflictingSubnet (T.subs host) ad, ∀ x ∈ adjListContains T old.rId, x ≠ host →
    nameCount (T.subs host) old.rId ≤ 1) ∧
  (conflictingSubnet (T.subs host) ad = none → ad.rId ≠ 0 →
    (∀ con ∈ adjListContains T ad.rId, con ≠ host →
      peerConflict (T.subs con) { ad with rId := hostRid } = true →
        ¬ Names (T.subs con) hostRid) ∧
    (adjListContains T ad.rId = none → ∀ a ∈ T.addrs, a ≠ host → ¬ Names (T.subs a) ad.rId))

/-- Neither side of the link has a second subnet naming the other. -/
def LastLink (hostRid id : UInt32) (host : Ptr) (T : Topo) : Prop :=
  ∀ n ∈ adjListContains T id, n ≠ host →
    nameCount (T.subs host) id ≤ 1 ∧ nameCount (T.subs n) hostRid ≤ 1

/-- The advertisement links its sender to `a`. -/
def LinksTo (a host : Ptr) (T : Topo) (ad : Route) : Prop :=
  conflictingSubnet (T.subs host) ad = none ∧ ad.rId ≠ 0 ∧ T.ridOf a = some ad.rId

/-- `P` holds at the start of some iteration over the advertisements. -/
def AdvertsSome (P : Topo → Route → Prop) (host : Ptr) :
    (Nat → Time) → List Route → Topo → Prop
  | _, [], _ => False
  | clock, ad :: ads, T =>
    P T ad ∨ ∀ T', addAdvert T host ad (clock 0) = .ok T' →
      AdvertsSome P host (fun k => clock (k + 1)) ads T'

def SupportedMerge (S : PwospfSubsys) (clock : Nat → Time) (hostRid : UInt32) (ads : List Route) :
    Prop :=
  hostRid ≠ 0 ∧
  MergeAll (AdvertSupported hostRid) (fun host T s => LastLink hostRid s.rId host T) S.top
    S.initTime clock hostRid ads ∧
  -- a sender listed just now links to every router that names it already
  (adjListContains S.top hostRid = none → ∀ a ∈ S.top.addrs, Names (S.top.subs a) hostRid →
    AdvertsSome (LinksTo a (conRouterOf S.top hostRid (clock 0)).2)
      (conRouterOf S.top hostRid (clock 0)).2 (fun k => clock (k + 2)) ads
      (mergeStart S.top clock hostRid))

/-- An expired neighbor leaves at most one link on either side. -/
def SupportedExpiry (T : Topo) (id : UInt32) : Prop :=
  ∀ thisRid ∈ T.ridOf T.thisRouter, LastLink thisRid id T.thisRouter T

/-- The HELLO names its sender in a subnet only if the sender is adjacent or not listed. -/
def SupportedName (T : Topo) (msg : HelloMsg) : Prop :=
  ∀ old ∈ (T.subs T.thisRouter).find? (fun s => s.pfix = msg.ipSrc &&& htonl msg.nmask),
    old.rId = 0 → old.mask = ntohl msg.nmask →
      ∀ b ∈ adjListContains T msg.rid, b ≠ T.thisRouter → b ∈ T.adj T.thisRouter

def SupportedEvent (S : PwospfSubsys) (e : Event) : Prop :=
  e.Meets SupportedMerge SupportedExpiry SupportedName S

instance (hostRid : UInt32) (host : Ptr) (T : Topo) (ad : Route) :
    Decidable (AdvertSupported hostRid host T ad) :=
  inferInstanceAs (Decidable (_ ∧ _))

instance (hostRid id : UInt32) (host : Ptr) (T : Topo) : Decidable (LastLink hostRid id host T) :=
  inferInstanceAs (Decidable (∀ n ∈ adjListContains T id, _))

instance (a host : Ptr) (T : Topo) (ad : Route) : Decidable (LinksTo a host T ad) :=
  inferInstanceAs (Decidable (_ ∧ _))

instance AdvertsSome.decidable {P : Topo → Route → Prop} [∀ T ad, Decidable (P T ad)]
    (host : Ptr) : ∀ clock ads T, Decidable (AdvertsSome P host clock ads T)
  | _, [], _ => .isFalse id
  | clock, _ :: ads, _ =>
    have := AdvertsSome.decidable (P := P) host (fun k => clock (k + 1)) ads
    inferInstanceAs (Decidable (_ ∨ _))

instance (S : PwospfSubsys) (clock : Nat → Time) (hostRid : UInt32) (ads : List Route) :
    Decidable (SupportedMerge S clock hostRid ads) :=
  inferInstanceAs (Decidable (_ ∧ _ ∧ (_ → ∀ a ∈ S.top.addrs, _)))

instance (T : Topo) (id : UInt32) : Decidable (SupportedExpiry T id) :=
  inferInstanceAs (Decidable (∀ thisRid ∈ T.ridOf T.thisRouter, _))

instance (T : Topo) (msg : HelloMsg) : Decidable (SupportedName T msg) :=
  inferInstanceAs (Decidable (∀ old ∈ (T.subs T.thisRouter).find? _,
    old.rId = 0 → old.mask = ntohl msg.nmask → ∀ b ∈ adjListContains T msg.rid, _))

instance (S : PwospfSubsys) (e : Event) : Decidable (SupportedEvent S e) :=
  inferInstanceAs (Decidable (e.Meets SupportedMerge SupportedExpiry SupportedName S))

/-! ## Names after an edit -/

section Names

variable {subs subs' : List Route} {ad : Route} {id id' : UInt32} {p : Route → Bool}

theorem Recorded.names_iff {A : Prop} (h : Recorded A subs ad subs') (h0 : id ≠ 0) :
    Names subs' id ↔ Names subs id ∨ ad.rId = id := by
  cases h with
  | kept s hmem heq =>
    constructor
    · exact Or.inl
    · rintro (h | h)
      · exact h
      · exact ⟨s, hmem, heq.2.2.trans h⟩
  | added =>
    simp only [Names, List.mem_append, List.mem_singleton]
    constructor
    · rintro ⟨s, hs | rfl, hid⟩
      · exact Or.inl ⟨s, hs, hid⟩
      · exact Or.inr hid
    · rintro (⟨s, hs, hid⟩ | hid)
      · exact ⟨s, Or.inl hs, hid⟩
      · exact ⟨ad, Or.inr rfl, hid⟩
  | relabelled pre post old hsplit _ hold =>
    subst hsplit
    simp only [Names, List.mem_append, List.mem_cons]
    constructor
    · rintro ⟨s, hs | rfl | hs, hid⟩
      · exact Or.inl ⟨s, Or.inl hs, hid⟩
      · exact Or.inr hid
      · exact Or.inl ⟨s, Or.inr (Or.inr hs), hid⟩
    · rintro (⟨s, hs | rfl | hs, hid⟩ | hid)
      · exact ⟨s, Or.inl hs, hid⟩
      · exact absurd (hid.symm.trans hold) h0
      · exact ⟨s, Or.inr (Or.inr hs), hid⟩
      · exact ⟨_, Or.inr (Or.inl rfl), hid⟩

theorem names_swapEraseP_of_ne (hp : ∀ s, p s → s.rId = id') (hne : id ≠ id') :
    Names (swapEraseP p subs) id ↔ Names subs id := by
  constructor
  · rintro ⟨s, hs, hid⟩
    exact ⟨s, mem_of_mem_swapEraseP hs, hid⟩
  · rintro ⟨s, hs, hid⟩
    refine ⟨s, mem_swapEraseP_of_not hs ?_, hid⟩
    by_contra hps
    exact hne (hid.symm.trans (hp s (by simpa using hps)))

theorem nameCount_eq_zero (h : nameCount subs id = 0) : ¬ Names subs id := by
  rintro ⟨s, hs, hid⟩
  exact absurd (decide_eq_true hid) (by simpa using List.countP_eq_zero.mp h s hs)

theorem not_names_swapEraseP (hcount : nameCount subs id ≤ 1) :
    ¬ Names (swapEraseP (fun s => s.rId = id) subs) id := by
  apply nameCount_eq_zero
  rw [nameCount, countP_swapEraseP]
  unfold nameCount at hcount
  omega

theorem not_names_swapEraseP_of_mem (hp : ∀ s, p s → s.rId = id) (hcount : nameCount subs id ≤ 1)
    {s : Route} (hs : s ∈ subs) (hps : p s = true) : ¬ Names (swapEraseP p subs) id := by
  apply nameCount_eq_zero
  rw [nameCount, countP_swapEraseP_of_imp (fun a ha => by simpa using hp a ha) hs hps]
  unfold nameCount at hcount
  omega

end Names

theorem Topo.ZeroFree.ne {T : Topo} (h : T.ZeroFree) {p : Ptr} {id : UInt32}
    (hp : T.ridOf p = some id) : id ≠ 0 := by
  rintro rfl
  exact h p hp

theorem not_names_unlisted {T : Topo} {p : Ptr} (hp : p ∉ T.addrs) (id : UInt32) :
    ¬ Names (T.subs p) id := by
  rintro ⟨s, hs, -⟩
  exact hp (mem_subs_listed hs)

theorem supported_iff {T : Topo} {host : Ptr} :
    T.Supported ↔ SupportedBut (fun _ => False) host T := by
  refine forall_congr' fun a => forall_congr' fun b => forall_congr' fun id =>
    imp_congr_right fun _ => imp_congr_right fun _ => ?_
  simp only [and_false, or_false]
  exact iff_def

/-! ## One advertisement -/

section Advert

variable {T T' : Topo} {host : Ptr} {hostRid : UInt32} {ad : Route}

/-- Once the sender is recorded to name `con`, the pairs of the new database satisfy the weaker
correspondence if the adjacency and the names of every pair changed as stated. -/
private theorem supportedBut_linked {D D' : Ptr → Prop} {con : Ptr} (hT : T.Wf)
    (h : SupportedBut D host T) (hext : T.Extends T')
    (haddrs : ∀ q ∈ T'.addrs, q ∈ T.addrs ∨ q = con) (hcon : T'.ridOf con = some ad.rId)
    (hnew : con ∉ T.addrs → ∀ a ∈ T.addrs, a ≠ host → ¬ Names (T.subs a) ad.rId)
    (hadj : ∀ a b, b ∈ T'.adj a ↔ b ∈ T.adj a ∨ (a = host ∧ b = con) ∨ (a = con ∧ b = host))
    (hnames : ∀ a b id, T'.ridOf b = some id →
      (Names (T'.subs a) id ↔ Names (T.subs a) id ∨ (a = host ∧ b = con) ∨ (a = con ∧ b = host)))
    (hD : ∀ a, D a → a = con ∨ D' a) : SupportedBut D' host T' := by
  intro a b id hb hab
  rw [hadj, hnames a b id hb]
  by_cases hbT : b ∈ T.addrs
  · have hid : T.ridOf b = some id := by rw [← hext.ridOf hbT, hb]
    obtain ⟨h₁, h₂⟩ := h a b id hid hab
    refine ⟨Or.imp_left h₁, ?_⟩
    rintro (hn | hn)
    · rcases h₂ hn with hm | ⟨rfl, hDa⟩
      · exact Or.inl (Or.inl hm)
      · rcases hD a hDa with rfl | hD'
        · exact Or.inl (Or.inr (Or.inr ⟨rfl, rfl⟩))
        · exact Or.inr ⟨rfl, hD'⟩
    · exact Or.inl (Or.inr hn)
  · -- a router listed just now: nobody else is adjacent to it or names it
    have hbc : b = con := (haddrs b (listed_of_ridOf hb)).resolve_left hbT
    subst hbc
    have hid : id = ad.rId := Option.some.inj (hb.symm.trans hcon)
    refine ⟨fun hm => ?_, fun hn => ?_⟩
    · rcases hm with hm | hm
      · exact absurd (hT.adjListed a b hm) hbT
      · exact Or.inr hm
    · rcases hn with hn | hn
      · by_cases ha : a = host
        · exact Or.inl (Or.inr (Or.inl ⟨ha, rfl⟩))
        · refine absurd (hid ▸ hn) (hnew hbT a ?_ ha)
          by_contra hal
          exact not_names_unlisted hal id hn
      · exact Or.inl (Or.inr hn)

theorem Topo.Wf.eq_iff_rid (hT : T.Wf) {a b : Ptr} {i j : UInt32} (ha : T.ridOf a = some i)
    (hb : T.ridOf b = some j) : a = b ↔ j = i := by
  constructor
  · intro hab
    rw [hab, hb] at ha
    exact Option.some.inj ha
  · intro hij
    exact hT.ridOf_injective ha (hij ▸ hb)

theorem Topo.ZeroFree.extend {con : Ptr} {id : UInt32} (hz : T.ZeroFree) (hext : T.Extends T')
    (haddrs : ∀ q ∈ T'.addrs, q ∈ T.addrs ∨ q = con) (hcon : T'.ridOf con = some id) (h0 : id ≠ 0) :
    T'.ZeroFree := by
  intro p hp
  cases haddrs p (listed_of_ridOf hp) with
  | inl hlisted => exact hz p ((hext.ridOf hlisted).symm.trans hp)
  | inr hself =>
    rw [hself] at hp
    exact h0 (Option.some.inj (hcon.symm.trans hp))

section Effects

variable {D D' : Ptr → Prop}

/-- The sender gives up its only subnet that names a router, with the adjacency to it. -/
theorem SupportedBut.conflict (hT : T.Wf) (h : SupportedBut D host T) (hD : ∀ a, D a → D' a)
    {old : Route} (hcount : ∀ x ∈ adjListContains T old.rId, x ≠ host →
      nameCount (T.subs host) old.rId ≤ 1)
    (hcore : SameCore T T') (hmem : old ∈ T.subs host)
    (hsubs : T'.subs = Function.update T.subs host
      (swapEraseP (fun x => routeCmp x old = 0) (T.subs host)))
    (hadj : ∀ a b, b ∈ T'.adj a ↔ b ∈ T.adj a ∧ ¬ (a = host ∧ T.ridOf b = some old.rId)) :
    SupportedBut D' host T' := by
  intro a b id hb hab
  rw [hcore.ridOf] at hb
  obtain ⟨h₁, h₂⟩ := h a b id hb hab
  rw [hadj, hsubs]
  by_cases ha : a = host
  · subst ha
    rw [Function.update_self]
    have hp : ∀ s, decide (routeCmp s old = 0) = true → s.rId = old.rId := by
      intro s hs
      rw [decide_eq_true_eq, routeCmp_eq_zero] at hs
      exact hs.2.2
    by_cases hid : id = old.rId
    · subst hid
      have hnot := not_names_swapEraseP_of_mem hp
        (hcount b (hT.adjListContains_iff.mpr hb) (Ne.symm hab)) hmem (by simp)
      exact ⟨fun hm => absurd ⟨rfl, hb⟩ hm.2, fun hn => absurd hn hnot⟩
    · rw [names_swapEraseP_of_ne hp hid]
      refine ⟨fun hm => h₁ hm.1, fun hn => ?_⟩
      rcases h₂ hn with hm | ⟨hbh, hDa⟩
      · refine Or.inl ⟨hm, fun hx => hid ?_⟩
        exact Option.some.inj (hb.symm.trans hx.2)
      · exact Or.inr ⟨hbh, hD a hDa⟩
  · rw [Function.update_of_ne ha]
    refine ⟨fun hm => h₁ hm.1, fun hn => ?_⟩
    rcases h₂ hn with hm | ⟨hbh, hDa⟩
    · exact Or.inl ⟨hm, fun hx => ha hx.1⟩
    · exact Or.inr ⟨hbh, hD a hDa⟩

theorem SupportedBut.stub (hz : T.ZeroFree) (h : SupportedBut D host T) (hD : ∀ a, D a → D' a)
    (h0 : ad.rId = 0) (hcore : SameCore T T') {subs : List Route}
    (hrec : Recorded True (T.subs host) ad subs) (hsubs : T'.subs = Function.update T.subs host subs)
    (hadj : T'.adj = T.adj) : SupportedBut D' host T' := by
  intro a b id hb hab
  rw [hcore.ridOf] at hb
  obtain ⟨h₁, h₂⟩ := h a b id hb hab
  have hid0 := hz.ne hb
  have hnames : Names (T'.subs a) id ↔ Names (T.subs a) id := by
    rw [hsubs]
    by_cases ha : a = host
    · subst ha
      rw [Function.update_self, hrec.names_iff hid0, h0]
      exact or_iff_left (Ne.symm hid0)
    · rw [Function.update_of_ne ha]
  rw [hadj, hnames]
  exact ⟨h₁, fun hn => (h₂ hn).imp_right fun hx => ⟨hx.1, hD a hx.2⟩⟩

/-- Both ends of a new link name each other. -/
theorem names_linked (hT' : T'.Wf) (hz' : T'.ZeroFree) (hhost' : T'.ridOf host = some hostRid)
    {subs subs' : List Route} (hrec : Recorded True (T.subs host) ad subs) {con : Ptr}
    (hcon : T'.ridOf con = some ad.rId)
    (hrec' : Recorded (∀ s ∈ Function.update T.subs host subs con, s.pfix ≠ ad.pfix)
      (Function.update T.subs host subs con) { ad with rId := hostRid } subs')
    (hsubs : T'.subs = Function.update (Function.update T.subs host subs) con subs') {a b : Ptr}
    {id : UInt32} (hb : T'.ridOf b = some id) :
    Names (T'.subs a) id ↔
      Names (T.subs a) id ∨ (a = host ∧ b = con) ∨ (a = con ∧ b = host) := by
  have hid0 := hz'.ne hb
  rw [hsubs, hT'.eq_iff_rid hb hcon, hT'.eq_iff_rid hb hhost']
  by_cases hac : a = con
  · subst hac
    rw [Function.update_self, hrec'.names_iff hid0]
    by_cases hah : a = host
    · subst hah
      rw [Function.update_self, hrec.names_iff hid0]
      simp [or_assoc]
    · rw [Function.update_of_ne hah]
      simp [hah]
  · rw [Function.update_of_ne hac]
    by_cases hah : a = host
    · subst hah
      rw [Function.update_self, hrec.names_iff hid0]
      simp [hac]
    · rw [Function.update_of_ne hah]
      simp [hac, hah]

/-- The sender names the attached router, which does not name the sender, and it is adjacent to the
attached router, but not the other way. -/
theorem SupportedBut.refused (h : SupportedBut D host T) (hT' : T'.Wf) (hz' : T'.ZeroFree)
    (hext : T.Extends T') (hhost' : T'.ridOf host = some hostRid) {con : Ptr}
    (hcon : T'.ridOf con = some ad.rId) (hconl : con ∈ T.addrs)
    (haddrs : ∀ q ∈ T'.addrs, q ∈ T.addrs ∨ q = con)
    (hnone : con ≠ host → ¬ Names (T.subs con) hostRid) (hD : ∀ a, D a → a = con ∨ D' a)
    {subs : List Route} (hrec : Recorded True (T.subs host) ad subs)
    (hsubs : T'.subs = Function.update T.subs host subs)
    (hadj : ∀ a b, b ∈ T'.adj a ↔
      (b ∈ T.adj a ∨ (a = host ∧ b = con) ∨ (a = con ∧ b = host)) ∧
        ¬ (hostRid ≠ 0 ∧ a = con ∧ b = host)) : SupportedBut D' host T' := by
  intro a b id hb hab
  have hid0 := hz'.ne hb
  have hbl : b ∈ T.addrs := by
    rcases haddrs b (listed_of_ridOf hb) with hl | rfl
    exacts [hl, hconl]
  obtain ⟨h₁, h₂⟩ := h a b id ((hext.ridOf hbl).symm.trans hb) hab
  have hnames : Names (T'.subs a) id ↔ Names (T.subs a) id ∨ (a = host ∧ b = con) := by
    rw [hsubs, hT'.eq_iff_rid hb hcon]
    by_cases hah : a = host
    · subst hah
      rw [Function.update_self, hrec.names_iff hid0]
      simp
    · rw [Function.update_of_ne hah]
      simp [hah]
  have hrefused : a = con → b = host → ¬ Names (T.subs a) id := by
    intro hac hbh hn
    have hid : hostRid = id := (hT'.eq_iff_rid hb hhost').mp hbh
    apply hnone (fun hch => hab (hac.trans (hch.trans hbh.symm)))
    rw [hid, ← hac]
    exact hn
  rw [hadj, hnames]
  refine ⟨?_, ?_⟩
  · rintro ⟨hm | hm | hm, hn⟩
    · exact Or.inl (h₁ hm)
    · exact Or.inr hm
    · exact absurd ⟨hz'.ne hhost', hm.1, hm.2⟩ hn
  · rintro (hn | hn)
    · rcases h₂ hn with hm | ⟨hbh, hDa⟩
      · exact Or.inl ⟨Or.inl hm, fun hx => hrefused hx.2.1 hx.2.2 hn⟩
      · rcases hD a hDa with hac | hD'
        · exact absurd hn (hrefused hac hbh)
        · exact Or.inr ⟨hbh, hD'⟩
    · exact Or.inl ⟨Or.inr (Or.inl hn), fun hx => hab (hn.1.trans hx.2.2.symm)⟩

end Effects

theorem SupportedBut.advert {D D' : Ptr → Prop} (hT : T.Wf) (hz : T.ZeroFree)
    (hhost : T.ridOf host = some hostRid) (h : SupportedBut D host T)
    (hok : AdvertSupported hostRid host T ad) (hD : ∀ a, D a → LinksTo a host T ad ∨ D' a)
    (hT' : T'.Wf) (hext : T.Extends T') (heff : AdvertEffect T host hostRid ad T') :
    SupportedBut D' host T' ∧ T'.ZeroFree := by
  have hhost' : T'.ridOf host = some hostRid := by
    rw [hext.ridOf (listed_of_ridOf hhost), hhost]
  -- without a link no pending router is served
  have hlater : (conflictingSubnet (T.subs host) ad ≠ none ∨ ad.rId = 0) → ∀ a, D a → D' a := by
    rintro hno a hDa
    rcases hD a hDa with ⟨hnone, h0, -⟩ | hD'
    · rcases hno with hc | hc
      · exact absurd hnone hc
      · exact absurd hc h0
    · exact hD'
  -- a link serves the attached router only
  have hserved : ∀ {con : Ptr}, T'.ridOf con = some ad.rId → ∀ a, D a → a = con ∨ D' a := by
    intro con hcon a hDa
    refine (hD a hDa).imp_left fun hx => ?_
    exact hT'.ridOf_injective ((hext.ridOf (listed_of_ridOf hx.2.2)).trans hx.2.2) hcon
  cases heff with
  | conflict old hconf hcore hmem _ h0 hsubs hadj =>
    refine ⟨?_, fun p => by rw [hcore.ridOf]; exact hz p⟩
    exact h.conflict hT (hlater (Or.inl (by rw [hconf]; simp))) (hok.1 old hconf) hcore hmem hsubs hadj
  | stub hconf h0 hcore subs hrec hsubs hadj =>
    refine ⟨?_, fun p => by rw [hcore.ridOf]; exact hz p⟩
    exact h.stub hz (hlater (Or.inr h0)) h0 hcore hrec hsubs hadj
  | linked hconf h0 subs hrec con hcon hlist haddrs _ subs' hrec' hsubs hadj =>
    have hz' := hz.extend hext haddrs hcon h0
    refine ⟨supportedBut_linked hT h hext haddrs hcon ?_ hadj ?_ (hserved hcon), hz'⟩
    · intro hfresh
      rcases hlist with hl | ⟨hl, -⟩
      · exact absurd (listed_of_ridOf (hT.adjListContains_iff.mp hl)) hfresh
      · exact (hok.2 hconf h0).2 hl
    · exact fun a b id hb => names_linked hT' hz' hhost' hrec hcon hrec' hsubs hb
  | refused hconf h0 subs hrec con hcon hlist haddrs hpeer hsubs hadj =>
    -- the attached router names the sender in no subnet
    have hnone : con ≠ host → con ∈ T.addrs ∧ ¬ Names (T.subs con) hostRid := by
      intro hch
      rw [Function.update_of_ne hch] at hpeer
      rcases hlist with hl | ⟨-, hfresh⟩
      · exact ⟨listed_of_ridOf (hT.adjListContains_iff.mp hl),
          (hok.2 hconf h0).1 con hl hch hpeer⟩
      · rw [Topo.subs, find_eq_none_iff.mpr hfresh] at hpeer
        cases hpeer
    have hconl : con ∈ T.addrs := by
      by_cases hch : con = host
      · rw [hch]
        exact listed_of_ridOf hhost
      · exact (hnone hch).1
    have hz' := hz.extend hext haddrs hcon h0
    exact ⟨h.refused hT' hz' hext hhost' hcon hconl haddrs (fun hch => (hnone hch).2) (hserved hcon)
      hrec hsubs hadj, hz'⟩

/-- The loop over the advertisements: whoever names the sender is adjacent to it at the end. -/
theorem addAdverts_supported {ads : List Route} {clock : Nat → Time} (hT : T.Wf) (hz : T.ZeroFree)
    (hhost : T.ridOf host = some hostRid)
    (h : SupportedBut (fun a => AdvertsSome (LinksTo a host) host clock ads T) host T)
    (hok : AdvertsAll (AdvertSupported hostRid host) host clock ads T) :
    ∃ T', addAdverts host clock ads T = .ok T' ∧ T'.Wf ∧ T.Extends T' ∧ T'.Supported ∧
      T'.ZeroFree := by
  induction ads generalizing clock T with
  | nil => exact ⟨T, rfl, hT, .of_sameCore (.refl T), supported_iff.mpr h, hz⟩
  | cons ad ads ih =>
    obtain ⟨T₁, hrun, hT₁, hext, heff⟩ := addAdvert_spec hT hhost ad (clock 0)
    obtain ⟨h₁, hz₁⟩ := h.advert hT hz hhost hok.1
      (fun a hDa => hDa.imp_right fun hrest => hrest T₁ hrun) hT₁ hext heff
    have hhost₁ : T₁.ridOf host = some hostRid := by
      rw [hext.ridOf (listed_of_ridOf hhost), hhost]
    obtain ⟨T', hrun', hT', hext', h', hz'⟩ := ih hT₁ hz₁ hhost₁ h₁ (hok.2 T₁ hrun)
    refine ⟨T', ?_, hT', hext.trans hext', h', hz'⟩
    rw [addAdverts, hrun, ok_bind, hrun']

end Advert

/-! ## The other edits -/

section Edits

variable {T T' : Topo} {host : Ptr} {hostRid id : UInt32}

theorem Topo.Supported.linkRemoved (hT : T.Wf) (h : T.Supported)
    (hhost : T.ridOf host = some hostRid) (hok : LastLink hostRid id host T)
    (hrem : LinkRemoved T host hostRid id T') : T'.Supported := by
  intro a b id' hb hab
  rw [hrem.core.ridOf] at hb
  rw [hrem.adj]
  have hab' := h a b id' hb hab
  have hpid : ∀ x : UInt32, ∀ s : Route, decide (s.rId = x) = true → s.rId = x := by
    intro x s hs
    simpa using hs
  cases hn : adjListContains T id with
  | none =>
    have hne : id' ≠ id := by
      rintro rfl
      exact adjListContains_none hn b hb
    have hsubs := hrem.subs
    rw [hn] at hsubs
    simp only at hsubs
    rw [hsubs]
    by_cases ha : a = host
    · subst ha
      rw [Function.update_self, names_swapEraseP_of_ne (hpid id) hne]
      simpa using hab'
    · rw [Function.update_of_ne ha]
      simpa using hab'
  | some n =>
    have hnid := hT.adjListContains_iff.mp hn
    have hsubs := hrem.subs
    rw [hn] at hsubs
    simp only at hsubs
    simp only [Option.some.injEq, forall_eq']
    have hidn : id' = id ↔ b = n := eq_comm.trans (hT.eq_iff_rid hb hnid).symm
    have hidh : id' = hostRid ↔ b = host := eq_comm.trans (hT.eq_iff_rid hb hhost).symm
    rw [hsubs]
    by_cases hnh : n = host
    · -- a link of the router to itself
      subst hnh
      by_cases ha : a = n
      · subst ha
        have hne : id' ≠ id := fun hx => hab (hidn.mp hx).symm
        have hne' : id' ≠ hostRid := fun hx => hab (hidh.mp hx).symm
        simp only [Function.update_self]
        rw [names_swapEraseP_of_ne (hpid hostRid) hne', names_swapEraseP_of_ne (hpid id) hne, ← hab']
        have hba : b ≠ a := Ne.symm hab
        simp [hba]
      · rw [Function.update_of_ne ha, Function.update_of_ne ha, ← hab']
        simp [ha]
    · obtain ⟨hcount, hcount'⟩ := hok n hn hnh
      by_cases han : a = n
      · subst han
        rw [Function.update_self, Function.update_of_ne hnh]
        by_cases hbh : b = host
        · have hnot := not_names_swapEraseP hcount'
          rw [← hidh.mpr hbh] at hnot
          simp [hbh, hidh.mpr hbh, hidh.mpr hbh ▸ hnot]
        · rw [names_swapEraseP_of_ne (hpid hostRid) fun hx => hbh (hidh.mp hx), ← hab']
          simp [hbh, hnh]
      · rw [Function.update_of_ne han]
        by_cases hah : a = host
        · subst hah
          rw [Function.update_self]
          by_cases hbn : b = n
          · have hnot := not_names_swapEraseP hcount
            simp [hbn, hidn.mpr hbn, hnot]
          · rw [names_swapEraseP_of_ne (hpid id) fun hx => hbn (hidn.mp hx), ← hab']
            simp [hbn, han]
        · rw [Function.update_of_ne hah, ← hab']
          simp [han, hah]

theorem Topo.Supported.routerRemoved (hT : T.Wf) (h : T.Supported) {p : Ptr}
    (hp : T.ridOf p = some id) (hrem : RouterRemoved T p id T') : T'.Supported := by
  intro a b id' hb hab
  have hbp : b ≠ p := by
    rintro rfl
    have hl := listed_of_ridOf hb
    rw [hrem.addrs] at hl
    simpa using (List.mem_filter.mp hl).2
  rw [hrem.ridOf hbp] at hb
  rw [hrem.adj, hrem.subs]
  by_cases ha : a = p
  · subst ha
    simp [Names]
  · have hne : id' ≠ id := by
      rintro rfl
      exact hbp (hT.ridOf_injective hb hp)
    have hpid : ∀ s : Route, decide (s.rId = id) = true → s.rId = id := fun s hs => by simpa using hs
    rw [if_neg ha, names_swapEraseP_of_ne hpid hne, ← h a b id' hb hab]
    simp [ha, hbp]

theorem Topo.Supported.subnetLabelled (hT : T.Wf) (hz : T.ZeroFree) (h : T.Supported)
    {msg : HelloMsg} (hok : SupportedName T msg) (hlab : SubnetLabelled T msg T') :
    T'.Supported := by
  obtain ⟨pre, old, post, hsplit, hfirst, hmask, h0, hsubs⟩ := hlab.subs
  intro a b id hb hab
  rw [hlab.core.ridOf] at hb
  rw [hlab.adj, hsubs, h a b id hb hab]
  by_cases ha : a = T.thisRouter
  · subst ha
    have hrec : Recorded True (T.subs T.thisRouter) ⟨old.pfix, old.mask, old.nextHop, msg.rid⟩
        (pre ++ { old with rId := msg.rid } :: post) := .relabelled pre post old hsplit rfl h0
    rw [Function.update_self, hrec.names_iff (hz.ne hb)]
    refine ⟨Or.inl, ?_⟩
    rintro (hn | rfl)
    · exact hn
    · exact (h _ b _ hb hab).mp
        (hok old hfirst h0 hmask b (hT.adjListContains_iff.mpr hb) (Ne.symm hab))
  · rw [Function.update_of_ne ha]

theorem Topo.Supported.sameLinks (h : T.Supported) (hl : SameLinks T T') : T'.Supported := by
  intro a b id hb hab
  rw [hl.ridOf] at hb
  rw [hl.adj, hl.subs]
  exact h a b id hb hab

/-- The state an LSU is merged from: a sender listed just now is named but not adjacent. -/
theorem mergeStart_supported {S : PwospfSubsys} (hS : S.Wf) (h : S.top.Supported)
    (hz : S.top.ZeroFree) {clock : Nat → Time} {ads : List Route}
    (hok : SupportedMerge S clock hostRid ads) :
    SupportedBut (fun a => AdvertsSome (LinksTo a (conRouterOf S.top hostRid (clock 0)).2)
        (conRouterOf S.top hostRid (clock 0)).2 (fun k => clock (k + 2)) ads
        (mergeStart S.top clock hostRid))
      (conRouterOf S.top hostRid (clock 0)).2 (mergeStart S.top clock hostRid) ∧
    (mergeStart S.top clock hostRid).ZeroFree := by
  obtain ⟨-, hext, hadj, hsubs, hrid, hlist, haddrs⟩ := mergeStart_spec hS.top clock hostRid
  obtain ⟨hr0, -, hpending⟩ := hok
  refine ⟨fun a b id hb hab => ?_, fun p hp => ?_⟩
  · rw [hadj, hsubs]
    by_cases hbl : b ∈ S.top.addrs
    · rw [hext.ridOf hbl] at hb
      rw [h a b id hb hab]
      exact ⟨fun hn => hn, Or.inl⟩
    · have hbh := (haddrs b (listed_of_ridOf hb)).resolve_left hbl
      have hnone : adjListContains S.top hostRid = none := by
        rcases hlist with hl | ⟨hl, -⟩
        · rw [← hbh] at hl
          exact absurd (listed_of_ridOf (hS.top.adjListContains_iff.mp hl)) hbl
        · exact hl
      have hid : id = hostRid := Option.some.inj (hb.symm.trans (hbh ▸ hrid))
      subst hid
      refine ⟨fun hm => absurd (hS.top.adjListed a b hm) hbl, fun hn => Or.inr ⟨hbh, ?_⟩⟩
      refine hpending hnone a ?_ hn
      by_contra hal
      exact not_names_unlisted hal _ hn
  · rcases haddrs p (listed_of_ridOf hp) with hl | rfl
    · exact hz p (by rw [← hext.ridOf hl, hp])
    · exact hr0 (Option.some.inj (hrid.symm.trans hp))

theorem Topo.Supported.merge {S : PwospfSubsys} {clock : Nat → Time} {ads : List Route}
    (hS : S.Wf) (h : S.top.Supported) (hz : S.top.ZeroFree)
    (hok : SupportedMerge S clock hostRid ads)
    (hrun : mergeAdverts S.top S.initTime clock hostRid ads = .ok T') :
    T'.Supported ∧ T'.ZeroFree := by
  obtain ⟨hstart, hz₁⟩ := mergeStart_supported hS h hz hok
  obtain ⟨hT₁, -, -, -, hhost₁, -⟩ := mergeStart_spec hS.top clock hostRid
  obtain ⟨T₂, hrun₂, hT₂, hext₂, h₂, hz₂⟩ :=
    addAdverts_supported hT₁ hz₁ hhost₁ hstart hok.2.1.1
  obtain ⟨T'', hrun', -, -, h'⟩ := mergePrune_invariant
    (I := fun T => T.Supported ∧ T.ZeroFree)
    (Q := fun host T s => LastLink hostRid s.rId host T)
    (fun host ads T s T' hT hhost hI _ _ hlast _ hrem =>
      ⟨hI.1.linkRemoved hT hhost hlast hrem, fun p => by rw [hrem.core.ridOf]; exact hI.2 p⟩)
    hS.top hrun₂ hT₂ hext₂ ⟨h₂, hz₂⟩ (hok.2.1.2 T₂ hrun₂)
  rw [hrun', Except.ok.injEq] at hrun
  exact hrun ▸ h'

end Edits

/-! ## Runs -/

/-- In every run whose steps keep names and adjacencies in step, a router is adjacent to another
one exactly when one of its subnets names it. -/
theorem adjacencies_supported {sr : SrInstance} {clock : Nat → Time} {areaId : UInt32}
    {S₀ S : PwospfSubsys} (h₀ : pwospfInit sr clock areaId = .ok S₀)
    (hzero : S₀.top.ridOf S₀.top.thisRouter ≠ some 0) (hS : Reach Step SupportedEvent S₀ S) :
    ∀ a b id, S.top.ridOf b = some id → a ≠ b →
      (b ∈ S.top.adj a ↔ ∃ s ∈ S.top.subs a, s.rId = id) := by
  have hone : ∀ p id, S₀.top.ridOf p = some id → p = S₀.top.thisRouter := by
    intro p id hp
    obtain ⟨r, hnet, hthis, -⟩ := pwospfInit_spec h₀
    have hl := listed_of_ridOf hp
    rw [addrs, hnet] at hl
    rw [hthis]
    simpa using hl
  refine (run_invariant (I := fun T => T.Supported ∧ T.ZeroFree) (M := SupportedMerge)
    (Q := SupportedExpiry) (L := SupportedName) ?_ ?_ ?_ ?_ ?_ (fun _ _ _ _ hok => hok)
    (pwospfInit_wf h₀) ⟨?_, ?_⟩ hS).2.2.1
  · exact fun T T' _ h hl => ⟨h.1.sameLinks hl, fun p => by rw [hl.ridOf]; exact h.2 p⟩
  · exact fun S clock hostRid ads T' hWf _ h hok hrun => h.1.merge hWf h.2 hok hrun
  · exact fun T thisRid id T' hT hthis h hok _ hrem =>
      ⟨h.1.linkRemoved hT hthis (hok thisRid hthis) hrem,
        fun p => by rw [hrem.core.ridOf]; exact h.2 p⟩
  · exact fun T msg T' hT h hok _ hlab =>
      ⟨h.1.subnetLabelled hT h.2 hok hlab, fun p => by rw [hlab.core.ridOf]; exact h.2 p⟩
  · intro T p id T' hT hp _ h hT' hrem
    refine ⟨h.1.routerRemoved hT hp hrem, fun q hq => ?_⟩
    have hqp : q ≠ p := by
      rintro rfl
      have hl := listed_of_ridOf hq
      rw [hrem.addrs] at hl
      simpa using (List.mem_filter.mp hl).2
    exact h.2 q (by rw [← hrem.ridOf hqp, hq])
  · intro a b id hb hab
    rw [pwospfInit_adj h₀ a]
    have hal : a ∉ S₀.top.addrs := by
      intro hl
      obtain ⟨id', hid'⟩ := ridOf_isSome hl
      exact hab ((hone a id' hid').trans (hone b id hb).symm)
    constructor
    · intro hm
      cases hm
    · intro hn
      exact absurd hn (not_names_unlisted hal id)
  · intro p hp
    exact hzero (hone p 0 hp ▸ hp)

theorem adjacencies_supported_demo :
    ∃ S, Reach Step SupportedEvent demoStart S ∧ S.top.adj 0 = [1] ∧
      ∀ a b id, S.top.ridOf b = some id → a ≠ b →
        (b ∈ S.top.adj a ↔ ∃ s ∈ S.top.subs a, s.rId = id) := by
  have hadj : (runAll Event.run (fun S e => decide (e.Admitted S ∧ SupportedEvent S e)) demoEvents
      demoStart).map (fun S => S.top.adj 0) = some [1] := by decide
  obtain ⟨S, hrun, hS⟩ := Option.map_eq_some_iff.mp hadj
  have hreach : Reach Step SupportedEvent demoStart S :=
    reach_of_runAll (fun S e h => by simpa using h) hrun
  exact ⟨S, hreach, hS, adjacencies_supported demoStart_init (by decide) hreach⟩

/-- Router 7 withdraws the second of its two parallel links to router 8: the prune loop takes away
the first one and both adjacencies, and router 7 keeps the withdrawn subnet. -/
theorem adjacencies_not_supported :
    ¬ ∀ (sr : SrInstance) (clock : Nat → Time) (areaId : UInt32) (S₀ S : PwospfSubsys),
      pwospfInit sr clock areaId = .ok S₀ → Reach Step (fun _ _ => True) S₀ S →
        ∀ a b id, S.top.ridOf b = some id → a ≠ b →
          (b ∈ S.top.adj a ↔ ∃ s ∈ S.top.subs a, s.rId = id) := by
  intro hall
  have hstate : (runAll Event.run (fun S e => decide (e.Admitted S))
      [.lsu (fun _ => 1) 7 [⟨0x10, 0xfeffffff, 0, 8⟩, ⟨0x20, 0xfeffffff, 0, 8⟩],
        .lsu (fun _ => 91) 7 [⟨0x10, 0xfeffffff, 0, 8⟩]]
      demoStart).map (fun S => (S.top.ridOf 2, S.top.adj 1, (S.top.subs 1).map Route.rId)) =
      some (some 8, [], [8]) := by decide
  obtain ⟨S, hrun, hS⟩ := Option.map_eq_some_iff.mp hstate
  have hreach : Reach Step (fun _ _ => True) demoStart S :=
    reach_of_runAll (fun S e h => ⟨by simpa using h, True.intro⟩) hrun
  simp only [Prod.mk.injEq] at hS
  obtain ⟨hid, hadj, hsubs⟩ := hS
  obtain ⟨s, hs, hname⟩ : ∃ s ∈ S.top.subs 1, s.rId = 8 := by
    simpa using (by rw [hsubs]; simp : (8 : UInt32) ∈ (S.top.subs 1).map Route.rId)
  have h := (hall demoSr _ 0 demoStart S demoStart_init hreach 1 2 8 hid (by decide)).mpr
    ⟨s, hs, hname⟩
  rw [hadj] at h
  cases h

end PWOSPF
