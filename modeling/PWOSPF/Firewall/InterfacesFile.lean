import PWOSPF.Firewall.RulesFile

/-!
# The interfaces file

`init_if_config` of `fw.c` takes every line of the file apart with `sscanf` and puts the interface into
the list of its category.
-/

namespace PWOSPF

open Framework

/-! ## Loading the interfaces -/

def fwExternal : List UInt8 := [101, 120, 116, 101, 114, 110, 97, 108]
def fwInternal : List UInt8 := [105, 110, 116, 101, 114, 110, 97, 108]

/-- The arrays of `init_if_config`, which no line initialises. -/
structure IfVars where
  ifName : List UInt8
  category : List UInt8
  deriving DecidableEq, Repr

/-- `sscanf` with the format of `init_if_config`. The arrays are as long as those of
`init_rules_table`. -/
def sscanfIf (line : List UInt8) (v : IfVars) : Exec IfVars :=
  match scanString line with
  | none => .ok v
  | some (ifName, line) => do
    let v := { v with ifName := ← storeString ifName }
    match scanString line with
    | none => return v
    | some (category, _) => return { v with category := ← storeString category }

/-- The new entry comes behind the walker, which then is at it. -/
def appendIf (l : List IfName) (walker : Nat) (name : IfName) : List IfName × Nat :=
  if l = [] then ([name], 0) else (l.take (walker + 1) ++ [name], walker + 1)

/-- The loop over the lines, with the places of `int_walker` and `ext_walker`. -/
def loadIfs : IfVars → Firewall → Nat → Nat → List (List UInt8) → Exec Firewall
  | _, fw, _, _, [] => .ok fw
  | v, fw, intWalker, extWalker, line :: lines => do
    let v ← sscanfIf (cString line) v
    if v.category = fwExternal then
      let (exter, extWalker) := appendIf fw.exter extWalker v.ifName
      loadIfs v { fw with exter := exter } intWalker extWalker lines
    else if v.category = fwInternal then
      let (inter, intWalker) := appendIf fw.inter intWalker v.ifName
      loadIfs v { fw with inter := inter } intWalker extWalker lines
    else loadIfs v fw intWalker extWalker lines

/-- The walkers start at the heads of the lists. -/
def initIfConfig (v : IfVars) (fw : Firewall) (file : List UInt8) : Exec Firewall :=
  loadIfs v fw 0 0 (fgetsLines file)

/-! ## Tokens -/

/-- A name that `%s` reads as a whole, and that fits its array. -/
structure Printable (s : List UInt8) : Prop where
  ne_nil : s ≠ []
  short : s.length < ipInLength
  visible : ∀ c ∈ s, isspace c = false ∧ c ≠ 0

instance (s : List UInt8) : Decidable (Printable s) :=
  decidable_of_iff (s ≠ [] ∧ s.length < ipInLength ∧ s.all fun c => isspace c = false ∧ c ≠ 0)
    ⟨fun h => ⟨h.1, h.2.1, fun c hc => of_decide_eq_true (List.all_eq_true.mp h.2.2 c hc)⟩,
      fun h => ⟨h.ne_nil, h.short, List.all_eq_true.mpr fun c hc => decide_eq_true (h.visible c hc)⟩⟩

variable {token rest : List UInt8}

theorem scanString_token {front : List UInt8} {c : UInt8} (h : Printable token)
    (hfront : ∀ x ∈ front, isspace x = true) (hc : isspace c = true) :
    scanString (front ++ (token ++ c :: rest)) = some (token, c :: rest) := by
  have hskip : (front ++ (token ++ c :: rest)).dropWhile isspace = token ++ c :: rest := by
    rw [List.dropWhile_append_of_pos hfront]
    cases hs : token with
    | nil => exact absurd hs h.ne_nil
    | cons x t =>
      have hx := (h.visible x (by rw [hs]; exact List.mem_cons_self)).1
      rw [List.cons_append, List.dropWhile_cons_of_neg (by rw [hx]; exact Bool.noConfusion)]
  have htake : (token ++ c :: rest).takeWhile (fun x => !isspace x) = token := by
    rw [List.takeWhile_append_of_pos fun x hx => by rw [(h.visible x hx).1]; rfl,
      List.takeWhile_cons_of_neg (by simp [hc]), List.append_nil]
  rw [scanString, hskip, htake]
  cases hs : token with
  | nil => exact absurd hs h.ne_nil
  | cons x t =>
    show some (x :: t, List.drop (x :: t).length (x :: t ++ c :: rest)) = _
    rw [List.drop_left]

theorem storeString_eq (h : Printable token) : storeString token = .ok token := if_pos h.short

/-! ## Categories in writing -/

def categoryName (external : Bool) : List UInt8 := if external then fwExternal else fwInternal

/-- The line of an interface. -/
def ifLine (x : IfName × Bool) : List UInt8 := x.1 ++ 9 :: (categoryName x.2 ++ [10])

def ifFile (entries : List (IfName × Bool)) : List UInt8 := (entries.map ifLine).flatten

/-- The interfaces of a category. -/
def ofCategory (external : Bool) (entries : List (IfName × Bool)) : List IfName :=
  (entries.filter fun x => x.2 = external).map Prod.fst

variable {x : IfName × Bool} {entries : List (IfName × Bool)}

theorem categoryName_printable (external : Bool) :
    Printable (categoryName external) ∧ (categoryName external).length = 8 := by
  cases external <;> decide

theorem Printable.no_newline (h : Printable token) : newline ∉ token := by
  intro hmem
  have hspace : isspace newline = true := by decide
  exact Bool.noConfusion (hspace.symm.trans (h.visible newline hmem).1)

theorem ifLine_clean (hname : Printable x.1) : cString (ifLine x) = ifLine x := by
  have hcategory := (categoryName_printable x.2).1
  rw [cString, List.takeWhile_eq_self_iff]
  intro c hc
  simp only [ifLine, List.mem_append, List.mem_cons, List.not_mem_nil, or_false] at hc
  rw [decide_eq_true_iff]
  rcases hc with hc | rfl | hc | rfl
  exacts [(hname.visible c hc).2, by decide, (hcategory.visible c hc).2, by decide]

theorem sscanfIf_line (hname : Printable x.1) (v : IfVars) :
    sscanfIf (cString (ifLine x)) v = .ok ⟨x.1, categoryName x.2⟩ := by
  have hcategory := (categoryName_printable x.2).1
  have h₁ := @scanString_token _ (categoryName x.2 ++ [10]) [] 9 hname
    (fun x hx => absurd hx List.not_mem_nil) (by decide)
  have h₂ := @scanString_token _ [] [9] 10 hcategory (fun c hc => by rw [List.mem_singleton.mp hc]; rfl)
    (by decide)
  rw [List.nil_append] at h₁
  rw [List.singleton_append] at h₂
  rw [ifLine_clean hname, sscanfIf, ifLine]
  simp only [h₁, h₂, storeString_eq hname, storeString_eq hcategory, ok_bind, pure_eq_ok]

theorem ifLine_fits (hname : Printable x.1) :
    (ifLine x).length ≤ bufsiz - 1 ∧ ∃ body, ifLine x = body ++ [newline] ∧ newline ∉ body := by
  have hcategory := categoryName_printable x.2
  refine ⟨?_, x.1 ++ 9 :: categoryName x.2, ?_, ?_⟩
  · have hshort : x.1.length < 32 := hname.short
    simp only [ifLine, List.length_append, List.length_cons, List.length_nil, bufsiz, hcategory.2]
    omega
  · simp only [ifLine, List.append_assoc, List.cons_append, newline]
  · have hpoint : newline ≠ 9 := by decide
    simp only [List.mem_append, List.mem_cons, not_or]
    exact ⟨hname.no_newline, hpoint, hcategory.1.no_newline⟩

/-- A walker at the end appends. -/
theorem appendIf_end {l : List IfName} {walker : Nat} (h : l ≠ [] → walker + 1 = l.length)
    (name : IfName) : appendIf l walker name = (l ++ [name], l.length) := by
  rw [appendIf]
  by_cases hl : l = []
  · rw [if_pos hl, hl]
    rfl
  · rw [if_neg hl, h hl, List.take_length]

theorem loadIfs_lines (hnames : ∀ x ∈ entries, Printable x.1) (v : IfVars) {fw : Firewall}
    {intWalker extWalker : Nat} (hint : fw.inter ≠ [] → intWalker + 1 = fw.inter.length)
    (hext : fw.exter ≠ [] → extWalker + 1 = fw.exter.length) :
    loadIfs v fw intWalker extWalker (entries.map ifLine) =
      .ok { fw with
        inter := fw.inter ++ ofCategory false entries
        exter := fw.exter ++ ofCategory true entries } := by
  induction entries generalizing v fw intWalker extWalker with
  | nil => simp only [List.map_nil, loadIfs, ofCategory, List.filter_nil, List.append_nil]
  | cons x entries ih =>
    obtain ⟨hname, hnames⟩ := List.forall_mem_cons.mp hnames
    have hgrown : ∀ (l : List IfName) (name : IfName), l ++ [name] ≠ [] →
        l.length + 1 = (l ++ [name]).length := fun l name _ => by
      rw [List.length_append, List.length_singleton]
    rw [List.map_cons, loadIfs, sscanfIf_line hname, ok_bind]
    dsimp only
    cases hx : x.2 with
    | true =>
      have hrest := @ih hnames ⟨x.1, categoryName true⟩ { fw with exter := fw.exter ++ [x.1] } intWalker
        fw.exter.length hint (hgrown fw.exter x.1)
      rw [if_pos (show categoryName true = fwExternal from rfl), appendIf_end hext, hrest]
      simp [ofCategory, hx]
    | false =>
      have hrest := @ih hnames ⟨x.1, categoryName false⟩ { fw with inter := fw.inter ++ [x.1] }
        fw.inter.length extWalker (hgrown fw.inter x.1) hext
      rw [if_neg (show ¬ categoryName false = fwExternal by decide),
        if_pos (show categoryName false = fwInternal from rfl), appendIf_end hint, hrest]
      simp [ofCategory, hx]

theorem mem_ofCategory {external : Bool} {name : IfName} :
    name ∈ ofCategory external entries ↔ (name, external) ∈ entries := by
  simp [ofCategory]

/-- Of a file that lists interfaces with their categories, whatever is on the stack before: the firewall
then takes exactly the interfaces of each category for external and internal, in the order of the file. -/
theorem if_config_loads (hnames : ∀ x ∈ entries, Printable x.1) (v : IfVars) {fw : Firewall}
    (hint : fw.inter = []) (hext : fw.exter = []) :
    ∃ fw', initIfConfig v fw (ifFile entries) = .ok fw' ∧
      fw' = { fw with
        inter := ofCategory false entries
        exter := ofCategory true entries } ∧
      ∀ name, (isExternal fw' name ↔ (name, true) ∈ entries) ∧
        (isInternal fw' name ↔ (name, false) ∈ entries) := by
  have hlines : fgetsLines (ifFile entries) = entries.map ifLine := by
    refine piecesFrom_flatten (by decide) fun line hline => ?_
    obtain ⟨x, hx, rfl⟩ := List.mem_map.mp hline
    exact ifLine_fits (hnames x hx)
  have hloaded := @loadIfs_lines entries hnames v fw 0 0 (fun h => absurd hint h) fun h => absurd hext h
  rw [hint, hext, List.nil_append, List.nil_append] at hloaded
  refine ⟨_, ?_, rfl, fun name => ⟨?_, ?_⟩⟩
  · rw [initIfConfig, hlines, hloaded]
  · rw [isExternal, List.any_eq_true]
    simp [mem_ofCategory]
  · rw [isInternal, List.any_eq_true]
    simp [mem_ofCategory]

/-- `eth0 internal`, `eth1 external` -/
theorem if_config_loads_demo : ∃ fw',
    initIfConfig ⟨[], []⟩ ⟨[], [], 0, [], []⟩ (ifFile [([101, 48], false), ([101, 49], true)]) = .ok fw' ∧
    isExternal fw' [101, 49] ∧ ¬ isExternal fw' [101, 48] := by
  have hnames : ∀ x ∈ [(([101, 48] : IfName), false), ([101, 49], true)], Printable x.1 := by
    rw [List.forall_mem_cons, List.forall_mem_singleton]
    exact ⟨by decide, by decide⟩
  obtain ⟨fw', hrun, -, hname⟩ := @if_config_loads _ hnames ⟨[], []⟩ ⟨[], [], 0, [], []⟩ rfl rfl
  exact ⟨fw', hrun, (hname [101, 49]).1.mpr (by simp), fun h => by
    have hmem := (hname [101, 48]).1.mp h
    simp at hmem⟩

end PWOSPF
