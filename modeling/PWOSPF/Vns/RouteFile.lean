import PWOSPF.Firewall.InterfacesFile
import PWOSPF.Topology.State

/-!
# The routing table file

`sr_load_rt` of `sr_rt.c` takes every line of the file apart with `sscanf` and adds a route for it. A
table that is written as such a file is read as it is.
-/

namespace PWOSPF

open Framework

/-! ## Loading the routes -/

/-- The arrays of `sr_load_rt`, which no line initialises. -/
structure RtVars where
  dest : List UInt8
  gw : List UInt8
  mask : List UInt8
  iface : List UInt8
  deriving DecidableEq, Repr

/-- `sscanf` with the format of `sr_load_rt`. All arrays are as long as those of `init_rules_table`. -/
def sscanfRoute (line : List UInt8) (v : RtVars) : Exec RtVars :=
  match scanString line with
  | none => .ok v
  | some (dest, line) => do
    let v := { v with dest := ← storeString dest }
    match scanString line with
    | none => return v
    | some (gw, line) =>
      let v := { v with gw := ← storeString gw }
      match scanString line with
      | none => return v
      | some (mask, line) =>
        let v := { v with mask := ← storeString mask }
        match scanString line with
        | none => return v
        | some (iface, _) => return { v with iface := ← storeString iface }

def srAddRtEntry (table : List SrRt) (dest gw mask : InAddr) (ifName : IfName) : List SrRt :=
  table ++ [⟨dest, gw, mask, ifName⟩]

/-- The loop of `sr_load_rt` over the lines; also what it returns. -/
def loadRoutes : RtVars → List SrRt → List (List UInt8) → Exec (List SrRt × Int)
  | _, table, [] => .ok (table, 0)
  | v, table, line :: lines => do
    let v ← sscanfRoute (cString line) v
    match inetAton v.dest with
    | none => return (table, -1)
    | some destAddr =>
      match inetAton v.gw with
      | none => return (table, -1)
      | some gwAddr =>
        match inetAton v.mask with
        | none => return (table, -1)
        | some maskAddr => loadRoutes v (srAddRtEntry table destAddr gwAddr maskAddr v.iface) lines

/-- `v` is what the arrays hold before the first line. -/
def srLoadRt (v : RtVars) (table : List SrRt) (file : List UInt8) : Exec (List SrRt × Int) :=
  loadRoutes v table (fgetsLines file)

/-! ## Addresses in writing -/

/-- The decimal digits of a byte. -/
def octet (b : UInt8) : List UInt8 := (Nat.toDigits 10 b.toNat).map fun c => .ofNat c.toNat

/-- The four bytes of an address, the first one the most significant in network byte order. -/
def dottedQuad (ip : InAddr) : List UInt8 := [46].intercalate ((leBytes 4 ip.toNat).map octet)

def octetValue (s : List UInt8) : Nat := s.foldl (fun n c => 10 * n + digitValue c) 0

/-- Digits are written without zeros in front. -/
structure IsOctet (s : List UInt8) (n : Nat) : Prop where
  ne_nil : s ≠ []
  short : s.length ≤ 3
  digits : ∀ c ∈ s, isdigit c
  decimal : ∀ c ∈ s, digitValue c < 10
  value : octetValue s = n
  zero : s.head? = some 48 → s = [48]

instance (s : List UInt8) (n : Nat) : Decidable (IsOctet s n) :=
  decidable_of_iff (s ≠ [] ∧ s.length ≤ 3 ∧ (s.all fun c => isdigit c) ∧
      (s.all fun c => digitValue c < 10) ∧ octetValue s = n ∧ (s.head? = some 48 → s = [48]))
    ⟨fun h => ⟨h.1, h.2.1, fun c hc => List.all_eq_true.mp h.2.2.1 c hc,
        fun c hc => of_decide_eq_true (List.all_eq_true.mp h.2.2.2.1 c hc), h.2.2.2.2.1,
        h.2.2.2.2.2⟩,
      fun h => ⟨h.ne_nil, h.short, List.all_eq_true.mpr h.digits,
        List.all_eq_true.mpr fun c hc => decide_eq_true (h.decimal c hc), h.value, h.zero⟩⟩

theorem octet_isOctet (b : UInt8) : IsOctet (octet b) b.toNat := by
  have hall : ∀ n : Fin 256, IsOctet (octet (.ofNat n)) n := by decide +kernel
  have hb := hall ⟨b.toNat, b.toNat_lt⟩
  rwa [UInt8.ofNat_toNat] at hb

variable {b : UInt8} {rest : List UInt8}

/-- A number with a point behind it, or at the end. -/
theorem strtoul_octet (hrest : rest = [] ∨ ∃ s, rest = 46 :: s) :
    strtoul (octet b ++ rest) = (b.toNat, rest) := by
  have hb := octet_isOctet b
  have hstop : ∀ c, rest.head? = some c → ¬ digitValue c < 10 := by
    rintro c hc
    rcases hrest with rfl | ⟨s, rfl⟩
    · cases hc
    · cases hc
      decide
  have htake : (octet b ++ rest).takeWhile (fun c => decide (digitValue c < 10)) = octet b := by
    rw [List.takeWhile_append_of_pos fun c hc => decide_eq_true (hb.decimal c hc)]
    cases hr : rest with
    | nil => exact List.append_nil _
    | cons c s =>
      rw [List.takeWhile_cons_of_neg (by simpa using hstop c (by rw [hr]; rfl)), List.append_nil]
  have hdigits : digits 10 (octet b ++ rest) = (b.toNat, rest) := by
    rw [digits, htake, List.drop_left, ← hb.value]
    rfl
  cases hs : octet b with
  | nil => exact absurd hs hb.ne_nil
  | cons c t =>
    rw [hs] at hdigits
    by_cases hc : c = 48
    · have hzero := hb.zero (by rw [hs, hc]; rfl)
      have hvalue : b.toNat = 0 := by
        rw [← hb.value, hzero]
        rfl
      rw [← hs, hzero, hvalue]
      rcases hrest with rfl | ⟨s, rfl⟩
      · rfl
      · have height : (48 :: 46 :: s).takeWhile (fun c => decide (digitValue c < 8)) = [48] := rfl
        rw [List.singleton_append, strtoul, if_neg (by decide), digits, height]
        rfl
    · rw [← hdigits, List.cons_append, strtoul]
      intro x s heq
      exact hc (List.cons.inj heq).1

/-- It starts with a digit. -/
theorem octet_head (b : UInt8) (rest : List UInt8) :
    ¬ ((octet b ++ rest).head?.all fun c => !isdigit c) = true := by
  have hb := octet_isOctet b
  cases hs : octet b with
  | nil => exact absurd hs hb.ne_nil
  | cons c t =>
    have hc := hb.digits c (by rw [hs]; exact List.mem_cons_self)
    simp [hc]

theorem inetParts_point (n : Nat) (b : UInt8) (s : List UInt8) :
    inetParts (n + 1) (octet b ++ 46 :: s) = (inetParts n s).map (b.toNat :: ·) := by
  have hsmall : ¬ b.toNat > 255 := Nat.not_lt.mpr (Nat.le_of_lt_succ b.toNat_lt)
  rw [inetParts.eq_def]
  dsimp only
  rw [if_neg (octet_head b _), strtoul_octet (.inr ⟨s, rfl⟩)]
  exact if_neg hsmall

theorem inetParts_last (n : Nat) (b : UInt8) : inetParts n (octet b) = some [b.toNat] := by
  have hhead := octet_head b []
  have hnumber := @strtoul_octet b [] (.inl rfl)
  rw [List.append_nil] at hhead hnumber
  rw [inetParts.eq_def]
  dsimp only
  rw [if_neg hhead, hnumber]

/-- The bytes of an address, and how they are written. -/
theorem dottedQuad_eq (ip : InAddr) : ∃ a b c d, leBytes 4 ip.toNat = [a, b, c, d] ∧
    dottedQuad ip = octet a ++ 46 :: (octet b ++ 46 :: (octet c ++ 46 :: octet d)) := by
  obtain ⟨a, b, c, d, hbytes⟩ : ∃ a b c d, leBytes 4 ip.toNat = [a, b, c, d] := by
    have hlen := leBytes_length 4 ip.toNat
    match leBytes 4 ip.toNat, hlen with
    | [a, b, c, d], _ => exact ⟨a, b, c, d, rfl⟩
  refine ⟨a, b, c, d, hbytes, ?_⟩
  rw [dottedQuad, hbytes]
  simp [List.intercalate]

theorem inetAton_dottedQuad (ip : InAddr) : inetAton (dottedQuad ip) = some ip := by
  obtain ⟨a, b, c, d, hbytes, hquad⟩ := dottedQuad_eq ip
  have hvalue : inetValue 4 [a.toNat, b.toNat, c.toNat, d.toNat] = some (leValue [d, c, b, a]) := by
    have hd : d.toNat < 256 ^ (4 - 1 - 1 - 1) := d.toNat_lt
    simp only [inetValue, if_pos hd, Option.map_some, leValue, List.foldr]
    congr 1
    omega
  have hback : htonl (.ofNat (leValue [d, c, b, a])) = ip := by
    have hlt : leValue [d, c, b, a] < 256 ^ 4 := leValue_lt [d, c, b, a]
    have hswap : (leBytes 4 (leValue [d, c, b, a])).reverse = [a, b, c, d] :=
      congrArg List.reverse (leBytes_leValue [d, c, b, a])
    rw [htonl, UInt32.toNat_ofNat_of_lt' (Nat.lt_of_lt_of_le hlt (by decide)), hswap, ← hbytes,
      leValue_leBytes 4 _ ip.toNat_lt, UInt32.ofNat_toNat]
  rw [inetAton, hquad, inetParts_point, inetParts_point, inetParts_point, inetParts_last]
  simp only [Option.map_some, Option.bind_some, hvalue, hback]

/-! ## Tables in writing -/

/-- The line of a route. -/
def routeLine (rt : SrRt) : List UInt8 :=
  dottedQuad rt.dest ++ 9 :: (dottedQuad rt.gw ++ 9 :: (dottedQuad rt.mask ++ 9 :: (rt.interface ++ [10])))

def routeFile (table : List SrRt) : List UInt8 := (table.map routeLine).flatten

variable {rt : SrRt}

theorem dottedQuad_printable (ip : InAddr) :
    Printable (dottedQuad ip) ∧ (dottedQuad ip).length ≤ 15 := by
  obtain ⟨a, b, c, d, -, hquad⟩ := dottedQuad_eq ip
  have hlen : (dottedQuad ip).length ≤ 15 := by
    have ha := (octet_isOctet a).short
    have hb := (octet_isOctet b).short
    have hc := (octet_isOctet c).short
    have hd := (octet_isOctet d).short
    rw [hquad]
    simp only [List.length_append, List.length_cons]
    omega
  have hdigit : ∀ n : Fin 256, isdigit (.ofNat n) = true →
      isspace (.ofNat n) = false ∧ (UInt8.ofNat n) ≠ 0 := by decide +kernel
  have hocts : ∀ x, ∀ y ∈ octet x, isspace y = false ∧ y ≠ 0 := by
    intro x y hy
    have hdig := (octet_isOctet x).digits y hy
    have hall := hdigit ⟨y.toNat, y.toNat_lt⟩
    simp only [UInt8.ofNat_toNat] at hall
    exact hall hdig
  have hpoint : isspace 46 = false ∧ (46 : UInt8) ≠ 0 := by decide
  refine ⟨⟨?_, Nat.lt_of_le_of_lt hlen (by decide), fun y hy => ?_⟩, hlen⟩
  · rw [hquad]
    simp
  · rw [hquad] at hy
    simp only [List.mem_append, List.mem_cons] at hy
    rcases hy with hy | rfl | hy | rfl | hy | rfl | hy
    exacts [hocts a y hy, hpoint, hocts b y hy, hpoint, hocts c y hy, hpoint, hocts d y hy]

/-- Every line of the file is read as a whole, and in its order. -/
theorem sscanfRoute_line (hname : Printable rt.interface) (v : RtVars) :
    sscanfRoute (cString (routeLine rt)) v =
      .ok ⟨dottedQuad rt.dest, dottedQuad rt.gw, dottedQuad rt.mask, rt.interface⟩ := by
  have hdest := (dottedQuad_printable rt.dest).1
  have hgw := (dottedQuad_printable rt.gw).1
  have hmask := (dottedQuad_printable rt.mask).1
  have hwhole : cString (routeLine rt) = routeLine rt := by
    rw [cString, List.takeWhile_eq_self_iff]
    intro x hx
    simp only [routeLine, List.mem_append, List.mem_cons, List.not_mem_nil, or_false] at hx
    rw [decide_eq_true_iff]
    rcases hx with hx | rfl | hx | rfl | hx | rfl | hx | rfl
    exacts [(hdest.visible x hx).2, by decide, (hgw.visible x hx).2, by decide, (hmask.visible x hx).2,
      by decide, (hname.visible x hx).2, by decide]
  have htab : ∀ x ∈ [(9 : UInt8)], isspace x = true := fun x hx => by
    rw [List.mem_singleton.mp hx]
    rfl
  have h₁ := @scanString_token _ (dottedQuad rt.gw ++ 9 :: (dottedQuad rt.mask ++ 9 :: (rt.interface ++
    [10]))) [] 9 hdest (fun x hx => absurd hx List.not_mem_nil) (by decide)
  have h₂ := @scanString_token _ (dottedQuad rt.mask ++ 9 :: (rt.interface ++ [10])) _ 9 hgw htab
    (by decide)
  have h₃ := @scanString_token _ (rt.interface ++ [10]) _ 9 hmask htab (by decide)
  have h₄ := @scanString_token _ [] _ 10 hname htab (by decide)
  rw [List.nil_append] at h₁
  rw [List.singleton_append] at h₂ h₃ h₄
  rw [hwhole, sscanfRoute, routeLine]
  simp only [h₁, h₂, h₃, h₄, storeString_eq hdest, storeString_eq hgw, storeString_eq hmask,
    storeString_eq hname, ok_bind, pure_eq_ok]

theorem loadRoutes_lines {table : List SrRt} (hnames : ∀ rt ∈ table, Printable rt.interface)
    (v : RtVars) (before : List SrRt) :
    loadRoutes v before (table.map routeLine) = .ok (before ++ table, 0) := by
  induction table generalizing v before with
  | nil => rw [List.map_nil, loadRoutes, List.append_nil]
  | cons rt table ih =>
    obtain ⟨hname, hnames⟩ := List.forall_mem_cons.mp hnames
    rw [List.map_cons, loadRoutes, sscanfRoute_line hname, ok_bind]
    simp only [inetAton_dottedQuad]
    rw [ih hnames, srAddRtEntry, List.append_assoc, List.singleton_append]

/-- Lines of routes have one end, and fit the buffer of `fgets`. -/
theorem routeLine_fits (hname : Printable rt.interface) :
    (routeLine rt).length ≤ bufsiz - 1 ∧ ∃ body, routeLine rt = body ++ [newline] ∧ newline ∉ body := by
  have hdest := dottedQuad_printable rt.dest
  have hgw := dottedQuad_printable rt.gw
  have hmask := dottedQuad_printable rt.mask
  refine ⟨?_, dottedQuad rt.dest ++ 9 :: (dottedQuad rt.gw ++ 9 :: (dottedQuad rt.mask ++
    9 :: rt.interface)), ?_, ?_⟩
  · have hiface : rt.interface.length < 32 := hname.short
    have hd := hdest.2
    have hg := hgw.2
    have hm := hmask.2
    simp only [routeLine, List.length_append, List.length_cons, List.length_nil, bufsiz]
    omega
  · simp only [routeLine, List.append_assoc, List.cons_append, newline]
  · have hpoint : newline ≠ 9 := by decide
    simp only [List.mem_append, List.mem_cons, not_or]
    exact ⟨hdest.1.no_newline, hpoint, hgw.1.no_newline, hpoint, hmask.1.no_newline, hpoint,
      hname.no_newline⟩

/-- The file is cut into the lines of its routes. -/
theorem fgetsLines_routeFile {table : List SrRt} (hnames : ∀ rt ∈ table, Printable rt.interface) :
    fgetsLines (routeFile table) = table.map routeLine := by
  refine piecesFrom_flatten (by decide) fun x hx => ?_
  obtain ⟨rt, hrt, rfl⟩ := List.mem_map.mp hx
  exact routeLine_fits (hnames rt hrt)

/-- Whatever is on the stack before: `sr_load_rt` adds to the routes exactly the table that was written,
in its order. -/
theorem route_file_loads {table : List SrRt} (hnames : ∀ rt ∈ table, Printable rt.interface)
    (v : RtVars) (before : List SrRt) :
    srLoadRt v before (routeFile table) = .ok (before ++ table, 0) := by
  rw [srLoadRt, fgetsLines_routeFile hnames]
  exact loadRoutes_lines hnames v before

/-- `0.0.0.0 10.0.0.1 0.0.0.0 eth` and `10.0.2.0 10.0.0.2 255.255.255.0 eth`, behind another route. -/
theorem route_file_loads_demo : srLoadRt ⟨[], [], [], []⟩ [⟨1, 2, 3, [101]⟩]
    (routeFile [⟨0, 0x0100000a, 0, [101, 116, 104]⟩,
      ⟨0x0002000a, 0x0200000a, 0x00ffffff, [101, 116, 104]⟩]) =
      .ok ([⟨1, 2, 3, [101]⟩] ++ [⟨0, 0x0100000a, 0, [101, 116, 104]⟩,
        ⟨0x0002000a, 0x0200000a, 0x00ffffff, [101, 116, 104]⟩], 0) := by
  apply route_file_loads
  intro rt hrt
  simp only [List.mem_cons, List.not_mem_nil, or_false] at hrt
  rcases hrt with rfl | rfl <;> decide

end PWOSPF
