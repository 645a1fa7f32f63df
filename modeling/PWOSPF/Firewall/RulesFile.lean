import PWOSPF.Firewall.FlowTable
import PWOSPF.Framework.Execution
import PWOSPF.Framework.Lines
import PWOSPF.Packet.ByteOrder

/-!
# The rules file

`init_rules_table` of `fw.c`: every line the file is read in goes through `sscanf` into variables
that outlive it, and whatever they hold then becomes a rule.
-/

namespace PWOSPF

open Framework

/-! ## The C library -/

def newline : UInt8 := 10

/-- `isspace` in the C locale -/
def isspace (c : UInt8) : Bool := c = 32 || (9 ≤ c && c ≤ 13)

def isdigit (c : UInt8) : Bool := 48 ≤ c && c ≤ 57

/-- What a function that takes a string sees of it. -/
def cString (s : List UInt8) : List UInt8 := s.takeWhile fun c => c ≠ 0

def digitValue (c : UInt8) : Nat :=
  if isdigit c then c.toNat - 48
  else if 97 ≤ c ∧ c ≤ 102 then c.toNat - 87
  else if 65 ≤ c ∧ c ≤ 70 then c.toNat - 55
  else 16

/-- The number in front of a string, and what follows it. -/
def digits (base : Nat) (s : List UInt8) : Nat × List UInt8 :=
  let ds := s.takeWhile fun c => digitValue c < base
  (ds.foldl (fun n c => base * n + digitValue c) 0, s.drop ds.length)

/-- `strtoul` with base 0, on a string that starts with a digit -/
def strtoul : List UInt8 → Nat × List UInt8
  | 48 :: x :: s =>
    if x = 120 ∨ x = 88 then
      match s.takeWhile fun c => digitValue c < 16 with
      | [] => (0, x :: s)
      | _ :: _ => digits 16 s
    else digits 8 (48 :: x :: s)
  | s => digits 10 s

/-- The numbers of an address, when at most `n` more points may come. -/
def inetParts : Nat → List UInt8 → Option (List Nat)
  | n, s =>
    if (s.head?.all fun c => !isdigit c) then none
    else
      match strtoul s, n with
      | (val, []), _ => some [val]
      | (val, 46 :: s), n + 1 => if val > 255 then none else (inetParts n s).map (val :: ·)
      | (val, c :: _), _ => if isspace c then some [val] else none

/-- The last number stands for all bytes that the others leave. -/
def inetValue (shift : Nat) : List Nat → Option Nat
  | [] => none
  | [val] => if val < 256 ^ shift then some val else none
  | part :: rest => (inetValue (shift - 1) rest).map (part * 256 ^ (shift - 1) + ·)

/-- `inet_aton` -/
def inetAton (s : List UInt8) : Option InAddr :=
  (inetParts 3 s).bind fun parts => (inetValue 4 parts).map fun val => htonl (.ofNat val)

example : inetAton [49, 48, 46, 50, 53, 53] = some 0xff00000a := by decide

/-- The conversion `%s` -/
def scanString (s : List UInt8) : Option (List UInt8 × List UInt8) :=
  let s := s.dropWhile isspace
  match s.takeWhile fun c => !isspace c with
  | [] => none
  | token => some (token, s.drop token.length)

/-- The number that the conversion `%u` reads. -/
def scanUnsigned (s : List UInt8) : Option (Int × List UInt8) :=
  let s := s.dropWhile isspace
  let (sign, s) : Int × List UInt8 :=
    match s with
    | 43 :: s => (1, s)
    | 45 :: s => (-1, s)
    | s => (1, s)
  match s.takeWhile isdigit with
  | [] => none
  | _ :: _ => some (sign * (digits 10 s).1, (digits 10 s).2)

/-! ## Loading the rules -/

def bufsiz : Nat := 8192
def ipInLength : Nat := 32

/-- What `fgets` delivers until the end of the file. -/
def fgetsLines (file : List UInt8) : List (List UInt8) :=
  piecesFrom newline (bufsiz - 1) (bufsiz - 1) [] file

/-- The variables of `init_rules_table`, which no line initialises. -/
structure RuleVars where
  sourceIPin : List UInt8
  destIPin : List UInt8
  ipProtocol : UInt32
  srcPort : UInt32
  dstPort : UInt32
  deriving DecidableEq, Repr

/-- A token and its terminating zero have to fit the array. -/
def storeString (token : List UInt8) : Exec (List UInt8) :=
  if token.length < ipInLength then .ok token else .error .outOfBounds

/-- What a number becomes that the variable cannot hold, the C standard leaves open. -/
def storeUnsigned (wide : Int → UInt32) (n : Int) : UInt32 :=
  if 0 ≤ n ∧ n < 2 ^ 32 then .ofNat n.toNat else wide n

/-- `sscanf` with the format of `init_rules_table`, which stops at the first conversion that fails. -/
def sscanf (wide : Int → UInt32) (line : List UInt8) (v : RuleVars) : Exec RuleVars :=
  match scanString line with
  | none => .ok v
  | some (source, line) => do
    let v := { v with sourceIPin := ← storeString source }
    match scanString line with
    | none => return v
    | some (dest, line) =>
      let v := { v with destIPin := ← storeString dest }
      match scanUnsigned line with
      | none => return v
      | some (protocol, line) =>
        let v := { v with ipProtocol := storeUnsigned wide protocol }
        match scanUnsigned line with
        | none => return v
        | some (src, line) =>
          let v := { v with srcPort := storeUnsigned wide src }
          match scanUnsigned line with
          | none => return v
          | some (dst, _) => return { v with dstPort := storeUnsigned wide dst }

def addRule (rules : List FtEntry) (ipS ipD : InAddr) (protocol : UInt8) (portS portD : UInt16) :
    List FtEntry :=
  rules ++ [⟨⟨ipS, ipD, protocol, portS, portD⟩, 0, 0⟩]

/-- The loop of `init_rules_table` over the lines; also what it returns. -/
def loadRules (wide : Int → UInt32) : RuleVars → List FtEntry → List (List UInt8) →
    Exec (List FtEntry × Bool)
  | _, rules, [] => .ok (rules, true)
  | v, rules, line :: lines => do
    let v ← sscanf wide (cString line) v
    match inetAton v.sourceIPin with
    | none => return (rules, false)
    | some srcIP =>
      match inetAton v.destIPin with
      | none => return (rules, false)
      | some dstIP =>
        loadRules wide v (addRule rules srcIP dstIP v.ipProtocol.toUInt8 v.srcPort.toUInt16
          v.dstPort.toUInt16) lines

/-- `v` is what the variables hold before the first line. -/
def initRulesTable (wide : Int → UInt32) (v : RuleVars) (rules : List FtEntry) (file : List UInt8) :
    Exec (List FtEntry × Bool) :=
  loadRules wide v rules (fgetsLines file)

/-! ## The rule of a line -/

/-- The five fields that are written on a line. -/
structure RuleFields where
  source : List UInt8
  dest : List UInt8
  protocol : Int
  src : Int
  dst : Int

def fieldsOf (line : List UInt8) : Option RuleFields :=
  (scanString (cString line)).bind fun (source, line) =>
  (scanString line).bind fun (dest, line) =>
  (scanUnsigned line).bind fun (protocol, line) =>
  (scanUnsigned line).bind fun (src, line) =>
  (scanUnsigned line).map fun (dst, _) => ⟨source, dest, protocol, src, dst⟩

/-- Protocol and ports are such numbers. -/
structure RuleFields.InRange (f : RuleFields) : Prop where
  protocol : 0 ≤ f.protocol ∧ f.protocol < 2 ^ 8
  src : 0 ≤ f.src ∧ f.src < 2 ^ 16
  dst : 0 ≤ f.dst ∧ f.dst < 2 ^ 16

instance (f : RuleFields) : Decidable f.InRange :=
  decidable_of_iff ((0 ≤ f.protocol ∧ f.protocol < 2 ^ 8) ∧ (0 ≤ f.src ∧ f.src < 2 ^ 16) ∧
      0 ≤ f.dst ∧ f.dst < 2 ^ 16)
    ⟨fun h => ⟨h.1, h.2.1, h.2.2⟩, fun h => ⟨h.protocol, h.src, h.dst⟩⟩

/-- The rule with exactly these fields, if there is one. -/
def RuleFields.rule (f : RuleFields) : Option FtEntry :=
  if f.InRange then
    (inetAton f.source).bind fun ipS => (inetAton f.dest).map fun ipD =>
      ⟨⟨ipS, ipD, .ofNat f.protocol.toNat, .ofNat f.src.toNat, .ofNat f.dst.toNat⟩, 0, 0⟩
  else none

def ruleOf (line : List UInt8) : Option FtEntry := (fieldsOf line).bind RuleFields.rule

def fileLines (file : List UInt8) : List (List UInt8) := linesFrom newline [] file

variable {wide : Int → UInt32} {v v' : RuleVars} {rules rules' : List FtEntry}
  {line : List UInt8} {lines : List (List UInt8)}

theorem storeUnsigned_toNat {n : Int} (hn : 0 ≤ n) (hlt : n < 2 ^ 32) :
    (storeUnsigned wide n).toNat = n.toNat := by
  have hsize : n.toNat < UInt32.size := (Int.toNat_lt hn).mpr hlt
  rw [storeUnsigned, if_pos ⟨hn, hlt⟩, UInt32.toNat_ofNat_of_lt' hsize]

/-- Of a line with all fields the variables keep nothing that they held before. -/
theorem sscanf_of_fields {f : RuleFields} (hf : fieldsOf line = some f)
    (hrun : sscanf wide (cString line) v = .ok v') :
    v' = ⟨f.source, f.dest, storeUnsigned wide f.protocol, storeUnsigned wide f.src,
      storeUnsigned wide f.dst⟩ := by
  obtain ⟨⟨source, line₁⟩, h₁, hf⟩ := Option.bind_eq_some_iff.mp hf
  obtain ⟨⟨dest, line₂⟩, h₂, hf⟩ := Option.bind_eq_some_iff.mp hf
  obtain ⟨⟨protocol, line₃⟩, h₃, hf⟩ := Option.bind_eq_some_iff.mp hf
  obtain ⟨⟨src, line₄⟩, h₄, hf⟩ := Option.bind_eq_some_iff.mp hf
  obtain ⟨⟨dst, line₅⟩, h₅, rfl⟩ := Option.map_eq_some_iff.mp hf
  have hstore : ∀ {token token' : List UInt8}, storeString token = .ok token' → token' = token := by
    intro token token' h
    rw [storeString] at h
    split at h
    · exact (Except.ok.inj h).symm
    · cases h
  rw [sscanf, h₁] at hrun
  simp only [h₂, h₃, h₄, h₅] at hrun
  obtain ⟨source', hsource, hrun⟩ := bind_eq_ok.mp hrun
  obtain ⟨dest', hdest, hrun⟩ := bind_eq_ok.mp hrun
  cases hrun
  rw [hstore hsource, hstore hdest]

/-- One round of the loop that is not the last one. -/
theorem loadRules_cons (h : loadRules wide v rules (line :: lines) = .ok (rules', true)) :
    ∃ v' ipS ipD, sscanf wide (cString line) v = .ok v' ∧ inetAton v'.sourceIPin = some ipS ∧
      inetAton v'.destIPin = some ipD ∧
      loadRules wide v' (addRule rules ipS ipD v'.ipProtocol.toUInt8 v'.srcPort.toUInt16
        v'.dstPort.toUInt16) lines = .ok (rules', true) := by
  rw [loadRules] at h
  obtain ⟨v', hscan, h⟩ := bind_eq_ok.mp h
  cases hS : inetAton v'.sourceIPin with
  | none =>
    rw [hS] at h
    cases h
  | some ipS =>
    cases hD : inetAton v'.destIPin with
    | none =>
      simp only [hS, hD] at h
      cases h
    | some ipD =>
      simp only [hS, hD] at h
      exact ⟨v', ipS, ipD, hscan, hS, hD, h⟩

/-- Every line adds a rule, whatever is written on it. -/
theorem loadRules_added (h : loadRules wide v rules lines = .ok (rules', true)) :
    ∃ added, rules' = rules ++ added ∧ added.length = lines.length := by
  induction lines generalizing v rules with
  | nil =>
    cases h
    exact ⟨[], (List.append_nil _).symm, rfl⟩
  | cons line lines ih =>
    obtain ⟨v', ipS, ipD, -, -, -, hrest⟩ := loadRules_cons h
    obtain ⟨added, hadded, hlen⟩ := ih hrest
    rw [addRule, List.append_assoc] at hadded
    exact ⟨_, hadded, by rw [List.singleton_append, List.length_cons, List.length_cons, hlen]⟩

/-- A line with all fields in range adds its own rule. -/
theorem rule_of_fields {f : RuleFields} (hrange : f.InRange) {ipS ipD : InAddr}
    (hv : v = ⟨f.source, f.dest, storeUnsigned wide f.protocol, storeUnsigned wide f.src,
      storeUnsigned wide f.dst⟩) (hS : inetAton v.sourceIPin = some ipS)
    (hD : inetAton v.destIPin = some ipD) :
    f.rule = some ⟨⟨ipS, ipD, v.ipProtocol.toUInt8, v.srcPort.toUInt16, v.dstPort.toUInt16⟩, 0, 0⟩ := by
  subst hv
  have hprotocol := @storeUnsigned_toNat wide _ hrange.protocol.1
    (Int.lt_trans hrange.protocol.2 (by decide))
  have hsrc := @storeUnsigned_toNat wide _ hrange.src.1 (Int.lt_trans hrange.src.2 (by decide))
  have hdst := @storeUnsigned_toNat wide _ hrange.dst.1 (Int.lt_trans hrange.dst.2 (by decide))
  rw [RuleFields.rule, if_pos hrange, hS, hD]
  simp only [Option.bind_some, Option.map_some, ← hprotocol, ← hsrc, ← hdst]
  rfl

theorem ruleOf_isSome_inRange (h : (ruleOf line).isSome) :
    ∃ f, fieldsOf line = some f ∧ f.InRange := by
  obtain ⟨rule, hrule⟩ := Option.isSome_iff_exists.mp h
  obtain ⟨f, hf, hrule⟩ := Option.bind_eq_some_iff.mp hrule
  refine ⟨f, hf, ?_⟩
  by_contra hout
  rw [RuleFields.rule, if_neg hout] at hrule
  cases hrule

/-- Lines with all fields in range add their own rules. -/
theorem loadRules_own (hlines : ∀ line ∈ lines, ∃ f, fieldsOf line = some f ∧ f.InRange)
    (h : loadRules wide v rules lines = .ok (rules', true)) :
    rules' = rules ++ lines.filterMap ruleOf := by
  induction lines generalizing v rules with
  | nil =>
    cases h
    exact (List.append_nil _).symm
  | cons line lines ih =>
    obtain ⟨⟨f, hf, hrange⟩, hlines⟩ := List.forall_mem_cons.mp hlines
    obtain ⟨v', ipS, ipD, hscan, hS, hD, hrest⟩ := loadRules_cons h
    have hrule : ruleOf line = _ := (congrArg (Option.bind · RuleFields.rule) hf).trans
      (rule_of_fields hrange (sscanf_of_fields hf hscan) hS hD)
    rw [ih hlines hrest, addRule, List.append_assoc, List.singleton_append,
      List.filterMap_cons_some hrule]

/-- Of every file that loads, whatever is on the stack before: the rules that it adds are those that
its lines give, and a line without all five fields, or with one out of range, adds none, exactly if
there is no such line and none that is too long for the buffer. -/
theorem rules_own_line_iff {file : List UInt8}
    (h : initRulesTable wide v rules file = .ok (rules', true)) :
    rules' = rules ++ (fileLines file).filterMap ruleOf ↔
      ∀ line ∈ fileLines file,
        line.length < bufsiz ∧ ∃ f, fieldsOf line = some f ∧ f.InRange := by
  have hpieces := @piecesFrom_cases _ _ newline (bufsiz - 1) (bufsiz - 1) [] (by decide) rfl file
  constructor
  · intro hown
    obtain ⟨added, hadded, hlen⟩ := loadRules_added h
    rw [hown] at hadded
    rw [← List.append_cancel_left hadded] at hlen
    have hle := List.length_filterMap_le ruleOf (fileLines file)
    rcases hpieces with ⟨heq, hshort⟩ | ⟨-, hmore⟩
    · have hall : ((fileLines file).filterMap ruleOf).length = (fileLines file).length :=
        hlen.trans (congrArg List.length heq)
      rw [List.filterMap_length_eq_length] at hall
      exact fun line hline =>
        ⟨Nat.lt_succ_of_le (hshort line hline), ruleOf_isSome_inRange (hall line hline)⟩
    · rw [hlen] at hle
      exact absurd hmore (Nat.not_lt.mpr hle)
  · intro hlines
    rcases hpieces with ⟨heq, -⟩ | ⟨⟨line, hline, hlong⟩, -⟩
    · rw [initRulesTable, fgetsLines, heq] at h
      exact loadRules_own (fun line hline => (hlines line hline).2) h
    · exact absurd (hlines line hline).1 (Nat.not_lt.mpr (Nat.succ_le_of_lt hlong))

section Demo

/-- `10.0.0.1 10.0.0.2 6 80 80` -/
def demoRuleLine : List UInt8 :=
  [49, 48, 46, 48, 46, 48, 46, 49, 32, 49, 48, 46, 48, 46, 48, 46, 50, 32, 54, 32, 56, 48, 32, 56, 48,
    10]

def demoRuleVars : RuleVars := ⟨[], [], 0, 0, 0⟩

/-- `10.0.0.3 0 17 53 9`, for every destination -/
def demoWideLine : List UInt8 :=
  [49, 48, 46, 48, 46, 48, 46, 51, 32, 48, 32, 49, 55, 32, 53, 51, 32, 57, 10]

theorem rules_own_line_demo : ∃ rules, initRulesTable (fun _ => 0) demoRuleVars []
    (demoRuleLine ++ demoWideLine) = .ok (rules, true) ∧ rules.length = 2 ∧
      rules = [] ++ (fileLines (demoRuleLine ++ demoWideLine)).filterMap ruleOf := by
  have hrun : initRulesTable (fun _ => 0) demoRuleVars [] (demoRuleLine ++ demoWideLine) =
      .ok ([⟨⟨0x0100000a, 0x0200000a, 6, 80, 80⟩, 0, 0⟩, ⟨⟨0x0300000a, 0, 17, 53, 9⟩, 0, 0⟩], true) := by
    decide +kernel
  refine ⟨_, hrun, rfl, (rules_own_line_iff hrun).mpr ?_⟩
  have hlines : fileLines (demoRuleLine ++ demoWideLine) = [demoRuleLine, demoWideLine] := by decide
  rw [hlines, List.forall_mem_cons, List.forall_mem_singleton]
  exact ⟨⟨by decide, ⟨[49, 48, 46, 48, 46, 48, 46, 49], [49, 48, 46, 48, 46, 48, 46, 50], 6, 80, 80⟩,
    by rfl, by decide⟩, by decide, ⟨[49, 48, 46, 48, 46, 48, 46, 51], [48], 17, 53, 9⟩, by rfl, by decide⟩

/-- The second line is `10.0.0.3`, and its rule has the rest of the first one. -/
theorem rules_own_line_false :
    ¬ ∀ (wide : Int → UInt32) (v : RuleVars) (rules rules' : List FtEntry) (file : List UInt8),
      initRulesTable wide v rules file = .ok (rules', true) →
        rules' = rules ++ (fileLines file).filterMap ruleOf := by
  intro hclaim
  have hrun : initRulesTable (fun _ => 0) demoRuleVars []
      (demoRuleLine ++ [49, 48, 46, 48, 46, 48, 46, 51, 10]) =
      .ok ([⟨⟨0x0100000a, 0x0200000a, 6, 80, 80⟩, 0, 0⟩,
        ⟨⟨0x0300000a, 0x0200000a, 6, 80, 80⟩, 0, 0⟩], true) := by decide +kernel
  exact absurd (hclaim _ _ _ _ _ hrun) (by decide +kernel)

end Demo

end PWOSPF
