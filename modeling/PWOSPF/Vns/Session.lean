import Mathlib.Logic.Relation
import PWOSPF.Vns.Commands

/-!
# Sessions

The router authenticates itself, asks for its topology and then takes commands one after the other. What
it makes of them depends on the commands alone, not on the portions in which their bytes come in or on
the signals that interrupt it.
-/

namespace PWOSPF

open Framework VnsField PacketField

/-- What is read next: the first commands by `sr_connect_to_server`, the others by `main`. -/
inductive VnsPhase
  | authRequest
  | authStatus
  | rtable
  | running
  | ended
  deriving DecidableEq, Repr

def VnsPhase.expects : VnsPhase → Option UInt32
  | .authRequest => some vnsAuthRequest
  | .authStatus => some vnsAuthStatus
  | .rtable => some vnsRtable
  | .running | .ended => none

structure VnsClient where
  phase : VnsPhase
  sr : SrInstance
  done : List VnsAction
  deriving DecidableEq, Repr

def VnsClient.start (sr : SrInstance) : VnsClient := ⟨.authRequest, sr, []⟩

def VnsClient.close (x : VnsClient) : VnsClient := { x with phase := .ended }

def strncpy (src : List UInt8) (n : Nat) : List UInt8 := (cString src ++ List.replicate n 0).take n

def openMessage (cfg : VnsConfig) : Frame :=
  if cfg.template = [] then
    netBytes 4 108 ++ netBytes 4 vnsOpen.toNat ++ netBytes 2 cfg.topoId.toNat ++ [0, 0] ++
      strncpy cfg.host idSize ++ strncpy cfg.user idSize ++ List.replicate idSize 0
  else netBytes 4 70 ++ netBytes 4 vnsOpenTemplate.toNat ++ strncpy cfg.template 30 ++
    strncpy cfg.host idSize

/-- What the caller of `sr_read_from_server_expect` does after it returned 1. -/
def VnsClient.proceed (cfg : VnsConfig) (host : VnsHost) (x : VnsClient) : VnsClient :=
  match x.phase with
  | .authRequest => { x with phase := .authStatus }
  | .authStatus =>
    if host.sends (openMessage cfg) then
      { x with
        phase := if cfg.template = [] then .running else .rtable
        done := x.done ++ [.sends (openMessage cfg)] }
    else x.close
  | .rtable =>
    match host.loads with
    | some routes => { x with
        phase := .running
        sr := { x.sr with routingTable := x.sr.routingTable ++ routes } }
    | none => x.close
  | .running | .ended => x

def VnsClient.receive (cfg : VnsConfig) (host : VnsHost) (x : VnsClient) (buf : Frame)
    (command : UInt32) : Exec VnsClient := do
  let out ← serveCommand cfg host x.sr x.phase.expects buf command
  let x := { x with
    sr := out.sr
    done := x.done ++ out.actions }
  if out.ret = 1 then return x.proceed cfg host else return x.close

/-- Also the bytes of the server that are still to be read, and what the next calls of `recv` do. -/
structure VnsState where
  client : VnsClient
  stream : List UInt8
  calls : List Delivery
  deriving DecidableEq, Repr

def VnsState.step (cfg : VnsConfig) (host : VnsHost) (s : VnsState) : Exec (Option VnsState) := do
  if s.client.phase = .ended then return none
  else
    match ← readCommand host.env s.stream s.calls with
    | .waiting => return none
    | .failed => return some { s with client := s.client.close }
    | .read buf command rest calls =>
      return some ⟨← s.client.receive cfg host buf command, rest, calls⟩

def VnsStep (cfg : VnsConfig) (host : VnsHost) (s s' : VnsState) : Prop :=
  s.step cfg host = .ok (some s')

/-! ## Commands in the stream -/

/-- A command as the server sends it. -/
structure WellFramed (w : Frame) : Prop where
  long : sizeofBase ≤ w.length
  short : w.length ≤ 10000
  len : slice w 0 4 = netBytes 4 w.length

instance (w : Frame) : Decidable (WellFramed w) :=
  decidable_of_iff (sizeofBase ≤ w.length ∧ w.length ≤ 10000 ∧ slice w 0 4 = netBytes 4 w.length)
    ⟨fun h => ⟨h.1, h.2.1, h.2.2⟩, fun h => ⟨h.long, h.short, h.len⟩⟩

/-- The type of a command. -/
def commandOf (w : Frame) : UInt32 := .ofNat (leValue (slice w 4 4).reverse)

/-- The command as it is handled, with its type in host byte order. -/
def hostOrder (w : Frame) : Frame := patch w 4 (leBytes 4 (commandOf w).toNat)

/-- What becomes of a command that was read. -/
def VnsClient.serve (cfg : VnsConfig) (host : VnsHost) (x : VnsClient) (w : Frame) : Exec VnsClient :=
  if x.phase = .ended then .ok x else x.receive cfg host (hostOrder w) (commandOf w)

variable {cfg : VnsConfig} {host : VnsHost} {w : Frame} {rest : List UInt8} {calls : List Delivery}

theorem asInt_bounds {n : Nat} (hn : n ≤ 10000) :
    ¬ (asInt (.ofNat n) > maxCommandLen ∨ asInt (.ofNat n) < 0) := by
  have hword : (UInt32.ofNat n).toBitVec.toNat = n := UInt32.toNat_ofNat_of_lt' (show n < 2 ^ 32 by omega)
  have hint : asInt (.ofNat n) = n := by
    rw [asInt, BitVec.toInt_eq_toNat_of_lt (by rw [hword]; omega), hword]
  rw [hint, maxCommandLen]
  omega

theorem ntohl_leValue {bs : List UInt8} (h : bs.length = 4) :
    ntohl (.ofNat (leValue bs)) = .ofNat (leValue bs.reverse) := by
  have hlt := leValue_lt bs
  have hback := leBytes_leValue bs
  rw [h] at hlt hback
  rw [ntohl, htonl, UInt32.toNat_ofNat_of_lt' hlt, hback]

theorem WellFramed.toNat (h : WellFramed w) : (UInt32.ofNat w.length).toNat = w.length :=
  UInt32.toNat_ofNat_of_lt' (Nat.lt_of_le_of_lt h.short (by decide))

theorem WellFramed.head (h : WellFramed w) :
    w.take 4 = netBytes 4 w.length ∧ ntohl (.ofNat (leValue (w.take 4))) = .ofNat w.length := by
  have hlen := h.long
  rw [sizeofBase] at hlen
  have hslice : w.take 4 = netBytes 4 w.length := h.len
  refine ⟨hslice, ?_⟩
  rw [ntohl_leValue (List.length_take_of_le (by omega)), hslice, netBytes, List.reverse_reverse,
    leValue_leBytes 4 _ (Nat.lt_of_le_of_lt h.short (by decide))]

/-- What is read into the buffer is the command, and its type is put into host byte order. -/
theorem WellFramed.buffer (h : WellFramed w) (env : Env) :
    ∃ buf₁ buf₂ v,
      Frame.set ((List.range w.length).map env.bytes) mLen (htonl (.ofNat w.length)).toNat = .ok buf₁ ∧
      buf₁.store 4 (w.drop 4) = .ok buf₂ ∧ buf₂.get mType = .ok v ∧ ntohl (.ofNat v) = commandOf w ∧
      buf₂.set mType (commandOf w).toNat = .ok (hostOrder w) := by
  have hlen := h.long
  rw [sizeofBase] at hlen
  have hroom : ((List.range w.length).map env.bytes).length = w.length := by
    rw [List.length_map, List.length_range]
  have hbytes : leBytes 4 (htonl (.ofNat w.length)).toNat = w.take 4 := by
    rw [leBytes_htonl, h.toNat, h.head.1]
  have hfour : (w.take 4).length = 4 := List.length_take_of_le (by omega)
  have hset : Frame.set ((List.range w.length).map env.bytes) mLen (htonl (.ofNat w.length)).toNat =
      .ok (patch ((List.range w.length).map env.bytes) 0 (w.take 4)) := by
    rw [← hbytes]
    exact Frame.set_eq_ok.mpr ⟨by rw [hroom]; exact Nat.le_trans (by decide) hlen, rfl⟩
  have hwhole : patch (patch ((List.range w.length).map env.bytes) 0 (w.take 4)) 4 (w.drop 4) = w := by
    have hnext := @patch_patch_next ((List.range w.length).map env.bytes) 0 (w.take 4) (w.drop 4) (by
      rw [hroom, hfour, List.length_drop]
      omega)
    rw [Nat.zero_add, hfour, List.take_append_drop] at hnext
    rw [hnext, patch_whole hroom.symm]
  have hstore : Frame.store (patch ((List.range w.length).map env.bytes) 0 (w.take 4)) 4 (w.drop 4) =
      .ok w := by
    refine Frame.store_eq_ok.mpr ⟨?_, hwhole.symm⟩
    rw [patch_length (by rw [hroom, hfour]; omega), hroom, List.length_drop]
    omega
  have hin : mType.offset + mType.width ≤ w.length := hlen
  refine ⟨_, w, leValue (slice w 4 4), hset, hstore, ?_, ?_, ?_⟩
  · rw [Frame.get, Frame.load, if_pos hin]
    rfl
  · exact ntohl_leValue (slice_length hin)
  · exact Frame.set_eq_ok.mpr ⟨hin, rfl⟩

/-- Reading a command is gathering its two parts. -/
theorem readCommand_eq (h : WellFramed w) (env : Env) :
    readCommand env (w ++ rest) calls =
      match gather 4 [] (w ++ rest) calls with
      | .waiting => .ok .waiting
      | .failed => .ok .failed
      | .done _ _ calls =>
        match gather (w.length - 4) [] (w.drop 4 ++ rest) calls with
        | .waiting => .ok .waiting
        | .failed => .ok .failed
        | .done _ _ calls => .ok (.read (hostOrder w) (commandOf w) rest calls) := by
  have hlen := h.long
  rw [sizeofBase] at hlen
  obtain ⟨buf₁, buf₂, v, hset, hstore, hget, hv, htype⟩ := h.buffer env
  rw [readCommand]
  cases hfirst : gather 4 [] (w ++ rest) calls with
  | waiting => rfl
  | failed => rfl
  | done head rest₁ calls₁ =>
    obtain ⟨rfl, rfl, -, -⟩ := gather_done hfirst
    simp only [List.nil_append, List.length_nil, Nat.sub_zero,
      List.take_append_of_le_length (show 4 ≤ w.length by omega),
      List.drop_append_of_le_length (show 4 ≤ w.length by omega), h.head.2,
      if_neg (asInt_bounds h.short), h.toNat, hset, ok_bind]
    cases hsecond : gather (w.length - 4) [] (w.drop 4 ++ rest) calls₁ with
    | waiting => rfl
    | failed => rfl
    | done body rest₂ calls₂ =>
      obtain ⟨rfl, rfl, -, -⟩ := gather_done hsecond
      have hbody : (w.drop 4).length = w.length - 4 := List.length_drop
      have htake : (w.drop 4 ++ rest).take (w.length - 4) = w.drop 4 := by
        rw [← hbody]
        exact List.take_left
      have hdrop : (w.drop 4 ++ rest).drop (w.length - 4) = rest := by
        rw [← hbody]
        exact List.drop_left
      simp only [List.nil_append, List.length_nil, Nat.sub_zero, htake, hdrop, hstore, hget, hv, htype,
        ok_bind, pure_eq_ok]

theorem asInt_length {x : UInt32} (h : ¬ (asInt x > maxCommandLen ∨ asInt x < 0)) :
    x.toNat ≤ 10000 := by
  have hint : asInt x = if 2 * x.toNat < 2 ^ 32 then (x.toNat : Int) else (x.toNat : Int) - 2 ^ 32 :=
    BitVec.toInt_eq_toNat_cond x.toBitVec
  have hlt := x.toNat_lt
  rw [hint, maxCommandLen] at h
  split at h <;> omega

/-- As much of the stream as its first word says. -/
theorem wellFramed_take {stream : List UInt8} {len : UInt32}
    (hword : ntohl (.ofNat (leValue (stream.take 4))) = len) (hlong : 8 ≤ len.toNat)
    (hlen : ¬ (asInt len > maxCommandLen ∨ asInt len < 0)) (hstream : len.toNat ≤ stream.length) :
    WellFramed (stream.take len.toNat) := by
  have hwhole : (stream.take len.toNat).length = len.toNat := List.length_take_of_le hstream
  have hfour : (stream.take 4).length = 4 := List.length_take_of_le (by omega)
  have hvalue : leValue (stream.take 4).reverse = len.toNat := by
    rw [← hword, ntohl_leValue hfour, UInt32.toNat_ofNat_of_lt']
    exact Nat.lt_of_lt_of_eq (leValue_lt _) (by rw [List.length_reverse, hfour]; rfl)
  have hback := leBytes_leValue (stream.take 4).reverse
  rw [List.length_reverse, hfour, hvalue] at hback
  refine ⟨by rw [hwhole]; exact hlong, by rw [hwhole]; exact asInt_length hlen, ?_⟩
  rw [hwhole, slice, List.drop_zero, List.take_take, Nat.min_eq_left (by omega), netBytes, hback,
    List.reverse_reverse]

/-- Whatever the server sends: what is read is the next part of the stream, and framed. -/
theorem framed_of_read {stream : List UInt8} {env : Env} {buf : Frame} {command : UInt32}
    {calls' : List Delivery} (h : readCommand env stream calls = .ok (.read buf command rest calls')) :
    ∃ w, WellFramed w ∧ stream = w ++ rest ∧ buf = hostOrder w ∧ command = commandOf w := by
  have hread := h
  rw [readCommand] at h
  cases hfirst : gather 4 [] stream calls with
  | waiting =>
    rw [hfirst] at h
    cases h
  | failed =>
    rw [hfirst] at h
    cases h
  | done head rest₁ calls₁ =>
    obtain ⟨rfl, rfl, -, -⟩ := gather_done hfirst
    simp only [hfirst, List.nil_append, List.length_nil, Nat.sub_zero] at h
    generalize hword : ntohl (.ofNat (leValue (stream.take 4))) = len at h
    by_cases hlen : asInt len > maxCommandLen ∨ asInt len < 0
    · rw [if_pos hlen] at h
      cases h
    rw [if_neg hlen] at h
    obtain ⟨buf₁, hset, h⟩ := bind_eq_ok.mp h
    cases hsecond : gather (len.toNat - 4) [] (stream.drop 4) calls₁ with
    | waiting =>
      rw [hsecond] at h
      cases h
    | failed =>
      rw [hsecond] at h
      cases h
    | done body rest₂ calls₂ =>
      rw [hsecond] at h
      obtain ⟨buf₂, hstore, h⟩ := bind_eq_ok.mp h
      obtain ⟨v, hget, h⟩ := bind_eq_ok.mp h
      obtain ⟨buf₃, -, h⟩ := bind_eq_ok.mp h
      cases h
      obtain ⟨rfl, rfl, hbody, -⟩ := gather_done hsecond
      have hroom : buf₂.length = len.toNat := by
        rw [Frame.store_length hstore, Frame.set_length hset, List.length_map, List.length_range]
      have hlong : 8 ≤ len.toNat := hroom ▸ Frame.get_bounds hget
      have hstream : len.toNat ≤ stream.length := by
        rw [List.nil_append, List.length_take, List.length_nil, List.length_drop] at hbody
        omega
      have hrest : (stream.drop 4).drop (len.toNat - 4) = stream.drop len.toNat := by
        rw [List.drop_drop, Nat.add_sub_cancel' (by omega)]
      have hframed := wellFramed_take hword hlong hlen hstream
      refine ⟨_, hframed, ?_, ?_⟩
      · show stream = _ ++ (stream.drop 4).drop (len.toNat - 4)
        rw [hrest, List.take_append_drop]
      · rw [← List.take_append_drop len.toNat stream, readCommand_eq hframed] at hread
        split at hread
        · cases hread
        · cases hread
        · split at hread
          · cases hread
          · cases hread
          · rw [Except.ok.injEq, CommandRead.read.injEq] at hread
            exact ⟨hread.1.symm, hread.2.1.symm⟩

/-- However the bytes come in: if a whole command is read, it is the next one. -/
theorem readCommand_framed (h : WellFramed w) (env : Env) (hnone : .fails ∉ calls) :
    readCommand env (w ++ rest) calls = .ok .waiting ∨
      ∃ calls', readCommand env (w ++ rest) calls =
          .ok (.read (hostOrder w) (commandOf w) rest calls') ∧ calls' <:+ calls ∧
        deliveries calls ≤ deliveries calls' + w.length := by
  have hlen := h.long
  rw [sizeofBase] at hlen
  rw [readCommand_eq h]
  cases hfirst : gather 4 [] (w ++ rest) calls with
  | waiting => exact Or.inl rfl
  | failed => exact absurd (gather_failed hfirst) hnone
  | done head rest₁ calls₁ =>
    obtain ⟨-, -, -, hsuffix⟩ := gather_done hfirst
    have hcost := gather_cost hfirst (by rw [List.length_append]; omega)
    simp only
    cases hsecond : gather (w.length - 4) [] (w.drop 4 ++ rest) calls₁ with
    | waiting => exact Or.inl rfl
    | failed => exact absurd (hsuffix.subset (gather_failed hsecond)) hnone
    | done body rest₂ calls₂ =>
      obtain ⟨-, -, -, hsuffix'⟩ := gather_done hsecond
      have hcost' := gather_cost hsecond (by rw [List.length_append, List.length_drop]; omega)
      rw [List.length_nil] at hcost hcost'
      exact Or.inr ⟨calls₂, rfl, hsuffix'.trans hsuffix, by omega⟩

/-- As many calls as bytes bring it in. -/
theorem readCommand_of_calls (h : WellFramed w) (env : Env) (hnone : .fails ∉ calls)
    (hcalls : w.length ≤ deliveries calls) : readCommand env (w ++ rest) calls ≠ .ok .waiting := by
  have hlen := h.long
  rw [sizeofBase] at hlen
  obtain ⟨got₁, rest₁, calls₁, hfirst⟩ := @gather_of_calls _ 4 [] (w ++ rest) calls
    (by rw [List.length_append]; omega) hnone (by omega)
  have hcost := gather_cost hfirst (by rw [List.length_append]; omega)
  obtain ⟨-, -, -, hsuffix⟩ := gather_done hfirst
  rw [List.length_nil] at hcost
  obtain ⟨got₂, rest₂, calls₂, hsecond⟩ :=
    @gather_of_calls _ (w.length - 4) [] (w.drop 4 ++ rest) calls₁
      (by rw [List.length_append, List.length_drop]; omega)
      (fun hfails => hnone (hsuffix.subset hfails)) (by omega)
  rw [readCommand_eq h, hfirst]
  simp only [hsecond]
  intro hwaiting
  cases hwaiting

/-- At its end the stream brings nothing more. -/
theorem readCommand_nil (env : Env) (hnone : .fails ∉ calls) :
    readCommand env [] calls = .ok .waiting := by
  rw [readCommand]
  cases hfirst : gather 4 [] [] calls with
  | waiting => rfl
  | failed => exact absurd (gather_failed hfirst) hnone
  | done head rest₁ calls₁ =>
    obtain ⟨rfl, -, hlen, -⟩ := gather_done hfirst
    exact absurd hlen (by decide)

/-! ## Runs -/

/-- The first `k` commands were served. -/
structure Served (cfg : VnsConfig) (host : VnsHost) (x : VnsClient) (ws : List Frame)
    (calls : List Delivery) (k : Nat) (s : VnsState) : Prop where
  le : k ≤ ws.length
  client : (ws.take k).foldlM (VnsClient.serve cfg host) x = .ok s.client
  stream : s.stream = (ws.drop k).flatten
  suffix : s.calls <:+ calls
  left : deliveries calls ≤ deliveries s.calls + (ws.take k).flatten.length

section Run

variable {x : VnsClient} {ws : List Frame} {s s' : VnsState}

theorem serve_ended (h : x.phase = .ended) : ws.foldlM (VnsClient.serve cfg host) x = .ok x := by
  induction ws with
  | nil => rfl
  | cons w ws ih => rw [List.foldlM_cons, VnsClient.serve, if_pos h, ok_bind, ih]

theorem Served.step {k : Nat} (hs : Served cfg host x ws calls k s) (hws : ∀ w ∈ ws, WellFramed w)
    (hnone : .fails ∉ calls) (hstep : VnsStep cfg host s s') :
    Served cfg host x ws calls (k + 1) s' := by
  have hnone' : .fails ∉ s.calls := fun hfails => hnone (hs.suffix.subset hfails)
  rw [VnsStep, VnsState.step] at hstep
  by_cases hended : s.client.phase = .ended
  · rw [if_pos hended] at hstep
    cases hstep
  · rw [if_neg hended, hs.stream] at hstep
    rcases Nat.lt_or_ge k ws.length with hlt | hge
    · have hdrop : ws.drop k = ws[k] :: ws.drop (k + 1) := List.drop_eq_getElem_cons hlt
      have hframed := hws _ (List.getElem_mem hlt)
      rw [hdrop, List.flatten_cons] at hstep
      obtain hwaiting | ⟨calls', hread, hsuffix, hcost⟩ :=
        @readCommand_framed ws[k] (ws.drop (k + 1)).flatten s.calls hframed host.env hnone'
      · rw [hwaiting] at hstep
        cases hstep
      · rw [hread, ok_bind] at hstep
        obtain ⟨client, hclient, hstep⟩ := bind_eq_ok.mp hstep
        cases hstep
        have hleft := hs.left
        refine ⟨hlt, ?_, rfl, hsuffix.trans hs.suffix, ?_⟩
        · rw [List.take_succ_eq_append_getElem hlt, List.foldlM_append, hs.client, ok_bind,
            List.foldlM_cons, VnsClient.serve, if_neg hended, hclient, ok_bind]
          rfl
        · rw [List.take_succ_eq_append_getElem hlt, List.flatten_append, List.length_append,
            List.flatten_singleton]
          show deliveries calls ≤ deliveries calls' + _
          omega
    · rw [List.drop_of_length_le hge, List.flatten_nil, readCommand_nil host.env hnone'] at hstep
      cases hstep

theorem Served.of_run (hws : ∀ w ∈ ws, WellFramed w) (hnone : .fails ∉ calls)
    (h : Relation.ReflTransGen (VnsStep cfg host) ⟨x, ws.flatten, calls⟩ s) :
    ∃ k, Served cfg host x ws calls k s := by
  induction h with
  | refl => exact ⟨0, Nat.zero_le _, rfl, rfl, List.suffix_refl _, Nat.le_add_right _ _⟩
  | tail _ hstep ih =>
    obtain ⟨k, hs⟩ := ih
    exact ⟨k + 1, hs.step hws hnone hstep⟩

/-- The router is always where the first commands bring it, one after the other. When nothing more
happens and the calls were enough for the whole stream, these are all commands. -/
theorem served_of_run (hws : ∀ w ∈ ws, WellFramed w) (hnone : .fails ∉ calls)
    (h : Relation.ReflTransGen (VnsStep cfg host) ⟨x, ws.flatten, calls⟩ s) :
    ∃ k ≤ ws.length, (ws.take k).foldlM (VnsClient.serve cfg host) x = .ok s.client ∧
      s.stream = (ws.drop k).flatten ∧
      (ws.flatten.length ≤ deliveries calls → s.step cfg host = .ok none →
        ws.foldlM (VnsClient.serve cfg host) x = .ok s.client) := by
  obtain ⟨k, hs⟩ := Served.of_run hws hnone h
  refine ⟨k, hs.le, hs.client, hs.stream, ?_⟩
  intro henough hblocked
  have hsplit : ws.foldlM (VnsClient.serve cfg host) x =
      (ws.drop k).foldlM (VnsClient.serve cfg host) s.client := by
    conv_lhs => rw [← List.take_append_drop k ws, List.foldlM_append, hs.client, ok_bind]
  rw [hsplit]
  by_cases hended : s.client.phase = .ended
  · exact serve_ended hended
  · rcases Nat.lt_or_ge k ws.length with hlt | hge
    · exfalso
      have hdrop : ws.drop k = ws[k] :: ws.drop (k + 1) := List.drop_eq_getElem_cons hlt
      have htotal : ws.flatten.length = (ws.take k).flatten.length + (ws.drop k).flatten.length := by
        conv_lhs => rw [← List.take_append_drop k ws, List.flatten_append, List.length_append]
      have hnone' : .fails ∉ s.calls := fun hfails => hnone (hs.suffix.subset hfails)
      have hleft := hs.left
      have hcalls : ws[k].length ≤ deliveries s.calls := by
        rw [hdrop, List.flatten_cons, List.length_append] at htotal
        omega
      have hframed := hws _ (List.getElem_mem hlt)
      obtain hwaiting | ⟨calls', hread, -⟩ :=
        @readCommand_framed ws[k] (ws.drop (k + 1)).flatten s.calls hframed host.env hnone'
      · exact readCommand_of_calls hframed host.env hnone' hcalls hwaiting
      · rw [VnsState.step, if_neg hended, hs.stream, hdrop, List.flatten_cons, hread, ok_bind] at hblocked
        obtain ⟨client, -, hnever⟩ := bind_eq_ok.mp hblocked
        cases hnever
    · rw [List.drop_of_length_le hge]
      rfl

/-- As long as the commands can be served one by one, a run waits for bytes or goes on. -/
theorem goesOn_of_run {y : VnsClient} (hws : ∀ w ∈ ws, WellFramed w) (hnone : .fails ∉ calls)
    (hserved : ws.foldlM (VnsClient.serve cfg host) x = .ok y)
    (h : Relation.ReflTransGen (VnsStep cfg host) ⟨x, ws.flatten, calls⟩ s) :
    s.step cfg host = .ok none ∨ ∃ s', VnsStep cfg host s s' := by
  obtain ⟨k, hs⟩ := Served.of_run hws hnone h
  have hnone' : .fails ∉ s.calls := fun hfails => hnone (hs.suffix.subset hfails)
  by_cases hended : s.client.phase = .ended
  · left
    rw [VnsState.step, if_pos hended]
    rfl
  rcases Nat.lt_or_ge k ws.length with hlt | hge
  · have hdrop : ws.drop k = ws[k] :: ws.drop (k + 1) := List.drop_eq_getElem_cons hlt
    rw [← List.take_append_drop k ws, List.foldlM_append, hs.client, ok_bind, hdrop,
      List.foldlM_cons] at hserved
    obtain ⟨client, hclient, -⟩ := bind_eq_ok.mp hserved
    rw [VnsClient.serve, if_neg hended] at hclient
    obtain hwaiting | ⟨calls', hread, -⟩ := @readCommand_framed ws[k] (ws.drop (k + 1)).flatten s.calls
      (hws _ (List.getElem_mem hlt)) host.env hnone'
    · left
      rw [VnsState.step, if_neg hended, hs.stream, hdrop, List.flatten_cons, hwaiting]
      rfl
    · refine Or.inr ⟨⟨client, (ws.drop (k + 1)).flatten, calls'⟩, ?_⟩
      rw [VnsStep, VnsState.step, if_neg hended, hs.stream, hdrop, List.flatten_cons, hread, ok_bind]
      simp only [hclient, ok_bind, pure_eq_ok]
  · left
    rw [VnsState.step, if_neg hended, hs.stream, List.drop_of_length_le hge, List.flatten_nil,
      readCommand_nil host.env hnone']
    rfl

/-- Whatever the server sends and the calls do: the router is where the commands in front of the stream
bring it, or was there when it gave the session up. -/
theorem framed_of_run {stream : List UInt8}
    (h : Relation.ReflTransGen (VnsStep cfg host) ⟨x, stream, calls⟩ s) :
    ∃ (ws : List Frame) (y : VnsClient), (∀ w ∈ ws, WellFramed w) ∧
      stream = ws.flatten ++ s.stream ∧
      ws.foldlM (VnsClient.serve cfg host) x = .ok y ∧ (s.client = y ∨ s.client = y.close) := by
  induction h with
  | refl => exact ⟨[], x, fun w hw => absurd hw List.not_mem_nil, rfl, rfl, Or.inl rfl⟩
  | @tail s s' _ hstep ih =>
    obtain ⟨ws, y, hws, hstream, hserved, hclient⟩ := ih
    rw [VnsStep, VnsState.step] at hstep
    by_cases hended : s.client.phase = .ended
    · rw [if_pos hended] at hstep
      cases hstep
    rw [if_neg hended] at hstep
    obtain ⟨read, hread, hstep⟩ := bind_eq_ok.mp hstep
    obtain rfl : s.client = y := hclient.resolve_right fun hclosed => hended (hclosed ▸ rfl)
    cases read with
    | waiting => cases hstep
    | failed =>
      cases hstep
      exact ⟨ws, s.client, hws, hstream, hserved, Or.inr rfl⟩
    | read buf command rest calls' =>
      obtain ⟨w, hw, hfront, rfl, rfl⟩ := framed_of_read hread
      obtain ⟨client, hreceive, hstep⟩ := bind_eq_ok.mp hstep
      cases hstep
      refine ⟨ws ++ [w], client, ?_, ?_, ?_, Or.inl rfl⟩
      · intro w' hw'
        rcases List.mem_append.mp hw' with hw' | hw'
        · exact hws w' hw'
        · rwa [List.mem_singleton.mp hw']
      · rw [hstream, hfront, List.flatten_append, List.flatten_singleton, List.append_assoc]
      · rw [List.foldlM_append, hserved, ok_bind, List.foldlM_cons, VnsClient.serve, if_neg hended,
          hreceive, ok_bind]
        rfl

/-- Whatever portions the bytes come in, and however often signals interrupt the router: what it makes
of the commands in the end is the same. -/
theorem vns_portions {calls' : List Delivery} (hws : ∀ w ∈ ws, WellFramed w) (hnone : .fails ∉ calls)
    (hnone' : .fails ∉ calls') (henough : ws.flatten.length ≤ deliveries calls)
    (henough' : ws.flatten.length ≤ deliveries calls')
    (h : Relation.ReflTransGen (VnsStep cfg host) ⟨x, ws.flatten, calls⟩ s)
    (h' : Relation.ReflTransGen (VnsStep cfg host) ⟨x, ws.flatten, calls'⟩ s')
    (hblocked : s.step cfg host = .ok none) (hblocked' : s'.step cfg host = .ok none) :
    s.client = s'.client ∧ ws.foldlM (VnsClient.serve cfg host) x = .ok s.client := by
  obtain ⟨-, -, -, -, hall⟩ := served_of_run hws hnone h
  obtain ⟨-, -, -, -, hall'⟩ := served_of_run hws hnone' h'
  have hserved := hall henough hblocked
  exact ⟨Except.ok.inj (hserved.symm.trans (hall' henough' hblocked')), hserved⟩

end Run

section Demo

/-- Up to `n` steps. -/
def VnsState.steps (cfg : VnsConfig) (host : VnsHost) : Nat → VnsState → Option VnsState
  | 0, s => some s
  | n + 1, s =>
    match s.step cfg host with
    | .ok (some s') => s'.steps cfg host n
    | _ => none

theorem VnsState.steps_run {n : Nat} {s s' : VnsState} (h : s.steps cfg host n = some s') :
    Relation.ReflTransGen (VnsStep cfg host) s s' := by
  induction n generalizing s with
  | zero =>
    obtain rfl := Option.some.inj h
    exact Relation.ReflTransGen.refl
  | succ n ih =>
    rw [VnsState.steps] at h
    split at h
    · exact Relation.ReflTransGen.head ‹_› (ih h)
    · cases h

def demoHost : VnsHost :=
  { env := demoEnv
    sends := fun _ => true
    creates := fun _ => true
    loads := none }

/-- The server closes the session without a reason. -/
def demoClose : Frame := [0, 0, 0, 9, 0, 0, 0, 2, 0]

theorem vns_portions_demo : ∃ s s' : VnsState,
    Relation.ReflTransGen (VnsStep demoConfig demoHost)
      ⟨.start ⟨[], []⟩, [demoAuthRequest, demoClose].flatten, List.replicate 40 (.brings 9)⟩ s ∧
    Relation.ReflTransGen (VnsStep demoConfig demoHost)
      ⟨.start ⟨[], []⟩, [demoAuthRequest, demoClose].flatten,
        .interrupted :: List.replicate 40 (.brings 0)⟩ s' ∧
    s.client = s'.client ∧
    [demoAuthRequest, demoClose].foldlM (VnsClient.serve demoConfig demoHost) (.start ⟨[], []⟩) =
      .ok s.client := by
  have hcomputed : ∀ calls ∈ [List.replicate 40 (.brings 9), .interrupted :: List.replicate 40 (.brings 0)],
      (VnsState.steps demoConfig demoHost 2
        ⟨.start ⟨[], []⟩, [demoAuthRequest, demoClose].flatten, calls⟩).any
          (fun s => s.step demoConfig demoHost = .ok none) = true := by
    decide +kernel
  obtain ⟨s, hsteps, hblocked⟩ := (Option.any_eq_true _ _).mp (hcomputed _ List.mem_cons_self)
  obtain ⟨s', hsteps', hblocked'⟩ := (Option.any_eq_true _ _).mp
    (hcomputed _ (List.mem_cons_of_mem _ List.mem_cons_self))
  have hrun := VnsState.steps_run hsteps
  have hrun' := VnsState.steps_run hsteps'
  have hframed : ∀ w ∈ [demoAuthRequest, demoClose], WellFramed w := by
    intro w hw
    simp only [List.mem_cons, List.not_mem_nil, or_false] at hw
    rcases hw with rfl | rfl
    · decide
    · decide
  exact ⟨s, s', hrun, hrun', vns_portions hframed (by decide) (by decide) (by decide) (by decide) hrun hrun'
    (of_decide_eq_true hblocked) (of_decide_eq_true hblocked')⟩

end Demo

end PWOSPF
