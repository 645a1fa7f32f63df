import PWOSPF.Vns.Session

/-!
# The handshake

Before it has answered the salt of the server and was told that the answer is right, the router takes
no command that it acts on: it neither starts, nor handles a packet, nor writes a routing table.
-/

namespace PWOSPF

open Framework VnsField PacketField

variable {cfg : VnsConfig} {host : VnsHost} {x y : VnsClient} {w buf : Frame} {ws : List Frame}
  {calls : List Delivery} {command expected : UInt32}

/-! ## Commands in host byte order -/

theorem slice_hostOrder (hlen : sizeofBase ≤ w.length) :
    (hostOrder w).length = w.length ∧ slice (hostOrder w) 0 4 = slice w 0 4 ∧
      (hostOrder w).drop sizeofBase = w.drop sizeofBase := by
  have hfour : (leBytes 4 (commandOf w).toNat).length = 4 := leBytes_length 4 _
  have hin : 4 + (leBytes 4 (commandOf w).toNat).length ≤ w.length := by rw [hfour]; exact hlen
  exact ⟨patch_length hin, slice_patch_outside hin (Or.inl (Nat.le_refl 4)),
    drop_patch_outside (by rw [hfour]; exact hlen) (by rw [hfour, sizeofBase])⟩

/-! ## What is expected -/

theorem handleCommand_close (sr : SrInstance) (buf : Frame) :
    handleCommand cfg host sr buf vnsClose = .ok ⟨0, sr, []⟩ := by
  rw [handleCommand, if_neg (by decide), if_pos rfl]
  rfl

theorem serveCommand_expected (sr : SrInstance) (buf : Frame) (command : UInt32) :
    serveCommand cfg host sr (some command) buf command = handleCommand cfg host sr buf command :=
  if_neg fun h => h.1 rfl

/-- Commands that are not expected end the session, and nothing else. -/
theorem receive_unexpected (hexpects : x.phase.expects = some expected) (hcommand : command ≠ expected)
    (hrun : x.receive cfg host buf command = .ok y) : y.phase = .ended ∧ y.done = x.done := by
  have hserve : ∃ ret, ret ≠ 1 ∧
      serveCommand cfg host x.sr (some expected) buf command = .ok ⟨ret, x.sr, []⟩ := by
    by_cases hclose : command = vnsClose
    · subst hclose
      refine ⟨0, by decide, ?_⟩
      exact (if_neg fun h => h.2 rfl).trans (handleCommand_close x.sr buf)
    · exact ⟨-1, by decide, if_pos ⟨hcommand, hclose⟩⟩
  obtain ⟨ret, hret, hserve⟩ := hserve
  rw [VnsClient.receive, hexpects, hserve, ok_bind] at hrun
  simp only [if_neg hret] at hrun
  cases hrun
  exact ⟨rfl, List.append_nil _⟩

/-- The first command is answered, or the session ends. -/
theorem receive_authRequest (hphase : x.phase = .authRequest)
    (hrun : x.receive cfg host buf command = .ok y) :
    y.phase = .ended ∧ y.done = x.done ∨
      command = vnsAuthRequest ∧ y.phase = .authStatus ∧
        ∃ ar, srHandleAuthRequest cfg host.env buf = .ok (some ar) ∧ y.done = x.done ++ [.sends ar] := by
  by_cases hcommand : command = vnsAuthRequest
  · subst hcommand
    have hexpects : x.phase.expects = some vnsAuthRequest := by rw [hphase]; rfl
    rw [VnsClient.receive, hexpects, serveCommand_expected] at hrun
    obtain ⟨out, hhandle, hrun⟩ := bind_eq_ok.mp hrun
    rw [handleCommand, if_neg (by decide), if_neg (by decide), if_neg (by decide), if_neg (by decide),
      if_pos rfl] at hhandle
    obtain ⟨reply, hauth, hhandle⟩ := bind_eq_ok.mp hhandle
    have hfailed : ∀ sr : SrInstance, out = ⟨-1, sr, []⟩ → y.phase = .ended ∧ y.done = x.done := by
      rintro sr rfl
      cases hrun
      exact ⟨rfl, List.append_nil _⟩
    cases reply with
    | none =>
      cases hhandle
      exact Or.inl (hfailed _ rfl)
    | some ar =>
      by_cases hsends : host.sends ar
      · simp only [if_pos hsends] at hhandle
        cases hhandle
        simp only [if_true, VnsClient.proceed, hphase] at hrun
        cases hrun
        exact Or.inr ⟨rfl, rfl, ar, hauth, rfl⟩
      · simp only [if_neg hsends] at hhandle
        cases hhandle
        exact Or.inl (hfailed _ rfl)
  · exact Or.inl (receive_unexpected (by rw [hphase]; rfl) hcommand hrun)

/-- The second one tells whether the answer was right. Then the session is opened. -/
theorem receive_authStatus (hphase : x.phase = .authStatus)
    (hrun : x.receive cfg host buf command = .ok y) :
    y.phase = .ended ∧ y.done = x.done ∨
      command = vnsAuthStatus ∧ (∃ v, buf.get ⟨sizeofBase, 1⟩ = .ok v ∧ v ≠ 0) ∧
        y.done = x.done ++ [.sends (openMessage cfg)] := by
  by_cases hcommand : command = vnsAuthStatus
  · subst hcommand
    have hexpects : x.phase.expects = some vnsAuthStatus := by rw [hphase]; rfl
    rw [VnsClient.receive, hexpects, serveCommand_expected] at hrun
    obtain ⟨out, hhandle, hrun⟩ := bind_eq_ok.mp hrun
    rw [handleCommand, if_neg (by decide), if_neg (by decide), if_neg (by decide), if_neg (by decide),
      if_neg (by decide), if_pos rfl] at hhandle
    obtain ⟨v, hget, hhandle⟩ := bind_eq_ok.mp hhandle
    by_cases hv : v = 0
    · simp only [if_pos hv] at hhandle
      cases hhandle
      cases hrun
      exact Or.inl ⟨rfl, List.append_nil _⟩
    · simp only [if_neg hv] at hhandle
      cases hhandle
      simp only [if_true, VnsClient.proceed, hphase, List.append_nil] at hrun
      by_cases hsends : host.sends (openMessage cfg)
      · simp only [if_pos hsends] at hrun
        cases hrun
        exact Or.inr ⟨rfl, ⟨v, hget, hv⟩, rfl⟩
      · simp only [if_neg hsends] at hrun
        cases hrun
        exact Or.inl ⟨rfl, rfl⟩
  · exact Or.inl (receive_unexpected (by rw [hphase]; rfl) hcommand hrun)

/-! ## Runs -/

/-- What was done stays done. -/
theorem receive_done (hrun : x.receive cfg host buf command = .ok y) : x.done <+: y.done := by
  rw [VnsClient.receive] at hrun
  obtain ⟨out, -, hrun⟩ := bind_eq_ok.mp hrun
  split at hrun
  · cases hrun
    refine (List.prefix_append _ out.actions).trans ?_
    rw [VnsClient.proceed]
    split
    · exact List.prefix_refl _
    · split
      · exact List.prefix_append _ _
      · exact List.prefix_refl _
    · split
      · exact List.prefix_refl _
      · exact List.prefix_refl _
    · exact List.prefix_refl _
    · exact List.prefix_refl _
  · cases hrun
    exact List.prefix_append _ _

theorem serve_done (hrun : ws.foldlM (VnsClient.serve cfg host) x = .ok y) : x.done <+: y.done := by
  induction ws generalizing x with
  | nil =>
    cases hrun
    exact List.prefix_refl _
  | cons w ws ih =>
    rw [List.foldlM_cons] at hrun
    obtain ⟨z, hserve, hrun⟩ := bind_eq_ok.mp hrun
    refine List.IsPrefix.trans ?_ (ih hrun)
    rw [VnsClient.serve] at hserve
    split at hserve
    · cases hserve
      exact List.prefix_refl _
    · exact receive_done hserve

/-- The answer to a framed request. -/
theorem authReply_of_sent (hw : WellFramed w) (huser : cfg.user.length < 2 ^ 31) {env : Env} {ar : Frame}
    (hauth : srHandleAuthRequest cfg env (hostOrder w) = .ok (some ar)) :
    ∃ key, cfg.authKey.bind (readAuthKey env) = some key ∧
      ar = authReply cfg (w.drop sizeofBase) key := by
  obtain ⟨hlen, hslice, hdrop⟩ := slice_hostOrder hw.long
  cases hkey : cfg.authKey.bind (readAuthKey env) with
  | none =>
    rw [srHandleAuthRequest, hkey] at hauth
    cases hauth
  | some key =>
    have hreply := @srHandleAuthRequest_reply cfg env (hostOrder w) key (by rw [hlen]; exact hw.long)
      (by rw [hslice, hlen]; exact hw.len)
      (by rw [hlen]; exact Nat.lt_of_le_of_lt hw.short (by decide)) huser hkey
    rw [hauth, hdrop] at hreply
    cases hreply
    exact ⟨key, rfl, rfl⟩

/-- The byte that tells whether the answer was right. -/
theorem authOk_of_get (hlen : sizeofBase ≤ w.length) {v : Nat}
    (hget : (hostOrder w).get ⟨sizeofBase, 1⟩ = .ok v) (hv : v ≠ 0) :
    ∃ b, w[sizeofBase]? = some b ∧ b ≠ 0 := by
  have hbyte := Frame.getElem?_of_get hget
  have hlt : v < 256 := Frame.get_lt hget
  obtain ⟨-, -, hdrop⟩ := slice_hostOrder hlen
  have hhead := congrArg (fun l : List UInt8 => l[0]?) hdrop
  simp only [List.getElem?_drop, Nat.add_zero] at hhead
  refine ⟨.ofNat v, hhead.symm.trans hbyte, ?_⟩
  intro hzero
  have hnat := congrArg UInt8.toNat hzero
  rw [UInt8.toNat_ofNat_of_lt' hlt] at hnat
  exact hv hnat

variable {sr : SrInstance} {s : VnsState}

/-- What a router that has ended does. -/
theorem done_of_ended (hended : x.phase = .ended) (hrun : ws.foldlM (VnsClient.serve cfg host) x = .ok y) :
    y.done = x.done := by
  rw [serve_ended hended] at hrun
  cases hrun
  rfl

/-- The first two commands, if anything but sending was done after some. -/
theorem authenticated_of_served (huser : cfg.user.length < 2 ^ 31) (hws : ∀ w ∈ ws, WellFramed w)
    (hrun : ws.foldlM (VnsClient.serve cfg host) (.start sr) = .ok y) {a : VnsAction} (ha : a ∈ y.done)
    (hacts : ∀ message, a ≠ .sends message) :
    ∃ req status ws' key more, ws = req :: status :: ws' ∧ commandOf req = vnsAuthRequest ∧
      commandOf status = vnsAuthStatus ∧ (∃ b, status[sizeofBase]? = some b ∧ b ≠ 0) ∧
      cfg.authKey.bind (readAuthKey host.env) = some key ∧
      y.done = .sends (authReply cfg (req.drop sizeofBase) key) :: .sends (openMessage cfg) :: more := by
  cases ws with
  | nil =>
    cases hrun
    cases ha
  | cons req ws =>
    obtain ⟨x₁, hreq, hrun⟩ := bind_eq_ok.mp (List.foldlM_cons.symm.trans hrun)
    rw [VnsClient.serve, if_neg (show ¬ (VnsClient.start sr).phase = VnsPhase.ended from VnsPhase.noConfusion)] at hreq
    obtain ⟨hended, hdone⟩ | ⟨hcommand, hphase, ar, hauth, hdone⟩ := receive_authRequest rfl hreq
    · rw [done_of_ended hended hrun, hdone] at ha
      cases ha
    · obtain ⟨key, hkey, rfl⟩ := authReply_of_sent (hws req List.mem_cons_self) huser hauth
      have honly : x₁.done = [.sends (authReply cfg (req.drop sizeofBase) key)] := hdone
      have hnot : a ∉ x₁.done := fun hmem =>
        hacts _ (List.mem_singleton.mp (honly ▸ hmem))
      cases ws with
      | nil =>
        cases hrun
        exact absurd ha hnot
      | cons status ws =>
        obtain ⟨x₂, hstatus, hrun⟩ := bind_eq_ok.mp (List.foldlM_cons.symm.trans hrun)
        rw [VnsClient.serve, if_neg (by rw [hphase]; decide)] at hstatus
        obtain ⟨hended, hsame⟩ | ⟨hcommand', ⟨v, hget, hv⟩, hopened⟩ :=
          receive_authStatus hphase hstatus
        · rw [done_of_ended hended hrun, hsame] at ha
          exact absurd ha hnot
        · obtain ⟨more, hmore⟩ := serve_done hrun
          have hlen := (hws status (List.mem_cons_of_mem _ List.mem_cons_self)).long
          refine ⟨req, status, ws, key, more, rfl, hcommand, hcommand', authOk_of_get hlen hget hv,
            hkey, ?_⟩
          rw [← hmore, hopened, honly]
          rfl

section Demo

/-- The server takes the answer. -/
def demoAuthStatus : Frame := [0, 0, 0, 9, 0, 0, 2, 0, 1]

/-- Three bytes that come in by `eth0`. -/
def demoPacket : Frame :=
  [0, 0, 0, 27, 0, 0, 0, 4] ++ [101, 116, 104, 48] ++ List.replicate 12 0 ++ [1, 2, 3]

end Demo

end PWOSPF
