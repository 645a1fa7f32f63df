import PWOSPF.Vns.Conversation
import PWOSPF.Vns.RouteFile

/-!
# Topologies from a template

A router that asked for a template gets its routes from the server: `sr_handle_rtable` writes them to a
file with the id of the host in its name, and `main` has `sr_load_rt` read the file of the host `vrhost`
before it takes further commands. These are the same file only for that host.
-/

namespace PWOSPF

open Framework VnsField PacketField

/-- The id of the host whose file `main` reads. -/
def vrhost : List UInt8 := [118, 114, 104, 111, 115, 116]

/-- `rtable.` and the id -/
def rtableName (id : List UInt8) : List UInt8 := [114, 116, 97, 98, 108, 101, 46] ++ id

/-- The message that brings a file with routes for a host. -/
def rtableMessage (id file : List UInt8) : Frame :=
  netBytes 4 (sizeofBase + idSize + file.length) ++ netBytes 4 vnsRtable.toNat ++ strncpy id idSize ++
    file

/-- The id has a zero behind it in the message. -/
structure ShortId (id : List UInt8) : Prop where
  short : id.length < idSize
  clean : 0 ∉ id

/-- The routes that `sr_load_rt` reads from the file, if it succeeds. -/
def loadedRoutes (v : RtVars) (file : List UInt8) : Option (List SrRt) :=
  match srLoadRt v [] file with
  | .ok (routes, 0) => some routes
  | _ => none

/-- What `main` reads when the server has sent the file for a host. `old` is what was in `rtable.vrhost`
before, if there was such a file. -/
def routesAfter (v : RtVars) (old : Option (List UInt8)) (id file : List UInt8) : Option (List SrRt) :=
  if id = vrhost then loadedRoutes v file else old.bind (loadedRoutes v)

variable {cfg : VnsConfig} {host : VnsHost} {x : VnsClient} {id file : List UInt8}

/-! ## The message -/

theorem rtableMessage_length (id file : List UInt8) :
    (rtableMessage id file).length = sizeofBase + idSize + file.length := by
  simp only [rtableMessage, List.length_append, netBytes_length, strncpy_length, sizeofBase]

theorem rtableMessage_drop (id file : List UInt8) :
    (rtableMessage id file).drop sizeofBase = strncpy id idSize ++ file ∧
      (rtableMessage id file).drop (sizeofBase + idSize) = file := by
  have hbase : (rtableMessage id file).drop sizeofBase = strncpy id idSize ++ file := by
    rw [rtableMessage, List.append_assoc _ (strncpy id idSize)]
    exact List.drop_left' (by rw [List.length_append, netBytes_length, netBytes_length, sizeofBase])
  refine ⟨hbase, ?_⟩
  rw [← List.drop_drop, hbase]
  exact List.drop_left' (strncpy_length id idSize)

theorem rtableMessage_framed (hfits : sizeofBase + idSize + file.length ≤ 10000) :
    WellFramed (rtableMessage id file) ∧ commandOf (rtableMessage id file) = vnsRtable := by
  have hhead : (netBytes 4 (sizeofBase + idSize + file.length)).length = 4 := netBytes_length 4 _
  have htype : slice (rtableMessage id file) 4 4 = netBytes 4 vnsRtable.toNat := by
    rw [slice, rtableMessage, List.append_assoc, List.append_assoc, List.drop_left' hhead]
    exact List.take_left' (netBytes_length 4 _)
  refine ⟨⟨?_, ?_, ?_⟩, ?_⟩
  · rw [rtableMessage_length, Nat.add_assoc]
    exact Nat.le_add_right _ _
  · rw [rtableMessage_length]
    exact hfits
  · rw [rtableMessage_length, slice, List.drop_zero, rtableMessage, List.append_assoc, List.append_assoc]
    exact List.take_left' hhead
  · rw [commandOf, htype, netBytes, List.reverse_reverse, leValue_leBytes 4 _ (by decide)]
    rfl

/-- The id is read back from the message. -/
theorem loadString_id (hid : ShortId id) (hfits : sizeofBase + idSize + file.length ≤ 10000) :
    loadString (hostOrder (rtableMessage id file)) sizeofBase (idSize + 1) = .ok id := by
  obtain ⟨-, -, hdrop⟩ := slice_hostOrder (@rtableMessage_framed id file hfits).1.long
  have hshort := hid.short
  have hpadded : strncpy id idSize = id ++ 0 :: List.replicate (idSize - 1 - id.length) 0 := by
    have hsucc : idSize - id.length = idSize - 1 - id.length + 1 := by omega
    rw [strncpy, cString_of_clean hid.clean, List.take_append, List.take_of_length_le (by omega),
      List.take_replicate, Nat.min_eq_left (by omega), hsucc, List.replicate_succ]
  have hfront : (strncpy id idSize ++ file).take (idSize + 1) =
      id ++ 0 :: (List.replicate (idSize - 1 - id.length) 0 ++ file.take 1) := by
    rw [List.take_append, strncpy_length, List.take_of_length_le (by rw [strncpy_length]; omega),
      hpadded, List.append_assoc, List.cons_append, Nat.add_sub_cancel_left]
  rw [loadString, hdrop, (rtableMessage_drop id file).1, hfront,
    if_pos (Or.inl (List.mem_append_right _ List.mem_cons_self)), cString_append_zero hid.clean]

/-- The file is written as it was sent. -/
theorem srHandleRtable_eq (sr : SrInstance) (hid : ShortId id)
    (hcreates : host.creates (rtableName id) = true)
    (hfits : sizeofBase + idSize + file.length ≤ 10000) :
    srHandleRtable host sr (hostOrder (rtableMessage id file)) =
      .ok ⟨1, sr, [.writes (rtableName id) file]⟩ := by
  obtain ⟨hlen, -, hdrop⟩ := slice_hostOrder (@rtableMessage_framed id file hfits).1.long
  have hcontents : (hostOrder (rtableMessage id file)).load (sizeofBase + idSize)
      ((hostOrder (rtableMessage id file)).length - (sizeofBase + idSize)) = .ok file := by
    have hbehind : (hostOrder (rtableMessage id file)).drop (sizeofBase + idSize) = file := by
      rw [← List.drop_drop, hdrop, List.drop_drop, (rtableMessage_drop id file).2]
    rw [Frame.load, if_pos (by rw [hlen, rtableMessage_length]; omega), slice, hbehind, hlen,
      rtableMessage_length, Nat.add_sub_cancel_left, List.take_length]
  rw [srHandleRtable, loadString_id hid hfits, ok_bind, if_neg (Nat.not_lt.mpr (Nat.le_of_lt hid.short))]
  simp only [show [114, 116, 97, 98, 108, 101, 46] ++ id = rtableName id from rfl, hcreates, if_true,
    hcontents, ok_bind, pure_eq_ok]

/-! ## The routes -/

/-- The router that waits for its routes writes the file. -/
theorem serve_rtable (hphase : x.phase = .rtable) (hid : ShortId id)
    (hcreates : host.creates (rtableName id) = true)
    (hfits : sizeofBase + idSize + file.length ≤ 10000) :
    x.serve cfg host (rtableMessage id file) =
      .ok (VnsClient.proceed cfg host { x with done := x.done ++ [.writes (rtableName id) file] }) := by
  have hne : ¬ x.phase = .ended := by
    rw [hphase]
    exact VnsPhase.noConfusion
  have hexpects : x.phase.expects = some vnsRtable := by rw [hphase]; rfl
  rw [VnsClient.serve, if_neg hne, (rtableMessage_framed hfits).2, VnsClient.receive, hexpects,
    serveCommand_expected, handleCommand, if_neg (by decide), if_neg (by decide), if_neg (by decide),
    if_pos rfl, srHandleRtable_eq x.sr hid hcreates hfits, ok_bind]
  rfl

theorem loadedRoutes_routeFile {table : List SrRt} (hnames : ∀ rt ∈ table, Printable rt.interface)
    (v : RtVars) : loadedRoutes v (routeFile table) = some table := by
  rw [loadedRoutes, srLoadRt, fgetsLines_routeFile hnames, loadRoutes_lines hnames v []]
  rfl

/-- The server greets the router, which asked for a template, sends the routes for a host, lists the
interfaces and passes frames on. The file `rtable.vrhost` held `old` before. -/
structure TemplateConversation (cfg : VnsConfig) (host : VnsHost) (sr : SrInstance) (req status : Frame)
    (key id : List UInt8) (table : List SrRt) (es : List HwBytes) (ifs : List SrIf)
    (ps : List (Frame × IfName)) (v : RtVars) (old : Option (List UInt8)) : Prop
    extends Greeting cfg host req status key where
  template : cfg.template ≠ []
  hostId : ShortId id
  creates : host.creates (rtableName id) = true
  names : ∀ rt ∈ table, Printable rt.interface
  fileFits : sizeofBase + idSize + (routeFile table).length ≤ 10000
  loads : host.loads = routesAfter v old id (routeFile table)
  values : ∀ e ∈ es, e.2.length = 32
  fits : sizeofBase + es.length * sizeofHwEntry ≤ 10000
  interfaces : Described ((es.map hwItem).filter fun item => item ≠ .other) ifs
  packets : ∀ p ∈ ps, Arrives { sr with ifList := sr.ifList ++ ifs } p

/-- The commands of the server. -/
def templateCommands (req status : Frame) (id : List UInt8) (table : List SrRt) (es : List HwBytes)
    (ps : List (Frame × IfName)) : List Frame :=
  req :: status :: rtableMessage id (routeFile table) :: hwMessage es ::
    ps.map fun p => packetBytes p.1 p.2

/-- The router that started with these routes, or has none. -/
def startedWith (sr : SrInstance) (ifs : List SrIf) (done : List VnsAction) (ps : List (Frame × IfName)) :
    Option (List SrRt) → VnsClient
  | none => ⟨.ended, sr, done⟩
  | some routes =>
    let sr' := ⟨sr.ifList ++ ifs, sr.routingTable ++ routes⟩
    if Consistent sr' then ⟨.running, sr', done ++ [.starts sr'] ++ ps.flatMap (handled sr')⟩
    else ⟨.ended, sr', done⟩

/-- The router in the end: its routes are those that the server sent if they were for `vrhost`, and
otherwise those of the file that was there before. -/
def templateOutcome (cfg : VnsConfig) (sr : SrInstance) (req : Frame) (key id : List UInt8)
    (table : List SrRt) (ifs : List SrIf) (ps : List (Frame × IfName)) (v : RtVars)
    (old : Option (List UInt8)) : VnsClient :=
  startedWith sr ifs [.sends (authReply cfg (req.drop sizeofBase) key), .sends (openMessage cfg),
    .writes (rtableName id) (routeFile table)] ps
    (if id = vrhost then some table else old.bind (loadedRoutes v))

section Template

variable {sr : SrInstance} {req status : Frame} {key : List UInt8} {table : List SrRt} {es : List HwBytes}
  {ifs : List SrIf} {ps : List (Frame × IfName)} {v : RtVars} {old : Option (List UInt8)}

namespace TemplateConversation

theorem framed (h : TemplateConversation cfg host sr req status key id table es ifs ps v old) :
    ∀ w ∈ templateCommands req status id table es ps, WellFramed w := by
  intro w hw
  rcases List.mem_cons.mp hw with rfl | hw
  · exact h.asks.1
  rcases List.mem_cons.mp hw with rfl | hw
  · exact h.tells.1
  rcases List.mem_cons.mp hw with rfl | hw
  · exact (rtableMessage_framed h.fileFits).1
  rcases List.mem_cons.mp hw with rfl | hw
  · exact (hwMessage_framed h.values h.fits).1
  obtain ⟨p, hp, rfl⟩ := List.mem_map.mp hw
  exact (packetBytes_framed (h.packets p hp).fits p.2).1

/-- The interfaces, and then the frames, if there are routes. -/
theorem serve_started (h : TemplateConversation cfg host sr req status key id table es ifs ps v old)
    (done : List VnsAction) (routes : List SrRt) :
    (hwMessage es :: ps.map fun p => packetBytes p.1 p.2).foldlM (VnsClient.serve cfg host)
        ⟨.running, { sr with routingTable := sr.routingTable ++ routes }, done⟩ =
      .ok (startedWith sr ifs done ps (some routes)) := by
  have hstart := @serve_hwMessage cfg host es ifs
    ⟨.running, { sr with routingTable := sr.routingTable ++ routes }, done⟩ rfl h.values h.fits h.interfaces
  rw [List.foldlM_cons, hstart, ok_bind, startedWith]
  by_cases hconsistent : Consistent ⟨sr.ifList ++ ifs, sr.routingTable ++ routes⟩
  · simp only [if_pos hconsistent]
    exact serve_packets rfl fun p hp => ⟨(h.packets p hp).fits, (h.packets p hp).name, (h.packets p hp).known⟩
  · simp only [if_neg hconsistent]
    exact serve_ended rfl

/-- Command by command. -/
theorem serve_commands (h : TemplateConversation cfg host sr req status key id table es ifs ps v old) :
    (templateCommands req status id table es ps).foldlM (VnsClient.serve cfg host) (.start sr) =
      .ok (templateOutcome cfg sr req key id table ifs ps v old) := by
  have hloads : host.loads = if id = vrhost then some table else old.bind (loadedRoutes v) := by
    rw [h.loads, routesAfter, loadedRoutes_routeFile h.names]
  rw [templateCommands, List.foldlM_cons, h.serve_req, ok_bind, List.foldlM_cons, h.serve_status,
    if_neg h.template, ok_bind, List.foldlM_cons, serve_rtable rfl h.hostId h.creates h.fileFits, ok_bind,
    templateOutcome, ← hloads, VnsClient.proceed]
  cases host.loads with
  | none => exact serve_ended rfl
  | some routes => exact h.serve_started _ routes

end TemplateConversation

end Template

section Demo

/-- The files of this host are those that the router writes. -/
def demoTemplateHost : VnsHost :=
  { demoHost with loads := loadedRoutes ⟨[], [], [], []⟩ (routeFile demoRoutes) }

/-- The template is `t`. -/
def demoTemplate : VnsConfig := { demoConfig with template := [116] }

end Demo

end PWOSPF
