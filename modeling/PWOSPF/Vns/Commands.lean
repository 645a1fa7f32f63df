import PWOSPF.Arp.Input
import PWOSPF.Framework.Gather
import PWOSPF.Vns.AuthReply

/-!
# Commands of the server

`sr_read_from_server_expect` of `sr_vns_comm.c` reads the length of a command, then the rest of it, and
gives it to what handles commands of its type.
-/

namespace PWOSPF

open Framework VnsField PacketField

def vnsOpen : UInt32 := 1
def vnsClose : UInt32 := 2
def vnsPacket : UInt32 := 4
def vnsHwinfo : UInt32 := 16
def vnsRtable : UInt32 := 32
def vnsOpenTemplate : UInt32 := 64
def vnsAuthRequest : UInt32 := 128
def vnsAuthStatus : UInt32 := 512

def idSize : Nat := 32
def sizeofPacketHeader : Nat := 24
def maxCommandLen : Int := 10000

/-- What the surroundings do: whether a message can be sent and a file created, and the routes that
`sr_load_rt` reads, if it can. -/
structure VnsHost where
  env : Env
  sends : Frame → Bool
  creates : List UInt8 → Bool
  loads : Option (List SrRt)

/-- What the commands bring about. -/
inductive VnsAction
  | sends (message : Frame)
  | handles (packet : Frame) (interface : IfName)
  | starts (sr : SrInstance)
  | writes (name contents : List UInt8)
  deriving DecidableEq, Repr

/-! ## Reading -/

inductive CommandRead
  | waiting
  | failed
  | read (buf : Frame) (command : UInt32) (rest : List UInt8) (calls : List Delivery)
  deriving DecidableEq, Repr

/-- The value of a word as an `int`. -/
def asInt (x : UInt32) : Int := x.toBitVec.toInt

/-- The buffer is not initialised, and as long as the first four bytes tell. -/
def readCommand (env : Env) (stream : List UInt8) (calls : List Delivery) : Exec CommandRead :=
  match gather 4 [] stream calls with
  | .waiting => return .waiting
  | .failed => return .failed
  | .done head rest calls => do
    let len := ntohl (.ofNat (leValue head))
    if asInt len > maxCommandLen ∨ asInt len < 0 then return .failed
    let buf : Frame := (List.range len.toNat).map env.bytes
    let buf ← buf.set mLen (htonl len).toNat
    match gather (len.toNat - 4) [] rest calls with
    | .waiting => return .waiting
    | .failed => return .failed
    | .done body rest calls => do
      let buf ← buf.store 4 body
      let command := ntohl (.ofNat (← buf.get mType))
      let buf ← buf.set mType command.toNat
      return .read buf command rest calls

/-! ## Packets -/

def srIfaceNamelen : Nat := 32

/-- The name in the header, as `strncmp` compares it with those of the interfaces: it leaves a message
that ends within the name only for an interface whose name starts like that. -/
def packetInterface (sr : SrInstance) (buf : Frame) : Exec IfName :=
  let name := (buf.drop sizeofBase).take srIfaceNamelen
  if 0 ∈ name ∨ name.length = srIfaceNamelen ∨
      ∀ walker ∈ sr.ifList, ¬ name.isPrefixOf walker.name then .ok (cString name)
  else .error .outOfBounds

def srArpReqNotForUs (sr : SrInstance) (packet : Frame) (len : Nat) (interface : IfName) :
    Exec Bool :=
  if len < sizeofEther + sizeofArp then .ok false
  else
    match srGetInterface sr interface with
    | none => .error .assertion
    | some iface => do
      let type ← packet.get etherType
      let op ← packet.get arOp
      let tip ← packet.get arTip
      return type = (htons ethertypeArp).toNat ∧ op = (htons arpRequest).toNat ∧ tip ≠ iface.ip.toNat

/-! ## Hardware information -/

def hwInterface : UInt32 := 1
def hwEther : UInt32 := 32
def hwEthIp : UInt32 := 64
def sizeofHwEntry : Nat := 36

/-- The new interface has no addresses yet. -/
def srAddInterface (env : Env) (sr : SrInstance) (name : IfName) : SrInstance :=
  { sr with ifList := sr.ifList ++
      [⟨name, macOf ((List.range 6).map env.bytes), .ofNat (leValue ((List.range 4).map env.bytes))⟩] }

/-- The setters change the last interface of the list. -/
def setLastIf (f : SrIf → SrIf) : List SrIf → Exec (List SrIf)
  | [] => .error .assertion
  | [walker] => .ok [f walker]
  | walker :: next :: rest => do return walker :: (← setLastIf f (next :: rest))

def srSetEtherIp (sr : SrInstance) (ip : InAddr) : Exec SrInstance := do
  return { sr with ifList := ← setLastIf (fun x => { x with ip := ip }) sr.ifList }

def srSetEtherAddr (sr : SrInstance) (addr : Mac) : Exec SrInstance := do
  return { sr with ifList := ← setLastIf (fun x => { x with addr := addr }) sr.ifList }

/-- The body of the loop. The other keys are only told about. -/
def hwEntry (env : Env) (hwinfo : Frame) (sr : SrInstance) (i : Nat) : Exec SrInstance := do
  let entry := sizeofBase + i * sizeofHwEntry
  let key := ntohl (.ofNat (← hwinfo.get ⟨entry, 4⟩))
  let value ← hwinfo.load (entry + 4) 32
  if key = hwInterface then return srAddInterface env sr (cString value)
  else if key = hwEthIp then srSetEtherIp sr (.ofNat (leValue (value.take 4)))
  else if key = hwEther then srSetEtherAddr sr (macOf (value.take 6))
  else return sr

def srHandleHwinfo (env : Env) (sr : SrInstance) (hwinfo : Frame) : Exec SrInstance := do
  let len := ntohl (.ofNat (← hwinfo.get mLen))
  (List.range ((len.toNat - sizeofBase) / sizeofHwEntry)).foldlM (hwEntry env hwinfo) sr

/-- The number of routes whose interface does not exist. -/
def srVerifyRoutingTable (sr : SrInstance) : Nat :=
  if sr.ifList = [] ∨ sr.routingTable = [] then 999
  else sr.routingTable.countP fun rt => sr.ifList.all fun walker => walker.name ≠ rt.interface

/-! ## Handling -/

/-- What `sr_read_from_server_expect` returns, with the interfaces and routes, and what it did. -/
structure VnsServed where
  ret : Int
  sr : SrInstance
  actions : List VnsAction
  deriving DecidableEq, Repr

/-- The string that starts at offset `o`, which `strcat` reads up to its zero; more than `n` bytes of it do
not fit. -/
def loadString (f : Frame) (o n : Nat) : Exec (List UInt8) :=
  let s := (f.drop o).take n
  if 0 ∈ s ∨ s.length = n then .ok (cString s) else .error .outOfBounds

/-- The table is written behind `rtable.` and the name of the host. -/
def srHandleRtable (host : VnsHost) (sr : SrInstance) (rtable : Frame) : Exec VnsServed := do
  let id ← loadString rtable sizeofBase (idSize + 1)
  if id.length > idSize then .error .outOfBounds
  let name := [114, 116, 97, 98, 108, 101, 46] ++ id
  if host.creates name then
    let contents ← rtable.load (sizeofBase + idSize) (rtable.length - (sizeofBase + idSize))
    return ⟨1, sr, [.writes name contents]⟩
  else return ⟨-1, sr, []⟩

def handleCommand (cfg : VnsConfig) (host : VnsHost) (sr : SrInstance) (buf : Frame)
    (command : UInt32) : Exec VnsServed := do
  if command = vnsPacket then
    let interface ← packetInterface sr buf
    let packet := buf.drop sizeofPacketHeader
    let len := UInt32.ofNat buf.length - UInt32.ofNat sizeofPacketHeader
    if ← srArpReqNotForUs sr packet len.toNat interface then return ⟨1, sr, []⟩
    else return ⟨1, sr, [.handles packet interface]⟩
  else if command = vnsClose then return ⟨0, sr, []⟩
  else if command = vnsHwinfo then
    let sr ← srHandleHwinfo host.env sr buf
    if srVerifyRoutingTable sr ≠ 0 then return ⟨-1, sr, []⟩ else return ⟨1, sr, [.starts sr]⟩
  else if command = vnsRtable then srHandleRtable host sr buf
  else if command = vnsAuthRequest then
    match ← srHandleAuthRequest cfg host.env buf with
    | none => return ⟨-1, sr, []⟩
    | some ar => if host.sends ar then return ⟨1, sr, [.sends ar]⟩ else return ⟨-1, sr, []⟩
  else if command = vnsAuthStatus then
    if (← buf.get ⟨sizeofBase, 1⟩) = 0 then return ⟨-1, sr, []⟩ else return ⟨1, sr, []⟩
  else return ⟨1, sr, []⟩

/-- A command that was not expected is refused, unless the server closes the session. -/
def serveCommand (cfg : VnsConfig) (host : VnsHost) (sr : SrInstance) (expected : Option UInt32)
    (buf : Frame) (command : UInt32) : Exec VnsServed :=
  match expected with
  | none => handleCommand cfg host sr buf command
  | some expectedCmd =>
    if command ≠ expectedCmd ∧ command ≠ vnsClose then .ok ⟨-1, sr, []⟩
    else handleCommand cfg host sr buf command

end PWOSPF
