import Mathlib.Logic.Function.Basic
import ZortilWatch.Lib.Text
import ZortilWatch.Server.RateLimit
import ZortilWatch.Signaling.RegistryRuns

/-!
# The signalling endpoint (`server/src/ws/signaling.ts`)

`registerSignaling` as a system of events. A message handler runs to its end or
to its database lookup; there it is parked in the `waiting` list of its socket
and a `resume` event, in any order and after any other events, carries it on
with the lookup's answer. The rest of the handler reads the socket's `deviceId`
and `clientKind` as they are then. A socket's connection object is the socket.

The heartbeat only decides when a socket closes, and any order of closes is a
run here, so it is left out.
-/

namespace ZortilWatch.Signaling

open ZortilWatch.Server

abbrev SocketId := Nat

/-- The columns of a device row the handler reads. -/
structure DeviceRow where
  accountId : String
  clientSecretHash : Option String := none
  macAddress : Option String := none
  lastWanIp : Option String := none
  blockedIds : List DeviceId := []
  allowedIds : List DeviceId := []
  deriving DecidableEq

/-- What `findDeviceByPublicId` comes back with. -/
inductive Lookup where
  | failed
  | found (device : Option DeviceRow)
  deriving DecidableEq

/-- The variables of one socket's handlers. -/
structure Socket (J : Type) where
  wanIp : Option String
  deviceId : Option DeviceId := none
  clientKind : Option DeviceKind := none
  /-- The close event has been processed. -/
  closed : Bool := false
  /-- Messages whose handler is suspended at its lookup. -/
  waiting : List (ClientMessage J) := []
  deriving DecidableEq

/-- The device and role the socket is registered as. A registered id is never
empty, so the handler's test of both variables is a test for null. -/
def Socket.identity {J : Type} (sock : Socket J) : Option Side :=
  match sock.deviceId, sock.clientKind with
  | some d, some k => some (d, k)
  | _, _ => none

/-- What the endpoint does to its surroundings. -/
inductive Output (J : Type) where
  | send (s : SocketId) (msg : ServerMessage J)
  | close (s : SocketId) (reason : String)
  | audit (event : String) (hostId controllerId : DeviceId)
  | updateDeviceWol (deviceId : DeviceId) (mac wanIp : Option String)
  deriving DecidableEq

namespace Output

variable {J : Type}

/-- `conn.close`: the reason is cut to 120 characters. -/
def closing (s : SocketId) (reason : String) : Output J := .close s (String.ofList (reason.toList.take 120))

/-- A call the registry makes, through the connection and the audit hooks. -/
def ofEffect : Effect SocketId J → Output J
  | .send s msg => .send s msg
  | .close s reason => closing s reason
  | .sessionStart a => .audit "session_start" a.hostId a.controllerId
  | .sessionEnd a => .audit "session_end" a.hostId a.controllerId

end Output

/-! ## Parsing and credentials -/

/-- `^[1-9]\d{8}$`. -/
def validDeviceId (d : DeviceId) : Bool :=
  match d.toList with
  | [] => false
  | c :: cs => ('1' ≤ c && c ≤ '9') && cs.length == 8 && cs.all fun c => '0' ≤ c && c ≤ '9'

/-- The refinements of the schema `ClientMessage`. -/
def ClientMessage.wellFormed {J : Type} : ClientMessage J → Bool
  | .register d secret _ mac _ _ => validDeviceId d && secret != "" && (mac.all fun m => Text.utf16Length m.toList ≤ 32)
  | .listPresence ids _ => ids.length ≤ 500
  | _ => true

def ClientMessage.isRegister {J : Type} : ClientMessage J → Bool
  | .register .. => true
  | _ => false

/-- `Buffer.from(s, "hex")`: the bytes up to the first pair that is not hex. -/
def bufferFromHex : List Char → List Nat
  | a :: b :: rest =>
    match hexDigit a, hexDigit b with
    | some x, some y => (16 * x + y) :: bufferFromHex rest
    | _, _ => []
  | _ => []
where
  hexDigit (c : Char) : Option Nat :=
    if '0' ≤ c ∧ c ≤ '9' then some (c.toNat - '0'.toNat)
    else if 'a' ≤ c ∧ c ≤ 'f' then some (c.toNat - 'a'.toNat + 10)
    else if 'A' ≤ c ∧ c ≤ 'F' then some (c.toNat - 'A'.toNat + 10)
    else none

/-- Settings of the endpoint: whether the limiter is on, the ICE servers of a
device, and SHA-256 of a string in hex. -/
structure Env (J : Type) where
  limiterEnabled : Bool
  iceServersFor : DeviceId → J
  hashClientSecret : String → String

def Env.verifyClientSecret {J : Type} (env : Env J) (storedHash secret : String) : Bool :=
  bufferFromHex storedHash.toList == bufferFromHex (env.hashClientSecret secret).toList

/-- The row whose secret the message proves knowledge of. -/
def Env.authenticate {J : Type} (env : Env J) (device : Option DeviceRow) (clientSecret : String) :
    Option DeviceRow :=
  device.filter fun row =>
    match row.clientSecretHash with
    | none => false
    | some hash => hash != "" && env.verifyClientSecret hash clientSecret

/-- The white and black list of the target. No row means no list; a failed
lookup refuses. -/
def aclOk (requester : DeviceId) : Lookup → Bool
  | .failed => false
  | .found none => true
  | .found (some target) => !target.blockedIds.contains requester &&
      (target.allowedIds.isEmpty || target.allowedIds.contains requester)

/-! ## The endpoint -/

/-- The state behind `/signal`. -/
structure Endpoint (J : Type) where
  registry : Registry SocketId J
  limiter : RateLimiter
  sockets : SocketId → Option (Socket J) := fun _ => none
  /-- Ids `makeSessionId` has returned. -/
  issued : List SessionId := []

inductive Event (J : Type) where
  /-- A socket connects from `wanIp`. -/
  | connection (s : SocketId) (wanIp : Option String)
  /-- A frame arrives, as the types of the schema read it; the handler checks the refinements. -/
  | message (s : SocketId) (raw : Option (ClientMessage J)) (now : Nat)
  /-- The lookup of the `i`-th waiting handler answers. `sessionId` is what
  `makeSessionId` returns if it is called. -/
  | resume (s : SocketId) (i : Nat) (device : Lookup) (sessionId : SessionId) (now : Nat)
  /-- The close event of the socket. -/
  | close (s : SocketId)

namespace Endpoint

variable {J : Type}

def identity (ep : Endpoint J) (s : SocketId) : Option Side := (ep.sockets s).bind Socket.identity

/-- The state `registerSignaling` starts from. -/
def initial (env : Env J) : Endpoint J where
  registry := { opts := { iceServersFor := env.iceServersFor } }
  limiter := { limit := 20, windowMs := 60000, enabled := env.limiterEnabled }

def modifySocket (ep : Endpoint J) (s : SocketId) (f : Socket J → Socket J) : Endpoint J :=
  { ep with sockets := Function.update ep.sockets s ((ep.sockets s).map f) }

/-- Suspend the handler of `msg` at its lookup. -/
def park (ep : Endpoint J) (s : SocketId) (msg : ClientMessage J) : Endpoint J :=
  ep.modifySocket s fun sock => { sock with waiting := sock.waiting ++ [msg] }

/-- `if (deviceId && clientKind) registry.offline(deviceId, clientKind, conn)`. -/
def releaseSlot (ep : Endpoint J) (s : SocketId) : Registry SocketId J × List (Effect SocketId J) :=
  match ep.identity s with
  | none => (ep.registry, [])
  | some (d, k) => ep.registry.offline d k (some s)

/-- The switch over the messages of a registered socket, up to its end or its
lookup. -/
def onRequest (ep : Endpoint J) (s : SocketId) (d : DeviceId) (k : DeviceKind) (msg : ClientMessage J) (now : Nat) :
    Endpoint J × List (Output J) :=
  let answered := fun (res : Bool × Registry SocketId J × List (Effect SocketId J)) =>
    ({ ep with registry := res.2.1 }, res.2.2.map .ofEffect)
  match msg with
  | .register .. => (ep, [])
  | .listPresence ids rid => (ep, [.send s (.presenceState (ep.registry.presence ids) rid)])
  | .connectRequest _ _ rid =>
    let rl := ep.limiter.check d now
    let ep := { ep with limiter := rl.2 }
    if rl.1.allowed then (ep.park s msg, [])
    else (ep, [.send s (.connectErr .rateLimited rid (some rl.1.retryAfterSec))])
  | .connectAccept sid => answered (ep.registry.acceptConnect sid d k)
  | .connectReject sid reason => answered (ep.registry.rejectConnect sid d k reason)
  | .signal sid kind payload => answered (ep.registry.relaySignal sid d k kind payload)
  | .wake .. => (ep.park s msg, [])
  | .sessionClose sid reason => answered (ep.registry.closeSession sid reason d k)

/-- The message handler up to its end or its lookup. -/
def onMessage (ep : Endpoint J) (s : SocketId) (raw : Option (ClientMessage J)) (now : Nat) :
    Endpoint J × List (Output J) :=
  match raw.filter ClientMessage.wellFormed with
  | none => (ep, [.send s (.error "bad_message" "invalid message" none)])
  | some msg =>
    if msg.isRegister then (ep.park s msg, [])
    else
      match ep.identity s with
      | none => (ep, [.send s (.error "not_registered" "register first" none)])
      | some (d, k) => ep.onRequest s d k msg now

/-- `register` after its lookup. -/
def resumeRegister (env : Env J) (ep : Endpoint J) (s : SocketId) (deviceId : DeviceId) (clientSecret : String)
    (clientKind : DeviceKind) (mac : Option String) (canWake : Option Bool) (rid : Option String)
    (device : Lookup) (now : Nat) : Endpoint J × List (Output J) :=
  match device with
  | .failed =>
    (ep, [.send s (.registerErr "unavailable" "temporary failure" rid), Output.closing s "unavailable"])
  | .found device =>
    match env.authenticate device clientSecret with
    | none => (ep, [.send s (.registerErr "auth" "bad credentials" rid), Output.closing s "auth"])
    | some row =>
      let wanIp := (ep.sockets s).bind (·.wanIp)
      let released := ep.releaseSlot s
      let ep := ep.modifySocket s fun sock =>
        { sock with deviceId := some deviceId, clientKind := some clientKind }
      let taken := released.1.online deviceId clientKind s
        { wanIp := wanIp, canWake := canWake, accountId := some row.accountId } now
      ({ ep with registry := taken.1 }, (released.2 ++ taken.2).map .ofEffect ++
        [.updateDeviceWol deviceId mac wanIp, .send s (.registerOk deviceId now rid)])

/-- `connect_request` after its lookup. -/
def resumeConnectRequest (ep : Endpoint J) (s : SocketId) (targetId : DeviceId) (passwordKind : Option PasswordKind)
    (rid : Option String) (device : Lookup) (sessionId : SessionId) : Endpoint J × List (Output J) :=
  match ep.identity s with
  | none => (ep, [])
  | some (d, k) =>
    if aclOk d device = false then
      (ep, [.send s (.connectErr .forbidden rid none), .audit "connect_denied_acl" targetId d])
    else
      let res := ep.registry.requestConnect sessionId d k targetId passwordKind
      let refusal : List (Output J) := match res.1.ok, res.1.code with
        | false, some code => [.send s (.connectErr code rid none)]
        | _, _ => []
      ({ ep with
          registry := res.2.1
          issued := if res.1.ok then sessionId :: ep.issued else ep.issued },
        res.2.2.map .ofEffect ++ refusal)

/-- `wake` after its lookup. -/
def resumeWake (ep : Endpoint J) (s : SocketId) (targetId : DeviceId) (rid : Option String) (device : Lookup) :
    Endpoint J × List (Output J) :=
  let target := match device with
    | .failed => none
    | .found row => row
  let res := ep.registry.dispatchWake targetId (target.bind (·.macAddress)) (target.bind (·.lastWanIp))
    (target.map (·.accountId))
  let told : List (Output J) := match res.1.1, ep.identity s with
    | .dispatched, some (d, _) => [.audit "wake_dispatched" targetId d]
    | _, _ => []
  (ep, res.2.map .ofEffect ++ [.send s (.wakeResult res.1.1 res.1.2 rid)] ++ told)

/-- The message whose handler is `i`-th among the waiting ones of a socket. -/
def waitingAt (ep : Endpoint J) (s : SocketId) (i : Nat) : Option (ClientMessage J) :=
  (ep.sockets s).bind (·.waiting[i]?)

def onResume (env : Env J) (ep : Endpoint J) (s : SocketId) (i : Nat) (device : Lookup) (sessionId : SessionId)
    (now : Nat) : Endpoint J × List (Output J) :=
  let resumed := ep.modifySocket s fun sock => { sock with waiting := sock.waiting.eraseIdx i }
  match ep.waitingAt s i with
  | some (.register d secret kind mac canWake rid) =>
    resumeRegister env resumed s d secret kind mac canWake rid device now
  | some (.connectRequest target pk rid) => resumed.resumeConnectRequest s target pk rid device sessionId
  | some (.wake target rid) => resumed.resumeWake s target rid device
  | _ => (resumed, [])

/-- The close handler. -/
def onClose (ep : Endpoint J) (s : SocketId) : Endpoint J × List (Output J) :=
  let released := ep.releaseSlot s
  let ep := ep.modifySocket s fun sock => { sock with closed := true }
  ({ ep with registry := released.1 }, released.2.map .ofEffect)

def handle (env : Env J) (ep : Endpoint J) : Event J → Endpoint J × List (Output J)
  | .connection s wanIp => ({ ep with sockets := Function.update ep.sockets s (some { wanIp := wanIp }) }, [])
  | .message s raw now => ep.onMessage s raw now
  | .resume s i device sessionId now => onResume env ep s i device sessionId now
  | .close s => ep.onClose s

/-- The socket is connected and its close event is still to come. -/
def isOpen (ep : Endpoint J) (s : SocketId) : Prop := ∃ sock, ep.sockets s = some sock ∧ sock.closed = false

/-- Messages and the close event come from open sockets, lookups answer once,
and `makeSessionId` does not repeat itself. -/
def admits (ep : Endpoint J) : Event J → Prop
  | .connection s _ => ep.sockets s = none
  | .message s _ _ => ep.isOpen s
  | .resume s i _ sessionId _ => (ep.waitingAt s i).isSome ∧ sessionId ∉ ep.issued
  | .close s => ep.isOpen s

end Endpoint

/-- The runs of the endpoint. -/
def signaling {J : Type} (env : Env J) : System (Endpoint J) (Event J) where
  init ep := ep = .initial env
  enabled := Endpoint.admits
  step ep e := (Endpoint.handle env ep e).1

end ZortilWatch.Signaling
