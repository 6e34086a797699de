import ZortilWatch.Lib.JsMap
import ZortilWatch.Signaling.Protocol

/-!
# The rendezvous registry (`server/src/signaling/registry.ts`)

`Registry` keeps who is online and which sessions are open. Every method is a
function from the registry to its result, the registry after it and the calls
it makes on connections and audit hooks, in order (`Effect`). Connections are
compared by identity only, so they are a type `C` with decidable equality.

A slot's `sessions` is one `Set` object shared with the slot that replaces it;
nothing else refers to it, so here each slot holds its set by value and writes
to it go through `modifySlot`. `makeSessionId` becomes an argument.
-/

namespace ZortilWatch.Signaling

/-- A device in one of its roles. -/
abbrev Side := DeviceId × DeviceKind

structure SlotEntry (C : Type) where
  deviceId : DeviceId
  kind : DeviceKind
  conn : C
  lastSeen : Nat
  sessions : JsSet SessionId
  wanIp : Option String
  canWake : Bool
  accountId : Option String
  deriving DecidableEq

/-- `entry.sessions.add(sessionId)`. -/
def SlotEntry.addSession {C : Type} (sessionId : SessionId) (e : SlotEntry C) : SlotEntry C :=
  { e with sessions := e.sessions.add sessionId }

/-- `entry.sessions.delete(sessionId)`. -/
def SlotEntry.deleteSession {C : Type} (sessionId : SessionId) (e : SlotEntry C) : SlotEntry C :=
  { e with sessions := e.sessions.delete sessionId }

/-- The slots of one device: two independent roles. -/
structure Slots (C : Type) where
  host : Option (SlotEntry C) := none
  controller : Option (SlotEntry C) := none
  deriving DecidableEq

inductive SessionStatus where
  | pending
  | ready
  deriving DecidableEq, Repr

structure Session where
  id : SessionId
  controllerId : DeviceId
  /-- The slot the request came from. -/
  controllerKind : DeviceKind
  hostId : DeviceId
  status : SessionStatus
  deriving DecidableEq

/-- What the audit hooks are told about a session. -/
structure SessionAudit where
  sessionId : SessionId
  controllerId : DeviceId
  hostId : DeviceId
  deriving DecidableEq

/-- Calls the registry makes on its surroundings. -/
inductive Effect (C J : Type) where
  | send (conn : C) (msg : ServerMessage J)
  | close (conn : C) (reason : String)
  | sessionStart (s : SessionAudit)
  | sessionEnd (s : SessionAudit)
  deriving DecidableEq

structure RegistryOptions (J : Type) where
  maxInboundPerHost : Nat := 4
  iceServersFor : DeviceId → J

/-- The `meta` argument of `online`. -/
structure SlotMeta where
  wanIp : Option String := none
  canWake : Option Bool := none
  accountId : Option String := none
  deriving DecidableEq

structure Registry (C J : Type) where
  opts : RegistryOptions J
  devices : JsMap DeviceId (Slots C) := ∅
  sessions : JsMap SessionId Session := ∅

/-- The answer to a connection request. -/
structure ConnectResult where
  ok : Bool
  sessionId : Option SessionId := none
  code : Option ConnectErrCode := none
  deriving DecidableEq

namespace Session

def controllerSide (s : Session) : Side := (s.controllerId, s.controllerKind)

def hostSide (s : Session) : Side := (s.hostId, .host)

/-- `side` is one of the two parties of the session. -/
def HasSide (s : Session) (side : Side) : Prop := s.controllerSide = side ∨ s.hostSide = side

instance (s : Session) (side : Side) : Decidable (s.HasSide side) :=
  inferInstanceAs (Decidable (_ ∨ _))

def audit (s : Session) (sessionId : SessionId) : SessionAudit :=
  ⟨sessionId, s.controllerId, s.hostId⟩

end Session

namespace Slots

variable {C : Type}

def get (s : Slots C) : DeviceKind → Option (SlotEntry C)
  | .host => s.host
  | .controller => s.controller

def put (s : Slots C) (k : DeviceKind) (e : Option (SlotEntry C)) : Slots C :=
  match k with
  | .host => { s with host := e }
  | .controller => { s with controller := e }

@[simp] theorem get_empty (k : DeviceKind) : ({} : Slots C).get k = none := by cases k <;> rfl

theorem get_put (s : Slots C) (k k' : DeviceKind) (e : Option (SlotEntry C)) :
    (s.put k e).get k' = if k = k' then e else s.get k' := by
  cases k <;> cases k' <;> rfl

theorem get_eq_none {s : Slots C} (h : (s.host.isNone && s.controller.isNone) = true) (k : DeviceKind) :
    s.get k = none := by
  simp only [Bool.and_eq_true, Option.isNone_iff_eq_none] at h
  cases k
  · exact h.1
  · exact h.2

end Slots

namespace Registry

variable {C J : Type} [DecidableEq C]

def slot (r : Registry C J) (deviceId : DeviceId) (kind : DeviceKind) : Option (SlotEntry C) :=
  (r.devices.get deviceId).bind (·.get kind)

/-- Write one slot of a device. -/
def putSlot (r : Registry C J) (deviceId : DeviceId) (kind : DeviceKind) (e : SlotEntry C) : Registry C J :=
  { r with devices := r.devices.set deviceId (((r.devices.get deviceId).getD {}).put kind (some e)) }

/-- Clear one slot; a device without slots leaves the map. -/
def dropSlot (r : Registry C J) (deviceId : DeviceId) (kind : DeviceKind) : Registry C J :=
  match r.devices.get deviceId with
  | none => r
  | some slots =>
    let slots := slots.put kind none
    if slots.host.isNone && slots.controller.isNone then { r with devices := r.devices.delete deviceId }
    else { r with devices := r.devices.set deviceId slots }

/-- Mutate a slot that may be absent (`this.slot(..)?.sessions.add(..)`). -/
def modifySlot (r : Registry C J) (side : Side) (f : SlotEntry C → SlotEntry C) : Registry C J :=
  match r.slot side.1 side.2 with
  | none => r
  | some e => r.putSlot side.1 side.2 (f e)

/-- Send to a slot that may be absent (`this.slot(..)?.conn.send(..)`). -/
def sendTo (r : Registry C J) (side : Side) (msg : ServerMessage J) : List (Effect C J) :=
  match r.slot side.1 side.2 with
  | none => []
  | some e => [.send e.conn msg]

/-- Mark a role online. Another connection under the same id and role is closed. -/
def online (r : Registry C J) (deviceId : DeviceId) (kind : DeviceKind) (conn : C) (info : SlotMeta)
    (now : Nat) : Registry C J × List (Effect C J) :=
  let existing := r.slot deviceId kind
  let closed := match existing with
    | some e => if e.conn ≠ conn then [.close e.conn "replaced"] else []
    | none => []
  let entry : SlotEntry C :=
    { deviceId := deviceId
      kind := kind
      conn := conn
      lastSeen := now
      sessions := (existing.map (·.sessions)).getD ∅
      wanIp := info.wanIp
      canWake := info.canWake.getD false
      accountId := info.accountId }
  (r.putSlot deviceId kind entry, closed)

/-- May the slot wake a target in network `wanIp` of `accountId`. -/
def isHelperFor (e : Option (SlotEntry C)) (wanIp : String) (accountId : Option String) : Bool :=
  match e with
  | none => false
  | some e => e.canWake && (e.wanIp == some wanIp) &&
      ((accountId.getD "" != "") && (e.accountId == accountId))

/-- How many helper devices of the account are online in network `wanIp`. -/
def helpersOnNetwork (r : Registry C J) (wanIp : Option String) (exceptId : DeviceId)
    (accountId : Option String) : Nat :=
  match wanIp with
  | none => 0
  | some "" => 0
  | some ip => (r.devices.entries.filter fun d => d.1 ≠ exceptId &&
      [DeviceKind.host, .controller].any fun k => isHelperFor (d.2.get k) ip accountId).length

/-- The connection of a device through which it would wake a target. -/
def helperConn (slots : Slots C) (wanIp : String) (accountId : Option String) : Option C :=
  (([DeviceKind.host, .controller].map slots.get).find? fun e =>
    isHelperFor e wanIp accountId).join.map (·.conn)

/-- Hand the magic packet to every helper device of the target's account and network. -/
def dispatchWake (r : Registry C J) (targetId : DeviceId) (mac targetWanIp accountId : Option String) :
    (WakeOutcome × Nat) × List (Effect C J) :=
  match mac with
  | none => ((.unsupported, 0), [])
  | some "" => ((.unsupported, 0), [])
  | some mac =>
    let ip := targetWanIp.getD ""
    let sent := r.devices.entries.filterMap fun d =>
      if d.1 = targetId ∨ ip = "" then none else helperConn d.2 ip accountId
    let out := sent.map fun conn => Effect.send conn (.wakeDispatch mac)
    if sent.length = 0 then ((.noHelper, 0), out) else ((.dispatched, sent.length), out)

def isOnline (r : Registry C J) (deviceId : DeviceId) : Bool := (r.slot deviceId .host).isSome

def touch (r : Registry C J) (deviceId : DeviceId) (now : Nat) : Registry C J :=
  (r.modifySlot (deviceId, .host) fun e => { e with lastSeen := now }).modifySlot
    (deviceId, .controller) fun e => { e with lastSeen := now }

/-- One side of the loop in `teardown`. -/
def teardownSide (sessionId : SessionId) (reason : String) (initiator : Side)
    (acc : Registry C J × List (Effect C J)) (side : Side) : Registry C J × List (Effect C J) :=
  match acc.1.slot side.1 side.2 with
  | none => acc
  | some entry =>
    (acc.1.putSlot side.1 side.2 (entry.deleteSession sessionId),
      if side = initiator then acc.2
      else acc.2 ++ [.send entry.conn (.sessionClose sessionId reason)])

def teardown (r : Registry C J) (sessionId : SessionId) (reason : String) (initiator : Side) :
    Registry C J × List (Effect C J) :=
  match r.sessions.get sessionId with
  | none => (r, [])
  | some s =>
    [s.controllerSide, s.hostSide].foldl (teardownSide sessionId reason initiator)
      ({ r with sessions := r.sessions.delete sessionId },
        if s.status = .ready then [.sessionEnd (s.audit sessionId)] else [])

/-- `teardown` of each session of a list, in order. -/
def teardownAll (reason : String) (initiator : Side) (r : Registry C J) (sids : List SessionId) :
    Registry C J × List (Effect C J) :=
  sids.foldl (fun acc sid =>
    let step := acc.1.teardown sid reason initiator
    (step.1, acc.2 ++ step.2)) (r, [])

/-- Take a role offline and tear its sessions down. With `conn`, only if that
connection still holds the slot. -/
def offline (r : Registry C J) (deviceId : DeviceId) (kind : DeviceKind) (conn : Option C) :
    Registry C J × List (Effect C J) :=
  match r.slot deviceId kind with
  | none => (r, [])
  | some entry =>
    if conn.any (· ≠ entry.conn) then (r, [])
    else teardownAll "peer_offline" (deviceId, kind) (r.dropSlot deviceId kind) entry.sessions.elems

def presence (r : Registry C J) (ids : List DeviceId) : List PresenceEntry :=
  ids.map fun id =>
    match r.slot id .host with
    | some host => ⟨id, true, some host.lastSeen, some (decide (host.sessions.size > 0))⟩
    | none => ⟨id, false, none, none⟩

/-- A controller asks for a connection to `targetId`; `sessionId` is what
`makeSessionId` returns if it is called. -/
def requestConnect (r : Registry C J) (sessionId : SessionId) (controllerId : DeviceId)
    (controllerKind : DeviceKind) (targetId : DeviceId) (passwordKind : Option PasswordKind) :
    ConnectResult × Registry C J × List (Effect C J) :=
  match r.slot targetId .host with
  | none => ({ ok := false, code := some .offline }, r, [])
  | some host =>
    if host.sessions.size ≥ r.opts.maxInboundPerHost then
      ({ ok := false, code := some .busy }, r, [])
    else
      let session : Session :=
        { id := sessionId
          controllerId := controllerId
          controllerKind := controllerKind
          hostId := targetId
          status := .pending }
      let r := { r with sessions := r.sessions.set sessionId session }
      let r := r.modifySlot (targetId, .host) (·.addSession sessionId)
      let r := r.modifySlot (controllerId, controllerKind) (·.addSession sessionId)
      ({ ok := true, sessionId := some sessionId }, r,
        [.send host.conn (.incomingRequest sessionId .controller passwordKind (r.opts.iceServersFor targetId))])

/-- The host confirms; both parties get `connect_ready`. -/
def acceptConnect (r : Registry C J) (sessionId : SessionId) (byDeviceId : DeviceId)
    (byKind : DeviceKind) : Bool × Registry C J × List (Effect C J) :=
  match r.sessions.get sessionId with
  | none => (false, r, [])
  | some s =>
    if s.hostId ≠ byDeviceId ∨ byKind ≠ .host ∨ s.status ≠ .pending then (false, r, [])
    else
      (true, { r with sessions := r.sessions.set sessionId { s with status := .ready } },
        .sessionStart (s.audit sessionId) ::
          (r.sendTo s.hostSide (.connectReady sessionId .offerer .controller (r.opts.iceServersFor s.hostId)) ++
            r.sendTo s.controllerSide
              (.connectReady sessionId .answerer .host (r.opts.iceServersFor s.controllerId))))

/-- The host refuses an incoming connection. -/
def rejectConnect (r : Registry C J) (sessionId : SessionId) (byDeviceId : DeviceId)
    (byKind : DeviceKind) (reason : Option String) : Bool × Registry C J × List (Effect C J) :=
  match r.sessions.get sessionId with
  | none => (false, r, [])
  | some s =>
    if s.hostId ≠ byDeviceId ∨ byKind ≠ .host then (false, r, [])
    else
      let told := r.sendTo s.controllerSide (.connectErr .forbidden none none)
      let closed := r.teardown sessionId (reason.getD "rejected") (byDeviceId, byKind)
      (true, closed.1, told ++ closed.2)

/-- The slot of the peer of the sender; sides are told apart by (id, role). -/
def peerSlotOf (r : Registry C J) (s : Session) (deviceId : DeviceId) (kind : DeviceKind) :
    Option (SlotEntry C) :=
  if s.controllerId = deviceId ∧ s.controllerKind = kind then r.slot s.hostId .host
  else if s.hostId = deviceId ∧ kind = .host then r.slot s.controllerId s.controllerKind
  else none

/-- Pass a signal on to the other member of the session, unread. -/
def relaySignal (r : Registry C J) (sessionId : SessionId) (fromDeviceId : DeviceId)
    (fromKind : DeviceKind) (kind : SignalKind) (payload : J) : Bool × Registry C J × List (Effect C J) :=
  match r.sessions.get sessionId with
  | none => (false, r, [])
  | some s =>
    match r.peerSlotOf s fromDeviceId fromKind with
    | none => (false, r, [])
    | some peer => (true, r, [.send peer.conn (.signal sessionId kind payload)])

def closeSession (r : Registry C J) (sessionId : SessionId) (reason : Option String)
    (byDeviceId : DeviceId) (byKind : DeviceKind) : Bool × Registry C J × List (Effect C J) :=
  match r.sessions.get sessionId with
  | none => (false, r, [])
  | some s =>
    match r.peerSlotOf s byDeviceId byKind with
    | none => (false, r, [])
    | some _ =>
      let closed := r.teardown sessionId (reason.getD "closed") (byDeviceId, byKind)
      (true, closed.1, closed.2)

end Registry

end ZortilWatch.Signaling
