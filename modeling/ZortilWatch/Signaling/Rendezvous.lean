import Mathlib.Logic.Function.Basic
import ZortilWatch.Signaling.RegistryRuns

/-!
# What the rendezvous server is for

`Rendezvous` states the purpose of the registry in its own terms: which roles can
be reached, the devices they belong to, in the order in which they came, and the
list of open sessions, oldest first. There are no slots and no index: what a role
takes part in is looked up in the list of sessions each time it is needed.
-/

namespace ZortilWatch.Signaling

/-- How a registered role is reached, when it was last seen, and what it said of its
network when it came. -/
structure Presence (C : Type) where
  conn : C
  lastSeen : Nat
  wanIp : Option String
  canWake : Bool
  accountId : Option String

/-- The role can wake what `account` has in the network `ip`. -/
def Presence.Helps {C : Type} (ip account : String) (p : Presence C) : Prop :=
  p.canWake = true ∧ p.wanIp = some ip ∧ p.accountId = some account

instance {C : Type} (ip account : String) (p : Presence C) : Decidable (p.Helps ip account) :=
  inferInstanceAs (Decidable (_ ∧ _))

/-- The server as its clients know it. -/
structure Rendezvous (C J : Type) where
  opts : RegistryOptions J
  reached : Side → Option (Presence C) := fun _ => none
  /-- Devices with a role that can be reached, in the order in which they came. -/
  devices : List DeviceId := []
  /-- Open sessions, oldest first. -/
  sessions : List Session := []

/-- The sessions of a list that a role takes part in. -/
def sessionsOf (side : Side) (sessions : List Session) : List Session := sessions.filter (·.HasSide side)

namespace Rendezvous

variable {C J : Type} (v : Rendezvous C J)

def find (sid : SessionId) : Option Session := v.sessions.find? (·.id = sid)

/-- A message to a role, if it can be reached. -/
def tell (side : Side) (msg : ServerMessage J) : List (Effect C J) :=
  match v.reached side with
  | none => []
  | some p => [.send p.conn msg]

/-- What is said when `s` ends for `causer`. -/
def closing (reason : String) (causer : Side) (s : Session) : List (Effect C J) :=
  (if s.status = .ready then [.sessionEnd (s.audit s.id)] else []) ++
    (if s.controllerSide = causer then [] else v.tell s.controllerSide (.sessionClose s.id reason)) ++
    (if s.hostSide = causer then [] else v.tell s.hostSide (.sessionClose s.id reason))

/-- The sessions without those of the given ids. -/
def without (sids : List SessionId) : Rendezvous C J :=
  { v with sessions := v.sessions.filter (·.id ∉ sids) }

/-- The other party of the session, seen from `side`. -/
def peer (s : Session) (side : Side) : Option (Presence C) :=
  if s.controllerSide = side then v.reached s.hostSide
  else if s.hostSide = side then v.reached s.controllerSide
  else none

/-- Whom a device wakes targets of `account` in the network `ip` through: its host
role if that one helps, else its controller role. -/
def helperOf (ip account : String) (d : DeviceId) : Option C :=
  [DeviceKind.host, .controller].findSome? fun k =>
    ((v.reached (d, k)).filter fun p => p.Helps ip account).map (·.conn)

/-- One connection of every device that helps to wake what the account has in the
network, `exceptId` apart. Without a network or an account nobody helps. -/
def helpers (wanIp : Option String) (exceptId : DeviceId) (accountId : Option String) : List C :=
  match wanIp.filter (· ≠ ""), accountId.filter (· ≠ "") with
  | some ip, some account => (v.devices.filter (· ≠ exceptId)).filterMap (v.helperOf ip account)
  | _, _ => []

/-- What a call answers. -/
inductive Reply where
  | done (ok : Bool)
  | asked (res : ConnectResult)
  | woken (status : WakeOutcome) (helpers : Nat)
  deriving DecidableEq

/-- A role is gone, and its device with it if the other role is not there. -/
def gone (side : Side) : Rendezvous C J :=
  let reached := Function.update v.reached side none
  { v with
    reached := reached
    devices := v.devices.filter fun d =>
      d ≠ side.1 ∨ (reached (d, .host)).isSome ∨ (reached (d, .controller)).isSome }

variable [DecidableEq C]

def online (side : Side) (conn : C) (info : SlotMeta) (now : Nat) : Rendezvous C J × List (Effect C J) :=
  ({ v with
      reached := Function.update v.reached side
        (some ⟨conn, now, info.wanIp, info.canWake.getD false, info.accountId⟩)
      devices := if side.1 ∈ v.devices then v.devices else v.devices ++ [side.1] },
    match v.reached side with
    | none => []
    | some old => if old.conn ≠ conn then [.close old.conn "replaced"] else [])

/-- A role goes, and its sessions end one after the other. -/
def offline (side : Side) (guard : Option C) : Rendezvous C J × List (Effect C J) :=
  match v.reached side with
  | none => (v, [])
  | some p =>
    if guard.any (· ≠ p.conn) then (v, [])
    else
      let ended := sessionsOf side v.sessions
      ((v.gone side).without (ended.map (·.id)), ended.flatMap ((v.gone side).closing "peer_offline" side))

def seen (side : Side) (now : Nat) : Rendezvous C J :=
  { v with reached := Function.update v.reached side ((v.reached side).map fun p => { p with lastSeen := now }) }

/-- Every helper of the target's account and network is sent a magic packet to pass on. -/
def wake (target : DeviceId) (mac wanIp accountId : Option String) : Reply × List (Effect C J) :=
  match mac.filter (· ≠ "") with
  | none => (.woken .unsupported 0, [])
  | some mac =>
    let helpers := v.helpers wanIp target accountId
    (.woken (if helpers = [] then .noHelper else .dispatched) helpers.length,
      helpers.map fun conn => .send conn (.wakeDispatch mac))

def request (sid : SessionId) (d : DeviceId) (k : DeviceKind) (target : DeviceId) (pk : Option PasswordKind) :
    ConnectResult × Rendezvous C J × List (Effect C J) :=
  match v.reached (target, .host) with
  | none => ({ ok := false, code := some .offline }, v, [])
  | some host =>
    if (sessionsOf (target, .host) v.sessions).length ≥ v.opts.maxInboundPerHost then
      ({ ok := false, code := some .busy }, v, [])
    else
      ({ ok := true, sessionId := some sid }, { v with sessions := v.sessions ++ [Registry.newSession sid d k target] },
        [.send host.conn (.incomingRequest sid .controller pk (v.opts.iceServersFor target))])

/-- The host agrees to a session that waits for it. -/
def accept (sid : SessionId) (caller : Side) : Bool × Rendezvous C J × List (Effect C J) :=
  match v.find sid with
  | none => (false, v, [])
  | some s =>
    if s.hostSide = caller ∧ s.status = .pending then
      (true,
        { v with sessions := v.sessions.map fun t => if t.id = sid then { t with status := .ready } else t },
        .sessionStart (s.audit sid) ::
          (v.tell s.hostSide (.connectReady sid .offerer .controller (v.opts.iceServersFor s.hostId)) ++
            v.tell s.controllerSide (.connectReady sid .answerer .host (v.opts.iceServersFor s.controllerId))))
    else (false, v, [])

def reject (sid : SessionId) (caller : Side) (reason : Option String) : Bool × Rendezvous C J × List (Effect C J) :=
  match v.find sid with
  | none => (false, v, [])
  | some s =>
    if s.hostSide = caller then
      (true, v.without [sid], v.tell s.controllerSide (.connectErr .forbidden none none) ++
        v.closing (reason.getD "rejected") caller s)
    else (false, v, [])

def relay (sid : SessionId) (caller : Side) (kind : SignalKind) (payload : J) : Bool × List (Effect C J) :=
  match (v.find sid).bind (v.peer · caller) with
  | none => (false, [])
  | some p => (true, [.send p.conn (.signal sid kind payload)])

def close (sid : SessionId) (caller : Side) (reason : Option String) : Bool × Rendezvous C J × List (Effect C J) :=
  match v.find sid with
  | none => (false, v, [])
  | some s =>
    if (v.peer s caller).isSome then
      (true, v.without [sid], v.closing (reason.getD "closed") caller s)
    else (false, v, [])

/-- A device is online when its host role is, and busy when that role takes part in
a session. -/
def presence (ids : List DeviceId) : List PresenceEntry :=
  ids.map fun id =>
    match v.reached (id, .host) with
    | some host => ⟨id, true, some host.lastSeen, some (decide (sessionsOf (id, .host) v.sessions ≠ []))⟩
    | none => ⟨id, false, none, none⟩

/-- Perform a call. -/
def perform : Op C J → Reply × Rendezvous C J × List (Effect C J)
  | .online d k conn info now => (.done true, v.online (d, k) conn info now)
  | .offline d k guard => (.done true, v.offline (d, k) guard)
  | .touch d now => (.done true, (v.seen (d, .host) now).seen (d, .controller) now, [])
  | .dispatchWake _ target mac wanIp accountId =>
    let res := v.wake target mac wanIp accountId
    (res.1, v, res.2)
  | .requestConnect sid d k target pk => let res := v.request sid d k target pk; (.asked res.1, res.2)
  | .acceptConnect sid d k => let res := v.accept sid (d, k); (.done res.1, res.2)
  | .rejectConnect sid d k reason => let res := v.reject sid (d, k) reason; (.done res.1, res.2)
  | .relaySignal sid d k kind payload => let res := v.relay sid (d, k) kind payload; (.done res.1, v, res.2)
  | .closeSession sid d k reason => let res := v.close sid (d, k) reason; (.done res.1, res.2)

end Rendezvous

end ZortilWatch.Signaling
