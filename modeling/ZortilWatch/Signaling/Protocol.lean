import Mathlib.Data.List.Basic

/-!
# The signalling protocol (`server/src/signaling/protocol.ts`)

Messages between a client and the rendezvous server, after validation. `J` is
the type of the values the server never looks into: the `payload` of a signal
and the `iceServers` it hands out.
-/

namespace ZortilWatch.Signaling

abbrev DeviceId := String

abbrev SessionId := String

/-- The two roles one device may hold at the same time. -/
inductive DeviceKind where
  | host
  | controller
  deriving DecidableEq, Repr

inductive PasswordKind where
  | oneTime
  | permanent
  deriving DecidableEq, Repr

inductive SignalKind where
  | offer
  | answer
  | ice
  | «end»
  deriving DecidableEq, Repr

inductive ConnectErrCode where
  | offline
  | busy
  | notFound
  | forbidden
  | rateLimited
  deriving DecidableEq, Repr

/-- Outcome of a wake request. -/
inductive WakeOutcome where
  | dispatched
  | noHelper
  | unsupported
  deriving DecidableEq, Repr

/-- The WebRTC role a party takes in a session. -/
inductive Role where
  | offerer
  | answerer
  deriving DecidableEq, Repr

structure PresenceEntry where
  id : DeviceId
  online : Bool
  lastSeen : Option Nat := none
  busy : Option Bool := none
  deriving DecidableEq, Repr

/-- Client to server. Fields no handler reads (`version`, and `rid` where it is
not echoed) are left out. -/
inductive ClientMessage (J : Type) where
  | register (deviceId : DeviceId) (clientSecret : String) (clientKind : DeviceKind)
      (mac : Option String) (canWake : Option Bool) (rid : Option String)
  | wake (targetId : DeviceId) (rid : Option String)
  | listPresence (ids : List DeviceId) (rid : Option String)
  | connectRequest (targetId : DeviceId) (passwordKind : Option PasswordKind) (rid : Option String)
  | connectAccept (sessionId : SessionId)
  | connectReject (sessionId : SessionId) (reason : Option String)
  | signal (sessionId : SessionId) (kind : SignalKind) (payload : J)
  | sessionClose (sessionId : SessionId) (reason : Option String)
  deriving DecidableEq

/-- Server to client. -/
inductive ServerMessage (J : Type) where
  | registerOk (deviceId : DeviceId) (serverTime : Nat) (rid : Option String)
  | registerErr (code reason : String) (rid : Option String)
  | presenceState (entries : List PresenceEntry) (rid : Option String)
  | connectErr (code : ConnectErrCode) (rid : Option String) (retryAfter : Option Nat)
  | incomingRequest (sessionId : SessionId) (fromKind : DeviceKind)
      (passwordKind : Option PasswordKind) (iceServers : J)
  | connectReady (sessionId : SessionId) (role : Role) (peerKind : DeviceKind) (iceServers : J)
  | signal (sessionId : SessionId) (kind : SignalKind) (payload : J)
  | sessionClose (sessionId : SessionId) (reason : String)
  | wakeDispatch (mac : String)
  | wakeResult (status : WakeOutcome) (helpers : Nat) (rid : Option String)
  | error (code reason : String) (rid : Option String)
  deriving DecidableEq

/-- The session a server message speaks of, if any. -/
def ServerMessage.sessionId? {J : Type} : ServerMessage J → Option SessionId
  | .incomingRequest sid _ _ _ => some sid
  | .connectReady sid _ _ _ => some sid
  | .signal sid _ _ => some sid
  | .sessionClose sid _ => some sid
  | _ => none

end ZortilWatch.Signaling
