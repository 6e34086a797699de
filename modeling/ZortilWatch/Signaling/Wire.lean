import Mathlib.Algebra.Group.Int.Defs
import Mathlib.Algebra.Group.Nat.Defs
import ZortilWatch.Lib.Json
import ZortilWatch.Signaling.Handler

/-!
# Signalling messages on the wire (`protocol.ts`, `core/src/signal.rs`)

The server parses a frame with the schema `ClientMessage` and sends
`JSON.stringify` of a `ServerMessage`; the clients read that with serde as a
`ServerMsg`. The two sides have rules of their own for a field that is absent or
null, and `payload` is whatever the other client sent.

Text is the JSON value it spells. A value the server does not look into is an
`Option (Json N)`, where `none` is `undefined`. A `String` stands for a
JavaScript string, which may hold an unpaired surrogate; `Platform.accepts`
tells which do not.
-/

namespace ZortilWatch.Signaling

/-- Node's `JSON` and serde_json on numbers and strings. `N` is the type of
JavaScript numbers. -/
structure Platform (N : Type) extends Codec N where
  ofNat : Nat → N
  /-- The integer a number is written as, if it is written without a fraction or
  an exponent. -/
  toInt? : N → Option Int
  /-- Integers up to 2^53 are written in full and read back. -/
  safe : ∀ n, n ≤ 2 ^ 53 → write (ofNat n) = some (ofNat n) ∧ read (ofNat n) = some (ofNat n) ∧
    toInt? (ofNat n) = some n
  /-- ASCII has no surrogates. -/
  ascii : ∀ s : String, s.toList.all (fun ch => ch.toNat < 128) → accepts s

/-- serde_json gives up at the 128th array or object inside another. -/
def maxNesting : Nat := 127

/-! ## Names -/

def DeviceKind.name : DeviceKind → String
  | .host => "host"
  | .controller => "controller"

def PasswordKind.name : PasswordKind → String
  | .oneTime => "one_time"
  | .permanent => "permanent"

def SignalKind.name : SignalKind → String
  | .offer => "offer"
  | .answer => "answer"
  | .ice => "ice"
  | .end => "end"

def ConnectErrCode.name : ConnectErrCode → String
  | .offline => "offline"
  | .busy => "busy"
  | .notFound => "not_found"
  | .forbidden => "forbidden"
  | .rateLimited => "rate_limited"

def WakeOutcome.name : WakeOutcome → String
  | .dispatched => "dispatched"
  | .noHelper => "no_helper"
  | .unsupported => "unsupported"

def Role.name : Role → String
  | .offerer => "offerer"
  | .answerer => "answerer"

/-! ## The schemas of a client's message -/

section Schemas

variable {N : Type}

/-- A value as zod gets it: an absent member is `undefined`. -/
abbrev Field (N : Type) := Option (Json N)

def zString : Field N → Option String
  | some (.str s) => some s
  | _ => none

def zBoolean : Field N → Option Bool
  | some (.bool b) => some b
  | _ => none

def zEnum {α : Type} (values : List (String × α)) (v : Field N) : Option α :=
  (zString v).bind fun s => values.lookup s

def zStringArray : Field N → Option (List String)
  | some (.arr items) => items.mapM fun x => zString (some x)
  | _ => none

/-- `z.unknown()` accepts anything, an absent member as well. -/
def zUnknown (v : Field N) : Option (Field N) := some v

/-- `.optional()`. -/
def zOptional {α : Type} (z : Field N → Option α) : Field N → Option (Option α)
  | none => some none
  | v => (z v).map some

def deviceKinds : List (String × DeviceKind) := [("host", .host), ("controller", .controller)]

def passwordKinds : List (String × PasswordKind) := [("one_time", .oneTime), ("permanent", .permanent)]

def signalKinds : List (String × SignalKind) := [("offer", .offer), ("answer", .answer), ("ice", .ice), ("end", .end)]

/-- `z.literal(PROTOCOL_VERSION)`. -/
def Platform.isVersion [DecidableEq N] (p : Platform N) : Field N → Bool
  | some (.num n) => n == p.ofNat 1
  | _ => false

/-- What the types of the schema read in a frame, before its refinements. -/
def ClientMessage.shape [DecidableEq N] (p : Platform N) : Json N → Option (ClientMessage (Field N))
  | .obj members =>
    let get := fun key => members.lookup key
    if p.isVersion (get "v") = false then none else do
    let rid ← zOptional zString (get "rid")
    match get "type" with
    | some (.str "register") => do
      let deviceId ← zString (get "deviceId")
      let clientSecret ← zString (get "clientSecret")
      let clientKind ← zEnum deviceKinds (get "clientKind")
      let _version ← zOptional zString (get "version")
      let mac ← zOptional zString (get "mac")
      let canWake ← zOptional zBoolean (get "canWake")
      return .register deviceId clientSecret clientKind mac canWake rid
    | some (.str "list_presence") => do
      let ids ← zStringArray (get "ids")
      return .listPresence ids rid
    | some (.str "connect_request") => do
      let targetId ← zString (get "targetId")
      let passwordKind ← zOptional (zEnum passwordKinds) (get "passwordKind")
      return .connectRequest targetId passwordKind rid
    | some (.str "connect_accept") => do
      let sessionId ← zString (get "sessionId")
      return .connectAccept sessionId
    | some (.str "connect_reject") => do
      let sessionId ← zString (get "sessionId")
      let reason ← zOptional zString (get "reason")
      return .connectReject sessionId reason
    | some (.str "signal") => do
      let sessionId ← zString (get "sessionId")
      let kind ← zEnum signalKinds (get "kind")
      let payload ← zUnknown (get "payload")
      return .signal sessionId kind payload
    | some (.str "session_close") => do
      let sessionId ← zString (get "sessionId")
      let reason ← zOptional zString (get "reason")
      return .sessionClose sessionId reason
    | some (.str "wake") => do
      let targetId ← zString (get "targetId")
      return .wake targetId rid
    | _ => none
  | _ => none

/-- `ClientMessage.parse` -/
def ClientMessage.parse [DecidableEq N] (p : Platform N) (frame : Json N) : Option (ClientMessage (Field N)) :=
  (ClientMessage.shape p frame).filter ClientMessage.wellFormed

/-- A list of strings is read item by item. -/
theorem zStringArray_strings (ids : List String) : zStringArray (N := N) (some (.arr (ids.map .str))) = some ids := by
  show (ids.map Json.str).mapM (fun x : Json N => zString (some x)) = some ids
  rw [List.mapM_map]
  exact List.mapM_pure.trans (congrArg some (List.map_id ids))

end Schemas

/-! ## The server's messages -/

section Stringify

variable {N : Type} (p : Platform N)

/-- A presence entry as a JavaScript object. -/
def PresenceEntry.members (e : PresenceEntry) : List (String × Field N) :=
  [("id", some (.str e.id)), ("online", some (.bool e.online)), ("lastSeen", e.lastSeen.map fun t => .num (p.ofNat t)),
    ("busy", e.busy.map .bool)]

/-- An object without its undefined members, which is what `JSON.stringify` writes. -/
def object (members : List (String × Field N)) : Json N :=
  .obj (members.filterMap fun m => m.2.map fun v => (m.1, v))

/-- `v: 1`. -/
def version : Field N := some (.num (p.ofNat 1))

def strField (s : String) : Field N := some (.str s)

/-- The object literal of a message. -/
@[simp] def ServerMessage.members : ServerMessage (Field N) → List (String × Field N)
  | .registerOk deviceId serverTime rid =>
    [("v", version p), ("type", strField "register_ok"), ("deviceId", strField deviceId),
      ("serverTime", some (.num (p.ofNat serverTime))), ("rid", rid.map .str)]
  | .registerErr code reason rid =>
    [("v", version p), ("type", strField "register_err"), ("code", strField code), ("reason", strField reason),
      ("rid", rid.map .str)]
  | .presenceState entries rid =>
    [("v", version p), ("type", strField "presence_state"),
      ("entries", some (.arr (entries.map fun e => object (e.members p)))), ("rid", rid.map .str)]
  | .connectErr code rid retryAfter =>
    [("v", version p), ("type", strField "connect_err"), ("code", strField code.name), ("rid", rid.map .str),
      ("retryAfter", retryAfter.map fun s => .num (p.ofNat s))]
  | .incomingRequest sessionId fromKind passwordKind iceServers =>
    [("v", version p), ("type", strField "incoming_request"), ("sessionId", strField sessionId),
      ("fromKind", strField fromKind.name), ("passwordKind", passwordKind.map fun k => .str k.name),
      ("iceServers", iceServers)]
  | .connectReady sessionId role peerKind iceServers =>
    [("v", version p), ("type", strField "connect_ready"), ("sessionId", strField sessionId),
      ("role", strField role.name), ("peerKind", strField peerKind.name), ("iceServers", iceServers)]
  | .signal sessionId kind payload =>
    [("v", version p), ("type", strField "signal"), ("sessionId", strField sessionId), ("kind", strField kind.name),
      ("payload", payload)]
  | .sessionClose sessionId reason =>
    [("v", version p), ("type", strField "session_close"), ("sessionId", strField sessionId),
      ("reason", strField reason)]
  | .wakeDispatch mac => [("v", version p), ("type", strField "wake_dispatch"), ("mac", strField mac)]
  | .wakeResult status helpers rid =>
    [("v", version p), ("type", strField "wake_result"), ("status", strField status.name),
      ("helpers", some (.num (p.ofNat helpers))), ("rid", rid.map .str)]
  | .error code reason rid =>
    [("v", version p), ("type", strField "error"), ("code", strField code), ("reason", strField reason),
      ("rid", rid.map .str)]

/-- `JSON.stringify(msg)`. -/
def ServerMessage.stringify (msg : ServerMessage (Field N)) : Json N := p.written (object (msg.members p))

end Stringify

/-! ## The client's reading -/

/-- `ServerMsg` of `core/src/signal.rs`. -/
inductive ServerMsg (N : Type) where
  | registerOk (deviceId : String) (serverTime : Int) (rid : Option String)
  | registerErr (code reason : String) (rid : Option String)
  | presenceState (entries : Json N) (rid : Option String)
  | presenceUpdate (id : String) (online : Bool) (busy : Option Bool)
  | connectErr (code : String) (rid : Option String) (retryAfter : Option Int)
  | incomingRequest (sessionId fromKind : String) (passwordKind : Option String) (iceServers : Option (Json N))
  | connectReady (sessionId role peerKind : String) (iceServers : Option (Json N))
  | signal (sessionId kind : String) (payload : Json N)
  | sessionClose (sessionId : String) (reason : Option String)
  | wakeDispatch (mac : String)
  | wakeResult (status : String) (helpers : Int)
  | error (code reason : String) (rid : Option String)
  | unknown

/-- Why a text is no `ServerMsg`. -/
inductive DecodeError where
  /-- The text is not JSON serde_json reads. -/
  | invalidJson
  | missingField (name : String)
  | invalidType (name : String)
  deriving DecidableEq

section Decode

variable {N : Type} (p : Platform N)

/-- A field whose type is no `Option`. -/
def requiredField {α : Type} (members : List (String × Json N)) (name : String) (get : Json N → Option α) :
    Except DecodeError α :=
  match members.lookup name with
  | none => .error (.missingField name)
  | some v => ((get v).map Except.ok).getD (.error (.invalidType name))

/-- A field of type `Option`: absent and null are `None`. -/
def optionalField {α : Type} (members : List (String × Json N)) (name : String) (get : Json N → Option α) :
    Except DecodeError (Option α) :=
  match members.lookup name with
  | none => .ok none
  | some .null => .ok none
  | some v => ((get v).map fun a => Except.ok (some a)).getD (.error (.invalidType name))

def asString : Json N → Option String
  | .str s => some s
  | _ => none

def asBool : Json N → Option Bool
  | .bool b => some b
  | _ => none

/-- An integer of a type with the values from `lo` to below `hi`. -/
def asInt (lo hi : Int) : Json N → Option Int
  | .num n => (p.toInt? n).filter fun i => lo ≤ i ∧ i < hi
  | _ => none

def asI64 : Json N → Option Int := asInt p (-2 ^ 63) (2 ^ 63)

def asU64 : Json N → Option Int := asInt p 0 (2 ^ 64)

def asU32 : Json N → Option Int := asInt p 0 (2 ^ 32)

/-- `serde_json::Value` takes any value. -/
def asValue : Json N → Option (Json N) := some

/-- The fields of the variant `tag`. -/
def ServerMsg.ofFields (members : List (String × Json N)) (tag : String) : Except DecodeError (ServerMsg N) :=
  match tag with
  | "register_ok" => do
    let deviceId ← requiredField members "deviceId" asString
    let serverTime ← requiredField members "serverTime" (asI64 p)
    let rid ← optionalField members "rid" asString
    return .registerOk deviceId serverTime rid
  | "register_err" => do
    let code ← requiredField members "code" asString
    let reason ← requiredField members "reason" asString
    let rid ← optionalField members "rid" asString
    return .registerErr code reason rid
  | "presence_state" => do
    let entries ← requiredField members "entries" asValue
    let rid ← optionalField members "rid" asString
    return .presenceState entries rid
  | "presence_update" => do
    let id ← requiredField members "id" asString
    let online ← requiredField members "online" asBool
    let busy ← optionalField members "busy" asBool
    return .presenceUpdate id online busy
  | "connect_err" => do
    let code ← requiredField members "code" asString
    let rid ← optionalField members "rid" asString
    let retryAfter ← optionalField members "retryAfter" (asU64 p)
    return .connectErr code rid retryAfter
  | "incoming_request" => do
    let sessionId ← requiredField members "sessionId" asString
    let fromKind ← requiredField members "fromKind" asString
    let passwordKind ← optionalField members "passwordKind" asString
    let iceServers ← optionalField members "iceServers" asValue
    return .incomingRequest sessionId fromKind passwordKind iceServers
  | "connect_ready" => do
    let sessionId ← requiredField members "sessionId" asString
    let role ← requiredField members "role" asString
    let peerKind ← requiredField members "peerKind" asString
    let iceServers ← optionalField members "iceServers" asValue
    return .connectReady sessionId role peerKind iceServers
  | "signal" => do
    let sessionId ← requiredField members "sessionId" asString
    let kind ← requiredField members "kind" asString
    let payload ← requiredField members "payload" asValue
    return .signal sessionId kind payload
  | "session_close" => do
    let sessionId ← requiredField members "sessionId" asString
    let reason ← optionalField members "reason" asString
    return .sessionClose sessionId reason
  | "wake_dispatch" => do
    let mac ← requiredField members "mac" asString
    return .wakeDispatch mac
  | "wake_result" => do
    let status ← requiredField members "status" asString
    let helpers ← requiredField members "helpers" (asU32 p)
    return .wakeResult status helpers
  | "error" => do
    let code ← requiredField members "code" asString
    let reason ← requiredField members "reason" asString
    let rid ← optionalField members "rid" asString
    return .error code reason rid
  | _ => return .unknown

/-- An object tagged by its member `type`; serde ignores the members it does not know. -/
def ServerMsg.ofContent : Json N → Except DecodeError (ServerMsg N)
  | .obj members => do
    let tag ← requiredField members "type" asString
    ServerMsg.ofFields p members tag
  | _ => .error (.invalidType "type")

/-- `serde_json::from_str::<ServerMsg>`. -/
def ServerMsg.fromStr (text : Json N) : Except DecodeError (ServerMsg N) :=
  match p.reading maxNesting text with
  | none => .error .invalidJson
  | some content => ServerMsg.ofContent p content

/-- What a read of the socket comes back with; a frame too long for tungstenite
is a failure. -/
inductive Incoming (N : Type) where
  | text (frame : Json N)
  | close
  /-- A ping, a pong or a binary frame. -/
  | control
  | failed

/-- `SignalError`, by what it is made of. -/
inductive SignalError where
  | decode (e : DecodeError)
  | connectionClosed
  | socket
  deriving DecidableEq

/-- `SignalClient::try_recv` over what the next reads come back with; then the read times out. -/
def tryRecv : List (Incoming N) → Except SignalError (Option (ServerMsg N)) × List (Incoming N)
  | [] => (.ok none, [])
  | .text frame :: reads => (((ServerMsg.fromStr p frame).map some).mapError .decode, reads)
  | .close :: reads => (.error .connectionClosed, reads)
  | .control :: reads => tryRecv reads
  | .failed :: reads => (.error .socket, reads)

end Decode

end ZortilWatch.Signaling
