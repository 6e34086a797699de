import ZortilWatch.Signaling.Wire

/-!
# The frames of the native clients (`core/src/signal.rs`)

`SignalClient::send` writes a `ClientMsg` with serde; the server parses the frame with
the schema `ClientMessage`. `parse_serialize` is what it gets for every one of them: the
message with the same fields, unless the version is another, a word is none that the
schema lists, or a field breaks a refinement of the schema.
-/

namespace ZortilWatch.Signaling

/-- `PROTOCOL_VERSION` -/
def PROTOCOL_VERSION : UInt8 := 1

/-- `ClientMsg`; the functions that make one put `PROTOCOL_VERSION` into `v`. A payload is
a `serde_json::Value`, as the text it is written as. -/
inductive ClientMsg (N : Type) where
  | register (v : UInt8) (deviceId clientSecret clientKind : String) (mac : Option String) (canWake : Option Bool)
      (rid : Option String)
  | wake (v : UInt8) (targetId : String)
  | listPresence (v : UInt8) (ids : List String) (rid : Option String)
  | connectRequest (v : UInt8) (targetId : String) (passwordKind rid : Option String)
  | connectAccept (v : UInt8) (sessionId : String)
  | connectReject (v : UInt8) (sessionId : String) (reason : Option String)
  | signal (v : UInt8) (sessionId kind : String) (payload : Json N)
  | sessionClose (v : UInt8) (sessionId : String) (reason : Option String)

namespace ClientMsg

variable {N : Type} (p : Platform N)

/-- A registration of a device that reports its network card. -/
def register_wol (deviceId clientSecret clientKind : String) (mac : Option String) (canWake : Bool) : ClientMsg N :=
  .register PROTOCOL_VERSION deviceId clientSecret clientKind mac (some canWake) none

def v : ClientMsg N → UInt8
  | .register v .. | .wake v _ | .listPresence v .. | .connectRequest v .. | .connectAccept v _
  | .connectReject v .. | .signal v .. | .sessionClose v .. => v

/-- The field `v`. -/
def vField (v : UInt8) : String × Field N := ("v", some (.num (p.ofNat v.toNat)))

/-- The members in the order serde writes them; `None` is skipped. -/
def members : ClientMsg N → List (String × Field N)
  | .register v deviceId clientSecret clientKind mac canWake rid =>
    [("type", strField "register"), vField p v, ("deviceId", strField deviceId),
      ("clientSecret", strField clientSecret),
      ("clientKind", strField clientKind), ("mac", mac.map .str), ("canWake", canWake.map .bool), ("rid", rid.map .str)]
  | .wake v targetId => [("type", strField "wake"), vField p v, ("targetId", strField targetId)]
  | .listPresence v ids rid =>
    [("type", strField "list_presence"), vField p v, ("ids", some (.arr (ids.map .str))), ("rid", rid.map .str)]
  | .connectRequest v targetId passwordKind rid =>
    [("type", strField "connect_request"), vField p v, ("targetId", strField targetId),
      ("passwordKind", passwordKind.map .str), ("rid", rid.map .str)]
  | .connectAccept v sessionId => [("type", strField "connect_accept"), vField p v, ("sessionId", strField sessionId)]
  | .connectReject v sessionId reason =>
    [("type", strField "connect_reject"), vField p v, ("sessionId", strField sessionId), ("reason", reason.map .str)]
  | .signal v sessionId kind payload =>
    [("type", strField "signal"), vField p v, ("sessionId", strField sessionId), ("kind", strField kind),
      ("payload", some payload)]
  | .sessionClose v sessionId reason =>
    [("type", strField "session_close"), vField p v, ("sessionId", strField sessionId), ("reason", reason.map .str)]

/-- `serde_json::to_string`. -/
def serialize (m : ClientMsg N) : Json N := object (m.members p)

/-- The message with the same fields, if its words are in the schema. -/
def asServer : ClientMsg N → Option (ClientMessage (Field N))
  | .register _ deviceId clientSecret clientKind mac canWake rid =>
    (deviceKinds.lookup clientKind).map fun kind => .register deviceId clientSecret kind mac canWake rid
  | .wake _ targetId => some (.wake targetId none)
  | .listPresence _ ids rid => some (.listPresence ids rid)
  | .connectRequest _ targetId none rid => some (.connectRequest targetId none rid)
  | .connectRequest _ targetId (some word) rid =>
    (passwordKinds.lookup word).map fun kind => .connectRequest targetId (some kind) rid
  | .connectAccept _ sessionId => some (.connectAccept sessionId)
  | .connectReject _ sessionId reason => some (.connectReject sessionId reason)
  | .signal _ sessionId word payload => (signalKinds.lookup word).map fun kind => .signal sessionId kind (some payload)
  | .sessionClose _ sessionId reason => some (.sessionClose sessionId reason)

end ClientMsg

/-! ## Reading a frame -/

section Read

variable {N : Type} (p : Platform N)

/-- Integers up to 2^53 are told apart. -/
theorem ofNat_inj {m n : Nat} (hm : m ≤ 2 ^ 53) (hn : n ≤ 2 ^ 53) (same : p.ofNat m = p.ofNat n) : m = n := by
  have read := (p.safe m hm).2.2
  rw [same, (p.safe n hn).2.2] at read
  exact (Int.ofNat_inj.1 (Option.some.inj read)).symm

variable [DecidableEq N]

theorem isVersion_vField (v : UInt8) : p.isVersion (ClientMsg.vField p v).2 = decide (v = PROTOCOL_VERSION) := by
  have small : v.toNat ≤ 2 ^ 53 := Nat.le_trans (Nat.le_of_lt v.toNat_lt) (by decide)
  by_cases one : v = 1
  · subst one
    simp [ClientMsg.vField, Platform.isVersion, PROTOCOL_VERSION]
  · have apart : p.ofNat v.toNat ≠ p.ofNat 1 := fun same => one (UInt8.toNat_inj.1 (ofNat_inj p small (by decide) same))
    simp [ClientMsg.vField, Platform.isVersion, PROTOCOL_VERSION, one, apart]

/-- The version is looked at first. -/
theorem gate {α : Type} (v : UInt8) (message : Option α) :
    (if p.isVersion (ClientMsg.vField p v).2 = false then none else message) =
      if v = PROTOCOL_VERSION then message else none := by
  rw [isVersion_vField]
  by_cases known : v = PROTOCOL_VERSION <;> simp [known]

theorem shape_signal (v : UInt8) (sessionId word : String) (payload : Json N) :
    ClientMessage.shape p ((ClientMsg.signal v sessionId word payload).serialize p) = if v = PROTOCOL_VERSION then
      (signalKinds.lookup word).map fun kind => .signal sessionId kind (some payload) else none := by
  refine Eq.trans ?_ (gate p v ((signalKinds.lookup word).map _))
  rw [Option.map_eq_bind]
  rfl

/-- The types of the schema read the same message under the version they know. -/
theorem shape_serialize (m : ClientMsg N) :
    ClientMessage.shape p (m.serialize p) = if m.v = PROTOCOL_VERSION then m.asServer else none := by
  cases m with
  | register v deviceId clientSecret clientKind mac canWake rid =>
    refine Eq.trans ?_ (gate p v ((deviceKinds.lookup clientKind).map _))
    rw [Option.map_eq_bind]
    cases mac <;> cases canWake <;> cases rid <;> rfl
  | wake v targetId => exact gate p v (some (ClientMessage.wake targetId none))
  | listPresence v ids rid =>
    refine Eq.trans ?_ (gate p v (some (ClientMessage.listPresence ids rid)))
    have read : ClientMessage.shape p ((ClientMsg.listPresence v ids rid).serialize p) =
        if p.isVersion (ClientMsg.vField p v).2 = false then none
        else (zStringArray (N := N) (some (.arr (ids.map .str)))).bind fun ids => some (.listPresence ids rid) := by
      cases rid <;> rfl
    rw [read, zStringArray_strings]
    rfl
  | connectRequest v targetId passwordKind rid =>
    cases passwordKind with
    | none => cases rid <;> exact gate p v (some (ClientMessage.connectRequest targetId none _))
    | some word =>
      refine Eq.trans ?_ (gate p v ((passwordKinds.lookup word).map _))
      have read : ClientMessage.shape p ((ClientMsg.connectRequest v targetId (some word) rid).serialize p) =
          if p.isVersion (ClientMsg.vField p v).2 = false then none
          else ((passwordKinds.lookup word).map some).bind fun kind => some (.connectRequest targetId kind rid) := by
        cases rid <;> rfl
      rw [read]
      cases passwordKinds.lookup word <;> rfl
  | connectAccept v sessionId => exact gate p v (some (ClientMessage.connectAccept sessionId))
  | connectReject v sessionId reason =>
    cases reason <;> exact gate p v (some (ClientMessage.connectReject sessionId _))
  | signal v sessionId kind payload => exact shape_signal p v sessionId kind payload
  | sessionClose v sessionId reason =>
    cases reason <;> exact gate p v (some (ClientMessage.sessionClose sessionId _))

end Read

end ZortilWatch.Signaling
