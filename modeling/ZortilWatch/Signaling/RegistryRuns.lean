import ZortilWatch.Lib.Runs
import ZortilWatch.Signaling.RegistrySpec

/-!
# Sequences of calls on a registry

`Op` is one call of a public method. A `Trace` is a registry with what its
surroundings have seen: the calls it made, the session ids `makeSessionId` has
returned and those an `acceptConnect` has returned true for. `registrySystem`
runs any sequence of calls from an empty registry; its one restriction is that
`makeSessionId` never repeats an id.
-/

namespace ZortilWatch.Signaling

/-- A call of a method of the registry. `requestConnect` carries the id
`makeSessionId` returns if the call gets that far. -/
inductive Op (C J : Type) where
  | online (d : DeviceId) (k : DeviceKind) (conn : C) (info : SlotMeta) (now : Nat)
  | offline (d : DeviceId) (k : DeviceKind) (guard : Option C)
  | touch (d : DeviceId) (now : Nat)
  | dispatchWake (d : DeviceId) (target : DeviceId) (mac wanIp accountId : Option String)
  | requestConnect (sid : SessionId) (d : DeviceId) (k : DeviceKind) (target : DeviceId)
      (passwordKind : Option PasswordKind)
  | acceptConnect (sid : SessionId) (d : DeviceId) (k : DeviceKind)
  | rejectConnect (sid : SessionId) (d : DeviceId) (k : DeviceKind) (reason : Option String)
  | relaySignal (sid : SessionId) (d : DeviceId) (k : DeviceKind) (kind : SignalKind) (payload : J)
  | closeSession (sid : SessionId) (d : DeviceId) (k : DeviceKind) (reason : Option String)

namespace Op

variable {C J : Type}

/-- The device and role a call is made for. `touch` and `dispatchWake` take a
device only and are made for either of its roles. -/
def onBehalfOf : Op C J → Side → Prop
  | .online d k _ _ _, side => side = (d, k)
  | .offline d k _, side => side = (d, k)
  | .touch d _, side => side.1 = d
  | .dispatchWake d _ _ _ _, side => side.1 = d
  | .requestConnect _ d k _ _, side => side = (d, k)
  | .acceptConnect _ d k, side => side = (d, k)
  | .rejectConnect _ d k _, side => side = (d, k)
  | .relaySignal _ d k _ _, side => side = (d, k)
  | .closeSession _ d k _, side => side = (d, k)

/-- The session an answer, a signal or a close names. -/
def names : Op C J → Option SessionId
  | .acceptConnect sid _ _ => some sid
  | .rejectConnect sid _ _ _ => some sid
  | .relaySignal sid _ _ _ _ => some sid
  | .closeSession sid _ _ _ => some sid
  | _ => none

end Op

variable {C J : Type} [DecidableEq C]

/-- Perform a call: the value returned (`true` for methods that return none),
the registry after it and the calls it makes. -/
def Registry.perform (r : Registry C J) : Op C J → Bool × Registry C J × List (Effect C J)
  | .online d k conn info now => (true, r.online d k conn info now)
  | .offline d k guard => (true, r.offline d k guard)
  | .touch d now => (true, r.touch d now, [])
  | .dispatchWake _ target mac wanIp accountId => (true, r, (r.dispatchWake target mac wanIp accountId).2)
  | .requestConnect sid d k target pk =>
    let res := r.requestConnect sid d k target pk
    (res.1.ok, res.2)
  | .acceptConnect sid d k => r.acceptConnect sid d k
  | .rejectConnect sid d k reason => r.rejectConnect sid d k reason
  | .relaySignal sid d k kind payload => r.relaySignal sid d k kind payload
  | .closeSession sid d k reason => r.closeSession sid reason d k

/-- A registry and its history. -/
structure Trace (C J : Type) where
  reg : Registry C J
  /-- Calls made on connections and hooks, oldest first. -/
  log : List (Effect C J) := []
  /-- Ids `makeSessionId` has returned. -/
  issued : List SessionId := []
  /-- Ids for which `acceptConnect` has returned true. -/
  accepted : List SessionId := []

namespace Trace

def perform (t : Trace C J) (op : Op C J) : Trace C J :=
  let res := t.reg.perform op
  { reg := res.2.1
    log := t.log ++ res.2.2
    issued := match op with
      | .requestConnect sid _ _ _ _ => if res.1 then sid :: t.issued else t.issued
      | _ => t.issued
    accepted := match op with
      | .acceptConnect sid _ _ => if res.1 then sid :: t.accepted else t.accepted
      | _ => t.accepted }

/-- `makeSessionId` returns an id it never returned before. -/
def freshId (t : Trace C J) : Op C J → Prop
  | .requestConnect sid _ _ _ _ => sid ∉ t.issued
  | _ => True

/-- `requestConnect` is called for a slot that is registered. -/
def callerRegistered (t : Trace C J) : Op C J → Prop
  | .requestConnect _ d k _ _ => (t.reg.slot d k).isSome
  | _ => True

end Trace

/-- Any sequence of calls on a registry that starts empty. -/
def registrySystem (C J : Type) [DecidableEq C] : System (Trace C J) (Op C J) where
  init t := ∃ opts, t = { reg := { opts := opts } }
  enabled := Trace.freshId
  step := Trace.perform

end ZortilWatch.Signaling
