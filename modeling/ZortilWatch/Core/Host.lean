import ZortilWatch.Core.Crypto
import ZortilWatch.Lib.Runs

/-!
# The host loop (`Managed::serve` in `core/src/connection.rs`)

`serve` with `wait_decision`, `serve_session` and `establish_managed`. A
`Control` is a place where the code asks the outside for something (a flag, the
clock, the signalling socket, the human, str0m, a thread); a `Reading` holds
the answers, and each place looks at the ones it asks for. What goes out is the
list of `Output`s of a step. `Err(ServeErr::Session)` leads back to `.top none`,
`Err(ServeErr::Ws)` to `.connecting`.
-/

namespace ZortilWatch.Core

/-- `ClientMsg`, the variants a host sends once it is registered. `J` is `serde_json::Value`. -/
inductive ClientMsg (J : Type) where
  | connectAccept (sessionId : String)
  | connectReject (sessionId : String) (reason : Option String)
  | signal (sessionId kind : String) (payload : J)
  deriving DecidableEq, Repr

/-- `ServerMsg`; `other` stands for the variants no loop of the host looks into. -/
inductive ServerMsg (J : Type) where
  | incomingRequest (sessionId : String) (passwordKind : Option String)
  | connectReady (sessionId : String) (iceServers : Option J)
  | signal (sessionId kind : String) (payload : J)
  | wakeDispatch (mac : String)
  | other
  deriving DecidableEq, Repr

/-- What `SignalClient::try_recv` returns; `none` is a read timeout. -/
abbrev Recv (J : Type) := Except Unit (Option (ServerMsg J))

inductive HostEvent where
  | oneTime (code : String)
  | confirm (requestId : Nat) (passwordKind : String)
  deriving DecidableEq, Repr

/-- A request that is to be served. -/
structure Request where
  sessionId : String
  passwordKind : Option String
  deriving DecidableEq, Repr

/-- The locals of `serve` for the request in hand. -/
structure Attempt where
  sid : String
  kind : Option String
  password : Bytes
  deriving DecidableEq, Repr

def Attempt.oneTimeUsed (a : Attempt) : Bool := a.kind == some "one_time"

/-- The locals of `establish_managed`: the session it negotiates for, the
answer's SDP and the payloads given to `apply_peer_candidates`. -/
structure Negotiation (J : Type) where
  joined : String
  iceServers : Option J
  answer : Option String
  ice : List J
  deriving DecidableEq, Repr

inductive Control (J : Type) where
  /-- `while !stop { register_host_ws .. }` -/
  | connecting
  /-- The head of the inner loop. -/
  | top (pending : Option Request)
  | polling (pending : Option Request)
  | rejecting (sid reason : String)
  /-- The password is chosen, `confirm_incoming` not yet read. -/
  | admitted (a : Attempt)
  | deciding (a : Attempt) (requestId : Nat)
  /-- `serve_session` is called. -/
  | accepting (a : Attempt)
  | awaitingReady (a : Attempt)
  | offering (a : Attempt) (joined : String) (iceServers : Option J)
  | awaitingAnswer (a : Attempt) (n : Negotiation J)
  /-- `drive_until_confirmed` -/
  | confirming (a : Attempt) (n : Negotiation J)
  | spawning (a : Attempt)
  | inSession (a : Attempt)
  /-- The media thread is joined. -/
  | ending (a : Attempt) (tail : Option Request) (wsOk : Bool)
  | returned
  deriving DecidableEq, Repr

structure Host (J : Type) where
  control : Control J
  oneTime : String
  nextRequestId : Nat
  deriving DecidableEq, Repr

/-- The answers of the outside at one step. -/
structure Reading (J : Type) where
  /-- `opts.stop` -/
  stop : Bool := false
  /-- `Instant::now() > deadline` -/
  late : Bool := false
  /-- Whether the one call made there succeeds: registering, a send, the handshake, the thread. -/
  ok : Bool := true
  recv : Recv J := .ok none
  /-- `opts.rotate` -/
  rotate : Bool := false
  /-- What `generate_one_time` returns. -/
  code : String := ""
  /-- `opts.confirm_incoming` -/
  confirmIncoming : Bool := false
  /-- `opts.decisions.try_recv()` -/
  decision : Option (Nat × Bool) := none
  /-- The offer and the candidates, when everything before them works. -/
  prepared : Option (J × J) := none
  iceSent : Bool := true
  /-- `accept_answer` -/
  answerAccepted : Bool := true
  /-- `done`, at the head of the session loop and again after an incoming request. -/
  done : Bool := false
  doneNow : Bool := false
  /-- `opts.lock_on_end` -/
  lockOnEnd : Bool := false

inductive Output (J : Type) where
  | send (msg : ClientMsg J)
  | onEvent (event : HostEvent)
  | sendWol (mac : String)
  | lockWorkstation
  deriving DecidableEq, Repr

/-- The host's settings and what it takes from serde_json and str0m. -/
structure HostEnv (J : Type) where
  permanentPassword : Option Bytes
  payloadStr : J → String → Option String
  /-- `SdpAnswer::from_sdp_string(..).is_ok()` -/
  isSdpAnswer : String → Bool

section Serve

variable {J : Type} (env : HostEnv J)

/-- A message none of the waiting loops waits for: requests are rejected as busy. -/
def whileBusy (loop broken : Control J) (r : Reading J) : Control J × List (Output J) :=
  match r.recv with
  | .ok (some (.incomingRequest other _)) =>
    (if r.ok then loop else broken, [.send (.connectReject other (some "busy"))])
  | .ok _ => (loop, [])
  | .error _ => (broken, [])

/-- The choice of the password. -/
def choosePassword (oneTime : String) (q : Request) : Control J :=
  if q.passwordKind = some "one_time" then .admitted ⟨q.sessionId, q.passwordKind, utf8 oneTime⟩
  else
    match env.permanentPassword with
    | some p => .admitted ⟨q.sessionId, q.passwordKind, p⟩
    | none => .rejecting q.sessionId "no_permanent"

def poll (oneTime : String) (pending : Option Request) (r : Reading J) : Control J × List (Output J) :=
  match pending with
  | some q => (choosePassword env oneTime q, [])
  | none =>
    match r.recv with
    | .ok (some (.incomingRequest sid kind)) => (choosePassword env oneTime ⟨sid, kind⟩, [])
    | .ok (some (.wakeDispatch mac)) => (.top none, [.sendWol mac])
    | .ok _ => (.top none, [])
    | .error _ => (.connecting, [])

def waitDecision (a : Attempt) (requestId : Nat) (r : Reading J) : Control J × List (Output J) :=
  if r.stop || r.late then (.rejecting a.sid "denied", [])
  else
    match r.decision.filter (·.1 = requestId) with
    | some (_, true) => (.accepting a, [])
    | some (_, false) => (.rejecting a.sid "denied", [])
    | none => whileBusy (.deciding a requestId) .connecting r

/-- The first loop of `serve_session`. -/
def awaitReady (a : Attempt) (r : Reading J) : Control J × List (Output J) :=
  if r.stop || r.late then (.top none, [])
  else
    match r.recv with
    | .ok (some (.connectReady sid ice)) => (.offering a sid ice, [])
    | _ => whileBusy (.awaitingReady a) .connecting r

/-- `establish_managed` up to its loop. -/
def sendOffer (a : Attempt) (joined : String) (iceServers : Option J) (r : Reading J) :
    Control J × List (Output J) :=
  match r.prepared with
  | none => (.top none, [])
  | some (sdp, cands) =>
    let offer := Output.send (.signal joined "offer" sdp)
    let ice := Output.send (.signal joined "ice" cands)
    if r.ok then
      (if r.iceSent then .awaitingAnswer a ⟨joined, iceServers, none, []⟩ else .connecting, [offer, ice])
    else (.connecting, [offer])

/-- A signal in the loop of `establish_managed`; `none` gives the session up. -/
def onSignal (n : Negotiation J) (kind : String) (payload : J) (accepted : Bool) : Option (Negotiation J) :=
  if kind = "answer" then
    match env.payloadStr payload "sdp" with
    | none => none
    | some sdp =>
      -- `pending.take()` is empty at a second answer
      if env.isSdpAnswer sdp && n.answer.isNone && accepted then some { n with answer := some sdp } else none
  else if kind = "ice" then some { n with ice := n.ice ++ [payload] }
  else some n

/-- The loop of `establish_managed`. It reads no stop flag. -/
def awaitAnswer (a : Attempt) (n : Negotiation J) (r : Reading J) : Control J × List (Output J) :=
  if r.late then (.top none, [])
  else
    match r.recv with
    | .ok (some (.signal _ kind payload)) =>
      match onSignal env n kind payload r.answerAccepted with
      | none => (.top none, [])
      | some n' =>
        (if n'.answer.isSome && !n'.ice.isEmpty then .confirming a n' else .awaitingAnswer a n', [])
    | _ => whileBusy (.awaitingAnswer a n) .connecting r

/-- The loop of `serve_session` beside the media thread. -/
def duringSession (a : Attempt) (r : Reading J) : Control J × List (Output J) :=
  if r.done || r.stop then (.ending a none true, [])
  else
    match r.recv with
    | .ok (some (.incomingRequest other kind)) =>
      if r.doneNow then (.ending a (some ⟨other, kind⟩) true, [])
      else whileBusy (.inSession a) (.ending a none false) r
    | .ok (some (.wakeDispatch mac)) => (.inSession a, [.sendWol mac])
    | _ => whileBusy (.inSession a) (.ending a none false) r

/-- Take a new one-time code and show it. -/
def Host.rotate (h : Host J) (code : String) : Host J × List (Output J) :=
  ({ h with oneTime := code }, [.onEvent (.oneTime code)])

/-- The host at `p.1`, having sent `p.2`. -/
def Host.goto (h : Host J) (p : Control J × List (Output J)) : Host J × List (Output J) :=
  ({ h with control := p.1 }, p.2)

/-- One step of `serve`. -/
def Host.serve (h : Host J) (r : Reading J) : Host J × List (Output J) :=
  match h.control with
  | .connecting => h.goto (if r.stop then .returned else if r.ok then .top none else .connecting, [])
  | .top pending =>
    if r.stop then h.goto (.returned, [])
    else if r.rotate then { h with control := .polling pending }.rotate r.code
    else h.goto (.polling pending, [])
  | .polling pending => h.goto (poll env h.oneTime pending r)
  | .rejecting sid reason =>
    h.goto (if r.ok then .top none else .connecting, [.send (.connectReject sid (some reason))])
  | .admitted a =>
    if r.confirmIncoming then
      let id := h.nextRequestId + 1
      ({ h with control := .deciding a id, nextRequestId := id },
        [.onEvent (.confirm id (a.kind.getD "permanent"))])
    else h.goto (.accepting a, [])
  | .deciding a id => h.goto (waitDecision a id r)
  | .accepting a => h.goto (if r.ok then .awaitingReady a else .connecting, [.send (.connectAccept a.sid)])
  | .awaitingReady a => h.goto (awaitReady a r)
  | .offering a joined ice => h.goto (sendOffer a joined ice r)
  | .awaitingAnswer a n => h.goto (awaitAnswer env a n r)
  | .confirming a _ => h.goto (if r.ok then .spawning a else .top none, [])
  | .spawning a => h.goto (if r.ok then .inSession a else .top none, [])
  | .inSession a => h.goto (duringSession a r)
  | .ending a tail wsOk =>
    let locked := if r.lockOnEnd then [.lockWorkstation] else []
    if wsOk then
      if a.oneTimeUsed then
        let next := { h with control := .top tail }.rotate r.code
        (next.1, locked ++ next.2)
      else h.goto (.top tail, locked)
    else h.goto (.connecting, locked)
  | .returned => (h, [])

/-- `serve` as a system; the code shown first is part of the initial state. -/
def hostLoop : System (Host J) (Reading J) where
  init h := h.control = .connecting ∧ h.nextRequestId = 0
  enabled _ _ := True
  step h r := (h.serve env r).1

end Serve

/-- A sample host: payloads are SDP texts and a permanent password is set. -/
def sampleHostEnv : HostEnv String where
  permanentPassword := some (utf8 "owner")
  payloadStr payload key := if key = "sdp" then some payload else none
  isSdpAnswer _ := true

end ZortilWatch.Core
