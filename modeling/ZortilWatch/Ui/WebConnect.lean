import ZortilWatch.Lib.Runs
import ZortilWatch.Core.Session
import ZortilWatch.Core.Stream

/-!
# One `connect()` of the web client (`ui/src/platform/web.ts`)

The closures of `connect` as a state machine: the variables they share, one
event for each callback the browser may run, and what the callback does. The
WASM handshake, opener and reassembler are those of the core.

`fail` rejects the promise of an attempt that is not settled and calls `onClose`
otherwise, also when the attempt was settled by an earlier `fail` or by
`disconnect`. So `onClose` keeps its contract exactly in the runs that call
`fail` once at most, and not after a `disconnect` (`onClose_contract_iff`).
-/

namespace ZortilWatch.Ui

open ZortilWatch.Core

inductive ReadyState where
  | connecting
  | open
  | closing
  | closed
  deriving DecidableEq, Repr

inductive Phase where
  | signaling
  | pake
  | media
  deriving DecidableEq, Repr

inductive PasswordKind where
  | oneTime
  | permanent
  deriving DecidableEq, Repr

/-- What `connect` is called with, the callbacks apart. -/
structure ConnectOpts where
  deviceId : String
  clientSecret : String
  password : String
  passwordKind : PasswordKind
  targetId : String

/-- A message of the server. -/
inductive Envelope where
  | registerOk
  | registerErr (reason code : Option String)
  | connectErr (code : Option String)
  | connectReady (sessionId : String)
  | offer (sessionId sdp : String)
  | ice (sessionId : String) (cands : List String)
  | endSession (sessionId : String)
  | sessionClose
  /-- No JSON, or a type `connect` does not know. -/
  | other
  deriving DecidableEq, Repr

/-- What `connect` sends on the WebSocket. -/
inductive Sent where
  | register (deviceId clientSecret : String)
  | connectRequest (targetId : String) (passwordKind : PasswordKind)
  | answer (sessionId sdp : String)
  | ice (sessionId cand : String)
  | sessionClose (sessionId : String)
  deriving DecidableEq, Repr

inductive Output where
  | ws (m : Sent)
  | channel (m : SessionMessage)
  | onFrame (unit : Bytes)
  | resolveConn
  | rejectConn (msg : String)
  | onClose (msg : String)
  deriving DecidableEq

/-- The variables of `connect`. -/
structure Connect (prim : Primitives) where
  ws : ReadyState := .connecting
  pc : Bool := false
  channel : Bool := false
  sessionId : String := ""
  hs : Option (Handshake prim) := none
  opener : Option StreamOpener := none
  reasm : Reassembler := {}
  phase : Phase := .signaling
  deferred : List Bytes := []
  settled : Bool := false
  /-- The PAKE timer is armed. -/
  timer : Bool := true

inductive Event (prim : Primitives) where
  | wsOpen
  | wsError
  | wsClose
  | wsMessage (m : Envelope)
  /-- The answer to an offer is made. -/
  | answer (sdp : String)
  | iceCandidate (cand : String)
  | connectionState (failed : Bool)
  | dataChannel
  | channelOpen (ownFp peerFp : String) (seed : prim.Rng)
  /-- `sendFails`: `channel.send` throws. -/
  | channelMessage (data : Bytes) (sendFails : Bool)
  | channelClose
  | timeout
  | disconnect

namespace Connect

variable {prim : Primitives}

/-- `send`: a socket that is not open takes nothing. -/
def send (s : Connect prim) (m : Sent) : List Output := if s.ws = .open then [.ws m] else []

def closeWs (s : Connect prim) : Connect prim :=
  if s.ws = .open ∨ s.ws = .connecting then { s with ws := .closing } else s

/-- Close whatever is open. Of the channel and the peer connection nothing here
reads the state. -/
def cleanup (s : Connect prim) : Connect prim := s.closeWs

def fail (s : Connect prim) (msg : String) : Connect prim × List Output :=
  (cleanup { s with settled := true }, [if s.settled then .onClose msg else .rejectConn msg])

def onMedia (s : Connect prim) (bytes : Bytes) : Connect prim × List Output :=
  if bytes = SESSION_BYE then s.fail "сесію завершено керованим"
  else
    let pushed := s.reasm.push bytes
    let frames := match pushed.2, s.opener with
      | some sealed, some opener => opened prim opener sealed
      | _, _ => []
    ({ s with reasm := pushed.1 }, frames.map .onFrame)

/-- `for (const m of deferred.splice(0)) onMedia(m)`. -/
def onMediaAll (s : Connect prim) : List Bytes → Connect prim × List Output
  | [] => (s, [])
  | m :: ms =>
    let first := s.onMedia m
    let rest := first.1.onMediaAll ms
    (rest.1, first.2 ++ rest.2)

def startPake (opts : ConnectOpts) (s : Connect prim) (ownFp peerFp : String) (seed : prim.Rng) :
    Connect prim × List Output :=
  if s.pc = false ∨ s.channel = false then (s, [])
  else
    let started := Handshake.start (utf8 opts.password) ownFp peerFp seed
    ({ s with hs := some started.1, phase := .pake }, [.channel started.2])

/-- The handshake is confirmed. -/
def onConfirmed (s : Connect prim) (key : Bytes32) : Connect prim × List Output :=
  match StreamOpener.new prim key STREAM_LABEL_MEDIA_H2C with
  | none => s.fail "cipher init: unreachable"
  | some opener =>
    let s := { s with opener := some opener }
    match StreamSealer.new prim key STREAM_LABEL_INPUT_C2H with
    | none => s.fail "cipher init: unreachable"
    | some _ =>
      let early := onMediaAll { s with phase := .media, timer := false, deferred := [] } s.deferred
      let resolved : List Output := if early.1.settled then [] else [.resolveConn]
      (closeWs { early.1 with settled := true }, early.2 ++ resolved)

/-- `parse` is `serde_json::from_slice` behind `hs.onMessage`. -/
def onChannelMessage (parse : Bytes → Option SessionMessage) (s : Connect prim) (bytes : Bytes) (sendFails : Bool) :
    Connect prim × List Output :=
  if s.phase = .media then s.onMedia bytes
  else
    match s.hs, parse bytes with
    | none, _ => (s, [])
    | some _, none => ({ s with deferred := s.deferred ++ [bytes] }, [])
    | some hs, some msg =>
      let answered := hs.onMessage msg
      let s := { s with hs := some answered.1 }
      if answered.2.isSome && sendFails then ({ s with deferred := s.deferred ++ [bytes] }, [])
      else
        let sent := answered.2.toList.map Output.channel
        match answered.1.confirmedKey with
        | none => (s, sent)
        | some key =>
          let confirmed := s.onConfirmed key
          (confirmed.1, sent ++ confirmed.2)

def onWsMessage (opts : ConnectOpts) (s : Connect prim) : Envelope → Connect prim × List Output
  | .registerOk => (s, s.send (.connectRequest opts.targetId opts.passwordKind))
  | .registerErr reason code => s.fail ("register: " ++ (reason <|> code).getD "відмовлено")
  | .connectErr code => s.fail ("connect: " ++ code.getD "помилка")
  | .connectReady sessionId => ({ s with sessionId := sessionId, pc := true }, [])
  -- the description is set and an answer made behind this event
  | .offer .. => (s, [])
  | .ice .. => (s, [])
  | .endSession sessionId =>
    if s.pc = false ∨ sessionId ≠ s.sessionId then (s, []) else s.fail "сесію завершено віддалено"
  | .sessionClose => if s.settled then (s, []) else s.fail "сесію закрито"
  | .other => (s, [])

def disconnect (s : Connect prim) : Connect prim × List Output :=
  (cleanup { s with settled := true, timer := false },
    if s.sessionId ≠ "" then s.send (.sessionClose s.sessionId) else [])

def handle (parse : Bytes → Option SessionMessage) (opts : ConnectOpts) (s : Connect prim) :
    Event prim → Connect prim × List Output
  | .wsOpen =>
    let s := { s with ws := .open }
    (s, s.send (.register opts.deviceId opts.clientSecret))
  | .wsError => s.fail "WebSocket error"
  | .wsClose =>
    let s := { s with ws := .closed }
    if s.settled then (s, []) else s.fail "WebSocket closed before session"
  | .wsMessage m => s.onWsMessage opts m
  | .answer sdp => (s, s.send (.answer s.sessionId sdp))
  | .iceCandidate cand => (s, if s.sessionId ≠ "" then s.send (.ice s.sessionId cand) else [])
  | .connectionState failed => if failed then s.fail "ICE/DTLS failed" else (s, [])
  | .dataChannel => ({ s with channel := true }, [])
  | .channelOpen ownFp peerFp seed => s.startPake opts ownFp peerFp seed
  | .channelMessage data sendFails => s.onChannelMessage parse data sendFails
  | .channelClose => if s.settled then (s, []) else s.fail "datachannel closed"
  | .timeout => { s with timer := false }.fail "PAKE timeout"
  | .disconnect => s.disconnect

/-! ## Calls of `fail` -/

/-- The key a channel message confirms. -/
def confirming (parse : Bytes → Option SessionMessage) (s : Connect prim) (bytes : Bytes) (sendFails : Bool) :
    Option Bytes32 :=
  match s.phase, s.hs, parse bytes with
  | .media, _, _ => none
  | _, some hs, some msg =>
    if (hs.onMessage msg).2.isSome && sendFails then none else (hs.onMessage msg).1.confirmedKey
  | _, _, _ => none

/-- Both ciphers of a key can be made. -/
def ciphers (prim : Primitives) (key : Bytes32) : Bool :=
  (StreamOpener.new prim key STREAM_LABEL_MEDIA_H2C).isSome && (StreamSealer.new prim key STREAM_LABEL_INPUT_C2H).isSome

/-- The failures a list of media messages makes: one for each goodbye. -/
def byes (messages : List Bytes) : List String :=
  (messages.filter (· = SESSION_BYE)).map fun _ => "сесію завершено керованим"

/-- The messages an event calls `fail` with. -/
def failures (parse : Bytes → Option SessionMessage) (s : Connect prim) : Event prim → List String
  | .wsError => ["WebSocket error"]
  | .wsClose => if s.settled then [] else ["WebSocket closed before session"]
  | .wsMessage (.registerErr reason code) => ["register: " ++ (reason <|> code).getD "відмовлено"]
  | .wsMessage (.connectErr code) => ["connect: " ++ code.getD "помилка"]
  | .wsMessage (.endSession sessionId) =>
    if s.pc = false ∨ sessionId ≠ s.sessionId then [] else ["сесію завершено віддалено"]
  | .wsMessage .sessionClose => if s.settled then [] else ["сесію закрито"]
  | .connectionState failed => if failed then ["ICE/DTLS failed"] else []
  | .channelMessage data sendFails =>
    if s.phase = .media then byes [data]
    else
      match s.confirming parse data sendFails with
      | none => []
      | some key => if ciphers prim key then byes s.deferred else ["cipher init: unreachable"]
  | .channelClose => if s.settled then [] else ["datachannel closed"]
  | .timeout => ["PAKE timeout"]
  | _ => []

/-- An event resolves the promise. -/
def resolves (parse : Bytes → Option SessionMessage) (s : Connect prim) : Event prim → Bool
  | .channelMessage data sendFails =>
    match s.confirming parse data sendFails with
    | none => false
    | some key => ciphers prim key && !s.settled && (byes s.deferred).isEmpty
  | _ => false

end Connect

/-! ## What the caller of `connect()` sees -/

inductive Mark where
  | resolved
  | rejected (msg : String)
  | closed (msg : String)
  /-- The caller called `disconnect()`. -/
  | disconnected
  deriving DecidableEq, Repr

def Output.mark : Output → Option Mark
  | .resolveConn => some .resolved
  | .rejectConn msg => some (.rejected msg)
  | .onClose msg => some (.closed msg)
  | _ => none

/-- What a list of failures of an attempt shows. -/
def failMarks (settled : Bool) : List String → List Mark
  | [] => []
  | msg :: msgs => (if settled then .closed msg else .rejected msg) :: msgs.map .closed

theorem failMarks_append (settled : Bool) (a b : List String) :
    failMarks settled (a ++ b) = failMarks settled a ++ failMarks (settled || !a.isEmpty) b := by
  cases a with
  | nil => simp [failMarks]
  | cons m a =>
    cases b with
    | nil => simp [failMarks]
    | cons m' b => simp [failMarks]

namespace Connect

variable {prim : Primitives} {s s' : Connect prim} {parse : Bytes → Option SessionMessage} {opts : ConnectOpts}

/-- A callback that only fails, so often. -/
structure Fails (s : Connect prim) (r : Connect prim × List Output) (msgs : List String) : Prop where
  marks : r.2.filterMap Output.mark = failMarks s.settled msgs
  settled : r.1.settled = (s.settled || !msgs.isEmpty)

theorem Fails.quiet {outs : List Output} (same : s'.settled = s.settled)
    (unseen : outs.filterMap Output.mark = []) : Fails s (s', outs) [] :=
  ⟨unseen, by simp [same]⟩

theorem settled_closeWs : s.closeWs.settled = s.settled := by
  unfold closeWs
  split <;> rfl

theorem fails_fail (s : Connect prim) (msg : String) : Fails s (s.fail msg) [msg] where
  marks := by
    unfold fail
    cases s.settled <;> rfl
  settled := by
    simp only [fail, cleanup, settled_closeWs]
    simp

theorem fails_onMedia (s : Connect prim) (bytes : Bytes) : Fails s (s.onMedia bytes) (byes [bytes]) := by
  unfold onMedia
  split
  · rename_i bye
    subst bye
    exact fails_fail s _
  · rename_i other
    have none_fails : byes [bytes] = [] := by simp [byes, other]
    rw [none_fails]
    exact .quiet rfl (by simp [List.filterMap_map, Function.comp_def, Output.mark])

theorem fails_onMediaAll (ms : List Bytes) (s : Connect prim) : Fails s (s.onMediaAll ms) (byes ms) := by
  induction ms generalizing s with
  | nil => exact .quiet rfl rfl
  | cons m ms ih =>
    have first := fails_onMedia s m
    have rest := ih (s.onMedia m).1
    have split : byes (m :: ms) = byes [m] ++ byes ms := by
      simp only [byes, List.filter_cons, List.filter_nil]
      split <;> rfl
    rw [split]
    constructor
    · rw [failMarks_append, ← first.marks, ← first.settled, ← rest.marks]
      exact List.filterMap_append
    · have empty : (byes [m] ++ byes ms).isEmpty = ((byes [m]).isEmpty && (byes ms).isEmpty) := by
        cases byes [m] <;> rfl
      rw [empty, Bool.not_and, ← Bool.or_assoc, ← first.settled]
      exact rest.settled

/-- A confirmation fails for its ciphers or for the goodbyes that came early, or
it resolves a promise that is not settled. -/
theorem onConfirmed_marks (s : Connect prim) (key : Bytes32) :
    (ciphers prim key && !s.settled && (byes s.deferred).isEmpty) = true ∧
        (s.onConfirmed key).2.filterMap Output.mark = [.resolved] ∧ (s.onConfirmed key).1.settled = true ∨
      Fails s (s.onConfirmed key) (if ciphers prim key then byes s.deferred else ["cipher init: unreachable"]) := by
  unfold onConfirmed ciphers
  cases ho : StreamOpener.new prim key STREAM_LABEL_MEDIA_H2C with
  | none => exact .inr (fails_fail s _)
  | some opener =>
    cases hs : StreamSealer.new prim key STREAM_LABEL_INPUT_C2H with
    | none =>
      have failed := fails_fail { s with opener := some opener } "cipher init: unreachable"
      exact .inr ⟨failed.marks, failed.settled⟩
    | some sealer =>
      have early := fails_onMediaAll s.deferred
        { s with opener := some opener, phase := .media, timer := false, deferred := [] }
      dsimp only
      generalize onMediaAll _ s.deferred = r at early
      obtain ⟨marks, settled⟩ := early
      dsimp only at marks settled
      simp only [Option.isSome_some, Bool.and_self, Bool.true_and, if_true, settled_closeWs]
      cases live : s.settled
      · cases none_came : (byes s.deferred).isEmpty
        · -- a goodbye came early, so the attempt is rejected
          simp only [live, none_came, Bool.not_false, Bool.or_true] at settled
          refine .inr ⟨?_, ?_⟩
          · simp [settled, marks, live]
          · simp [settled_closeWs, live, none_came]
        · simp only [live, none_came, Bool.not_true, Bool.or_false] at settled
          rw [List.isEmpty_iff] at none_came
          refine .inl ⟨by simp, ?_, trivial⟩
          simp [settled, marks, none_came, failMarks, Output.mark]
      · simp only [live, Bool.true_or] at settled
        refine .inr ⟨?_, ?_⟩
        · simp [settled, marks, live]
        · simp [settled_closeWs, live]

theorem send_marks (s : Connect prim) (m : Sent) : (s.send m).filterMap Output.mark = [] := by
  unfold send
  split <;> rfl

theorem confirming_eq {hs : Handshake prim} {msg : SessionMessage} (early : s.phase ≠ .media) (hhs : s.hs = some hs)
    {bytes : Bytes} (parsed : parse bytes = some msg) (sendFails : Bool) :
    s.confirming parse bytes sendFails =
      if (hs.onMessage msg).2.isSome && sendFails then none else (hs.onMessage msg).1.confirmedKey := by
  unfold confirming
  cases hp : s.phase with
  | media => exact absurd hp early
  | _ => simp [hhs, parsed]

/-- Only a message of the media phase, or one that confirms, shows anything. -/
theorem channelMessage_marks (parse : Bytes → Option SessionMessage) (s : Connect prim) (bytes : Bytes)
    (sendFails : Bool) :
    s.resolves parse (.channelMessage bytes sendFails) = true ∧
        (s.onChannelMessage parse bytes sendFails).2.filterMap Output.mark = [.resolved] ∧
        (s.onChannelMessage parse bytes sendFails).1.settled = true ∨
      Fails s (s.onChannelMessage parse bytes sendFails) (s.failures parse (.channelMessage bytes sendFails)) := by
  by_cases media : s.phase = .media
  · simp only [onChannelMessage, failures, if_pos media]
    exact .inr (fails_onMedia s bytes)
  -- a message that confirms nothing
  have idle (none_confirmed : s.confirming parse bytes sendFails = none) :
      s.failures parse (.channelMessage bytes sendFails) = [] := by
    simp only [failures, if_neg media, none_confirmed]
  cases hhs : s.hs with
  | none =>
    rw [idle (by unfold confirming; cases s.phase <;> simp [hhs])]
    simp only [onChannelMessage, if_neg media, hhs]
    exact .inr (.quiet rfl rfl)
  | some hs =>
    cases parsed : parse bytes with
    | none =>
      rw [idle (by unfold confirming; cases s.phase <;> simp [hhs, parsed])]
      simp only [onChannelMessage, if_neg media, hhs, parsed]
      exact .inr (.quiet rfl rfl)
    | some msg =>
      have confirms := confirming_eq media hhs parsed sendFails
      simp only [onChannelMessage, if_neg media, hhs, parsed]
      cases thrown : (hs.onMessage msg).2.isSome && sendFails with
      | true =>
        rw [idle (by rw [confirms, if_pos thrown])]
        exact .inr (.quiet rfl rfl)
      | false =>
        rw [thrown, if_neg Bool.false_ne_true] at confirms
        have sent : ((hs.onMessage msg).2.toList.map Output.channel).filterMap Output.mark = [] := by
          cases (hs.onMessage msg).2 <;> rfl
        cases hk : (hs.onMessage msg).1.confirmedKey with
        | none =>
          rw [idle (confirms.trans hk)]
          exact .inr (.quiet rfl sent)
        | some key =>
          rw [hk] at confirms
          simp only [Bool.false_eq_true, if_false, resolves, failures, if_neg media, confirms]
          rcases onConfirmed_marks { s with hs := some (hs.onMessage msg).1 } key with ⟨live, marks, settled⟩ | failed
          · exact .inl ⟨live, by rw [List.filterMap_append, sent, marks]; rfl, settled⟩
          · exact .inr ⟨by rw [List.filterMap_append, sent]; exact failed.marks, failed.settled⟩

/-- Of the callbacks, one message may resolve the promise; all else only fails. -/
theorem handle_marks (parse : Bytes → Option SessionMessage) (opts : ConnectOpts) (s : Connect prim) {e : Event prim}
    (callback : e ≠ .disconnect) :
    s.resolves parse e = true ∧ (s.handle parse opts e).2.filterMap Output.mark = [.resolved] ∧
      (s.handle parse opts e).1.settled = true ∨
    Fails s (s.handle parse opts e) (s.failures parse e) := by
  -- a callback that fails unless its guard stops it
  have guarded {c : Prop} [Decidable c] (s' : Connect prim) (same : s'.settled = s.settled) (msg : String) :
      Fails s (if c then (s', []) else s'.fail msg) (if c then [] else [msg]) := by
    have failed := fails_fail s' msg
    split
    · exact .quiet same rfl
    · exact ⟨by rw [← same]; exact failed.marks, by rw [← same]; exact failed.settled⟩
  cases e with
  | wsOpen => exact .inr (.quiet rfl (send_marks _ _))
  | wsError => exact .inr (fails_fail s _)
  | wsClose => exact .inr (guarded (c := s.settled = true) { s with ws := .closed } rfl _)
  | wsMessage m =>
    refine .inr ?_
    cases m with
    | registerOk => exact .quiet rfl (send_marks _ _)
    | registerErr reason code => exact fails_fail s _
    | connectErr code => exact fails_fail s _
    | endSession sessionId => exact guarded _ rfl _
    | sessionClose => exact guarded _ rfl _
    | _ => exact .quiet rfl rfl
  | answer sdp => exact .inr (.quiet rfl (send_marks _ _))
  | iceCandidate cand =>
    refine .inr (.quiet rfl ?_)
    split
    · exact send_marks _ _
    · rfl
  | connectionState failed =>
    refine .inr ?_
    cases failed
    · exact .quiet rfl rfl
    · exact fails_fail s _
  | dataChannel => exact .inr (.quiet rfl rfl)
  | channelOpen ownFp peerFp seed =>
    refine .inr ?_
    simp only [handle, startPake]
    split <;> exact .quiet rfl rfl
  | channelMessage data sendFails => exact channelMessage_marks parse s data sendFails
  | channelClose => exact .inr (guarded _ rfl _)
  | timeout =>
    have failed := fails_fail { s with timer := false } "PAKE timeout"
    exact .inr ⟨failed.marks, failed.settled⟩
  | disconnect => exact absurd rfl callback

theorem handle_disconnect (parse : Bytes → Option SessionMessage) (opts : ConnectOpts) (s : Connect prim) :
    (s.handle parse opts .disconnect).2.filterMap Output.mark = [] ∧
      (s.handle parse opts .disconnect).1.settled = true := by
  simp only [handle, disconnect, cleanup, settled_closeWs, and_true]
  split
  · exact send_marks _ _
  · rfl

/-- An event that resolves the promise finds it pending and fails not at all. -/
theorem resolves_pending {e : Event prim} (live : s.resolves parse e = true) :
    s.settled = false ∧ s.failures parse e = [] := by
  cases e with
  | channelMessage data sendFails =>
    simp only [resolves] at live
    cases hc : s.confirming parse data sendFails with
    | none => simp [hc] at live
    | some key =>
      simp only [hc, Bool.and_eq_true, Bool.not_eq_true', List.isEmpty_iff] at live
      have early : s.phase ≠ .media := by
        intro media
        simp [confirming, media] at hc
      refine ⟨live.1.2, ?_⟩
      simp only [failures, if_neg early, hc, live.1.1, live.2, if_true]
  | _ => cases live

end Connect

/-! ## Runs -/

/-- The state of the attempt and what its caller has seen. -/
abbrev Attempt (prim : Primitives) := Connect prim × List Mark

/-- What a step shows the caller. -/
def record (parse : Bytes → Option SessionMessage) (opts : ConnectOpts) {prim : Primitives} (s : Connect prim)
    (e : Event prim) (seen : List Mark) : List Mark :=
  seen ++ (match e with
    | .disconnect => [.disconnected]
    | _ => []) ++ (s.handle parse opts e).2.filterMap Output.mark

/-- A callback runs only while its object is there, the timer only while it is
armed, and `disconnect` needs the handle the promise resolves to. -/
def admits {prim : Primitives} (p : Attempt prim) : Event prim → Prop
  | .timeout => p.1.timer = true
  | .answer _ => p.1.pc = true
  | .iceCandidate _ => p.1.pc = true
  | .connectionState _ => p.1.pc = true
  | .dataChannel => p.1.pc = true
  | .channelOpen .. => p.1.channel = true
  | .channelMessage .. => p.1.channel = true
  | .channelClose => p.1.channel = true
  | .disconnect => .resolved ∈ p.2
  | _ => True

def webConnect (prim : Primitives) (parse : Bytes → Option SessionMessage) (opts : ConnectOpts) :
    System (Attempt prim) (Event prim) where
  init p := p = ({}, [])
  enabled := admits
  step p e := ((p.1.handle parse opts e).1, record parse opts p.1 e p.2)

/-- The contract of `onClose`: it is called once at most, after the promise was
resolved, and not after `disconnect()`. -/
def Contract (seen : List Mark) : Prop :=
  ∀ before msg after, seen = before ++ .closed msg :: after →
    .resolved ∈ before ∧ .disconnected ∉ before ∧ ∀ msg', .closed msg' ∉ before

/-- An event calls `fail` once at most, and only where the caller has seen nothing,
or just a promise that resolved. -/
def FailsOnce (parse : Bytes → Option SessionMessage) {prim : Primitives} (p : Attempt prim) (e : Event prim) : Prop :=
  (p.1.failures parse e).length ≤ 1 ∧ (p.1.failures parse e ≠ [] → ∀ m ∈ p.2, m = .resolved)

theorem contract_snoc {seen : List Mark} {m : Mark} : Contract (seen ++ [m]) ↔ Contract seen ∧
    ∀ msg, m = .closed msg → .resolved ∈ seen ∧ .disconnected ∉ seen ∧ ∀ msg', .closed msg' ∉ seen := by
  constructor
  · intro h
    constructor
    · rintro before msg after rfl
      exact h before msg (after ++ [m]) (by simp)
    · rintro msg rfl
      exact h seen msg [] rfl
  · rintro ⟨h, last⟩ before msg after heq
    rcases List.eq_nil_or_concat after with rfl | ⟨after, x, rfl⟩
    · obtain ⟨rfl, hm⟩ := List.append_inj' heq rfl
      exact last msg (List.singleton_inj.1 hm)
    · rw [List.concat_eq_append, ← List.cons_append, ← List.append_assoc] at heq
      exact h before msg after (List.append_inj' heq rfl).1

/-- What the flag says about what the caller has seen. -/
structure Seen {prim : Primitives} (p : Attempt prim) : Prop where
  settled : p.1.settled = true ↔ .resolved ∈ p.2 ∨ ∃ msg, .rejected msg ∈ p.2
  exclusive : ∀ msg, .rejected msg ∈ p.2 → .resolved ∉ p.2
  disconnected : .disconnected ∈ p.2 → .resolved ∈ p.2


section Steps

variable {prim : Primitives} {parse : Bytes → Option SessionMessage} {opts : ConnectOpts} {p : Attempt prim}
  {e : Event prim}

theorem record_callback (callback : e ≠ .disconnect) :
    record parse opts p.1 e p.2 = p.2 ++ (p.1.handle parse opts e).2.filterMap Output.mark := by
  cases e with
  | disconnect => exact absurd rfl callback
  | _ => simp [record]

theorem record_disconnect : record parse opts p.1 .disconnect p.2 = p.2 ++ [.disconnected] := by
  simp [record, (Connect.handle_disconnect parse opts p.1).1]

theorem mem_failMarks_rejected {settled : Bool} {msgs : List String} {msg : String}
    (mem : .rejected msg ∈ failMarks settled msgs) : settled = false := by
  cases msgs with
  | nil => cases mem
  | cons m msgs =>
    cases settled
    · rfl
    · simp [failMarks] at mem

theorem not_mem_failMarks {settled : Bool} {msgs : List String} {m : Mark} (seen : m = .resolved ∨ m = .disconnected) :
    m ∉ failMarks settled msgs := by
  cases msgs with
  | nil => exact List.not_mem_nil
  | cons msg msgs => rcases seen with rfl | rfl <;> cases settled <;> simp [failMarks]

theorem Seen.step (seen : Seen p) (he : admits p e) :
    Seen ((p.1.handle parse opts e).1, record parse opts p.1 e p.2) := by
  by_cases callback : e = .disconnect
  · subst callback
    have live : Mark.resolved ∈ p.2 := he
    rw [record_disconnect]
    refine ⟨iff_of_true (Connect.handle_disconnect parse opts p.1).2 (.inl (List.mem_append_left _ live)), ?_, ?_⟩
    · intro msg mem
      rcases List.mem_append.1 mem with mem | mem
      · exact absurd live (seen.exclusive msg mem)
      · simp at mem
    · exact fun _ => List.mem_append_left _ live
  · rw [record_callback callback]
    rcases Connect.handle_marks parse opts p.1 callback with ⟨live, marks, settled⟩ | fails
    · have pending : ¬ (Mark.resolved ∈ p.2 ∨ ∃ msg, Mark.rejected msg ∈ p.2) := by
        rw [← seen.settled, (Connect.resolves_pending live).1]
        exact Bool.false_ne_true
      rw [not_or, not_exists] at pending
      rw [marks]
      refine ⟨iff_of_true settled (.inl (by simp)), ?_, ?_⟩
      · intro msg mem
        rcases List.mem_append.1 mem with mem | mem
        · exact absurd mem (pending.2 msg)
        · simp at mem
      · exact fun _ => by simp
    · obtain ⟨marks, settled⟩ := fails
      rw [marks]
      have resolved_iff : Mark.resolved ∈ p.2 ++ failMarks p.1.settled (p.1.failures parse e) ↔ .resolved ∈ p.2 := by
        rw [List.mem_append, or_iff_left (not_mem_failMarks (.inl rfl))]
      refine ⟨?_, ?_, ?_⟩
      · rw [resolved_iff, settled]
        cases hs : p.1.settled with
        | true =>
          refine iff_of_true rfl ((seen.settled.1 hs).imp_right ?_)
          rintro ⟨msg, mem⟩
          exact ⟨msg, List.mem_append_left _ mem⟩
        | false =>
          have pending : ¬ (Mark.resolved ∈ p.2 ∨ ∃ msg, Mark.rejected msg ∈ p.2) := by
            rw [← seen.settled, hs]
            exact Bool.false_ne_true
          rw [not_or, not_exists] at pending
          cases hf : p.1.failures parse e with
          | nil => simpa [failMarks] using pending
          | cons msg msgs => simp [failMarks]
      · intro msg mem
        rw [resolved_iff]
        rcases List.mem_append.1 mem with mem | mem
        · exact seen.exclusive msg mem
        · intro live
          have := seen.settled.2 (.inl live)
          rw [mem_failMarks_rejected mem] at this
          cases this
      · intro mem
        rw [resolved_iff]
        rcases List.mem_append.1 mem with mem | mem
        · exact seen.disconnected mem
        · exact absurd mem (not_mem_failMarks (.inr rfl))

theorem Contract.of_append {seen : List Mark} (rest : List Mark) (h : Contract (seen ++ rest)) : Contract seen := by
  rintro before msg after rfl
  exact h before msg (after ++ rest) (by simp)

/-- Of several failures in a row the second breaks the contract. -/
theorem not_contract_of_two (seen : Seen p) (msg msg' : String) (msgs : List String) :
    ¬ Contract (p.2 ++ failMarks p.1.settled (msg :: msg' :: msgs)) := by
  intro kept
  have two : Contract (p.2 ++ [if p.1.settled then .closed msg else .rejected msg] ++ [.closed msg']) := by
    refine Contract.of_append (msgs.map .closed) ?_
    simpa [failMarks] using kept
  obtain ⟨live, -, once⟩ := (contract_snoc.1 two).2 msg' rfl
  cases hs : p.1.settled with
  | true => exact once msg (by simp [hs])
  | false =>
    have := seen.settled.2 (.inl (by simpa [hs] using live))
    rw [hs] at this
    cases this

/-- A step keeps the contract exactly if it fails once at most, and in turn. -/
theorem contract_step (seen : Seen p) (kept : Contract p.2) :
    Contract (record parse opts p.1 e p.2) ↔ FailsOnce parse p e := by
  by_cases callback : e = .disconnect
  · subst callback
    rw [record_disconnect, contract_snoc]
    exact iff_of_true ⟨kept, fun _ h => by cases h⟩ ⟨Nat.zero_le 1, fun h => absurd rfl h⟩
  rw [record_callback callback]
  rcases Connect.handle_marks parse opts p.1 callback with ⟨live, marks, -⟩ | fails
  · rw [marks, contract_snoc]
    unfold FailsOnce
    rw [(Connect.resolves_pending live).2]
    exact iff_of_true ⟨kept, fun _ h => by cases h⟩ ⟨Nat.zero_le 1, fun h => absurd rfl h⟩
  · rw [fails.marks]
    unfold FailsOnce
    match hf : p.1.failures parse e with
    | [] =>
      simp only [failMarks, List.append_nil]
      exact iff_of_true kept ⟨Nat.zero_le 1, fun h => absurd rfl h⟩
    | [msg] =>
      simp only [failMarks, List.map_nil, List.length_singleton, Nat.le_refl, true_and, ne_eq, List.cons_ne_nil,
        not_false_eq_true, forall_const, contract_snoc, kept]
      cases hs : p.1.settled with
      | false =>
        -- a pending attempt, whose caller has seen nothing
        have pending : ¬ (Mark.resolved ∈ p.2 ∨ ∃ msg, Mark.rejected msg ∈ p.2) := by
          rw [← seen.settled, hs]
          exact Bool.false_ne_true
        rw [not_or, not_exists] at pending
        refine iff_of_true (fun _ h => by cases h) fun m mem => ?_
        cases m with
        | resolved => rfl
        | rejected msg => exact absurd mem (pending.2 msg)
        | disconnected => exact absurd (seen.disconnected mem) pending.1
        | closed msg =>
          obtain ⟨before, after, heq⟩ := List.append_of_mem mem
          have live := (kept before msg after heq).1
          exact absurd (heq ▸ List.mem_append_left _ live) pending.1
      | true =>
        constructor
        · intro may m mem
          obtain ⟨live, calm, once⟩ := may msg rfl
          cases m with
          | resolved => rfl
          | rejected msg' => exact absurd live (seen.exclusive msg' mem)
          | disconnected => exact absurd mem calm
          | closed msg' => exact absurd mem (once msg')
        · intro only msg' _
          refine ⟨?_, fun mem => absurd (only _ mem) (by simp), fun msg'' mem => absurd (only _ mem) (by simp)⟩
          rcases seen.settled.1 hs with live | ⟨msg'', mem⟩
          · exact live
          · exact absurd (only _ mem) (by simp)
    | msg :: msg' :: msgs =>
      refine iff_of_false (not_contract_of_two seen msg msg' msgs) ?_
      rintro ⟨one, -⟩
      simp at one

end Steps

/-- In the runs that call `fail` once at most, and not after `disconnect()`, and in
no others, `onClose` keeps its contract. -/
theorem onClose_contract_iff (prim : Primitives) (parse : Bytes → Option SessionMessage) (opts : ConnectOpts)
    {es : List (Event prim)} (hv : (webConnect prim parse opts).Valid ({}, []) es) :
    (webConnect prim parse opts).AllStates (fun p => Contract p.2) ({}, []) es ↔
      (webConnect prim parse opts).AllSteps (FailsOnce parse) ({}, []) es := by
  have start : (webConnect prim parse opts).Reachable ({}, []) := .init rfl
  refine System.allStates_iff_allSteps (fun p e reach _ kept => ?_) start ?_ hv
  · have seen : Seen p := by
      refine reach.invariant (fun p hp => ?_) fun p e _ seen he => seen.step he
      obtain rfl : p = ({}, []) := hp
      refine ⟨by simp, fun _ h => ?_, fun h => ?_⟩ <;> cases h
    exact contract_step seen kept
  · intro before msg after heq
    simp at heq

/-! ## A rejected attempt -/

def sampleOpts : ConnectOpts where
  deviceId := "111111111"
  clientSecret := "abc"
  password := "pw"
  passwordKind := .permanent
  targetId := "222222222"

/-- The timer is still armed when the promise is rejected. -/
theorem timer_closes_rejected_attempt :
    ∃ es, (webConnect samplePrimitives (fun _ => none) sampleOpts).Valid ({}, []) es ∧
      ¬ (webConnect samplePrimitives (fun _ => none) sampleOpts).AllStates (fun p => Contract p.2) ({}, []) es := by
  refine ⟨[.wsOpen, .wsMessage .registerOk, .wsMessage (.connectErr (some "offline")), .timeout],
    ⟨trivial, trivial, trivial, rfl, trivial⟩, fun kept => ?_⟩
  have live := (kept.last [.rejected "connect: offline"] "PAKE timeout" [] (by decide)).1
  simp at live

instance (parse : Bytes → Option SessionMessage) {prim : Primitives} (p : Attempt prim) (e : Event prim) :
    Decidable (FailsOnce parse p e) :=
  inferInstanceAs (Decidable ((p.1.failures parse e).length ≤ 1 ∧
    (p.1.failures parse e ≠ [] → ∀ m ∈ p.2, m = .resolved)))

/-- Without the timer the attempt ends with the rejection. -/
theorem contract_kept_when_offline :
    (webConnect samplePrimitives (fun _ => none) sampleOpts).AllStates (fun p => Contract p.2) ({}, [])
      [.wsOpen, .wsMessage .registerOk, .wsMessage (.connectErr (some "offline")), .wsClose] :=
  (onClose_contract_iff samplePrimitives (fun _ => none) sampleOpts
    (by exact ⟨trivial, trivial, trivial, trivial, trivial⟩)).2 (by decide)

end ZortilWatch.Ui
