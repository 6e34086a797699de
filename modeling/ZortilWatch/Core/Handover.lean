import ZortilWatch.Core.Session
import ZortilWatch.Core.Stream
import ZortilWatch.Core.StreamLoop

/-!
# From the handshake to the stream loop

`drive_until_confirmed` of `core/src/connection.rs` and the service's copy of it
(`service/src/main.rs`), each with the stream loop behind it. str0m keeps the
events of the channel in order and has new ones only after `recv_one` fed it a
packet, so the ways a packet can be fed are the ways the peer's messages can be
cut into inboxes.
-/

namespace ZortilWatch.Core

/-! ## The channel -/

abbrev ChannelId := Nat

/-- Events of the channel that `poll_output` yields. -/
inductive ChannelEvent where
  | channelOpen (id : ChannelId)
  | channelData (data : Bytes)
  deriving DecidableEq

def ChannelEvent.data? : ChannelEvent → Option Bytes
  | .channelOpen _ => none
  | .channelData d => some d

/-- The messages among the events. -/
def dataOf (events : List ChannelEvent) : List Bytes := events.filterMap ChannelEvent.data?

/-- The channel and what a loop has taken from it. -/
structure Link where
  /-- Fed by packets and not yet yielded. -/
  ready : List ChannelEvent := []
  chan : Option ChannelId := none
  inbox : List Bytes := []

namespace Link

def poll (l : Link) : ChannelEvent → Link
  | .channelOpen id => { l with chan := some id }
  | .channelData d => { l with inbox := l.inbox ++ [d] }

/-- Take every event that is ready. -/
def drain (l : Link) : Link := l.ready.foldl poll { l with ready := [] }

def recvOne (l : Link) (packet : List ChannelEvent) : Link := { l with ready := l.ready ++ packet }

end Link

/-! ## The handshake on the channel -/

def Handshake.isFailed {prim : Primitives} (h : Handshake prim) : Bool :=
  match h.state with
  | .failed => true
  | _ => false

/-- The variables of `drive_until_confirmed`. -/
structure Drive (prim : Primitives) where
  link : Link := {}
  hs : Option (Handshake prim) := none
  deferred : List Bytes := []
  /-- What `write_session` has written. -/
  written : List (ChannelId × SessionMessage) := []

/-- What one pass of the loop meets. -/
structure Pass (prim : Primitives) where
  rng : prim.Rng
  timedOut : Bool := false
  /-- The first `drain` of the pass. -/
  drained : Bool := true
  packet : List ChannelEvent := []
  /-- `handle_input(Input::Timeout(..))` -/
  timeoutError : Option String := none

/-- A confirmed session. The events that are ready stay in its `rtc`. -/
structure Established where
  key : Bytes32
  chan : ChannelId
  ready : List ChannelEvent

/-- Who runs the loop: the controller, the host of `core`, the host of the service. -/
inductive Side where
  | controller
  | managed
  | service
  deriving DecidableEq

section Driving

variable {prim : Primitives} (parse : Bytes → Option SessionMessage)

namespace Drive

/-- Hand a message to the handshake, write the answer. -/
def answer (s : Drive prim) (h : Handshake prim) (cid : ChannelId) (m : SessionMessage) : Drive prim :=
  match h.onMessage m with
  | (h', some resp) => { s with hs := some h', written := s.written ++ [(cid, resp)], link := s.link.drain }
  | (h', none) => { s with hs := some h' }

/-- One message of the inbox. The service has no `deferred`, what is no handshake
message is gone there. -/
def onRaw (side : Side) (s : Drive prim) (raw : Bytes) : Drive prim :=
  match side with
  | .controller | .managed =>
    match parse raw with
    | some m =>
      match s.hs, s.link.chan with
      | some h, some cid => s.answer h cid m
      | _, _ => s
    | none => { s with deferred := s.deferred ++ [raw] }
  | .service =>
    match s.hs, s.link.chan with
    | some h, some cid =>
      match parse raw with
      | some m => s.answer h cid m
      | none => s
    | _, _ => s

/-- Take the inbox and go through it. -/
def handleInbox (side : Side) (s : Drive prim) : Drive prim :=
  s.link.inbox.foldl (onRaw parse side) { s with link := { s.link with inbox := [] } }

/-- The head of the loop: a result ends it. The service stops where it has no channel. -/
def head (side : Side) (s : Drive prim) : Option (Except String (Established × List Bytes)) :=
  match s.hs with
  | none => none
  | some h =>
    match h.confirmedKey with
    | some key =>
      match s.link.chan with
      | some chan => some (.ok ({ key := key, chan := chan, ready := s.link.ready }, s.deferred))
      | none => some (.error (if side = .service then "chan" else "no channel"))
    | none =>
      if h.isFailed then
        some (.error (if side = .service then "PAKE FAILED"
          else "session handshake FAILED (wrong password or MITM)"))
      else none

variable (password : Bytes) (ownFp peerFp : String)

/-- Start the handshake once the channel is open. -/
def begin (s : Drive prim) (rng : prim.Rng) : Drive prim :=
  match s.hs, s.link.chan with
  | none, some cid =>
    match Handshake.start password ownFp peerFp rng with
    | (h, msg) => { s with hs := some h, written := s.written ++ [(cid, msg)], link := s.link.drain }
  | _, _ => s

/-- One pass of the loop behind its head. The service does not ask whether a
`drain` failed. -/
def pass (side : Side) (s : Drive prim) (p : Pass prim) : Except String (Drive prim) :=
  if p.timedOut then .error "session establish timeout"
  else if !p.drained && side != .service then .error "connection lost during handshake"
  else
    let s := begin password ownFp peerFp { s with link := s.link.drain } p.rng
    let s := s.handleInbox parse side
    match p.timeoutError with
    | some e => .error e
    | none => .ok { s with link := s.link.recvOne p.packet }

end Drive

variable (password : Bytes) (ownFp peerFp : String)

/-- The loop over the passes given, with those it had no use for; `none` while it
runs on. -/
def driveUntilConfirmed (side : Side) :
    Drive prim → List (Pass prim) → Option (Except String (Established × List Bytes) × List (Pass prim))
  | s, [] => (s.head side).map fun r => (r, [])
  | s, p :: ps =>
    match s.head side with
    | some r => some (r, p :: ps)
    | none =>
      match s.pass parse password ownFp peerFp side p with
      | .error e => some (.error e, ps)
      | .ok s' => driveUntilConfirmed side s' ps

end Driving

/-! ## The stream loop on the channel -/

/-- What one turn of `controller_loop` meets. -/
structure ControllerTurn where
  stop : Bool := false
  alive : Bool := true
  /-- The first `drain` of the turn. -/
  drained : Bool := true
  /-- The message whose frame finds the receiver gone. -/
  receiverGone : Option Nat := none
  drainedAfter : Bool := true

/-- Which messages of an inbox `controller_loop` handles, and whether it goes on. -/
def controllerTurn (handled : List Bytes) (t : ControllerTurn) (inbox : List Bytes) : List Bytes × Bool :=
  if t.stop || !t.alive || !t.drained then (handled, false)
  else
    match t.receiverGone with
    | some n => ((inbox.take n).foldl keep handled, false)
    | none => (inbox.foldl keep handled, !inbox.contains SESSION_BYE && t.drainedAfter)

namespace Side

def Turn : Side → Type
  | .controller => ControllerTurn
  | .managed => ManagedTurn Bytes
  | .service => ServiceTurn Bytes

/-- One turn of a side's stream loop on an inbox. -/
def turn : (side : Side) → List Bytes → side.Turn → List Bytes → List Bytes × Bool
  | .controller, handled, t, inbox => controllerTurn handled t inbox
  | .managed, handled, t, inbox =>
    let r := managedTurn (· == SESSION_BYE) keep handled { (t : ManagedTurn Bytes) with inbox := inbox }
    (r.1, r.2.isNone)
  | .service, handled, t, inbox =>
    let r := serviceTurn (· == SESSION_BYE) keep handled { (t : ServiceTurn Bytes) with inbox := inbox }
    (r.1, r.2.isNone)

/-- The turn gets through its inbox. -/
def takes : (side : Side) → side.Turn → Bool
  | .controller, t => let t : ControllerTurn := t; !t.stop && t.alive && t.drained && t.receiverGone.isNone
  | .managed, t => let t : ManagedTurn Bytes := t; !t.stop && t.alive && t.drained && !t.encoderFails
  | .service, t => let t : ServiceTurn Bytes := t; t.alive

end Side

/-- A stream loop with its channel and the messages it has handled. -/
structure Streaming where
  link : Link
  handled : List Bytes := []

/-- The stream loop begins with the deferred messages as its inbox, the service's with none. -/
def Streaming.begin (side : Side) (est : Established) (deferred : List Bytes) : Streaming where
  link := { ready := est.ready, chan := some est.chan, inbox := if side = .service then [] else deferred }

/-- A turn on the channel: drain, handle the inbox, drain, wait for a packet. -/
def Streaming.step (side : Side) (s : Streaming) (t : side.Turn × List ChannelEvent) : Streaming × Bool :=
  let link := s.link.drain
  let r := side.turn s.handled t.1 link.inbox
  ({ link := (Link.drain { link with inbox := [] }).recvOne t.2, handled := r.1 }, r.2)

/-- The loop at the head of the turn behind the turns given, if it gets there. -/
def Streaming.after (side : Side) : Streaming → List (side.Turn × List ChannelEvent) → Option Streaming
  | s, [] => some s
  | s, t :: ts =>
    match s.step side t with
    | (s', true) => after side s' ts
    | (_, false) => none

/-! ## Draining -/

theorem dataOf_append (es fs : List ChannelEvent) : dataOf (es ++ fs) = dataOf es ++ dataOf fs :=
  List.filterMap_append

namespace Link

theorem foldl_poll (l : Link) (es : List ChannelEvent) :
    (es.foldl poll l).ready = l.ready ∧ (es.foldl poll l).inbox = l.inbox ++ dataOf es := by
  induction es generalizing l with
  | nil => exact ⟨rfl, (List.append_nil _).symm⟩
  | cons e es ih =>
    obtain ⟨ready, inbox⟩ := ih (l.poll e)
    rw [List.foldl_cons, ready, inbox]
    cases e with
    | channelOpen id => exact ⟨rfl, rfl⟩
    | channelData d => exact ⟨rfl, List.append_assoc _ _ _⟩

@[simp] theorem drain_ready (l : Link) : l.drain.ready = [] := (foldl_poll _ _).1

@[simp] theorem drain_inbox (l : Link) : l.drain.inbox = l.inbox ++ dataOf l.ready := (foldl_poll _ _).2

end Link

/-! ## What a pass does -/

/-- How far the handshake is: the messages of the peer it has had. -/
def progress {prim : Primitives} (hs : Option (Handshake prim)) : Nat :=
  match hs with
  | none => 0
  | some h =>
    match h.state with
    | .awaitingBinding _ _ => 1
    | .confirmed _ => 2
    | _ => 0

section Passes

variable {prim : Primitives} (parse : Bytes → Option SessionMessage)

/-- Handshake messages among the messages of the peer. -/
def countHandshakes (raws : List Bytes) : Nat := raws.countP fun raw => (parse raw).isSome

/-- What the copies of the loop keep of the messages they have drained. -/
def leftover (side : Side) (raws : List Bytes) : List Bytes :=
  if side = .service then [] else raws.filter fun raw => (parse raw).isNone

theorem countHandshakes_append (xs ys : List Bytes) :
    countHandshakes parse (xs ++ ys) = countHandshakes parse xs + countHandshakes parse ys := List.countP_append

theorem leftover_append (side : Side) (xs ys : List Bytes) :
    leftover parse side (xs ++ ys) = leftover parse side xs ++ leftover parse side ys := by
  unfold leftover
  split
  · rfl
  · exact List.filter_append _ _

/-- A message brings the handshake no more than one message further. -/
theorem progress_onMessage (h : Handshake prim) (m : SessionMessage) :
    progress (some (h.onMessage m).1) ≤ progress (some h) + 1 := by
  obtain ⟨pake, _, key, before, -, -, after⟩ | ⟨key, tag, before, -, after⟩ | ⟨after, -⟩ := h.onMessage_cases m
  all_goals simp [progress, after]
  simp [before]

namespace Drive

variable {s s' : Drive prim}

/-- Between the messages of an inbox there is nothing more to drain. -/
structure Quiet (s : Drive prim) : Prop where
  ready : s.link.ready = []
  inbox : s.link.inbox = []

theorem answer_spec (q : s.Quiet) {h : Handshake prim} (hs : s.hs = some h) (cid : ChannelId) (m : SessionMessage) :
    (s.answer h cid m).Quiet ∧ (s.answer h cid m).deferred = s.deferred ∧
      progress (s.answer h cid m).hs ≤ progress s.hs + 1 := by
  have further := progress_onMessage h m
  rw [hs]
  unfold answer
  split
  · rename_i h' resp hm
    rw [hm] at further
    exact ⟨⟨Link.drain_ready _, by simp [q.inbox, q.ready, dataOf]⟩, rfl, further⟩
  · rename_i h' hm
    rw [hm] at further
    exact ⟨⟨q.ready, q.inbox⟩, rfl, further⟩

variable (side : Side)

theorem onRaw_spec (q : s.Quiet) (raw : Bytes) :
    (s.onRaw parse side raw).Quiet ∧ (s.onRaw parse side raw).deferred = s.deferred ++ leftover parse side [raw] ∧
      progress (s.onRaw parse side raw).hs ≤ progress s.hs + countHandshakes parse [raw] := by
  have same : s.Quiet ∧ s.deferred = s.deferred ++ [] ∧ progress s.hs ≤ progress s.hs + countHandshakes parse [raw] :=
    ⟨q, (List.append_nil _).symm, Nat.le_add_right _ _⟩
  cases hp : parse raw with
  | none =>
    cases side with
    | controller | managed => simpa [onRaw, hp, leftover, countHandshakes] using ⟨q.ready, q.inbox⟩
    | service =>
      simp only [onRaw, hp, leftover, if_true]
      split <;> exact same
  | some m =>
    have kept : leftover parse side [raw] = [] := by simp [leftover, hp]
    have one : countHandshakes parse [raw] = 1 := by simp [countHandshakes, hp]
    have taken : s.onRaw parse side raw = s ∨
        ∃ h cid, s.hs = some h ∧ s.onRaw parse side raw = s.answer h cid m := by
      cases side <;> simp only [onRaw, hp] <;> split
      all_goals first
        | exact .inl rfl
        | exact .inr ⟨_, _, by assumption, rfl⟩
    rw [kept]
    obtain h | ⟨h, cid, hs, eq⟩ := taken
    · rw [h]
      exact same
    · obtain ⟨quiet, deferred, further⟩ := answer_spec q hs cid m
      rw [eq, deferred, List.append_nil, one]
      exact ⟨quiet, rfl, further⟩

theorem foldl_onRaw_spec (q : s.Quiet) (raws : List Bytes) :
    (raws.foldl (onRaw parse side) s).Quiet ∧
      (raws.foldl (onRaw parse side) s).deferred = s.deferred ++ leftover parse side raws ∧
      progress (raws.foldl (onRaw parse side) s).hs ≤ progress s.hs + countHandshakes parse raws := by
  induction raws generalizing s with
  | nil => exact ⟨q, by simp [leftover], Nat.le_add_right _ _⟩
  | cons raw raws ih =>
    obtain ⟨quiet, deferred, further⟩ := onRaw_spec parse side q raw
    obtain ⟨quiet', deferred', further'⟩ := ih quiet
    refine ⟨quiet', ?_, ?_⟩
    · rw [List.foldl_cons, deferred', deferred, List.append_assoc, ← leftover_append, List.singleton_append]
    · have split := countHandshakes_append parse [raw] raws
      rw [List.singleton_append] at split
      rw [split]
      exact further'.trans (by omega)

theorem begin_spec (password : Bytes) (ownFp peerFp : String) (ready : s.link.ready = []) (rng : prim.Rng) :
    (s.begin password ownFp peerFp rng).link.ready = [] ∧
      (s.begin password ownFp peerFp rng).link.inbox = s.link.inbox ∧
      (s.begin password ownFp peerFp rng).deferred = s.deferred ∧
      progress (s.begin password ownFp peerFp rng).hs = progress s.hs := by
  unfold begin
  split
  · rename_i hs _
    exact ⟨Link.drain_ready _, by simp [ready, dataOf], rfl, by rw [hs]; rfl⟩
  · exact ⟨ready, rfl, rfl, rfl⟩

theorem handleInbox_spec (ready : s.link.ready = []) :
    (s.handleInbox parse side).Quiet ∧
      (s.handleInbox parse side).deferred = s.deferred ++ leftover parse side s.link.inbox ∧
      progress (s.handleInbox parse side).hs ≤ progress s.hs + countHandshakes parse s.link.inbox :=
  foldl_onRaw_spec parse side (s := { s with link := { s.link with inbox := [] } }) ⟨ready, rfl⟩ s.link.inbox

variable {parse} {side} {password : Bytes} {ownFp peerFp : String}

/-- A pass takes what was ready and leaves what its packet brings. -/
theorem pass_spec (inbox : s.link.inbox = []) {p : Pass prim}
    (ok : s.pass parse password ownFp peerFp side p = .ok s') :
    s'.link.inbox = [] ∧ s'.link.ready = p.packet ∧
      s'.deferred = s.deferred ++ leftover parse side (dataOf s.link.ready) ∧
      progress s'.hs ≤ progress s.hs + countHandshakes parse (dataOf s.link.ready) := by
  obtain ⟨ready, raws, deferred, started⟩ := begin_spec (s := { s with link := s.link.drain })
    password ownFp peerFp (Link.drain_ready _) p.rng
  obtain ⟨quiet, kept, further⟩ := handleInbox_spec parse side ready
  rw [raws, Link.drain_inbox, inbox, List.nil_append] at kept further
  rw [deferred] at kept
  rw [started] at further
  unfold pass at ok
  split_ifs at ok
  simp only at ok
  split at ok
  · cases ok
  · cases ok
    exact ⟨quiet.inbox, by simp [Link.recvOne, quiet.ready], kept, further⟩

/-- A confirmed handshake has had two messages, and the loop returns at once. -/
theorem head_eq_ok {est : Established} {deferred : List Bytes} (h : s.head side = some (.ok (est, deferred))) :
    progress s.hs = 2 ∧ est.ready = s.link.ready ∧ deferred = s.deferred := by
  unfold head at h
  split at h
  · cases h
  · rename_i hand hs
    split at h
    · rename_i key confirmed
      split at h <;> cases h
      exact ⟨by simp [progress, hs, Handshake.confirmedKey_eq_some.1 confirmed], rfl, rfl⟩
    · split_ifs at h <;> cases h

theorem progress_of_head (h : s.head side = none) : progress s.hs < 2 := by
  unfold head at h
  split at h
  · rename_i hs
    simp [progress, hs]
  · rename_i hand hs
    split at h
    · split at h <;> cases h
    · rename_i unconfirmed
      simp only [progress, hs]
      split
      · decide
      · rename_i key confirmed
        rw [Handshake.confirmedKey_eq_some.2 confirmed] at unconfirmed
        cases unconfirmed
      · decide

end Drive

/-! ## What the passes leave -/

variable {parse}

/-- The messages the packets of the passes bring. -/
def arrived (ps : List (Pass prim)) : List Bytes := dataOf (ps.flatMap (·.packet))

theorem arrived_append (ps qs : List (Pass prim)) : arrived (ps ++ qs) = arrived ps ++ arrived qs := by
  rw [arrived, List.flatMap_append, dataOf_append, arrived, arrived]

@[simp] theorem arrived_single (p : Pass prim) : arrived [p] = dataOf p.packet := by simp [arrived]

theorem flatten_batches (ps : List (Pass prim)) : (ps.map fun p => dataOf p.packet).flatten = arrived ps := by
  induction ps with
  | nil => rfl
  | cons p ps ih => rw [List.map_cons, List.flatten_cons, ih, ← arrived_single, ← arrived_append, List.singleton_append]

variable (parse) (password : Bytes) (ownFp peerFp : String) (side : Side)

/-- The head of the loop behind passes none of which ended it. -/
inductive Passed : List (Pass prim) → Drive prim → Prop where
  | start : Passed [] {}
  | pass {ps : List (Pass prim)} {s s' : Drive prim} {p : Pass prim} : Passed ps s → s.head side = none →
      s.pass parse password ownFp peerFp side p = .ok s' → Passed (ps ++ [p]) s'

variable {parse password ownFp peerFp side} {ps : List (Pass prim)} {s : Drive prim}

theorem Passed.returns (h : Passed parse password ownFp peerFp side ps s) {qs : List (Pass prim)}
    {r : Established × List Bytes}
    (ended : driveUntilConfirmed parse password ownFp peerFp side s qs = some (.ok r, [])) :
    ∃ s', Passed parse password ownFp peerFp side (ps ++ qs) s' ∧ s'.head side = some (.ok r) := by
  induction qs generalizing ps s with
  | nil =>
    obtain ⟨_, head, eq⟩ := Option.map_eq_some_iff.1 ended
    cases eq
    exact ⟨s, by rwa [List.append_nil], head⟩
  | cons q qs ih =>
    unfold driveUntilConfirmed at ended
    split at ended
    · cases ended
    · rename_i head
      split at ended
      · cases ended
      · rename_i s' ok
        have next := ih (h.pass head ok) ended
        rwa [List.append_assoc, List.singleton_append] at next

/-- Behind a pass all that had arrived before it is drained. -/
structure Passed.Drained (parse : Bytes → Option SessionMessage) (side : Side) (ps : List (Pass prim))
    (s : Drive prim) : Prop where
  inbox : s.link.inbox = []
  ready : arrived ps.dropLast ++ dataOf s.link.ready = arrived ps
  deferred : s.deferred = leftover parse side (arrived ps.dropLast)
  further : progress s.hs ≤ countHandshakes parse (arrived ps.dropLast)

theorem Passed.drained (h : Passed parse password ownFp peerFp side ps s) : Passed.Drained parse side ps s := by
  induction h with
  | start => exact ⟨rfl, rfl, by simp [leftover, arrived, dataOf], Nat.zero_le _⟩
  | pass _ _ ok ih =>
    obtain ⟨inbox, ready, deferred, further⟩ := Drive.pass_spec ih.inbox ok
    refine ⟨inbox, ?_, ?_, ?_⟩
    · rw [List.dropLast_concat, ready, arrived_append, arrived_single]
    · rw [List.dropLast_concat, deferred, ih.deferred, ← leftover_append, ih.ready]
    · rw [List.dropLast_concat, ← ih.ready, countHandshakes_append]
      exact further.trans (Nat.add_le_add_right ih.further _)

end Passes

/-! ## What the stream loop takes up -/

section Streaming

variable {side : Side} {handled inbox : List Bytes} {s s' : Streaming}

theorem Side.turn_takes {t : side.Turn} (h : side.takes t = true) :
    (side.turn handled t inbox).1 = handled ++ inbox := by
  cases side with
  | controller =>
    simp only [Side.takes, Bool.and_eq_true, Bool.not_eq_true', Option.isNone_iff_eq_none] at h
    simp [Side.turn, controllerTurn, h, foldl_keep]
  | managed =>
    simp only [Side.takes, Bool.and_eq_true, Bool.not_eq_true'] at h
    simp only [Side.turn, managedTurn, h]
    split_ifs <;> simp_all [foldl_keep]
  | service =>
    simp only [Side.takes] at h
    simp only [Side.turn, serviceTurn, h]
    split_ifs <;> simp_all [foldl_keep]

/-- A loop that goes on has been through the inbox. -/
theorem Side.takes_of_turn {t : side.Turn} (h : (side.turn handled t inbox).2 = true) : side.takes t = true := by
  cases side with
  | controller =>
    simp only [Side.turn, controllerTurn] at h
    split_ifs at h
    split at h
    · cases h
    · simp_all [Side.takes]
  | managed =>
    simp only [Side.turn, managedTurn] at h
    split_ifs at h <;> simp_all [Side.takes]
  | service =>
    simp only [Side.turn, serviceTurn] at h
    split_ifs at h <;> simp_all [Side.takes]

/-- What the loop has handled and what is on its way to it. -/
def Streaming.seen (s : Streaming) : List Bytes := s.handled ++ s.link.inbox ++ dataOf s.link.ready

theorem Streaming.step_handled {t : side.Turn × List ChannelEvent} (h : side.takes t.1 = true) :
    (s.step side t).1.handled = s.seen := by
  simp only [step, Side.turn_takes h, Link.drain_inbox, seen, List.append_assoc]

theorem Streaming.step_seen {t : side.Turn × List ChannelEvent} (h : side.takes t.1 = true) :
    (s.step side t).1.seen = s.seen ++ dataOf t.2 := by
  have inbox : (s.step side t).1.link.inbox = [] := by simp [step, Link.recvOne, dataOf]
  have ready : (s.step side t).1.link.ready = t.2 := by simp [step, Link.recvOne]
  rw [seen, step_handled h, inbox, ready, List.append_nil]

/-- Nothing is lost and nothing handled twice while the loop runs. -/
theorem Streaming.after_seen {ts : List (side.Turn × List ChannelEvent)} (h : s.after side ts = some s') :
    s'.seen = s.seen ++ dataOf (ts.flatMap (·.2)) := by
  induction ts generalizing s with
  | nil =>
    cases h
    exact (List.append_nil _).symm
  | cons t ts ih =>
    unfold after at h
    split at h
    · rename_i next step
      have takes : side.takes t.1 = true := Side.takes_of_turn (congrArg Prod.snd step)
      have one := step_seen (s := s) takes
      rw [step] at one
      rw [ih h, one, List.flatMap_cons, dataOf_append, List.append_assoc]
    · cases h

end Streaming

/-! ## The handover -/

section Handover

variable {prim : Primitives} {parse : Bytes → Option SessionMessage}

/-- The messages of a peer: its handshake and what it sends behind it. -/
structure PeerStream (parse : Bytes → Option SessionMessage) where
  pake : Bytes
  binding : Bytes
  data : List Bytes
  {inbound : Bytes}
  {tag : Bytes32}
  parse_pake : parse pake = some (.pake inbound)
  parse_binding : parse binding = some (.binding tag)
  parse_data : ∀ d ∈ data, parse d = none

def PeerStream.messages (st : PeerStream parse) : List Bytes := st.pake :: st.binding :: st.data

/-- The batch that brings the second message ends with it. -/
def EndsWithBinding (batches : List (List Bytes)) : Prop :=
  ∀ before batch behind, batches = before ++ batch :: behind → before.flatten.length < 2 →
    before.flatten.length + batch.length ≤ 2

/-- Two handshake messages are the whole handshake of the peer. -/
theorem PeerStream.two_handshakes (st : PeerStream parse) {raws rest : List Bytes} (split : raws ++ rest = st.messages)
    (two : 2 ≤ countHandshakes parse raws) :
    ∃ early, raws = st.pake :: st.binding :: early ∧ early ++ rest = st.data := by
  match raws, split, two with
  | [], _, two => exact absurd two (by simp [countHandshakes])
  | [x], _, two =>
    have le : countHandshakes parse [x] ≤ 1 := List.countP_le_length
    omega
  | x :: y :: early, split, _ =>
    simp only [messages, List.cons_append, List.cons.injEq] at split
    exact ⟨early, by rw [split.1, split.2.1], split.2.2⟩

theorem PeerStream.no_handshakes (st : PeerStream parse) {raws : List Bytes} (h : ∀ raw ∈ raws, raw ∈ st.data) :
    countHandshakes parse raws = 0 :=
  List.countP_eq_zero.2 fun raw hraw => by simp [st.parse_data raw (h raw hraw)]

variable {password : Bytes} {ownFp peerFp : String} {side : Side} {passes : List (Pass prim)} {s : Drive prim}

/-- A loop that has not returned at its head has more of the handshake to come. -/
theorem Passed.before_binding (st : PeerStream parse) {p : Pass prim} {s' : Drive prim}
    (h : Passed parse password ownFp peerFp side passes s) (head : s.head side = none)
    (ok : s.pass parse password ownFp peerFp side p = .ok s') (confirmed : progress s'.hs = 2) {rest : List Bytes}
    (split : arrived passes ++ rest = st.messages) : (arrived passes.dropLast).length < 2 := by
  by_contra! two
  have drained := h.drained
  obtain ⟨-, -, -, further⟩ := Drive.pass_spec drained.inbox ok
  have unconfirmed := Drive.progress_of_head head
  have none_left : countHandshakes parse (dataOf s.link.ready) = 0 := by
    refine st.no_handshakes fun raw hraw => ?_
    rw [← drained.ready] at split
    match arrived passes.dropLast, two, split with
    | x :: y :: early, _, split =>
      simp only [PeerStream.messages, List.cons_append, List.cons.injEq] at split
      rw [← split.2.2]
      simp [hraw]
  omega

theorem Passed.split_last (h : Passed parse password ownFp peerFp side passes s) (some_pass : passes ≠ []) :
    ∃ ps p s0, passes = ps ++ [p] ∧ Passed parse password ownFp peerFp side ps s0 ∧ s0.head side = none ∧
      s0.pass parse password ownFp peerFp side p = .ok s := by
  cases h with
  | start => exact absurd rfl some_pass
  | pass before head ok => exact ⟨_, _, _, rfl, before, head, ok⟩

/-- A loop that returns has the batch with the peer's binding as the last it
drained, and nothing of the peer's data is in it exactly if it ends with the binding. -/
theorem Passed.endsWithBinding_iff (st : PeerStream parse) (h : Passed parse password ownFp peerFp side passes s)
    (confirmed : progress s.hs = 2) {early rest : List Bytes}
    (drained : arrived passes.dropLast = st.pake :: st.binding :: early) (split : early ++ rest = st.data) :
    EndsWithBinding (passes.map fun p => dataOf p.packet) ↔ early = [] := by
  obtain ⟨ps, last, s1, rfl, h1, head1, ok1⟩ := h.split_last (by rintro rfl; cases drained)
  rw [List.dropLast_concat] at drained
  have minimal := h1.before_binding st head1 ok1 confirmed (show _ ++ rest = _ by
    simp [drained, PeerStream.messages, split])
  obtain ⟨qs, p, -, rfl, -, -, -⟩ := h1.split_last (by rintro rfl; cases drained)
  rw [List.dropLast_concat] at minimal
  have len := congrArg List.length drained
  simp only [arrived_append, arrived_single, List.length_append, List.length_cons] at len
  constructor
  · intro ends
    have := ends (qs.map fun p => dataOf p.packet) (dataOf p.packet) [dataOf last.packet] (by simp)
      (by rwa [flatten_batches])
    rw [flatten_batches] at this
    exact List.length_eq_zero_iff.1 (by omega)
  · rintro rfl before batch behind cut short
    rcases List.eq_nil_or_concat' behind with rfl | ⟨behind, final, rfl⟩
    · -- the last batch is not drained by this loop
      have all : before = (qs ++ [p]).map fun p => dataOf p.packet := by
        have := congrArg List.dropLast cut
        simpa using this.symm
      rw [all, flatten_batches, drained] at short
      exact absurd short (by simp)
    · have taken : (qs ++ [p]).map (fun p => dataOf p.packet) = before ++ batch :: behind := by
        rw [List.map_append, ← List.cons_append, ← List.append_assoc] at cut
        exact (List.append_inj' cut rfl).1
      have flat := congrArg (fun batches => batches.flatten.length) taken
      simp only [flatten_batches, drained, List.flatten_append, List.flatten_cons, List.length_append,
        List.length_cons, List.length_nil] at flat
      omega

/-- The stream loop handles every message of the peer behind its handshake, once
and in order, whatever the inboxes are; the service's under the condition that
the inbox with the binding ends with it. -/
theorem handed_over_iff (st : PeerStream parse) {est : Established} {deferred : List Bytes}
    (confirmed : driveUntilConfirmed parse password ownFp peerFp side {} passes = some (.ok (est, deferred), []))
    {turns : List (side.Turn × List ChannelEvent)} {last : side.Turn × List ChannelEvent} {s : Streaming}
    (running : (Streaming.begin side est deferred).after side turns = some s) (takes : side.takes last.1 = true)
    {unseen : List Bytes} (stream : arrived passes ++ dataOf (turns.flatMap (·.2)) ++ unseen = st.messages) :
    (s.step side last).1.handled ++ unseen = st.data ↔
      (side = .service → EndsWithBinding (passes.map fun p => dataOf p.packet)) := by
  obtain ⟨s', passed, head⟩ := Passed.start.returns confirmed
  rw [List.nil_append] at passed
  obtain ⟨two, ready, rfl⟩ := Drive.head_eq_ok head
  have drained := passed.drained
  rw [← drained.ready, ← ready, List.append_assoc, List.append_assoc] at stream
  obtain ⟨early, all, rest⟩ := st.two_handshakes stream (two ▸ drained.further)
  have handled : (s.step side last).1.handled =
      (if side = .service then [] else s'.deferred) ++ dataOf est.ready ++ dataOf (turns.flatMap (·.2)) := by
    rw [Streaming.step_handled takes, Streaming.after_seen running]
    rfl
  rw [handled]
  by_cases hs : side = .service
  · rw [if_pos hs, passed.endsWithBinding_iff st two all rest, ← rest]
    simp only [hs, forall_const, List.nil_append, List.append_assoc]
    exact List.self_eq_append_left
  · have kept : s'.deferred = early := by
      have none_early : ∀ d ∈ early, parse d = none := fun d hd =>
        st.parse_data d (rest ▸ List.mem_append_left _ hd)
      rw [drained.deferred, all, leftover, if_neg hs]
      simpa [st.parse_pake, st.parse_binding] using none_early
    rw [if_neg hs, kept, ← rest]
    simp [hs]

end Handover

/-! ## A goodbye behind the binding -/

/-- `serde_json::to_vec` of a handshake message. -/
def SessionMessage.toJson : SessionMessage → Bytes
  | .pake msg => utf8 ("\x7b\"Pake\":[" ++ ",".intercalate (msg.map fun b => toString b.toNat) ++ "]\x7d")
  | .binding tag => utf8 ("\x7b\"Binding\":[" ++ ",".intercalate (tag.toList.map fun b => toString b.toNat) ++ "]\x7d")

/-- The session key of the draws 1 and 2. -/
def sampleKey : Bytes32 := Vector.ofFn fun i => (([7, 1, 2] : Bytes) ++ utf8 "zortilwatch session key v1").getD i 0

def samplePake : SessionMessage := .pake [2]

def sampleBinding : SessionMessage := .binding (sessionBinding samplePrimitives sampleKey "c" "h")

/-- The parser on the messages of the sample peer. -/
def sampleParse (raw : Bytes) : Option SessionMessage := [samplePake, sampleBinding].find? fun m => m.toJson == raw

/-- A peer that confirms and leaves at once. -/
def sampleStream : PeerStream sampleParse where
  pake := samplePake.toJson
  binding := sampleBinding.toJson
  data := [SESSION_BYE]
  inbound := [2]
  tag := sessionBinding samplePrimitives sampleKey "c" "h"
  parse_pake := by decide +kernel
  parse_binding := by decide +kernel
  parse_data := by decide +kernel

/-- The goodbye comes in one packet with the binding. -/
def samplePasses : List (Pass samplePrimitives) :=
  [{ rng := (1 : UInt8), packet := [.channelOpen 0, .channelData samplePake.toJson] },
    { rng := (1 : UInt8), packet := [.channelData sampleBinding.toJson, .channelData SESSION_BYE] },
    { rng := (1 : UInt8) }]

set_option maxRecDepth 8000 in
/-- The controller's stream loop takes the goodbye up. -/
theorem handed_over_to_controller :
    ((Streaming.begin .controller { key := sampleKey, chan := 0, ready := [] } [SESSION_BYE]).step .controller
      (({} : ControllerTurn), [])).1.handled = [SESSION_BYE] := by
  have confirmed : driveUntilConfirmed sampleParse [7] "h" "c" .controller {} samplePasses =
      some (.ok ({ key := sampleKey, chan := 0, ready := [] }, [SESSION_BYE]), []) := by rfl
  have running {s : Streaming} : s.after .controller [] = some s := rfl
  have all : arrived samplePasses ++ dataOf [] ++ [] = sampleStream.messages := by decide +kernel
  have same := (handed_over_iff sampleStream confirmed running
    (show Side.takes .controller (({} : ControllerTurn), ([] : List ChannelEvent)).1 = true from rfl) all).2 nofun
  exact (List.append_nil _).symm.trans same

set_option maxRecDepth 8000 in
/-- The service's never sees it, and streams on to a peer that has left. -/
theorem service_loses_goodbye :
    ∃ est deferred s, driveUntilConfirmed sampleParse [7] "h" "c" .service {} samplePasses =
        some (.ok (est, deferred), []) ∧
      (Streaming.begin .service est deferred).after .service [] = some s ∧
      arrived samplePasses = sampleStream.messages ∧
      s.step .service (({} : ServiceTurn Bytes), []) = ({ link := { chan := some 0 }, handled := [] }, true) ∧
      (s.step .service (({} : ServiceTurn Bytes), [])).1.handled ≠ sampleStream.data :=
  ⟨{ key := sampleKey, chan := 0, ready := [] }, [], { link := { chan := some 0 } }, by rfl, rfl,
    by decide +kernel, rfl, by decide +kernel⟩

end ZortilWatch.Core
