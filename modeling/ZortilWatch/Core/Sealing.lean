import ZortilWatch.Core.Handover
import ZortilWatch.Core.MediaPath
import ZortilWatch.Lib.NumberedLog

/-!
# The sealers of the native peers

The peers of `core/src/connection.rs` and of the service from the first pass of
their handshake to the end of their stream loop, with every sealer they make and
everything they give it. A handshake is good for one sealer (`Peer.sealsOnce`),
and the calls of one sealer carry the numbers it counts (`numbered_sealCalls`).
-/

namespace ZortilWatch.Core

open NumberedLog

/-! ## Calls -/

/-- The key and the nonce of an encryption. -/
abbrev SealCall := Bytes32 × Bytes

/-- What `seal` calls the cipher with. -/
def StreamSealer.call (s : StreamSealer) : SealCall := (s.key, streamNonce s.counter)

/-- The nonce of message number `n`. -/
def numberNonce (n : Nat) : Bytes := streamNonce (UInt64.ofNat n)

/-- A direction of a session. -/
inductive Direction where
  /-- Host to controller. -/
  | media
  /-- Controller to host. -/
  | input
  deriving DecidableEq

def Direction.label : Direction → Bytes
  | .media => STREAM_LABEL_MEDIA_H2C
  | .input => STREAM_LABEL_INPUT_C2H

/-- A `StreamSealer::new`: the handshake of the peer it is made for, the direction
and the session key. -/
structure SealerMade where
  handshake : Nat
  direction : Direction
  sessionKey : Bytes32
  deriving DecidableEq

/-- What a step does with sealers. -/
structure Sealing where
  made : Option SealerMade := none
  calls : List SealCall := []

variable (prim : Primitives)

/-- The calls a sealer makes for the plaintexts. -/
def sealCalls (s : StreamSealer) : List Bytes → List SealCall
  | [] => []
  | p :: ps => s.call :: sealCalls (s.seal prim p).1 ps

/-! ## What the loops seal -/

/-- What `controller_loop` takes from `input_rx`. -/
inductive OutMsg where
  /-- An event, as `serde_json::to_vec` writes it. -/
  | event (json : Option Bytes)
  | raw (bytes : Bytes)

/-- The plaintext to seal; an event that has no JSON is dropped. -/
def OutMsg.plaintext? : OutMsg → Option Bytes
  | .event json => json
  | .raw bytes => some bytes

/-- What a turn of `managed_loop` hands to its sealer, in its order. -/
structure ManagedWork where
  frame : Option Product := none
  keepAlive : Option Product := none
  downloads : List Product := []
  clipboard : Option Product := none
  /-- Answers to the inbox. -/
  answers : List Product := []

def ManagedWork.products (w : ManagedWork) : List Product :=
  w.frame.toList ++ w.keepAlive.toList ++ w.downloads ++ w.clipboard.toList ++ w.answers

/-- What a turn of the service's loop hands to its sealer. -/
structure ServiceWork where
  /-- `send_monitors` for the monitor events of the inbox. -/
  monitors : List Product := []
  frame : Option Product := none

namespace Side

/-- The direction a side seals. -/
def direction : Side → Direction
  | .controller => .input
  | .managed | .service => .media

def Work : Side → Type
  | .controller => List OutMsg
  | .managed => ManagedWork
  | .service => ServiceWork

/-- The plaintexts a turn seals. The controller looks after its inbox first, and
leaves with a BYE or without its receiver before it seals; `managed_loop` leaves
behind its inbox, or when it gets no encoder for the frame that comes first; the
service does its inbox first and then its frame. -/
def plaintexts : (side : Side) → side.Turn → List Bytes → side.Work → List Bytes
  | .controller, t, inbox, msgs =>
    let t : ControllerTurn := t
    if t.stop || !t.alive || !t.drained || t.receiverGone.isSome || inbox.contains SESSION_BYE then []
    else List.filterMap OutMsg.plaintext? msgs
  | .managed, t, _, w =>
    let t : ManagedTurn Bytes := t
    if t.stop || !t.alive || !t.drained || t.encoderFails then []
    else (ManagedWork.products w).filterMap Product.plaintext?
  | .service, t, inbox, w =>
    let t : ServiceTurn Bytes := t
    let w : ServiceWork := w
    if !t.alive then []
    else
      let frame := if inbox.contains SESSION_BYE || t.encoderFails then [] else w.frame.toList
      (w.monitors ++ frame).filterMap Product.plaintext?

end Side

/-! ## A peer -/

inductive PeerState (prim : Primitives) where
  | driving (d : Drive prim)
  | streaming (s : Streaming) (sealer : StreamSealer)
  | ended

/-- One peer of one session, with its single handshake. -/
structure Peer (prim : Primitives) where
  side : Side
  password : Bytes
  ownFp : String
  peerFp : String
  state : PeerState prim := .driving {}

/-- What a peer meets before the first turn of its stream loop. -/
structure Launch where
  captureStarts : Bool := true
  /-- The list of the monitors. -/
  monitors : Option Product := none

inductive PeerEvent (prim : Primitives) where
  /-- A pass of `drive_until_confirmed`. -/
  | pass (p : Pass prim)
  /-- `drive_until_confirmed` returns, the stream loop begins. -/
  | launch (l : Launch)
  | turn (side : Side) (t : side.Turn) (packet : List ChannelEvent) (work : side.Work)

namespace Peer

/-- The head of the stream loop. The service takes up its capture before it makes
a sealer, `managed_loop` behind it. -/
def begin (p : Peer prim) (est : Established) (deferred : List Bytes) (l : Launch) : Peer prim × Sealing :=
  if p.side = .service ∧ l.captureStarts = false then ({ p with state := .ended }, {})
  else
    match StreamSealer.new prim est.key p.side.direction.label with
    | none => ({ p with state := .ended }, {})
    | some sealer =>
      let made := some { handshake := 0, direction := p.side.direction, sessionKey := est.key }
      if p.side = .managed ∧ l.captureStarts = false then ({ p with state := .ended }, { made := made })
      else
        let ps := if p.side = .controller then [] else (l.monitors.bind Product.plaintext?).toList
        ({ p with state := .streaming (.begin p.side est deferred) (sealerAfter prim sealer ps) },
          { made := made, calls := sealCalls prim sealer ps })

variable (parse : Bytes → Option SessionMessage)

def step (p : Peer prim) : PeerEvent prim → Peer prim × Sealing
  | .pass x =>
    match p.state with
    | .driving d =>
      match d.head p.side with
      | some _ => (p, {})
      | none =>
        match d.pass parse p.password p.ownFp p.peerFp p.side x with
        | .ok d' => ({ p with state := .driving d' }, {})
        | .error _ => ({ p with state := .ended }, {})
    | _ => (p, {})
  | .launch l =>
    match p.state with
    | .driving d =>
      match d.head p.side with
      | some (.ok (est, deferred)) => p.begin prim est deferred l
      | some (.error _) => ({ p with state := .ended }, {})
      | none => (p, {})
    | _ => (p, {})
  | .turn side t packet work =>
    match p.state with
    | .streaming s sealer =>
      let ps := side.plaintexts t s.link.drain.inbox work
      let next := s.step side (t, packet)
      ({ p with state := if next.2 then .streaming next.1 (sealerAfter prim sealer ps) else .ended },
        { calls := sealCalls prim sealer ps })
    | _ => (p, {})

variable {prim}

/-- A turn is one of the peer's own side. -/
def admits (p : Peer prim) : PeerEvent prim → Prop
  | .turn side .. => p.side = side
  | _ => True

/-- The sealer the peer holds. -/
def sealer (p : Peer prim) : Option StreamSealer :=
  match p.state with
  | .streaming _ sealer => some sealer
  | _ => none

/-- The handshake may yet get a sealer. -/
def Unspent (p : Peer prim) (n : Nat) : Prop := n = 0 ∧ ∃ d, p.state = .driving d

end Peer

/-! ## One sealer counts -/

section Calls

variable {prim} {s : StreamSealer} {ps : List Bytes}

/-- `seal` encrypts with its call. -/
theorem StreamSealer.seal_call (s : StreamSealer) (p : Bytes) :
    (s.seal prim p).2 = s.call.2 ++ prim.encrypt s.call.1 s.call.2 p := rfl

/-- Each message starts with the nonce of its call. -/
theorem sealAll_calls (s : StreamSealer) (ps : List Bytes) :
    (sealAll prim s ps).map (fun m => m.2.take 12) = (sealCalls prim s ps).map Prod.snd := by
  induction ps generalizing s with
  | nil => rfl
  | cons p ps ih =>
    have head : (s.seal prim p).2.take 12 = s.call.2 := by
      rw [StreamSealer.seal_call]
      exact List.take_left' (streamNonce_length s.counter)
    rw [sealAll, sealCalls, List.map_cons, List.map_cons, head, ih]

theorem sealerAfter_key (s : StreamSealer) (ps : List Bytes) : (sealerAfter prim s ps).key = s.key := by
  induction ps generalizing s with
  | nil => rfl
  | cons p ps ih => exact ih (s.seal prim p).1

theorem key_of_mem_sealCalls {c : SealCall} (mem : c ∈ sealCalls prim s ps) : c.1 = s.key := by
  induction ps generalizing s with
  | nil => cases mem
  | cons p ps ih =>
    rcases List.mem_cons.1 mem with rfl | mem
    · rfl
    · exact @ih (s.seal prim p).1 mem

/-- A sealer whose counter is the number of calls under its key goes on with the
numbers of the log. -/
theorem numbered_sealCalls {log : List SealCall} (h : Numbered numberNonce log)
    (counts : s.counter = UInt64.ofNat (under log s.key).length) :
    Numbered numberNonce (log ++ sealCalls prim s ps) ∧ (sealerAfter prim s ps).counter =
      UInt64.ofNat (under (log ++ sealCalls prim s ps) s.key).length := by
  induction ps generalizing s log with
  | nil =>
    rw [sealCalls, List.append_nil]
    exact ⟨h, counts⟩
  | cons p ps ih =>
    have call : s.call = (s.key, numberNonce (under log s.key).length) := by
      rw [StreamSealer.call, counts, numberNonce]
    have next : (s.seal prim p).1.counter =
        UInt64.ofNat (under (log ++ [s.call]) (s.seal prim p).1.key).length := by
      show s.counter + 1 = UInt64.ofNat (under (log ++ [s.call]) s.key).length
      rw [call, under_append, under_singleton_self, List.length_append, List.length_singleton, UInt64.ofNat_add,
        counts]
      rfl
    have rest := @ih (s.seal prim p).1 (log ++ [s.call]) (call ▸ h.snoc s.key) next
    rw [List.append_assoc] at rest
    exact rest

/-- Nonces differ below 2^64. -/
theorem numberNonce_inj {m n : Nat} (hm : m < 2 ^ 64) (hn : n < 2 ^ 64) (h : numberNonce m = numberNonce n) :
    m = n := by
  have same := congrArg UInt64.toNat (streamNonce_injective h)
  rwa [UInt64.toNat_ofNat', UInt64.toNat_ofNat', Nat.mod_eq_of_lt hm, Nat.mod_eq_of_lt hn] at same

end Calls

/-! ## One handshake, one sealer -/

/-- What the calls of a step come from: from no sealer, from the one held, or from
one the step makes. Behind the step it may be gone. -/
inductive SealStep (before after : Option StreamSealer) : Sealing → Prop where
  | idle (kept : after = none ∨ after = before) : SealStep before after {}
  | held (s : StreamSealer) (ps : List Bytes) (mine : before = some s)
      (kept : after = none ∨ after = some (sealerAfter prim s ps)) :
      SealStep before after { calls := sealCalls prim s ps }
  | made (m : SealerMade) (s : StreamSealer) (ps : List Bytes)
      (new : StreamSealer.new prim m.sessionKey m.direction.label = some s)
      (kept : after = none ∨ after = some (sealerAfter prim s ps)) :
      SealStep before after { made := some m, calls := sealCalls prim s ps }

/-- A step of a peer whose handshakes get one sealer each. `unspent` are the
handshakes that may yet get theirs. -/
structure SealsOnce (before after : Option StreamSealer) (unspent unspent' : Nat → Prop) (r : Sealing) : Prop where
  sealing : SealStep prim before after r
  spends : ∀ m, r.made = some m → unspent m.handshake ∧ ¬ unspent' m.handshake
  kept : ∀ n, unspent' n → unspent n

variable {prim} in
theorem SealsOnce.idle {before after : Option StreamSealer} {unspent unspent' : Nat → Prop}
    (held : after = none ∨ after = before) (kept : ∀ n, unspent' n → unspent n) :
    SealsOnce prim before after unspent unspent' {} :=
  ⟨.idle held, nofun, kept⟩

namespace Peer

variable {prim} {parse : Bytes → Option SessionMessage}

theorem not_unspent_of_ended {p : Peer prim} (ended : p.state = .ended) (n : Nat) : ¬ p.Unspent n := by
  rintro ⟨-, d, driving⟩
  rw [ended] at driving
  cases driving

theorem sealsOnce_begin {p : Peer prim} {d : Drive prim} (driving : p.state = .driving d) (est : Established)
    (deferred : List Bytes) (l : Launch) :
    SealsOnce prim p.sealer (p.begin prim est deferred l).1.sealer p.Unspent (p.begin prim est deferred l).1.Unspent
      (p.begin prim est deferred l).2 := by
  have unspent : p.Unspent 0 := ⟨rfl, d, driving⟩
  unfold begin
  split
  · exact .idle (.inl rfl) fun n h => absurd h (not_unspent_of_ended rfl n)
  · split
    · exact .idle (.inl rfl) fun n h => absurd h (not_unspent_of_ended rfl n)
    · rename_i sealer made
      dsimp only
      split
      · refine ⟨.made ⟨0, p.side.direction, est.key⟩ sealer [] made (.inl rfl), ?_, fun n h => ?_⟩
        · rintro m ⟨⟩
          exact ⟨unspent, not_unspent_of_ended rfl 0⟩
        · exact absurd h (not_unspent_of_ended rfl n)
      · refine ⟨.made ⟨0, p.side.direction, est.key⟩ sealer _ made (.inr rfl), ?_, ?_⟩
        · rintro m ⟨⟩
          exact ⟨unspent, fun h => by obtain ⟨-, d', h⟩ := h; cases h⟩
        · rintro n ⟨-, d', h⟩
          cases h

/-- The single handshake of a peer gets one sealer at most, and whatever the peer
seals goes through it. -/
theorem sealsOnce (p : Peer prim) (e : PeerEvent prim) :
    SealsOnce prim p.sealer (p.step prim parse e).1.sealer p.Unspent (p.step prim parse e).1.Unspent
      (p.step prim parse e).2 := by
  have stay : SealsOnce prim p.sealer p.sealer p.Unspent p.Unspent {} := .idle (.inr rfl) fun _ h => h
  have leave : SealsOnce prim p.sealer ({ p with state := .ended } : Peer prim).sealer p.Unspent
      ({ p with state := .ended } : Peer prim).Unspent {} :=
    .idle (.inl rfl) fun n h => absurd h (not_unspent_of_ended rfl n)
  cases e with
  | pass x =>
    simp only [step]
    split
    · rename_i d driving
      split
      · exact stay
      · split
        · exact .idle (.inl rfl) fun n h => ⟨h.1, d, driving⟩
        · exact leave
    · exact stay
  | launch l =>
    simp only [step]
    split
    · rename_i d driving
      split
      · exact sealsOnce_begin driving _ _ l
      · exact leave
      · exact stay
    · exact stay
  | turn side t packet work =>
    simp only [step]
    split
    · rename_i s sealer streaming
      have held : p.sealer = some sealer := by simp only [Peer.sealer, streaming]
      refine ⟨.held sealer _ held ?_, nofun, ?_⟩
      · cases (s.step side (t, packet)).2
        · exact .inl rfl
        · exact .inr rfl
      · rintro n ⟨-, d, driving⟩
        cases hn : (s.step side (t, packet)).2 <;> simp [hn] at driving
    · exact stay

/-- A peer that has its result waits for its launch. -/
theorem waits {p : Peer prim} {d : Drive prim} (driving : p.state = .driving d)
    {r : Except String (Established × List Bytes)} (head : d.head p.side = some r) (xs : List (Pass prim)) :
    xs.foldl (fun p x => (p.step prim parse (.pass x)).1) p = p := by
  induction xs with
  | nil => rfl
  | cons x xs ih =>
    have same : (p.step prim parse (.pass x)).1 = p := by simp only [step, driving, head]
    rw [List.foldl_cons, same, ih]

/-- The passes of `drive_until_confirmed` bring a peer to its launch. -/
theorem drives (p : Peer prim) {d : Drive prim} (driving : p.state = .driving d) {xs rest : List (Pass prim)}
    {est : Established} {deferred : List Bytes} (confirmed : driveUntilConfirmed parse p.password p.ownFp p.peerFp
      p.side d xs = some (.ok (est, deferred), rest)) :
    ∃ d', xs.foldl (fun p x => (p.step prim parse (.pass x)).1) p = { p with state := .driving d' } ∧
      d'.head p.side = some (.ok (est, deferred)) := by
  induction xs generalizing p d with
  | nil =>
    obtain ⟨r, head, same⟩ := Option.map_eq_some_iff.1 confirmed
    cases same
    refine ⟨d, ?_, head⟩
    rw [← driving]
    rfl
  | cons x xs ih =>
    rw [driveUntilConfirmed] at confirmed
    split at confirmed
    · rename_i r head
      cases confirmed
      refine ⟨d, ?_, head⟩
      rw [waits driving head, ← driving]
    · rename_i head
      split at confirmed
      · cases confirmed
      · rename_i d' pass
        have next : (p.step prim parse (.pass x)).1 = { p with state := .driving d' } := by
          simp only [step, driving, head, pass]
        rw [List.foldl_cons, next]
        exact ih { p with state := .driving d' } rfl confirmed

end Peer

end ZortilWatch.Core
