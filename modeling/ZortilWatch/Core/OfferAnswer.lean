import ZortilWatch.Core.Host
import ZortilWatch.Lib.Ranked

/-!
# Offer and answer (`core/src/connection.rs`)

`establish_managed` and the first part of `Controller::connect` settle a session through
the server: the host signals its offer and its candidates, the console answers with both,
and each waits for the two signals of the other. Whatever fails and in whatever order they
go on, when both have come through they hold the same two SDP texts, and with them the same
two fingerprints; and unless something fails, both come through (`offer_answer_settles`).
-/

namespace ZortilWatch.Core

/-- `ServerMsg` as `Controller::connect` reads it; `other` is passed over. -/
inductive ConsoleMsg (J : Type) where
  | connectReady (sessionId : String) (iceServers : Option J)
  | connectErr (code : String)
  | signal (kind : String) (payload : J)
  | other

/-- Where `Controller::connect` is. -/
inductive Console (J : Type) where
  | awaitingReady
  /-- `setup_relay` and `local_candidates` -/
  | preparing (sid : String) (iceServers : Option J)
  /-- `while !(offered && got_cand)`: the SDP texts of offer and answer, and the payloads
  given to `apply_peer_candidates`. -/
  | answering (sid : String) (cands : J) (offered : Option (String × String)) (ice : List J)
  /-- `drive_until_confirmed` -/
  | confirming (sid : String) (offered : String × String) (ice : List J)
  | failed

/-- The answers of the outside at one step. -/
structure ConsoleReading (J : Type) where
  /-- What `recv` returns. -/
  recv : Except Unit (ConsoleMsg J) := .ok .other
  /-- The candidates, when the socket and str0m work. -/
  prepared : Option J := none
  /-- The answer's SDP, when str0m takes the offer. -/
  answer : Option String := none
  /-- Whether the answer and the candidates are sent. -/
  ok : Bool := true
  iceSent : Bool := true

/-- The host's environment and `json!({ "sdp": .. })`. -/
structure SettlingEnv (J : Type) extends HostEnv J where
  sdpJson : String → J
  payloadStr_sdpJson : ∀ sdp, payloadStr (sdpJson sdp) "sdp" = some sdp

section Connect

variable {J : Type} (env : SettlingEnv J)

/-- The head of the console's loop. -/
def Console.loop (sid : String) (cands : J) (offered : Option (String × String)) (ice : List J) : Console J :=
  match offered, ice with
  | some texts, _ :: _ => .confirming sid texts ice
  | _, _ => .answering sid cands offered ice

/-- A signal in the console's loop. -/
def Console.onSignal (sid : String) (cands : J) (offered : Option (String × String)) (ice : List J) (kind : String)
    (payload : J) (r : ConsoleReading J) : Console J × List (ClientMsg J) :=
  if kind = "offer" then
    match env.payloadStr payload "sdp", r.answer with
    | some sdp, some answer =>
      let sent := ClientMsg.signal sid "answer" (env.sdpJson answer)
      let sentIce := ClientMsg.signal sid "ice" cands
      if r.ok then (if r.iceSent then .loop sid cands (some (sdp, answer)) ice else .failed, [sent, sentIce])
      else (.failed, [sent])
    | _, _ => (.failed, [])
  else if kind = "ice" then (.loop sid cands offered (ice ++ [payload]), [])
  else (.loop sid cands offered ice, [])

/-- One step of `Controller::connect`, behind its request. -/
def Console.connect (c : Console J) (r : ConsoleReading J) : Console J × List (ClientMsg J) :=
  match c with
  | .awaitingReady =>
    match r.recv with
    | .ok (.connectReady sid ice) => (.preparing sid ice, [])
    | .ok (.connectErr _) => (.failed, [])
    | .ok _ => (.awaitingReady, [])
    | .error _ => (.failed, [])
  | .preparing sid _ =>
    match r.prepared with
    | some cands => (.answering sid cands none [], [])
    | none => (.failed, [])
  | .answering sid cands offered ice =>
    match r.recv with
    | .ok (.signal kind payload) => Console.onSignal env sid cands offered ice kind payload r
    | .ok _ => (c, [])
    | .error _ => (.failed, [])
  | .confirming .. => (c, [])
  | .failed => (c, [])

end Connect

/-! ## The two of them -/

/-- Host and console, with what is on its way to each and what each has signalled. -/
structure Settling (J : Type) where
  host : Host J
  console : Console J
  toConsole : List (ConsoleMsg J)
  toHost : List (ServerMsg J)
  hostSaid : List (String × J)
  consoleSaid : List (String × J)

inductive SettlingEvent (J : Type) where
  /-- The host signals its offer. -/
  | offers (r : Reading J)
  /-- The host takes a turn of its loop. -/
  | hears (r : Reading J)
  /-- The console gathers its candidates. -/
  | prepares (r : ConsoleReading J)
  /-- The console takes a turn of one of its loops. -/
  | reads (r : ConsoleReading J)

section System

variable {J : Type} (env : SettlingEnv J)

/-- The signals among what the host sends. -/
def hostSignals (out : List (Output J)) : List (String × J) :=
  out.filterMap fun
    | .send (.signal _ kind payload) => some (kind, payload)
    | _ => none

/-- The signals among what the console sends. -/
def consoleSignals (out : List (ClientMsg J)) : List (String × J) :=
  out.filterMap fun
    | .signal _ kind payload => some (kind, payload)
    | _ => none

def asConsoleMsg (x : String × J) : ConsoleMsg J := .signal x.1 x.2

def asServerMsg (sid : String) (x : String × J) : ServerMsg J := .signal sid x.1 x.2

/-- A message that the server has for the console once. -/
def ConsoleMsg.queued : ConsoleMsg J → Bool
  | .connectReady .. | .signal .. => true
  | _ => false

/-- A read of the host that takes a signal. -/
def Reading.signal? (r : Reading J) : Option (ServerMsg J) :=
  match r.recv with
  | .ok (some (.signal sid kind payload)) => some (.signal sid kind payload)
  | _ => none

/-- A read of the console that takes a message from its queue. -/
def ConsoleReading.queued? (r : ConsoleReading J) : Option (ConsoleMsg J) :=
  match r.recv with
  | .ok m => if m.queued then some m else none
  | .error _ => none

namespace Settling

/-- The host takes a step; `taken` is what it has read of its queue. -/
def hostStep (s : Settling J) (r : Reading J) (taken : Nat) : Settling J :=
  let next := s.host.serve env.toHostEnv r
  { s with
    host := next.1
    toHost := s.toHost.drop taken
    toConsole := s.toConsole ++ (hostSignals next.2).map asConsoleMsg
    hostSaid := s.hostSaid ++ hostSignals next.2 }

/-- The console takes a step; its signals go to the session `sid`. -/
def consoleStep (sid : String) (s : Settling J) (r : ConsoleReading J) (taken : Nat) : Settling J :=
  let next := s.console.connect env r
  { s with
    console := next.1
    toConsole := s.toConsole.drop taken
    toHost := s.toHost ++ (consoleSignals next.2).map (asServerMsg sid)
    consoleSaid := s.consoleSaid ++ consoleSignals next.2 }

end Settling

/-- The server passes signals on in order, and nothing else of theirs reaches them but what
their loops pass over or fail at. -/
def settling (sid : String) (iceServers : Option J) : System (Settling J) (SettlingEvent J) where
  init s := (∃ a joined ice, s.host.control = .offering a joined ice) ∧ s.console = .awaitingReady ∧
    s.toConsole = [.connectReady sid iceServers] ∧ s.toHost = [] ∧ s.hostSaid = [] ∧ s.consoleSaid = []
  enabled s
    | .offers r => (∃ a joined ice, s.host.control = .offering a joined ice) ∧
        ∀ p ∈ r.prepared, ∃ offer, p.1 = env.sdpJson offer
    | .hears r => (∃ a n, s.host.control = .awaitingAnswer a n) ∧ ∀ m ∈ r.signal?, s.toHost.head? = some m
    | .prepares _ => ∃ sid ice, s.console = .preparing sid ice
    | .reads r => (s.console = .awaitingReady ∨ ∃ sid cands offered ice, s.console = .answering sid cands offered ice) ∧
        ∀ m ∈ r.queued?, s.toConsole.head? = some m
  step s
    | .offers r => s.hostStep env r 0
    | .hears r => s.hostStep env r (if r.late then 0 else r.signal?.toList.length)
    | .prepares r => s.consoleStep env sid r 0
    | .reads r => s.consoleStep env sid r r.queued?.toList.length

end System

/-! ## How far each has come -/

section Invariant

variable {J : Type} {env : SettlingEnv J} {sid : String} {iceServers : Option J}

/-- What a party has signalled: its SDP text first, its candidates second. -/
def Line (env : SettlingEnv J) (word : String) (said : List (String × J)) : Prop :=
  ∃ sdp cands, said <+: [(word, env.sdpJson sdp), ("ice", cands)]

/-- The host has given the session up. -/
def Control.Gone (c : Control J) : Prop := (∃ p, c = .top p) ∨ c = .connecting

theorem Control.stays_offering (a : Attempt) (joined : String) (ice : Option J) :
    ¬ (Control.offering a joined ice).Gone := by
  rintro (⟨_, h⟩ | h) <;> cases h

theorem Control.stays_awaiting (a : Attempt) (n : Negotiation J) : ¬ (Control.awaitingAnswer a n).Gone := by
  rintro (⟨_, h⟩ | h) <;> cases h

theorem Control.stays_confirming (a : Attempt) (n : Negotiation J) : ¬ (Control.confirming a n).Gone := by
  rintro (⟨_, h⟩ | h) <;> cases h

/-- The host against the signals of the console and those still on the way. -/
inductive HostFits (env : SettlingEnv J) (sid : String) : Control J → List (ServerMsg J) → List (String × J) →
    List (String × J) → Prop where
  | offering (a : Attempt) (joined : String) (ice : Option J) (replies : List (String × J)) :
    HostFits env sid (.offering a joined ice) (replies.map (asServerMsg sid)) [] replies
  | waiting (a : Attempt) (joined : String) (ice : Option J) (offer : String) (cands : J)
      (replies : List (String × J)) :
    HostFits env sid (.awaitingAnswer a ⟨joined, ice, none, []⟩) (replies.map (asServerMsg sid))
      [("offer", env.sdpJson offer), ("ice", cands)] replies
  | answered (a : Attempt) (joined : String) (ice : Option J) (offer : String) (cands : J) (answer : String)
      (rest : List (String × J)) :
    HostFits env sid (.awaitingAnswer a ⟨joined, ice, some answer, []⟩) (rest.map (asServerMsg sid))
      [("offer", env.sdpJson offer), ("ice", cands)] (("answer", env.sdpJson answer) :: rest)
  | through (a : Attempt) (joined : String) (ice : Option J) (offer : String) (cands : J) (answer : String)
      (theirs : J) :
    HostFits env sid (.confirming a ⟨joined, ice, some answer, [theirs]⟩) []
      [("offer", env.sdpJson offer), ("ice", cands)] [("answer", env.sdpJson answer), ("ice", theirs)]
  | left (c : Control J) (queue : List (ServerMsg J)) (said replies : List (String × J)) (gone : c.Gone) :
    HostFits env sid c queue said replies

/-- The console against the signals of the host and those still on the way. -/
inductive ConsoleFits (env : SettlingEnv J) : Console J → List (ConsoleMsg J) → List (String × J) →
    List (String × J) → Prop where
  | unready (sid : String) (ice : Option J) (said : List (String × J)) :
    ConsoleFits env .awaitingReady (.connectReady sid ice :: said.map asConsoleMsg) said []
  | preparing (sid : String) (ice : Option J) (said : List (String × J)) :
    ConsoleFits env (.preparing sid ice) (said.map asConsoleMsg) said []
  | waiting (sid : String) (cands : J) (said : List (String × J)) :
    ConsoleFits env (.answering sid cands none []) (said.map asConsoleMsg) said []
  | offered (sid : String) (cands : J) (offer answer : String) (rest : List (String × J)) :
    ConsoleFits env (.answering sid cands (some (offer, answer)) []) (rest.map asConsoleMsg)
      (("offer", env.sdpJson offer) :: rest) [("answer", env.sdpJson answer), ("ice", cands)]
  | through (sid : String) (cands : J) (offer answer : String) (theirs : J) :
    ConsoleFits env (.confirming sid (offer, answer) [theirs]) []
      [("offer", env.sdpJson offer), ("ice", theirs)] [("answer", env.sdpJson answer), ("ice", cands)]
  | failed (queue : List (ConsoleMsg J)) (said replies : List (String × J)) : ConsoleFits env .failed queue said replies

/-- What holds however the two go on. -/
structure Settling.Fits (env : SettlingEnv J) (sid : String) (s : Settling J) : Prop where
  host : HostFits env sid s.host.control s.toHost s.hostSaid s.consoleSaid
  console : ConsoleFits env s.console s.toConsole s.hostSaid s.consoleSaid
  hostLine : Line env "offer" s.hostSaid
  consoleLine : Line env "answer" s.consoleSaid

/-- The host's queue grows by what the console signals. -/
theorem HostFits.more {c : Control J} {queue : List (ServerMsg J)} {said replies new : List (String × J)}
    (h : HostFits env sid c queue said replies) (room : new ≠ [] → replies = []) :
    HostFits env sid c (queue ++ new.map (asServerMsg sid)) said (replies ++ new) := by
  cases h with
  | offering a joined ice replies =>
    rw [← List.map_append]
    exact .offering ..
  | waiting a joined ice offer cands replies =>
    rw [← List.map_append]
    exact .waiting ..
  | answered a joined ice offer cands answer rest =>
    rw [← List.map_append]
    exact .answered ..
  | through a joined ice offer cands answer theirs =>
    by_cases more : new = []
    · subst more
      exact .through ..
    · cases room more
  | left c queue said replies gone => exact .left _ _ _ _ gone

/-- The console's queue grows by what the host signals. -/
theorem ConsoleFits.more {c : Console J} {queue : List (ConsoleMsg J)} {said replies new : List (String × J)}
    (h : ConsoleFits env c queue said replies) (room : new ≠ [] → said = []) :
    ConsoleFits env c (queue ++ new.map asConsoleMsg) (said ++ new) replies := by
  cases h with
  | unready sid ice said =>
    rw [List.cons_append, ← List.map_append]
    exact .unready ..
  | preparing sid ice said =>
    rw [← List.map_append]
    exact .preparing ..
  | waiting sid cands said =>
    rw [← List.map_append]
    exact .waiting ..
  | offered sid cands offer answer rest =>
    rw [← List.map_append]
    exact .offered ..
  | through sid cands offer answer theirs =>
    by_cases more : new = []
    · subst more
      exact .through ..
    · cases room more
  | failed queue said replies => exact .failed ..

theorem line_nil (word : String) (cands : J) : Line env word [] := ⟨"", cands, List.nil_prefix⟩

/-! ## Steps of the host -/

theorem HostFits.of_offering {a : Attempt} {joined : String} {ice : Option J} {queue : List (ServerMsg J)}
    {said replies : List (String × J)} (h : HostFits env sid (.offering a joined ice) queue said replies) :
    said = [] ∧ queue = replies.map (asServerMsg sid) := by
  cases h with
  | offering => exact ⟨rfl, rfl⟩
  | left _ _ _ _ gone => exact absurd gone (Control.stays_offering a joined ice)

variable (env) in
/-- An offer: the host waits, or has given up having signalled a part. -/
theorem sendOffer_cases (a : Attempt) (joined : String) (ice : Option J) {r : Reading J}
    (texts : ∀ p ∈ r.prepared, ∃ offer, p.1 = env.sdpJson offer) :
    Line env "offer" (hostSignals (sendOffer a joined ice r).2) ∧
      ((sendOffer a joined ice r).1.Gone ∨ ∃ offer cands,
        (sendOffer a joined ice r).1 = .awaitingAnswer a ⟨joined, ice, none, []⟩ ∧
          hostSignals (sendOffer a joined ice r).2 = [("offer", env.sdpJson offer), ("ice", cands)]) := by
  unfold sendOffer
  cases hp : r.prepared with
  | none => exact ⟨⟨"", env.sdpJson "", List.nil_prefix⟩, .inl (.inl ⟨_, rfl⟩)⟩
  | some p =>
    obtain ⟨sdp, cands⟩ := p
    obtain ⟨offer, rfl⟩ := texts _ hp
    dsimp only
    cases r.ok with
    | false => exact ⟨⟨offer, cands, [("ice", cands)], rfl⟩, .inl (.inr rfl)⟩
    | true =>
      refine ⟨⟨offer, cands, List.prefix_rfl⟩, ?_⟩
      cases r.iceSent with
      | false => exact .inl (.inr rfl)
      | true => exact .inr ⟨offer, cands, rfl, rfl⟩

theorem fits_offers {s : Settling J} (h : s.Fits env sid) {r : Reading J} {a : Attempt} {joined : String}
    {ice : Option J} (at_ : s.host.control = .offering a joined ice)
    (texts : ∀ p ∈ r.prepared, ∃ offer, p.1 = env.sdpJson offer) : (s.hostStep env r 0).Fits env sid := by
  have serve : s.host.serve env.toHostEnv r = s.host.goto (sendOffer a joined ice r) := by
    unfold Host.serve
    rw [at_]
  have before := h.host
  rw [at_] at before
  obtain ⟨said, queue⟩ := before.of_offering
  obtain ⟨line, after⟩ := sendOffer_cases env a joined ice texts
  unfold Settling.hostStep
  rw [serve]
  refine ⟨?_, h.console.more fun _ => said, ?_, h.consoleLine⟩
  · dsimp only [Host.goto]
    rw [said, List.nil_append, List.drop_zero]
    rcases after with gone | ⟨offer, cands, waits, signals⟩
    · exact .left _ _ _ _ gone
    · rw [waits, signals, queue]
      exact .waiting ..
  · show Line env "offer" (s.hostSaid ++ hostSignals (sendOffer a joined ice r).2)
    rw [said]
    exact line

variable (env) in
/-- A turn of the host's loop signals nothing. -/
theorem hostSignals_awaitAnswer (a : Attempt) (n : Negotiation J) (r : Reading J) :
    hostSignals (awaitAnswer env.toHostEnv a n r).2 = [] := by
  unfold awaitAnswer whileBusy
  split
  · rfl
  · split
    · split <;> rfl
    · split <;> rfl

variable (env) in
/-- What a turn of the host's loop comes to: it stays, takes a signal, or gives up. -/
theorem awaitAnswer_cases (a : Attempt) (n : Negotiation J) (r : Reading J) :
    ((awaitAnswer env.toHostEnv a n r).1 = .awaitingAnswer a n ∧ r.signal? = none ∧ r.late = false) ∨
      (∃ sid kind payload, r.signal? = some (.signal sid kind payload) ∧ r.late = false ∧
        ∃ n', onSignal env.toHostEnv n kind payload r.answerAccepted = some n' ∧
          (awaitAnswer env.toHostEnv a n r).1 =
            if n'.answer.isSome && !n'.ice.isEmpty then .confirming a n' else .awaitingAnswer a n') ∨
      (awaitAnswer env.toHostEnv a n r).1.Gone := by
  unfold awaitAnswer
  cases late : r.late with
  | true => exact .inr (.inr (.inl ⟨_, rfl⟩))
  | false =>
    rw [if_neg Bool.false_ne_true]
    split
    · rename_i sid kind payload hm
      cases on : onSignal env.toHostEnv n kind payload r.answerAccepted with
      | none => exact .inr (.inr (.inl ⟨_, rfl⟩))
      | some n' => exact .inr (.inl ⟨sid, kind, payload, by rw [Reading.signal?, hm], rfl, n', on, rfl⟩)
    · rename_i other
      have none_ : r.signal? = none := by
        unfold Reading.signal?
        split
        · rename_i sid kind payload hm
          exact absurd hm (other sid kind payload)
        · rfl
      unfold whileBusy
      split
      · cases r.ok with
        | false => exact .inr (.inr (.inr rfl))
        | true => exact .inl ⟨rfl, none_, rfl⟩
      · exact .inl ⟨rfl, none_, rfl⟩
      · exact .inr (.inr (.inr rfl))

/-- What a party has signalled first, and what it has signalled behind that. -/
theorem Line.cases {word : String} {x : String × J} {rest : List (String × J)} (h : Line env word (x :: rest)) :
    ∃ sdp cands, x = (word, env.sdpJson sdp) ∧ rest <+: [("ice", cands)] := by
  obtain ⟨sdp, cands, before⟩ := h
  obtain ⟨first, others⟩ := List.cons_prefix_cons.1 before
  exact ⟨sdp, cands, first, others⟩

theorem HostFits.takes {a : Attempt} {n n' : Negotiation J} {queue : List (ServerMsg J)}
    {said replies : List (String × J)} (h : HostFits env sid (.awaitingAnswer a n) queue said replies)
    (line : Line env "answer" replies) {sid' kind : String}
    {payload : J} (head : queue.head? = some (.signal sid' kind payload)) {accepted : Bool}
    (on : onSignal env.toHostEnv n kind payload accepted = some n') :
    HostFits env sid (if n'.answer.isSome && !n'.ice.isEmpty then .confirming a n' else .awaitingAnswer a n') queue.tail
      said replies := by
  cases h with
  | waiting a joined ice offer cands replies =>
    cases replies with
    | nil => cases head
    | cons x rest =>
      obtain ⟨answer, theirs, rfl, -⟩ := line.cases
      cases head
      -- the answer comes first
      rw [onSignal, if_pos rfl, env.payloadStr_sdpJson] at on
      dsimp only at on
      split at on
      · cases on
        exact .answered a joined ice offer cands answer rest
      · cases on
  | answered a joined ice offer cands answer rest =>
    obtain ⟨-, theirs, -, behind⟩ := line.cases
    cases rest with
    | nil => cases head
    | cons x rest =>
      obtain ⟨rfl, none_⟩ := List.cons_prefix_cons.1 behind
      obtain rfl := List.prefix_nil.1 none_
      cases head
      unfold onSignal at on
      dsimp only at on
      rw [if_neg (by decide), if_pos rfl] at on
      cases on
      exact .through a joined ice offer cands answer theirs
  | left _ _ _ _ gone => exact absurd gone (Control.stays_awaiting a n)

theorem fits_hears {s : Settling J} (h : s.Fits env sid) {r : Reading J} {a : Attempt} {n : Negotiation J}
    (at_ : s.host.control = .awaitingAnswer a n) (head : ∀ m ∈ r.signal?, s.toHost.head? = some m) :
    (s.hostStep env r (if r.late then 0 else r.signal?.toList.length)).Fits env sid := by
  have serve : s.host.serve env.toHostEnv r = s.host.goto (awaitAnswer env.toHostEnv a n r) := by
    unfold Host.serve
    rw [at_]
  have silent := hostSignals_awaitAnswer env a n r
  unfold Settling.hostStep
  rw [serve]
  dsimp only [Host.goto]
  rw [silent, List.map_nil, List.append_nil, List.append_nil]
  refine ⟨?_, h.console, h.hostLine, h.consoleLine⟩
  have before := h.host
  rw [at_] at before
  rcases awaitAnswer_cases env a n r with ⟨stays, none_, late⟩ | ⟨sid', kind, payload, taken, late, n', on, next⟩ | gone
  · dsimp only
    rw [stays, none_, late]
    exact before
  · have first := head _ taken
    dsimp only
    rw [next, taken, late]
    have drop : s.toHost.drop 1 = s.toHost.tail := List.drop_one
    simp only [Bool.false_eq_true, if_false, Option.toList_some, List.length_singleton, drop]
    exact before.takes h.consoleLine first on
  · exact .left _ _ _ _ gone

/-! ## Steps of the console -/

/-- The console keeps the session, or gives it up having signalled a part. -/
theorem ConsoleFits.prepares {sid' : String} {ice : Option J} {queue : List (ConsoleMsg J)}
    {said replies : List (String × J)}
    (h : ConsoleFits env (.preparing sid' ice) queue said replies) (r : ConsoleReading J) :
    replies = [] ∧ consoleSignals ((Console.preparing sid' ice).connect env r).2 = [] ∧
      ConsoleFits env ((Console.preparing sid' ice).connect env r).1 queue said replies := by
  cases h with
  | preparing =>
    refine ⟨rfl, ?_⟩
    unfold Console.connect
    dsimp only
    cases r.prepared with
    | none => exact ⟨rfl, .failed ..⟩
    | some cands => exact ⟨rfl, .waiting sid' cands said⟩

theorem ConsoleReading.recv_of_queued {r : ConsoleReading J} {m : ConsoleMsg J} (taken : r.queued? = some m) :
    r.recv = .ok m := by
  unfold queued? at taken
  split at taken
  · split at taken
    · cases taken
      assumption
    · cases taken
  · cases taken

variable (env) in
/-- A turn of the console that takes no signal: it stays as it is, or fails. -/
theorem connect_of_idle {c : Console J} {r : ConsoleReading J} (idle : r.queued? = none)
    (loops : c = .awaitingReady ∨ ∃ sid cands offered ice, c = .answering sid cands offered ice) :
    (c.connect env r).2 = [] ∧ ((c.connect env r).1 = c ∨ (c.connect env r).1 = .failed) := by
  unfold ConsoleReading.queued? at idle
  unfold Console.connect
  rcases loops with rfl | ⟨sid, cands, offered, ice, rfl⟩ <;> cases hm : r.recv with
  | error => exact ⟨rfl, .inr rfl⟩
  | ok m =>
    rw [hm] at idle
    cases m with
    | connectReady | signal => cases idle
    | other => exact ⟨rfl, .inl rfl⟩
    | connectErr => first | exact ⟨rfl, .inr rfl⟩ | exact ⟨rfl, .inl rfl⟩

variable (env) in
/-- The console takes the host's offer: it answers, or fails having signalled a part. -/
theorem Console.onSignal_offer (sid : String) (cands : J) (offer : String) (r : ConsoleReading J) :
    let next := Console.onSignal env sid cands none [] "offer" (env.sdpJson offer) r
    Line env "answer" (consoleSignals next.2) ∧
      (next.1 = .failed ∨ ∃ answer, next.1 = .answering sid cands (some (offer, answer)) [] ∧
        consoleSignals next.2 = [("answer", env.sdpJson answer), ("ice", cands)]) := by
  intro next
  simp only [next, Console.onSignal, if_pos, env.payloadStr_sdpJson]
  cases r.answer with
  | none => exact ⟨line_nil "answer" cands, .inl rfl⟩
  | some answer =>
    dsimp only
    cases r.ok with
    | false => exact ⟨⟨answer, cands, [("ice", cands)], rfl⟩, .inl rfl⟩
    | true =>
      refine ⟨⟨answer, cands, List.prefix_rfl⟩, ?_⟩
      cases r.iceSent with
      | false => exact .inl rfl
      | true => exact .inr ⟨answer, rfl, rfl⟩

/-- A turn of the console in one of its loops. -/
theorem ConsoleFits.reads {c : Console J} {queue : List (ConsoleMsg J)} {said replies : List (String × J)}
    (h : ConsoleFits env c queue said replies) (line : Line env "offer" said) (theirs : Line env "answer" replies)
    (loops : c = .awaitingReady ∨ ∃ sid cands offered ice, c = .answering sid cands offered ice) {r : ConsoleReading J}
    (head : ∀ m ∈ r.queued?, queue.head? = some m) :
    let new := consoleSignals (c.connect env r).2
    (new ≠ [] → replies = []) ∧ Line env "answer" (replies ++ new) ∧
      ConsoleFits env (c.connect env r).1 (queue.drop r.queued?.toList.length) said (replies ++ new) := by
  intro new
  cases taken : r.queued? with
  | none =>
    obtain ⟨silent, stays | failed⟩ := connect_of_idle env taken loops
    · simp only [new, silent, stays]
      refine ⟨fun some_ => absurd rfl some_, ?_, ?_⟩
      · rwa [show consoleSignals ([] : List (ClientMsg J)) = [] from rfl, List.append_nil]
      · rw [show consoleSignals ([] : List (ClientMsg J)) = [] from rfl, List.append_nil]
        exact h
    · simp only [new, silent, failed]
      refine ⟨fun some_ => absurd rfl some_, ?_, .failed ..⟩
      rwa [show consoleSignals ([] : List (ClientMsg J)) = [] from rfl, List.append_nil]
  | some m =>
    have first := head m taken
    have recv := ConsoleReading.recv_of_queued taken
    cases h with
    | unready sid ice said =>
      cases first
      have next : Console.awaitingReady.connect env r = (.preparing sid ice, []) := by
        unfold Console.connect
        rw [recv]
      simp only [new, next]
      exact ⟨fun some_ => absurd rfl some_, theirs, .preparing sid ice said⟩
    | preparing sid ice said => rcases loops with loops | ⟨_, _, _, _, loops⟩ <;> cases loops
    | through => rcases loops with loops | ⟨_, _, _, _, loops⟩ <;> cases loops
    | failed => rcases loops with loops | ⟨_, _, _, _, loops⟩ <;> cases loops
    | waiting sid cands said =>
      cases said with
      | nil => cases first
      | cons x rest =>
        obtain ⟨offer, hostCands, rfl, -⟩ := line.cases
        cases first
        have next : (Console.answering sid cands none []).connect env r =
            Console.onSignal env sid cands none [] "offer" (env.sdpJson offer) r := by
          unfold Console.connect
          rw [recv]
          rfl
        obtain ⟨answers, failed | ⟨answer, stays, signals⟩⟩ := Console.onSignal_offer env sid cands offer r
        · simp only [new, next, failed]
          exact ⟨fun _ => trivial, answers, .failed ..⟩
        · simp only [new, next, stays]
          refine ⟨fun _ => trivial, answers, ?_⟩
          rw [signals]
          exact .offered sid cands offer answer rest
    | offered sid cands offer answer rest =>
      obtain ⟨-, hostCands, -, behind⟩ := line.cases
      cases rest with
      | nil => cases first
      | cons x rest =>
        obtain ⟨rfl, none_⟩ := List.cons_prefix_cons.1 behind
        obtain rfl := List.prefix_nil.1 none_
        cases first
        have next : (Console.answering sid cands (some (offer, answer)) []).connect env r =
            (.confirming sid (offer, answer) [hostCands], []) := by
          unfold Console.connect
          rw [recv]
          rfl
        simp only [new, next]
        exact ⟨fun some_ => absurd rfl some_, theirs, .through sid cands offer answer hostCands⟩

/-! ## Runs -/

theorem fits_reachable {s : Settling J} (hr : (settling env sid iceServers).Reachable s) : s.Fits env sid := by
  refine hr.invariant (fun s start => ?_) (fun s e _ h now => ?_)
  · obtain ⟨⟨a, joined, ice, host⟩, console, toConsole, toHost, hostSaid, consoleSaid⟩ := start
    constructor
    · rw [host, toHost, hostSaid, consoleSaid]
      exact .offering a joined ice []
    · rw [console, toConsole, hostSaid, consoleSaid]
      exact .unready sid iceServers []
    · rw [hostSaid]
      exact ⟨"", env.sdpJson "", List.nil_prefix⟩
    · rw [consoleSaid]
      exact ⟨"", env.sdpJson "", List.nil_prefix⟩
  · cases e with
    | offers r =>
      obtain ⟨⟨a, joined, ice, at_⟩, texts⟩ := now
      exact fits_offers h at_ texts
    | hears r =>
      obtain ⟨⟨a, n, at_⟩, head⟩ := now
      exact fits_hears h at_ head
    | prepares r =>
      obtain ⟨sid', ice, at_⟩ := now
      have before := h.console
      rw [at_] at before
      obtain ⟨none_, silent, after⟩ := before.prepares r
      show (s.consoleStep env sid r 0).Fits env sid
      unfold Settling.consoleStep
      dsimp only
      rw [at_, silent, List.map_nil, List.append_nil, List.append_nil]
      exact ⟨h.host, after, h.hostLine, h.consoleLine⟩
    | reads r =>
      obtain ⟨loops, head⟩ := now
      obtain ⟨room, line, after⟩ := h.console.reads h.hostLine h.consoleLine loops head
      exact ⟨h.host.more room, after, h.hostLine, line⟩

/-! ## When nothing fails -/

/-- A step at which the sockets, the candidates and str0m do what they are for. -/
def SettlingEvent.Works (env : SettlingEnv J) : SettlingEvent J → Prop
  | .offers r => r.prepared.isSome ∧ r.ok = true ∧ r.iceSent = true
  | .hears r => r.late = false ∧ r.ok = true ∧ r.answerAccepted = true ∧ r.recv ≠ .error ()
  | .prepares r => r.prepared.isSome
  | .reads r => (∃ answer, r.answer = some answer ∧ env.isSdpAnswer answer = true) ∧ r.ok = true ∧ r.iceSent = true ∧
      r.recv ≠ .error () ∧ ∀ code, r.recv ≠ .ok (.connectErr code)

/-- A step that takes a party on; the others pass something over. -/
def SettlingEvent.own : SettlingEvent J → Bool
  | .offers _ => true
  | .hears r => r.signal?.isSome
  | .prepares _ => true
  | .reads r => r.queued?.isSome

def Control.stepsLeft : Control J → Nat
  | .offering .. => 3
  | .awaitingAnswer _ n => if n.answer.isNone then 2 else 1
  | _ => 0

def Console.stepsLeft : Console J → Nat
  | .awaitingReady => 4
  | .preparing .. => 3
  | .answering _ _ none _ => 2
  | .answering _ _ (some _) _ => 1
  | _ => 0

def Settling.rank (s : Settling J) : Nat := s.host.control.stepsLeft + s.console.stepsLeft

/-- Neither has given up, and the console's answer is one. -/
structure Settling.Alive (env : SettlingEnv J) (s : Settling J) : Prop where
  host : ¬ s.host.control.Gone
  console : s.console ≠ .failed
  answers : ∀ sdp, ("answer", env.sdpJson sdp) ∈ s.consoleSaid → env.isSdpAnswer sdp = true

theorem sdpJson_inj {sdp sdp' : String} (same : env.sdpJson sdp = env.sdpJson sdp') : sdp = sdp' := by
  have text := env.payloadStr_sdpJson sdp
  rw [same, env.payloadStr_sdpJson] at text
  exact (Option.some.inj text).symm

theorem works_offers (a : Attempt) (joined : String) (ice : Option J) {r : Reading J} (prepared : r.prepared.isSome)
    (ok : r.ok = true) (iceSent : r.iceSent = true) :
    (sendOffer a joined ice r).1 = .awaitingAnswer a ⟨joined, ice, none, []⟩ := by
  obtain ⟨p, hp⟩ := Option.isSome_iff_exists.1 prepared
  simp [sendOffer, hp, ok, iceSent]

/-- A turn of the host's loop: it goes on exactly if it takes a signal. -/
theorem works_hears {a : Attempt} {n : Negotiation J} {queue : List (ServerMsg J)} {said replies : List (String × J)}
    (h : HostFits env sid (.awaitingAnswer a n) queue said replies) (line : Line env "answer" replies)
    (answers : ∀ sdp, ("answer", env.sdpJson sdp) ∈ replies → env.isSdpAnswer sdp = true) {r : Reading J}
    (head : ∀ m ∈ r.signal?, queue.head? = some m) (works : (SettlingEvent.hears r).Works env) :
    let next := (awaitAnswer env.toHostEnv a n r).1
    ¬ next.Gone ∧ (if r.signal?.isSome then next.stepsLeft < (Control.awaitingAnswer a n).stepsLeft
      else next = .awaitingAnswer a n) := by
  intro next
  obtain ⟨late, ok, accepted, up⟩ := works
  cases taken : r.signal? with
  | none =>
    have stays : next = .awaitingAnswer a n := by
      simp only [next, awaitAnswer, late, Bool.false_eq_true, if_false]
      split
      · rename_i sid kind payload hm
        rw [Reading.signal?, hm] at taken
        cases taken
      · unfold whileBusy
        split
        · simp [ok]
        · rfl
        · rename_i broken hm
          exact absurd hm up
    rw [stays]
    exact ⟨Control.stays_awaiting a n, rfl⟩
  | some m =>
    have first := head m taken
    have recv : r.recv = .ok (some m) := by
      unfold Reading.signal? at taken
      split at taken
      · cases taken
        assumption
      · cases taken
    cases h with
    | waiting a joined ice offer cands replies =>
      cases replies with
      | nil => cases first
      | cons x rest =>
        obtain ⟨answer, theirs, rfl, -⟩ := line.cases
        cases first
        have goes : next = .awaitingAnswer a ⟨joined, ice, some answer, []⟩ := by
          simp [next, awaitAnswer, late, recv, asServerMsg, onSignal, env.payloadStr_sdpJson,
            answers answer List.mem_cons_self, accepted]
        rw [goes]
        exact ⟨Control.stays_awaiting _ _, Nat.lt_succ_self 1⟩
    | answered a joined ice offer cands answer rest =>
      obtain ⟨-, theirs, -, behind⟩ := line.cases
      cases rest with
      | nil => cases first
      | cons x rest =>
        obtain ⟨rfl, -⟩ := List.cons_prefix_cons.1 behind
        cases first
        have goes : next = .confirming a ⟨joined, ice, some answer, [theirs]⟩ := by
          simp [next, awaitAnswer, late, recv, asServerMsg, onSignal]
        rw [goes]
        exact ⟨Control.stays_confirming _ _, Nat.zero_lt_one⟩
    | left _ _ _ _ gone => exact absurd gone (Control.stays_awaiting a n)

/-- A turn of the console: it goes on exactly if it takes a message, and what it signals
then is an answer. -/
theorem works_reads {c : Console J} {queue : List (ConsoleMsg J)} {said replies : List (String × J)}
    (h : ConsoleFits env c queue said replies) (line : Line env "offer" said)
    (loops : c = .awaitingReady ∨ ∃ sid cands offered ice, c = .answering sid cands offered ice) {r : ConsoleReading J}
    (head : ∀ m ∈ r.queued?, queue.head? = some m) (works : (SettlingEvent.reads r).Works env) :
    let next := c.connect env r
    next.1 ≠ .failed ∧ (if r.queued?.isSome then next.1.stepsLeft < c.stepsLeft else next.1 = c) ∧
      ∀ sdp, ("answer", env.sdpJson sdp) ∈ consoleSignals next.2 → env.isSdpAnswer sdp = true := by
  intro next
  obtain ⟨⟨answer, hanswer, parses⟩, ok, iceSent, up, calm⟩ := works
  have waits : c ≠ .failed := by rcases loops with rfl | ⟨_, _, _, _, rfl⟩ <;> nofun
  cases taken : r.queued? with
  | none =>
    obtain ⟨silent, stays | failed⟩ := connect_of_idle env taken loops
    · rw [show next = _ from rfl, silent, stays]
      exact ⟨waits, rfl, nofun⟩
    · -- only an error ends a loop without taking a message
      exfalso
      unfold Console.connect at failed
      unfold ConsoleReading.queued? at taken
      rcases loops with rfl | ⟨_, _, _, _, rfl⟩ <;> cases hm : r.recv with
      | error => exact up hm
      | ok m =>
        rw [hm] at failed taken
        cases m with
        | connectReady | signal => cases taken
        | other => cases failed
        | connectErr code => exact calm code hm
  | some m =>
    have first := head m taken
    have recv := ConsoleReading.recv_of_queued taken
    cases h with
    | unready sid ice said =>
      cases first
      have goes : next = (.preparing sid ice, []) := by
        simp only [next, Console.connect, recv]
      rw [goes]
      exact ⟨nofun, Nat.lt_succ_self 3, nofun⟩
    | preparing | through | failed => rcases loops with loops | ⟨_, _, _, _, loops⟩ <;> cases loops
    | waiting sid cands said =>
      cases said with
      | nil => cases first
      | cons x rest =>
        obtain ⟨offer, hostCands, rfl, -⟩ := line.cases
        cases first
        have goes : next = (.answering sid cands (some (offer, answer)) [],
            [.signal sid "answer" (env.sdpJson answer), .signal sid "ice" cands]) := by
          simp [next, Console.connect, recv, asConsoleMsg, Console.onSignal, env.payloadStr_sdpJson, hanswer, ok,
            iceSent, Console.loop]
        rw [goes]
        refine ⟨nofun, Nat.lt_succ_self 1, fun sdp said => ?_⟩
        simp only [consoleSignals, List.filterMap_cons, List.filterMap_nil, List.mem_cons, Prod.mk.injEq,
          List.not_mem_nil, or_false] at said
        rcases said with ⟨-, same⟩ | ⟨word, -⟩
        · rw [sdpJson_inj same]
          exact parses
        · exact absurd word (by decide)
    | offered sid cands offer answer' rest =>
      obtain ⟨-, hostCands, -, behind⟩ := line.cases
      cases rest with
      | nil => cases first
      | cons x rest =>
        obtain ⟨rfl, -⟩ := List.cons_prefix_cons.1 behind
        cases first
        have goes : next = (.confirming sid (offer, answer') [hostCands], []) := by
          simp only [next, Console.connect, recv]
          rfl
        rw [goes]
        exact ⟨nofun, Nat.zero_lt_one, nofun⟩

/-- The runs in which nothing fails. -/
def smooth (env : SettlingEnv J) (sid : String) (iceServers : Option J) : System (Settling J) (SettlingEvent J) :=
  (settling env sid iceServers).restrict fun _ e => e.Works env

/-- A step of a smooth run keeps both alive and lowers the rank if it takes one of them on. -/
theorem smooth_step {s : Settling J} (fits : s.Fits env sid) (alive : s.Alive env) {e : SettlingEvent J}
    (now : (smooth env sid iceServers).enabled s e) :
    let next := (smooth env sid iceServers).step s e
    next.Alive env ∧ if e.own then next.rank < s.rank else next.rank = s.rank := by
  intro next
  obtain ⟨now, works⟩ := now
  cases e with
  | offers r =>
    obtain ⟨⟨a, joined, ice, at_⟩, -⟩ := now
    obtain ⟨prepared, ok, iceSent⟩ := works
    have goes : next.host.control = .awaitingAnswer a ⟨joined, ice, none, []⟩ := by
      rw [← works_offers a joined ice prepared ok iceSent]
      show (s.host.serve env.toHostEnv r).1.control = _
      unfold Host.serve
      rw [at_]
      rfl
    refine ⟨⟨?_, alive.console, alive.answers⟩, ?_⟩
    · rw [goes]
      exact Control.stays_awaiting a _
    · show next.host.control.stepsLeft + s.console.stepsLeft < s.rank
      rw [goes, Settling.rank, at_]
      simp [Control.stepsLeft]
  | hears r =>
    obtain ⟨⟨a, n, at_⟩, head⟩ := now
    have before := fits.host
    rw [at_] at before
    obtain ⟨stays, goes⟩ := works_hears before fits.consoleLine alive.answers head works
    have control : next.host.control = (awaitAnswer env.toHostEnv a n r).1 := by
      show (s.host.serve env.toHostEnv r).1.control = _
      unfold Host.serve
      rw [at_]
      rfl
    refine ⟨⟨?_, alive.console, alive.answers⟩, ?_⟩
    · rw [control]
      exact stays
    · have rank : next.rank = (awaitAnswer env.toHostEnv a n r).1.stepsLeft + s.console.stepsLeft := by
        rw [← control]
        rfl
      rw [rank, Settling.rank, at_, SettlingEvent.own]
      split at goes
      · rename_i takes
        rw [if_pos takes]
        omega
      · rename_i idle
        rw [if_neg idle, goes]
  | prepares r =>
    obtain ⟨sid', ice, at_⟩ := now
    obtain ⟨cands, prepared⟩ := Option.isSome_iff_exists.1 works
    have goes : s.console.connect env r = (.answering sid' cands none [], []) := by
      rw [at_, Console.connect, prepared]
    refine ⟨⟨alive.host, ?_, ?_⟩, ?_⟩
    · show (s.console.connect env r).1 ≠ .failed
      rw [goes]
      nofun
    · show ∀ sdp, _ ∈ s.consoleSaid ++ consoleSignals (s.console.connect env r).2 → _
      rw [goes]
      intro sdp said
      exact alive.answers sdp ((List.mem_append.1 said).resolve_right nofun)
    · show s.host.control.stepsLeft + (s.console.connect env r).1.stepsLeft < s.rank
      rw [goes, Settling.rank, at_]
      simp [Console.stepsLeft]
  | reads r =>
    obtain ⟨loops, head⟩ := now
    obtain ⟨stays, goes, answers⟩ := works_reads fits.console fits.hostLine loops head works
    refine ⟨⟨alive.host, stays, fun sdp said => ?_⟩, ?_⟩
    · rcases List.mem_append.1 said with before | new
      · exact alive.answers sdp before
      · exact answers sdp new
    · have rank : next.rank = s.host.control.stepsLeft + (s.console.connect env r).1.stepsLeft := rfl
      rw [rank, Settling.rank, SettlingEvent.own]
      split at goes
      · rename_i takes
        rw [if_pos takes]
        omega
      · rename_i idle
        rw [if_neg idle, goes]

theorem alive_reachable {s : Settling J} (hr : (smooth env sid iceServers).Reachable s) : s.Alive env := by
  refine hr.invariant (fun s start => ?_)
    (fun s e hr alive now => (smooth_step (fits_reachable hr.of_restrict) alive now).1)
  obtain ⟨⟨a, joined, ice, host⟩, console, -, -, -, said⟩ := start
  refine ⟨?_, ?_, ?_⟩
  · rw [host]
    exact Control.stays_offering a joined ice
  · rw [console]
    nofun
  · rw [said]
    exact nofun

theorem smooth_ranked : (smooth env sid iceServers).Ranked (fun _ e => e.own) Settling.rank 0 where
  lowers s e hr now own := by
    have step := (smooth_step (fits_reachable hr.of_restrict) (alive_reachable hr) now).2
    rwa [if_pos own] at step
  raises s e hr now other := by
    have step := (smooth_step (fits_reachable hr.of_restrict) (alive_reachable hr) now).2
    rw [if_neg (by rw [other]; exact Bool.false_ne_true)] at step
    omega

/-- The host needs to wait for nothing. -/
def Settling.HostGoes (s : Settling J) : Prop :=
  (∃ a joined ice, s.host.control = .offering a joined ice) ∨
    (∃ a n, s.host.control = .awaitingAnswer a n) ∧ s.toHost ≠ []

/-- The console needs to wait for nothing. -/
def Settling.ConsoleGoes (s : Settling J) : Prop :=
  (∃ sid ice, s.console = .preparing sid ice) ∨
    (s.console = .awaitingReady ∨ ∃ sid cands offered ice, s.console = .answering sid cands offered ice) ∧
      s.toConsole ≠ []

/-- Both have come through with the two texts, and each with the candidates the other has
signalled. -/
def Settling.Settled (env : SettlingEnv J) (s : Settling J) : Prop :=
  ∃ a joined ice sid offer answer hostCands consoleCands,
    s.host.control = .confirming a ⟨joined, ice, some answer, [consoleCands]⟩ ∧
    s.console = .confirming sid (offer, answer) [hostCands] ∧
    s.hostSaid = [("offer", env.sdpJson offer), ("ice", hostCands)] ∧
    s.consoleSaid = [("answer", env.sdpJson answer), ("ice", consoleCands)]

theorem HostFits.of_confirming {a : Attempt} {n : Negotiation J} {queue : List (ServerMsg J)}
    {said replies : List (String × J)} (h : HostFits env sid (.confirming a n) queue said replies) :
    ∃ joined ice offer cands answer theirs, n = ⟨joined, ice, some answer, [theirs]⟩ ∧
      said = [("offer", env.sdpJson offer), ("ice", cands)] ∧
      replies = [("answer", env.sdpJson answer), ("ice", theirs)] := by
  cases h with
  | through a joined ice offer cands answer theirs => exact ⟨joined, ice, offer, cands, answer, theirs, rfl, rfl, rfl⟩
  | left _ _ _ _ gone => exact absurd gone (Control.stays_confirming a n)

theorem ConsoleFits.of_confirming {sid : String} {texts : String × String} {ice : List J} {queue : List (ConsoleMsg J)}
    {said replies : List (String × J)} (h : ConsoleFits env (.confirming sid texts ice) queue said replies) :
    ∃ offer answer cands theirs, texts = (offer, answer) ∧ ice = [theirs] ∧
      said = [("offer", env.sdpJson offer), ("ice", theirs)] ∧
      replies = [("answer", env.sdpJson answer), ("ice", cands)] := by
  cases h with
  | through sid cands offer answer theirs => exact ⟨offer, answer, cands, theirs, rfl, rfl, rfl, rfl⟩

/-- Two parties that fit the same signals and have both come through agree. -/
theorem Settling.Fits.settled {s : Settling J} (h : s.Fits env sid) {a : Attempt} {n : Negotiation J}
    (host : s.host.control = .confirming a n) {sid' : String} {texts : String × String} {ice : List J}
    (console : s.console = .confirming sid' texts ice) : s.Settled env := by
  obtain ⟨hostFits, consoleFits, -, -⟩ := h
  rw [host] at hostFits
  rw [console] at consoleFits
  obtain ⟨joined, ice', offer, hostCands, answer, consoleCands, rfl, said, replies⟩ := hostFits.of_confirming
  obtain ⟨offer', answer', consoleCands', hostCands', rfl, rfl, said', replies'⟩ := consoleFits.of_confirming
  rw [said] at said'
  rw [replies] at replies'
  simp only [List.cons.injEq, Prod.mk.injEq, true_and, and_true] at said' replies'
  obtain rfl := sdpJson_inj said'.1
  obtain rfl := sdpJson_inj replies'.1
  rw [← said'.2] at console
  exact ⟨a, joined, ice', sid', offer, answer, hostCands, consoleCands, host, console, said, replies⟩

/-- Once the host has signalled both, the console has something to do or has come through. -/
theorem ConsoleFits.goes {c : Console J} {queue : List (ConsoleMsg J)} {said replies : List (String × J)}
    (h : ConsoleFits env c queue said replies) (alive : c ≠ .failed) (both : said.length = 2) :
    (∃ sid ice, c = .preparing sid ice) ∨
      ((c = .awaitingReady ∨ ∃ sid cands offered ice, c = .answering sid cands offered ice) ∧ queue ≠ []) ∨
      (∃ sid texts ice, c = .confirming sid texts ice) ∧ replies.length = 2 := by
  cases h with
  | unready => exact .inr (.inl ⟨.inl rfl, List.cons_ne_nil _ _⟩)
  | preparing sid ice => exact .inl ⟨sid, ice, rfl⟩
  | waiting sid cands said =>
    refine .inr (.inl ⟨.inr ⟨sid, cands, none, [], rfl⟩, fun empty => ?_⟩)
    rw [List.map_eq_nil_iff.1 empty] at both
    cases both
  | offered sid cands offer answer rest =>
    refine .inr (.inl ⟨.inr ⟨sid, cands, some (offer, answer), [], rfl⟩, fun empty => ?_⟩)
    rw [List.map_eq_nil_iff.1 empty] at both
    cases both
  | through sid cands offer answer theirs => exact .inr (.inr ⟨⟨sid, _, _, rfl⟩, rfl⟩)
  | failed => exact absurd rfl alive

/-- A console that has not failed has signalled both or nothing. -/
theorem ConsoleFits.replies_length {c : Console J} {queue : List (ConsoleMsg J)} {said replies : List (String × J)}
    (h : ConsoleFits env c queue said replies) (alive : c ≠ .failed) : replies.length = 0 ∨ replies.length = 2 := by
  cases h with
  | unready | preparing | waiting => exact .inl rfl
  | offered | through => exact .inr rfl
  | failed => exact absurd rfl alive

theorem HostFits.goes {c : Control J} {queue : List (ServerMsg J)} {said replies : List (String × J)}
    (h : HostFits env sid c queue said replies) (alive : ¬ c.Gone) (replied : replies.length = 0 ∨ replies.length = 2) :
    ((∃ a joined ice, c = .offering a joined ice) ∨ (∃ a n, c = .awaitingAnswer a n) ∧ queue ≠ []) ∨
      said.length = 2 ∧ (replies.length = 0 ∨ ∃ a n, c = .confirming a n) := by
  cases h with
  | offering a joined ice => exact .inl (.inl ⟨a, joined, ice, rfl⟩)
  | waiting a joined ice offer cands replies =>
    cases replies with
    | nil => exact .inr ⟨rfl, .inl rfl⟩
    | cons x rest => exact .inl (.inr ⟨⟨a, _, rfl⟩, List.cons_ne_nil _ _⟩)
  | answered a joined ice offer cands answer rest =>
    refine .inl (.inr ⟨⟨a, _, rfl⟩, fun empty => ?_⟩)
    rw [List.map_eq_nil_iff.1 empty] at replied
    rcases replied with replied | replied <;> cases replied
  | through a joined ice offer cands answer theirs => exact .inr ⟨rfl, .inr ⟨a, _, rfl⟩⟩
  | left _ _ _ _ gone => exact absurd gone alive

/-- Unless both have come through, one of the living has something to do. -/
theorem Settling.Fits.goes {s : Settling J} (h : s.Fits env sid) (alive : s.Alive env) :
    s.Settled env ∨ s.HostGoes ∨ s.ConsoleGoes := by
  have replied := h.console.replies_length alive.console
  rcases h.host.goes alive.host replied with goes | ⟨both, silent | ⟨a, n, host⟩⟩
  · exact .inr (.inl goes)
  · rcases h.console.goes alive.console both with goes | goes | ⟨-, two⟩
    · exact .inr (.inr (.inl goes))
    · exact .inr (.inr (.inr goes))
    · rw [silent] at two
      cases two
  · rcases h.console.goes alive.console both with goes | goes | ⟨⟨sid', texts, ice, console⟩, -⟩
    · exact .inr (.inr (.inl goes))
    · exact .inr (.inr (.inr goes))
    · exact .inl (h.settled host console)

/-- From the moment the host is ready to offer: when both have come through, whatever
failed on the way, they hold the same offer and answer and each the other's candidates. And
while nothing fails neither waits for the other in vain: they take no more than seven steps
besides those that pass something over, and always one of them can go on until both have
come through. -/
theorem offer_answer_settles {s : Settling J} {es : List (SettlingEvent J)}
    (start : (settling env sid iceServers).init s)
    (hv : (settling env sid iceServers).Valid s es) :
    let s' := (settling env sid iceServers).after s es
    ((∃ a n, s'.host.control = .confirming a n) → (∃ sid texts ice, s'.console = .confirming sid texts ice) →
      s'.Settled env) ∧
    ((settling env sid iceServers).AllSteps (fun _ e => e.Works env) s es →
      es.countP SettlingEvent.own ≤ 7 ∧ (s'.Settled env ∨ s'.HostGoes ∨ s'.ConsoleGoes)) := by
  intro s'
  have reached : (settling env sid iceServers).Reachable s' := (System.Reachable.init start).after hv
  constructor
  · rintro ⟨a, n, host⟩ ⟨sid', texts, ice, console⟩
    exact (fits_reachable reached).settled host console
  · intro works
    have init : (smooth env sid iceServers).Reachable s := .init start
    have valid : (smooth env sid iceServers).Valid s es := System.valid_restrict.2 ⟨hv, works⟩
    have bound := smooth_ranked.events_le_rank init valid
    have seven : s.rank = 7 := by
      obtain ⟨⟨a, joined, ice, host⟩, console, -⟩ := start
      rw [Settling.rank, host, console]
      rfl
    have alive : s'.Alive env := alive_reachable (init.after valid)
    exact ⟨by omega, (fits_reachable reached).goes alive⟩

end Invariant

/-- SDP texts stand for themselves. -/
def sampleSettlingEnv : SettlingEnv String where
  toHostEnv := sampleHostEnv
  sdpJson sdp := sdp
  payloadStr_sdpJson _ := rfl

/-- The host hears the answer before the console has read its candidates. -/
theorem offer_answer_settles_quickly :
    let s : Settling String :=
      ⟨⟨.offering ⟨"s", none, []⟩ "s" none, "code", 0⟩, .awaitingReady, [.connectReady "s" none], [], [], []⟩
    let es : List (SettlingEvent String) :=
      [.reads { recv := .ok (.connectReady "s" none), answer := some "a" }, .offers { prepared := some ("o", "h") },
        .prepares { prepared := some "c" }, .reads { recv := .ok (.signal "offer" "o"), answer := some "a" },
        .hears { recv := .ok (some (.signal "s" "answer" "a")) }, .hears {},
        .reads { recv := .ok (.signal "ice" "h"), answer := some "a" },
        .hears { recv := .ok (some (.signal "s" "ice" "c")) }]
    ((settling sampleSettlingEnv "s" none).after s es).Settled sampleSettlingEnv ∧
      es.countP SettlingEvent.own ≤ 7 := by
  intro s es
  have text (sdp cands : String) : ∀ p ∈ some (sdp, cands), ∃ offer, p.1 = sampleSettlingEnv.sdpJson offer := by
    rintro _ ⟨⟩
    exact ⟨sdp, rfl⟩
  have start : (settling sampleSettlingEnv "s" none).init s := ⟨⟨_, _, _, rfl⟩, rfl, rfl, rfl, rfl, rfl⟩
  have valid : (settling sampleSettlingEnv "s" none).Valid s es :=
    ⟨⟨.inl rfl, fun _ h => h ▸ rfl⟩, ⟨⟨_, _, _, rfl⟩, text _ _⟩, ⟨_, _, rfl⟩,
      ⟨.inr ⟨_, _, _, _, rfl⟩, fun _ h => h ▸ rfl⟩, ⟨⟨_, _, rfl⟩, fun _ h => h ▸ rfl⟩, ⟨⟨_, _, rfl⟩, nofun⟩,
      ⟨.inr ⟨_, _, _, _, rfl⟩, fun _ h => h ▸ rfl⟩, ⟨⟨_, _, rfl⟩, fun _ h => h ▸ rfl⟩, trivial⟩
  have run := offer_answer_settles start valid
  refine ⟨run.1 ⟨_, _, rfl⟩ ⟨_, _, _, rfl⟩, (run.2 ?_).1⟩
  have reads (m : ConsoleMsg String) (calm : ∀ code, m ≠ .connectErr code) :
      (SettlingEvent.reads { recv := .ok m, answer := some "a" }).Works sampleSettlingEnv :=
    ⟨⟨"a", rfl, rfl⟩, rfl, rfl, nofun, fun code h => calm code (Except.ok.inj h)⟩
  exact ⟨reads _ nofun, ⟨rfl, rfl, rfl⟩, rfl, reads _ nofun, ⟨rfl, rfl, rfl, nofun⟩, ⟨rfl, rfl, rfl, nofun⟩,
    reads _ nofun, ⟨rfl, rfl, rfl, nofun⟩, trivial⟩

end ZortilWatch.Core
