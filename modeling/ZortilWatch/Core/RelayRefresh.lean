import ZortilWatch.Core.Crypto
import ZortilWatch.Lib.Runs

/-!
# Keeping a relayed session alive (`core/src/connection.rs`, `core/src/relay.rs`)

Both session loops send a TURN Refresh on a schedule derived from the granted
lifetime, and once more for every 438 that brings a new nonce. The server keeps
two timers, the allocation's and that of the permission for the peer's relayed
address; only the establishment of a session serves the second one.
-/

namespace ZortilWatch.Core

/-- `Duration::from_secs`. Durations and moments of the monotonic clock are in nanoseconds. -/
def fromSecs (seconds : Nat) : Nat := seconds * 1000000000

/-- What the refresh schedule uses of `TurnClient`. -/
structure TurnClient where
  /-- Lifetime of the allocation as the server granted it, in seconds. -/
  lifetime : Nat
  nonce : String
  deriving DecidableEq, Repr

/-- A REFRESH request. -/
structure Refresh where
  lifetime : Nat
  nonce : String
  deriving DecidableEq, Repr

inductive TurnInbound where
  | data (peer : String) (payload : Bytes)
  | staleNonce (nonce : String)
  | other
  deriving DecidableEq, Repr

/-- The lifetime attribute of the Allocate response, 600 s without one. -/
def TurnClient.allocate (granted : Option Nat) (nonce : String) : TurnClient where
  lifetime := granted.getD 600
  nonce := nonce

def TurnClient.lifetimeSecs (client : TurnClient) : Nat := min client.lifetime (2 ^ 32 - 1)

def TurnClient.setNonce (client : TurnClient) (nonce : String) : TurnClient := { client with nonce := nonce }

def TurnClient.refreshRequestBytes (client : TurnClient) : Refresh where
  lifetime := client.lifetime
  nonce := client.nonce

def turnRefreshInterval (turnClient : Option TurnClient) : Option Nat :=
  turnClient.map fun c => fromSecs (max (c.lifetimeSecs / 2) 60)

/-- The new `last` and the request sent, if any. -/
def maybeRefreshTurn (turnClient : Option TurnClient) (every : Option Nat) (last now : Nat) :
    Nat × Option Refresh :=
  match every, turnClient with
  | some iv, some client => if iv ≤ now - last then (now, some client.refreshRequestBytes) else (last, none)
  | _, _ => (last, none)

/-- `recv_one` on a datagram of the TURN server: a 438 is repeated at once
under the nonce it brings, and does not count for the schedule. -/
def recvOne (turnClient : Option TurnClient) (inbound : TurnInbound) : Option TurnClient × Option Refresh :=
  match inbound, turnClient with
  | .staleNonce nonce, some client =>
    (some (client.setNonce nonce), some (client.setNonce nonce).refreshRequestBytes)
  | _, _ => (turnClient, none)

/-! ## The TURN server -/

/-- `PERMISSION_LIFETIME` of RFC 5766, in seconds. -/
def PERMISSION_LIFETIME : Nat := 300

/-- What the server keeps for one allocation and for the permission of the
peer's relayed address. -/
structure TurnServer where
  nonce : String
  lifetime : Nat
  /-- Allocate or last successful Refresh. -/
  allocatedAt : Nat
  /-- Last CreatePermission. -/
  permittedAt : Option Nat
  deriving DecidableEq, Repr

namespace TurnServer

variable (srv : TurnServer)

def expiresAt : Nat := srv.allocatedAt + fromSecs srv.lifetime

/-- Neither the allocation nor the permission has expired. -/
def Relays (t : Nat) : Prop := t < srv.expiresAt ∧ ∃ p ∈ srv.permittedAt, t < p + fromSecs PERMISSION_LIFETIME

def allocate (lifetime : Nat) (nonce : String) (now : Nat) : TurnServer := ⟨nonce, lifetime, now, none⟩

/-- A request is served under the current nonce, for an allocation that exists. -/
def Serves (nonce : String) (now : Nat) : Prop := nonce = srv.nonce ∧ now < srv.expiresAt

instance (nonce : String) (now : Nat) : Decidable (srv.Serves nonce now) :=
  inferInstanceAs (Decidable (_ ∧ _))

/-- A request that is not served: 438 for a stale nonce, 437 without an allocation. -/
def refusal (nonce : String) : TurnInbound := if nonce = srv.nonce then .other else .staleNonce srv.nonce

def createPermission (nonce : String) (now : Nat) : TurnServer :=
  if srv.Serves nonce now then { srv with permittedAt := some now } else srv

def refresh (req : Refresh) (now : Nat) : TurnServer × TurnInbound :=
  if srv.Serves req.nonce now then ({ srv with lifetime := req.lifetime, allocatedAt := now }, .other)
  else (srv, srv.refusal req.nonce)

end TurnServer

/-- The relay part of `apply_peer_candidates`: `relayed` is the address the
peer's message names, where it parses. The outcome of the request is ignored. -/
def applyPeerCandidates (turnClient : Option TurnClient) (relayed : Option String) (srv : TurnServer)
    (now : Nat) : TurnServer :=
  match turnClient, relayed with
  | some client, some _ => srv.createPermission client.nonce now
  | _, _ => srv

/-! ## The loops -/

/-- The refresh state of `controller_loop` or `managed_loop` beside the server.
`now` is the last moment so far, `iteratedAt` the last start of an iteration,
`refusedAt` the oldest Refresh refused since one was served. -/
structure RelayLoop where
  turnClient : Option TurnClient
  refreshEvery : Option Nat
  refreshedAt : Nat
  server : TurnServer
  answers : List TurnInbound
  now : Nat
  iteratedAt : Nat
  refusedAt : Option Nat
  deriving DecidableEq, Repr

inductive RelayAct where
  /-- Top of the loop. -/
  | iterate
  /-- `recv_one` reads a datagram of the server. -/
  | recv (inbound : TurnInbound)
  /-- The server takes another nonce. -/
  | rotate (nonce : String)
  deriving DecidableEq, Repr

structure RelayEvent where
  time : Nat
  act : RelayAct
  deriving DecidableEq, Repr

namespace RelayLoop

def enter (client : TurnClient) (server : TurnServer) (now : Nat) : RelayLoop where
  turnClient := some client
  refreshEvery := turnRefreshInterval (some client)
  refreshedAt := now
  server := server
  answers := []
  now := now
  iteratedAt := now
  refusedAt := none

/-- A request that reaches the server. -/
def send (s : RelayLoop) : Option Refresh → RelayLoop
  | none => s
  | some req =>
    { s with
      server := (s.server.refresh req s.now).1
      answers := (s.server.refresh req s.now).2 :: s.answers
      refusedAt := if s.server.Serves req.nonce s.now then none else s.refusedAt.or (some s.now) }

def step (s : RelayLoop) (e : RelayEvent) : RelayLoop :=
  match e.act with
  | .iterate =>
    let (last, req) := maybeRefreshTurn s.turnClient s.refreshEvery s.refreshedAt e.time
    { s with now := e.time, iteratedAt := e.time, refreshedAt := last }.send req
  | .recv inbound =>
    let (turnClient, req) := recvOne s.turnClient inbound
    { s with now := e.time, turnClient := turnClient }.send req
  | .rotate nonce => { s with now := e.time, server := { s.server with nonce := nonce } }

/-- A 438 that is read was sent. -/
def Sent (s : RelayLoop) : RelayAct → Prop
  | .recv (.staleNonce nonce) => .staleNonce nonce ∈ s.answers
  | _ => True

instance (s : RelayLoop) : (act : RelayAct) → Decidable (s.Sent act)
  | .recv (.staleNonce nonce) => inferInstanceAs (Decidable (.staleNonce nonce ∈ s.answers))
  | .recv (.data ..) | .recv .other | .iterate | .rotate _ => .isTrue trivial

end RelayLoop

/-- Sessions over a relay whose loop iterates at least once a second. -/
def relayLoop : System RelayLoop RelayEvent where
  init s := ∃ client server now,
    s = .enter client server now ∧ server.lifetime = client.lifetime ∧ server.allocatedAt ≤ now
  enabled s e := s.now ≤ e.time ∧ e.time ≤ s.iteratedAt + fromSecs 1 ∧ s.Sent e.act
  step := RelayLoop.step

instance (s : RelayLoop) (e : RelayEvent) : Decidable (relayLoop.enabled s e) :=
  inferInstanceAs (Decidable (_ ∧ _ ∧ _))

/-- The server relays at every moment of the loop. -/
def RelaysThroughout (s : RelayLoop) (es : List RelayEvent) : Prop :=
  s.server.Relays s.now ∧
    relayLoop.AllSteps (fun s e => ∀ t, s.now ≤ t → t ≤ e.time → s.server.Relays t) s es

/-- The refresh interval of a session. -/
def RelayLoop.interval (s : RelayLoop) : Nat := s.refreshEvery.getD 0

/-- Some iteration between the first moment a Refresh is due and the end of the
allocation, the interval and a second within the lifetime, and `wait` to spare
in both; and no refused Refresh waits longer until one is served. -/
structure RefreshesInTime (wait : Nat) (s : RelayLoop) (es : List RelayEvent) : Prop where
  slack : s.interval + fromSecs 1 + wait ≤ fromSecs s.server.lifetime
  first : ∃ e ∈ es, e.act = .iterate ∧ s.refreshedAt + s.interval ≤ e.time ∧ e.time + wait < s.server.expiresAt
  answered : relayLoop.AllSteps (fun s e => ∀ u ∈ s.refusedAt, e.time ≤ u + wait) s es

/-- The loop ends before the permission does, and either ends before the
allocation as well or refreshes it in time. -/
structure InTime (s : RelayLoop) (es : List RelayEvent) : Prop where
  permission : ∃ p ∈ s.server.permittedAt, (relayLoop.after s es).now < p + fromSecs PERMISSION_LIFETIME
  allocation : (relayLoop.after s es).now < s.server.expiresAt ∨ ∃ wait, RefreshesInTime wait s es

/-- The client knows the server's nonce, and the server keeps it. -/
structure NonceKept (s : RelayLoop) (es : List RelayEvent) : Prop where
  known : s.turnClient.map (·.nonce) = some s.server.nonce
  kept : ∀ e ∈ es, ∀ nonce, e.act ≠ .rotate nonce

/-! ## What a step does -/

namespace RelayLoop

/-- What holds in every state of a session with the granted `lifetime`. -/
structure Running (lifetime : Nat) (s : RelayLoop) : Prop where
  client : ∃ client, s.turnClient = some client ∧ client.lifetime = lifetime
  every : s.refreshEvery = some s.interval
  positive : 0 < s.interval
  server : s.server.lifetime = lifetime
  allocated : s.server.allocatedAt ≤ s.now
  iterated : s.iteratedAt ≤ s.now
  refreshed : s.refreshedAt ≤ s.iteratedAt
  schedule : s.iteratedAt < s.refreshedAt + s.interval

/-- A step sends nothing, and then no Refresh was due, or the Refresh it sends
is served or refused. -/
inductive Moves (s : RelayLoop) (e : RelayEvent) (s' : RelayLoop) : Prop where
  | silent (early : e.act = .iterate → e.time < s.refreshedAt + s.interval)
      (allocated : s'.server.allocatedAt = s.server.allocatedAt) (refused : s'.refusedAt = s.refusedAt)
      (refreshed : s'.refreshedAt = s.refreshedAt)
  | served (req : Refresh) (serves : s.server.Serves req.nonce e.time)
      (cause : e.act = .iterate ∧ s.refreshedAt + s.interval ≤ e.time ∨
        ∃ nonce, e.act = .recv (.staleNonce nonce))
      (allocated : s'.server.allocatedAt = e.time) (refused : s'.refusedAt = none)
      (refreshed : s'.refreshedAt ≤ e.time)
  | refused (req : Refresh) (denied : ¬ s.server.Serves req.nonce e.time)
      (cause : e.act = .iterate ∧ s.turnClient.map (·.nonce) = some req.nonce ∨
        ∃ nonce, e.act = .recv (.staleNonce nonce))
      (allocated : s'.server.allocatedAt = s.server.allocatedAt)
      (refused : s'.refusedAt = s.refusedAt.or (some e.time))

section Send

variable {s : RelayLoop} {req : Refresh}

theorem send_served (serves : s.server.Serves req.nonce s.now) :
    s.send (some req) = { s with
      server := { s.server with lifetime := req.lifetime, allocatedAt := s.now }
      answers := .other :: s.answers
      refusedAt := none } := by
  simp only [send, TurnServer.refresh, if_pos serves]

theorem send_refused (denied : ¬ s.server.Serves req.nonce s.now) :
    s.send (some req) = { s with
      answers := s.server.refusal req.nonce :: s.answers
      refusedAt := s.refusedAt.or (some s.now) } := by
  simp only [send, TurnServer.refresh, if_neg denied]

theorem send_refreshEvery (sent : Option Refresh) : (s.send sent).refreshEvery = s.refreshEvery := by
  cases sent <;> rfl

theorem send_clock (sent : Option Refresh) :
    (s.send sent).now = s.now ∧ (s.send sent).iteratedAt = s.iteratedAt ∧
      (s.send sent).refreshedAt = s.refreshedAt := by
  cases sent <;> exact ⟨rfl, rfl, rfl⟩

/-- A Refresh is no business of the permission. -/
theorem send_server (sent : Option Refresh) :
    (s.send sent).server.permittedAt = s.server.permittedAt ∧
      (s.send sent).server.nonce = s.server.nonce := by
  cases sent with
  | none => exact ⟨rfl, rfl⟩
  | some req =>
    by_cases serves : s.server.Serves req.nonce s.now
    · rw [send_served serves]
      exact ⟨rfl, rfl⟩
    · rw [send_refused serves]
      exact ⟨rfl, rfl⟩

theorem Running.send {lifetime : Nat} (run : Running lifetime s) (asked : req.lifetime = lifetime) :
    Running lifetime (s.send (some req)) := by
  by_cases serves : s.server.Serves req.nonce s.now
  · rw [send_served serves]
    exact { run with server := asked, allocated := le_refl _ }
  · rw [send_refused serves]
    exact { run with }

/-- The moves of a step that sends `req` in the state `s` at the moment of `e`,
`before` being the state it started in. -/
theorem moves_of_send {before : RelayLoop} {e : RelayEvent} (now : s.now = e.time)
    (server : s.server = before.server) (waits : s.refusedAt = before.refusedAt)
    (refreshed : s.refreshedAt ≤ e.time)
    (cause : e.act = .iterate ∧ before.refreshedAt + before.interval ≤ e.time ∧
        before.turnClient.map (·.nonce) = some req.nonce ∨
      ∃ nonce, e.act = .recv (.staleNonce nonce)) : Moves before e (s.send (some req)) := by
  by_cases serves : s.server.Serves req.nonce s.now
  · rw [send_served serves]
    rw [server, now] at serves
    exact .served req serves (cause.imp_left fun h => ⟨h.1, h.2.1⟩) now rfl refreshed
  · rw [send_refused serves]
    rw [server, now] at serves
    exact .refused req serves (cause.imp_left fun h => ⟨h.1, h.2.2⟩) (by rw [server]) (by rw [waits, now])

end Send

section Step

variable {lifetime : Nat} {s : RelayLoop} {e : RelayEvent}

theorem step_early (every : s.refreshEvery = some s.interval) (act : e.act = .iterate)
    (early : e.time < s.refreshedAt + s.interval) (after : s.refreshedAt ≤ e.time) :
    s.step e = { s with now := e.time, iteratedAt := e.time } := by
  have wait : ¬ s.interval ≤ e.time - s.refreshedAt := by omega
  cases hc : s.turnClient <;> simp [step, act, every, maybeRefreshTurn, hc, wait, send]

theorem step_due {client : TurnClient} (known : s.turnClient = some client)
    (every : s.refreshEvery = some s.interval) (act : e.act = .iterate)
    (due : s.refreshedAt + s.interval ≤ e.time) :
    s.step e = { s with now := e.time, iteratedAt := e.time, refreshedAt := e.time }.send
      (some client.refreshRequestBytes) := by
  have overdue : s.interval ≤ e.time - s.refreshedAt := by omega
  simp only [step, act, every, maybeRefreshTurn, known, if_pos overdue]

theorem step_stale {client : TurnClient} {nonce : String} (known : s.turnClient = some client)
    (act : e.act = .recv (.staleNonce nonce)) :
    s.step e = { s with now := e.time, turnClient := some (client.setNonce nonce) }.send
      (some (client.setNonce nonce).refreshRequestBytes) := by
  simp only [step, act, recvOne, known]

theorem step_recv {inbound : TurnInbound} (act : e.act = .recv inbound)
    (fresh : ∀ nonce, inbound ≠ .staleNonce nonce) : s.step e = { s with now := e.time } := by
  cases inbound with
  | staleNonce nonce => exact absurd rfl (fresh nonce)
  | _ => simp [step, act, recvOne, send]

theorem step_rotate {nonce : String} (act : e.act = .rotate nonce) :
    s.step e = { s with now := e.time, server := { s.server with nonce := nonce } } := by
  simp only [step, act]

theorem step_now : (s.step e).now = e.time := by
  obtain ⟨time, act⟩ := e
  cases act with
  | rotate nonce => rfl
  | _ => exact (send_clock _).1

theorem step_permittedAt : (s.step e).server.permittedAt = s.server.permittedAt := by
  obtain ⟨time, act⟩ := e
  cases act with
  | rotate nonce => rfl
  | _ => exact (send_server _).1

theorem step_interval : (s.step e).interval = s.interval := by
  obtain ⟨time, act⟩ := e
  cases act with
  | rotate nonce => rfl
  | _ => exact congrArg (·.getD 0) (send_refreshEvery _)

/-- The ways a step goes, with the state it leads to. -/
theorem step_cases (run : Running lifetime s) (on : relayLoop.enabled s e) {P : RelayLoop → Prop}
    (early : e.act = .iterate → e.time < s.refreshedAt + s.interval →
      P { s with now := e.time, iteratedAt := e.time })
    (due : ∀ client, s.turnClient = some client → client.lifetime = lifetime → e.act = .iterate →
      s.refreshedAt + s.interval ≤ e.time →
      P ({ s with now := e.time, iteratedAt := e.time, refreshedAt := e.time }.send
        (some client.refreshRequestBytes)))
    (stale : ∀ client nonce, s.turnClient = some client → client.lifetime = lifetime →
      e.act = .recv (.staleNonce nonce) →
      P ({ s with now := e.time, turnClient := some (client.setNonce nonce) }.send
        (some (client.setNonce nonce).refreshRequestBytes)))
    (recv : ∀ inbound, e.act = .recv inbound → (∀ nonce, inbound ≠ .staleNonce nonce) →
      P { s with now := e.time })
    (rotate : ∀ nonce, e.act = .rotate nonce →
      P { s with now := e.time, server := { s.server with nonce := nonce } }) : P (s.step e) := by
  obtain ⟨client, known, granted⟩ := run.client
  have since : s.refreshedAt ≤ e.time := run.refreshed.trans (run.iterated.trans on.1)
  cases act : e.act with
  | iterate =>
    rcases Nat.lt_or_ge e.time (s.refreshedAt + s.interval) with soon | late
    · rw [step_early run.every act soon since]
      exact early act soon
    · rw [step_due known run.every act late]
      exact due client known granted act late
  | recv inbound =>
    by_cases fresh : ∀ nonce, inbound ≠ .staleNonce nonce
    · rw [step_recv act fresh]
      exact recv inbound act fresh
    · push Not at fresh
      obtain ⟨nonce, rfl⟩ := fresh
      rw [step_stale known act]
      exact stale client nonce known granted act
  | rotate nonce =>
    rw [step_rotate act]
    exact rotate nonce act

theorem step_moves (run : Running lifetime s) (on : relayLoop.enabled s e) : Moves s e (s.step e) := by
  have since : s.refreshedAt ≤ e.time := run.refreshed.trans (run.iterated.trans on.1)
  apply step_cases run on
  case early =>
    intro act early
    exact .silent (fun _ => early) rfl rfl rfl
  case due =>
    intro client known granted act due
    exact moves_of_send rfl rfl rfl (le_refl _) (.inl ⟨act, due, by rw [known]; rfl⟩)
  case stale =>
    intro client nonce known granted act
    exact moves_of_send rfl rfl rfl since (.inr ⟨nonce, act⟩)
  case recv =>
    intro inbound act _
    exact .silent (fun iterate => absurd (act.symm.trans iterate) (by simp)) rfl rfl rfl
  case rotate =>
    intro nonce act
    exact .silent (fun iterate => absurd (act.symm.trans iterate) (by simp)) rfl rfl rfl

theorem Running.step (run : Running lifetime s) (on : relayLoop.enabled s e) : Running lifetime (s.step e) := by
  have allocated : s.server.allocatedAt ≤ e.time := run.allocated.trans on.1
  have iterated : s.iteratedAt ≤ e.time := run.iterated.trans on.1
  apply step_cases run on
  case early =>
    intro act early
    exact { run with
      allocated := allocated, iterated := le_refl _, refreshed := run.refreshed.trans iterated, schedule := early }
  case due =>
    intro client known granted act due
    refine Running.send ?_ granted
    exact { run with
      allocated := allocated, iterated := le_refl _, refreshed := le_refl _
      schedule := Nat.lt_add_of_pos_right run.positive }
  case stale =>
    intro client nonce known granted act
    refine Running.send ?_ granted
    exact { run with client := ⟨_, rfl, granted⟩, allocated := allocated, iterated := iterated }
  case recv =>
    intro inbound act _
    exact { run with allocated := allocated, iterated := iterated }
  case rotate =>
    intro nonce act
    exact { run with allocated := allocated, iterated := iterated }

theorem Running.expiresAt (run : Running lifetime s) :
    s.server.expiresAt = s.server.allocatedAt + fromSecs lifetime := by
  rw [TurnServer.expiresAt, run.server]

end Step

/-! ## Runs -/

section Runs

variable {lifetime wait : Nat} {s : RelayLoop} {e : RelayEvent} {es : List RelayEvent}

theorem running_of_init (start : relayLoop.init s) : Running s.server.lifetime s := by
  obtain ⟨client, server, now, rfl, granted, allocated⟩ := start
  have positive : 0 < fromSecs (max (client.lifetimeSecs / 2) 60) := by
    unfold fromSecs
    omega
  exact {
    client := ⟨client, rfl, granted.symm⟩
    every := rfl
    positive := positive
    server := rfl
    allocated := allocated
    iterated := le_refl _
    refreshed := le_refl _
    schedule := Nat.lt_add_of_pos_right positive }

theorem now_le_after (valid : relayLoop.Valid s es) : s.now ≤ (relayLoop.after s es).now := by
  induction es generalizing s with
  | nil => exact le_refl _
  | cons e es ih =>
    have next : e.time ≤ (relayLoop.after (s.step e) es).now := step_now ▸ ih valid.2
    exact valid.1.1.trans next

theorem time_le_after (valid : relayLoop.Valid s (e :: es)) : e.time ≤ (relayLoop.after s (e :: es)).now :=
  step_now ▸ now_le_after valid.2

/-- Events come in order. -/
theorem time_le_of_mem (valid : relayLoop.Valid s (e :: es)) {later : RelayEvent} (mem : later ∈ e :: es) :
    e.time ≤ later.time := by
  induction es generalizing s e with
  | nil =>
    rw [List.mem_singleton.mp mem]
  | cons next es ih =>
    rcases List.mem_cons.mp mem with rfl | mem
    · exact le_refl _
    · have order : e.time ≤ next.time := step_now ▸ valid.2.1.1
      exact order.trans (ih valid.2 mem)

/-- A session that ends before its permission does has it throughout. -/
theorem permitted_throughout (valid : relayLoop.Valid s es)
    (permission : ∃ p ∈ s.server.permittedAt, (relayLoop.after s es).now < p + fromSecs PERMISSION_LIFETIME) :
    relayLoop.AllSteps (fun s e => ∃ p ∈ s.server.permittedAt, e.time < p + fromSecs PERMISSION_LIFETIME) s es := by
  refine System.allSteps_of_rest (I := fun s es => relayLoop.Valid s es ∧ ∃ p ∈ s.server.permittedAt,
    (relayLoop.after s es).now < p + fromSecs PERMISSION_LIFETIME) ?_ valid ⟨valid, permission⟩
  rintro s e es - ⟨valid, p, made, before⟩
  have stays : (relayLoop.step s e).server.permittedAt = s.server.permittedAt := step_permittedAt
  exact ⟨⟨p, made, (time_le_after valid).trans_lt before⟩, valid.2, p, stays ▸ made, before⟩

/-- A session that ends before its allocation does needs no Refresh. -/
theorem allocated_of_short (valid : relayLoop.Valid s es) (run : Running lifetime s)
    (short : (relayLoop.after s es).now < s.server.expiresAt) :
    relayLoop.AllSteps (fun s e => e.time < s.server.expiresAt) s es := by
  refine System.allSteps_of_rest (I := fun s es => relayLoop.Valid s es ∧ Running lifetime s ∧
    (relayLoop.after s es).now < s.server.expiresAt) ?_ valid ⟨valid, run, short⟩
  rintro s e es on ⟨valid, run, short⟩
  have next := run.step on
  refine ⟨(time_le_after valid).trans_lt short, valid.2, next, ?_⟩
  have grows : s.server.allocatedAt ≤ (s.step e).server.allocatedAt := by
    cases step_moves run on with
    | silent _ allocated => exact allocated.ge
    | served _ _ _ allocated => exact allocated ▸ run.allocated.trans on.1
    | refused _ _ _ allocated => exact allocated.ge
  rw [run.expiresAt] at short
  show (relayLoop.after (s.step e) es).now < (s.step e).server.expiresAt
  rw [next.expiresAt]
  exact lt_of_lt_of_le short (Nat.add_le_add_right grows _)

/-- What a session whose Refreshes are in time keeps: a refused Refresh leaves
time to repeat it, and otherwise the allocation is at least as young as the
schedule, or the first Refresh is still to come and comes in time. -/
structure Covered (lifetime wait : Nat) (s : RelayLoop) (es : List RelayEvent) : Prop where
  valid : relayLoop.Valid s es
  run : Running lifetime s
  slack : s.interval + fromSecs 1 + wait ≤ fromSecs lifetime
  answered : relayLoop.AllSteps (fun s e => ∀ u ∈ s.refusedAt, e.time ≤ u + wait) s es
  refused : ∀ u ∈ s.refusedAt, u + wait < s.server.expiresAt
  fresh : s.refusedAt = none → s.refreshedAt ≤ s.server.allocatedAt ∨
    ∃ e ∈ es, e.act = .iterate ∧ s.refreshedAt + s.interval ≤ e.time ∧ e.time + wait < s.server.expiresAt

theorem Covered.spare (covered : Covered lifetime wait s (e :: es)) (free : s.refusedAt = none) :
    e.time + wait < s.server.expiresAt := by
  rcases covered.fresh free with young | ⟨first, mem, -, -, inTime⟩
  · have paced := covered.valid.1.2.1
    have schedule := covered.run.schedule
    have slack := covered.slack
    rw [covered.run.expiresAt]
    omega
  · have order := time_le_of_mem covered.valid mem
    omega

theorem Covered.holds (covered : Covered lifetime wait s (e :: es)) : e.time < s.server.expiresAt := by
  cases waits : s.refusedAt with
  | none => exact lt_of_le_of_lt (Nat.le_add_right _ _) (covered.spare waits)
  | some u => exact lt_of_le_of_lt (covered.answered.1 u waits) (covered.refused u waits)

theorem Covered.step (covered : Covered lifetime wait s (e :: es)) :
    Covered lifetime wait (s.step e) es := by
  have on := covered.valid.1
  have run := covered.run
  have next := run.step on
  have same (allocated : (s.step e).server.allocatedAt = s.server.allocatedAt) :
      (s.step e).server.expiresAt = s.server.expiresAt := by
    rw [next.expiresAt, run.expiresAt, allocated]
  suffices (∀ u ∈ (s.step e).refusedAt, u + wait < (s.step e).server.expiresAt) ∧
      ((s.step e).refusedAt = none → (s.step e).refreshedAt ≤ (s.step e).server.allocatedAt ∨
        ∃ e' ∈ es, e'.act = .iterate ∧ (s.step e).refreshedAt + s.interval ≤ e'.time ∧
          e'.time + wait < (s.step e).server.expiresAt) from
    { valid := covered.valid.2, run := next, slack := step_interval.symm ▸ covered.slack
      answered := covered.answered.2, refused := this.1, fresh := step_interval.symm ▸ this.2 }
  cases step_moves run on with
  | silent early allocated refused refreshed =>
    rw [same allocated, allocated, refused, refreshed]
    refine ⟨covered.refused, fun free => (covered.fresh free).imp_right ?_⟩
    rintro ⟨first, mem, iterate, due, inTime⟩
    rcases List.mem_cons.mp mem with rfl | mem
    · exact absurd (early iterate) (Nat.not_lt.mpr due)
    · exact ⟨first, mem, iterate, due, inTime⟩
  | served req serves cause allocated refused refreshed =>
    rw [refused, allocated]
    exact ⟨fun u none_ => (Option.not_mem_none u none_).elim, fun _ => .inl refreshed⟩
  | refused req denied cause allocated refused =>
    rw [same allocated, refused]
    cases waits : s.refusedAt with
    | none =>
      refine ⟨fun u now => ?_, fun free => by cases free⟩
      cases now
      exact covered.spare waits
    | some u =>
      exact ⟨fun u' mem => covered.refused u' (waits ▸ mem), fun free => by cases free⟩

theorem allocated_of_covered (covered : Covered lifetime wait s es) :
    relayLoop.AllSteps (fun s e => e.time < s.server.expiresAt) s es :=
  System.allSteps_of_rest (fun _ _ _ _ covered => ⟨covered.holds, covered.step⟩) covered.valid covered

/-- What holds while the server keeps its nonce: the client knows it, and no 438
was sent. -/
structure Quiet (s : RelayLoop) : Prop where
  known : s.turnClient.map (·.nonce) = some s.server.nonce
  unrefused : ∀ nonce, .staleNonce nonce ∉ s.answers

theorem Quiet.not_stale (quiet : Quiet s) (on : relayLoop.enabled s e) (nonce : String) :
    e.act ≠ .recv (.staleNonce nonce) := by
  intro act
  have sent := on.2.2
  rw [act] at sent
  exact quiet.unrefused nonce sent

/-- A Refresh under the server's nonce is served. -/
theorem Quiet.not_refused (quiet : Quiet s) (on : relayLoop.enabled s e) (holds : e.time < s.server.expiresAt)
    {req : Refresh} (cause : e.act = .iterate ∧ s.turnClient.map (·.nonce) = some req.nonce ∨
      ∃ nonce, e.act = .recv (.staleNonce nonce)) : s.server.Serves req.nonce e.time := by
  rcases cause with ⟨-, carried⟩ | ⟨nonce, act⟩
  · rw [quiet.known] at carried
    exact ⟨(Option.some.inj carried).symm, holds⟩
  · exact absurd act (quiet.not_stale on nonce)

theorem Quiet.step (quiet : Quiet s) (run : Running lifetime s) (on : relayLoop.enabled s e)
    (kept : ∀ nonce, e.act ≠ .rotate nonce) (holds : e.time < s.server.expiresAt) : Quiet (s.step e) := by
  apply step_cases run on
  case early =>
    intro act early
    exact ⟨quiet.known, quiet.unrefused⟩
  case due =>
    intro client known granted act due
    have carried := quiet.known
    rw [known] at carried
    rw [send_served]
    · exact ⟨quiet.known, fun nonce => by simp [quiet.unrefused nonce]⟩
    · exact ⟨Option.some.inj carried, holds⟩
  case stale =>
    intro client nonce known granted act
    exact absurd act (quiet.not_stale on nonce)
  case recv =>
    intro inbound act _
    exact ⟨quiet.known, quiet.unrefused⟩
  case rotate =>
    intro nonce act
    exact absurd act (kept nonce)

/-- Under one nonce, an allocation that outlives its first lifetime was refreshed
by an iteration before its end. -/
theorem first_refresh (quiet : Quiet s) (run : Running lifetime s) (valid : relayLoop.Valid s es)
    (kept : ∀ e ∈ es, ∀ nonce, e.act ≠ .rotate nonce) (holds : s.now < s.server.expiresAt)
    (throughout : relayLoop.AllSteps (fun s e => e.time < s.server.expiresAt) s es)
    (long : s.server.expiresAt ≤ (relayLoop.after s es).now) :
    ∃ e ∈ es, e.act = .iterate ∧ s.refreshedAt + s.interval ≤ e.time ∧ e.time < s.server.expiresAt := by
  induction es generalizing s with
  | nil => exact absurd holds (Nat.not_lt.mpr long)
  | cons e es ih =>
    have next := run.step valid.1
    cases step_moves run valid.1 with
    | silent early allocated refused refreshed =>
      have same : (s.step e).server.expiresAt = s.server.expiresAt := by
        rw [next.expiresAt, run.expiresAt, allocated]
      have quiet' := quiet.step run valid.1 (kept e List.mem_cons_self) throughout.1
      have holds' : (s.step e).now < (s.step e).server.expiresAt := by
        rw [step_now, same]
        exact throughout.1
      have long' : (s.step e).server.expiresAt ≤ (relayLoop.after (s.step e) es).now := by
        rw [same]
        exact long
      obtain ⟨first, mem, iterate, due, inTime⟩ :=
        ih quiet' next valid.2 (fun e mem => kept e (List.mem_cons_of_mem _ mem)) holds' throughout.2 long'
      rw [refreshed, step_interval] at due
      rw [same] at inTime
      exact ⟨first, List.mem_cons_of_mem _ mem, iterate, due, inTime⟩
    | served req serves cause _ _ _ =>
      rcases cause with ⟨iterate, due⟩ | ⟨nonce, act⟩
      · exact ⟨e, List.mem_cons_self, iterate, due, throughout.1⟩
      · exact absurd act (quiet.not_stale valid.1 nonce)
    | refused req denied cause _ _ => exact absurd (quiet.not_refused valid.1 throughout.1 cause) denied

/-- Under one nonce no Refresh is refused. -/
theorem never_refused (quiet : Quiet s) (run : Running lifetime s) (valid : relayLoop.Valid s es)
    (kept : ∀ e ∈ es, ∀ nonce, e.act ≠ .rotate nonce)
    (throughout : relayLoop.AllSteps (fun s e => e.time < s.server.expiresAt) s es)
    (free : s.refusedAt = none) :
    relayLoop.AllSteps (fun s e => ∀ u ∈ s.refusedAt, e.time ≤ u + 0) s es := by
  refine System.allSteps_of_rest (I := fun s es => Quiet s ∧ Running lifetime s ∧
    (∀ e ∈ es, ∀ nonce, e.act ≠ .rotate nonce) ∧
    relayLoop.AllSteps (fun s e => e.time < s.server.expiresAt) s es ∧ s.refusedAt = none)
    ?_ valid ⟨quiet, run, kept, throughout, free⟩
  rintro s e es on ⟨quiet, run, kept, throughout, free⟩
  refine ⟨fun u waits => by simp [free] at waits, quiet.step run on (kept e List.mem_cons_self) throughout.1,
    run.step on, fun e mem => kept e (List.mem_cons_of_mem _ mem), throughout.2, ?_⟩
  show (s.step e).refusedAt = none
  cases step_moves run on with
  | silent _ _ refused _ => rw [refused, free]
  | served _ _ _ _ refused _ => exact refused
  | refused req denied cause _ _ => exact absurd (quiet.not_refused on throughout.1 cause) denied

/-- The permission is never renewed, so it bounds the session. -/
theorem permission_bounds (held : ∃ p ∈ s.server.permittedAt, s.now < p + fromSecs PERMISSION_LIFETIME)
    (throughout : relayLoop.AllSteps
      (fun s e => ∃ p ∈ s.server.permittedAt, e.time < p + fromSecs PERMISSION_LIFETIME) s es) :
    ∃ p ∈ s.server.permittedAt, (relayLoop.after s es).now < p + fromSecs PERMISSION_LIFETIME := by
  induction es generalizing s with
  | nil => exact held
  | cons e es ih =>
    have stays : (relayLoop.step s e).server.permittedAt = s.server.permittedAt := step_permittedAt
    rw [← stays]
    refine ih ?_ throughout.2
    rw [stays, show (relayLoop.step s e).now = e.time from step_now]
    exact throughout.1

end Runs

end RelayLoop

open RelayLoop

/-- A moment is covered by the next event, the timers only running out. -/
theorem relaysThroughout_iff {s : RelayLoop} {es : List RelayEvent} (valid : relayLoop.Valid s es) :
    RelaysThroughout s es ↔ s.server.Relays s.now ∧
      relayLoop.AllSteps (fun s e => e.time < s.server.expiresAt) s es ∧
      relayLoop.AllSteps
        (fun s e => ∃ p ∈ s.server.permittedAt, e.time < p + fromSecs PERMISSION_LIFETIME) s es := by
  rw [RelaysThroughout, ← System.allSteps_and]
  refine and_congr_right fun _ => ⟨System.AllSteps.mono ?_ valid, System.AllSteps.mono ?_ valid⟩
  · intro s e on relays
    exact relays e.time on.1 (le_refl _)
  · rintro s e on ⟨allocation, p, made, permission⟩ t - upTo
    exact ⟨upTo.trans_lt allocation, p, made, upTo.trans_lt permission⟩

/-- The interval and one second fit into the lifetime once the interval does. -/
theorem slack_of_interval_lt {s : RelayLoop} (start : relayLoop.init s)
    (fits : s.interval < fromSecs s.server.lifetime) :
    s.interval + fromSecs 1 ≤ fromSecs s.server.lifetime := by
  obtain ⟨client, server, now, rfl, -, -⟩ := start
  have interval : (enter client server now).interval = fromSecs (max (client.lifetimeSecs / 2) 60) := rfl
  rw [interval] at fits ⊢
  unfold fromSecs at fits ⊢
  omega

/-- The session is relayed throughout if it ends within the permission's 300 s and
its Refreshes come in time; and under one nonce, only then. -/
theorem relaysThroughout_of_inTime {s : RelayLoop} {es : List RelayEvent} (start : relayLoop.init s)
    (valid : relayLoop.Valid s es) :
    (InTime s es → RelaysThroughout s es) ∧ (NonceKept s es → RelaysThroughout s es → InTime s es) := by
  have run := running_of_init start
  have upTo := now_le_after valid
  obtain ⟨free, fresh, answers, entered⟩ : s.refusedAt = none ∧ s.refreshedAt = s.now ∧ s.answers = [] ∧
      s.server.allocatedAt ≤ s.refreshedAt := by
    obtain ⟨client, server, now, rfl, granted, allocated⟩ := start
    exact ⟨rfl, rfl, rfl, allocated⟩
  rw [relaysThroughout_iff valid]
  constructor
  · rintro ⟨⟨p, made, permission⟩, allocation⟩
    have permitted := permitted_throughout valid ⟨p, made, permission⟩
    rcases allocation with short | ⟨wait, slack, first, answered⟩
    · have now := upTo.trans_lt short
      exact ⟨⟨now, p, made, upTo.trans_lt permission⟩, allocated_of_short valid run short, permitted⟩
    · have covered : Covered s.server.lifetime wait s es :=
        { valid := valid, run := run, slack := slack, answered := answered
          refused := fun u waits => by simp [free] at waits
          fresh := fun _ => .inr first }
      obtain ⟨e, mem, iterate, due, inTime⟩ := first
      refine ⟨⟨?_, p, made, upTo.trans_lt permission⟩, allocated_of_covered covered, permitted⟩
      omega
  · rintro ⟨known, kept⟩ ⟨⟨holds, held⟩, allocated, permitted⟩
    have quiet : Quiet s := ⟨known, by simp [answers]⟩
    refine ⟨permission_bounds held permitted, ?_⟩
    rcases Nat.lt_or_ge (relayLoop.after s es).now s.server.expiresAt with short | long
    · exact .inl short
    · obtain ⟨e, mem, iterate, due, inTime⟩ := first_refresh quiet run valid kept holds allocated long
      have fits : s.interval < fromSecs s.server.lifetime := by
        rw [run.expiresAt] at inTime
        omega
      exact .inr ⟨0, slack_of_interval_lt start fits, ⟨e, mem, iterate, due, inTime⟩,
        never_refused quiet run valid kept allocated free⟩

/-- Iterations one second apart. -/
def everySecond (start count : Nat) : List RelayEvent :=
  (List.range count).map fun i => ⟨fromSecs (start + i + 1), .iterate⟩

/-- A lifetime of 100 s; the nonce changes before the Refresh at 60 s, which is
repeated half a second later. -/
theorem relaysThroughout_over_new_nonce :
    RelaysThroughout
      (.enter ⟨100, "a"⟩ (applyPeerCandidates (some ⟨100, "a"⟩) (some "10.0.0.2:49180")
        (.allocate 100 "a" 0) 0) 0)
      (everySecond 0 59 ++ [⟨fromSecs 59, .rotate "b"⟩] ++ everySecond 59 1 ++
        [⟨60500000000, .recv (.staleNonce "b")⟩] ++ everySecond 60 60) := by
  refine (relaysThroughout_of_inTime ⟨_, _, _, rfl, by decide, by decide⟩ (by decide +kernel)).1
    ⟨?_, .inr ⟨fromSecs 1, ?_, ?_, ?_⟩⟩
  · exact ⟨0, by decide +kernel, by decide +kernel⟩
  · decide +kernel
  · exact ⟨⟨fromSecs 60, .iterate⟩, by decide +kernel, rfl, by decide +kernel, by decide +kernel⟩
  · decide +kernel

/-- A session of 300 s over an allocation of 600 s, under one nonce: the
permission of its peer expires, and no loop renews it. -/
theorem permission_expires : ∃ s es, relayLoop.init s ∧ relayLoop.Valid s es ∧ NonceKept s es ∧
    s.server.Relays s.now ∧ ¬ RelaysThroughout s es := by
  refine ⟨.enter ⟨600, "a"⟩ (applyPeerCandidates (some ⟨600, "a"⟩) (some "10.0.0.2:49180")
    (.allocate 600 "a" 0) 0) 0, everySecond 0 300, ⟨_, _, _, rfl, by decide, by decide⟩, by decide +kernel,
    ⟨by decide, ?_⟩, ⟨by decide, 0, by decide, by decide⟩, ?_⟩
  · intro e mem nonce
    obtain ⟨i, -, rfl⟩ := List.mem_map.mp mem
    exact fun h => by cases h
  · intro relays
    obtain ⟨⟨-, held⟩, -, permitted⟩ := (relaysThroughout_iff (by decide +kernel)).mp relays
    obtain ⟨p, made, before⟩ := permission_bounds held permitted
    obtain rfl : 0 = p := Option.some.inj (by exact made)
    revert before
    decide +kernel

end ZortilWatch.Core
