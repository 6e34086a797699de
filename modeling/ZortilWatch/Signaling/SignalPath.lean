import ZortilWatch.Signaling.ClientFrames
import ZortilWatch.Signaling.Relay
import ZortilWatch.Signaling.Responses
import ZortilWatch.Signaling.SessionProtocol

/-!
# The way of a signal from one client to the other

While a session stands and the other party is registered, the server is a queue between
the two: what one party signals is sent to the other party's socket, in order, once, and
nothing else is sent there as a signal of this session (`Stands.relayed`). With what the
clients write and read at its ends, a signal keeps its session, kind and payload on the
whole way (`signals_delivered`).
-/

namespace ZortilWatch.Signaling

namespace Registry

variable {C J : Type} [DecidableEq C] {r : Registry C J}

/-- Signals are what `relaySignal` sends, and magic packets what `dispatchWake` sends. -/
theorem call_of_sent {op : Op C J} {conn : C} {msg : ServerMessage J} (sent : .send conn msg ∈ (r.perform op).2.2) :
    match msg with
    | .signal sid kind payload => ∃ d k, op = .relaySignal sid d k kind payload
    | .wakeDispatch _ => ∃ d target mac wanIp accountId, op = .dispatchWake d target mac wanIp accountId
    | _ => True := by
  cases op with
  | online d k c info now =>
    obtain ⟨_, _, h⟩ := r.mem_online_out d k c info now sent
    cases h
  | touch d now => cases sent
  | dispatchWake d target mac wanIp accountId =>
    obtain ⟨_, _, h⟩ := r.mem_dispatchWake_out sent
    cases h
    exact ⟨d, target, mac, wanIp, accountId, rfl⟩
  | requestConnect sid' d k t pk =>
    rcases r.requestConnect_cases sid' d k t pk with ⟨_, h⟩ | ⟨_, -, -, h⟩ <;> simp only [perform, h] at sent
    · cases sent
    · cases List.mem_singleton.1 sent
      trivial
  | acceptConnect sid' d k =>
    rcases r.acceptConnect_cases sid' d k with h | ⟨s, -, -, -, h⟩ <;> simp only [perform, h] at sent
    · cases sent
    · simp only [acceptOut, List.mem_cons, reduceCtorEq, List.mem_append, false_or, mem_sendTo] at sent
      rcases sent with ⟨_, -, h⟩ | ⟨_, -, h⟩ <;> cases h <;> trivial
  | relaySignal sid' d k kind' payload' =>
    rcases r.relaySignal_cases sid' d k kind' payload' with h | ⟨_, _, -, -, h⟩ <;> simp only [perform, h] at sent
    · cases sent
    · cases List.mem_singleton.1 sent
      exact ⟨d, k, rfl⟩
  | offline d k guard =>
    have ends : (Op.offline d k guard : Op C J).Ends (d, k) := rfl
    rcases sent_of_ends ends sent with ⟨_, _, rfl⟩ | ⟨_, _, _, rfl⟩ <;> trivial
  | rejectConnect sid' d k reason =>
    have ends : (Op.rejectConnect sid' d k reason : Op C J).Ends (d, k) := rfl
    rcases sent_of_ends ends sent with ⟨_, _, rfl⟩ | ⟨_, _, _, rfl⟩ <;> trivial
  | closeSession sid' d k reason =>
    have ends : (Op.closeSession sid' d k reason : Op C J).Ends (d, k) := rfl
    rcases sent_of_ends ends sent with ⟨_, _, rfl⟩ | ⟨_, _, _, rfl⟩ <;> trivial

end Registry

/-- A signal of `sid` on its way to the socket `b`. -/
def carried {J : Type} (b : SocketId) (sid : SessionId) (s : SocketId) : ServerMessage J → Option (SignalKind × J)
  | .signal sid' kind payload => if s = b ∧ sid' = sid then some (kind, payload) else none
  | _ => none

theorem carried_eq_some {J : Type} {b s : SocketId} {sid : SessionId} {msg : ServerMessage J} {x : SignalKind × J} :
    carried b sid s msg = some x ↔ s = b ∧ msg = .signal sid x.1 x.2 := by
  cases msg with
  | signal sid' kind payload =>
    simp only [carried, Option.ite_none_right_eq_some, ServerMessage.signal.injEq, Option.some.injEq, Prod.ext_iff,
      and_assoc]
  | _ => simp [carried]

theorem carried_names {J : Type} {b s : SocketId} {sid : SessionId} {msg : ServerMessage J}
    (none_ : msg.sessionId? = none) : carried b sid s msg = none := by
  cases msg <;> first | rfl | cases none_

namespace Endpoint

variable {J : Type} {env : Env J} {ep : Endpoint J} {sid : SessionId} {side other : Side} {b : SocketId}

/-- A signal of session `sid` that the party `side` sends. -/
def signalFrom (ep : Endpoint J) (side : Side) (sid : SessionId) : Event J → Option (SignalKind × J)
  | .message s (some (.signal sid' kind payload)) _ =>
    if ep.identity s = some side ∧ sid' = sid then some (kind, payload) else none
  | _ => none

/-- The signals of session `sid` that the party `side` sends during a run. -/
def signalsFrom (env : Env J) (side : Side) (sid : SessionId) : Endpoint J → List (Event J) → List (SignalKind × J)
  | _, [] => []
  | ep, e :: es => (ep.signalFrom side sid e).toList ++ signalsFrom env side sid (handle env ep e).1 es

/-- The session stands between two parties, the other of which is registered on the socket `b`. -/
structure Stands (ep : Endpoint J) (sid : SessionId) (side other : Side) (b : SocketId) : Prop where
  session : ∃ s, ep.registry.sessions.get sid = some s ∧
    (s.controllerSide = side ∧ s.hostSide = other ∨ s.hostSide = side ∧ s.controllerSide = other)
  two : side ≠ other
  peer : ∃ e, ep.registry.slot other.1 other.2 = some e ∧ e.conn = b

/-- Whose peer is on the socket `b`. -/
theorem Stands.peerSlotOf (h : ep.Stands sid side other b) (owned : ep.Owned) {s : Session}
    (hs : ep.registry.sessions.get sid = some s) (who : Side) :
    (who = side → ∃ e, ep.registry.peerSlotOf s who.1 who.2 = some e ∧ e.conn = b) ∧
      (who ≠ side → ∀ e, ep.registry.peerSlotOf s who.1 who.2 = some e → e.conn ≠ b) := by
  obtain ⟨s', hs', parties⟩ := h.session
  cases hs.symm.trans hs'
  obtain ⟨peer, hpeer, conn⟩ := h.peer
  have slots : ep.registry.peerSlotOf s side.1 side.2 = ep.registry.slot other.1 other.2 := by
    obtain ⟨fromController, fromHost⟩ := ep.registry.peerSlotOf_side s
    rcases parties with ⟨rfl, rfl⟩ | ⟨rfl, rfl⟩
    · exact fromController
    · exact fromHost (Ne.symm h.two)
  constructor
  · rintro rfl
    exact ⟨peer, slots.trans hpeer, conn⟩
  · rintro stranger e he rfl
    -- the socket `b` is the other party's, and that is nobody's peer but `side`'s
    have theirs : ep.registry.slot side.1 side.2 = some e ∨ who = side := by
      rcases ep.registry.peerSlotOf_cases who.1 who.2 s with ⟨hc, hp⟩ | ⟨-, hh, hp⟩ | ⟨-, hp⟩ <;> rw [hp] at he
      · rcases parties with ⟨rfl, rfl⟩ | ⟨rfl, rfl⟩
        · exact .inr hc.symm
        · exact .inl he
      · rcases parties with ⟨rfl, rfl⟩ | ⟨rfl, rfl⟩
        · exact .inl he
        · exact .inr hh.symm
      · cases he
    exact h.two (owned.at_most_one (theirs.resolve_right stranger) hpeer conn.symm)

/-- Calls that relay nothing send no signal. -/
theorem heard_of_quiet (r : Registry SocketId J) {ops : List (Op SocketId J)}
    (quiet : ∀ op ∈ ops, ∀ sid d k kind payload, op ≠ .relaySignal sid d k kind payload) :
    heard (carried b sid) (effectsAll r ops) = [] := by
  induction ops generalizing r with
  | nil => rfl
  | cons op ops ih =>
    obtain ⟨first, rest⟩ := List.forall_mem_cons.1 quiet
    rw [effectsAll, heard_append, ih _ rest, List.append_nil]
    apply heard_eq_nil
    intro conn msg sent
    by_contra signals
    obtain ⟨x, hx⟩ := Option.ne_none_iff_exists'.1 signals
    obtain ⟨-, rfl⟩ := carried_eq_some.1 hx
    obtain ⟨d, k, rfl⟩ := Registry.call_of_sent sent
    exact first sid d k x.1 x.2 rfl

theorem quiet_releases (ep : Endpoint J) (s : SocketId) :
    ∀ op ∈ ep.releases s, ∀ sid d k kind payload, op ≠ .relaySignal sid d k kind payload := by
  intro op released sid d k kind payload
  obtain ⟨_, _, rfl⟩ := offline_of_released released
  nofun

/-- A message that is no signal of a party relays nothing. -/
theorem quiet_ops (e : Event J)
    (quiet : ∀ s kind payload now sid, e ≠ .message s (some (.signal sid kind payload)) now) :
    ∀ op ∈ ops env ep e, ∀ sid d k kind payload, op ≠ .relaySignal sid d k kind payload := by
  intro op mem sid d k kind payload
  cases e with
  | connection s wanIp => cases mem
  | close s => exact quiet_releases ep s op mem sid d k kind payload
  | message s raw now =>
    cases raw with
    | none => cases mem
    | some msg =>
      simp only [ops] at mem
      split at mem
      · cases mem
      · rename_i msg' hmsg
        obtain rfl : msg = msg' := by
          rw [Option.filter_some] at hmsg
          split at hmsg <;> simp_all
        split at mem
        · cases mem
        · cases msg with
          | signal sid' kind' payload' => exact absurd rfl (quiet s kind' payload' now sid')
          | register | wake | listPresence | connectRequest => cases mem
          | connectAccept | connectReject | sessionClose =>
            rw [List.mem_singleton.1 mem]
            intro h
            cases h
  | resume s i device sessionId now =>
    simp only [ops] at mem
    split at mem
    · split at mem
      · cases mem
      · split at mem
        · cases mem
        · rcases List.mem_append.1 mem with mem | mem
          · exact quiet_releases ep s op mem sid d k kind payload
          · rw [List.mem_singleton.1 mem]
            intro h
            cases h
    · split at mem
      · cases mem
      · split at mem
        · cases mem
        · rw [List.mem_singleton.1 mem]
          intro h
          cases h
    · cases mem

/-- A signal is passed to the registry on behalf of the party the socket is registered as. -/
theorem ops_signal (s : SocketId) (sid : SessionId) (kind : SignalKind) (payload : J) (now : Nat) :
    ops env ep (.message s (some (.signal sid kind payload)) now) =
      match ep.identity s with
      | none => []
      | some (d, k) => [.relaySignal sid d k kind payload] := rfl

/-- While the session stands, an event sends to `b` what it is of `side`'s signals. -/
theorem Stands.relayed (h : ep.Stands sid side other b) (owned : ep.Owned) (e : Event J) :
    told (carried b sid) (handle env ep e).2 = (ep.signalFrom side sid e).toList := by
  rw [told_handle env ep fun _ _ => carried_names]
  by_cases signal : ∃ s kind payload now sid', e = .message s (some (.signal sid' kind payload)) now
  · obtain ⟨s, kind, payload, now, sid', rfl⟩ := signal
    rw [ops_signal]
    cases who : ep.identity s with
    | none =>
      simp only [signalFrom, who, reduceCtorEq, false_and, if_false]
      rfl
    | some who' =>
      dsimp only
      rw [effects_single]
      simp only [signalFrom, who, Option.some.injEq]
      by_cases same : sid' = sid
      · subst same
        obtain ⟨st, hs, -⟩ := h.session
        obtain ⟨mine, others⟩ := h.peerSlotOf owned hs who'
        by_cases party : who' = side
        · obtain ⟨peer, hp, conn⟩ := mine party
          have out := Registry.relaySignal_out hs hp kind payload
          rw [if_pos ⟨party, rfl⟩]
          simp only [Registry.perform, out, heard, List.filterMap_cons, List.filterMap_nil, carried, conn, and_self,
            if_true, Option.toList_some]
        · rw [if_neg fun both => party both.1, Option.toList_none]
          apply heard_eq_nil
          intro conn msg sent
          rcases ep.registry.relaySignal_cases sid' who'.1 who'.2 kind payload with h' | ⟨st', peer, hs', hp, h'⟩ <;>
            simp only [Registry.perform, h'] at sent
          · cases sent
          · cases hs.symm.trans hs'
            cases List.mem_singleton.1 sent
            exact if_neg fun both => others party peer hp both.1
      · rw [if_neg fun both => same both.2, Option.toList_none]
        apply heard_eq_nil
        intro conn msg sent
        by_contra signals
        obtain ⟨x, hx⟩ := Option.ne_none_iff_exists'.1 signals
        obtain ⟨-, rfl⟩ := carried_eq_some.1 hx
        obtain ⟨d, k, call'⟩ := Registry.call_of_sent sent
        injection call' with named
        exact same named
  · have quiet : ∀ s kind payload now sid', e ≠ .message s (some (.signal sid' kind payload)) now :=
      fun s kind payload now sid' he => signal ⟨s, kind, payload, now, sid', he⟩
    rw [heard_of_quiet _ (quiet_ops e quiet)]
    unfold signalFrom
    split
    · rename_i s sid' kind payload now
      exact absurd rfl (quiet s kind payload now sid')
    · rfl

/-- While the session stands, what is sent to `b` as its signals is what `side` signals. -/
theorem relayed_run {es : List (Event J)} (hr : (signaling env).Reachable ep) (hv : (signaling env).Valid ep es)
    (stands : (signaling env).AllSteps (fun ep _ => ep.Stands sid side other b) ep es) :
    told (carried b sid) ((endpointMachine env).answers ep es).flatten = signalsFrom env side sid ep es := by
  induction es generalizing ep with
  | nil => rfl
  | cons e es ih =>
    rw [Machine.answers, List.flatten_cons, told_append, signalsFrom, ← stands.1.relayed (owned_of_reachable hr) e]
    exact congrArg _ (ih (.step hr hv.1) hv.2 stands.2)

/-! ## From client to client -/

section Native

variable {N : Type} [DecidableEq N] (p : Platform N)

theorem lookup_name (kind : SignalKind) : signalKinds.lookup kind.name = some kind := by
  cases kind <;> rfl

/-- A signal that a native client writes is one that it sends. -/
theorem signalFrom_native {ep : Endpoint (Field N)} {a : SocketId} (party : ep.identity a = some side)
    (kind : SignalKind) (payload : Json N) (now : Nat) :
    let frame := (ClientMsg.signal PROTOCOL_VERSION sid kind.name payload).serialize p
    ep.signalFrom side sid (.message a (ClientMessage.parse p frame) now) = some (kind, some payload) := by
  intro frame
  have read : ClientMessage.parse p frame = some (.signal sid kind (some payload)) := by
    rw [ClientMessage.parse, shape_signal, if_pos rfl, lookup_name]
    rfl
  rw [read]
  exact if_pos ⟨party, rfl⟩

/-- While a session stands and the other party is registered on `b`: a signal that the
party's client writes counts as one it sends; what goes to `b` as signals of the session is
what the party sends, in order; and the client at `b` reads each with the kind and the
payload it was written with. -/
theorem signals_delivered {env : Env (Field N)} {ep : Endpoint (Field N)} {es : List (Event (Field N))}
    (hr : (signaling env).Reachable ep) (hv : (signaling env).Valid ep es)
    (stands : (signaling env).AllSteps (fun ep _ => ep.Stands sid side other b) ep es) (readable : p.accepts sid) :
    (∀ (ep : Endpoint (Field N)) (a : SocketId) (kind : SignalKind) (payload : Json N) (now : Nat),
      ep.identity a = some side →
        let frame := (ClientMsg.signal PROTOCOL_VERSION sid kind.name payload).serialize p
        ep.signalFrom side sid (.message a (ClientMessage.parse p frame) now) = some (kind, some payload)) ∧
    told (carried b sid) ((endpointMachine env).answers ep es).flatten = signalsFrom env side sid ep es ∧
    ∀ kind payload, (kind, some payload) ∈ signalsFrom env side sid ep es → p.Keeps (maxNesting - 1) payload →
      ∀ reads, tryRecv p (.text ((ServerMessage.signal sid kind (some payload)).stringify p) :: reads) =
        (.ok (some (.signal sid kind.name payload)), reads) := by
  refine ⟨fun ep a kind payload now party => signalFrom_native p party kind payload now,
    relayed_run hr hv stands, fun kind payload _ kept reads => ?_⟩
  have own : (ServerMessage.signal sid kind (some payload)).Own p := readable
  obtain ⟨m, hm, arrives⟩ := arrives_of p own ⟨payload, rfl, kept⟩
  cases hm
  exact arrives reads

/-- The two signals with which the controller of `introduced` answers an offer. -/
theorem signals_delivered_answer :
    let answer : Json Nat := .obj [("sdp", .str "v=0")]
    let ice : Json Nat := .obj [("cands", .arr [])]
    let es : List (Event (Field Nat)) :=
      [.message 1 (some (.signal "s" .answer (some answer))) 0, .message 1 (some (.signal "s" .ice (some ice))) 0]
    told (carried 0 "s") ((endpointMachine wiredEnv).answers introduced es).flatten =
        [(.answer, some answer), (.ice, some ice)] ∧
      ∀ reads, tryRecv sampleWire
          (.text ((ServerMessage.signal "s" .answer (some answer)).stringify sampleWire) :: reads) =
        (.ok (some (.signal "s" "answer" answer)), reads) := by
  intro answer ice es
  have stands (ep : Endpoint (Field Nat)) (same : ep.registry = introduced.registry) :
      ep.Stands "s" ("222222222", .controller) ("111111111", .host) 0 := by
    have opened : introduced.registry.sessions.get "s" =
        some (Registry.newSession "s" "222222222" .controller "111111111") := by decide
    have held : (introduced.registry.slot "111111111" .host).map (·.conn) = some 0 := by decide
    refine ⟨⟨_, same ▸ opened, .inl ⟨rfl, rfl⟩⟩, by decide, ?_⟩
    rw [same]
    exact Option.map_eq_some_iff.1 held
  have reached : (signaling wiredEnv).Reachable introduced := introduced_reachable.of_restrict
  have valid : (signaling wiredEnv).Valid introduced es := ⟨⟨_, rfl, rfl⟩, ⟨_, rfl, rfl⟩, trivial⟩
  have run := signals_delivered sampleWire reached valid ⟨stands introduced rfl, stands _ rfl, trivial⟩ rfl
  refine ⟨run.2.1, run.2.2 .answer answer List.mem_cons_self ?_⟩
  rw [show maxNesting - 1 = 125 + 1 from rfl]
  simp [answer, sampleWire]

end Native

end Endpoint

end ZortilWatch.Signaling
