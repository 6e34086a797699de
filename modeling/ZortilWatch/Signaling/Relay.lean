import ZortilWatch.Signaling.Presence

/-!
# The blind relay

`relaySignal` tells the sides of a session apart by comparing id and role with
the controller side first. That is right unless both sides are one slot: a
device that asks for itself under the host role. `relays_to_peer_iff` says so
for every state of the endpoint.
-/

namespace ZortilWatch.Signaling

namespace Registry

variable {C J : Type} {r : Registry C J}

/-- A signal of `side` reaches the connection of `other`, once and unchanged, and
not the sender's. -/
def RelaysFrom (r : Registry C J) (sid : SessionId) (side other : Side) : Prop :=
  ∀ mine peer, r.slot side.1 side.2 = some mine → r.slot other.1 other.2 = some peer → ∀ kind payload,
    (r.relaySignal sid side.1 side.2 kind payload).2.2 = [.send peer.conn (.signal sid kind payload)] ∧
      ∀ msg, .send mine.conn msg ∉ (r.relaySignal sid side.1 side.2 kind payload).2.2

/-- Each side of the session reaches the other one and only it. -/
def RelaysToPeer (r : Registry C J) (sid : SessionId) (s : Session) : Prop :=
  r.RelaysFrom sid s.controllerSide s.hostSide ∧ r.RelaysFrom sid s.hostSide s.controllerSide

/-- The peer of a side is the other side, if the sides are two slots. -/
theorem peerSlotOf_side (s : Session) :
    r.peerSlotOf s s.controllerId s.controllerKind = r.slot s.hostId .host ∧
      (s.controllerSide ≠ s.hostSide → r.peerSlotOf s s.hostId .host = r.slot s.controllerId s.controllerKind) := by
  refine ⟨if_pos ⟨rfl, rfl⟩, fun hne => ?_⟩
  rcases r.peerSlotOf_cases s.hostId .host s with ⟨hc, -⟩ | ⟨-, -, h⟩ | ⟨hno, -⟩
  · exact absurd hc hne
  · exact h
  · exact absurd (.inr rfl) hno

theorem relaySignal_out {sid : SessionId} {s : Session} (hs : r.sessions.get sid = some s) {d : DeviceId}
    {k : DeviceKind} {peer : SlotEntry C} (hp : r.peerSlotOf s d k = some peer) (kind : SignalKind) (payload : J) :
    (r.relaySignal sid d k kind payload).2.2 = [.send peer.conn (.signal sid kind payload)] := by
  simp [relaySignal, hs, hp]

theorem relaysFrom {sid : SessionId} {s : Session} (hs : r.sessions.get sid = some s) {side other : Side}
    (hp : r.peerSlotOf s side.1 side.2 = r.slot other.1 other.2)
    (two : ∀ mine peer, r.slot side.1 side.2 = some mine → r.slot other.1 other.2 = some peer →
      mine.conn ≠ peer.conn) :
    r.RelaysFrom sid side other := by
  intro mine peer hmine hpeer kind payload
  have out := relaySignal_out hs (hp.trans hpeer) kind payload
  refine ⟨out, fun msg hmsg => ?_⟩
  rw [out, List.mem_singleton, Effect.send.injEq] at hmsg
  exact two mine peer hmine hpeer hmsg.1

end Registry

namespace Endpoint

variable {J : Type} {env : Env J} {ep : Endpoint J}

/-- In every reachable state, the sides of a session reach each other and nobody
else exactly if, once both are registered, they are two different slots. -/
theorem relays_to_peer_iff (h : (signaling env).Reachable ep) {sid : SessionId} {s : Session}
    (hs : ep.registry.sessions.get sid = some s) :
    ep.registry.RelaysToPeer sid s ↔
      ((ep.registry.slot s.controllerId s.controllerKind).isSome → (ep.registry.slot s.hostId .host).isSome →
        s.controllerSide ≠ s.hostSide) := by
  have owned := owned_of_reachable h
  obtain ⟨fromController, fromHost⟩ := ep.registry.peerSlotOf_side s
  constructor
  · intro hr hc hh heq
    -- one slot on both sides: the signal comes back to its sender
    obtain ⟨e, he⟩ := Option.isSome_iff_exists.1 hc
    obtain ⟨hid, hkind⟩ := Prod.mk.inj heq
    have he' : ep.registry.slot s.hostId .host = some e := by rw [← hid, ← hkind, he]
    obtain ⟨out, silent⟩ := hr.1 e e he he' .offer (ep.registry.opts.iceServersFor "")
    exact silent _ (out ▸ List.mem_singleton_self _)
  · intro hne
    have two {e e' : SlotEntry SocketId} (he : ep.registry.slot s.controllerId s.controllerKind = some e)
        (he' : ep.registry.slot s.hostId .host = some e') : s.controllerSide ≠ s.hostSide ∧ e.conn ≠ e'.conn := by
      have differ := hne (by rw [he]; rfl) (by rw [he']; rfl)
      exact ⟨differ, fun hc => differ (owned.at_most_one he he' hc)⟩
    constructor
    · exact Registry.relaysFrom hs fromController fun mine peer hm hp => (two hm hp).2
    · intro mine peer hm hp kind payload
      exact Registry.relaysFrom hs (fromHost (two hp hm).1) (fun m p hm hp => (two hp hm).2.symm) mine peer hm hp
        kind payload

/-- The host role of a device asks for its own device. -/
def selfRequest : List (Event Unit) :=
  [.connection 0 none, registering 0 "111111111" .host, registered 0,
    .message 0 (some (.connectRequest "111111111" none none)) 0,
    .resume 0 0 (.found (some sampleRow)) "s" 0]

theorem selfRequest_valid : (signaling sampleEnv).Valid (initial sampleEnv) selfRequest :=
  ⟨rfl, ⟨_, rfl, rfl⟩, ⟨rfl, List.not_mem_nil⟩, ⟨_, rfl, rfl⟩, ⟨rfl, List.not_mem_nil⟩, trivial⟩

/-- The offer of a session a host role opened with itself comes back to it. -/
theorem relay_returns_to_sender :
    ¬ ∀ ep, (signaling sampleEnv).Reachable ep → ∀ sid s, ep.registry.sessions.get sid = some s →
      ep.registry.RelaysToPeer sid s := by
  intro all
  let ep := (signaling sampleEnv).after (initial sampleEnv) selfRequest
  have reach : (signaling sampleEnv).Reachable ep :=
    (System.Reachable.init rfl : (signaling sampleEnv).Reachable (initial sampleEnv)).after selfRequest_valid
  have opened : ep.registry.sessions.get "s" =
      some (Registry.newSession "s" "111111111" .host "111111111") := by decide
  have held : (ep.registry.slot "111111111" .host).map (·.conn) = some 0 := by decide
  obtain ⟨e, he, -⟩ := Option.map_eq_some_iff.1 held
  obtain ⟨out, silent⟩ := (all ep reach "s" _ opened).1 e e he he .offer ()
  exact silent _ (out ▸ List.mem_singleton_self _)

/-- Under two roles a device's session with itself is relayed right. -/
theorem relays_to_peer_across_roles :
    let ep := (signaling sampleEnv).after (initial sampleEnv)
      [.connection 0 none, registering 0 "111111111" .host, registered 0,
        .connection 1 none, registering 1 "111111111" .controller, registered 1,
        .message 1 (some (.connectRequest "111111111" none none)) 0,
        .resume 1 0 (.found (some sampleRow)) "s" 0]
    ep.registry.RelaysToPeer "s" (Registry.newSession "s" "111111111" .controller "111111111") := by
  intro ep
  have reach : (signaling sampleEnv).Reachable ep :=
    (System.Reachable.init rfl : (signaling sampleEnv).Reachable (initial sampleEnv)).after
      ⟨rfl, ⟨_, rfl, rfl⟩, ⟨rfl, List.not_mem_nil⟩, rfl, ⟨_, rfl, rfl⟩, ⟨rfl, List.not_mem_nil⟩, ⟨_, rfl, rfl⟩,
        ⟨rfl, List.not_mem_nil⟩, trivial⟩
  have opened : ep.registry.sessions.get "s" =
      some (Registry.newSession "s" "111111111" .controller "111111111") := by decide
  exact (relays_to_peer_iff reach opened).2 fun _ _ => by decide

end Endpoint

end ZortilWatch.Signaling
