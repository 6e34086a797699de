import ZortilWatch.Signaling.Presence

/-!
# Sessions without a party

A session whose sides are both registered and list it can be closed by either
and goes with either's socket (`noOrphans_iff_joined`). A session opened for a
requester without a slot is an orphan from the start. `no_orphans_iff` says no
other event makes one.
-/

namespace ZortilWatch.Signaling

namespace Registry

variable {C J : Type} {r : Registry C J}

theorem Joined.peer {sid : SessionId} {s : Session} {side : Side} (hj : r.Joined)
    (hs : r.sessions.get sid = some s) (hside : s.HasSide side) :
    ∃ peer, r.peerSlotOf s side.1 side.2 = some peer := by
  obtain ⟨host, hh, -⟩ := hj sid s s.hostSide hs (.inr rfl)
  obtain ⟨controller, hc, -⟩ := hj sid s s.controllerSide hs (.inl rfl)
  rcases r.peerSlotOf_cases side.1 side.2 s with ⟨-, h⟩ | ⟨-, -, h⟩ | ⟨hno, -⟩
  · exact ⟨host, h.trans hh⟩
  · exact ⟨controller, h.trans hc⟩
  · exact absurd hside hno

/-- Either party of a session with both parties can close it. -/
theorem Joined.closeSession {sid : SessionId} {s : Session} {side : Side} (hj : r.Joined)
    (hs : r.sessions.get sid = some s) (hside : s.HasSide side) (reason : Option String) :
    (r.closeSession sid reason side.1 side.2).1 = true ∧
      (r.closeSession sid reason side.1 side.2).2.1.sessions.get sid = none := by
  obtain ⟨peer, hp⟩ := hj.peer hs hside
  have closed : r.closeSession sid reason side.1 side.2 =
      (true, r.teardown sid (reason.getD "closed") (side.1, side.2)) := by
    simp [Registry.closeSession, hs, hp]
  rw [closed]
  exact ⟨rfl, by simp [get_teardown]⟩

/-- A request keeps both parties of every session exactly if it is refused or
its requester is registered. -/
theorem Joined.requestConnect_iff (hj : r.Joined) (sid : SessionId) (d : DeviceId) (k : DeviceKind) (t : DeviceId)
    (pk : Option PasswordKind) : (r.requestConnect sid d k t pk).2.1.Joined ↔
      ∀ host, r.slot t .host = some host → host.sessions.size < r.opts.maxInboundPerHost → (r.slot d k).isSome := by
  rcases r.requestConnect_cases sid d k t pk with ⟨code, h⟩ | ⟨host, hh, hlt, h⟩
  · rw [h]
    refine ⟨fun _ host hh hlt => ?_, fun _ => hj⟩
    rw [requestConnect, hh] at h
    simp only [if_neg (Nat.not_le.2 hlt)] at h
    cases h
  · rw [h]
    refine ⟨fun hj' _ _ _ => ?_, fun caller => hj.granted (by rw [hh]; rfl) (caller host hh hlt)⟩
    -- the new session lists its requester's side, so that slot must be there
    have opened : (r.granted sid d k t).sessions.get sid = some (newSession sid d k t) := by
      rw [sessions_granted, JsMap.get_set_self]
    obtain ⟨e, he, -⟩ := hj' sid _ (d, k) opened (.inl rfl)
    rw [slot_granted, if_pos (.inl rfl)] at he
    obtain ⟨e0, he0, -⟩ := Option.map_eq_some_iff.1 he
    rw [he0]
    rfl

end Registry

namespace Endpoint

variable {J : Type} {env : Env J} {ep : Endpoint J}

/-- Every session has both its slots registered and listing it; hence either
party can close it, and it goes with the socket of either. -/
structure NoOrphans (ep : Endpoint J) : Prop where
  listed : ∀ sid s side, ep.registry.sessions.get sid = some s → s.HasSide side →
    ∃ e, ep.registry.slot side.1 side.2 = some e ∧ sid ∈ e.sessions
  closable : ∀ sid s side, ep.registry.sessions.get sid = some s → s.HasSide side → ∀ reason,
    (ep.registry.closeSession sid reason side.1 side.2).1 = true ∧
      (ep.registry.closeSession sid reason side.1 side.2).2.1.sessions.get sid = none
  lost : ∀ sid s side e, ep.registry.sessions.get sid = some s → s.HasSide side →
    ep.registry.slot side.1 side.2 = some e → (ep.onClose e.conn).1.registry.sessions.get sid = none

/-- The close event of a slot's socket takes the slot offline. -/
theorem Owned.onClose (h : ep.Owned) {d : DeviceId} {k : DeviceKind} {e : SlotEntry SocketId}
    (he : ep.registry.slot d k = some e) :
    (ep.onClose e.conn).1.registry = (ep.registry.offline d k (some e.conn)).1 := by
  simp only [Endpoint.onClose, releaseSlot, h d k e he]

theorem noOrphans_iff_joined (h : ep.Owned) : ep.NoOrphans ↔ ep.registry.Joined := by
  refine ⟨fun hn => hn.listed, fun hj => ⟨hj, fun sid s side hs hside => hj.closeSession hs hside, ?_⟩⟩
  intro sid s side e hs hside he
  rw [h.onClose he, ep.registry.offline_eq he (by simp), Registry.get_teardownAll, if_pos]
  obtain ⟨e', he', hin⟩ := hj sid s side hs hside
  cases he.symm.trans he'
  exact hin

/-- Whenever an event requests a connection to a host that takes it, the
requester's slot is registered. -/
def requesterRegistered (env : Env J) (ep : Endpoint J) (e : Event J) : Prop :=
  ∀ sid d k target pk, .requestConnect sid d k target pk ∈ ops env ep e →
    ∀ host, ep.registry.slot target .host = some host →
      host.sessions.size < ep.registry.opts.maxInboundPerHost → (ep.registry.slot d k).isSome

theorem joined_performAll {ops : List (Op SocketId J)} (h : ∀ op ∈ ops, keepsIds op) {r : Registry SocketId J}
    (hj : r.Joined) : (performAll r ops).Joined := by
  refine performAll_induct (fun r op hin hj => hj.perform op fun sid d k t pk hop => ?_) hj
  have := h op hin
  rw [hop] at this
  cases this

/-- One event keeps the sessions free of orphans exactly if its requester is
registered. -/
theorem noOrphans_handle (hr : (signaling env).Reachable ep) {e : Event J} (he : ep.admits e)
    (hn : ep.NoOrphans) : (handle env ep e).1.NoOrphans ↔ requesterRegistered env ep e := by
  have owned := owned_of_reachable hr
  rw [noOrphans_iff_joined (owned.handle he), registry_handle]
  have hj : ep.registry.Joined := hn.listed
  rcases ids_handle env ep e with ⟨-, hkeep⟩ | ⟨s, i, device, sid, now, d, k, target, pk, -, hops, -⟩
  · refine ⟨fun _ sid d k target pk hop => ?_, fun _ => joined_performAll hkeep hj⟩
    cases hkeep _ hop
  · have one := hj.requestConnect_iff sid d k target pk
    rw [hops]
    refine Iff.trans one ?_
    simp only [requesterRegistered, hops, List.mem_singleton, Op.requestConnect.injEq]
    constructor
    · rintro h _ _ _ _ _ ⟨rfl, rfl, rfl, rfl, rfl⟩
      exact h
    · intro h
      exact h sid d k target pk ⟨rfl, rfl, rfl, rfl, rfl⟩

theorem noOrphans_initial (env : Env J) : (initial env).NoOrphans := by
  refine ⟨fun sid s side hs => ?_, fun sid s side hs => ?_, fun sid s side e hs => ?_⟩ <;> cases hs

/-- A run leaves no orphan in any state exactly if every request that a host
takes comes from a registered slot. -/
theorem no_orphans_iff (env : Env J) {es : List (Event J)} (hv : (signaling env).Valid (initial env) es) :
    (signaling env).AllStates NoOrphans (initial env) es ↔
      (signaling env).AllSteps (requesterRegistered env) (initial env) es :=
  System.allStates_iff_allSteps (M := signaling env) (P := NoOrphans) (C := requesterRegistered env)
    (fun _ _ hr he hn => noOrphans_handle hr he hn) (.init rfl) (noOrphans_initial env) hv

/-! ## A request that outlives its socket -/

/-- A host and a controller register, and the controller asks for the host. -/
def sampleRequest : List (Event Unit) :=
  [.connection 0 none, registering 0 "111111111" .host, registered 0,
    .connection 1 none, registering 1 "222222222" .controller, registered 1,
    .message 1 (some (.connectRequest "111111111" none none)) 0]

/-- The socket closes during the lookup of its request, and the host has a
session with nobody. -/
theorem session_without_controller :
    ¬ ∀ ep, (signaling sampleEnv).Reachable ep → ep.NoOrphans := by
  intro all
  let es := sampleRequest ++ [.close 1, .resume 1 0 (.found (some sampleRow)) "s" 0]
  have hv : (signaling sampleEnv).Valid (initial sampleEnv) es :=
    ⟨rfl, ⟨_, rfl, rfl⟩, ⟨rfl, List.not_mem_nil⟩, rfl, ⟨_, rfl, rfl⟩, ⟨rfl, List.not_mem_nil⟩, ⟨_, rfl, rfl⟩,
      ⟨_, rfl, rfl⟩, ⟨rfl, List.not_mem_nil⟩, trivial⟩
  have orphan := all _ ((System.Reachable.init rfl : (signaling sampleEnv).Reachable (initial sampleEnv)).after hv)
  have opened : ((signaling sampleEnv).after (initial sampleEnv) es).registry.sessions.get "s" =
      some (Registry.newSession "s" "222222222" .controller "111111111") := by decide
  have gone : ((signaling sampleEnv).after (initial sampleEnv) es).registry.slot "222222222" .controller = none := by
    decide
  obtain ⟨e, he, -⟩ := orphan.listed "s" _ ("222222222", .controller) opened (.inl rfl)
  exact Option.some_ne_none e (he.symm.trans gone)

/-- The requester of a call, if it is a request, is registered. -/
def callerListed (r : Registry SocketId J) : Op SocketId J → Bool
  | .requestConnect _ d k _ _ => (r.slot d k).isSome
  | _ => true

theorem requesterRegistered_of_listed {e : Event J} (h : (ops env ep e).all (callerListed ep.registry)) :
    requesterRegistered env ep e := fun _ _ _ _ _ hop _ _ _ => List.all_eq_true.1 h _ hop

/-- A request that finds its requester registered leaves no orphan. -/
theorem no_orphans_of_patient_requester :
    (signaling sampleEnv).AllStates NoOrphans (initial sampleEnv)
      (sampleRequest ++ [.resume 1 0 (.found (some sampleRow)) "s" 0]) := by
  have hv : (signaling sampleEnv).Valid (initial sampleEnv)
      (sampleRequest ++ [.resume 1 0 (.found (some sampleRow)) "s" 0]) :=
    ⟨rfl, ⟨_, rfl, rfl⟩, ⟨rfl, List.not_mem_nil⟩, rfl, ⟨_, rfl, rfl⟩, ⟨rfl, List.not_mem_nil⟩, ⟨_, rfl, rfl⟩,
      ⟨rfl, List.not_mem_nil⟩, trivial⟩
  refine (no_orphans_iff sampleEnv hv).2 ⟨?_, ?_, ?_, ?_, ?_, ?_, ?_, ?_, trivial⟩
  all_goals exact requesterRegistered_of_listed (by decide)

end Endpoint

end ZortilWatch.Signaling
