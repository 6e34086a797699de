import ZortilWatch.Signaling.Orphans

/-!
# How many sessions a host has

`requestConnect` and `presence` read the load of a host off the size of its
slot's `sessions` set. Every session into the host is there, and so is every
session the same slot asked for at another device. `Accounted` says that there is
nothing else (`size_sessions`), so the size is the inbound load exactly while the
host slot asks for no session itself (`inbound_capacity`).
-/

namespace ZortilWatch.Signaling

namespace Registry

variable {C J : Type} (r : Registry C J)

/-- The number of sessions into `t`. -/
def inbound (t : DeviceId) : Nat := r.sessions.values.countP (·.hostId = t)

/-- The number of listed sessions of `t`'s host slot that are into another device. -/
def outgoing (t : DeviceId) : Nat :=
  match r.slot t .host with
  | none => 0
  | some e => e.sessions.elems.countP fun sid => (r.sessions.get sid).any (·.hostId ≠ t)

/-- A session belongs to the slot of the device it is into. -/
def intoHost (s : Session) (side : Side) : Prop := s.hostSide = side

theorem pairing_intoHost : Pairing intoHost := ⟨fun _ _ h => .inr h, fun _ _ _ => Iff.rfl⟩

/-- What a host's load is made of. -/
structure Accounted (r : Registry C J) : Prop where
  members : r.Members
  hosted : r.ListsAll intoHost
  bounded : ∀ t, r.inbound t ≤ r.opts.maxInboundPerHost

variable {r}

/-- The set of a host slot holds the sessions into the host and the ones the
host asked for. -/
theorem Accounted.size_sessions (h : r.Accounted) {t : DeviceId} {e : SlotEntry C} (he : r.slot t .host = some e) :
    e.sessions.size = r.inbound t + r.outgoing t := by
  let into : SessionId → Bool := fun sid => (r.sessions.get sid).any (·.hostId = t)
  have inner : e.sessions.elems.countP into = r.inbound t := by
    rw [List.countP_eq_length_filter, inbound]
    refine (JsMap.count_eq_length _ _ (e.sessions.nodup.filter _) fun sid => ?_).symm
    simp only [List.mem_filter, into, Option.any_eq_true_iff_get, decide_eq_true_eq]
    constructor
    · rintro ⟨-, hs, ht⟩
      exact ⟨_, (Option.some_get hs).symm, ht⟩
    · rintro ⟨s, hs, rfl⟩
      obtain ⟨e', he', hin⟩ := h.hosted sid s s.hostSide hs rfl
      cases he.symm.trans he'
      exact ⟨hin, by rw [hs]; rfl, by simp [hs]⟩
  have outer : e.sessions.elems.countP (fun sid => ¬ into sid) = r.outgoing t := by
    rw [outgoing, he]
    refine List.countP_congr fun sid hin => ?_
    obtain ⟨s, hs, -⟩ := h.members t .host e sid he hin
    simp [into, hs]
  rw [← inner, ← outer]
  exact List.length_eq_countP_add_countP into

/-! ## Every call keeps the account -/

theorem inbound_granted {sid : SessionId} (fresh : r.sessions.get sid = none) (c : DeviceId) (ck : DeviceKind)
    (t t' : DeviceId) : (r.granted sid c ck t).inbound t' = r.inbound t' + if t = t' then 1 else 0 := by
  rw [inbound, sessions_granted, JsMap.count_set_fresh _ _ _ fresh]
  by_cases h : t = t' <;> simp [inbound, newSession, h]

theorem inbound_teardown_le (r : Registry C J) (sid : SessionId) (reason : String) (initiator : Side)
    (t : DeviceId) : (r.teardown sid reason initiator).1.inbound t ≤ r.inbound t := by
  cases h : r.sessions.get sid with
  | none => exact Nat.le_of_eq (by rw [teardown_of_none r h])
  | some s =>
    have count := JsMap.count_delete (fun s : Session => decide (s.hostId = t)) r.sessions h
    simp only [inbound, teardown_of_get r h, sessions_modifySlot]
    omega

section Calls

variable [DecidableEq C]

theorem opts_perform (r : Registry C J) (op : Op C J) : (r.perform op).2.1.opts = r.opts := by
  cases op with
  | online d k conn info now => rfl
  | offline d k guard =>
    simp only [perform]
    rcases r.offline_cases d k guard with h | ⟨e, -, -, h⟩ <;> rw [h]
    exact teardownAll_induct (P := fun r' _ => r'.opts = r.opts)
      (fun r' _ sid _ same => (opts_teardown r' sid _ _).trans same) (opts_dropSlot r d k)
  | touch d now => simp [perform, touch]
  | dispatchWake => rfl
  | requestConnect sid d k t pk =>
    rcases r.requestConnect_cases sid d k t pk with ⟨_, h⟩ | ⟨_, _, _, h⟩ <;> simp [perform, h, granted]
  | acceptConnect sid d k =>
    rcases r.acceptConnect_cases sid d k with h | ⟨s, -, -, -, h⟩ <;> simp [perform, h]
  | rejectConnect sid d k reason =>
    rcases r.rejectConnect_cases sid d k reason with h | ⟨_, -, -, h⟩ <;> simp [perform, h]
  | relaySignal sid d k kind payload =>
    rcases r.relaySignal_cases sid d k kind payload with h | ⟨_, _, -, -, h⟩ <;> simp [perform, h]
  | closeSession sid d k reason =>
    rcases r.closeSession_cases sid d k reason with h | ⟨_, _, -, -, h⟩ <;> simp [perform, h]

/-- Only a granted request adds a session to a host, and it finds room there. -/
theorem Accounted.inbound_perform (h : r.Accounted) (op : Op C J)
    (fresh : ∀ sid d k t pk, op = .requestConnect sid d k t pk → r.sessions.get sid = none) (t : DeviceId) :
    (r.perform op).2.1.inbound t ≤ r.inbound t ∨
      ((r.perform op).2.1.inbound t = r.inbound t + 1 ∧ r.inbound t < r.opts.maxInboundPerHost) := by
  cases op with
  | online d k conn info now => exact .inl (Nat.le_refl _)
  | offline d k guard =>
    refine .inl ?_
    simp only [perform]
    rcases r.offline_cases d k guard with hr | ⟨e, -, -, hr⟩
    · exact Nat.le_of_eq (by rw [hr])
    · rw [hr]
      refine teardownAll_induct (P := fun r' _ => r'.inbound t ≤ r.inbound t)
        (fun r' _ sid _ le => Nat.le_trans (inbound_teardown_le r' sid _ _ t) le) ?_
      simp [inbound]
  | touch d now => simp [perform, touch, inbound]
  | dispatchWake => exact .inl (Nat.le_refl _)
  | requestConnect sid d k t' pk =>
    rcases r.requestConnect_cases sid d k t' pk with ⟨_, hr⟩ | ⟨host, hh, room, hr⟩ <;> simp only [perform, hr]
    · exact .inl (Nat.le_refl _)
    · rw [inbound_granted (fresh _ _ _ _ _ rfl)]
      by_cases target : t' = t
      · subst target
        rw [h.size_sessions hh] at room
        exact .inr ⟨by simp, by omega⟩
      · exact .inl (by simp [target])
  | acceptConnect sid d k =>
    refine .inl ?_
    rcases r.acceptConnect_cases sid d k with hr | ⟨s, hs, -, -, hr⟩ <;> simp only [perform, hr]
    · exact Nat.le_refl _
    · have count := JsMap.count_set_of_get (fun s : Session => decide (s.hostId = t)) r.sessions
        { s with status := .ready } hs
      exact Nat.le_of_eq (Nat.add_right_cancel count)
  | rejectConnect sid d k reason =>
    refine .inl ?_
    rcases r.rejectConnect_cases sid d k reason with hr | ⟨_, -, -, hr⟩ <;> simp only [perform, hr]
    · exact Nat.le_refl _
    · exact inbound_teardown_le r sid _ _ t
  | relaySignal sid d k kind payload =>
    refine .inl ?_
    rcases r.relaySignal_cases sid d k kind payload with hr | ⟨_, _, -, -, hr⟩ <;> simp only [perform, hr] <;>
      exact Nat.le_refl _
  | closeSession sid d k reason =>
    refine .inl ?_
    rcases r.closeSession_cases sid d k reason with hr | ⟨_, _, -, -, hr⟩ <;> simp only [perform, hr]
    · exact Nat.le_refl _
    · exact inbound_teardown_le r sid _ _ t

theorem Accounted.perform (h : r.Accounted) (op : Op C J)
    (fresh : ∀ sid d k t pk, op = .requestConnect sid d k t pk → r.sessions.get sid = none) :
    (r.perform op).2.1.Accounted where
  members := h.members.perform op fresh
  hosted := h.hosted.perform pairing_intoHost op fun _ _ _ _ _ _ _ hside other => absurd hside.symm other
  bounded t := by
    rw [opts_perform]
    have before := h.bounded t
    rcases h.inbound_perform op fresh t with le | ⟨eq, room⟩ <;> omega

theorem accounted_of_reachable {t : Trace C J} (ht : (registrySystem C J).Reachable t) : t.reg.Accounted := by
  refine System.Reachable.invariant (P := fun t : Trace C J => t.reg.Accounted) (fun t0 h0 => ?_)
    (fun t0 op hr h he => h.perform op ((Trace.sane_of_reachable hr).free_request he)) ht
  obtain ⟨opts, rfl⟩ := h0
  exact ⟨members_empty opts, fun _ _ _ hs => (by cases hs), fun _ => Nat.zero_le _⟩

end Calls

/-! ## What the load is read off -/

/-- Load is judged by the sessions into the host. -/
structure Capacity (r : Registry C J) : Prop where
  bounded : ∀ t e, r.slot t .host = some e → r.inbound t ≤ r.opts.maxInboundPerHost
  busy : ∀ t e, r.slot t .host = some e → ∀ sid c ck pk,
    ((r.requestConnect sid c ck t pk).1.code = some .busy ↔ r.inbound t = r.opts.maxInboundPerHost)
  presence : ∀ t e, r.slot t .host = some e → ∀ ids, ∀ p ∈ r.presence ids, p.id = t →
    (p.busy = some true ↔ 0 < r.inbound t)

/-- What a host asked for itself does not show in its load: it asked for nothing,
or the sessions into it decide both answers alone. -/
def OutgoingFits (r : Registry C J) : Prop :=
  ∀ t e, r.slot t .host = some e → r.outgoing t = 0 ∨
    (0 < r.inbound t ∧
      (r.inbound t = r.opts.maxInboundPerHost ∨ r.inbound t + r.outgoing t < r.opts.maxInboundPerHost))

theorem requestConnect_busy {t : DeviceId} {e : SlotEntry C} (he : r.slot t .host = some e) (sid : SessionId)
    (c : DeviceId) (ck : DeviceKind) (pk : Option PasswordKind) :
    (r.requestConnect sid c ck t pk).1.code = some .busy ↔ r.opts.maxInboundPerHost ≤ e.sessions.size := by
  simp only [requestConnect, he]
  split
  · rename_i full
    simpa using full
  · rename_i room
    simpa using room

theorem presence_busy {t : DeviceId} {e : SlotEntry C} (he : r.slot t .host = some e) {ids : List DeviceId}
    {p : PresenceEntry} (hp : p ∈ r.presence ids) (ht : p.id = t) : p.busy = some (decide (e.sessions.size > 0)) := by
  obtain ⟨id, -, rfl⟩ := List.mem_map.1 hp
  cases hs : r.slot id .host with
  | none =>
    simp only [hs] at ht
    rw [← ht, hs] at he
    cases he
  | some e' =>
    simp only [hs] at ht ⊢
    rw [← ht, hs] at he
    cases he
    rfl

theorem Accounted.capacity_iff (h : r.Accounted) : r.Capacity ↔ r.OutgoingFits := by
  constructor
  · intro hc t e he
    have size := h.size_sessions he
    have busy := (requestConnect_busy he "" t .host none).symm.trans (hc.busy t e he "" t .host none)
    obtain ⟨p, hp, ht⟩ : ∃ p ∈ r.presence [t], p.id = t := by simp [Registry.presence, he]
    have shown := hc.presence t e he [t] p hp ht
    rw [presence_busy he hp ht] at shown
    simp only [Option.some.injEq, decide_eq_true_eq] at shown
    omega
  · intro fits
    refine ⟨fun t _ _ => h.bounded t, fun t e he sid c ck pk => ?_, fun t e he ids p hp ht => ?_⟩
    · rw [requestConnect_busy he, h.size_sessions he]
      have := fits t e he
      have := h.bounded t
      omega
    · rw [presence_busy he hp ht, h.size_sessions he]
      have := fits t e he
      simp only [Option.some.injEq, decide_eq_true_eq]
      omega

/-- A session belongs to its sides, but to a host slot only if it is into it. -/
def inward (s : Session) (side : Side) : Prop := s.HasSide side ∧ (side.2 = .host → s.hostId = side.1)

theorem pairing_inward : Pairing inward := ⟨fun _ _ h => h.1, fun _ _ _ => Iff.rfl⟩

theorem outgoing_of_inward (h : r.ListsOnly inward) (t : DeviceId) : r.outgoing t = 0 := by
  unfold outgoing
  cases he : r.slot t .host with
  | none => rfl
  | some e =>
    refine List.countP_eq_zero.2 fun sid hin => ?_
    obtain ⟨s, hs, -, ht⟩ := h t .host e sid he hin
    simp [hs, ht rfl]

end Registry

namespace Endpoint

variable {J : Type} {env : Env J} {ep : Endpoint J}

/-- Whenever an event requests a connection under a registered host role and the
target takes it, the target is the requester itself. -/
def hostAsksNobody (env : Env J) (ep : Endpoint J) (e : Event J) : Prop :=
  ∀ sid d target pk, .requestConnect sid d .host target pk ∈ ops env ep e →
    (ep.registry.slot d .host).isSome → ∀ host, ep.registry.slot target .host = some host →
      host.sessions.size < ep.registry.opts.maxInboundPerHost → target = d

theorem accounted_of_reachable (h : (signaling env).Reachable ep) : ep.registry.Accounted := by
  obtain ⟨t, ht, hf⟩ := follows_registry h
  exact hf.reg ▸ Registry.accounted_of_reachable ht

/-- The id an event may hand out names no open session. -/
theorem free_of_reachable (h : (signaling env).Reachable ep) {sid : SessionId} (fresh : sid ∉ ep.issued) :
    ep.registry.sessions.get sid = none := by
  obtain ⟨t, ht, hf⟩ := follows_registry h
  exact hf.reg ▸ (Trace.sane_of_reachable ht).free (hf.issued ▸ fresh)

theorem inward_handle (hr : (signaling env).Reachable ep) {e : Event J} (he : ep.admits e)
    (hi : ep.registry.ListsOnly Registry.inward) (asks : hostAsksNobody env ep e) :
    (handle env ep e).1.registry.ListsOnly Registry.inward := by
  rw [registry_handle]
  rcases ids_handle env ep e with ⟨-, hkeep⟩ | ⟨s, i, device, sid, now, d, k, target, pk, rfl, hops, -⟩
  · have noRequest {op : Op SocketId J} (hin : op ∈ ops env ep e) (sid d k t pk) :
        op ≠ .requestConnect sid d k t pk := by
      rintro rfl
      cases hkeep _ hin
    exact performAll_induct (fun r op hin hi => hi.perform Registry.pairing_inward op
      (fun _ _ _ _ _ hop => absurd hop (noRequest hin _ _ _ _ _))
      fun _ _ _ _ _ hop => absurd hop (noRequest hin _ _ _ _ _)) hi
  · rw [hops]
    refine hi.perform Registry.pairing_inward _ (fun sid' d' k' t' pk' hop => ?_)
      fun sid' d' k' t' pk' hop ok side hside present => ?_
    · cases hop
      exact free_of_reachable hr he.2
    · cases hop
      rcases ep.registry.requestConnect_cases sid d k target pk with ⟨_, h⟩ | ⟨host, hh, room, -⟩
      · simp only [Registry.perform, h] at ok
        cases ok
      · refine ⟨hside, fun hk => ?_⟩
        rcases hside with rfl | rfl
        · cases hk
          exact asks sid d target pk (by rw [hops]; exact List.mem_singleton_self _) present host hh room
        · rfl

/-- A run judges load by the sessions into a host exactly as long as what hosts
asked for themselves does not show in it, and always if no host slot asks for
another device. -/
theorem inbound_capacity (env : Env J) {es : List (Event J)} (hv : (signaling env).Valid (initial env) es) :
    ((signaling env).AllStates (fun ep => ep.registry.Capacity) (initial env) es ↔
        (signaling env).AllStates (fun ep => ep.registry.OutgoingFits) (initial env) es) ∧
      ((signaling env).AllSteps (hostAsksNobody env) (initial env) es →
        (signaling env).AllStates (fun ep => ep.registry.Capacity) (initial env) es) := by
  have start : (signaling env).Reachable (initial env) := .init rfl
  have exact_states : (signaling env).AllStates (fun ep => ep.registry.Capacity) (initial env) es ↔
      (signaling env).AllStates (fun ep => ep.registry.OutgoingFits) (initial env) es :=
    System.allStates_congr (fun ep hr => (accounted_of_reachable hr).capacity_iff) start hv
  refine ⟨exact_states, fun asks => exact_states.2 ?_⟩
  have inward := System.allStates_of_allSteps (M := signaling env)
    (P := fun ep => ep.registry.ListsOnly Registry.inward) (fun ep e hr he hi hc => inward_handle hr he hi hc)
    start (fun _ _ _ _ he => (by cases he)) hv asks
  exact inward.mono fun ep hi t _ _ => .inl (Registry.outgoing_of_inward hi t)

/-! ## A host that connects under its host role -/

/-- Two hosts register, and the first asks for the second. -/
def sampleHostRequest : List (Event Unit) :=
  [.connection 0 none, registering 0 "111111111" .host, registered 0,
    .connection 1 none, registering 1 "222222222" .host, registered 1,
    .message 0 (some (.connectRequest "222222222" none none)) 0, .resume 0 0 (.found (some sampleRow)) "s" 0]

/-- The first host is shown busy, and nobody is connected to it. -/
theorem busy_without_inbound : ¬ ∀ ep, (signaling sampleEnv).Reachable ep → ep.registry.Capacity := by
  intro all
  have hv : (signaling sampleEnv).Valid (initial sampleEnv) sampleHostRequest :=
    ⟨rfl, ⟨_, rfl, rfl⟩, ⟨rfl, List.not_mem_nil⟩, rfl, ⟨_, rfl, rfl⟩, ⟨rfl, List.not_mem_nil⟩, ⟨_, rfl, rfl⟩,
      ⟨rfl, List.not_mem_nil⟩, trivial⟩
  let ep := (signaling sampleEnv).after (initial sampleEnv) sampleHostRequest
  have capacity := all ep ((System.Reachable.init rfl : (signaling sampleEnv).Reachable (initial sampleEnv)).after hv)
  have shown : (ep.registry.presence ["111111111"]).map (fun p => (p.id, p.busy)) = [("111111111", some true)] := by
    decide
  have online : (ep.registry.slot "111111111" .host).isSome := by decide
  have nobody : ep.registry.inbound "111111111" = 0 := by decide
  obtain ⟨e, he⟩ := Option.isSome_iff_exists.1 online
  obtain ⟨p, hp⟩ : ∃ p, p ∈ ep.registry.presence ["111111111"] := ⟨_, List.mem_singleton_self _⟩
  have entry : (p.id, p.busy) = ("111111111", some true) := by
    have := List.mem_map_of_mem (f := fun p : PresenceEntry => (p.id, p.busy)) hp
    rw [shown] at this
    exact List.mem_singleton.1 this
  simp only [Prod.mk.injEq] at entry
  have busy := (capacity.presence _ e he _ p hp entry.1).1 entry.2
  rw [nobody] at busy
  cases busy

/-- The call is no request under a host role. -/
def noHostRequest : Op SocketId J → Bool
  | .requestConnect _ _ .host _ _ => false
  | _ => true

theorem hostAsksNobody_of_none {e : Event J} (h : (ops env ep e).all noHostRequest) : hostAsksNobody env ep e :=
  fun _ _ _ _ hop => absurd (List.all_eq_true.1 h _ hop) (by simp [noHostRequest])

/-- A controller's request is counted right. -/
theorem inbound_capacity_of_controller :
    (signaling sampleEnv).AllStates (fun ep => ep.registry.Capacity) (initial sampleEnv)
      (sampleRequest ++ [.resume 1 0 (.found (some sampleRow)) "s" 0]) := by
  have hv : (signaling sampleEnv).Valid (initial sampleEnv)
      (sampleRequest ++ [.resume 1 0 (.found (some sampleRow)) "s" 0]) :=
    ⟨rfl, ⟨_, rfl, rfl⟩, ⟨rfl, List.not_mem_nil⟩, rfl, ⟨_, rfl, rfl⟩, ⟨rfl, List.not_mem_nil⟩, ⟨_, rfl, rfl⟩,
      ⟨rfl, List.not_mem_nil⟩, trivial⟩
  refine (inbound_capacity sampleEnv hv).2 ⟨?_, ?_, ?_, ?_, ?_, ?_, ?_, ?_, trivial⟩
  all_goals exact hostAsksNobody_of_none (by decide)

end Endpoint

end ZortilWatch.Signaling
