import ZortilWatch.Signaling.HandlerSpec

/-!
# Whose socket holds a slot

A slot's connection is always a socket that is registered as that slot
(`Endpoint.Owned`), so a socket holds at most one slot. That the socket is still
connected fails for one kind of event: a `register` whose lookup succeeds after
the close event of its socket. `presence_live_iff` says it fails for no other.
-/

namespace ZortilWatch.Signaling

/-- A call that neither takes nor frees a slot. -/
def Op.keepsSlots {C J : Type} : Op C J → Bool
  | .online .. => false
  | .offline .. => false
  | _ => true

namespace Registry

variable {C J : Type} [DecidableEq C] (r : Registry C J)

/-- Calls about sessions leave every slot with its connection. -/
theorem perform_conn {op : Op C J} (h : op.keepsSlots) (d : DeviceId) (k : DeviceKind) :
    ((r.perform op).2.1.slot d k).map (·.conn) = (r.slot d k).map (·.conn) := by
  cases op with
  | online => cases h
  | offline => cases h
  | touch d' now =>
    simp only [perform, touch, slot_modifySlot]
    cases r.slot d k with
    | none => simp
    | some e => split <;> split <;> rfl
  | dispatchWake => rfl
  | requestConnect sid c ck t pk =>
    rcases r.requestConnect_cases sid c ck t pk with ⟨_, h⟩ | ⟨_, -, -, h⟩ <;> simp only [perform, h]
    rw [slot_granted]
    split
    · simp [Function.comp_def]
    · rfl
  | acceptConnect sid d' k' =>
    rcases r.acceptConnect_cases sid d' k' with h | ⟨_, -, -, -, h⟩ <;> simp only [perform, h]
    rfl
  | rejectConnect sid d' k' reason =>
    rcases r.rejectConnect_cases sid d' k' reason with h | ⟨_, -, -, h⟩ <;> simp only [perform, h]
    exact slot_teardown_conn _ _ _ _ _ _
  | relaySignal sid d' k' kind payload =>
    rcases r.relaySignal_cases sid d' k' kind payload with h | ⟨_, _, -, -, h⟩ <;> simp only [perform, h]
  | closeSession sid d' k' reason =>
    rcases r.closeSession_cases sid d' k' reason with h | ⟨_, _, -, -, h⟩ <;> simp only [perform, h]
    exact slot_teardown_conn _ _ _ _ _ _

/-- After `offline` for a connection that holds no other slot, it holds none;
other connections keep theirs. -/
theorem offline_releases {d : DeviceId} {k : DeviceKind} {conn : C}
    (only : ∀ d' k' e, r.slot d' k' = some e → e.conn = conn → (d', k') = (d, k)) {d' : DeviceId}
    {k' : DeviceKind} {e' : SlotEntry C} (h : (r.offline d k (some conn)).1.slot d' k' = some e') :
    e'.conn ≠ conn ∧ ∃ e, r.slot d' k' = some e ∧ e.conn = e'.conn := by
  have kept : ∃ e, r.slot d' k' = some e ∧ e.conn = e'.conn := by
    rcases r.slot_offline_conn d k (some conn) d' k' with same | ⟨-, gone⟩
    · rw [h] at same
      obtain ⟨e, he, hc⟩ := Option.map_eq_some_iff.1 same.symm
      exact ⟨e, he, hc⟩
    · rw [h] at gone
      cases gone
  refine ⟨fun hc => ?_, kept⟩
  obtain ⟨e, he, hce⟩ := kept
  cases only d' k' e he (hce.trans hc)
  -- the guard passes, so the slot was dropped
  have cleared := slot_teardownAll_conn (r.dropSlot d k) "peer_offline" (d, k) e.sessions.elems d k
  have passes : (some conn).any (· ≠ e.conn) = false := by simp [hce.trans hc]
  rw [← r.offline_eq he passes, h, slot_dropSlot, if_pos rfl] at cleared
  cases cleared

end Registry

namespace Endpoint

variable {J : Type} {env : Env J} {ep : Endpoint J}

/-- The connection of a slot is registered as that slot. -/
def Owned (ep : Endpoint J) : Prop := ∀ d k e, ep.registry.slot d k = some e → ep.identity e.conn = some (d, k)

theorem Owned.at_most_one (h : ep.Owned) {d d' : DeviceId} {k k' : DeviceKind} {e e' : SlotEntry SocketId}
    (he : ep.registry.slot d k = some e) (he' : ep.registry.slot d' k' = some e') (hc : e.conn = e'.conn) :
    (d, k) = (d', k') := by
  have mine := h d k e he
  rw [hc, h d' k' e' he'] at mine
  cases mine
  rfl

/-- Releasing a socket's slot leaves it without a slot. -/
theorem Owned.releases (h : ep.Owned) (s : SocketId) {d : DeviceId} {k : DeviceKind} {e' : SlotEntry SocketId}
    (he' : (performAll ep.registry (ep.releases s)).slot d k = some e') :
    e'.conn ≠ s ∧ ∃ e, ep.registry.slot d k = some e ∧ e.conn = e'.conn := by
  unfold Endpoint.releases at he'
  cases hid : ep.identity s with
  | none =>
    rw [hid] at he'
    refine ⟨fun hc => ?_, e', he', rfl⟩
    have mine := h d k e' he'
    rw [hc, hid] at mine
    cases mine
  | some side =>
    rw [hid] at he'
    refine ep.registry.offline_releases (fun d' k' e he hc => ?_) he'
    have mine := h d' k' e he
    rw [hc, hid] at mine
    cases mine
    rfl

theorem performAll_conn {ops : List (Op SocketId J)} (h : ∀ op ∈ ops, op.keepsSlots) (r : Registry SocketId J)
    (d : DeviceId) (k : DeviceKind) : ((performAll r ops).slot d k).map (·.conn) = (r.slot d k).map (·.conn) := by
  induction ops generalizing r with
  | nil => rfl
  | cons op ops ih =>
    have rest := ih (fun op' h' => h op' (List.mem_cons_of_mem _ h')) (r.perform op).2.1
    exact rest.trans (r.perform_conn (h op List.mem_cons_self) d k)

theorem keepsSlots_answers (d : DeviceId) (k : DeviceKind) (msg : ClientMessage J) :
    ∀ op ∈ answers d k msg, op.keepsSlots := by
  intro op hop
  cases msg <;> simp only [answers, List.mem_singleton, List.not_mem_nil] at hop <;> subst hop <;> rfl

/-- Slots move when a registration completes and when a socket closes, and at no
other event. -/
theorem ops_cases (env : Env J) (ep : Endpoint J) (e : Event J) :
    (∃ s d k info now, registers env ep e = some (s, (d, k)) ∧
        ops env ep e = ep.releases s ++ [.online d k s info now] ∧ ∀ s', e ≠ .close s') ∨
      (∃ s, e = .close s) ∨
      (registers env ep e = none ∧ (∀ op ∈ ops env ep e, op.keepsSlots) ∧ ∀ s, e ≠ .close s) := by
  cases e with
  | connection s wanIp => exact .inr (.inr ⟨rfl, by simp [ops], by simp⟩)
  | message s raw now =>
    refine .inr (.inr ⟨rfl, ?_, by simp⟩)
    simp only [ops]
    cases raw.filter ClientMessage.wellFormed with
    | none => simp
    | some msg =>
      cases ep.identity s with
      | none => simp
      | some side => exact keepsSlots_answers side.1 side.2 msg
  | resume s i device sessionId now =>
    cases hw : ep.waitingAt s i with
    | none => exact .inr (.inr ⟨by cases device <;> simp [registers, hw], by simp [ops, hw], by simp⟩)
    | some msg =>
      cases msg with
      | register d secret kind mac canWake rid =>
        cases device with
        | failed => exact .inr (.inr ⟨rfl, by simp [ops, hw], by simp⟩)
        | found device =>
          cases ha : env.authenticate device secret with
          | none => exact .inr (.inr ⟨by simp [registers, hw, ha], by simp [ops, hw, ha], by simp⟩)
          | some row =>
            let info : SlotMeta :=
              { wanIp := (ep.sockets s).bind (·.wanIp), canWake := canWake, accountId := some row.accountId }
            have call : ops env ep (.resume s i (.found device) sessionId now) =
                ep.releases s ++ [.online d kind s info now] := by
              simp only [ops, hw, ha]
              rfl
            exact .inl ⟨s, d, kind, info, now, by simp [registers, hw, ha], call, by simp⟩
      | connectRequest target pk rid =>
        refine .inr (.inr ⟨by cases device <;> simp [registers, hw], ?_, by simp⟩)
        simp only [ops, hw]
        cases ep.identity s with
        | none => simp
        | some side =>
          dsimp only
          split
          · simp
          · simp [Op.keepsSlots]
      | _ => exact .inr (.inr ⟨by cases device <;> simp [registers, hw], by simp [ops, hw], by simp⟩)
  | close s => exact .inr (.inl ⟨s, rfl⟩)

/-- A slot after an event was there before, held by the same connection, unless
the event registered that connection for it; a connection that registers or
closes gives up its other slots. -/
theorem Owned.slot_handle (h : ep.Owned) (e : Event J) {d : DeviceId} {k : DeviceKind} {e' : SlotEntry SocketId}
    (he' : (handle env ep e).1.registry.slot d k = some e') :
    registers env ep e = some (e'.conn, (d, k)) ∨
      (∃ e0, ep.registry.slot d k = some e0 ∧ e0.conn = e'.conn) ∧
        (∀ side, registers env ep e ≠ some (e'.conn, side)) ∧ e ≠ .close e'.conn := by
  rw [registry_handle] at he'
  rcases ops_cases env ep e with ⟨s, d0, k0, info, now, hr, hops, hclose⟩ | ⟨s, rfl⟩ | ⟨hr, hkeep, hclose⟩
  · rw [hops, performAll_append] at he'
    have online := Registry.slot_online (performAll ep.registry (ep.releases s)) d0 k0 s info now d k
    rw [show (performAll (performAll ep.registry (ep.releases s)) [.online d0 k0 s info now]) =
      ((performAll ep.registry (ep.releases s)).online d0 k0 s info now).1 from rfl, online] at he'
    split at he'
    · rename_i hd
      cases he'
      cases hd
      exact .inl hr
    · obtain ⟨hne, kept⟩ := h.releases s he'
      refine .inr ⟨kept, fun side hside => ?_, hclose _⟩
      rw [hr] at hside
      cases hside
      exact hne rfl
  · obtain ⟨hne, kept⟩ := h.releases s he'
    refine .inr ⟨kept, nofun, fun hc => ?_⟩
    cases hc
    exact hne rfl
  · have same := performAll_conn hkeep ep.registry d k
    rw [he'] at same
    obtain ⟨e0, he0, hc⟩ := Option.map_eq_some_iff.1 same.symm
    exact .inr ⟨⟨e0, he0, hc⟩, by simp [hr], hclose _⟩

/-- A completed registration holds its slot. -/
theorem slot_registered {e : Event J} {s : SocketId} {side : Side} (hr : registers env ep e = some (s, side)) :
    ∃ e', (handle env ep e).1.registry.slot side.1 side.2 = some e' ∧ e'.conn = s := by
  rw [registry_handle]
  rcases ops_cases env ep e with ⟨s', d, k, info, now, hr', hops, -⟩ | ⟨s', rfl⟩ | ⟨hr', -, -⟩
  · cases hr.symm.trans hr'
    rw [hops, performAll_append]
    exact ⟨_, (Registry.slot_online _ d k s info now d k).trans (if_pos rfl), rfl⟩
  · cases hr
  · cases hr.symm.trans hr'

theorem Owned.handle (h : ep.Owned) {e : Event J} (he : ep.admits e) : (Endpoint.handle env ep e).1.Owned := by
  intro d k e' he'
  rw [identity_handle env ep he]
  rcases h.slot_handle e he' with hr | ⟨⟨e0, he0, hc⟩, hr, -⟩
  · rw [hr]
    exact if_pos rfl
  · have before := h d k e0 he0
    rw [hc] at before
    cases hreg : registers env ep e with
    | none => exact before
    | some r =>
      obtain ⟨s', side⟩ := r
      have : s' ≠ e'.conn := fun hs => hr side (hs ▸ hreg)
      exact (if_neg this).trans before

theorem owned_of_reachable (h : (signaling env).Reachable ep) : ep.Owned := by
  refine System.Reachable.invariant (fun ep0 h0 => ?_) (fun ep0 e _ ho he => ho.handle he) h
  cases h0
  intro d k e he
  cases he

/-! ## Live presence -/

/-- Every slot belongs to a connected socket registered as that slot, and no
socket holds two. -/
structure PresenceLive (ep : Endpoint J) : Prop where
  live : ∀ d k e, ep.registry.slot d k = some e → ep.isOpen e.conn
  owned : ep.Owned
  single : ∀ d k e d' k' e', ep.registry.slot d k = some e → ep.registry.slot d' k' = some e' →
    e.conn = e'.conn → (d, k) = (d', k')

/-- No registration completes on a socket whose close event has been processed. -/
def registersOpen (env : Env J) (ep : Endpoint J) (e : Event J) : Prop :=
  ∀ s side, registers env ep e = some (s, side) → ep.isOpen s

theorem presenceLive_iff (h : ep.Owned) :
    ep.PresenceLive ↔ ∀ d k e, ep.registry.slot d k = some e → ep.isOpen e.conn :=
  ⟨fun hp => hp.live, fun hl => ⟨hl, h, fun _ _ _ _ _ _ he he' hc => h.at_most_one he he' hc⟩⟩

/-- One event keeps presence live exactly if it registers no closed socket. -/
theorem presenceLive_handle {e : Event J} (he : ep.admits e) (hp : ep.PresenceLive) :
    (handle env ep e).1.PresenceLive ↔ registersOpen env ep e := by
  have ho : (handle env ep e).1.Owned := hp.owned.handle he
  rw [presenceLive_iff ho]
  constructor
  · intro hl s side hr
    obtain ⟨e', he', hc⟩ := slot_registered hr
    rcases (isOpen_handle env ep e s).1 (hc ▸ hl side.1 side.2 e' he') with ⟨hopen, -⟩ | ⟨wanIp, rfl⟩
    · exact hopen
    · cases hr
  · intro hreg d k e' he'
    refine (isOpen_handle env ep e e'.conn).2 (.inl ?_)
    rcases hp.owned.slot_handle e he' with hr | ⟨⟨e0, he0, hc⟩, -, hclose⟩
    · refine ⟨hreg _ _ hr, fun hc => ?_⟩
      rw [hc] at hr
      cases hr
    · exact ⟨hc ▸ hp.live d k e0 he0, hclose⟩

theorem presenceLive_initial (env : Env J) : (initial env).PresenceLive := by
  refine ⟨fun d k e he => ?_, fun d k e he => ?_, fun d k e d' k' e' he => ?_⟩ <;> cases he

/-- A run keeps presence live throughout exactly if it never completes a
registration on a closed socket. -/
theorem presence_live_iff (env : Env J) {es : List (Event J)} (hv : (signaling env).Valid (initial env) es) :
    (signaling env).AllStates PresenceLive (initial env) es ↔
      (signaling env).AllSteps (registersOpen env) (initial env) es :=
  System.allStates_iff_allSteps (M := signaling env) (P := PresenceLive) (C := registersOpen env)
    (fun _ _ _ he hp => presenceLive_handle he hp) (.init rfl) (presenceLive_initial env) hv

/-! ## A registration that outlives its socket -/

/-- An endpoint whose hash is right about the secret `abc`. -/
def sampleEnv : Env Unit where
  limiterEnabled := true
  iceServersFor _ := ()
  hashClientSecret _ := "ba7816bf8f01cfea414140de5dae2223b00361a396177a9cb410ff61f20015ad"

def sampleRow : DeviceRow where
  accountId := "owner"
  clientSecretHash := some "ba7816bf8f01cfea414140de5dae2223b00361a396177a9cb410ff61f20015ad"

/-- A `register` with the right secret reaches its lookup. -/
def registering (s : SocketId) (d : DeviceId) (k : DeviceKind) : Event Unit :=
  .message s (some (.register d "abc" k none none none)) 0

/-- Its lookup answers. -/
def registered (s : SocketId) : Event Unit := .resume s 0 (.found (some sampleRow)) "" 0

/-- The socket closes during the lookup of its registration, and the device is
online with nobody behind it. -/
theorem presence_held_by_closed_socket :
    ¬ ∀ ep, (signaling sampleEnv).Reachable ep → ep.PresenceLive := by
  intro all
  let es := [.connection 0 none, registering 0 "111111111" .host, .close 0, registered 0]
  have hv : (signaling sampleEnv).Valid (initial sampleEnv) es :=
    ⟨rfl, ⟨_, rfl, rfl⟩, ⟨_, rfl, rfl⟩, ⟨rfl, List.not_mem_nil⟩, trivial⟩
  have reach := (System.Reachable.init rfl : (signaling sampleEnv).Reachable (initial sampleEnv)).after hv
  have held : (((signaling sampleEnv).after (initial sampleEnv) es).registry.slot "111111111" .host).map (·.conn) =
      some 0 := by decide
  have closed : (((signaling sampleEnv).after (initial sampleEnv) es).sockets 0).map (·.closed) = some true := by
    decide
  obtain ⟨e, he, hc⟩ := Option.map_eq_some_iff.1 held
  obtain ⟨sock, hs, hopen⟩ := (all _ reach).live _ _ e he
  rw [hc] at hs
  rw [hs] at closed
  simp [hopen] at closed

/-- A socket that closes after its registration leaves no presence behind. -/
theorem presence_live_of_late_close :
    (signaling sampleEnv).AllStates PresenceLive (initial sampleEnv)
      [.connection 0 none, registering 0 "111111111" .host, registered 0, .close 0] := by
  have hv : (signaling sampleEnv).Valid (initial sampleEnv)
      [.connection 0 none, registering 0 "111111111" .host, registered 0, .close 0] :=
    ⟨rfl, ⟨_, rfl, rfl⟩, ⟨rfl, List.not_mem_nil⟩, ⟨_, rfl, rfl⟩, trivial⟩
  refine (presence_live_iff sampleEnv hv).2 ⟨nofun, nofun, fun s side hr => ?_, nofun, trivial⟩
  have who : registers sampleEnv ((signaling sampleEnv).after (initial sampleEnv)
      [.connection 0 none, registering 0 "111111111" .host]) (registered 0) = some (0, ("111111111", .host)) := by
    decide
  cases who.symm.trans hr
  exact ⟨_, rfl, rfl⟩

end Endpoint

end ZortilWatch.Signaling
