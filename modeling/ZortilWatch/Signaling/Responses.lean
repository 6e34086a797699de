import ZortilWatch.Signaling.OwnWords

/-!
# Every response reaches the client

For each event of the endpoint, `Event.Readable` names the words of the client
that the responses repeat: request ids, ids asked about, reasons passed on, and
the payload of a relayed signal. `responses_arrive_iff` says that all responses
arrive exactly if these can be read. A payload that is absent is the failure a
client brings about with a message the schema accepts.
-/

namespace ZortilWatch.Signaling

variable {N : Type} (p : Platform N)

namespace Registry

variable {C J : Type}

/-- A registered side besides `initiator` is told when the session ends. -/
def Hears (r : Registry C J) (s : Session) (initiator : Side) : Prop :=
  ∃ side, s.HasSide side ∧ side ≠ initiator ∧ (r.slot side.1 side.2).isSome

/-- The host of `target` is registered and has room for one more session. -/
def Takes (r : Registry C J) (target : DeviceId) : Prop :=
  ∃ host, r.slot target .host = some host ∧ host.sessions.size < r.opts.maxInboundPerHost

end Registry

namespace Endpoint

/-- What the responses to a request of a registered client repeat can be read. -/
def RequestReadable (ep : Endpoint (Field N)) (d : DeviceId) (k : DeviceKind) (now : Nat) :
    ClientMessage (Field N) → Prop
  | .listPresence ids rid => (∀ id ∈ ids, p.accepts id) ∧ ∀ s ∈ rid, p.accepts s
  | .connectRequest _ _ rid => (ep.limiter.check d now).1.allowed = false → ∀ s ∈ rid, p.accepts s
  | .connectReject sid reason => ∀ s, ep.registry.sessions.get sid = some s → s.hostSide = (d, k) →
      ep.registry.Hears s (d, k) → ∀ text ∈ reason, p.accepts text
  | .signal sid _ payload => ∀ s, ep.registry.sessions.get sid = some s → (ep.registry.peerSlotOf s d k).isSome →
      ∃ v, payload = some v ∧ p.Keeps (maxNesting - 1) v
  | .sessionClose sid reason => ∀ s, ep.registry.sessions.get sid = some s →
      (ep.registry.peerSlotOf s d k).isSome → ep.registry.Hears s (d, k) → ∀ text ∈ reason, p.accepts text
  | _ => True

/-- What the responses to an event repeat of a client's words can be read. -/
def Readable (ep : Endpoint (Field N)) : Event (Field N) → Prop
  | .message s raw now => ∀ msg d k, raw = some msg → msg.wellFormed → ep.identity s = some (d, k) →
      ep.RequestReadable p d k now msg
  | .resume s i device _ _ =>
    match ep.waitingAt s i with
    | some (.register _ _ _ _ _ rid) => ∀ s ∈ rid, p.accepts s
    | some (.connectRequest target _ rid) => ∀ d k, ep.identity s = some (d, k) →
        (aclOk d device = true → ¬ ep.registry.Takes target) → ∀ s ∈ rid, p.accepts s
    | some (.wake _ rid) => ∀ s ∈ rid, p.accepts s
    | _ => True
  | _ => True

/-- All messages among the outputs arrive. -/
def AllArrive (out : List (Output (Field N))) : Prop := ∀ s msg, .send s msg ∈ out → Arrives p msg

end Endpoint

/-! ## Calls of the registry -/

/-- All messages a call of the registry sends arrive. -/
def EffectsArrive (out : List (Effect SocketId (Field N))) : Prop := ∀ c msg, .send c msg ∈ out → Arrives p msg

section Effects

variable {out out' : List (Effect SocketId (Field N))} {r : Registry SocketId (Field N)}

@[simp] theorem effectsArrive_nil : EffectsArrive p [] := fun _ _ h => nomatch h

@[simp] theorem effectsArrive_append : EffectsArrive p (out ++ out') ↔ EffectsArrive p out ∧ EffectsArrive p out' := by
  simp only [EffectsArrive, List.mem_append, or_imp, forall_and]

@[simp] theorem effectsArrive_send {c : SocketId} {msg : ServerMessage (Field N)} :
    EffectsArrive p [.send c msg] ↔ Arrives p msg := by
  simp [EffectsArrive]

theorem effectsArrive_silent (silent : ∀ c msg, .send c msg ∉ out) : EffectsArrive p out :=
  fun c msg h => absurd h (silent c msg)

theorem effectsArrive_sendTo {side : Side} {msg : ServerMessage (Field N)} :
    EffectsArrive p (r.sendTo side msg) ↔ ((r.slot side.1 side.2).isSome → Arrives p msg) := by
  unfold Registry.sendTo
  cases r.slot side.1 side.2 <;> simp

/-- Every open session has a readable id. -/
def OpenReadable (r : Registry SocketId (Field N)) : Prop :=
  ∀ sid s, r.sessions.get sid = some s → p.accepts sid

/-- What the registry may send on its own account can be read. -/
structure RegistryReadable (r : Registry SocketId (Field N)) : Prop where
  ids : OpenReadable p r
  slots : SlotsReadable p r
  ice : ∀ d k, (r.slot d k).isSome → IceReadable p (r.opts.iceServersFor d)

variable {p}

theorem effectsArrive_teardown (ids : OpenReadable p r) (sid : SessionId) (reason : String) (initiator : Side) :
    EffectsArrive p (r.teardown sid reason initiator).2 ↔
      ∀ s, r.sessions.get sid = some s → r.Hears s initiator → p.accepts reason := by
  cases hs : r.sessions.get sid with
  | none => simp [r.teardown_of_none hs]
  | some s =>
    have arrives : Arrives p (.sessionClose sid reason) ↔ p.accepts reason := arrives_iff p (ids sid s hs)
    have notice (side : Side) : EffectsArrive p (r.closeNotice sid reason initiator side) ↔
        (side ≠ initiator → (r.slot side.1 side.2).isSome → p.accepts reason) := by
      unfold Registry.closeNotice
      by_cases same : side = initiator
      · simp [same]
      · rw [if_neg same, effectsArrive_sendTo, arrives]
        exact ⟨fun h _ => h, fun h => h same⟩
    have silent : EffectsArrive p
        (if s.status = .ready then [(.sessionEnd (s.audit sid) : Effect SocketId (Field N))] else []) :=
      effectsArrive_silent p fun c msg h => by split at h <;> simp at h
    rw [r.teardown_of_get hs, effectsArrive_append, effectsArrive_append, notice, notice]
    constructor
    · rintro ⟨⟨-, controller⟩, host⟩ _ ⟨⟩ ⟨side, rfl | rfl, other, there⟩
      · exact controller other there
      · exact host other there
    · intro heard
      exact ⟨⟨silent, fun other there => heard s rfl ⟨_, .inl rfl, other, there⟩⟩,
        fun other there => heard s rfl ⟨_, .inr rfl, other, there⟩⟩

theorem OpenReadable.teardown (ids : OpenReadable p r) (sid : SessionId) (reason : String) (initiator : Side) :
    OpenReadable p (r.teardown sid reason initiator).1 := by
  intro sid' s hs
  rw [Registry.get_teardown] at hs
  split at hs
  · cases hs
  · exact ids sid' s hs

theorem effectsArrive_offline (ids : OpenReadable p r) (d : DeviceId) (k : DeviceKind) (guard : Option SocketId) :
    EffectsArrive p (r.offline d k guard).2 := by
  rcases r.offline_cases d k guard with h | ⟨e, -, -, h⟩ <;> rw [h]
  · exact effectsArrive_nil p
  · have dropped : OpenReadable p (r.dropSlot d k) := fun sid s hs => ids sid s (by simpa using hs)
    refine (Registry.teardownAll_induct (P := fun r out => OpenReadable p r ∧ EffectsArrive p out)
      (fun r out sid _ h => ⟨h.1.teardown sid _ _, ?_⟩) ⟨dropped, effectsArrive_nil p⟩).2
    have told : EffectsArrive p (r.teardown sid "peer_offline" (d, k)).2 :=
      (effectsArrive_teardown h.1 sid _ _).2 fun _ _ _ => p.ascii _ rfl
    exact (effectsArrive_append p).2 ⟨h.2, told⟩

theorem accepts_getD {reason : Option String} {default : String} (h : p.accepts default) :
    p.accepts (reason.getD default) ↔ ∀ text ∈ reason, p.accepts text := by
  cases reason <;> simp [h]

theorem effectsArrive_rejectConnect (ids : OpenReadable p r) (sid : SessionId) (d : DeviceId) (k : DeviceKind)
    (reason : Option String) : EffectsArrive p (r.rejectConnect sid d k reason).2.2 ↔
      ∀ s, r.sessions.get sid = some s → s.hostSide = (d, k) → r.Hears s (d, k) → ∀ text ∈ reason, p.accepts text := by
  unfold Registry.rejectConnect
  cases hs : r.sessions.get sid with
  | none => simp
  | some s =>
    have isHost : (s.hostId ≠ d ∨ k ≠ .host) ↔ s.hostSide ≠ (d, k) := by
      simp only [Session.hostSide, ne_eq, Prod.mk.injEq, not_and_or, eq_comm]
    simp only [isHost]
    by_cases host : s.hostSide = (d, k)
    · have refused : EffectsArrive p (r.sendTo s.controllerSide (.connectErr .forbidden none none)) :=
        (effectsArrive_sendTo p).2 fun _ => arrives_of p (by simp [ServerMessage.Own]) (by simp)
      have closed := effectsArrive_teardown ids sid (reason.getD "rejected") (d, k)
      rw [accepts_getD (p.ascii _ rfl)] at closed
      simpa [host, refused, hs] using closed
    · simp [host]

theorem effectsArrive_closeSession (ids : OpenReadable p r) (sid : SessionId) (d : DeviceId) (k : DeviceKind)
    (reason : Option String) : EffectsArrive p (r.closeSession sid reason d k).2.2 ↔
      ∀ s, r.sessions.get sid = some s → (r.peerSlotOf s d k).isSome → r.Hears s (d, k) →
        ∀ text ∈ reason, p.accepts text := by
  unfold Registry.closeSession
  cases hs : r.sessions.get sid with
  | none => simp
  | some s =>
    cases hp : r.peerSlotOf s d k with
    | none => simp [hp]
    | some peer =>
      have closed := effectsArrive_teardown ids sid (reason.getD "closed") (d, k)
      rw [accepts_getD (p.ascii _ rfl)] at closed
      simpa [hp, hs] using closed

theorem effectsArrive_relaySignal (ids : OpenReadable p r) (sid : SessionId) (d : DeviceId) (k : DeviceKind)
    (kind : SignalKind) (payload : Field N) : EffectsArrive p (r.relaySignal sid d k kind payload).2.2 ↔
      ∀ s, r.sessions.get sid = some s → (r.peerSlotOf s d k).isSome →
        ∃ v, payload = some v ∧ p.Keeps (maxNesting - 1) v := by
  unfold Registry.relaySignal
  cases hs : r.sessions.get sid with
  | none => simp
  | some s =>
    cases hp : r.peerSlotOf s d k with
    | none => simp [hp]
    | some peer =>
      have relayed : Arrives p (.signal sid kind payload) ↔ _ := arrives_iff p (ids sid s hs)
      simp [hp, relayed]

end Effects

theorem length_sent_le (r : Registry SocketId (Field N)) (target : DeviceId) (mac wanIp accountId : Option String) :
    (r.dispatchWake target mac wanIp accountId).1.2 ≤ r.devices.entries.length := by
  unfold Registry.dispatchWake
  split
  · exact Nat.zero_le _
  · exact Nat.zero_le _
  · dsimp only
    split
    · exact Nat.zero_le _
    · exact List.length_filterMap_le _ _

variable {p} in
theorem effectsArrive_dispatchWake (r : Registry SocketId (Field N)) (target : DeviceId)
    {mac : Option String} (hmac : ∀ m ∈ mac, p.accepts m) (wanIp accountId : Option String) :
    EffectsArrive p (r.dispatchWake target mac wanIp accountId).2 := by
  unfold Registry.dispatchWake
  split
  · exact effectsArrive_nil p
  · exact effectsArrive_nil p
  · rename_i mac _
    have arrives : Arrives p (.wakeDispatch mac) := arrives_of p (hmac mac rfl) trivial
    dsimp only
    split <;>
    · intro c msg h
      obtain ⟨conn, -, same⟩ := List.mem_map.1 h
      cases same
      exact arrives

namespace Endpoint

variable {p} {env : Env (Field N)} {ep : Endpoint (Field N)}

theorem effectsArrive_online (r : Registry SocketId (Field N)) (d : DeviceId) (k : DeviceKind) (s : SocketId)
    (info : SlotMeta) (now : Nat) : EffectsArrive p (r.online d k s info now).2 := by
  refine effectsArrive_silent p fun c msg h => ?_
  obtain ⟨c', reason, same⟩ := Registry.mem_online_out _ _ _ _ _ _ h
  cases same

theorem effectsArrive_acceptConnect {r : Registry SocketId (Field N)} (reg : RegistryReadable p r) (sid : SessionId)
    (d : DeviceId) (k : DeviceKind) : EffectsArrive p (r.acceptConnect sid d k).2.2 := by
  rcases r.acceptConnect_cases sid d k with h | ⟨s, hs, -, -, h⟩ <;> rw [h]
  · exact effectsArrive_nil p
  · have told (d : DeviceId) (k : DeviceKind) (role : Role) (peer : DeviceKind) : EffectsArrive p (r.sendTo
        (d, k) (.connectReady sid role peer (r.opts.iceServersFor d))) :=
      (effectsArrive_sendTo p).2 fun there => arrives_of p ⟨reg.ids sid s hs, reg.ice d k there⟩ trivial
    have started : EffectsArrive p [(.sessionStart (s.audit sid) : Effect SocketId (Field N))] :=
      effectsArrive_silent p fun c msg h => by simp at h
    exact (effectsArrive_append p).2 ⟨started, (effectsArrive_append p).2 ⟨told _ _ _ _, told _ _ _ _⟩⟩

theorem arrives_presence {r : Registry SocketId (Field N)} (reg : RegistryReadable p r) (ids : List DeviceId)
    (rid : Option String) : Arrives p (.presenceState (r.presence ids) rid) ↔
      (∀ id ∈ ids, p.accepts id) ∧ ∀ s ∈ rid, p.accepts s := by
  have own : (ServerMessage.presenceState (r.presence ids) rid).Own p := by
    intro e he t ht
    obtain ⟨id, -, rfl⟩ := List.mem_map.1 he
    cases hs : r.slot id .host with
    | none => simp [hs] at ht
    | some host =>
      have inRange := (reg.slots id .host host hs).2
      simp only [hs, Option.mem_def, Option.some.injEq] at ht
      subst ht
      exact Nat.le_trans inRange (by decide)
  rw [arrives_iff p own]
  refine and_congr_left fun _ => ?_
  simp only [Registry.presence, List.forall_mem_map]
  refine forall₂_congr fun id _ => ?_
  cases r.slot id .host <;> rfl

/-- A request ends in an invitation that arrives or in a refusal. -/
theorem requestConnect_ok_iff (r : Registry SocketId (Field N)) (sid : SessionId) (d : DeviceId) (k : DeviceKind)
    (target : DeviceId) (pk : Option PasswordKind) : (r.requestConnect sid d k target pk).1.ok ↔ r.Takes target := by
  unfold Registry.requestConnect Registry.Takes
  cases r.slot target .host with
  | none => simp
  | some host =>
    dsimp only
    split
    · rename_i full
      simpa using full
    · rename_i room
      simpa using room

/-! ## Handlers -/

section Outputs

variable {out out' : List (Output (Field N))}

@[simp] theorem allArrive_nil : AllArrive p [] := fun _ _ h => nomatch h

@[simp] theorem allArrive_append : AllArrive p (out ++ out') ↔ AllArrive p out ∧ AllArrive p out' := by
  simp only [AllArrive, List.mem_append, or_imp, forall_and]

@[simp] theorem allArrive_send {s : SocketId} {msg : ServerMessage (Field N)} :
    AllArrive p (.send s msg :: out) ↔ Arrives p msg ∧ AllArrive p out := by
  simp only [AllArrive, List.mem_cons, or_imp, forall_and]
  exact and_congr_left fun _ => ⟨fun h => h s msg rfl, fun h _ _ same => by cases same; exact h⟩

theorem allArrive_silent {x : Output (Field N)} (silent : ∀ s msg, x ≠ .send s msg) :
    AllArrive p (x :: out) ↔ AllArrive p out := by
  simp only [AllArrive, List.mem_cons, or_imp, forall_and]
  exact and_iff_right fun s msg same => absurd same.symm (silent s msg)

@[simp] theorem allArrive_closing {s : SocketId} {reason : String} :
    AllArrive p (Output.closing s reason :: out) ↔ AllArrive p out :=
  allArrive_silent fun _ _ h => nomatch h

@[simp] theorem allArrive_audit {event : String} {hostId controllerId : DeviceId} :
    AllArrive p (.audit event hostId controllerId :: out) ↔ AllArrive p out :=
  allArrive_silent fun _ _ h => nomatch h

@[simp] theorem allArrive_updateDeviceWol {d : DeviceId} {mac wanIp : Option String} :
    AllArrive p (.updateDeviceWol d mac wanIp :: out) ↔ AllArrive p out :=
  allArrive_silent fun _ _ h => nomatch h

@[simp] theorem allArrive_map {effects : List (Effect SocketId (Field N))} :
    AllArrive p (effects.map .ofEffect) ↔ EffectsArrive p effects := by
  constructor
  · exact fun h c msg hm => h c msg (List.mem_map.2 ⟨_, hm, rfl⟩)
  · intro h s msg hm
    obtain ⟨effect, he, same⟩ := List.mem_map.1 hm
    cases effect <;> cases same
    exact h s msg he

end Outputs

/-- A refusal with no words of a client. -/
theorem arrives_error (code reason : String) (hc : p.accepts code) (hr : p.accepts reason) :
    Arrives p (.error code reason none) :=
  arrives_of p ⟨hc, hr⟩ fun _ h => nomatch h

section Handlers

variable (reg : RegistryReadable p ep.registry)
include reg

theorem allArrive_onRequest (windows : WindowsInRange ep.limiter) (s : SocketId) (d : DeviceId) (k : DeviceKind)
    (msg : ClientMessage (Field N)) {now : Nat} (hnow : now ≤ maxTime) :
    AllArrive p (ep.onRequest s d k msg now).2 ↔ ep.RequestReadable p d k now msg := by
  cases msg with
  | register => simp [onRequest, RequestReadable]
  | listPresence list rid => simpa [onRequest, RequestReadable] using arrives_presence reg list rid
  | connectRequest target pk rid =>
    have wait : (ep.limiter.check d now).1.retryAfterSec ≤ 2 ^ 53 := (windows.check d hnow).2
    have refused : Arrives p (.connectErr .rateLimited rid (some (ep.limiter.check d now).1.retryAfterSec)) ↔ _ :=
      arrives_iff p (by rintro _ ⟨⟩; exact wait)
    dsimp only [onRequest, RequestReadable]
    split
    · rename_i allowed
      simp [allowed]
    · rename_i limited
      simp [limited, refused]
  | connectAccept sid =>
    have arrive := effectsArrive_acceptConnect reg sid d k
    simp [onRequest, RequestReadable, arrive]
  | connectReject sid reason => exact allArrive_map.trans (effectsArrive_rejectConnect reg.ids sid d k reason)
  | signal sid kind payload => exact allArrive_map.trans (effectsArrive_relaySignal reg.ids sid d k kind payload)
  | sessionClose sid reason => exact allArrive_map.trans (effectsArrive_closeSession reg.ids sid d k reason)
  | wake => simp [onRequest, RequestReadable]

theorem allArrive_onMessage (windows : WindowsInRange ep.limiter) (s : SocketId)
    (raw : Option (ClientMessage (Field N))) {now : Nat} (hnow : now ≤ maxTime) :
    AllArrive p (ep.onMessage s raw now).2 ↔ ep.Readable p (.message s raw now) := by
  unfold onMessage
  cases hraw : raw.filter ClientMessage.wellFormed with
  | none =>
    have answered := arrives_error (p := p) "bad_message" "invalid message" (p.ascii _ rfl) (p.ascii _ rfl)
    have rejected : ep.Readable p (.message s raw now) := by
      rintro msg d k rfl passed -
      rw [Option.filter_some, if_pos passed] at hraw
      cases hraw
    simp [answered, rejected]
  | some msg =>
    obtain ⟨rfl, passed⟩ := Option.filter_eq_some_iff.1 hraw
    dsimp only
    split
    · rename_i register
      have parked : ep.Readable p (.message s (some msg) now) := by
        rintro _ d k ⟨⟩ - -
        cases msg <;> trivial
      simp [parked]
    · cases hid : ep.identity s with
      | none =>
        have answered := arrives_error (p := p) "not_registered" "register first" (p.ascii _ rfl) (p.ascii _ rfl)
        have nobody : ep.Readable p (.message s (some msg) now) := by
          rintro _ d k ⟨⟩ - registered
          rw [hid] at registered
          cases registered
        simp [answered, nobody]
      | some side =>
        refine (allArrive_onRequest reg windows s side.1 side.2 msg hnow).trans ⟨fun h => ?_, fun h => ?_⟩
        · rintro _ d k ⟨⟩ - registered
          cases hid.symm.trans registered
          exact h
        · exact h msg side.1 side.2 rfl passed hid

theorem effectsArrive_releaseSlot (s : SocketId) : EffectsArrive p (ep.releaseSlot s).2 := by
  unfold releaseSlot
  cases ep.identity s with
  | none => exact effectsArrive_nil p
  | some side => exact effectsArrive_offline reg.ids side.1 side.2 (some s)

theorem allArrive_resumeRegister {s : SocketId} {d : DeviceId} {secret : String} {k : DeviceKind}
    {mac : Option String} {canWake : Option Bool} {rid : Option String} {device : Lookup} {now : Nat}
    (hd : p.accepts d) (hnow : now ≤ maxTime) :
    AllArrive p (resumeRegister env ep s d secret k mac canWake rid device now).2 ↔ ∀ s ∈ rid, p.accepts s := by
  have refused (code reason : String) (hc : p.accepts code) (hr : p.accepts reason) :
      Arrives p (.registerErr code reason rid) ↔ ∀ s ∈ rid, p.accepts s := arrives_iff p ⟨hc, hr⟩
  have accepted : Arrives p (.registerOk d now rid) ↔ ∀ s ∈ rid, p.accepts s :=
    arrives_iff p ⟨hd, Nat.le_trans hnow (by decide)⟩
  unfold resumeRegister
  split
  · simp [refused _ _ (p.ascii "unavailable" rfl) (p.ascii "temporary failure" rfl)]
  · split
    · simp [refused _ _ (p.ascii "auth" rfl) (p.ascii "bad credentials" rfl)]
    · simp [effectsArrive_releaseSlot reg s, effectsArrive_online, accepted]

theorem allArrive_resumeConnectRequest {s : SocketId} {target : DeviceId} {pk : Option PasswordKind}
    {rid : Option String} {device : Lookup} {sessionId : SessionId} (hsid : p.accepts sessionId) :
    AllArrive p (ep.resumeConnectRequest s target pk rid device sessionId).2 ↔
      ∀ d k, ep.identity s = some (d, k) → (aclOk d device = true → ¬ ep.registry.Takes target) →
        ∀ s ∈ rid, p.accepts s := by
  have refused (code : ConnectErrCode) : Arrives p (.connectErr code rid none) ↔ ∀ s ∈ rid, p.accepts s :=
    arrives_iff p fun _ h => nomatch h
  unfold resumeConnectRequest
  cases hid : ep.identity s with
  | none => simp
  | some side =>
    obtain ⟨d, k⟩ := side
    dsimp only
    split
    · rename_i denied
      simp [refused, denied]
    · rename_i passed
      rcases ep.registry.requestConnect_cases sessionId d k target pk with ⟨code, h⟩ | ⟨host, hh, room, h⟩
      · have full : ¬ ep.registry.Takes target := by
          rw [← requestConnect_ok_iff ep.registry sessionId d k target pk, h]
          exact Bool.false_ne_true
        simp [h, refused, full]
      · have takes : ep.registry.Takes target := ⟨host, hh, room⟩
        have invited : Arrives p (.incomingRequest sessionId .controller pk (ep.registry.opts.iceServersFor target)) :=
          arrives_of p ⟨hsid, reg.ice target .host (Option.isSome_of_eq_some hh)⟩ trivial
        simp [h, takes, invited, passed, Output.ofEffect]

omit reg in
theorem allArrive_resumeWake {s : SocketId} {target : DeviceId} {rid : Option String} {device : Lookup}
    (hmac : ∀ row, device = .found (some row) → ∀ mac ∈ row.macAddress, p.accepts mac)
    (few : ep.registry.devices.entries.length < 2 ^ 32) :
    AllArrive p (ep.resumeWake s target rid device).2 ↔ ∀ s ∈ rid, p.accepts s := by
  have answered (outcome : WakeOutcome) {helpers : Nat} (count : helpers ≤ ep.registry.devices.entries.length) :
      Arrives p (.wakeResult outcome helpers rid) ↔ ∀ s ∈ rid, p.accepts s :=
    arrives_iff p (Nat.lt_of_le_of_lt count few)
  -- the row of the target, or none if the lookup failed
  have readable (row : Option DeviceRow) (hrow : ∀ r, row = some r → device = .found (some r)) :
      ∀ mac ∈ row.bind (·.macAddress), p.accepts mac := by
    intro mac hm
    obtain ⟨r, hr, hm⟩ := Option.bind_eq_some_iff.1 hm
    exact hmac r (hrow r hr) mac hm
  unfold resumeWake
  dsimp only
  rw [allArrive_append, allArrive_append, allArrive_map, allArrive_send, answered _ (length_sent_le _ _ _ _ _)]
  refine ⟨fun h => h.1.2.1, fun h => ⟨⟨?_, h, allArrive_nil⟩, ?_⟩⟩
  · refine effectsArrive_dispatchWake _ _ (readable _ fun r hr => ?_) _ _
    cases device with
    | failed => cases hr
    | found row => exact congrArg Lookup.found hr
  · split <;> simp

end Handlers

/-! ## Every event -/

theorem allArrive_handle (reg : RegistryReadable p ep.registry) (words : OwnWords p env ep) {e : Event (Field N)}
    (se : Surroundings p ep e) : AllArrive p (handle env ep e).2 ↔ ep.Readable p e := by
  cases e with
  | connection s wanIp => simp [handle, Readable]
  | message s raw now => exact allArrive_onMessage reg words.windows s raw se
  | resume s i device sessionId now =>
    simp only [handle, onResume, Readable]
    cases hw : ep.waitingAt s i with
    | none => simp
    | some msg =>
      have same : (ep.unpark s i).identity s = ep.identity s := ep.identity_unpark s s i
      have reg' : RegistryReadable p (ep.unpark s i).registry := reg
      cases msg with
      | register d secret kind mac canWake rid =>
        exact allArrive_resumeRegister reg' (words.waiting s i d secret kind mac canWake rid hw) se.1
      | connectRequest target pk rid =>
        rw [← same]
        exact allArrive_resumeConnectRequest reg' se.2.1
      | wake target rid =>
        have few : (ep.unpark s i).registry.devices.entries.length < 2 ^ 32 := se.2.2.2
        exact allArrive_resumeWake se.2.2.1 few
      | _ => simp
  | close s => simpa [handle, onClose, Readable] using effectsArrive_releaseSlot reg s

theorem registryReadable_of_reachable (mints : MintsReadable p env)
    (hr : ((signaling env).restrict (Surroundings p)).Reachable ep) : RegistryReadable p ep.registry where
  ids _ _ hs := accepts_of_open hr hs
  slots := (ownWords_of_reachable hr).slots
  ice d k there := by
    have words := ownWords_of_reachable hr
    obtain ⟨e, he⟩ := Option.isSome_iff_exists.1 there
    rw [words.iceServers]
    exact iceReadable_of_mints p mints (words.slots d k e he).1

/-- In every state the server reaches, whatever the clients send: the responses
to an event all arrive exactly if the words of the client they repeat can be
read. -/
theorem responses_arrive_iff (mints : MintsReadable p env)
    (hr : ((signaling env).restrict (Surroundings p)).Reachable ep) {e : Event (Field N)}
    (se : Surroundings p ep e) : AllArrive p (handle env ep e).2 ↔ ep.Readable p e :=
  allArrive_handle (registryReadable_of_reachable mints hr) (ownWords_of_reachable hr) se

/-! ## A signal without a payload -/

/-- Natural numbers, written and read in full, and strings without surrogates. -/
def sampleWire : Platform Nat where
  write := some
  read := some
  accepts _ := true
  ofNat n := n
  toInt? n := some n
  safe _ _ := ⟨rfl, rfl, rfl⟩
  ascii _ _ := rfl

def wiredEnv : Env (Field Nat) where
  limiterEnabled := true
  iceServersFor d := iceServers ["turns:turn.example:443?transport=tcp"] ("0:" ++ d) "c2VjcmV0"
  hashClientSecret := sampleEnv.hashClientSecret

theorem wiredEnv_mints : MintsReadable sampleWire wiredEnv :=
  fun _ _ => ⟨_, _, _, rfl, fun _ _ => rfl, rfl, rfl⟩

/-- A controller asks for a host, and the request is passed on to it. -/
def introduction : List (Event (Field Nat)) :=
  [.connection 0 none, .message 0 (some (.register "111111111" "abc" .host none none none)) 0,
    .resume 0 0 (.found (some sampleRow)) "" 0, .connection 1 none,
    .message 1 (some (.register "222222222" "abc" .controller none none none)) 0,
    .resume 1 0 (.found (some sampleRow)) "" 0, .message 1 (some (.connectRequest "111111111" none none)) 0,
    .resume 1 0 (.found (some sampleRow)) "s" 0]

def introduced : Endpoint (Field Nat) := (signaling wiredEnv).after (initial wiredEnv) introduction

theorem introduced_reachable : ((signaling wiredEnv).restrict (Surroundings sampleWire)).Reachable introduced := by
  have row : ∀ r, Lookup.found (some sampleRow) = .found (some r) → ∀ mac ∈ r.macAddress, sampleWire.accepts mac :=
    fun _ _ _ _ => rfl
  have start : ((signaling wiredEnv).restrict (Surroundings sampleWire)).Reachable (initial wiredEnv) := .init rfl
  have valid : ((signaling wiredEnv).restrict (Surroundings sampleWire)).Valid (initial wiredEnv) introduction :=
    ⟨⟨rfl, trivial⟩, ⟨⟨_, rfl, rfl⟩, Nat.zero_le _⟩,
      ⟨⟨rfl, List.not_mem_nil⟩, Nat.zero_le _, rfl, row, by decide⟩, ⟨rfl, trivial⟩, ⟨⟨_, rfl, rfl⟩, Nat.zero_le _⟩,
      ⟨⟨rfl, List.not_mem_nil⟩, Nat.zero_le _, rfl, row, by decide⟩, ⟨⟨_, rfl, rfl⟩, Nat.zero_le _⟩,
      ⟨⟨rfl, List.not_mem_nil⟩, Nat.zero_le _, rfl, row, by decide⟩, trivial⟩
  exact start.after valid

/-- The controller's signal goes to the host as it is. -/
theorem introduced_relays (payload : Field Nat) :
    (handle wiredEnv introduced (.message 1 (some (.signal "s" .offer payload)) 0)).2 =
      [.send 0 (.signal "s" .offer payload)] := by
  have who : introduced.identity 1 = some ("222222222", .controller) := by decide
  have opened : introduced.registry.sessions.get "s" =
      some (Registry.newSession "s" "222222222" .controller "111111111") := by decide
  have held : (introduced.registry.slot "111111111" .host).map (·.conn) = some 0 := by decide
  obtain ⟨e, he, hc⟩ := Option.map_eq_some_iff.1 held
  have peer : introduced.registry.peerSlotOf (Registry.newSession "s" "222222222" .controller "111111111")
      "222222222" .controller = some e := (if_pos ⟨rfl, rfl⟩).trans he
  let msg : ClientMessage (Field Nat) := .signal "s" .offer payload
  have passed : (some msg).filter ClientMessage.wellFormed = some msg := rfl
  have request : msg.isRegister = false := rfl
  simp only [handle, onMessage, msg, passed, request, who, onRequest, Registry.relaySignal, opened, peer]
  simp [Output.ofEffect, hc]

/-- The frame of a signal, with what its `payload` is. -/
def signalFrame (payload : List (String × Json Nat)) : Json Nat :=
  .obj ([("v", .num 1), ("type", .str "signal"), ("sessionId", .str "s"), ("kind", .str "offer")] ++ payload)

/-- The schema accepts a signal without a payload, the server relays it, and the
host's `try_recv` comes back with a decode error. -/
theorem absent_payload_breaks_peer :
    ¬ ∀ ep, ((signaling wiredEnv).restrict (Surroundings sampleWire)).Reachable ep → ∀ s frame msg,
      ep.isOpen s → ClientMessage.parse sampleWire frame = some msg →
        AllArrive sampleWire (handle wiredEnv ep (.message s (some msg) 0)).2 ∧
          ∀ s' sent, .send s' sent ∈ (handle wiredEnv ep (.message s (some msg) 0)).2 →
            ∀ e, (tryRecv sampleWire [.text (sent.stringify sampleWire)]).1 ≠ .error (.decode e) := by
  intro all
  have opened : introduced.isOpen 1 := ⟨_, rfl, rfl⟩
  have parsed : ClientMessage.parse sampleWire (signalFrame []) = some (.signal "s" .offer none) := rfl
  have noError := (all introduced introduced_reachable 1 _ _ opened parsed).2
  rw [introduced_relays] at noError
  exact noError 0 _ (List.mem_singleton_self _) (.missingField "payload") rfl

/-- With a payload the same signal arrives. -/
theorem present_payload_arrives : AllArrive sampleWire
    (handle wiredEnv introduced (.message 1 (some (.signal "s" .offer (some (.obj [("sdp", .str "v=0")])))) 0)).2 := by
  let e : Event (Field Nat) := .message 1 (some (.signal "s" .offer (some (.obj [("sdp", .str "v=0")])))) 0
  have inTime : Surroundings sampleWire introduced e := Nat.zero_le maxTime
  refine (responses_arrive_iff wiredEnv_mints introduced_reachable inTime).2 ?_
  rintro _ d k ⟨⟩ - - s - -
  refine ⟨_, rfl, ?_⟩
  rw [show maxNesting - 1 = 125 + 1 from rfl]
  simp [sampleWire]

end Endpoint

end ZortilWatch.Signaling
