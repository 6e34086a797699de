import ZortilWatch.Signaling.Capacity
import ZortilWatch.Signaling.Decoding

/-!
# The server's own words can be read

What the server sends on its own account comes from its state and from its
surroundings: the clock, `makeSessionId`, the database and the ICE settings.
`Surroundings` says what these promise. Given that, `ownWords_of_reachable`
keeps the state clean whatever the clients send: only ids that passed the schema
name slots, only ids the server made name sessions, and no time in it is out of
range.
-/

namespace ZortilWatch.Signaling

variable {N : Type} (p : Platform N)

/-- `Date.now()` is at most 8.64e15. -/
def maxTime : Nat := 8640000000000000

/-- What `iceServersFor` returns: the TURN credentials of a device. -/
def iceServers (urls : List String) (username credential : String) : Field N :=
  some (.arr [.obj [("urls", .arr (urls.map .str)), ("username", .str username), ("credential", .str credential)]])

/-- Every device gets TURN credentials that can be read. -/
def MintsReadable (env : Env (Field N)) : Prop :=
  ∀ d, p.accepts d → ∃ urls username credential, env.iceServersFor d = iceServers urls username credential ∧
    (∀ url ∈ urls, p.accepts url) ∧ p.accepts username ∧ p.accepts credential

/-- What an event brings in besides a client's words: the time, the id of a new
session, what the database holds, and fewer devices online than `helpers` can
count. -/
def Surroundings (ep : Endpoint (Field N)) : Event (Field N) → Prop
  | .message _ _ now => now ≤ maxTime
  | .resume _ _ device sessionId now => now ≤ maxTime ∧ p.accepts sessionId ∧
      (∀ row, device = .found (some row) → ∀ mac ∈ row.macAddress, p.accepts mac) ∧
      ep.registry.devices.entries.length < 2 ^ 32
  | _ => True

theorem iceReadable_of_mints {env : Env (Field N)} (mints : MintsReadable p env) {d : DeviceId} (hd : p.accepts d) :
    IceReadable p (env.iceServersFor d) := by
  obtain ⟨urls, username, credential, h, hurls, hu, hc⟩ := mints d hd
  rw [h]
  rintro _ ⟨⟩
  refine ⟨by simp, ?_⟩
  rw [show maxNesting - 1 = 123 + 1 + 1 + 1 from rfl]
  simp (disch := decide) [p.ascii, hu, hc]
  exact hurls

/-! ## Slots -/

/-- Every slot has a readable id and a time in range. -/
def SlotsReadable (r : Registry SocketId (Field N)) : Prop :=
  ∀ d k e, r.slot d k = some e → p.accepts d ∧ e.lastSeen ≤ maxTime

/-- A call that brings in only readable ids and times in range. No event touches
a slot. -/
def CallReadable : Op SocketId (Field N) → Prop
  | .online d _ _ _ now => p.accepts d ∧ now ≤ maxTime
  | .touch .. => False
  | _ => True

namespace SlotsReadable

open Registry

variable {p} {r r' : Registry SocketId (Field N)}

theorem of_seen (h : SlotsReadable p r)
    (seen : ∀ d k, (r'.slot d k).map (·.lastSeen) = (r.slot d k).map (·.lastSeen)) : SlotsReadable p r' := by
  intro d k e' he'
  have hseen := seen d k
  rw [he'] at hseen
  obtain ⟨e, he, same⟩ := Option.map_eq_some_iff.1 hseen.symm
  obtain ⟨hd, hseen⟩ := h d k e he
  exact ⟨hd, Nat.le_trans (Nat.le_of_eq same.symm) hseen⟩

theorem teardown (h : SlotsReadable p r) (sid : SessionId) (reason : String) (initiator : Side) :
    SlotsReadable p (r.teardown sid reason initiator).1 := by
  refine h.of_seen fun d k => ?_
  rw [slot_teardown]
  cases r.sessions.get sid with
  | none => rfl
  | some s =>
    dsimp only
    split
    · cases r.slot d k <;> rfl
    · rfl

theorem dropSlot (h : SlotsReadable p r) (d : DeviceId) (k : DeviceKind) : SlotsReadable p (r.dropSlot d k) := by
  intro d' k' e he
  rw [slot_dropSlot] at he
  split at he
  · cases he
  · exact h d' k' e he

theorem granted (h : SlotsReadable p r) (sid : SessionId) (c : DeviceId) (ck : DeviceKind) (t : DeviceId) :
    SlotsReadable p (r.granted sid c ck t) := by
  refine h.of_seen fun d k => ?_
  rw [slot_granted]
  split
  · cases r.slot d k <;> rfl
  · rfl

theorem perform (h : SlotsReadable p r) {op : Op SocketId (Field N)} (readable : CallReadable p op) :
    SlotsReadable p (r.perform op).2.1 := by
  cases op with
  | online d k conn info now =>
    intro d' k' e he
    simp only [Registry.perform, slot_online] at he
    split at he
    · rename_i same
      cases he
      cases same
      exact readable
    · exact h d' k' e he
  | offline d k guard =>
    simp only [Registry.perform]
    rcases r.offline_cases d k guard with hr | ⟨e, -, -, hr⟩ <;> rw [hr]
    · exact h
    · exact teardownAll_induct (P := fun r _ => SlotsReadable p r) (fun r _ sid _ h => h.teardown sid _ _)
        (h.dropSlot d k)
  | touch d now => exact readable.elim
  | dispatchWake => exact h
  | requestConnect sid d k t pk =>
    rcases r.requestConnect_cases sid d k t pk with ⟨_, hr⟩ | ⟨_, -, -, hr⟩ <;> simp only [Registry.perform, hr]
    · exact h
    · exact h.granted sid d k t
  | acceptConnect sid d k =>
    rcases r.acceptConnect_cases sid d k with hr | ⟨s, -, -, -, hr⟩ <;> simp only [Registry.perform, hr]
    · exact h
    · exact h.of_seen fun _ _ => rfl
  | rejectConnect sid d k reason =>
    rcases r.rejectConnect_cases sid d k reason with hr | ⟨_, -, -, hr⟩ <;> simp only [Registry.perform, hr]
    · exact h
    · exact h.teardown sid _ _
  | relaySignal sid d k kind payload =>
    rcases r.relaySignal_cases sid d k kind payload with hr | ⟨_, _, -, -, hr⟩ <;> simp only [Registry.perform, hr] <;>
      exact h
  | closeSession sid d k reason =>
    rcases r.closeSession_cases sid d k reason with hr | ⟨_, _, -, -, hr⟩ <;> simp only [Registry.perform, hr]
    · exact h
    · exact h.teardown sid _ _

end SlotsReadable

/-! ## The limiter -/

section Limiter

open ZortilWatch.Server

/-- Windows end within a minute of a time in range. -/
def WindowsInRange (l : RateLimiter) : Prop :=
  l.windowMs = 60000 ∧ ∀ key hit, l.hits.get key = some hit → hit.resetAt ≤ maxTime + 60000

namespace WindowsInRange

variable {l : RateLimiter}

theorem of_swept (h : WindowsInRange l) {l' : RateLimiter} {now : Nat} (sw : RateLimiter.Swept l l' now) :
    WindowsInRange l' :=
  ⟨sw.windowMs.trans h.1, fun key hit hg => h.2 key hit (sw.kept hg)⟩

theorem set (h : WindowsInRange l) (key : String) {hit : Hit} (inRange : hit.resetAt ≤ maxTime + 60000) :
    WindowsInRange { l with hits := l.hits.set key hit } := by
  refine ⟨h.1, fun key' hit' hg => ?_⟩
  rw [JsMap.get_set] at hg
  split at hg
  · cases hg
    exact inRange
  · exact h.2 key' hit' hg

theorem check (h : WindowsInRange l) (key : String) {now : Nat} (hnow : now ≤ maxTime) :
    WindowsInRange (l.check key now).2 ∧ (l.check key now).1.retryAfterSec ≤ 2 ^ 53 := by
  unfold RateLimiter.check
  split
  · exact ⟨h, Nat.zero_le _⟩
  have swept := h.of_swept (l.swept now)
  generalize (if l.hits.size > l.maxKeys then l.sweep now else l) = l' at swept
  have next : now + l'.windowMs ≤ maxTime + 60000 := by
    have := swept.1
    omega
  dsimp only
  cases hg : l'.hits.get key with
  | none => exact ⟨swept.set key next, Nat.zero_le _⟩
  | some e =>
    have inRange := swept.2 key e hg
    dsimp only
    split
    · exact ⟨swept.set key next, Nat.zero_le _⟩
    · split
      · refine ⟨swept.set key inRange, ?_⟩
        simp only [maxTime] at inRange ⊢
        omega
      · exact ⟨swept.set key inRange, Nat.zero_le _⟩

end WindowsInRange

end Limiter

/-! ## Waiting messages -/

namespace Endpoint

section Waiting

variable {J : Type} {ep ep' : Endpoint J} {s s' : SocketId} {i j : Nat} {m msg : ClientMessage J}

theorem waitingAt_park (h : (ep.park s msg).waitingAt s' i = some m) :
    ep.waitingAt s' i = some m ∨ m = msg := by
  unfold park waitingAt at h
  rw [sockets_modifySocket] at h
  split at h
  · rename_i same
    subst same
    obtain ⟨sock', hs', hi⟩ := Option.bind_eq_some_iff.1 h
    obtain ⟨sock, hs, rfl⟩ := Option.map_eq_some_iff.1 hs'
    dsimp only at hi
    rw [List.getElem?_append] at hi
    split at hi
    · exact .inl (Option.bind_eq_some_iff.2 ⟨sock, hs, hi⟩)
    · exact .inr (List.mem_singleton.1 (List.mem_of_getElem? hi))
  · exact .inl h

theorem waitingAt_unpark (h : (ep.unpark s i).waitingAt s' j = some m) : ∃ j, ep.waitingAt s' j = some m := by
  unfold unpark waitingAt at h
  rw [sockets_modifySocket] at h
  split at h
  · rename_i same
    subst same
    obtain ⟨sock', hs', hi⟩ := Option.bind_eq_some_iff.1 h
    obtain ⟨sock, hs, rfl⟩ := Option.map_eq_some_iff.1 hs'
    obtain ⟨j, hj⟩ := List.mem_iff_getElem?.1 (List.mem_of_mem_eraseIdx (List.mem_of_getElem? hi))
    exact ⟨j, Option.bind_eq_some_iff.2 ⟨sock, hs, hj⟩⟩
  · exact ⟨_, h⟩

theorem waitingAt_modifySocket_same {f : Socket J → Socket J} (keep : ∀ sock, (f sock).waiting = sock.waiting) :
    (ep.modifySocket s f).waitingAt s' i = ep.waitingAt s' i := by
  unfold waitingAt
  rw [sockets_modifySocket]
  split
  · rename_i same
    subst same
    cases ep.sockets s' with
    | none => rfl
    | some sock => exact congrArg (·[i]?) (keep sock)
  · rfl

theorem waitingAt_congr (same : ep'.sockets = ep.sockets) : ep'.waitingAt s i = ep.waitingAt s i := by
  unfold waitingAt
  rw [same]

/-- A message handler parks only what passed the schema, and asks the limiter at
most once. -/
theorem onMessage_keeps (ep : Endpoint J) (s : SocketId) (raw : Option (ClientMessage J)) (now : Nat) :
    ((ep.onMessage s raw now).1.sockets = ep.sockets ∨
      ∃ msg, msg.wellFormed ∧ (ep.onMessage s raw now).1.sockets = (ep.park s msg).sockets) ∧
    ((ep.onMessage s raw now).1.limiter = ep.limiter ∨
      ∃ d, (ep.onMessage s raw now).1.limiter = (ep.limiter.check d now).2) := by
  unfold onMessage
  cases h : raw.filter ClientMessage.wellFormed with
  | none => exact ⟨.inl rfl, .inl rfl⟩
  | some msg =>
    have passed : msg.wellFormed := (Option.filter_eq_some_iff.1 h).2
    dsimp only
    split
    · exact ⟨.inr ⟨msg, passed, rfl⟩, .inl rfl⟩
    · cases ep.identity s with
      | none => exact ⟨.inl rfl, .inl rfl⟩
      | some side =>
        cases msg with
        | connectRequest target pk rid =>
          dsimp only [onRequest]
          split
          · exact ⟨.inr ⟨_, passed, rfl⟩, .inr ⟨side.1, rfl⟩⟩
          · exact ⟨.inl rfl, .inr ⟨side.1, rfl⟩⟩
        | wake target rid => exact ⟨.inr ⟨_, passed, rfl⟩, .inl rfl⟩
        | _ => exact ⟨.inl rfl, .inl rfl⟩

/-- A message that waits after an event waited before, or came and passed the
schema. -/
theorem waiting_handle {env : Env J} {e : Event J} (he : ep.admits e)
    (h : (handle env ep e).1.waitingAt s i = some m) : (∃ j, ep.waitingAt s j = some m) ∨ m.wellFormed := by
  cases e with
  | connection s' wanIp =>
    simp only [handle, waitingAt, Function.update_apply] at h
    split at h
    · cases h
    · exact .inl ⟨i, h⟩
  | message s' raw now =>
    rcases (ep.onMessage_keeps s' raw now).1 with same | ⟨msg, passed, parked⟩
    · exact .inl ⟨i, (waitingAt_congr same).symm.trans h⟩
    · rcases waitingAt_park ((waitingAt_congr parked).symm.trans h) with h | rfl
      · exact .inl ⟨i, h⟩
      · exact .inr passed
  | resume s' k device sessionId now =>
    refine .inl ?_
    rcases (onResume_resumed env ep s' k device sessionId now).sockets with ⟨j, side, -, same⟩ | ⟨j, -, same⟩
    · have assigned : ((ep.unpark s' j).assign s' side).waitingAt s i = some m := (waitingAt_congr same).symm.trans h
      rw [assign, waitingAt_modifySocket_same] at assigned
      · exact waitingAt_unpark assigned
      · exact fun _ => rfl
    · exact waitingAt_unpark ((waitingAt_congr same).symm.trans h)
  | close s' =>
    have closed : (ep.modifySocket s' fun sock => { sock with closed := true }).waitingAt s i = some m := h
    rw [waitingAt_modifySocket_same] at closed
    · exact .inl ⟨i, closed⟩
    · exact fun _ => rfl

theorem limiter_handle (ep : Endpoint J) (env : Env J) (e : Event J) :
    (handle env ep e).1.limiter = ep.limiter ∨
      ∃ s raw now d, e = .message s raw now ∧ (handle env ep e).1.limiter = (ep.limiter.check d now).2 := by
  cases e with
  | message s raw now =>
    refine (ep.onMessage_keeps s raw now).2.imp id ?_
    rintro ⟨d, h⟩
    exact ⟨s, raw, now, d, rfl, h⟩
  | resume s k device sessionId now => exact .inl (limiter_resume env ep s k device sessionId now)
  | _ => exact .inl rfl

end Waiting

/-! ## Every state -/

/-- A device id that passes the schema is ASCII. -/
theorem accepts_of_validDeviceId {d : DeviceId} (h : validDeviceId d = true) : p.accepts d := by
  refine p.ascii d ?_
  unfold validDeviceId at h
  cases hd : d.toList with
  | nil => rfl
  | cons c cs =>
    simp only [hd, Bool.and_eq_true, decide_eq_true_eq, beq_iff_eq, List.all_eq_true] at h
    obtain ⟨⟨⟨-, first⟩, -⟩, rest⟩ := h
    have digit {c : Char} (hc : c ≤ '9') : decide (c.toNat < 128) = true :=
      decide_eq_true (Nat.lt_of_le_of_lt hc (by decide))
    exact List.all_eq_true.2 (List.forall_mem_cons.2 ⟨digit first, fun c' hc' => digit (rest c' hc').2⟩)

/-- What the server may send on its own account can be read. -/
structure OwnWords (env : Env (Field N)) (ep : Endpoint (Field N)) : Prop where
  issued : ∀ sid ∈ ep.issued, p.accepts sid
  slots : SlotsReadable p ep.registry
  windows : WindowsInRange ep.limiter
  waiting : ∀ s i d secret k mac canWake rid,
    ep.waitingAt s i = some (.register d secret k mac canWake rid) → p.accepts d
  iceServers : ep.registry.opts.iceServersFor = env.iceServersFor

variable {p} {env : Env (Field N)} {ep : Endpoint (Field N)} {e : Event (Field N)}

theorem callReadable_releases (s : SocketId) : ∀ op ∈ ep.releases s, CallReadable p op := by
  intro op released
  obtain ⟨d, k, rfl⟩ := offline_of_released released
  trivial

theorem callReadable_answers (d : DeviceId) (k : DeviceKind) (msg : ClientMessage (Field N)) :
    ∀ op ∈ answers d k msg, CallReadable p op := by
  intro op hop
  cases msg <;> simp only [answers, List.mem_singleton, List.not_mem_nil] at hop <;> subst hop <;> trivial

theorem OwnWords.callReadable_ops (h : OwnWords p env ep) (se : Surroundings p ep e) :
    ∀ op ∈ ops env ep e, CallReadable p op := by
  intro op hop
  cases e with
  | connection => simp [ops] at hop
  | message s raw now =>
    simp only [ops] at hop
    cases hraw : raw.filter ClientMessage.wellFormed with
    | none => simp [hraw] at hop
    | some msg =>
      cases hid : ep.identity s with
      | none => simp [hraw, hid] at hop
      | some side =>
        simp only [hraw, hid] at hop
        exact callReadable_answers side.1 side.2 msg op hop
  | resume s i device sessionId now =>
    simp only [ops] at hop
    split at hop
    · rename_i d secret k mac canWake rid hw
      split at hop
      · simp at hop
      · split at hop
        · simp at hop
        · rcases List.mem_append.1 hop with hop | hop
          · exact callReadable_releases s op hop
          · rw [List.mem_singleton.1 hop]
            exact ⟨h.waiting s i d secret k mac canWake rid hw, se.1⟩
    · split at hop
      · simp at hop
      · split at hop
        · simp at hop
        · rw [List.mem_singleton.1 hop]
          trivial
    · simp at hop
  | close s => exact callReadable_releases s op hop

theorem OwnWords.start : OwnWords p env (Endpoint.initial env) where
  issued _ h := nomatch h
  slots _ _ _ h := nomatch h
  windows := ⟨rfl, fun _ _ h => nomatch h⟩
  waiting _ _ _ _ _ _ _ _ h := nomatch h
  iceServers := rfl

/-- Every event keeps the server's own words readable, whatever a client sends. -/
theorem OwnWords.handle (h : OwnWords p env ep) (he : ep.admits e) (se : Surroundings p ep e) :
    OwnWords p env (Endpoint.handle env ep e).1 where
  issued := by
    rcases ids_handle env ep e with ⟨same, -⟩ | ⟨s, i, device, sid, now, d, k, target, pk, rfl, -, ids⟩
    · rw [same]
      exact h.issued
    · rw [ids]
      split
      · exact List.forall_mem_cons.2 ⟨se.2.1, h.issued⟩
      · exact h.issued
  slots := by
    rw [registry_handle]
    exact performAll_induct (fun r op hop hr => hr.perform (h.callReadable_ops se op hop)) h.slots
  windows := by
    rcases ep.limiter_handle env e with same | ⟨s, raw, now, d, rfl, checked⟩
    · rw [same]
      exact h.windows
    · rw [checked]
      exact (h.windows.check d se).1
  waiting s i d secret k mac canWake rid hw := by
    rcases waiting_handle he hw with ⟨j, hj⟩ | passed
    · exact h.waiting s j d secret k mac canWake rid hj
    · simp only [ClientMessage.wellFormed, Bool.and_eq_true] at passed
      exact accepts_of_validDeviceId p passed.1.1
  iceServers := by
    rw [registry_handle]
    exact performAll_induct (P := fun r => r.opts.iceServersFor = env.iceServersFor)
      (fun r op _ same => by rw [Registry.opts_perform, same]) h.iceServers

/-- In every state the surroundings let the server reach, its own words can be
read. -/
theorem ownWords_of_reachable (hr : ((signaling env).restrict (Surroundings p)).Reachable ep) : OwnWords p env ep := by
  refine System.Reachable.invariant (fun ep0 h0 => ?_) (fun ep0 e _ h he => h.handle he.1 he.2) hr
  cases h0
  exact .start

/-- The id of an open session can be read. -/
theorem accepts_of_open (hr : ((signaling env).restrict (Surroundings p)).Reachable ep) {sid : SessionId} {s : Session}
    (hs : ep.registry.sessions.get sid = some s) : p.accepts sid := by
  refine (ownWords_of_reachable hr).issued sid (Decidable.byContradiction fun fresh => ?_)
  rw [free_of_reachable hr.of_restrict fresh] at hs
  cases hs

end Endpoint

end ZortilWatch.Signaling
