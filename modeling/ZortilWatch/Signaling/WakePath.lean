import ZortilWatch.Core.Host
import ZortilWatch.Core.Wol
import ZortilWatch.Signaling.SignalPath
import ZortilWatch.Signaling.WakeStatus

/-!
# From a wake to a helper

What a wake reads of its target is what the target's device said of itself earlier: a
registration starts a write of its MAC address and network (`updateDeviceWol`) and does not
wait for it, so writes are carried out late, in another order or never, and lookups may be
answered with an old row. `Backend` is the endpoint over such a table. Whatever happens to
the writes, a helper that is handed a packet is a device of the target's account which said
that it can wake, on a network the target registered from, and the address in the packet is
one the target reported (`wakes_at_home`).
-/

namespace ZortilWatch.Signaling

/-! ## What a registration leaves -/

/-- A registration that an event completes. -/
structure Registration where
  socket : SocketId
  deviceId : DeviceId
  clientKind : DeviceKind
  mac : Option String
  wanIp : Option String
  canWake : Option Bool
  accountId : String
  deriving DecidableEq

/-- The arguments of `updateDeviceWol`. -/
structure WolWrite where
  publicId : DeviceId
  mac : Option String
  wanIp : Option String
  deriving DecidableEq

/-- `updateDeviceWol` on the row. An address that is not given is not touched. -/
def WolWrite.update (w : WolWrite) (row : DeviceRow) : DeviceRow :=
  { row with
    lastWanIp := w.wanIp
    macAddress := match w.mac with
      | none => row.macAddress
      | some mac => if mac = "" then row.macAddress else some mac }

namespace Endpoint

variable {J : Type} (env : Env J) (ep : Endpoint J)

def registration : Event J → Option Registration
  | .resume s i (.found device) _ _ =>
    match ep.waitingAt s i with
    | some (.register d secret kind mac canWake _) =>
      (env.authenticate device secret).map fun row =>
        ⟨s, d, kind, mac, (ep.sockets s).bind (·.wanIp), canWake, row.accountId⟩
    | _ => none
  | _ => none

/-- The writes that a list of outputs starts. -/
def wolWrites (out : List (Output J)) : List WolWrite :=
  out.filterMap fun
    | .updateDeviceWol d mac wanIp => some ⟨d, mac, wanIp⟩
    | _ => none

end Endpoint

/-! ## The endpoint over the table of devices -/

/-- The device a handler looks up. -/
def ClientMessage.looksUp {J : Type} : ClientMessage J → Option DeviceId
  | .register d .. => some d
  | .connectRequest target .. => some target
  | .wake target _ => some target
  | _ => none

structure Backend (J : Type) where
  ep : Endpoint J
  table : DeviceId → Option DeviceRow
  /-- What was in the table before. -/
  past : List (DeviceId → Option DeviceRow) := []
  /-- Writes that are started and not done. -/
  writes : List WolWrite := []

inductive BackendEvent (J : Type) where
  | event (e : Event J)
  /-- The `i`-th write is carried out. -/
  | written (i : Nat)
  /-- The `i`-th write fails. -/
  | lost (i : Nat)
  /-- `registerDevice` -/
  | created (d : DeviceId) (accountId clientSecretHash : String)
  /-- `updateDeviceLists` -/
  | listed (accountId : String) (d : DeviceId) (blocked allowed : Option (List DeviceId))

namespace Backend

variable {J : Type} (env : Env J)

/-- The table becomes `table`. -/
def store (w : Backend J) (table : DeviceId → Option DeviceRow) : Backend J :=
  { w with table := table, past := w.table :: w.past }

def step (w : Backend J) : BackendEvent J → Backend J
  | .event e =>
    let res := Endpoint.handle env w.ep e
    { w with ep := res.1, writes := w.writes ++ Endpoint.wolWrites res.2 }
  | .written i =>
    match w.writes[i]? with
    | none => w
    | some x =>
      { w.store (Function.update w.table x.publicId ((w.table x.publicId).map x.update)) with
        writes := w.writes.eraseIdx i }
  | .lost i => { w with writes := w.writes.eraseIdx i }
  | .created d accountId clientSecretHash =>
    w.store (Function.update w.table d (some { accountId := accountId, clientSecretHash := some clientSecretHash }))
  | .listed accountId d blocked allowed =>
    w.store (Function.update w.table d ((w.table d).map fun row =>
      if row.accountId = accountId then
        { row with blockedIds := blocked.getD row.blockedIds, allowedIds := allowed.getD row.allowedIds }
      else row))

/-- A lookup fails or finds what is or was in the table. -/
def Finds (w : Backend J) : Event J → Prop
  | .resume s i (.found device) _ _ =>
    ∀ d ∈ (w.ep.waitingAt s i).bind ClientMessage.looksUp, ∃ t ∈ w.table :: w.past, device = t d
  | _ => True

def admits (w : Backend J) : BackendEvent J → Prop
  | .event e => w.ep.admits e ∧ w.Finds e
  -- the column is unique
  | .created d _ _ => w.table d = none
  | _ => True

end Backend

def backend {J : Type} (env : Env J) : System (Backend J) (BackendEvent J) where
  init w := w.ep = .initial env ∧ w.past = [] ∧ w.writes = []
  enabled := Backend.admits
  step := Backend.step env

/-! ## Slots -/

/-- What `online` was told of the device in a slot. -/
def SlotEntry.facts {C : Type} (e : SlotEntry C) : C × Option String × Bool × Option String :=
  (e.conn, e.wanIp, e.canWake, e.accountId)

namespace Registry

variable {C J : Type} {r : Registry C J} {d : DeviceId} {k : DeviceKind} {e' : SlotEntry C}

/-- A slot that a teardown leaves is the slot it found, with fewer sessions. -/
theorem facts_teardown {sid : SessionId} {reason : String} {initiator : Side}
    (he' : (r.teardown sid reason initiator).1.slot d k = some e') : ∃ e, r.slot d k = some e ∧ e'.facts = e.facts := by
  rw [slot_teardown] at he'
  cases hs : r.sessions.get sid with
  | none =>
    rw [hs] at he'
    exact ⟨e', he', rfl⟩
  | some s =>
    rw [hs] at he'
    dsimp only at he'
    split at he'
    · obtain ⟨e, he, rfl⟩ := Option.map_eq_some_iff.1 he'
      exact ⟨e, he, rfl⟩
    · exact ⟨e', he', rfl⟩

/-- A slot is as `online` wrote it, but for its sessions and its time. -/
theorem facts_perform [DecidableEq C] {op : Op C J} (he' : (r.perform op).2.1.slot d k = some e') :
    (∃ conn info now, op = .online d k conn info now ∧ e' = r.onlineEntry d k conn info now) ∨
      ∃ e, r.slot d k = some e ∧ e'.facts = e.facts := by
  cases op with
  | online d' k' conn info now =>
    simp only [perform, slot_online] at he'
    split at he'
    · rename_i same
      cases he'
      cases same
      exact .inl ⟨conn, info, now, rfl, rfl⟩
    · exact .inr ⟨e', he', rfl⟩
  | offline d' k' guard =>
    right
    rcases r.offline_cases d' k' guard with h | ⟨e, -, -, h⟩ <;> simp only [perform, h] at he'
    · exact ⟨e', he', rfl⟩
    · have dropped : ∃ e, (r.dropSlot d' k').slot d k = some e ∧ e'.facts = e.facts := by
        revert he'
        refine teardownAll_induct (P := fun r' _ => ∀ e', r'.slot d k = some e' →
          ∃ e, (r.dropSlot d' k').slot d k = some e ∧ e'.facts = e.facts) (fun r' _ sid _ before e' he' => ?_)
          (fun e' he' => ⟨e', he', rfl⟩) e'
        obtain ⟨e, he, same⟩ := facts_teardown he'
        obtain ⟨e0, he0, same0⟩ := before e he
        exact ⟨e0, he0, same.trans same0⟩
      obtain ⟨e, he, same⟩ := dropped
      rw [slot_dropSlot] at he
      split at he
      · cases he
      · exact ⟨e, he, same⟩
  | touch d' now =>
    right
    simp only [perform, touch, slot_modifySlot] at he'
    cases he : r.slot d k with
    | none => simp [he] at he'
    | some e =>
      refine ⟨e, rfl, ?_⟩
      simp only [he] at he'
      split at he' <;> split at he' <;> cases he' <;> rfl
  | dispatchWake => exact .inr ⟨e', he', rfl⟩
  | requestConnect sid d' k' t pk =>
    right
    rcases r.requestConnect_cases sid d' k' t pk with ⟨_, h⟩ | ⟨_, -, -, h⟩ <;> simp only [perform, h] at he'
    · exact ⟨e', he', rfl⟩
    · rw [slot_granted] at he'
      split at he'
      · obtain ⟨e, he, rfl⟩ := Option.map_eq_some_iff.1 he'
        exact ⟨e, he, rfl⟩
      · exact ⟨e', he', rfl⟩
  | acceptConnect sid d' k' =>
    right
    rcases r.acceptConnect_cases sid d' k' with h | ⟨_, -, -, -, h⟩ <;> simp only [perform, h] at he' <;>
      exact ⟨e', he', rfl⟩
  | rejectConnect sid d' k' reason =>
    right
    rcases r.rejectConnect_cases sid d' k' reason with h | ⟨_, -, -, h⟩ <;> simp only [perform, h] at he'
    · exact ⟨e', he', rfl⟩
    · exact facts_teardown he'
  | relaySignal sid d' k' kind payload =>
    right
    rcases r.relaySignal_cases sid d' k' kind payload with h | ⟨_, _, -, -, h⟩ <;> simp only [perform, h] at he' <;>
      exact ⟨e', he', rfl⟩
  | closeSession sid d' k' reason =>
    right
    rcases r.closeSession_cases sid d' k' reason with h | ⟨_, _, -, -, h⟩ <;> simp only [perform, h] at he'
    · exact ⟨e', he', rfl⟩
    · exact facts_teardown he'

end Registry

namespace Endpoint

variable {J : Type} {env : Env J} {ep : Endpoint J} {e : Event J} {d : DeviceId} {k : DeviceKind}

theorem facts_performAll {ops : List (Op SocketId J)} {r : Registry SocketId J} {e' : SlotEntry SocketId}
    (he' : (performAll r ops).slot d k = some e') :
    (∃ conn info now, .online d k conn info now ∈ ops ∧
        e'.facts = (conn, info.wanIp, info.canWake.getD false, info.accountId)) ∨
      ∃ e, r.slot d k = some e ∧ e'.facts = e.facts := by
  induction ops generalizing r with
  | nil => exact .inr ⟨e', he', rfl⟩
  | cons op ops ih =>
    rcases ih he' with ⟨conn, info, now, mem, same⟩ | ⟨e, he, same⟩
    · exact .inl ⟨conn, info, now, List.mem_cons_of_mem _ mem, same⟩
    · rcases Registry.facts_perform he with ⟨conn, info, now, rfl, rfl⟩ | ⟨e0, he0, same0⟩
      · exact .inl ⟨conn, info, now, List.mem_cons_self, same⟩
      · exact .inr ⟨e0, he0, same.trans same0⟩

/-- The calls an event makes: those that free a slot, the one for a registration, those of
a request about a session and the one that opens a session. -/
theorem ops_cases_call {op : Op SocketId J} (mem : op ∈ ops env ep e) :
    (∃ s, op ∈ ep.releases s) ∨
      (∃ reg now, registration env ep e = some reg ∧ op = .online reg.deviceId reg.clientKind reg.socket
        ⟨reg.wanIp, reg.canWake, some reg.accountId⟩ now) ∨
      (∃ d k msg, op ∈ answers d k msg) ∨ ∃ sid d k target pk, op = .requestConnect sid d k target pk := by
  cases e with
  | connection => cases mem
  | close s => exact .inl ⟨s, mem⟩
  | message s raw now =>
    simp only [ops] at mem
    split at mem
    · cases mem
    · split at mem
      · cases mem
      · exact .inr (.inr (.inl ⟨_, _, _, mem⟩))
  | resume s i device sessionId now =>
    simp only [ops] at mem
    split at mem
    · rename_i d secret kind mac canWake rid hw
      cases device with
      | failed => cases mem
      | found device =>
        dsimp only at mem
        split at mem
        · cases mem
        · rename_i row ha
          rcases List.mem_append.1 mem with mem | mem
          · exact .inl ⟨s, mem⟩
          · cases List.mem_singleton.1 mem
            refine .inr (.inl ⟨⟨s, d, kind, mac, _, canWake, row.accountId⟩, now, ?_, rfl⟩)
            simp only [registration, hw, ha, Option.map_some]
            rfl
    · split at mem
      · cases mem
      · split at mem
        · cases mem
        · exact .inr (.inr (.inr ⟨_, _, _, _, _, List.mem_singleton.1 mem⟩))
    · cases mem

/-- A slot is as a registration wrote it. -/
theorem facts_handle {e' : SlotEntry SocketId} (he' : (handle env ep e).1.registry.slot d k = some e') :
    (∃ reg, registration env ep e = some reg ∧ reg.deviceId = d ∧
        e'.facts = (reg.socket, reg.wanIp, reg.canWake.getD false, some reg.accountId)) ∨
      ∃ e0, ep.registry.slot d k = some e0 ∧ e'.facts = e0.facts := by
  rw [registry_handle] at he'
  rcases facts_performAll he' with ⟨conn, info, now, mem, same⟩ | before
  · rcases ops_cases_call mem with ⟨s, released⟩ | ⟨reg, _, hr, call'⟩ | ⟨_, _, msg, answered⟩ | ⟨_, _, _, _, _, call'⟩
    · obtain ⟨_, _, same⟩ := offline_of_released released
      cases same
    · cases call'
      exact .inl ⟨reg, hr, rfl, same⟩
    · cases keepsSlots_answers _ _ msg _ answered
    · cases call'
  · exact .inr before

/-! ## Sockets and writes -/

theorem wanIp_modifySocket (ep : Endpoint J) (s s' : SocketId) {f : Socket J → Socket J}
    (keep : ∀ sock, (f sock).wanIp = sock.wanIp) :
    ((ep.modifySocket s f).sockets s').bind (·.wanIp) = (ep.sockets s').bind (·.wanIp) := by
  rw [sockets_modifySocket]
  split
  · rename_i same
    subst same
    cases ep.sockets s' with
    | none => rfl
    | some sock => exact keep sock
  · rfl

/-- A socket stays where it connected from. -/
theorem wanIp_handle (he : ep.admits e) {s : SocketId} (connected : (ep.sockets s).isSome) :
    ((handle env ep e).1.sockets s).bind (·.wanIp) = (ep.sockets s).bind (·.wanIp) := by
  cases e with
  | connection s' wanIp =>
    have other : s ≠ s' := by
      rintro rfl
      rw [show ep.sockets s = none from he] at connected
      cases connected
    simp only [handle, Function.update_apply, if_neg other]
  | message s' raw now =>
    rcases (onMessage_ran env ep s' raw now).sockets with h | ⟨msg, h⟩
    · simp only [handle, h]
    · simp only [handle, h]
      exact wanIp_modifySocket ep s' s fun _ => rfl
  | resume s' i device sessionId now =>
    rcases (onResume_resumed env ep s' i device sessionId now).sockets with ⟨j, side, -, h⟩ | ⟨j, -, h⟩
    · simp only [handle, h]
      refine (wanIp_modifySocket (ep.unpark s' j) s' s ?_).trans (wanIp_modifySocket ep s' s ?_) <;> exact fun _ => rfl
    · simp only [handle, h]
      exact wanIp_modifySocket ep s' s fun _ => rfl
  | close s' => exact wanIp_modifySocket ep s' s fun _ => rfl

theorem connected_handle (he : ep.admits e) {s : SocketId} (connected : (ep.sockets s).isSome) :
    ((handle env ep e).1.sockets s).isSome := by
  cases e with
  | connection s' wanIp =>
    simp only [handle, Function.update_apply]
    split
    · rfl
    · exact connected
  | message s' raw now =>
    rcases (onMessage_ran env ep s' raw now).sockets with h | ⟨msg, h⟩ <;> simp only [handle, h]
    · exact connected
    · exact (ep.isSome_modifySocket s' s _).trans connected
  | resume s' i device sessionId now =>
    rcases (onResume_resumed env ep s' i device sessionId now).sockets with ⟨j, side, -, h⟩ | ⟨j, -, h⟩ <;>
      simp only [handle, h]
    · exact ((ep.unpark s' j).isSome_modifySocket s' s _).trans ((ep.isSome_modifySocket s' s _).trans connected)
    · exact (ep.isSome_modifySocket s' s _).trans connected
  | close s' => exact (ep.isSome_modifySocket s' s _).trans connected

theorem wolWrites_append (out out' : List (Output J)) :
    wolWrites (out ++ out') = wolWrites out ++ wolWrites out' :=
  List.filterMap_append

/-- Neither replies nor calls on connections and hooks write. -/
theorem wolWrites_eq_nil {out : List (Output J)} (none_ : ∀ d mac wanIp, .updateDeviceWol d mac wanIp ∉ out) :
    wolWrites out = [] := by
  apply List.filterMap_eq_nil_iff.2
  intro x hx
  cases x with
  | updateDeviceWol d mac wanIp => exact absurd hx (none_ d mac wanIp)
  | _ => rfl

theorem wolWrites_ofEffect (out : List (Effect SocketId J)) : wolWrites (out.map .ofEffect) = [] := by
  apply wolWrites_eq_nil
  intro d mac wanIp mem
  obtain ⟨x, -, hx⟩ := List.mem_map.1 mem
  cases x <;> cases hx

theorem wolWrites_onMessage (s : SocketId) (raw : Option (ClientMessage J)) (now : Nat) :
    wolWrites (ep.onMessage s raw now).2 = [] := by
  unfold onMessage
  cases raw.filter ClientMessage.wellFormed with
  | none => rfl
  | some msg =>
    dsimp only
    split
    · rfl
    · cases ep.identity s with
      | none => rfl
      | some side =>
        cases msg with
        | connectRequest target pk rid =>
          simp only [onRequest]
          split <;> rfl
        | connectAccept | connectReject | signal | sessionClose => exact wolWrites_ofEffect _
        | register | listPresence | wake => rfl

theorem registration_eq_none {s : SocketId} {i : Nat} {msg : ClientMessage J} (hw : ep.waitingAt s i = some msg)
    (other : ∀ d secret kind mac canWake rid, msg ≠ .register d secret kind mac canWake rid)
    (device : Lookup) (sessionId : SessionId) (now : Nat) :
    registration env ep (.resume s i device sessionId now) = none := by
  cases device with
  | failed => rfl
  | found device =>
    simp only [registration, hw]
    split
    · rename_i same
      cases same
      exact absurd rfl (other _ _ _ _ _ _)
    · rfl

/-- The one write is started by a registration. -/
theorem wolWrites_handle (e : Event J) : wolWrites (handle env ep e).2 =
    ((registration env ep e).map fun reg => ⟨reg.deviceId, reg.mac, reg.wanIp⟩).toList := by
  cases e with
  | connection s wanIp => rfl
  | message s raw now => exact wolWrites_onMessage s raw now
  | close s => exact wolWrites_ofEffect _
  | resume s i device sessionId now =>
    cases hw : ep.waitingAt s i with
    | none => cases device <;> simp only [handle, onResume, registration, hw] <;> rfl
    | some msg =>
      cases msg with
      | register d secret kind mac canWake rid =>
        cases device with
        | failed => simp only [handle, onResume, hw]; rfl
        | found device =>
          simp only [handle, onResume, registration, hw, resumeRegister]
          cases env.authenticate device secret with
          | none => rfl
          | some row =>
            have wanIp := ep.wanIp_unpark s i
            simp only [unpark] at wanIp
            dsimp only
            rw [wolWrites_append, wolWrites_ofEffect, wanIp]
            rfl
      | connectRequest target pk rid =>
        rw [registration_eq_none hw fun _ _ _ _ _ _ same => by cases same]
        apply wolWrites_eq_nil
        intro d mac wanIp mem
        simp only [handle, onResume, hw, resumeConnectRequest] at mem
        split at mem
        · cases mem
        · split at mem
          · simp at mem
          · rcases List.mem_append.1 mem with mem | mem
            · obtain ⟨x, -, hx⟩ := List.mem_map.1 mem
              cases x <;> cases hx
            · split at mem <;> simp at mem
      | wake target rid =>
        rw [registration_eq_none hw fun _ _ _ _ _ _ same => by cases same]
        simp only [handle, onResume, hw, resumeWake]
        rw [wolWrites_append, wolWrites_append, wolWrites_ofEffect]
        apply List.append_eq_nil_iff.2 ⟨rfl, wolWrites_eq_nil fun d mac wanIp mem => ?_⟩
        split at mem
        · simp at mem
        · cases mem
      | _ => cases device <;> simp only [handle, onResume, registration, hw] <;> rfl

end Endpoint

namespace Endpoint

variable {J : Type} {env : Env J} {ep : Endpoint J} {e : Event J} {reg : Registration}

/-- The lookup and the socket behind a registration. -/
theorem registration_cases (h : registration env ep e = some reg) :
    ∃ i row sid now, e = .resume reg.socket i (.found (some row)) sid now ∧
      (ep.waitingAt reg.socket i).bind ClientMessage.looksUp = some reg.deviceId ∧ row.accountId = reg.accountId ∧
      (ep.sockets reg.socket).bind (·.wanIp) = reg.wanIp := by
  cases e with
  | resume s i device sid now =>
    cases device with
    | failed => cases h
    | found device =>
      simp only [registration] at h
      split at h
      · rename_i hw
        obtain ⟨row, ha, rfl⟩ := Option.map_eq_some_iff.1 h
        obtain ⟨rfl, -⟩ := Option.filter_eq_some_iff.1 ha
        exact ⟨i, row, sid, now, rfl, by rw [hw]; rfl, rfl, rfl⟩
      · cases h
  | _ => cases h

theorem mem_effectsAll {ops : List (Op SocketId J)} {r : Registry SocketId J} {x : Effect SocketId J}
    (mem : x ∈ effectsAll r ops) : ∃ r' op, op ∈ ops ∧ x ∈ (Registry.perform r' op).2.2 := by
  induction ops generalizing r with
  | nil => cases mem
  | cons op ops ih =>
    rcases List.mem_append.1 mem with mem | mem
    · exact ⟨r, op, List.mem_cons_self, mem⟩
    · obtain ⟨r', op', hop, sent⟩ := ih mem
      exact ⟨r', op', List.mem_cons_of_mem _ hop, sent⟩

/-- Packets are what wakes send. -/
theorem wokenBy_of_sent {h : SocketId} {mac : String} (sent : .send h (.wakeDispatch mac) ∈ (handle env ep e).2) :
    .send h (.wakeDispatch mac) ∈ ep.wokenBy e := by
  let g (s : SocketId) : ServerMessage J → Option (SocketId × String)
    | .wakeDispatch mac => some (s, mac)
    | _ => none
  have deaf (s : SocketId) (msg : ServerMessage J) (reply : isReply msg = true) : g s msg = none := by
    cases msg <;> first | rfl | cases reply
  have told_ : (h, mac) ∈ told g (handle env ep e).2 := List.mem_filterMap.2 ⟨_, sent, rfl⟩
  rw [told_effects env ep deaf] at told_
  obtain ⟨x, hx, heard_⟩ := List.mem_filterMap.1 told_
  have packet : x = .send h (.wakeDispatch mac) := by
    cases x with
    | send s msg =>
      cases msg with
      | wakeDispatch mac' =>
        cases heard_
        rfl
      | _ => cases heard_
    | _ => cases heard_
  subst packet
  refine (List.mem_append.1 hx).resolve_left fun called => ?_
  obtain ⟨r, op, mem, sent⟩ := mem_effectsAll called
  obtain ⟨d, target, mac, wanIp, account, rfl⟩ := Registry.call_of_sent sent
  rcases ops_cases_call mem with ⟨s, released⟩ | ⟨_, _, _, call'⟩ | ⟨_, _, msg, answered⟩ | ⟨_, _, _, _, _, call'⟩
  · obtain ⟨_, _, same⟩ := offline_of_released released
    cases same
  · cases call'
  · cases msg <;> simp [answers] at answered
  · cases call'

end Endpoint

/-! ## Whole runs -/

namespace Backend

variable {J : Type} (env : Env J) (w0 : Backend J) (es : List (BackendEvent J))

/-- The run of `es` from `w0` completes this registration. -/
def Registered (reg : Registration) : Prop :=
  ∃ before e behind, es = before ++ .event e :: behind ∧
    Endpoint.registration env ((backend env).after w0 before).ep e = some reg

/-- The column said so of the device at the start, or a registration of it did. -/
def Said (d : DeviceId) (column : DeviceRow → Option String) (word : Registration → Option String) (x : String) :
    Prop :=
  (∃ row, w0.table d = some row ∧ column row = some x) ∨
    ∃ reg, Registered env w0 es reg ∧ reg.deviceId = d ∧ word reg = some x

/-- A row with the device's own words in the columns that a wake reads. -/
structure OwnRow (d : DeviceId) (row : DeviceRow) : Prop where
  mac : ∀ mac, row.macAddress = some mac → Said env w0 es d (·.macAddress) (·.mac) mac
  wanIp : ∀ ip, row.lastWanIp = some ip → Said env w0 es d (·.lastWanIp) (·.wanIp) ip

/-- What a run keeps: all that is in the table, on the way there or in a slot comes from
registrations, and those belong to the accounts the table gives them. -/
structure Kept (w : Backend J) : Prop where
  reached : (signaling env).Reachable w.ep
  rows : ∀ t ∈ w.table :: w.past, ∀ d row, t d = some row →
    OwnRow env w0 es d row ∧ ∃ row', w.table d = some row' ∧ row'.accountId = row.accountId
  writes : ∀ x ∈ w.writes, ∃ reg, Registered env w0 es reg ∧ x = ⟨reg.deviceId, reg.mac, reg.wanIp⟩
  slots : ∀ d k e, w.ep.registry.slot d k = some e → ∃ reg, Registered env w0 es reg ∧ reg.deviceId = d ∧
    e.facts = (reg.socket, reg.wanIp, reg.canWake.getD false, some reg.accountId)
  accounts : ∀ reg, Registered env w0 es reg →
    ∃ row, w.table reg.deviceId = some row ∧ row.accountId = reg.accountId
  networks : ∀ reg, Registered env w0 es reg →
    (w.ep.sockets reg.socket).isSome ∧ (w.ep.sockets reg.socket).bind (·.wanIp) = reg.wanIp

variable {env w0 es} {w : Backend J} {e : BackendEvent J} {reg : Registration} {d : DeviceId} {row : DeviceRow}

theorem registered_snoc : Registered env w0 (es ++ [e]) reg ↔ Registered env w0 es reg ∨
    ∃ e', e = .event e' ∧ Endpoint.registration env ((backend env).after w0 es).ep e' = some reg := by
  constructor
  · rintro ⟨before, e', behind, split, completes⟩
    rcases List.eq_nil_or_concat behind with rfl | ⟨behind, last, rfl⟩
    · obtain ⟨rfl, same⟩ := List.append_inj' split rfl
      cases same
      exact .inr ⟨e', rfl, completes⟩
    · rw [List.concat_eq_append, ← List.cons_append, ← List.append_assoc] at split
      obtain ⟨rfl, -⟩ := List.append_inj' split rfl
      exact .inl ⟨before, e', behind, rfl, completes⟩
  · rintro (⟨before, e', behind, rfl, completes⟩ | ⟨e', rfl, completes⟩)
    · refine ⟨before, e', behind ++ [e], ?_, completes⟩
      rw [List.append_assoc, List.cons_append]
    · exact ⟨es, e', [], rfl, completes⟩

theorem OwnRow.extend (h : OwnRow env w0 es d row) (e : BackendEvent J) : OwnRow env w0 (es ++ [e]) d row where
  mac mac hm := (h.mac mac hm).imp_right fun ⟨reg, done, said⟩ => ⟨reg, registered_snoc.2 (.inl done), said⟩
  wanIp ip hi := (h.wanIp ip hi).imp_right fun ⟨reg, done, said⟩ => ⟨reg, registered_snoc.2 (.inl done), said⟩

/-- Events that complete no registration add none. -/
theorem Kept.extend (h : Kept env w0 es w) (quiet : ∀ reg, ¬ ∃ e', e = .event e' ∧
    Endpoint.registration env ((backend env).after w0 es).ep e' = some reg) : Kept env w0 (es ++ [e]) w := by
  have same (reg : Registration) : Registered env w0 (es ++ [e]) reg ↔ Registered env w0 es reg := by
    rw [registered_snoc, or_iff_left (quiet reg)]
  constructor
  case reached => exact h.reached
  case rows => exact fun t ht d row hrow => (h.rows t ht d row hrow).imp_left fun own => own.extend e
  case writes =>
    intro x hx
    obtain ⟨reg, done, hx⟩ := h.writes x hx
    exact ⟨reg, (same reg).2 done, hx⟩
  case slots =>
    intro d k e hslot
    obtain ⟨reg, done, wrote⟩ := h.slots d k e hslot
    exact ⟨reg, (same reg).2 done, wrote⟩
  case accounts => exact fun reg done => h.accounts reg ((same reg).1 done)
  case networks => exact fun reg done => h.networks reg ((same reg).1 done)

/-- A table of own rows may follow one whose devices it keeps in their accounts. -/
theorem Kept.store (h : Kept env w0 es w) {table : DeviceId → Option DeviceRow}
    (own : ∀ d row, table d = some row → OwnRow env w0 es d row)
    (kept : ∀ d row, w.table d = some row → ∃ row', table d = some row' ∧ row'.accountId = row.accountId) :
    Kept env w0 es (w.store table) where
  reached := h.reached
  rows t ht d row hrow := by
    rcases List.mem_cons.1 ht with rfl | ht
    · exact ⟨own d row hrow, row, hrow, rfl⟩
    · obtain ⟨words, row', hrow', same⟩ := h.rows t ht d row hrow
      obtain ⟨row'', hrow'', same'⟩ := kept d row' hrow'
      exact ⟨words, row'', hrow'', same'.trans same⟩
  writes := h.writes
  slots := h.slots
  accounts reg done := by
    obtain ⟨row, hrow, same⟩ := h.accounts reg done
    obtain ⟨row', hrow', same'⟩ := kept _ row hrow
    exact ⟨row', hrow', same'.trans same⟩
  networks := h.networks

/-- An update of a row that leaves it in its account, with own words. -/
theorem Kept.change (h : Kept env w0 es w) (d : DeviceId) {f : DeviceRow → DeviceRow}
    (account : ∀ row, (f row).accountId = row.accountId)
    (own : ∀ row, OwnRow env w0 es d row → OwnRow env w0 es d (f row)) :
    Kept env w0 es (w.store (Function.update w.table d ((w.table d).map f))) := by
  refine h.store (fun d' row hrow => ?_) (fun d' row hrow => ?_)
  · rw [Function.update_apply] at hrow
    split at hrow
    · rename_i here
      subst here
      obtain ⟨row0, hrow0, rfl⟩ := Option.map_eq_some_iff.1 hrow
      exact own row0 (h.rows _ List.mem_cons_self _ row0 hrow0).1
    · exact (h.rows _ List.mem_cons_self d' row hrow).1
  · rw [Function.update_apply]
    split
    · rename_i here
      subst here
      exact ⟨f row, by rw [hrow, Option.map_some], account row⟩
    · exact ⟨row, hrow, rfl⟩

/-- A write puts a registration's words into the row. -/
theorem OwnRow.update (own : OwnRow env w0 es reg.deviceId row) (done : Registered env w0 es reg) :
    OwnRow env w0 es reg.deviceId (WolWrite.update ⟨reg.deviceId, reg.mac, reg.wanIp⟩ row) where
  mac mac hm := by
    simp only [WolWrite.update] at hm
    split at hm
    · exact own.mac mac hm
    · rename_i given
      split at hm
      · exact own.mac mac hm
      · exact .inr ⟨reg, done, rfl, given.trans hm⟩
  wanIp ip hi := .inr ⟨reg, done, rfl, hi⟩

theorem Kept.event (h : Kept env w0 es w) (here : (backend env).after w0 es = w) {e : Event J}
    (he : w.ep.admits e) (finds : w.Finds e) : Kept env w0 (es ++ [.event e]) (w.step env (.event e)) := by
  subst here
  have old {reg : Registration} (done : Registered env w0 es reg) : Registered env w0 (es ++ [.event e]) reg :=
    registered_snoc.2 (.inl done)
  have new {reg : Registration} (completes : Endpoint.registration env ((backend env).after w0 es).ep e = some reg) :
      Registered env w0 (es ++ [.event e]) reg := registered_snoc.2 (.inr ⟨e, rfl, completes⟩)
  constructor
  case reached => exact h.reached.step he
  case rows => exact fun t ht d row hrow => (h.rows t ht d row hrow).imp_left fun own => own.extend _
  case writes =>
    intro x hx
    rcases List.mem_append.1 hx with hx | hx
    · obtain ⟨reg, done, rfl⟩ := h.writes x hx
      exact ⟨reg, old done, rfl⟩
    · rw [Endpoint.wolWrites_handle, Option.mem_toList] at hx
      obtain ⟨reg, completes, rfl⟩ := Option.map_eq_some_iff.1 hx
      exact ⟨reg, new completes, rfl⟩
  case slots =>
    intro d k entry hslot
    rcases Endpoint.facts_handle hslot with ⟨reg, completes, same, wrote⟩ | ⟨entry0, hslot0, same⟩
    · exact ⟨reg, new completes, same, wrote⟩
    · obtain ⟨reg, done, mine, wrote⟩ := h.slots d k entry0 hslot0
      exact ⟨reg, old done, mine, same.trans wrote⟩
  case accounts =>
    intro reg done
    rcases registered_snoc.1 done with done | ⟨_, same, completes⟩
    · exact h.accounts reg done
    · cases same
      obtain ⟨i, row, sid, now, rfl, asks, account, -⟩ := Endpoint.registration_cases completes
      obtain ⟨t, ht, found⟩ := finds _ asks
      obtain ⟨-, row', hrow', kept⟩ := h.rows t ht _ row found.symm
      exact ⟨row', hrow', kept.trans account⟩
  case networks =>
    intro reg done
    rcases registered_snoc.1 done with done | ⟨_, same, completes⟩
    · obtain ⟨connected, from_⟩ := h.networks reg done
      refine ⟨?_, (Endpoint.wanIp_handle he connected).trans from_⟩
      exact Endpoint.connected_handle he connected
    · cases same
      obtain ⟨i, row, sid, now, rfl, asks, -, from_⟩ := Endpoint.registration_cases completes
      obtain ⟨msg, hw, -⟩ := Option.bind_eq_some_iff.1 asks
      have connected := Endpoint.connected_of_waitingAt (Option.isSome_of_eq_some hw)
      exact ⟨Endpoint.connected_handle he connected, (Endpoint.wanIp_handle he connected).trans from_⟩

theorem Kept.step (h : Kept env w0 es w) (here : (backend env).after w0 es = w) (he : w.admits e) :
    Kept env w0 (es ++ [e]) (w.step env e) := by
  cases e with
  | event e => exact h.event here he.1 he.2
  | written i =>
    have same := h.extend (e := .written i) fun reg ⟨_, same, _⟩ => by cases same
    simp only [Backend.step]
    split
    · exact same
    · rename_i x hx
      have mem := List.mem_of_getElem? hx
      obtain ⟨reg, done, rfl⟩ := same.writes x mem
      have stored := same.change reg.deviceId (f := WolWrite.update ⟨reg.deviceId, reg.mac, reg.wanIp⟩) (fun _ => rfl)
        fun row own => own.update done
      exact { stored with writes := fun x hx => same.writes x (List.mem_of_mem_eraseIdx hx) }
  | lost i =>
    have same := h.extend (e := .lost i) fun reg ⟨_, same, _⟩ => by cases same
    exact { same with writes := fun x hx => same.writes x (List.mem_of_mem_eraseIdx hx) }
  | created d accountId hash =>
    have same := h.extend (e := .created d accountId hash) fun reg ⟨_, same, _⟩ => by cases same
    refine same.store (fun d' row hrow => ?_) (fun d' row hrow => ?_)
    · rw [Function.update_apply] at hrow
      split at hrow
      · cases hrow
        exact ⟨fun _ hm => (by cases hm), fun _ hi => (by cases hi)⟩
      · exact (same.rows _ List.mem_cons_self d' row hrow).1
    · have other : d' ≠ d := by
        rintro rfl
        rw [show w.table d' = none from he] at hrow
        cases hrow
      exact ⟨row, by rw [Function.update_of_ne other, hrow], rfl⟩
  | listed accountId d blocked allowed =>
    have same := h.extend (e := .listed accountId d blocked allowed) fun reg ⟨_, same, _⟩ => by cases same
    refine same.change d (fun row => ?_) (fun row own => ?_)
    · split <;> rfl
    · split <;> exact ⟨own.mac, own.wanIp⟩

theorem kept_of_valid (start : (backend env).init w0) (hv : (backend env).Valid w0 es) :
    Kept env w0 es ((backend env).after w0 es) := by
  refine System.Valid.induct (P := fun es w => Kept env w0 es w) ?_ (fun es e _ h he => h.step rfl he) hv
  obtain ⟨hep, hpast, hwrites⟩ := start
  have none_done (reg : Registration) : ¬ Registered env w0 [] reg := by
    rintro ⟨before, e, behind, split, -⟩
    cases before <;> cases split
  constructor
  case reached =>
    rw [hep]
    exact .init rfl
  case rows =>
    rw [hpast]
    intro t ht d row hrow
    cases List.mem_singleton.1 ht
    exact ⟨⟨fun mac hm => .inl ⟨row, hrow, hm⟩, fun ip hi => .inl ⟨row, hrow, hi⟩⟩, row, hrow, rfl⟩
  case writes =>
    rw [hwrites]
    intro x hx
    cases hx
  case slots =>
    rw [hep]
    intro d k e hslot
    cases hslot
  case accounts => exact fun reg done => absurd done (none_done reg)
  case networks => exact fun reg done => absurd done (none_done reg)

/-! ## Wakes -/

/-- The packet for `target` that goes to the socket `h` with the address `mac`. -/
structure AtHome (env : Env J) (w0 : Backend J) (es : List (BackendEvent J)) (w : Backend J) (target : DeviceId)
    (h : SocketId) (mac : String) : Prop where
  /-- The socket holds the slot of another device of the account, which registered as able to wake. -/
  helper : ∃ reg k, Registered env w0 es reg ∧ reg.socket = h ∧ w.ep.identity h = some (reg.deviceId, k) ∧
    reg.deviceId ≠ target ∧ reg.canWake = some true ∧
    ∃ own row, w.table reg.deviceId = some own ∧ w.table target = some row ∧ own.accountId = row.accountId
  /-- It is on a network the target registered from. -/
  network : ∃ ip, (w.ep.sockets h).bind (·.wanIp) = some ip ∧
    Said env w0 es target (·.lastWanIp) (·.wanIp) ip
  address : Said env w0 es target (·.macAddress) (·.mac) mac

/-- A helper of a row that is or was in the table. -/
theorem Kept.helps (kept : Kept env w0 es w) {t : DeviceId → Option DeviceRow} (ht : t ∈ w.table :: w.past)
    {target : DeviceId} (hrow : t target = some row) {h : SocketId} {mac : String}
    (sent : .send h (.wakeDispatch mac) ∈
      (w.ep.registry.dispatchWake target row.macAddress row.lastWanIp (some row.accountId)).2) :
    AtHome env w0 es w target h mac := by
  obtain ⟨own, row', hrow', same⟩ := kept.rows t ht target row hrow
  let record : DeviceRecord := { row with publicId := target }
  have packets : .send h (.wakeDispatch mac) ∈ (w.ep.registry.wakeRow record).2 := sent
  rw [Registry.wakeRow_eq] at packets
  split at packets
  · cases packets
  · rename_i given
    obtain ⟨⟨id, conn⟩, helps, packet⟩ := List.mem_map.1 packets
    cases packet
    obtain ⟨other, known, -, k, e, hslot, rfl, wakes, near, account⟩ := Registry.mem_helpers helps
    obtain ⟨reg, done, rfl, wrote⟩ := kept.slots id k e hslot
    simp only [SlotEntry.facts, Prod.mk.injEq] at wrote
    obtain ⟨socket, wanIp, canWake, accountId⟩ := wrote
    obtain ⟨mine, hmine, mineAccount⟩ := kept.accounts reg done
    obtain ⟨ip, hip⟩ : ∃ ip, row.lastWanIp = some ip := by
      cases hip : row.lastWanIp with
      | none => exact absurd (by rw [show record.lastWanIp = none from hip]; rfl) known
      | some ip => exact ⟨ip, rfl⟩
    obtain ⟨address, hmac⟩ : ∃ mac, row.macAddress = some mac := by
      cases hmac : row.macAddress with
      | none => exact absurd (by rw [show record.macAddress = none from hmac]; rfl) given
      | some mac => exact ⟨mac, rfl⟩
    constructor
    case helper =>
      refine ⟨reg, k, done, socket.symm, Endpoint.owned_of_reachable kept.reached _ k e hslot, other, ?_, mine, row',
        hmine, hrow', ?_⟩
      · cases said : reg.canWake with
        | none => rw [canWake, said] at wakes; cases wakes
        | some b => rw [canWake, said] at wakes; exact congrArg some wakes
      · rw [accountId] at account
        rw [mineAccount, same]
        exact Option.some.inj account
    case network =>
      refine ⟨ip, ?_, own.wanIp ip hip⟩
      rw [socket, (kept.networks reg done).2, ← wanIp, near]
      exact hip
    case address =>
      rw [show record.macAddress.getD "" = address from by rw [show record.macAddress = some address from hmac]; rfl]
      exact own.mac address hmac

/-- In every run, whatever becomes of the writes: an event that hands a socket a packet
resumes a wake of some target, and the socket is that of a device of the target's account
which registered as able to wake, on a network the target registered from; the address is
one that the target registered with. -/
theorem wakes_at_home (start : (backend env).init w0) (hv : (backend env).Valid w0 es) {e : Event J}
    (he : ((backend env).after w0 es).admits (.event e)) {h : SocketId} {mac : String}
    (sent : .send h (.wakeDispatch mac) ∈ (Endpoint.handle env ((backend env).after w0 es).ep e).2) :
    ∃ s i device sid now target rid, e = .resume s i device sid now ∧
      ((backend env).after w0 es).ep.waitingAt s i = some (.wake target rid) ∧
      AtHome env w0 es ((backend env).after w0 es) target h mac := by
  have kept := kept_of_valid start hv
  obtain ⟨s, i, device, sid, now, target, rid, rfl, hw, packets⟩ := Endpoint.mem_wokenBy
    (Endpoint.wokenBy_of_sent sent)
  refine ⟨s, i, device, sid, now, target, rid, rfl, hw, ?_⟩
  cases device with
  | failed => cases packets
  | found device =>
    obtain ⟨t, ht, found⟩ := he.2 target (Option.bind_eq_some_iff.2 ⟨_, hw, rfl⟩)
    cases device with
    | none => cases packets
    | some row => exact kept.helps ht found.symm packets

/-- A desktop reports its address and goes to sleep, the write is carried out, and another
device of the account comes online beside it and asks for a wake. -/
def asleep : List (BackendEvent Unit) :=
  [.event (.connection 0 (some "1.2.3.4")),
    .event (.message 0 (some (.register "333333333" "abc" .host (some "01:23:45:67:89:AB") (some true) none)) 0),
    .event (.resume 0 0 (.found (some Endpoint.sampleRow)) "" 0), .event (.close 0), .written 0,
    .event (.connection 1 (some "1.2.3.4")),
    .event (.message 1 (some (.register "222222222" "abc" .host none (some true) none)) 0),
    .event (.resume 1 0 (.found (some Endpoint.sampleRow)) "" 0),
    .event (.message 1 (some (.wake "333333333" none)) 0)]

/-- The row of the desktop after its write. -/
def reportedRow : DeviceRow :=
  { Endpoint.sampleRow with macAddress := some "01:23:45:67:89:AB", lastWanIp := some "1.2.3.4" }

def twoDevices : Backend Unit where
  ep := .initial Endpoint.sampleEnv
  table d := if d = "222222222" ∨ d = "333333333" then some Endpoint.sampleRow else none

theorem wakes_at_home_asleep :
    AtHome Endpoint.sampleEnv twoDevices asleep ((backend Endpoint.sampleEnv).after twoDevices asleep) "333333333" 1
      "01:23:45:67:89:AB" := by
  have valid : (backend Endpoint.sampleEnv).Valid twoDevices asleep :=
    ⟨⟨rfl, trivial⟩, ⟨⟨_, rfl, rfl⟩, trivial⟩,
      ⟨⟨rfl, List.not_mem_nil⟩, fun d hd => ⟨_, List.mem_cons_self, by cases hd; rfl⟩⟩, ⟨⟨_, rfl, rfl⟩, trivial⟩,
      trivial, ⟨rfl, trivial⟩, ⟨⟨_, rfl, rfl⟩, trivial⟩,
      ⟨⟨rfl, List.not_mem_nil⟩, fun d hd => ⟨_, List.mem_cons_self, by cases hd; rfl⟩⟩, ⟨⟨_, rfl, rfl⟩, trivial⟩,
      trivial⟩
  let e : Event Unit := .resume 1 0 (.found (some reportedRow)) "" 0
  have admitted : ((backend Endpoint.sampleEnv).after twoDevices asleep).admits (.event e) :=
    ⟨⟨rfl, List.not_mem_nil⟩, fun d hd => ⟨_, List.mem_cons_self, by cases hd; rfl⟩⟩
  have sent : .send 1 (.wakeDispatch "01:23:45:67:89:AB") ∈
      (Endpoint.handle Endpoint.sampleEnv ((backend Endpoint.sampleEnv).after twoDevices asleep).ep e).2 := by
    decide
  obtain ⟨_, _, _, _, _, target, rid, same, hw, home⟩ := wakes_at_home ⟨rfl, rfl, rfl⟩ valid admitted sent
  injection same with socket index
  subst socket
  subst index
  have asked : ((backend Endpoint.sampleEnv).after twoDevices asleep).ep.waitingAt 1 0 =
      some (.wake "333333333" none) := by decide
  cases asked.symm.trans hw
  exact home

end Backend

/-! ## From card to card -/

section Native

variable {N : Type} (p : Platform N)

/-- What the loops of the host make of a message. -/
def ServerMsg.toHost : ServerMsg N → Core.ServerMsg (Json N)
  | .incomingRequest sid _ passwordKind _ => .incomingRequest sid passwordKind
  | .connectReady sid _ _ iceServers => .connectReady sid iceServers
  | .signal sid kind payload => .signal sid kind payload
  | .wakeDispatch mac => .wakeDispatch mac
  | _ => .other

/-- A read of the host. -/
def hostRecv (reads : List (Incoming N)) : Core.Recv (Json N) :=
  match (tryRecv p reads).1 with
  | .ok msg => .ok (msg.map ServerMsg.toHost)
  | .error _ => .error ()

/-- A host that is not asked for a session, and one that is in its session. -/
def Listens (h : Core.Host (Json N)) (r : Core.Reading (Json N)) : Prop :=
  h.control = .polling none ∨ ∃ a, h.control = .inSession a ∧ r.done = false ∧ r.stop = false

/-- The address of a card, on its way as text: the registration that reports it passes the
schema; a helper that listens and reads the server's packet broadcasts, if its socket
works; and what it broadcasts wakes this card and no other. -/
theorem reported_card_wakes [DecidableEq N] (env : Core.HostEnv (Json N)) (card : Core.Mac) {d secret : String}
    (known : validDeviceId d = true) (given : secret ≠ "") {h : Core.Host (Json N)} {r : Core.Reading (Json N)}
    (listens : Listens h r) (reads : List (Incoming N)) :
    let text := Core.format_mac card
    let report : ClientMsg N := .register_wol d secret "host" (some text) true
    let packet : ServerMessage (Field N) := .wakeDispatch text
    ClientMessage.parse p (report.serialize p) =
        some (.register d secret .host (some text) (some true) none) ∧
      (r.recv = hostRecv p (.text (packet.stringify p) :: reads) → (h.serve env r).2 = [.sendWol text]) ∧
      ∀ sock : Core.WolSocket, ((sock.binds && sock.broadcasts && sock.sends 9) = true →
          (Core.send_wol_str sock text).1 ≠ []) ∧
        ∀ b ∈ (Core.send_wol_str sock text).1, ∀ other, Core.Wakes other b.packet ↔ other = card := by
  intro text report packet
  have read : Core.parse_mac text = some card := Core.parse_mac_format_mac card
  refine ⟨?_, fun recv => ?_, fun sock => ⟨fun works => ?_, fun b sent other => ?_⟩⟩
  · have read : ClientMessage.shape p (report.serialize p) =
        some (.register d secret .host (some text) (some true) none) := shape_serialize p report
    have short : Text.utf16Length text.toList ≤ 32 := by
      have ascii := Core.ascii_format_mac card
      rw [List.all_eq_true] at ascii
      have one_unit : text.toList.countP (fun c => 0x10000 ≤ c.toNat) = 0 := by
        rw [List.countP_eq_zero]
        intro c hc
        have small := of_decide_eq_true (ascii c hc)
        rw [decide_eq_true_eq]
        omega
      rw [Text.utf16Length, one_unit, Core.length_format_mac]
      decide
    rw [ClientMessage.parse, read, Option.filter_some, if_pos]
    simp only [ClientMessage.wellFormed, known, Option.all_some, short, decide_true, Bool.and_true, Bool.true_and,
      bne_iff_ne, ne_eq, given, not_false_iff]
  · have own : packet.Own p := p.ascii _ (Core.ascii_format_mac card)
    obtain ⟨m, hm, arrives⟩ := arrives_of p own trivial
    cases hm
    have heard_ : r.recv = .ok (some (.wakeDispatch text)) := by
      rw [recv, hostRecv, arrives reads]
      rfl
    rcases listens with idle | ⟨a, busy, running, going⟩
    · simp only [Core.Host.serve, idle, Core.Host.goto, Core.poll, heard_]
    · simp only [Core.Host.serve, busy, Core.Host.goto, Core.duringSession, running, going, heard_, Bool.or_self,
        Bool.false_eq_true, if_false]
  · rw [Core.send_wol_str, read]
    simp only [Core.send_wol, works, if_true, ne_eq, reduceCtorEq, not_false_iff]
  · rw [Core.wakes_of_sent sent, read, Option.some.injEq, eq_comm]

/-- A host that waits for a request broadcasts for the card it is told of. -/
theorem reported_card_wakes_polled :
    let card : Core.Mac := #v[0x01, 0x23, 0x45, 0x67, 0x89, 0xAB]
    let h : Core.Host (Json Nat) := ⟨.polling none, "1234", 0⟩
    let packet : ServerMessage (Field Nat) := .wakeDispatch (Core.format_mac card)
    let env : Core.HostEnv (Json Nat) := ⟨none, fun _ _ => none, fun _ => true⟩
    (h.serve env { recv := hostRecv Endpoint.sampleWire [.text (packet.stringify Endpoint.sampleWire)] }).2 =
      [.sendWol (Core.format_mac card)] := by
  intro card h packet env
  have waits : Listens h { recv := hostRecv Endpoint.sampleWire [.text (packet.stringify Endpoint.sampleWire)] } :=
    .inl rfl
  have wakes := reported_card_wakes Endpoint.sampleWire env card (show validDeviceId "333333333" = true by decide)
    (show "abc" ≠ "" by decide) waits []
  exact wakes.2.1 rfl

end Native

end ZortilWatch.Signaling
