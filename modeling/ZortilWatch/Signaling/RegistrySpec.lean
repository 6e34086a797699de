import ZortilWatch.Signaling.Registry

/-!
# What the registry's methods read and write

One lemma for each method and each thing a caller can observe of it: the slot
under a side, the session under an id, the calls made. The proofs about the
registry cite these and never unfold a method.
-/

namespace ZortilWatch.Signaling

namespace SlotEntry

variable {C : Type} (sessionId : SessionId) (e : SlotEntry C)

@[simp] theorem addSession_conn : (e.addSession sessionId).conn = e.conn := rfl

@[simp] theorem addSession_sessions : (e.addSession sessionId).sessions = e.sessions.add sessionId := rfl

@[simp] theorem deleteSession_conn : (e.deleteSession sessionId).conn = e.conn := rfl

@[simp] theorem deleteSession_sessions :
    (e.deleteSession sessionId).sessions = e.sessions.delete sessionId := rfl

@[simp] theorem addSession_twice :
    (e.addSession sessionId).addSession sessionId = e.addSession sessionId := by
  simp [addSession]

@[simp] theorem deleteSession_twice :
    (e.deleteSession sessionId).deleteSession sessionId = e.deleteSession sessionId := by
  simp [deleteSession]

end SlotEntry

namespace Registry

variable {C J : Type} (r : Registry C J)

/-! ## Slots -/

@[simp] theorem slot_withSessions (m : JsMap SessionId Session) (d : DeviceId) (k : DeviceKind) :
    ({ r with sessions := m } : Registry C J).slot d k = r.slot d k := rfl

theorem slot_putSlot (d d' : DeviceId) (k k' : DeviceKind) (e : SlotEntry C) :
    (r.putSlot d k e).slot d' k' = if (d, k) = (d', k') then some e else r.slot d' k' := by
  simp only [slot, putSlot, JsMap.get_set, Prod.mk.injEq]
  by_cases hd : d = d'
  · subst hd
    cases h : r.devices.get d <;> by_cases hk : k = k' <;> simp [Slots.get_put, hk]
  · simp [hd]

theorem slot_dropSlot (d d' : DeviceId) (k k' : DeviceKind) :
    (r.dropSlot d k).slot d' k' = if (d, k) = (d', k') then none else r.slot d' k' := by
  unfold dropSlot
  cases h : r.devices.get d with
  | none =>
    by_cases hd : d = d'
    · subst hd
      simp [slot, h]
    · simp [hd]
  | some slots =>
    dsimp only
    have read := slots.get_put k k' none
    by_cases hc : ((slots.put k none).host.isNone && (slots.put k none).controller.isNone) = true
    · -- a device whose last slot goes leaves the map, which reads as no slot at all
      rw [if_pos hc]
      rw [Slots.get_eq_none hc] at read
      by_cases hd : d = d'
      · subst hd
        by_cases hk : k = k' <;> simp_all [slot]
      · simp [slot, JsMap.get_delete, hd]
    · rw [if_neg hc]
      by_cases hd : d = d'
      · subst hd
        by_cases hk : k = k' <;> simp_all [slot]
      · simp [slot, JsMap.get_set, hd]

@[simp] theorem sessions_dropSlot (d : DeviceId) (k : DeviceKind) :
    (r.dropSlot d k).sessions = r.sessions := by
  unfold dropSlot
  split
  · rfl
  · dsimp only
    split <;> rfl

theorem slot_modifySlot (side : Side) (f : SlotEntry C → SlotEntry C) (d : DeviceId) (k : DeviceKind) :
    (r.modifySlot side f).slot d k = if side = (d, k) then (r.slot d k).map f else r.slot d k := by
  unfold modifySlot
  cases h : r.slot side.1 side.2 with
  | none =>
    by_cases hs : side = (d, k)
    · subst hs
      simp_all
    · simp [hs]
  | some e =>
    rw [slot_putSlot]
    by_cases hs : side = (d, k)
    · subst hs
      simp_all
    · simp [hs]

@[simp] theorem sessions_modifySlot (side : Side) (f : SlotEntry C → SlotEntry C) :
    (r.modifySlot side f).sessions = r.sessions := by
  unfold modifySlot
  split <;> rfl

@[simp] theorem opts_modifySlot (side : Side) (f : SlotEntry C → SlotEntry C) :
    (r.modifySlot side f).opts = r.opts := by
  unfold modifySlot
  split <;> rfl

@[simp] theorem opts_dropSlot (d : DeviceId) (k : DeviceKind) : (r.dropSlot d k).opts = r.opts := by
  unfold dropSlot
  split
  · rfl
  · dsimp only
    split <;> rfl

theorem mem_sendTo {side : Side} {msg : ServerMessage J} {x : Effect C J} :
    x ∈ r.sendTo side msg ↔ ∃ e, r.slot side.1 side.2 = some e ∧ x = .send e.conn msg := by
  unfold sendTo
  cases h : r.slot side.1 side.2 with
  | none => simp
  | some e => simp

/-! ## Teardown -/

/-- The `session_close` a side of a closing session gets. -/
def closeNotice (sessionId : SessionId) (reason : String) (initiator side : Side) : List (Effect C J) :=
  if side = initiator then [] else r.sendTo side (.sessionClose sessionId reason)

theorem teardownSide_eq (sessionId : SessionId) (reason : String) (initiator : Side)
    (acc : Registry C J × List (Effect C J)) (side : Side) :
    teardownSide sessionId reason initiator acc side =
      (acc.1.modifySlot side (·.deleteSession sessionId),
        acc.2 ++ acc.1.closeNotice sessionId reason initiator side) := by
  unfold teardownSide modifySlot closeNotice sendTo
  cases acc.1.slot side.1 side.2 with
  | none => simp
  | some e => by_cases h : side = initiator <;> simp [h]

theorem closeNotice_modifySlot (sessionId sid : SessionId) (reason : String) (initiator side side' : Side) :
    (r.modifySlot side' (·.deleteSession sid)).closeNotice sessionId reason initiator side =
      r.closeNotice sessionId reason initiator side := by
  unfold closeNotice sendTo
  rw [slot_modifySlot]
  by_cases h : side' = (side.1, side.2)
  · cases hs : r.slot side.1 side.2 <;> simp [h]
  · simp [h]

theorem teardown_of_none {sessionId : SessionId} (h : r.sessions.get sessionId = none) (reason : String)
    (initiator : Side) : r.teardown sessionId reason initiator = (r, []) := by
  simp [teardown, h]

/-- A teardown of an open session, as writes to the map and the two sides. -/
theorem teardown_of_get {sessionId : SessionId} {s : Session} (h : r.sessions.get sessionId = some s)
    (reason : String) (initiator : Side) :
    r.teardown sessionId reason initiator =
      ((({ r with sessions := r.sessions.delete sessionId } : Registry C J).modifySlot s.controllerSide
          (·.deleteSession sessionId)).modifySlot s.hostSide (·.deleteSession sessionId),
        (if s.status = .ready then [.sessionEnd (s.audit sessionId)] else []) ++
          r.closeNotice sessionId reason initiator s.controllerSide ++
          r.closeNotice sessionId reason initiator s.hostSide) := by
  simp only [teardown, h, List.foldl_cons, List.foldl_nil, teardownSide_eq, closeNotice_modifySlot]
  rfl

@[simp] theorem opts_teardown (sessionId : SessionId) (reason : String) (initiator : Side) :
    (r.teardown sessionId reason initiator).1.opts = r.opts := by
  cases h : r.sessions.get sessionId with
  | none => rw [teardown_of_none r h]
  | some s => simp [teardown_of_get r h]

theorem get_teardown (sessionId sid : SessionId) (reason : String) (initiator : Side) :
    (r.teardown sessionId reason initiator).1.sessions.get sid =
      if sessionId = sid then none else r.sessions.get sid := by
  cases h : r.sessions.get sessionId with
  | none =>
    rw [teardown_of_none r h]
    by_cases hs : sessionId = sid
    · subst hs
      simp [h]
    · simp [hs]
  | some s => simp [teardown_of_get r h, JsMap.get_delete]

theorem slot_teardown (sessionId : SessionId) (reason : String) (initiator : Side) (d : DeviceId)
    (k : DeviceKind) :
    (r.teardown sessionId reason initiator).1.slot d k =
      match r.sessions.get sessionId with
      | none => r.slot d k
      | some s => if s.HasSide (d, k) then (r.slot d k).map (·.deleteSession sessionId) else r.slot d k := by
  cases h : r.sessions.get sessionId with
  | none => simp [teardown_of_none r h]
  | some s =>
    simp only [teardown_of_get r h, slot_modifySlot, slot_withSessions, Session.HasSide]
    by_cases hc : s.controllerSide = (d, k) <;> by_cases hh : s.hostSide = (d, k) <;>
      cases r.slot d k <;> simp [hc, hh]

/-- A teardown keeps every slot and its connection. -/
theorem slot_teardown_conn (sessionId : SessionId) (reason : String) (initiator : Side) (d : DeviceId)
    (k : DeviceKind) :
    ((r.teardown sessionId reason initiator).1.slot d k).map (·.conn) = (r.slot d k).map (·.conn) := by
  rw [slot_teardown]
  cases r.sessions.get sessionId with
  | none => rfl
  | some s =>
    dsimp only
    split
    · simp [Function.comp_def]
    · rfl

/-- A teardown does not touch the entries of other sessions. -/
theorem slot_teardown_other {sessionId sid : SessionId} (reason : String) (initiator : Side)
    (h : sessionId ≠ sid) (d : DeviceId) (k : DeviceKind) :
    ((r.teardown sessionId reason initiator).1.slot d k).map (fun e => sid ∈ e.sessions) =
      (r.slot d k).map fun e => sid ∈ e.sessions := by
  rw [slot_teardown]
  cases r.sessions.get sessionId with
  | none => rfl
  | some s =>
    dsimp only
    split
    · simp [Function.comp_def, Ne.symm h]
    · rfl

theorem mem_teardown_out {sessionId : SessionId} {reason : String} {initiator : Side} {x : Effect C J}
    (hx : x ∈ (r.teardown sessionId reason initiator).2) :
    ∃ s, r.sessions.get sessionId = some s ∧
      ((x = .sessionEnd (s.audit sessionId) ∧ s.status = .ready) ∨
        ∃ side e, s.HasSide side ∧ side ≠ initiator ∧ r.slot side.1 side.2 = some e ∧
          x = .send e.conn (.sessionClose sessionId reason)) := by
  cases h : r.sessions.get sessionId with
  | none => simp [teardown_of_none r h] at hx
  | some s =>
    refine ⟨s, rfl, ?_⟩
    have notice : ∀ side, s.HasSide side → x ∈ r.closeNotice sessionId reason initiator side →
        ∃ side e, s.HasSide side ∧ side ≠ initiator ∧ r.slot side.1 side.2 = some e ∧
          x = .send e.conn (.sessionClose sessionId reason) := by
      intro side hside hm
      by_cases hi : side = initiator
      · simp [closeNotice, hi] at hm
      · simp only [closeNotice, hi, if_false] at hm
        obtain ⟨e, he, hxe⟩ := (r.mem_sendTo).1 hm
        exact ⟨side, e, hside, hi, he, hxe⟩
    simp only [teardown_of_get r h, List.mem_append] at hx
    rcases hx with (hx | hx) | hx
    · split at hx
      · rename_i hr
        exact .inl ⟨by simpa using hx, hr⟩
      · simp at hx
    · exact .inr (notice _ (.inl rfl) hx)
    · exact .inr (notice _ (.inr rfl) hx)

/-! ## Teardown of a list of sessions -/

/-- Induction over the sessions a loop of teardowns closes, carrying the calls
made so far. -/
theorem teardownAll_induct {P : Registry C J → List (Effect C J) → Prop} {reason : String} {initiator : Side}
    {sids : List SessionId}
    (one : ∀ r out, ∀ sid ∈ sids, P r out →
      P (r.teardown sid reason initiator).1 (out ++ (r.teardown sid reason initiator).2))
    {r : Registry C J} (start : P r []) :
    P (teardownAll reason initiator r sids).1 (teardownAll reason initiator r sids).2 := by
  unfold teardownAll
  generalize ([] : List (Effect C J)) = out at start ⊢
  induction sids generalizing r out with
  | nil => exact start
  | cons sid sids ih =>
    refine ih (fun r out a ha => one r out a (List.mem_cons_of_mem _ ha)) _ ?_
    exact one r out sid List.mem_cons_self start

theorem get_teardownAll (reason : String) (initiator : Side) (sids : List SessionId) (sid : SessionId) :
    (teardownAll reason initiator r sids).1.sessions.get sid =
      if sid ∈ sids then none else r.sessions.get sid := by
  unfold teardownAll
  generalize ([] : List (Effect C J)) = out
  induction sids generalizing r out with
  | nil => simp
  | cons a sids ih =>
    rw [List.foldl_cons, ih, get_teardown]
    by_cases h : a = sid
    · simp [h]
    · simp [h, Ne.symm h]

theorem slot_teardownAll_conn (reason : String) (initiator : Side) (sids : List SessionId) (d : DeviceId)
    (k : DeviceKind) :
    ((teardownAll reason initiator r sids).1.slot d k).map (·.conn) = (r.slot d k).map (·.conn) :=
  teardownAll_induct (P := fun r' _ => (r'.slot d k).map (·.conn) = (r.slot d k).map (·.conn))
    (fun r' _ sid _ h => (slot_teardown_conn r' sid reason initiator d k).trans h) rfl

/-- Closing sessions does not touch the entries of the others. -/
theorem slot_teardownAll_other (reason : String) (initiator : Side) {sids : List SessionId} {sid : SessionId}
    (h : sid ∉ sids) (d : DeviceId) (k : DeviceKind) :
    ((teardownAll reason initiator r sids).1.slot d k).map (fun e => sid ∈ e.sessions) =
      (r.slot d k).map fun e => sid ∈ e.sessions :=
  teardownAll_induct
    (P := fun r' _ => (r'.slot d k).map (fun e => sid ∈ e.sessions) = (r.slot d k).map fun e => sid ∈ e.sessions)
    (fun r' _ a ha eq =>
      (slot_teardown_other r' reason initiator (fun e : a = sid => h (e ▸ ha)) d k).trans eq) rfl

/-! ## Presence -/

section Presence

variable [DecidableEq C]

/-- The entry `online` writes. -/
def onlineEntry (d : DeviceId) (k : DeviceKind) (conn : C) (info : SlotMeta) (now : Nat) : SlotEntry C :=
  { deviceId := d
    kind := k
    conn := conn
    lastSeen := now
    sessions := ((r.slot d k).map (·.sessions)).getD ∅
    wanIp := info.wanIp
    canWake := info.canWake.getD false
    accountId := info.accountId }

variable (d : DeviceId) (k : DeviceKind) (conn : C) (info : SlotMeta) (now : Nat)

theorem slot_online (d' : DeviceId) (k' : DeviceKind) :
    (r.online d k conn info now).1.slot d' k' =
      if (d, k) = (d', k') then some (r.onlineEntry d k conn info now) else r.slot d' k' := by
  unfold online
  exact slot_putSlot _ _ _ _ _ _

theorem mem_online_out {x : Effect C J} (hx : x ∈ (r.online d k conn info now).2) :
    ∃ c reason, x = .close c reason := by
  simp only [online] at hx
  split at hx
  · split at hx
    · exact ⟨_, _, by simpa using hx⟩
    · simp at hx
  · simp at hx

omit [DecidableEq C] in
/-- `dispatchWake` sends magic packets and nothing else. -/
theorem mem_dispatchWake_out {target : DeviceId} {mac wanIp accountId : Option String} {x : Effect C J}
    (hx : x ∈ (r.dispatchWake target mac wanIp accountId).2) : ∃ c mac, x = .send c (.wakeDispatch mac) := by
  unfold dispatchWake at hx
  split at hx
  · simp at hx
  · simp at hx
  · dsimp only at hx
    split at hx <;>
    · obtain ⟨c, -, rfl⟩ := List.mem_map.1 hx
      exact ⟨c, _, rfl⟩

/-- `offline` of a slot whose guard passes. -/
theorem offline_eq {d : DeviceId} {k : DeviceKind} {guard : Option C} {e : SlotEntry C}
    (he : r.slot d k = some e) (hg : guard.any (· ≠ e.conn) = false) :
    r.offline d k guard = teardownAll "peer_offline" (d, k) (r.dropSlot d k) e.sessions.elems := by
  unfold offline
  rw [he]
  dsimp only
  rw [hg]
  rfl

/-- `offline` either does nothing, or drops the slot and tears down its sessions. -/
theorem offline_cases (guard : Option C) :
    r.offline d k guard = (r, []) ∨
      ∃ e, r.slot d k = some e ∧ guard.any (· ≠ e.conn) = false ∧
        r.offline d k guard = teardownAll "peer_offline" (d, k) (r.dropSlot d k) e.sessions.elems := by
  unfold offline
  cases h : r.slot d k with
  | none => exact .inl rfl
  | some e =>
    dsimp only
    by_cases hg : guard.any (· ≠ e.conn) = true
    · exact .inl (if_pos hg)
    · exact .inr ⟨e, rfl, Bool.eq_false_iff.2 hg, if_neg hg⟩

/-- Whatever `offline` does, other slots keep their connection. -/
theorem slot_offline_conn (guard : Option C) (d' : DeviceId) (k' : DeviceKind) :
    ((r.offline d k guard).1.slot d' k').map (·.conn) = (r.slot d' k').map (·.conn) ∨
      ((d, k) = (d', k') ∧ (r.offline d k guard).1.slot d' k' = none) := by
  rcases r.offline_cases d k guard with h | ⟨e, he, -, h⟩
  · exact .inl (by rw [h])
  · have keep := slot_teardownAll_conn (r.dropSlot d k) "peer_offline" (d, k) e.sessions.elems d' k'
    rw [slot_dropSlot] at keep
    by_cases hs : (d, k) = (d', k')
    · refine .inr ⟨hs, ?_⟩
      rw [h]
      simpa [hs] using keep
    · exact .inl (by rw [h, keep, if_neg hs])

end Presence

/-! ## Session requests -/

section Requests

variable (sid : SessionId) (c : DeviceId) (ck : DeviceKind) (t : DeviceId) (pk : Option PasswordKind)

/-- The session a granted request opens. -/
def newSession : Session :=
  { id := sid
    controllerId := c
    controllerKind := ck
    hostId := t
    status := .pending }

/-- The registry after a granted request. -/
def granted : Registry C J :=
  ((({ r with sessions := r.sessions.set sid (newSession sid c ck t) } : Registry C J).modifySlot
    (t, .host) (·.addSession sid)).modifySlot (c, ck) (·.addSession sid))

/-- A request is refused without a trace, or granted. -/
theorem requestConnect_cases :
    (∃ code, r.requestConnect sid c ck t pk = ({ ok := false, code := some code }, r, [])) ∨
      ∃ host, r.slot t .host = some host ∧ host.sessions.size < r.opts.maxInboundPerHost ∧
        r.requestConnect sid c ck t pk =
          ({ ok := true, sessionId := some sid }, r.granted sid c ck t,
            [.send host.conn (.incomingRequest sid .controller pk (r.opts.iceServersFor t))]) := by
  unfold requestConnect
  cases h : r.slot t .host with
  | none => exact .inl ⟨_, rfl⟩
  | some host =>
    dsimp only
    split
    · exact .inl ⟨_, rfl⟩
    · rename_i hlt
      refine .inr ⟨host, rfl, by omega, ?_⟩
      simp [granted, newSession]

@[simp] theorem sessions_granted :
    (r.granted sid c ck t).sessions = r.sessions.set sid (newSession sid c ck t) := by
  simp [granted]

theorem slot_granted (d : DeviceId) (k : DeviceKind) :
    (r.granted sid c ck t).slot d k =
      if (newSession sid c ck t).HasSide (d, k) then (r.slot d k).map (·.addSession sid) else r.slot d k := by
  simp only [granted, slot_modifySlot, slot_withSessions, Session.HasSide, Session.controllerSide,
    Session.hostSide, newSession]
  by_cases hc : (c, ck) = (d, k) <;> by_cases hh : (t, DeviceKind.host) = (d, k) <;>
    cases r.slot d k <;> simp [hc, hh]

end Requests

section Answers

variable (sid : SessionId) (d : DeviceId) (k : DeviceKind)

/-- The calls of a successful accept. -/
def acceptOut (s : Session) : List (Effect C J) :=
  .sessionStart (s.audit sid) ::
    (r.sendTo s.hostSide (.connectReady sid .offerer .controller (r.opts.iceServersFor s.hostId)) ++
      r.sendTo s.controllerSide (.connectReady sid .answerer .host (r.opts.iceServersFor s.controllerId)))

theorem acceptConnect_cases :
    r.acceptConnect sid d k = (false, r, []) ∨
      ∃ s, r.sessions.get sid = some s ∧ s.hostSide = (d, k) ∧ s.status = .pending ∧
        r.acceptConnect sid d k =
          (true, { r with sessions := r.sessions.set sid { s with status := .ready } }, r.acceptOut sid s) := by
  unfold acceptConnect
  cases h : r.sessions.get sid with
  | none => exact .inl rfl
  | some s =>
    dsimp only
    split
    · exact .inl rfl
    · rename_i hno
      simp only [not_or, not_not] at hno
      exact .inr ⟨s, rfl, by simp [Session.hostSide, hno.1, hno.2.1], hno.2.2, rfl⟩

theorem rejectConnect_cases (reason : Option String) :
    r.rejectConnect sid d k reason = (false, r, []) ∨
      ∃ s, r.sessions.get sid = some s ∧ s.hostSide = (d, k) ∧
        r.rejectConnect sid d k reason =
          (true, (r.teardown sid (reason.getD "rejected") (d, k)).1,
            r.sendTo s.controllerSide (.connectErr .forbidden none none) ++
              (r.teardown sid (reason.getD "rejected") (d, k)).2) := by
  unfold rejectConnect
  cases h : r.sessions.get sid with
  | none => exact .inl rfl
  | some s =>
    dsimp only
    split
    · exact .inl rfl
    · rename_i hno
      simp only [not_or, not_not] at hno
      exact .inr ⟨s, rfl, by simp [Session.hostSide, hno.1, hno.2], rfl⟩

/-- Only a member has a peer, and the peer is the other member. -/
theorem peerSlotOf_cases (s : Session) :
    (s.controllerSide = (d, k) ∧ r.peerSlotOf s d k = r.slot s.hostId .host) ∨
      (s.controllerSide ≠ (d, k) ∧ s.hostSide = (d, k) ∧
        r.peerSlotOf s d k = r.slot s.controllerId s.controllerKind) ∨
      (¬ s.HasSide (d, k) ∧ r.peerSlotOf s d k = none) := by
  unfold peerSlotOf
  by_cases hc : s.controllerId = d ∧ s.controllerKind = k
  · exact .inl ⟨by simp [Session.controllerSide, hc.1, hc.2], if_pos hc⟩
  · have hc' : s.controllerSide ≠ (d, k) := by simpa [Session.controllerSide] using hc
    rw [if_neg hc]
    by_cases hh : s.hostId = d ∧ k = .host
    · exact .inr (.inl ⟨hc', by simp [Session.hostSide, hh.1, hh.2], if_pos hh⟩)
    · have hh' : s.hostSide ≠ (d, k) := by
        simp only [Session.hostSide, ne_eq, Prod.mk.injEq]
        exact fun e => hh ⟨e.1, e.2.symm⟩
      exact .inr (.inr ⟨fun m => m.elim hc' hh', if_neg hh⟩)

theorem relaySignal_cases (kind : SignalKind) (payload : J) :
    r.relaySignal sid d k kind payload = (false, r, []) ∨
      ∃ s peer, r.sessions.get sid = some s ∧ r.peerSlotOf s d k = some peer ∧
        r.relaySignal sid d k kind payload = (true, r, [.send peer.conn (.signal sid kind payload)]) := by
  unfold relaySignal
  cases h : r.sessions.get sid with
  | none => exact .inl rfl
  | some s =>
    dsimp only
    cases hp : r.peerSlotOf s d k with
    | none => exact .inl rfl
    | some peer => exact .inr ⟨s, peer, rfl, hp, rfl⟩

theorem closeSession_cases (reason : Option String) :
    r.closeSession sid reason d k = (false, r, []) ∨
      ∃ s peer, r.sessions.get sid = some s ∧ r.peerSlotOf s d k = some peer ∧
        r.closeSession sid reason d k =
          (true, (r.teardown sid (reason.getD "closed") (d, k)).1,
            (r.teardown sid (reason.getD "closed") (d, k)).2) := by
  unfold closeSession
  cases h : r.sessions.get sid with
  | none => exact .inl rfl
  | some s =>
    dsimp only
    cases hp : r.peerSlotOf s d k with
    | none => exact .inl rfl
    | some peer => exact .inr ⟨s, peer, rfl, hp, rfl⟩

end Answers

end Registry

end ZortilWatch.Signaling
