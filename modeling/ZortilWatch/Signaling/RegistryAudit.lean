import ZortilWatch.Signaling.RegistryIndex

/-!
# The audit hooks of the registry

`onSessionStart` and `onSessionEnd` as counts over the calls made so far.
`Audited` ties them to the session map: an accepted session has started once,
it has ended once if it is gone, and the sessions that have started and not
ended are the ready ones. A teardown is the only step that ends a session and
is proved once (`Audited.teardown`) for the three methods that reach it.
-/

namespace ZortilWatch.Signaling

variable {C J : Type}

namespace Effect

def isStart : Effect C J → Bool
  | .sessionStart _ => true
  | _ => false

def isEnd : Effect C J → Bool
  | .sessionEnd _ => true
  | _ => false

/-- `onSessionStart` called for `sid`. -/
def startsSession (sid : SessionId) : Effect C J → Bool
  | .sessionStart a => a.sessionId = sid
  | _ => false

/-- `onSessionEnd` called for `sid`. -/
def endsSession (sid : SessionId) : Effect C J → Bool
  | .sessionEnd a => a.sessionId = sid
  | _ => false

/-- A call on a connection, not on a hook. -/
def Quiet (x : Effect C J) : Prop := x.isStart = false ∧ x.isEnd = false

theorem quiet_send (conn : C) (msg : ServerMessage J) : (Effect.send conn msg).Quiet := ⟨rfl, rfl⟩

theorem Quiet.session {x : Effect C J} (h : x.Quiet) (sid : SessionId) :
    x.startsSession sid = false ∧ x.endsSession sid = false := by
  cases x with
  | send => exact ⟨rfl, rfl⟩
  | close => exact ⟨rfl, rfl⟩
  | sessionStart => cases h.1
  | sessionEnd => cases h.2

end Effect

/-- Number of calls of `onSessionStart` for `sid`. -/
def startsOf (sid : SessionId) (log : List (Effect C J)) : Nat := log.countP (·.startsSession sid)

/-- Number of calls of `onSessionEnd` for `sid`. -/
def endsOf (sid : SessionId) (log : List (Effect C J)) : Nat := log.countP (·.endsSession sid)

def starts (log : List (Effect C J)) : Nat := log.countP Effect.isStart

def ends (log : List (Effect C J)) : Nat := log.countP Effect.isEnd

/-- Number of ready sessions. -/
def readyCount (m : JsMap SessionId Session) : Nat := m.values.countP fun s => s.status = .ready

/-- The hooks have been called exactly as the map and the accepted ids say. -/
structure Audited (m : JsMap SessionId Session) (log : List (Effect C J)) (accepted : List SessionId) : Prop where
  started : ∀ sid, startsOf sid log = if sid ∈ accepted then 1 else 0
  opened : ∀ sid s, m.get sid = some s → endsOf sid log = 0 ∧ (sid ∈ accepted ↔ s.status = .ready)
  gone : ∀ sid, m.get sid = none → endsOf sid log = startsOf sid log
  balance : starts log = ends log + readyCount m

/-- A count over a log followed by calls that do not count. -/
theorem countP_append_quiet {p : Effect C J → Bool} {log out : List (Effect C J)} (h : ∀ x ∈ out, p x = false) :
    (log ++ out).countP p = log.countP p := by
  have none : out.countP p = 0 := List.countP_eq_zero.2 fun x hx => by simp [h x hx]
  rw [List.countP_append, none, Nat.add_zero]

section Quiet

variable {log out : List (Effect C J)} (h : ∀ x ∈ out, x.Quiet)

include h

theorem startsOf_quiet (sid : SessionId) : startsOf sid (log ++ out) = startsOf sid log :=
  countP_append_quiet fun x hx => ((h x hx).session sid).1

theorem endsOf_quiet (sid : SessionId) : endsOf sid (log ++ out) = endsOf sid log :=
  countP_append_quiet fun x hx => ((h x hx).session sid).2

theorem starts_quiet : starts (log ++ out) = starts log := countP_append_quiet fun x hx => (h x hx).1

theorem ends_quiet : ends (log ++ out) = ends log := countP_append_quiet fun x hx => (h x hx).2

end Quiet

theorem readyCount_delete {m : JsMap SessionId Session} {sid : SessionId} {s : Session} (hs : m.get sid = some s) :
    readyCount (m.delete sid) + (if s.status = .ready then 1 else 0) = readyCount m := by
  simpa [readyCount] using JsMap.count_delete (fun s => s.status = .ready) m hs

section Hooks

variable {log : List (Effect C J)} (s : Session) (ended sid : SessionId)

theorem endsOf_end :
    endsOf sid (log ++ [.sessionEnd (s.audit ended)]) = endsOf sid log + if ended = sid then 1 else 0 := by
  simp [endsOf, Effect.endsSession, Session.audit, List.countP_append, List.countP_cons]

theorem startsOf_end : startsOf sid (log ++ [.sessionEnd (s.audit ended)]) = startsOf sid log := by
  simp [startsOf, Effect.startsSession, List.countP_append]

theorem startsOf_start :
    startsOf sid (log ++ [.sessionStart (s.audit ended)]) = startsOf sid log + if ended = sid then 1 else 0 := by
  simp [startsOf, Effect.startsSession, Session.audit, List.countP_append, List.countP_cons]

theorem endsOf_start : endsOf sid (log ++ [.sessionStart (s.audit ended)]) = endsOf sid log := by
  simp [endsOf, Effect.endsSession, List.countP_append]

end Hooks

namespace Audited

variable {m : JsMap SessionId Session} {log : List (Effect C J)} {accepted : List SessionId}

theorem empty : Audited (∅ : JsMap SessionId Session) ([] : List (Effect C J)) [] where
  started _ := rfl
  opened _ _ h := by cases h
  gone _ _ := rfl
  balance := rfl

/-- Calls on connections do not matter to the audit. -/
theorem quiet (ha : Audited m log accepted) {out : List (Effect C J)} (h : ∀ x ∈ out, x.Quiet) :
    Audited m (log ++ out) accepted where
  started sid := (startsOf_quiet h sid).trans (ha.started sid)
  opened sid s hs := (ha.opened sid s hs).imp_left (endsOf_quiet h sid).trans
  gone sid hg := by rw [endsOf_quiet h, startsOf_quiet h, ha.gone sid hg]
  balance := by rw [starts_quiet h, ends_quiet h, ha.balance]

/-- A request opens a session under an id that is neither open nor accepted. -/
theorem opens (ha : Audited m log accepted) {sid : SessionId} (free : m.get sid = none)
    (unused : sid ∉ accepted) {s : Session} (hp : s.status = .pending) :
    Audited (m.set sid s) log accepted where
  started := ha.started
  opened sid' s' hs' := by
    rw [JsMap.get_set] at hs'
    split at hs'
    · rename_i h
      subst h
      cases hs'
      have h0 := ha.started sid
      rw [if_neg unused] at h0
      refine ⟨(ha.gone sid free).trans h0, fun h => absurd h unused, fun h => ?_⟩
      rw [hp] at h
      cases h
    · exact ha.opened sid' s' hs'
  gone sid' hg := by
    rw [JsMap.get_set] at hg
    split at hg
    · cases hg
    · exact ha.gone sid' hg
  balance := by
    have : readyCount (m.set sid s) = readyCount m := by
      simp [readyCount, JsMap.count_set_fresh _ _ _ free, hp]
    rw [this, ha.balance]

/-- Accepting a pending session starts it. -/
theorem accepts (ha : Audited m log accepted) {sid : SessionId} {s : Session} (hs : m.get sid = some s)
    (hp : s.status = .pending) :
    Audited (m.set sid { s with status := .ready }) (log ++ [.sessionStart (s.audit sid)]) (sid :: accepted) := by
  have pending : sid ∉ accepted := fun h => by
    have := (ha.opened sid s hs).2.1 h
    rw [hp] at this
    cases this
  refine ⟨fun sid' => ?_, fun sid' s' hs' => ?_, fun sid' hg => ?_, ?_⟩
  · rw [startsOf_start, ha.started]
    by_cases h : sid = sid'
    · subst h
      simp [pending]
    · simp [h, Ne.symm h]
  · rw [endsOf_start]
    rw [JsMap.get_set] at hs'
    split at hs'
    · rename_i h
      subst h
      cases hs'
      exact ⟨(ha.opened sid s hs).1, by simp⟩
    · rename_i h
      have := ha.opened sid' s' hs'
      simpa [Ne.symm h] using this
  · rw [JsMap.get_set] at hg
    split at hg
    · cases hg
    · rename_i h
      rw [endsOf_start, startsOf_start, ha.gone sid' hg]
      simp [h]
  · have count := JsMap.count_set_of_get (fun s : Session => s.status = .ready) m { s with status := .ready } hs
    have hstarts : starts (log ++ [.sessionStart (s.audit sid)]) = starts log + 1 := by
      simp [starts, Effect.isStart, List.countP_append]
    have hends : ends (log ++ [.sessionStart (s.audit sid)]) = ends log := by
      simp [ends, Effect.isEnd, List.countP_append]
    have hready : readyCount (m.set sid { s with status := .ready }) = readyCount m + 1 := by
      simpa [readyCount, hp] using count
    rw [hstarts, hends, hready, ha.balance, Nat.add_assoc]

theorem removes_ready (ha : Audited m log accepted) {sid : SessionId} {s : Session} (hs : m.get sid = some s)
    (hr : s.status = .ready) : Audited (m.delete sid) (log ++ [.sessionEnd (s.audit sid)]) accepted := by
  have count := readyCount_delete hs
  have mine := ha.opened sid s hs
  refine ⟨fun sid' => ?_, fun sid' s' hs' => ?_, fun sid' hg => ?_, ?_⟩
  · rw [startsOf_end, ha.started]
  · rw [JsMap.get_delete] at hs'
    split at hs'
    · cases hs'
    · rename_i h
      rw [endsOf_end, if_neg h]
      exact ha.opened sid' s' hs'
  · rw [JsMap.get_delete] at hg
    rw [endsOf_end, startsOf_end]
    by_cases h : sid = sid'
    · subst h
      rw [if_pos rfl, mine.1, ha.started sid, if_pos (mine.2.2 hr)]
    · rw [if_neg h] at hg
      rw [if_neg h, ha.gone sid' hg]
      rfl
  · have hstarts : starts (log ++ [.sessionEnd (s.audit sid)]) = starts log := by
      simp [starts, Effect.isStart, List.countP_append]
    have hends : ends (log ++ [.sessionEnd (s.audit sid)]) = ends log + 1 := by
      simp [ends, Effect.isEnd, List.countP_append]
    have bal := ha.balance
    rw [if_pos hr] at count
    omega

theorem removes_pending (ha : Audited m log accepted) {sid : SessionId} {s : Session} (hs : m.get sid = some s)
    (hr : s.status ≠ .ready) : Audited (m.delete sid) log accepted := by
  have count := readyCount_delete hs
  have mine := ha.opened sid s hs
  refine ⟨ha.started, fun sid' s' hs' => ?_, fun sid' hg => ?_, ?_⟩
  · rw [JsMap.get_delete] at hs'
    split at hs'
    · cases hs'
    · exact ha.opened sid' s' hs'
  · rw [JsMap.get_delete] at hg
    by_cases h : sid = sid'
    · subst h
      rw [mine.1, ha.started sid, if_neg fun h => hr (mine.2.1 h)]
    · rw [if_neg h] at hg
      exact ha.gone sid' hg
  · have bal := ha.balance
    rw [if_neg hr] at count
    omega

/-- Removing an open session ends it if it was ready. -/
theorem removes (ha : Audited m log accepted) {sid : SessionId} {s : Session} (hs : m.get sid = some s) :
    Audited (m.delete sid) (log ++ if s.status = .ready then [.sessionEnd (s.audit sid)] else []) accepted := by
  split
  · rename_i hr
    exact ha.removes_ready hs hr
  · rename_i hr
    rw [List.append_nil]
    exact ha.removes_pending hs hr

variable {r : Registry C J}

theorem quiet_sendTo (side : Side) (msg : ServerMessage J) :
    ∀ x ∈ r.sendTo side msg, x.Quiet := by
  intro x hx
  obtain ⟨e, -, rfl⟩ := r.mem_sendTo.1 hx
  exact Effect.quiet_send _ _

theorem quiet_closeNotice (sid : SessionId) (reason : String) (initiator side : Side) :
    ∀ x ∈ r.closeNotice sid reason initiator side, x.Quiet := by
  unfold Registry.closeNotice
  split
  · simp
  · exact quiet_sendTo side _

theorem teardown (ha : Audited r.sessions log accepted) (sid : SessionId) (reason : String)
    (initiator : Side) :
    Audited (r.teardown sid reason initiator).1.sessions (log ++ (r.teardown sid reason initiator).2) accepted := by
  cases hs : r.sessions.get sid with
  | none => simpa [r.teardown_of_none hs] using ha
  | some s =>
    rw [r.teardown_of_get hs]
    simp only [Registry.sessions_modifySlot, ← List.append_assoc]
    exact ((ha.removes hs).quiet (quiet_closeNotice _ _ _ _)).quiet (quiet_closeNotice _ _ _ _)

theorem requestConnect (ha : Audited r.sessions log accepted) {sid : SessionId} (free : r.sessions.get sid = none)
    (unused : sid ∉ accepted) (d : DeviceId) (k : DeviceKind) (t : DeviceId) (pk : Option PasswordKind) :
    Audited (r.requestConnect sid d k t pk).2.1.sessions (log ++ (r.requestConnect sid d k t pk).2.2) accepted := by
  rcases r.requestConnect_cases sid d k t pk with ⟨_, h⟩ | ⟨host, _, _, h⟩ <;> rw [h]
  · simpa using ha
  · have opened : Audited (r.granted sid d k t).sessions log accepted := by
      rw [Registry.sessions_granted]
      exact ha.opens free unused rfl
    exact opened.quiet fun x hx => by
      rw [List.mem_singleton.1 hx]
      exact Effect.quiet_send _ _

theorem acceptConnect (ha : Audited r.sessions log accepted) (sid : SessionId) (d : DeviceId) (k : DeviceKind) :
    Audited (r.acceptConnect sid d k).2.1.sessions (log ++ (r.acceptConnect sid d k).2.2)
      (if (r.acceptConnect sid d k).1 then sid :: accepted else accepted) := by
  rcases r.acceptConnect_cases sid d k with h | ⟨s, hs, _, hp, h⟩ <;> rw [h]
  · simpa using ha
  · have told : ∀ x ∈ (r.acceptOut sid s).tail, x.Quiet := by
      intro x hx
      rcases List.mem_append.1 hx with hx | hx <;> exact quiet_sendTo _ _ x hx
    simpa [Registry.acceptOut] using (ha.accepts hs hp).quiet told

theorem rejectConnect (ha : Audited r.sessions log accepted) (sid : SessionId) (d : DeviceId) (k : DeviceKind)
    (reason : Option String) :
    Audited (r.rejectConnect sid d k reason).2.1.sessions (log ++ (r.rejectConnect sid d k reason).2.2)
      accepted := by
  rcases r.rejectConnect_cases sid d k reason with h | ⟨s, _, _, h⟩ <;> rw [h]
  · simpa using ha
  · rw [← List.append_assoc]
    exact (ha.quiet (quiet_sendTo _ _)).teardown sid _ _

theorem closeSession (ha : Audited r.sessions log accepted) (sid : SessionId) (d : DeviceId) (k : DeviceKind)
    (reason : Option String) :
    Audited (r.closeSession sid reason d k).2.1.sessions (log ++ (r.closeSession sid reason d k).2.2) accepted := by
  rcases r.closeSession_cases sid d k reason with h | ⟨_, _, _, _, h⟩ <;> rw [h]
  · simpa using ha
  · exact ha.teardown sid _ _

theorem quiet_dispatchWake (target : DeviceId) (mac wanIp accountId : Option String) :
    ∀ x ∈ (r.dispatchWake target mac wanIp accountId).2, x.Quiet := by
  intro x hx
  obtain ⟨c, mac, rfl⟩ := r.mem_dispatchWake_out hx
  exact Effect.quiet_send _ _

theorem quiet_relaySignal (sid : SessionId) (d : DeviceId) (k : DeviceKind) (kind : SignalKind) (payload : J) :
    ∀ x ∈ (r.relaySignal sid d k kind payload).2.2, x.Quiet := by
  rcases r.relaySignal_cases sid d k kind payload with h | ⟨_, _, _, _, h⟩ <;> rw [h]
  · simp
  · intro x hx
    rw [List.mem_singleton.1 hx]
    exact Effect.quiet_send _ _

theorem quiet_online [DecidableEq C] (d : DeviceId) (k : DeviceKind) (conn : C) (info : SlotMeta) (now : Nat) :
    ∀ x ∈ (r.online d k conn info now).2, x.Quiet := by
  intro x hx
  obtain ⟨c, reason, rfl⟩ := r.mem_online_out d k conn info now hx
  exact ⟨rfl, rfl⟩

theorem offline [DecidableEq C] (ha : Audited r.sessions log accepted) (d : DeviceId)
    (k : DeviceKind) (guard : Option C) :
    Audited (r.offline d k guard).1.sessions (log ++ (r.offline d k guard).2) accepted := by
  rcases r.offline_cases d k guard with h | ⟨e, -, -, h⟩ <;> rw [h]
  · simpa using ha
  · refine Registry.teardownAll_induct (P := fun r out => Audited r.sessions (log ++ out) accepted)
      (fun r out sid _ h => ?_) (by simpa using ha)
    rw [← List.append_assoc]
    exact h.teardown sid _ _

end Audited

/-! ## Runs -/

section Runs

/-- What every run that calls `requestConnect` for registered slots keeps. -/
structure Trace.Sound (t : Trace C J) : Prop where
  sane : t.Sane
  joined : t.reg.Joined
  audited : Audited t.reg.sessions t.log t.accepted
  accepted : ∀ sid ∈ t.accepted, sid ∈ t.issued

variable [DecidableEq C]

namespace Trace

variable {t : Trace C J}

theorem Sound.audited_perform (ht : t.Sound) {op : Op C J} (fresh : t.freshId op) :
    Audited (t.perform op).reg.sessions (t.perform op).log (t.perform op).accepted := by
  have ha := ht.audited
  cases op with
  | online d k conn info now => exact ha.quiet (Audited.quiet_online d k conn info now)
  | offline d k guard => exact ha.offline d k guard
  | touch d now => simpa [perform, Registry.perform, Registry.touch] using ha
  | dispatchWake d target mac wanIp accountId => exact ha.quiet (Audited.quiet_dispatchWake _ _ _ _)
  | requestConnect sid d k target pk =>
    exact ha.requestConnect (ht.sane.free fresh) (fun h => fresh (ht.accepted sid h)) d k target pk
  | acceptConnect sid d k => exact ha.acceptConnect sid d k
  | rejectConnect sid d k reason => exact ha.rejectConnect sid d k reason
  | relaySignal sid d k kind payload =>
    have same : (t.reg.relaySignal sid d k kind payload).2.1 = t.reg := by
      rcases t.reg.relaySignal_cases sid d k kind payload with h | ⟨_, _, _, _, h⟩ <;> rw [h]
    simpa only [perform, Registry.perform, same] using ha.quiet (Audited.quiet_relaySignal sid d k kind payload)
  | closeSession sid d k reason => exact ha.closeSession sid d k reason

theorem Sound.perform (ht : t.Sound) {op : Op C J} (fresh : t.freshId op) (caller : t.callerRegistered op) :
    (t.perform op).Sound where
  sane := ht.sane.perform fresh
  joined := ht.joined.perform op fun _ _ _ _ _ h => by subst h; exact caller
  audited := ht.audited_perform fresh
  accepted sid h := by
    simp only [Trace.perform] at h
    split at h
    · rename_i sid' d k
      split at h
      · rename_i ok
        rcases List.mem_cons.1 h with rfl | h
        · rcases t.reg.acceptConnect_cases sid d k with e | ⟨s, hs, -, -, -⟩
          · simp [Registry.perform, e] at ok
          · exact t.issued_mono _ (ht.sane.issued sid (by rw [hs]; rfl))
        · exact t.issued_mono _ (ht.accepted sid h)
      · exact t.issued_mono _ (ht.accepted sid h)
    · exact t.issued_mono _ (ht.accepted sid h)

/-- In every run whose requests come from registered slots. -/
theorem sound_of_reachable (ht : ((registrySystem C J).restrict callerRegistered).Reachable t) : t.Sound := by
  refine System.Reachable.invariant (fun t0 h0 => ?_) (fun t0 op _ h he => h.perform he.1 he.2) ht
  obtain ⟨opts, rfl⟩ := h0
  exact ⟨.start opts, Registry.joined_empty opts, Audited.empty, fun _ h => absurd h List.not_mem_nil⟩

/-- In every run in which requests come from registered slots and session ids
are fresh, the index is exact, going offline leaves no session of the role, and
the audit hooks are called once for each accepted session and once for each of
these that is gone. -/
theorem index_and_audit_exact (ht : ((registrySystem C J).restrict callerRegistered).Reachable t) :
    t.reg.Indexed ∧
      (∀ d k guard e, t.reg.slot d k = some e → guard.any (· ≠ e.conn) = false →
        ∀ sid s, (t.reg.offline d k guard).1.sessions.get sid = some s → ¬ s.HasSide (d, k)) ∧
      (∀ sid, startsOf sid t.log = if sid ∈ t.accepted then 1 else 0) ∧
      (∀ sid, endsOf sid t.log = if sid ∈ t.accepted ∧ t.reg.sessions.get sid = none then 1 else 0) ∧
      starts t.log = ends t.log + readyCount t.reg.sessions := by
  have hs := sound_of_reachable ht
  refine ⟨hs.sane.members.indexed hs.joined,
    fun _ _ _ _ he hg _ _ h => Registry.ListsAll.offline_clears hs.joined he hg h,
    hs.audited.started, fun sid => ?_, hs.audited.balance⟩
  cases hget : t.reg.sessions.get sid with
  | none =>
    rw [hs.audited.gone sid hget, hs.audited.started]
    simp
  | some s =>
    rw [(hs.audited.opened sid s hget).1]
    simp

/-- A session that is accepted and then lost with its host. -/
theorem index_and_audit_exact_host_lost :
    let ops : List (Op Nat Unit) :=
      [.online "pc" .host 1 {} 0, .online "phone" .controller 2 {} 0,
        .requestConnect "s" "phone" .controller "pc" none,
        .acceptConnect "s" "pc" .host, .offline "pc" .host (some 1)]
    let t := (registrySystem Nat Unit).after { reg := { opts := { iceServersFor := fun _ => () } } } ops
    t.reg.Indexed ∧ endsOf "s" t.log = 1 := by
  intro ops t
  have ht : ((registrySystem Nat Unit).restrict callerRegistered).Reachable t := by
    have start : ((registrySystem Nat Unit).restrict callerRegistered).Reachable
        { reg := { opts := { iceServersFor := fun _ => () } } } := .init ⟨_, rfl⟩
    exact @System.Reachable.after _ _ _ _ start ops
      ⟨⟨trivial, trivial⟩, ⟨trivial, trivial⟩, ⟨List.not_mem_nil, rfl⟩, ⟨trivial, trivial⟩, ⟨trivial, trivial⟩,
        trivial⟩
  have h := index_and_audit_exact ht
  refine ⟨h.1, ?_⟩
  rw [h.2.2.2.1]
  decide

end Trace

end Runs

end ZortilWatch.Signaling
