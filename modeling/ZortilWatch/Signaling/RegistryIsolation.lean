import ZortilWatch.Signaling.RegistryIndex

/-!
# Sessions and outsiders

A message that names a session goes to a connection of that session
(`Registry.perform_addressed`), and a call made for a device and role that take
no part in a session leaves it alone (`Members.perform_outsider`). Both need
only `Members`, so they hold even where `Joined` is lost.
-/

namespace ZortilWatch.Signaling

namespace Registry

variable {C J : Type} {r : Registry C J}

/-- `conn` is registered for a side of `s`. -/
def Serves (r : Registry C J) (conn : C) (s : Session) : Prop :=
  ∃ side e, s.HasSide side ∧ r.slot side.1 side.2 = some e ∧ e.conn = conn

/-- Every message of `out` that names a session goes to a connection that `r`
serves that session with; the session is one `known` allows. -/
def Addressed (r : Registry C J) (known : SessionId → Session → Prop) (out : List (Effect C J)) : Prop :=
  ∀ conn msg sid, .send conn msg ∈ out → msg.sessionId? = some sid → ∃ s, known sid s ∧ r.Serves conn s

variable {known : SessionId → Session → Prop}

theorem Serves.of_conns {r' : Registry C J} {conn : C} {s : Session} (h : r'.Serves conn s)
    (same : ∀ d k e', r'.slot d k = some e' → ∃ e, r.slot d k = some e ∧ e.conn = e'.conn) :
    r.Serves conn s := by
  obtain ⟨side, e', hside, he', rfl⟩ := h
  obtain ⟨e, he, hc⟩ := same _ _ _ he'
  exact ⟨side, e, hside, he, hc⟩

theorem Addressed.append {out out' : List (Effect C J)} (h : r.Addressed known out) (h' : r.Addressed known out') :
    r.Addressed known (out ++ out') := by
  intro conn msg sid hx hm
  rcases List.mem_append.1 hx with hx | hx
  · exact h conn msg sid hx hm
  · exact h' conn msg sid hx hm

theorem addressed_nil : r.Addressed known [] := by
  intro conn msg sid hx
  cases hx

theorem addressed_sendTo {side : Side} {msg : ServerMessage J} {s : Session} (hside : s.HasSide side)
    (hk : ∀ sid, msg.sessionId? = some sid → known sid s) : r.Addressed known (r.sendTo side msg) := by
  intro conn msg' sid hx hm
  obtain ⟨e, he, hmsg⟩ := r.mem_sendTo.1 hx
  cases hmsg
  exact ⟨s, hk sid hm, side, e, hside, he, rfl⟩

theorem addressed_teardown (sid : SessionId) (reason : String) (initiator : Side) :
    r.Addressed (fun sid s => r.sessions.get sid = some s) (r.teardown sid reason initiator).2 := by
  intro conn msg sid' hx hm
  obtain ⟨s, hs, ⟨hend, -⟩ | ⟨side, e, hside, -, he, hmsg⟩⟩ := r.mem_teardown_out hx
  · cases hend
  · cases hmsg
    cases hm
    exact ⟨s, hs, side, e, hside, he, rfl⟩

/-- Closing a list of sessions tells only their own sides, whatever was closed
before. -/
theorem addressed_teardownAll (reason : String) (initiator : Side) (sids : List SessionId) :
    r.Addressed (fun sid s => r.sessions.get sid = some s) (teardownAll reason initiator r sids).2 := by
  -- the loop keeps connections and only removes sessions, so what its registry serves `r` serves
  let Kept (r' : Registry C J) : Prop :=
    (∀ d k, (r'.slot d k).map (·.conn) = (r.slot d k).map (·.conn)) ∧
      ∀ sid s, r'.sessions.get sid = some s → r.sessions.get sid = some s
  have loop : Kept (teardownAll reason initiator r sids).1 ∧ _ := teardownAll_induct
    (P := fun r' out => Kept r' ∧ r.Addressed (fun sid s => r.sessions.get sid = some s) out)
    (fun r' out sid _ h => ?_) ⟨⟨fun _ _ => rfl, fun _ _ h => h⟩, addressed_nil⟩
  · exact loop.2
  obtain ⟨⟨conns, open_⟩, told⟩ := h
  refine ⟨⟨fun d k => (slot_teardown_conn r' sid reason initiator d k).trans (conns d k), fun sid' s hs => ?_⟩,
    told.append fun conn msg sid' hx hm => ?_⟩
  · rw [get_teardown] at hs
    split at hs
    · cases hs
    · exact open_ sid' s hs
  · obtain ⟨s, hs, hserves⟩ := addressed_teardown sid reason initiator conn msg sid' hx hm
    refine ⟨s, open_ sid' s hs, hserves.of_conns fun d k e' he' => ?_⟩
    have same := conns d k
    rw [he'] at same
    obtain ⟨e, he, hc⟩ := Option.map_eq_some_iff.1 same.symm
    exact ⟨e, he, hc⟩

theorem peerSlotOf_serves {s : Session} {d : DeviceId} {k : DeviceKind} {peer : SlotEntry C}
    (h : r.peerSlotOf s d k = some peer) : s.HasSide (d, k) ∧ r.Serves peer.conn s := by
  rcases r.peerSlotOf_cases d k s with ⟨hc, hp⟩ | ⟨-, hh, hp⟩ | ⟨-, hp⟩ <;> rw [hp] at h
  · exact ⟨.inl hc, s.hostSide, peer, .inr rfl, h, rfl⟩
  · exact ⟨.inr hh, s.controllerSide, peer, .inl rfl, h, rfl⟩
  · cases h

section Calls

variable [DecidableEq C]

/-- Whatever the call, a message naming a session goes to a connection that was
registered for a side of it. -/
theorem perform_addressed (r : Registry C J) (op : Op C J) :
    r.Addressed (fun sid s => r.sessions.get sid = some s ∨ (r.perform op).2.1.sessions.get sid = some s)
      (r.perform op).2.2 := by
  have old {out : List (Effect C J)} (h : r.Addressed (fun sid s => r.sessions.get sid = some s) out) :
      r.Addressed (fun sid s => r.sessions.get sid = some s ∨ (r.perform op).2.1.sessions.get sid = some s) out :=
    fun conn msg sid hx hm => (h conn msg sid hx hm).imp fun s hs => ⟨.inl hs.1, hs.2⟩
  cases op with
  | online d k conn info now =>
    intro conn' msg sid hx hm
    obtain ⟨c, reason, h⟩ := r.mem_online_out d k conn info now hx
    cases h
  | offline d k guard =>
    rcases r.offline_cases d k guard with h | ⟨e, he, -, h⟩
    · simp only [perform, h]
      exact addressed_nil
    · refine old ?_
      simp only [perform, h]
      intro conn msg sid hx hm
      obtain ⟨s, hs, hserves⟩ := addressed_teardownAll _ _ _ conn msg sid hx hm
      refine ⟨s, by simpa using hs, hserves.of_conns fun d' k' e' he' => ?_⟩
      rw [slot_dropSlot] at he'
      split at he'
      · cases he'
      · exact ⟨e', he', rfl⟩
  | touch d now => exact addressed_nil
  | dispatchWake d target mac wanIp accountId =>
    intro conn msg sid hx hm
    obtain ⟨c, mac, h⟩ := r.mem_dispatchWake_out hx
    cases h
    cases hm
  | requestConnect sid d k t pk =>
    rcases r.requestConnect_cases sid d k t pk with ⟨_, h⟩ | ⟨host, hh, -, h⟩ <;> simp only [perform, h]
    · exact addressed_nil
    · intro conn msg sid' hx hm
      cases List.mem_singleton.1 hx
      cases hm
      refine ⟨newSession sid d k t, .inr ?_, (t, .host), host, .inr rfl, hh, rfl⟩
      rw [sessions_granted, JsMap.get_set_self]
  | acceptConnect sid d k =>
    rcases r.acceptConnect_cases sid d k with h | ⟨s, hs, -, -, h⟩
    · simp only [perform, h]
      exact addressed_nil
    · refine old ?_
      have ready : ∀ side msg, s.HasSide side → msg.sessionId? = some sid →
          r.Addressed (fun sid s => r.sessions.get sid = some s) (r.sendTo side msg) :=
        fun side msg hside hmsg => addressed_sendTo hside fun sid' h => by cases hmsg.symm.trans h; exact hs
      simp only [perform, h, acceptOut]
      intro conn msg sid' hx hm
      rcases List.mem_cons.1 hx with hx | hx
      · cases hx
      · exact (ready _ _ (.inr rfl) rfl).append (ready _ _ (.inl rfl) rfl) conn msg sid' hx hm
  | rejectConnect sid d k reason =>
    rcases r.rejectConnect_cases sid d k reason with h | ⟨s, hs, -, h⟩
    · simp only [perform, h]
      exact addressed_nil
    · refine old ?_
      simp only [perform, h]
      exact (addressed_sendTo (.inl rfl) fun _ h => by cases h).append (addressed_teardown sid _ _)
  | relaySignal sid d k kind payload =>
    rcases r.relaySignal_cases sid d k kind payload with h | ⟨s, peer, hs, hp, h⟩
    · simp only [perform, h]
      exact addressed_nil
    · refine old ?_
      simp only [perform, h]
      intro conn msg sid' hx hm
      cases List.mem_singleton.1 hx
      cases hm
      exact ⟨s, hs, (peerSlotOf_serves hp).2⟩
  | closeSession sid d k reason =>
    rcases r.closeSession_cases sid d k reason with h | ⟨s, peer, hs, hp, h⟩
    · simp only [perform, h]
      exact addressed_nil
    · refine old ?_
      simp only [perform, h]
      exact addressed_teardown sid _ _

/-- A session the caller takes no part in is neither removed nor changed. -/
theorem Members.perform_outsider (hm : r.Members) {op : Op C J} {side : Side} (caller : op.onBehalfOf side)
    (fresh : ∀ sid d k t pk, op = .requestConnect sid d k t pk → r.sessions.get sid = none) {sid : SessionId}
    {s : Session} (hs : r.sessions.get sid = some s) (out : ¬ s.HasSide side) :
    (r.perform op).2.1.sessions.get sid = some s := by
  -- a call that acts on a session was made by a side of it
  have other {sid' : SessionId} {s' : Session} (hs' : r.sessions.get sid' = some s') (hside : s'.HasSide side) :
      sid' ≠ sid := by
    rintro rfl
    cases hs.symm.trans hs'
    exact out hside
  cases op with
  | online d k conn info now => exact hs
  | offline d k guard =>
    cases caller
    rcases r.offline_cases d k guard with h | ⟨e, he, -, h⟩ <;> simp only [Registry.perform, h]
    · exact hs
    · rw [get_teardownAll, if_neg, sessions_dropSlot, hs]
      intro hin
      obtain ⟨s', hs', hside⟩ := hm d k e sid he hin
      exact other hs' hside rfl
  | touch d now => simpa [Registry.perform, touch] using hs
  | dispatchWake => exact hs
  | requestConnect sid' d k t pk =>
    rcases r.requestConnect_cases sid' d k t pk with ⟨_, h⟩ | ⟨_, -, -, h⟩ <;> simp only [Registry.perform, h]
    · exact hs
    · have : sid' ≠ sid := fun e => by
        have := fresh _ _ _ _ _ rfl
        rw [e, hs] at this
        cases this
      rw [sessions_granted, JsMap.get_set_ne _ _ this, hs]
  | acceptConnect sid' d k =>
    cases caller
    rcases r.acceptConnect_cases sid' d k with h | ⟨s', hs', hside, -, h⟩ <;> simp only [Registry.perform, h]
    · exact hs
    · rw [JsMap.get_set_ne _ _ (other hs' (.inr hside)), hs]
  | rejectConnect sid' d k reason =>
    cases caller
    rcases r.rejectConnect_cases sid' d k reason with h | ⟨s', hs', hside, h⟩ <;> simp only [Registry.perform, h]
    · exact hs
    · rw [get_teardown, if_neg (other hs' (.inr hside)), hs]
  | relaySignal sid' d k kind payload =>
    rcases r.relaySignal_cases sid' d k kind payload with h | ⟨_, _, -, -, h⟩ <;>
      simp only [Registry.perform, h] <;> exact hs
  | closeSession sid' d k reason =>
    cases caller
    rcases r.closeSession_cases sid' d k reason with h | ⟨s', peer, hs', hp, h⟩ <;>
      simp only [Registry.perform, h]
    · exact hs
    · rw [get_teardown, if_neg (other hs' (peerSlotOf_serves hp).1), hs]

/-- Answers, signals and closes of an outsider return false and do nothing. -/
theorem perform_outsider_refused {op : Op C J} {side : Side} (caller : op.onBehalfOf side) {sid : SessionId}
    (names : op.names = some sid) {s : Session} (hs : r.sessions.get sid = some s) (out : ¬ s.HasSide side) :
    r.perform op = (false, r, []) := by
  cases op with
  | online | offline | touch | dispatchWake | requestConnect => cases names
  | acceptConnect sid' d k =>
    cases names
    cases caller
    rcases r.acceptConnect_cases sid d k with h | ⟨s', hs', hside, -, -⟩
    · exact h
    · cases hs.symm.trans hs'
      exact absurd (.inr hside) out
  | rejectConnect sid' d k reason =>
    cases names
    cases caller
    rcases r.rejectConnect_cases sid d k reason with h | ⟨s', hs', hside, -⟩
    · exact h
    · cases hs.symm.trans hs'
      exact absurd (.inr hside) out
  | relaySignal sid' d k kind payload =>
    cases names
    cases caller
    rcases r.relaySignal_cases sid d k kind payload with h | ⟨s', peer, hs', hp, -⟩
    · exact h
    · cases hs.symm.trans hs'
      exact absurd (peerSlotOf_serves hp).1 out
  | closeSession sid' d k reason =>
    cases names
    cases caller
    rcases r.closeSession_cases sid d k reason with h | ⟨s', peer, hs', hp, -⟩
    · exact h
    · cases hs.symm.trans hs'
      exact absurd (peerSlotOf_serves hp).1 out

end Calls

end Registry

namespace Trace

variable {C J : Type} [DecidableEq C] {t : Trace C J}

/-- In every reachable state and for every call: a message naming a session goes
only to a connection registered for a side of it; and a session the caller takes
no part in stays as it is, is told to its own sides only, and is not reached by
naming it. -/
theorem outsiders_isolated (ht : (registrySystem C J).Reachable t) (op : Op C J) (fresh : t.freshId op) :
    (∀ conn msg sid, .send conn msg ∈ (t.reg.perform op).2.2 → msg.sessionId? = some sid →
      ∃ s, (t.reg.sessions.get sid = some s ∨ (t.perform op).reg.sessions.get sid = some s) ∧
        t.reg.Serves conn s) ∧
      ∀ side sid s, op.onBehalfOf side → t.reg.sessions.get sid = some s → ¬ s.HasSide side →
        (t.perform op).reg.sessions.get sid = some s ∧
          (∀ conn msg, .send conn msg ∈ (t.reg.perform op).2.2 → msg.sessionId? = some sid →
            t.reg.Serves conn s) ∧
          (op.names = some sid → t.reg.perform op = (false, t.reg, [])) := by
  have addressed := t.reg.perform_addressed op
  refine ⟨addressed, fun side sid s caller hs out => ?_⟩
  have hm := sane_of_reachable ht
  have stays : (t.perform op).reg.sessions.get sid = some s :=
    hm.members.perform_outsider caller (hm.free_request fresh) hs out
  refine ⟨stays, fun conn msg hx hmsg => ?_, fun names => Registry.perform_outsider_refused caller names hs out⟩
  obtain ⟨s', hs' | hs', hserves⟩ := addressed conn msg sid hx hmsg
  · cases hs.symm.trans hs'
    exact hserves
  · cases stays.symm.trans hs'
    exact hserves

/-- The host role of a device cannot close a session of its controller role. -/
theorem outsiders_isolated_other_role :
    let t := (registrySystem Nat Unit).after { reg := { opts := { iceServersFor := fun _ => () } } }
      [.online "pc" .host 1 {} 0, .online "phone" .controller 2 {} 0, .online "phone" .host 3 {} 0,
        .requestConnect "s" "phone" .controller "pc" none]
    t.reg.perform (.closeSession "s" "phone" .host none) = (false, t.reg, []) := by
  intro t
  have start : (registrySystem Nat Unit).Reachable { reg := { opts := { iceServersFor := fun _ => () } } } :=
    .init ⟨_, rfl⟩
  have ht : (registrySystem Nat Unit).Reachable t :=
    start.after ⟨trivial, trivial, trivial, List.not_mem_nil, trivial⟩
  have alone := outsiders_isolated ht (.closeSession "s" "phone" .host none) trivial
  exact (alone.2 ("phone", .host) "s" (Registry.newSession "s" "phone" .controller "pc") rfl rfl (by decide)).2.2 rfl

end Trace

end ZortilWatch.Signaling
