import ZortilWatch.Signaling.RegistryIsolation

/-!
# The end of a session

A session leaves the registry by `rejectConnect`, `closeSession` or `offline`,
each made for one of its sides. The call tells the other side once, if it is
still registered (`Registry.perform_closes`). Ids do not come back, so from then
on the session is named by no message and by no call that succeeds
(`closed_once_then_silent`).
-/

namespace ZortilWatch.Signaling

/-- The sides of a session, each once. -/
def Session.sides (s : Session) : List Side :=
  if s.controllerSide = s.hostSide then [s.hostSide] else [s.controllerSide, s.hostSide]

/-- The call ends sessions for one of their sides. -/
def Op.Ends {C J : Type} : Op C J → Side → Prop
  | .rejectConnect _ d k _, side => side = (d, k)
  | .closeSession _ d k _, side => side = (d, k)
  | .offline d k _, side => side = (d, k)
  | _, _ => False

/-- Where the `session_close` messages for `sid` go. -/
def notices {C J : Type} (sid : SessionId) (out : List (Effect C J)) : List C :=
  out.filterMap fun
    | .send conn (.sessionClose sid' _) => if sid' = sid then some conn else none
    | _ => none

section Notices

variable {C J : Type} {sid : SessionId} {out : List (Effect C J)}

theorem notices_append (out' : List (Effect C J)) : notices sid (out ++ out') = notices sid out ++ notices sid out' :=
  List.filterMap_append

/-- Calls that name another session, or none, close nothing of this one. -/
theorem notices_eq_nil (other : ∀ conn msg, .send conn msg ∈ out → msg.sessionId? ≠ some sid) :
    notices sid out = [] := by
  apply List.filterMap_eq_nil_iff.2
  intro x hx
  cases x with
  | send conn msg =>
    cases msg with
    | sessionClose sid' reason =>
      apply if_neg
      rintro rfl
      exact other _ _ hx rfl
    | _ => rfl
  | _ => rfl

end Notices

namespace Registry

variable {C J : Type} {r : Registry C J} {sid : SessionId} {s : Session}

/-- The connection a side is registered with. -/
def connOf (r : Registry C J) (side : Side) : Option C := (r.slot side.1 side.2).map (·.conn)

/-- The sides of `s` to be told of its end when `causer` ends it. -/
def peersOf (r : Registry C J) (s : Session) (causer : Side) : List C :=
  (s.sides.filter (· ≠ causer)).filterMap r.connOf

theorem peersOf_congr {r' : Registry C J} {causer : Side}
    (same : ∀ side, side ≠ causer → r'.connOf side = r.connOf side) :
    r'.peersOf s causer = r.peersOf s causer := by
  apply List.filterMap_congr
  intro side mem
  exact same side (by simpa using (List.mem_filter.1 mem).2)

/-! ## One teardown -/

theorem notices_closeNotice (reason : String) (initiator side : Side) :
    notices sid (r.closeNotice sid reason initiator side) =
      if side = initiator then [] else (r.connOf side).toList := by
  unfold closeNotice sendTo connOf
  split
  · rfl
  · cases r.slot side.1 side.2 with
    | none => rfl
    | some e => simp [notices]

theorem notices_teardown (hs : r.sessions.get sid = some s) {initiator : Side} (member : s.HasSide initiator)
    (reason : String) : notices sid (r.teardown sid reason initiator).2 = r.peersOf s initiator := by
  have audit : notices sid
      (if s.status = .ready then [.sessionEnd (s.audit sid)] else [] : List (Effect C J)) = [] := by
    split <;> rfl
  rw [teardown_of_get r hs]
  simp only [notices_append, audit, notices_closeNotice, peersOf, Session.sides, List.nil_append]
  rcases member with rfl | rfl
  · by_cases same : s.controllerSide = s.hostSide
    · simp [same]
    · cases hc : r.connOf s.hostSide <;> simp [same, Ne.symm same, hc]
  · by_cases same : s.controllerSide = s.hostSide
    · simp [same]
    · cases hc : r.connOf s.controllerSide <;> simp [same, hc]

theorem notices_teardown_other {sid' : SessionId} (other : sid' ≠ sid) (reason : String) (initiator : Side) :
    notices sid (r.teardown sid' reason initiator).2 = [] := by
  apply notices_eq_nil
  intro conn msg sent
  obtain ⟨s', -, ⟨h, -⟩ | ⟨side, e, -, -, -, h⟩⟩ := r.mem_teardown_out sent
  · cases h
  · cases h
    simp [ServerMessage.sessionId?, other]

theorem connOf_teardown (reason : String) (initiator side : Side) :
    (r.teardown sid reason initiator).1.connOf side = r.connOf side :=
  slot_teardown_conn r sid reason initiator side.1 side.2

/-- A teardown for `side`, behind messages that name no session, tells the other side
of the session it ends. -/
theorem closes_torn (hs : r.sessions.get sid = some s) {sid' : SessionId} {side : Side} {reason : String}
    {told : List (Effect C J)} {s' : Session} (hs' : r.sessions.get sid' = some s') (member : s'.HasSide side)
    (unnamed : notices sid told = []) (gone : (r.teardown sid' reason side).1.sessions.get sid = none) :
    s.HasSide side ∧
      notices sid (told ++ (r.teardown sid' reason side).2) = (r.teardown sid' reason side).1.peersOf s side := by
  have same : sid' = sid := by
    by_contra other
    rw [get_teardown, if_neg other, hs] at gone
    cases gone
  subst same
  cases hs.symm.trans hs'
  refine ⟨member, ?_⟩
  rw [notices_append, unnamed, notices_teardown hs member, List.nil_append]
  exact (peersOf_congr fun side _ => connOf_teardown reason _ side).symm

/-! ## A list of teardowns -/

theorem notices_teardownAll (hs : r.sessions.get sid = some s) {initiator : Side} (member : s.HasSide initiator)
    (reason : String) {sids : List SessionId} (listed : sid ∈ sids) :
    notices sid (teardownAll reason initiator r sids).2 = r.peersOf s initiator := by
  -- until its turn comes the session is open, and nothing told of it
  let Told (r' : Registry C J) (out : List (Effect C J)) : Prop :=
    (∀ side, r'.connOf side = r.connOf side) ∧
      (r'.sessions.get sid = some s ∧ notices sid out = [] ∨
        r'.sessions.get sid = none ∧ notices sid out = r.peersOf s initiator)
  have loop : Told (teardownAll reason initiator r sids).1 (teardownAll reason initiator r sids).2 := by
    refine teardownAll_induct (fun r' out sid' _ told => ?_) ⟨fun _ => rfl, .inl ⟨hs, rfl⟩⟩
    obtain ⟨conns, told⟩ := told
    refine ⟨fun side => (connOf_teardown reason initiator side).trans (conns side), ?_⟩
    rw [notices_append, get_teardown]
    by_cases same : sid' = sid
    · subst same
      refine .inr ⟨if_pos rfl, ?_⟩
      rcases told with ⟨still, untold⟩ | ⟨gone, told⟩
      · rw [untold, notices_teardown still member, List.nil_append]
        exact peersOf_congr fun side _ => conns side
      · rw [told, teardown_of_none r' gone]
        exact List.append_nil _
    · rw [if_neg same, notices_teardown_other same, List.append_nil]
      exact told
  have gone : (teardownAll reason initiator r sids).1.sessions.get sid = none := by
    rw [get_teardownAll, if_pos listed]
  rcases loop.2 with ⟨still, -⟩ | ⟨-, told⟩
  · rw [gone] at still
    cases still
  · exact told

/-! ## Every call -/

section Calls

variable [DecidableEq C]

/-- A call that is made to end nothing leaves a session open. -/
theorem open_of_no_ends (hs : r.sessions.get sid = some s) (op : Op C J) (harmless : ∀ side, ¬ op.Ends side) :
    ((r.perform op).2.1.sessions.get sid).isSome := by
  have still : (r.sessions.get sid).isSome := Option.isSome_of_eq_some hs
  cases op with
  | offline d k guard => exact absurd rfl (harmless (d, k))
  | rejectConnect sid' d k reason => exact absurd rfl (harmless (d, k))
  | closeSession sid' d k reason => exact absurd rfl (harmless (d, k))
  | online | dispatchWake => exact still
  | touch d now => simpa [Registry.perform, touch] using still
  | requestConnect sid' d k t pk =>
    rcases r.requestConnect_cases sid' d k t pk with ⟨_, h⟩ | ⟨_, -, -, h⟩ <;> simp only [Registry.perform, h]
    · exact still
    · rw [sessions_granted, JsMap.get_set]
      split
      · rfl
      · exact still
  | acceptConnect sid' d k =>
    rcases r.acceptConnect_cases sid' d k with h | ⟨s', hs', -, -, h⟩ <;> simp only [Registry.perform, h]
    · exact still
    · rw [JsMap.get_set]
      split
      · rfl
      · exact still
  | relaySignal sid' d k kind payload =>
    rcases r.relaySignal_cases sid' d k kind payload with h | ⟨_, _, -, -, h⟩ <;>
      simp only [Registry.perform, h] <;> exact still

/-- A call after which a session is gone ends it for one of its sides and tells
the other. -/
theorem Members.perform_closes (hm : r.Members) {op : Op C J} (hs : r.sessions.get sid = some s)
    (gone : (r.perform op).2.1.sessions.get sid = none) : ∃ causer, op.Ends causer ∧ s.HasSide causer ∧
      notices sid (r.perform op).2.2 = (r.perform op).2.1.peersOf s causer := by
  have kept {P : Prop} {r' : Registry C J} (gone : r'.sessions.get sid = none) (same : r'.sessions.get sid = some s) :
      P := by
    rw [gone] at same
    cases same
  by_cases harmless : ∀ side, ¬ op.Ends side
  · have still := open_of_no_ends hs op harmless
    rw [gone] at still
    cases still
  cases op with
  | offline d k guard =>
    rcases r.offline_cases d k guard with h | ⟨e, he, -, h⟩ <;> simp only [Registry.perform, h] at gone ⊢
    · exact kept gone hs
    · have listed : sid ∈ e.sessions.elems := by
        by_contra unlisted
        exact kept gone (by rw [get_teardownAll, if_neg unlisted, sessions_dropSlot, hs])
      obtain ⟨s', hs', member⟩ := hm d k e sid he listed
      cases hs.symm.trans hs'
      refine ⟨(d, k), rfl, member, ?_⟩
      rw [notices_teardownAll (by rw [sessions_dropSlot, hs]) member _ listed]
      exact (peersOf_congr fun side _ => slot_teardownAll_conn _ _ _ _ side.1 side.2).symm
  | rejectConnect sid' d k reason =>
    rcases r.rejectConnect_cases sid' d k reason with h | ⟨s', hs', side, h⟩ <;>
      simp only [Registry.perform, h] at gone ⊢
    · exact kept gone hs
    · refine ⟨(d, k), rfl, closes_torn hs hs' (.inr side) (notices_eq_nil fun conn msg sent => ?_) gone⟩
      obtain ⟨e, -, h⟩ := r.mem_sendTo.1 sent
      cases h
      simp [ServerMessage.sessionId?]
  | closeSession sid' d k reason =>
    rcases r.closeSession_cases sid' d k reason with h | ⟨s', peer, hs', hp, h⟩ <;>
      simp only [Registry.perform, h] at gone ⊢
    · exact kept gone hs
    · have nothing : notices sid ([] : List (Effect C J)) = [] := rfl
      exact ⟨(d, k), rfl, closes_torn hs hs' (peerSlotOf_serves hp).1 nothing gone⟩
  | _ => exact absurd (fun _ => id) harmless

/-- A call that closes a session for anyone removes it. -/
theorem notices_of_open (op : Op C J) (still : ((r.perform op).2.1.sessions.get sid).isSome) :
    notices sid (r.perform op).2.2 = [] := by
  have other {sid' : SessionId} {reason : String} {side : Side}
      (still : ((r.teardown sid' reason side).1.sessions.get sid).isSome) :
      notices sid (r.teardown sid' reason side).2 = [] := by
    apply notices_teardown_other
    rintro rfl
    simp [get_teardown] at still
  cases op with
  | online d k conn info now =>
    apply notices_eq_nil
    intro conn' msg sent
    obtain ⟨c, reason, h⟩ := r.mem_online_out d k conn info now sent
    cases h
  | offline d k guard =>
    rcases r.offline_cases d k guard with h | ⟨e, -, -, h⟩ <;> simp only [perform, h] at still ⊢
    · rfl
    · let Closes (r' : Registry C J) (out : List (Effect C J)) : Prop :=
        (r'.sessions.get sid).isSome → notices sid out = []
      refine (?_ : Closes _ _) still
      refine teardownAll_induct (fun r' out sid' _ closes still => ?_) fun _ => rfl
      have before : (r'.sessions.get sid).isSome := open_of_teardown still
      rw [notices_append, closes before, List.nil_append]
      apply notices_teardown_other
      rintro rfl
      simp [get_teardown] at still
  | touch d now => rfl
  | dispatchWake d target mac wanIp accountId =>
    apply notices_eq_nil
    intro conn msg sent
    obtain ⟨c, mac, h⟩ := r.mem_dispatchWake_out sent
    cases h
    simp [ServerMessage.sessionId?]
  | requestConnect sid' d k t pk =>
    rcases r.requestConnect_cases sid' d k t pk with ⟨_, h⟩ | ⟨_, -, -, h⟩ <;> simp only [perform, h] <;> rfl
  | acceptConnect sid' d k =>
    rcases r.acceptConnect_cases sid' d k with h | ⟨s', -, -, -, h⟩ <;> simp only [perform, h]
    · rfl
    · unfold acceptOut sendTo
      cases r.slot s'.hostSide.1 s'.hostSide.2 <;> cases r.slot s'.controllerSide.1 s'.controllerSide.2 <;> rfl
  | rejectConnect sid' d k reason =>
    rcases r.rejectConnect_cases sid' d k reason with h | ⟨s', -, -, h⟩ <;> simp only [perform, h] at still ⊢
    · rfl
    · rw [notices_append, other still, List.append_nil]
      unfold sendTo
      cases r.slot s'.controllerSide.1 s'.controllerSide.2 <;> rfl
  | relaySignal sid' d k kind payload =>
    rcases r.relaySignal_cases sid' d k kind payload with h | ⟨_, _, -, -, h⟩ <;> simp only [perform, h] <;> rfl
  | closeSession sid' d k reason =>
    rcases r.closeSession_cases sid' d k reason with h | ⟨_, _, -, -, h⟩ <;> simp only [perform, h] at still ⊢
    · rfl
    · exact other still

/-- A call that names a session that is not open returns false. -/
theorem perform_unknown {op : Op C J} (names : op.names = some sid) (gone : r.sessions.get sid = none) :
    (r.perform op).1 = false := by
  cases op with
  | online | offline | touch | dispatchWake | requestConnect => cases names
  | acceptConnect | rejectConnect | relaySignal | closeSession =>
    cases names
    simp [perform, acceptConnect, rejectConnect, relaySignal, closeSession, gone]

end Calls

end Registry

/-! ## Runs -/

namespace Trace

variable {C J : Type} [DecidableEq C] {t : Trace C J} {sid : SessionId}

/-- The session was opened and is no more. -/
structure Gone (sid : SessionId) (t : Trace C J) : Prop where
  issued : sid ∈ t.issued
  closed : t.reg.sessions.get sid = none

/-- The call sends nothing about the session and does nothing that names it. -/
structure Silent (sid : SessionId) (t : Trace C J) (op : Op C J) : Prop where
  unsent : ∀ conn msg, .send conn msg ∈ (t.reg.perform op).2.2 → msg.sessionId? ≠ some sid
  refused : op.names = some sid → (t.reg.perform op).1 = false

theorem Gone.step (gone : t.Gone sid) {op : Op C J} (fresh : t.freshId op) : (t.perform op).Gone sid where
  issued := t.issued_mono op gone.issued
  closed := by
    rw [Option.eq_none_iff_forall_not_mem]
    intro s back
    rcases t.reg.perform_opens op (Option.isSome_of_eq_some back) with h | ⟨d, k, target, pk, rfl, -⟩
    · simp [gone.closed] at h
    · exact fresh gone.issued

theorem Gone.silent (gone : t.Gone sid) {op : Op C J} (fresh : t.freshId op) : t.Silent sid op where
  unsent conn msg sent named := by
    obtain ⟨s, hs | hs, -⟩ := t.reg.perform_addressed op conn msg sid sent named
    · rw [gone.closed] at hs
      cases hs
    · have closed : (t.reg.perform op).2.1.sessions.get sid = none := (gone.step fresh).closed
      rw [closed] at hs
      cases hs
  refused names := Registry.perform_unknown names gone.closed

theorem Gone.silent_throughout (gone : t.Gone sid) {ops : List (Op C J)} (hv : (registrySystem C J).Valid t ops) :
    (registrySystem C J).AllSteps (Silent sid) t ops :=
  System.allSteps_of_rest (I := fun t _ => t.Gone sid) (fun _ _ _ fresh gone => ⟨gone.silent fresh, gone.step fresh⟩)
    hv gone

/-- Nobody was told of the end of a session that is open, or never was. -/
def ToldOfGone (t : Trace C J) : Prop := ∀ sid, notices sid t.log ≠ [] → t.Gone sid

theorem ToldOfGone.step (sane : t.Sane) (told : t.ToldOfGone) {op : Op C J} (fresh : t.freshId op) :
    (t.perform op).ToldOfGone := by
  intro sid some_told
  have log : (t.perform op).log = t.log ++ (t.reg.perform op).2.2 := rfl
  rw [log, notices_append] at some_told
  by_cases before : notices sid t.log = []
  · rw [before, List.nil_append] at some_told
    have closed : (t.perform op).reg.sessions.get sid = none := by
      by_contra still
      exact some_told (Registry.notices_of_open op (Option.isSome_iff_ne_none.2 still))
    refine ⟨?_, closed⟩
    by_contra unissued
    -- an id that was not handed out names no session, before or after
    apply some_told
    apply notices_eq_nil
    intro conn msg sent named
    obtain ⟨s, hs | hs, -⟩ := t.reg.perform_addressed op conn msg sid sent named
    · exact unissued (t.issued_mono op (sane.issued sid (Option.isSome_of_eq_some hs)))
    · exact unissued ((sane.perform fresh).issued sid (Option.isSome_of_eq_some hs))
  · exact (told sid before).step fresh

theorem toldOfGone_of_reachable (ht : (registrySystem C J).Reachable t) : t.ToldOfGone := by
  refine System.Reachable.invariant (fun t0 h0 => ?_) (fun t0 op hr told fresh => ?_) ht
  · obtain ⟨opts, rfl⟩ := h0
    exact fun sid some_told => absurd rfl some_told
  · exact told.step (sane_of_reachable hr) fresh

/-- In every run, a call after which an open session is gone ends it for one of
its sides; nobody was told of its end before, this call tells the other side once
if it is still registered, and from then on no message is about the session and
no call that names it succeeds. -/
theorem closed_once_then_silent (ht : (registrySystem C J).Reachable t) (op : Op C J) {s : Session}
    (hs : t.reg.sessions.get sid = some s) (gone : (t.perform op).reg.sessions.get sid = none) :
    notices sid t.log = [] ∧
      (∃ causer, op.Ends causer ∧ s.HasSide causer ∧
        notices sid (t.reg.perform op).2.2 = (t.perform op).reg.peersOf s causer) ∧
      ∀ ops, (registrySystem C J).Valid (t.perform op) ops →
        (registrySystem C J).AllSteps (Silent sid) (t.perform op) ops := by
  have sane := sane_of_reachable ht
  refine ⟨?_, sane.members.perform_closes hs gone, fun ops hv => ?_⟩
  · by_contra some_told
    rw [(toldOfGone_of_reachable ht sid some_told).closed] at hs
    cases hs
  · have issued : sid ∈ t.issued := sane.issued sid (Option.isSome_of_eq_some hs)
    exact Gone.silent_throughout ⟨t.issued_mono op issued, gone⟩ hv

/-- A device that controls itself ends its session, and the host role hears of it. -/
theorem closed_once_then_silent_self :
    let t := (registrySystem Nat Unit).after { reg := { opts := { iceServersFor := fun _ => () } } }
      [.online "pc" .host 1 {} 0, .online "pc" .controller 2 {} 0, .requestConnect "s" "pc" .controller "pc" none]
    notices "s" (t.reg.perform (.offline "pc" .controller none)).2.2 = [1] ∧
      (registrySystem Nat Unit).AllSteps (Silent "s") (t.perform (.offline "pc" .controller none))
        [.closeSession "s" "pc" .host none] := by
  intro t
  have start : (registrySystem Nat Unit).Reachable { reg := { opts := { iceServersFor := fun _ => () } } } :=
    .init ⟨_, rfl⟩
  have ht : (registrySystem Nat Unit).Reachable t := start.after ⟨trivial, trivial, List.not_mem_nil, trivial⟩
  have hs : t.reg.sessions.get "s" = some (Registry.newSession "s" "pc" .controller "pc") := rfl
  have ended := closed_once_then_silent ht (.offline "pc" .controller none) hs rfl
  obtain ⟨-, ⟨causer, rfl, -, told⟩, silent⟩ := ended
  exact ⟨told.trans (by decide), silent _ ⟨trivial, trivial⟩⟩

end Trace

end ZortilWatch.Signaling
