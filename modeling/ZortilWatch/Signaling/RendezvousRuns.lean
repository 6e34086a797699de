import ZortilWatch.Lib.Refinement
import ZortilWatch.Signaling.RendezvousRefinement

/-!
# Runs of the registry and of the rendezvous server

Call for call the registry answers what the abstract server answers
(`Refines.sameCall`), as long as sessions are requested under fresh ids by
registered roles. So the two answer every such run alike, magic packets included
(`registry_refines_rendezvous`): the slots and their sets of ids are an index and
nothing more.
-/

namespace ZortilWatch.Signaling

/-! ## Both sides of a session -/

namespace Rendezvous

variable {C J : Type} {v : Rendezvous C J}

/-- Fewer sessions, and as many roles. -/
theorem Joined.of_subset (joined : v.Joined) {v' : Rendezvous C J} (sessions : ∀ s ∈ v'.sessions, s ∈ v.sessions)
    (reached : ∀ side, (v.reached side).isSome → (v'.reached side).isSome) : v'.Joined :=
  fun s hs side member => reached side (joined s (sessions s hs) side member)

theorem Joined.without (joined : v.Joined) (sids : List SessionId) : (v.without sids).Joined :=
  joined.of_subset (fun _ hs => (List.mem_filter.1 hs).1) fun _ => id

/-- A write to one role keeps the others. -/
theorem isSome_update {reached : Side → Option (Presence C)} {side side' : Side} {p : Option (Presence C)}
    (kept : (reached side).isSome → p.isSome) (h : (reached side').isSome) :
    (Function.update reached side p side').isSome := by
  by_cases same : side' = side
  · subst same
    rw [Function.update_self]
    exact kept h
  · rw [Function.update_of_ne same]
    exact h

theorem Joined.seen (joined : v.Joined) (side : Side) (now : Nat) : (v.seen side now).Joined := by
  refine joined.of_subset (fun _ => id) fun side' => isSome_update fun h => ?_
  rw [Option.isSome_map]
  exact h

variable [DecidableEq C]

theorem Joined.online (joined : v.Joined) (side : Side) (conn : C) (info : SlotMeta) (now : Nat) :
    (v.online side conn info now).1.Joined :=
  joined.of_subset (fun _ => id) fun _ => isSome_update fun _ => rfl

/-- A role that goes takes its sessions with it. -/
theorem Joined.offline (joined : v.Joined) (side : Side) (guard : Option C) : (v.offline side guard).1.Joined := by
  unfold Rendezvous.offline
  split
  · exact joined
  · split
    · exact joined
    · intro s hs side' member
      obtain ⟨listed, kept⟩ := List.mem_filter.1 hs
      have other : side' ≠ side := by
        rintro rfl
        have ended : s.id ∈ (sessionsOf side' v.sessions).map (·.id) :=
          List.mem_map_of_mem (mem_sessionsOf.2 ⟨listed, member⟩)
        exact of_decide_eq_true kept ended
      show (Function.update v.reached side none side').isSome
      rw [Function.update_of_ne other]
      exact joined s listed side' member

omit [DecidableEq C] in
theorem Joined.request (joined : v.Joined) (sid : SessionId) {d : DeviceId} {k : DeviceKind}
    (caller : (v.reached (d, k)).isSome) (target : DeviceId) (pk : Option PasswordKind) :
    (v.request sid d k target pk).2.1.Joined := by
  unfold Rendezvous.request
  split
  · exact joined
  · rename_i host hr
    split
    · exact joined
    · intro s hs side member
      rcases List.mem_append.1 hs with old | new
      · exact joined s old side member
      · rw [List.mem_singleton.1 new] at member
        rcases member with rfl | rfl
        · exact caller
        · exact Option.isSome_of_eq_some hr

omit [DecidableEq C] in
theorem Joined.withStatus (joined : v.Joined) (sid : SessionId) (st : SessionStatus) : Joined
    { v with sessions := v.sessions.map fun t => if t.id = sid then { t with status := st } else t } := by
  intro s hs side member
  obtain ⟨t, ht, rfl⟩ := List.mem_map.1 hs
  refine joined t ht side ?_
  split at member <;> exact member

end Rendezvous

/-! ## Calls -/

/-- What the surroundings of the registry can tell a call by: what it answers, the
calls it makes, and what `presence` and `helpersOnNetwork` answer afterwards, whatever
they are asked. -/
structure Answer (C J : Type) where
  reply : Rendezvous.Reply
  calls : List (Effect C J)
  presence : List DeviceId → List PresenceEntry
  helpers : Option String → DeviceId → Option String → Nat

namespace Registry

variable {C J : Type} [DecidableEq C]

def reply (r : Registry C J) : Op C J → Rendezvous.Reply
  | .requestConnect sid d k target pk => .asked (r.requestConnect sid d k target pk).1
  | .dispatchWake _ target mac wanIp accountId =>
    let outcome := (r.dispatchWake target mac wanIp accountId).1
    .woken outcome.1 outcome.2
  | op => .done (r.perform op).1

end Registry

section Calls

variable {C J : Type} {r : Registry C J} {v : Rendezvous C J}

/-- What a call returns, does and makes is what the abstract server does. -/
structure SameCall [DecidableEq C] (r : Registry C J) (v : Rendezvous C J) (op : Op C J) : Prop where
  reply : r.reply op = (v.perform op).1
  calls : (r.perform op).2.2 = (v.perform op).2.2
  refines : Refines (r.perform op).2.1 (v.perform op).2.1
  joined : (v.perform op).2.1.Joined

theorem Refines.presence (h : Refines r v) : r.presence = v.presence := by
  funext ids
  unfold Registry.presence Rendezvous.presence
  refine List.map_congr_left fun id _ => ?_
  have held := h.reached id .host
  rw [held]
  cases hr : r.slot id .host with
  | none => rfl
  | some host =>
    have busy : decide (host.sessions.size > 0) = decide (sessionsOf (id, DeviceKind.host) v.sessions ≠ []) := by
      rw [h.full hr]
      exact decide_eq_decide.2 List.length_pos_iff
    dsimp only [Option.map_some]
    rw [busy]

/-- Both count the same helpers. -/
theorem Refines.helpersOnNetwork (h : Refines r v) (wanIp : Option String) (exceptId : DeviceId)
    (accountId : Option String) :
    r.helpersOnNetwork wanIp exceptId accountId = (v.helpers wanIp exceptId accountId).length := by
  rw [← h.helpers, List.length_filterMap_eq_countP]
  unfold Registry.helpersOnNetwork
  split
  · simp
  · simp
  · rename_i ip known
    rw [← List.countP_eq_length_filter]
    refine List.countP_congr fun d _ => ?_
    rw [← Registry.isSome_helperConn]
    by_cases same : d.1 = exceptId
    · simp [same]
    · simp [same, show ip ≠ "" from known]

/-- A call that does nothing on either side. -/
theorem Refines.same_nothing (h : Refines r v) (joined : v.Joined) {x : Bool × Registry C J × List (Effect C J)}
    {y : Bool × Rendezvous C J × List (Effect C J)} (code : x = (false, r, [])) (service : y = (false, v, [])) :
    x.1 = y.1 ∧ x.2.2 = y.2.2 ∧ Refines x.2.1 y.2.1 ∧ y.2.1.Joined := by
  rw [code, service]
  exact ⟨rfl, rfl, h, joined⟩

variable [DecidableEq C]

theorem Refines.sameCall_request (h : Refines r v) (joined : v.Joined) {sid : SessionId} {d : DeviceId}
    {k : DeviceKind} {target : DeviceId} {pk : Option PasswordKind} (fresh : r.sessions.get sid = none)
    (caller : (r.slot d k).isSome) : SameCall r v (.requestConnect sid d k target pk) := by
  have reached : (v.reached (d, k)).isSome := by
    rw [h.isSome_reached]
    exact caller
  have held := h.reached target .host
  have still : (v.perform (.requestConnect sid d k target pk)).2.1.Joined := joined.request sid reached target pk
  suffices same : (r.requestConnect sid d k target pk).1 = (v.request sid d k target pk).1 ∧
      (r.requestConnect sid d k target pk).2.2 = (v.request sid d k target pk).2.2 ∧
      Refines (r.requestConnect sid d k target pk).2.1 (v.request sid d k target pk).2.1 from
    ⟨congrArg Rendezvous.Reply.asked same.1, same.2.1, same.2.2, still⟩
  cases hr : r.slot target .host with
  | none =>
    rw [hr, Option.map_none] at held
    have refused : r.requestConnect sid d k target pk = ({ ok := false, code := some .offline }, r, []) := by
      simp [Registry.requestConnect, hr]
    have offline : v.request sid d k target pk = ({ ok := false, code := some .offline }, v, []) := by
      simp [Rendezvous.request, held]
    rw [refused, offline]
    exact ⟨rfl, rfl, h⟩
  | some host =>
    rw [hr, Option.map_some] at held
    have many := h.full hr
    by_cases busy : host.sessions.size ≥ r.opts.maxInboundPerHost
    · have refused : r.requestConnect sid d k target pk = ({ ok := false, code := some .busy }, r, []) := by
        simp [Registry.requestConnect, hr, busy]
      have full : v.request sid d k target pk = ({ ok := false, code := some .busy }, v, []) := by
        simp only [Rendezvous.request, held, h.opts, ← many]
        exact if_pos busy
      rw [refused, full]
      exact ⟨rfl, rfl, h⟩
    · have granted : r.requestConnect sid d k target pk =
          ({ ok := true, sessionId := some sid }, r.granted sid d k target,
            [.send host.conn (.incomingRequest sid .controller pk (r.opts.iceServersFor target))]) := by
        simp [Registry.requestConnect, hr, busy, Registry.granted, Registry.newSession]
      have opened : v.request sid d k target pk =
          ({ ok := true, sessionId := some sid },
            { v with sessions := v.sessions ++ [Registry.newSession sid d k target] },
            [.send host.conn (.incomingRequest sid .controller pk (r.opts.iceServersFor target))]) := by
        simp only [Rendezvous.request, held, h.opts, ← many]
        exact if_neg busy
      rw [granted, opened]
      exact ⟨rfl, rfl, h.granted fresh d k target⟩

theorem Refines.sameCall_wake (h : Refines r v) (joined : v.Joined) (d target : DeviceId)
    (mac wanIp accountId : Option String) : SameCall r v (.dispatchWake d target mac wanIp accountId) := by
  suffices same : Rendezvous.Reply.woken (r.dispatchWake target mac wanIp accountId).1.1
        (r.dispatchWake target mac wanIp accountId).1.2 = (v.wake target mac wanIp accountId).1 ∧
      (r.dispatchWake target mac wanIp accountId).2 = (v.wake target mac wanIp accountId).2 from
    ⟨same.1, same.2, h, joined⟩
  have found := h.helpers wanIp target accountId
  unfold Registry.dispatchWake Rendezvous.wake
  split
  · exact ⟨rfl, rfl⟩
  · exact ⟨rfl, rfl⟩
  · rename_i mac given
    have given : (some mac).filter (fun m => decide (m ≠ "")) = some mac := by
      simpa using given
    dsimp only
    rw [given, found]
    by_cases nobody : v.helpers wanIp target accountId = []
    · simp [nobody]
    · simp [nobody]

theorem Refines.sameCall_accept (h : Refines r v) (joined : v.Joined) (sid : SessionId) (d : DeviceId)
    (k : DeviceKind) : SameCall r v (.acceptConnect sid d k) := by
  suffices same : (r.acceptConnect sid d k).1 = (v.accept sid (d, k)).1 ∧
      (r.acceptConnect sid d k).2.2 = (v.accept sid (d, k)).2.2 ∧
      Refines (r.acceptConnect sid d k).2.1 (v.accept sid (d, k)).2.1 ∧ (v.accept sid (d, k)).2.1.Joined from
    ⟨congrArg Rendezvous.Reply.done same.1, same.2.1, same.2.2.1, same.2.2.2⟩
  have found := h.get sid
  cases hs : v.find sid with
  | none =>
    have unknown : r.acceptConnect sid d k = (false, r, []) := by simp [Registry.acceptConnect, found, hs]
    have nothing : v.accept sid (d, k) = (false, v, []) := by simp [Rendezvous.accept, hs]
    exact h.same_nothing joined unknown nothing
  | some s =>
    rw [hs] at found
    have who : s.hostId ≠ d ∨ k ≠ .host ∨ s.status ≠ .pending ↔ ¬ (s.hostSide = (d, k) ∧ s.status = .pending) := by
      rw [Session.hostSide, Prod.mk.injEq]
      tauto
    by_cases waits : s.hostSide = (d, k) ∧ s.status = .pending
    · let ready := v.sessions.map fun t => if t.id = sid then { t with status := .ready } else t
      have agreed : r.acceptConnect sid d k =
          (true, { r with sessions := r.sessions.set sid { s with status := .ready } }, r.acceptOut sid s) := by
        unfold Registry.acceptConnect
        rw [found]
        exact if_neg (mt who.1 (not_not_intro waits))
      have accepted : v.accept sid (d, k) = (true, { v with sessions := ready },
          .sessionStart (s.audit sid) ::
            (v.tell s.hostSide (.connectReady sid .offerer .controller (v.opts.iceServersFor s.hostId)) ++
              v.tell s.controllerSide (.connectReady sid .answerer .host (v.opts.iceServersFor s.controllerId)))) := by
        unfold Rendezvous.accept
        rw [hs]
        exact if_pos waits
      rw [agreed, accepted]
      refine ⟨rfl, ?_, h.withStatus hs .ready, joined.withStatus sid .ready⟩
      show r.acceptOut sid s = _
      unfold Registry.acceptOut
      rw [h.sendTo, h.sendTo, h.opts]
    · have refused : r.acceptConnect sid d k = (false, r, []) := by
        unfold Registry.acceptConnect
        rw [found]
        exact if_pos (who.2 waits)
      have nothing : v.accept sid (d, k) = (false, v, []) := by
        unfold Rendezvous.accept
        rw [hs]
        exact if_neg waits
      exact h.same_nothing joined refused nothing

theorem Refines.sameCall_reject (h : Refines r v) (joined : v.Joined) (sid : SessionId) (d : DeviceId)
    (k : DeviceKind) (reason : Option String) : SameCall r v (.rejectConnect sid d k reason) := by
  suffices same : (r.rejectConnect sid d k reason).1 = (v.reject sid (d, k) reason).1 ∧
      (r.rejectConnect sid d k reason).2.2 = (v.reject sid (d, k) reason).2.2 ∧
      Refines (r.rejectConnect sid d k reason).2.1 (v.reject sid (d, k) reason).2.1 ∧
      (v.reject sid (d, k) reason).2.1.Joined from
    ⟨congrArg Rendezvous.Reply.done same.1, same.2.1, same.2.2.1, same.2.2.2⟩
  have found := h.get sid
  cases hs : v.find sid with
  | none =>
    have unknown : r.rejectConnect sid d k reason = (false, r, []) := by simp [Registry.rejectConnect, found, hs]
    have nothing : v.reject sid (d, k) reason = (false, v, []) := by simp [Rendezvous.reject, hs]
    exact h.same_nothing joined unknown nothing
  | some s =>
    rw [hs] at found
    have who : s.hostId ≠ d ∨ k ≠ .host ↔ ¬ s.hostSide = (d, k) := by
      rw [Session.hostSide, Prod.mk.injEq]
      tauto
    by_cases host : s.hostSide = (d, k)
    · obtain ⟨torn, said⟩ := h.teardown hs (reason.getD "rejected") (d, k)
      have refused : r.rejectConnect sid d k reason =
          (true, (r.teardown sid (reason.getD "rejected") (d, k)).1,
            r.sendTo s.controllerSide (.connectErr .forbidden none none) ++
              (r.teardown sid (reason.getD "rejected") (d, k)).2) := by
        unfold Registry.rejectConnect
        rw [found]
        exact if_neg (mt who.1 (not_not_intro host))
      have ended : v.reject sid (d, k) reason =
          (true, v.without [sid], v.tell s.controllerSide (.connectErr .forbidden none none) ++
            v.closing (reason.getD "rejected") (d, k) s) := by
        unfold Rendezvous.reject
        rw [hs]
        exact if_pos host
      rw [refused, ended]
      refine ⟨rfl, ?_, torn, joined.without [sid]⟩
      dsimp only
      rw [said, h.sendTo]
    · have outsider : r.rejectConnect sid d k reason = (false, r, []) := by
        unfold Registry.rejectConnect
        rw [found]
        exact if_pos (who.2 host)
      have nothing : v.reject sid (d, k) reason = (false, v, []) := by
        unfold Rendezvous.reject
        rw [hs]
        exact if_neg host
      exact h.same_nothing joined outsider nothing

theorem Refines.sameCall_relay (h : Refines r v) (joined : v.Joined) (sid : SessionId) (d : DeviceId)
    (k : DeviceKind) (kind : SignalKind) (payload : J) : SameCall r v (.relaySignal sid d k kind payload) := by
  suffices same : (r.relaySignal sid d k kind payload).1 = (v.relay sid (d, k) kind payload).1 ∧
      (r.relaySignal sid d k kind payload).2.2 = (v.relay sid (d, k) kind payload).2 ∧
      (r.relaySignal sid d k kind payload).2.1 = r by
    refine ⟨congrArg Rendezvous.Reply.done same.1, same.2.1, ?_, joined⟩
    show Refines (r.relaySignal sid d k kind payload).2.1 v
    rw [same.2.2]
    exact h
  have found := h.get sid
  cases hs : v.find sid with
  | none => simp [Registry.relaySignal, Rendezvous.relay, found, hs]
  | some s =>
    have other := h.peer s d k
    cases hp : r.peerSlotOf s d k with
    | none =>
      rw [hp, Option.map_none, Option.map_eq_none_iff] at other
      simp [Registry.relaySignal, Rendezvous.relay, found, hs, hp, other]
    | some e =>
      rw [hp, Option.map_some, Option.map_eq_some_iff] at other
      obtain ⟨p, hp', same⟩ := other
      simp [Registry.relaySignal, Rendezvous.relay, found, hs, hp, hp', same]

theorem Refines.sameCall_close (h : Refines r v) (joined : v.Joined) (sid : SessionId) (d : DeviceId)
    (k : DeviceKind) (reason : Option String) : SameCall r v (.closeSession sid d k reason) := by
  suffices same : (r.closeSession sid reason d k).1 = (v.close sid (d, k) reason).1 ∧
      (r.closeSession sid reason d k).2.2 = (v.close sid (d, k) reason).2.2 ∧
      Refines (r.closeSession sid reason d k).2.1 (v.close sid (d, k) reason).2.1 ∧
      (v.close sid (d, k) reason).2.1.Joined from
    ⟨congrArg Rendezvous.Reply.done same.1, same.2.1, same.2.2.1, same.2.2.2⟩
  have found := h.get sid
  cases hs : v.find sid with
  | none =>
    have unknown : r.closeSession sid reason d k = (false, r, []) := by simp [Registry.closeSession, found, hs]
    have nothing : v.close sid (d, k) reason = (false, v, []) := by simp [Rendezvous.close, hs]
    exact h.same_nothing joined unknown nothing
  | some s =>
    rw [hs] at found
    have other := congrArg Option.isSome (h.peer s d k)
    rw [Option.isSome_map, Option.isSome_map] at other
    cases hp : r.peerSlotOf s d k with
    | none =>
      rw [hp] at other
      have outsider : r.closeSession sid reason d k = (false, r, []) := by
        simp [Registry.closeSession, found, hp]
      have nothing : v.close sid (d, k) reason = (false, v, []) := by
        unfold Rendezvous.close
        rw [hs]
        exact if_neg (Bool.eq_false_iff.1 other)
      exact h.same_nothing joined outsider nothing
    | some e =>
      rw [hp] at other
      obtain ⟨torn, said⟩ := h.teardown hs (reason.getD "closed") (d, k)
      have closed : r.closeSession sid reason d k = (true, (r.teardown sid (reason.getD "closed") (d, k)).1,
          (r.teardown sid (reason.getD "closed") (d, k)).2) := by
        simp [Registry.closeSession, found, hp]
      have ended : v.close sid (d, k) reason =
          (true, v.without [sid], v.closing (reason.getD "closed") (d, k) s) := by
        unfold Rendezvous.close
        rw [hs]
        exact if_pos other
      rw [closed, ended]
      exact ⟨rfl, said, torn, joined.without [sid]⟩

/-- Every call, made where `requestConnect` gets a fresh id and a registered caller. -/
theorem Refines.sameCall (h : Refines r v) (joined : v.Joined) (op : Op C J)
    (fresh : ∀ sid d k target pk, op = .requestConnect sid d k target pk → r.sessions.get sid = none)
    (caller : ∀ sid d k target pk, op = .requestConnect sid d k target pk → (r.slot d k).isSome) :
    SameCall r v op := by
  cases op with
  | online d k conn info now =>
    obtain ⟨refines, calls⟩ := h.online joined d k conn info now
    exact ⟨rfl, calls, refines, joined.online (d, k) conn info now⟩
  | offline d k guard =>
    obtain ⟨refines, calls⟩ := h.offline d k guard
    exact ⟨rfl, calls, refines, joined.offline (d, k) guard⟩
  | touch d now =>
    exact ⟨rfl, rfl, (h.seen d .host now).seen d .controller now, (joined.seen _ now).seen _ now⟩
  | dispatchWake d target mac wanIp accountId => exact h.sameCall_wake joined d target mac wanIp accountId
  | requestConnect sid d k target pk =>
    exact h.sameCall_request joined (fresh _ _ _ _ _ rfl) (caller _ _ _ _ _ rfl)
  | acceptConnect sid d k => exact h.sameCall_accept joined sid d k
  | rejectConnect sid d k reason => exact h.sameCall_reject joined sid d k reason
  | relaySignal sid d k kind payload => exact h.sameCall_relay joined sid d k kind payload
  | closeSession sid d k reason => exact h.sameCall_close joined sid d k reason

end Calls

/-! ## Runs -/

section Runs

variable (C J : Type) [DecidableEq C]

/-- The registry, answering calls. -/
def registryMachine : Machine (Trace C J) (Op C J) (Answer C J) where
  step t op :=
    let after := t.perform op
    (⟨t.reg.reply op, (t.reg.perform op).2.2, after.reg.presence, after.reg.helpersOnNetwork⟩, after)

/-- The abstract server, answering calls. -/
def rendezvousMachine : Machine (Rendezvous C J) (Op C J) (Answer C J) where
  step v op :=
    let res := v.perform op
    (⟨res.1, res.2.2, res.2.1.presence, fun wanIp exceptId account => (res.2.1.helpers wanIp exceptId account).length⟩,
      res.2.1)

/-- Sessions are requested under fresh ids by registered roles. -/
def soundCall (t : Trace C J) (op : Op C J) : Prop := t.freshId op ∧ t.callerRegistered op

theorem registry_simulates : (registryMachine C J).Simulates (soundCall C J) (rendezvousMachine C J)
    fun t v => t.Sane ∧ Refines t.reg v ∧ v.Joined := by
  have same (t : Trace C J) (v : Rendezvous C J) (op : Op C J) (h : t.Sane ∧ Refines t.reg v ∧ v.Joined)
      (sound : soundCall C J t op) : SameCall t.reg v op := by
    obtain ⟨sane, refines, joined⟩ := h
    refine refines.sameCall joined op ?_ ?_
    · rintro sid d k target pk rfl
      exact sane.free sound.1
    · rintro sid d k target pk rfl
      exact sound.2
  constructor
  · intro t v op h sound
    obtain ⟨reply, calls, refines, -⟩ := same t v op h sound
    have counted : (t.reg.perform op).2.1.helpersOnNetwork = fun wanIp exceptId accountId =>
        ((v.perform op).2.1.helpers wanIp exceptId accountId).length := by
      funext wanIp exceptId accountId
      exact refines.helpersOnNetwork wanIp exceptId accountId
    show Answer.mk _ _ _ (t.reg.perform op).2.1.helpersOnNetwork = Answer.mk _ _ _ _
    rw [reply, calls, counted, ← refines.presence]
    rfl
  · intro t v op h sound
    obtain ⟨-, -, refines, joined⟩ := same t v op h sound
    exact ⟨h.1.perform sound.1, refines, joined⟩

variable {C J}

omit [DecidableEq C] in
theorem Refines.empty (opts : RegistryOptions J) : Refines ({ opts := opts } : Registry C J) { opts := opts } where
  opts := rfl
  reached _ _ := rfl
  devices := rfl
  sessions := rfl
  index d k e he := by cases he

/-- From an empty registry, every run of calls in which ids are fresh and sessions are
requested by registered roles is answered as the rendezvous server without slots and
index would answer it: the same replies and refusals, the same messages, magic packets,
closes and audit records in the same order, and the same presence of every device and
the same number of helpers in every network after every call. -/
theorem registry_refines_rendezvous (opts : RegistryOptions J) (ops : List (Op C J))
    (hv : ((registrySystem C J).restrict Trace.callerRegistered).Valid { reg := { opts := opts } } ops) :
    (registryMachine C J).answers { reg := { opts := opts } } ops =
      (rendezvousMachine C J).answers { opts := opts } ops := by
  have joined : ({ opts := opts } : Rendezvous C J).Joined := fun s hs => by cases hs
  have related := And.intro (Trace.Sane.start (C := C) opts) (And.intro (Refines.empty (C := C) opts) joined)
  exact (registry_simulates C J).answers_eq (registrySystem C J).init related hv

/-- A host that goes while two controllers are in session with it, and is woken through
one of them: the registry ends the sessions and sends the magic packet as the abstract
server does. -/
theorem registry_refines_rendezvous_host_lost :
    let opts : RegistryOptions Unit := { iceServersFor := fun _ => () }
    let ops : List (Op Nat Unit) :=
      [.online "h" .host 1 {} 0, .online "a" .controller 2 ⟨some "lan", some true, some "acc"⟩ 0,
        .online "b" .controller 3 {} 0, .requestConnect "s" "a" .controller "h" none,
        .requestConnect "t" "b" .controller "h" none, .acceptConnect "s" "h" .host, .offline "h" .host none,
        .dispatchWake "b" "h" (some "AA:BB") (some "lan") (some "acc")]
    (registryMachine Nat Unit).answers { reg := { opts := opts } } ops =
        (rendezvousMachine Nat Unit).answers { opts := opts } ops ∧
      (((rendezvousMachine Nat Unit).answers { opts := opts } ops).drop 6).map (fun a => (a.reply, a.calls)) =
        [(.done true, [.sessionEnd ⟨"s", "a", "h"⟩, .send 2 (.sessionClose "s" "peer_offline"),
            .send 3 (.sessionClose "t" "peer_offline")]),
          (.woken .dispatched 1, [.send 2 (.wakeDispatch "AA:BB")])] := by
  intro opts ops
  refine ⟨registry_refines_rendezvous opts ops ?_, by decide⟩
  refine ⟨⟨trivial, trivial⟩, ⟨trivial, trivial⟩, ⟨trivial, trivial⟩, ⟨List.not_mem_nil, rfl⟩, ⟨?_, rfl⟩,
    ⟨trivial, trivial⟩, ⟨trivial, trivial⟩, ⟨trivial, trivial⟩, trivial⟩
  show "t" ∉ ["s"]
  decide

end Runs

end ZortilWatch.Signaling
