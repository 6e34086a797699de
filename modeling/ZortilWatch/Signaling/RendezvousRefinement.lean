import ZortilWatch.Signaling.RegistryIndex
import ZortilWatch.Signaling.Rendezvous

/-!
# The registry does what the rendezvous server is for

The registry keeps a map of sessions and, in every slot, a set of session ids.
Read as a list, the map is the abstract list of sessions, and the set of a slot
lists the sessions of that role in the same order (`Refines`). So going through a
slot's set ends the sessions the abstract server finds by looking through all of
them, in the same order and with the same words. The keys of the map of devices
are the devices the abstract server lists, so the two find the same helpers.
-/

namespace ZortilWatch.Signaling

/-! ## Lists of sessions as maps -/

section Lists

variable {sessions : List Session} {sid : SessionId} {s t : Session}

/-- A list of sessions as the entries of a map. -/
def sessionEntries (sessions : List Session) : List (SessionId × Session) := sessions.map fun s => (s.id, s)

theorem keys_sessionEntries : (sessionEntries sessions).map Prod.fst = sessions.map (·.id) := by
  rw [sessionEntries, List.map_map]
  rfl

theorem assocGet_sessionEntries : assocGet (sessionEntries sessions) sid = sessions.find? (·.id = sid) := by
  induction sessions with
  | nil => rfl
  | cons s sessions ih =>
    rw [sessionEntries, List.map_cons, assocGet, List.find?_cons]
    by_cases h : s.id = sid
    · rw [if_pos h, decide_eq_true h]
    · rw [if_neg h, decide_eq_false h]
      exact ih

/-- Setting the status of a listed session writes it in place. -/
theorem assocSet_sessionEntries (distinct : (sessions.map (·.id)).Nodup)
    (found : sessions.find? (·.id = sid) = some s) (st : SessionStatus) :
    assocSet (sessionEntries sessions) sid { s with status := st } =
      sessionEntries (sessions.map fun t => if t.id = sid then { t with status := st } else t) := by
  induction sessions with
  | nil => cases found
  | cons t sessions ih =>
    rw [List.map_cons, List.nodup_cons] at distinct
    rw [sessionEntries, List.map_cons, assocSet, List.map_cons, sessionEntries, List.map_cons]
    rw [List.find?_cons] at found
    by_cases h : t.id = sid
    · rw [decide_eq_true h] at found
      cases found
      have others : (sessions.map fun u => if u.id = sid then { u with status := st } else u) = sessions := by
        refine (List.map_congr_left fun u hu => ?_).trans (List.map_id _)
        apply if_neg
        rintro rfl
        exact distinct.1 (h ▸ List.mem_map_of_mem hu)
      rw [if_pos h, if_pos h, others, h]
    · rw [decide_eq_false h] at found
      rw [if_neg h, if_neg h]
      exact congrArg _ (ih distinct.2 found)

/-- Ids tell sessions apart. -/
theorem session_eq_of_id (distinct : (sessions.map (·.id)).Nodup) (hs : s ∈ sessions) (ht : t ∈ sessions)
    (same : s.id = t.id) : s = t :=
  List.inj_on_of_nodup_map distinct hs ht same

theorem id_of_find (found : sessions.find? (·.id = sid) = some s) : s.id = sid := by
  have named := List.find?_some found
  exact of_decide_eq_true named

theorem find_of_mem (distinct : (sessions.map (·.id)).Nodup) (hs : s ∈ sessions) :
    sessions.find? (·.id = s.id) = some s := by
  cases found : sessions.find? (·.id = s.id) with
  | none =>
    have never := List.find?_eq_none.1 found s hs
    exact absurd (decide_eq_true rfl) never
  | some t =>
    have ht : t ∈ sessions := List.mem_of_find?_eq_some found
    rw [session_eq_of_id distinct ht hs (id_of_find found)]

theorem filter_sessionEntries (sid : SessionId) :
    ((sessionEntries sessions).filter fun e => e.1 ≠ sid) = sessionEntries (sessions.filter (·.id ∉ [sid])) := by
  rw [sessionEntries, List.filter_map, sessionEntries]
  congr 2
  funext s
  simp

/-- The sessions a role takes part in, without one of them. -/
theorem sessionsOf_filter (side : Side) (sids : List SessionId) :
    sessionsOf side (sessions.filter (·.id ∉ sids)) = (sessionsOf side sessions).filter (·.id ∉ sids) := by
  unfold sessionsOf
  rw [List.filter_filter, List.filter_filter]
  congr 1
  funext s
  rw [Bool.and_comm]

theorem sessionsOf_snoc (side : Side) (s : Session) :
    sessionsOf side (sessions ++ [s]) =
      if s.HasSide side then sessionsOf side sessions ++ [s] else sessionsOf side sessions := by
  unfold sessionsOf
  rw [List.filter_append, List.filter_singleton]
  by_cases member : s.HasSide side
  · rw [if_pos member, decide_eq_true member]
    rfl
  · rw [if_neg member, decide_eq_false member]
    exact List.append_nil _

theorem mem_sessionsOf {side : Side} : s ∈ sessionsOf side sessions ↔ s ∈ sessions ∧ s.HasSide side := by
  rw [sessionsOf, List.mem_filter, decide_eq_true_iff]

end Lists

/-! ## The devices of a registry -/

namespace Registry

variable {C J : Type} (r : Registry C J)

/-- The keys of the map of devices. -/
def deviceIds : List DeviceId := r.devices.entries.map Prod.fst

theorem mem_deviceIds_of_slot {d : DeviceId} {k : DeviceKind} {e : SlotEntry C} (he : r.slot d k = some e) :
    d ∈ r.deviceIds := by
  obtain ⟨slots, hd, -⟩ := Option.bind_eq_some_iff.1 he
  exact List.mem_map.2 ⟨(d, slots), JsMap.mem_entries.2 hd, rfl⟩

theorem deviceIds_putSlot (d : DeviceId) (k : DeviceKind) (e : SlotEntry C) :
    (r.putSlot d k e).deviceIds = if d ∈ r.deviceIds then r.deviceIds else r.deviceIds ++ [d] :=
  keys_assocSet r.devices.entries d _

@[simp] theorem deviceIds_modifySlot (side : Side) (f : SlotEntry C → SlotEntry C) :
    (r.modifySlot side f).deviceIds = r.deviceIds := by
  unfold modifySlot
  cases hr : r.slot side.1 side.2 with
  | none => rfl
  | some e =>
    dsimp only
    rw [deviceIds_putSlot, if_pos (r.mem_deviceIds_of_slot hr)]

@[simp] theorem deviceIds_withSessions (m : JsMap SessionId Session) :
    ({ r with sessions := m } : Registry C J).deviceIds = r.deviceIds := rfl

@[simp] theorem deviceIds_teardown (sid : SessionId) (reason : String) (causer : Side) :
    (r.teardown sid reason causer).1.deviceIds = r.deviceIds := by
  cases h : r.sessions.get sid with
  | none => rw [teardown_of_none r h]
  | some s => simp [teardown_of_get r h]

@[simp] theorem deviceIds_granted (sid : SessionId) (d : DeviceId) (k : DeviceKind) (target : DeviceId) :
    (r.granted sid d k target).deviceIds = r.deviceIds := by
  simp [granted]

/-- A device goes with its last slot. -/
theorem deviceIds_dropSlot {d : DeviceId} {k : DeviceKind} (held : (r.slot d k).isSome) :
    (r.dropSlot d k).deviceIds = r.deviceIds.filter fun d' =>
      d' ≠ d ∨ ((r.dropSlot d k).slot d .host).isSome ∨ ((r.dropSlot d k).slot d .controller).isSome := by
  obtain ⟨e, he⟩ := Option.isSome_iff_exists.1 held
  have listed := r.mem_deviceIds_of_slot he
  obtain ⟨slots, hd, -⟩ := Option.bind_eq_some_iff.1 he
  by_cases last : ((slots.put k none).host.isNone && (slots.put k none).controller.isNone) = true
  · have dropped : r.dropSlot d k = { r with devices := r.devices.delete d } := by
      simp [dropSlot, hd, last]
    have empty (k' : DeviceKind) : ({ r with devices := r.devices.delete d } : Registry C J).slot d k' = none := by
      simp [slot]
    rw [dropped, empty, empty]
    show (r.devices.entries.filter fun e => e.1 ≠ d).map Prod.fst = (r.devices.entries.map Prod.fst).filter _
    rw [List.filter_map]
    congr 2
    funext e
    simp
  · have kept : r.dropSlot d k = { r with devices := r.devices.set d (slots.put k none) } := by
      simp [dropSlot, hd, last]
    have some_slot (k' : DeviceKind) :
        ({ r with devices := r.devices.set d (slots.put k none) } : Registry C J).slot d k' =
          (slots.put k none).get k' := by
      simp [slot]
    have other : ((slots.put k none).get .host).isSome ∨ ((slots.put k none).get .controller).isSome := by
      rw [Bool.not_eq_true, Bool.and_eq_false_iff, Option.isNone_eq_false_iff, Option.isNone_eq_false_iff] at last
      exact last
    rw [kept, some_slot, some_slot]
    have all : r.deviceIds.filter (fun d' => d' ≠ d ∨ ((slots.put k none).get .host).isSome ∨
        ((slots.put k none).get .controller).isSome) = r.deviceIds :=
      List.filter_eq_self.2 fun d' _ => decide_eq_true (.inr other)
    rw [all]
    exact (keys_assocSet r.devices.entries d _).trans (if_pos listed)

end Registry

/-! ## The relation -/

/-- The registry `r` holds what the abstract server `v` holds. -/
structure Refines {C J : Type} (r : Registry C J) (v : Rendezvous C J) : Prop where
  opts : v.opts = r.opts
  reached : ∀ d k, v.reached (d, k) =
    (r.slot d k).map fun e => ⟨e.conn, e.lastSeen, e.wanIp, e.canWake, e.accountId⟩
  devices : r.deviceIds = v.devices
  sessions : r.sessions.entries = sessionEntries v.sessions
  index : ∀ d k e, r.slot d k = some e → e.sessions.elems = (sessionsOf (d, k) v.sessions).map (·.id)

/-- Both sides of an open session can be reached. -/
def Rendezvous.Joined {C J : Type} (v : Rendezvous C J) : Prop :=
  ∀ s ∈ v.sessions, ∀ side, s.HasSide side → (v.reached side).isSome

namespace Refines

variable {C J : Type} {r : Registry C J} {v : Rendezvous C J} {sid : SessionId} {s : Session}

theorem distinct (h : Refines r v) : (v.sessions.map (·.id)).Nodup := by
  rw [← keys_sessionEntries, ← h.sessions]
  exact r.sessions.nodup

theorem get (h : Refines r v) (sid : SessionId) : r.sessions.get sid = v.find sid := by
  rw [JsMap.get, h.sessions]
  exact assocGet_sessionEntries

theorem conn (h : Refines r v) (side : Side) :
    (v.reached side).map (·.conn) = (r.slot side.1 side.2).map (·.conn) := by
  rw [h.reached side.1 side.2, Option.map_map]
  rfl

theorem isSome_reached (h : Refines r v) (side : Side) : (v.reached side).isSome = (r.slot side.1 side.2).isSome := by
  rw [h.reached side.1 side.2, Option.isSome_map]

theorem sendTo (h : Refines r v) (side : Side) (msg : ServerMessage J) : r.sendTo side msg = v.tell side msg := by
  have conn := h.conn side
  unfold Registry.sendTo Rendezvous.tell
  cases hr : r.slot side.1 side.2 with
  | none =>
    rw [hr, Option.map_none, Option.map_eq_none_iff] at conn
    rw [conn]
  | some e =>
    rw [hr, Option.map_some, Option.map_eq_some_iff] at conn
    obtain ⟨p, hp, same⟩ := conn
    rw [hp]
    show [Effect.send e.conn msg] = [Effect.send p.conn msg]
    rw [same]

/-- The two layers agree on who the other party is. -/
theorem peer (h : Refines r v) (s : Session) (d : DeviceId) (k : DeviceKind) :
    (v.peer s (d, k)).map (·.conn) = (r.peerSlotOf s d k).map (·.conn) := by
  unfold Rendezvous.peer
  rcases r.peerSlotOf_cases d k s with ⟨side, hp⟩ | ⟨other, side, hp⟩ | ⟨outside, hp⟩
  · rw [if_pos side, hp]
    exact h.conn s.hostSide
  · rw [if_neg other, if_pos side, hp]
    exact h.conn s.controllerSide
  · rw [if_neg fun side => outside (.inl side), if_neg fun side => outside (.inr side), hp]
    rfl

/-! ## Endings -/

theorem teardown (h : Refines r v) (found : v.find sid = some s) (reason : String) (causer : Side) :
    Refines (r.teardown sid reason causer).1 (v.without [sid]) ∧
      (r.teardown sid reason causer).2 = v.closing reason causer s := by
  have hs : r.sessions.get sid = some s := (h.get sid).trans found
  have listed : s ∈ v.sessions := List.mem_of_find?_eq_some found
  have named : s.id = sid := id_of_find found
  constructor
  · constructor
    · rw [Registry.opts_teardown]
      exact h.opts
    · intro d k
      rw [Registry.slot_teardown, hs]
      refine (h.reached d k).trans ?_
      dsimp only
      split
      · rw [Option.map_map]
        rfl
      · rfl
    · rw [Registry.deviceIds_teardown]
      exact h.devices
    · have deleted : (r.teardown sid reason causer).1.sessions = r.sessions.delete sid := by
        simp [Registry.teardown_of_get r hs]
      rw [deleted]
      show (r.sessions.entries.filter fun e => e.1 ≠ sid) = _
      rw [h.sessions]
      exact filter_sessionEntries sid
    · intro d k e he
      rw [Registry.slot_teardown, hs] at he
      show _ = (sessionsOf (d, k) (v.sessions.filter (·.id ∉ [sid]))).map (·.id)
      rw [sessionsOf_filter]
      dsimp only at he
      split at he
      · obtain ⟨e0, he0, rfl⟩ := Option.map_eq_some_iff.1 he
        show (e0.sessions.elems.filter (· ≠ sid)) = _
        rw [h.index d k e0 he0, List.filter_map]
        congr 2
        funext t
        simp
      · rename_i outside
        -- the session that ended is not among those of this role
        have others : (sessionsOf (d, k) v.sessions).filter (·.id ∉ [sid]) = sessionsOf (d, k) v.sessions := by
          apply List.filter_eq_self.2
          intro t ht
          rw [mem_sessionsOf] at ht
          apply decide_eq_true
          rw [List.mem_singleton]
          intro same
          rw [session_eq_of_id h.distinct ht.1 listed (same.trans named.symm)] at ht
          exact outside ht.2
        rw [others]
        exact h.index d k e he
  · have notice (side : Side) : r.closeNotice sid reason causer side =
        if side = causer then [] else v.tell side (.sessionClose sid reason) := by
      unfold Registry.closeNotice
      rw [h.sendTo]
    simp only [Registry.teardown_of_get r hs, notice, Rendezvous.closing, named]

end Refines

namespace Registry

variable {C J : Type}

/-- Ending the first session of a list, then the others. -/
theorem teardownAll_cons (r : Registry C J) (reason : String) (causer : Side) (sid : SessionId)
    (sids : List SessionId) :
    teardownAll reason causer r (sid :: sids) =
      ((teardownAll reason causer (r.teardown sid reason causer).1 sids).1,
        (r.teardown sid reason causer).2 ++ (teardownAll reason causer (r.teardown sid reason causer).1 sids).2) := by
  have carry : ∀ (sids : List SessionId) (r : Registry C J) (out : List (Effect C J)),
      sids.foldl (fun acc sid => ((acc.1.teardown sid reason causer).1,
          acc.2 ++ (acc.1.teardown sid reason causer).2)) (r, out) =
        ((teardownAll reason causer r sids).1, out ++ (teardownAll reason causer r sids).2) := by
    intro sids
    induction sids with
    | nil =>
      intro r out
      show (r, out) = (r, out ++ [])
      rw [List.append_nil]
    | cons a sids ih =>
      intro r out
      unfold teardownAll
      rw [List.foldl_cons, List.foldl_cons, ih, ih, List.nil_append, List.append_assoc]
  exact carry sids _ _

end Registry

namespace Refines

variable {C J : Type} {r : Registry C J} {v : Rendezvous C J}

theorem teardownAll (h : Refines r v) {ended : List Session} (listed : ended.Sublist v.sessions) (reason : String)
    (causer : Side) :
    Refines (Registry.teardownAll reason causer r (ended.map (·.id))).1 (v.without (ended.map (·.id))) ∧
      (Registry.teardownAll reason causer r (ended.map (·.id))).2 = ended.flatMap (v.closing reason causer) := by
  induction ended generalizing r v with
  | nil =>
    have all : v.without [] = v := by
      unfold Rendezvous.without
      congr 1
      exact List.filter_eq_self.2 fun s _ => decide_eq_true List.not_mem_nil
    refine ⟨?_, rfl⟩
    rw [List.map_nil, all]
    exact h
  | cons s ended ih =>
    have mem : s ∈ v.sessions := listed.subset List.mem_cons_self
    obtain ⟨one, said⟩ := h.teardown (find_of_mem h.distinct mem) reason causer
    have distinct : ((s :: ended).map (·.id)).Nodup := h.distinct.sublist (listed.map _)
    rw [List.map_cons, List.nodup_cons] at distinct
    have rest : ended.Sublist (v.without [s.id]).sessions := by
      have kept : ended.filter (·.id ∉ [s.id]) = ended := by
        apply List.filter_eq_self.2
        intro t ht
        apply decide_eq_true
        rw [List.mem_singleton]
        intro same
        exact distinct.1 (same ▸ List.mem_map_of_mem ht)
      rw [← kept]
      exact ((List.sublist_cons_self s ended).trans listed).filter _
    obtain ⟨all, told⟩ := ih one rest
    have both : (v.without [s.id]).without (ended.map (·.id)) = v.without (s.id :: ended.map (·.id)) := by
      unfold Rendezvous.without
      congr 1
      rw [List.filter_filter]
      congr 1
      funext t
      rw [Bool.eq_iff_iff]
      simp only [Bool.and_eq_true, decide_eq_true_eq, List.mem_cons, List.not_mem_nil, or_false, not_or, and_comm]
    rw [List.map_cons, Registry.teardownAll_cons]
    refine ⟨both ▸ all, ?_⟩
    rw [said, told]
    rfl

/-! ## Roles coming and going -/

/-- The sessions of a role nobody holds: none, while both sides of a session are
registered. -/
theorem sessionsOf_unreached (joined : v.Joined) {side : Side} (gone : v.reached side = none) :
    sessionsOf side v.sessions = [] := by
  apply List.filter_eq_nil_iff.2
  intro s hs member
  have reached := joined s hs side (of_decide_eq_true member)
  rw [gone] at reached
  cases reached

section Slots

variable [DecidableEq C]

theorem online (h : Refines r v) (joined : v.Joined) (d : DeviceId) (k : DeviceKind) (conn : C) (info : SlotMeta)
    (now : Nat) : Refines (r.online d k conn info now).1 (v.online (d, k) conn info now).1 ∧
      (r.online d k conn info now).2 = (v.online (d, k) conn info now).2 := by
  constructor
  · constructor
    · exact h.opts
    · intro d' k'
      rw [Registry.slot_online]
      show Function.update v.reached (d, k) _ (d', k') = _
      by_cases same : (d, k) = (d', k')
      · rw [if_pos same, ← same, Function.update_self]
        rfl
      · rw [if_neg same, Function.update_of_ne (Ne.symm same)]
        exact h.reached d' k'
    · show (r.putSlot d k _).deviceIds = if d ∈ v.devices then v.devices else v.devices ++ [d]
      rw [Registry.deviceIds_putSlot, h.devices]
    · exact h.sessions
    · intro d' k' e he
      rw [Registry.slot_online] at he
      by_cases same : (d, k) = (d', k')
      · rw [if_pos same] at he
        cases he
        cases same
        show (((r.slot d k).map SlotEntry.sessions).getD ∅).elems = (sessionsOf (d, k) v.sessions).map (·.id)
        cases hr : r.slot d k with
        | none =>
          have gone : v.reached (d, k) = none := by rw [h.reached, hr, Option.map_none]
          rw [sessionsOf_unreached joined gone]
          rfl
        | some e => exact h.index d k e hr
      · rw [if_neg same] at he
        exact h.index d' k' e he
  · have held := h.reached d k
    unfold Registry.online Rendezvous.online
    dsimp only
    rw [held]
    cases r.slot d k <;> rfl

theorem offline (h : Refines r v) (d : DeviceId) (k : DeviceKind) (guard : Option C) :
    Refines (r.offline d k guard).1 (v.offline (d, k) guard).1 ∧
      (r.offline d k guard).2 = (v.offline (d, k) guard).2 := by
  have held := h.reached d k
  unfold Registry.offline Rendezvous.offline
  rw [held]
  cases hr : r.slot d k with
  | none => exact ⟨h, rfl⟩
  | some e =>
    dsimp only [Option.map_some]
    by_cases other : guard.any (· ≠ e.conn) = true
    · rw [if_pos other, if_pos other]
      exact ⟨h, rfl⟩
    · rw [if_neg other, if_neg other, h.index d k e hr]
      have dropped : Refines (r.dropSlot d k) (v.gone (d, k)) := by
        have reached (d' : DeviceId) (k' : DeviceKind) : (v.gone (d, k)).reached (d', k') =
            ((r.dropSlot d k).slot d' k').map fun e => ⟨e.conn, e.lastSeen, e.wanIp, e.canWake, e.accountId⟩ := by
          rw [Registry.slot_dropSlot]
          show Function.update v.reached (d, k) none (d', k') = _
          by_cases same : (d, k) = (d', k')
          · rw [if_pos same, ← same, Function.update_self, Option.map_none]
          · rw [if_neg same, Function.update_of_ne (Ne.symm same)]
            exact h.reached d' k'
        constructor
        · rw [Registry.opts_dropSlot]
          exact h.opts
        · exact reached
        · rw [Registry.deviceIds_dropSlot r (Option.isSome_of_eq_some hr), h.devices]
          show _ = v.devices.filter fun d' =>
            d' ≠ d ∨ ((v.gone (d, k)).reached (d', .host)).isSome ∨ ((v.gone (d, k)).reached (d', .controller)).isSome
          refine List.filter_congr fun d' _ => decide_eq_decide.2 ?_
          by_cases same : d' = d
          · rw [same, reached, reached, Option.isSome_map, Option.isSome_map]
          · exact iff_of_true (.inl same) (.inl same)
        · rw [Registry.sessions_dropSlot]
          exact h.sessions
        · intro d' k' e' he'
          rw [Registry.slot_dropSlot] at he'
          split at he'
          · cases he'
          · exact h.index d' k' e' he'
      exact dropped.teardownAll List.filter_sublist _ _

omit [DecidableEq C] in
theorem seen (h : Refines r v) (d : DeviceId) (k : DeviceKind) (now : Nat) :
    Refines (r.modifySlot (d, k) fun e => { e with lastSeen := now }) (v.seen (d, k) now) := by
  constructor
  · rw [Registry.opts_modifySlot]
    exact h.opts
  · intro d' k'
    rw [Registry.slot_modifySlot]
    show Function.update v.reached (d, k) _ (d', k') = _
    by_cases same : (d, k) = (d', k')
    · cases same
      rw [if_pos rfl, Function.update_self, h.reached, Option.map_map, Option.map_map]
      rfl
    · rw [if_neg same, Function.update_of_ne (Ne.symm same)]
      exact h.reached d' k'
  · rw [Registry.deviceIds_modifySlot]
    exact h.devices
  · rw [Registry.sessions_modifySlot]
    exact h.sessions
  · intro d' k' e he
    rw [Registry.slot_modifySlot] at he
    split at he
    · obtain ⟨e0, he0, rfl⟩ := Option.map_eq_some_iff.1 he
      exact h.index d' k' e0 he0
    · exact h.index d' k' e he

end Slots

/-! ## Sessions coming and changing -/

theorem full (h : Refines r v) {target : DeviceId} {host : SlotEntry C} (hr : r.slot target .host = some host) :
    host.sessions.size = (sessionsOf (target, .host) v.sessions).length := by
  rw [JsSet.size, h.index target .host host hr, List.length_map]

theorem granted (h : Refines r v) {sid : SessionId} (fresh : r.sessions.get sid = none) (d : DeviceId)
    (k : DeviceKind) (target : DeviceId) : Refines (r.granted sid d k target)
      { v with sessions := v.sessions ++ [Registry.newSession sid d k target] } := by
  have opts : (r.granted sid d k target).opts = r.opts := by simp [Registry.granted]
  have unused : ∀ s ∈ v.sessions, s.id ≠ sid := by
    rintro s hs rfl
    rw [h.get, Rendezvous.find, find_of_mem h.distinct hs] at fresh
    cases fresh
  constructor
  · exact h.opts.trans opts.symm
  · intro d' k'
    rw [Registry.slot_granted]
    refine (h.reached d' k').trans ?_
    split
    · rw [Option.map_map]
      rfl
    · rfl
  · rw [Registry.deviceIds_granted]
    exact h.devices
  · rw [Registry.sessions_granted]
    show assocSet r.sessions.entries sid _ = sessionEntries (v.sessions ++ [_])
    have free : sid ∉ (sessionEntries v.sessions).map Prod.fst := by
      rw [keys_sessionEntries]
      intro mem
      obtain ⟨s, hs, same⟩ := List.mem_map.1 mem
      exact unused s hs same
    rw [h.sessions, assocSet_fresh free, sessionEntries, sessionEntries, List.map_append]
    rfl
  · intro d' k' e he
    rw [Registry.slot_granted] at he
    show _ = (sessionsOf (d', k') (v.sessions ++ [_])).map (·.id)
    rw [sessionsOf_snoc]
    split at he
    · rename_i member
      obtain ⟨e0, he0, rfl⟩ := Option.map_eq_some_iff.1 he
      have listed := h.index d' k' e0 he0
      have absent : sid ∉ e0.sessions.elems := by
        rw [listed]
        intro mem
        obtain ⟨s, hs, same⟩ := List.mem_map.1 mem
        exact unused s (mem_sessionsOf.1 hs).1 same
      rw [if_pos member, List.map_append, ← listed]
      show (e0.sessions.add sid).elems = _
      unfold JsSet.add
      rw [dif_neg absent]
      rfl
    · rename_i outside
      rw [if_neg outside]
      exact h.index d' k' e he

theorem withStatus (h : Refines r v) {sid : SessionId} {s : Session} (found : v.find sid = some s)
    (st : SessionStatus) : Refines { r with sessions := r.sessions.set sid { s with status := st } }
      { v with sessions := v.sessions.map fun t => if t.id = sid then { t with status := st } else t } := by
  constructor
  · exact h.opts
  · exact h.reached
  · exact h.devices
  · show assocSet r.sessions.entries sid _ = _
    rw [h.sessions]
    exact assocSet_sessionEntries h.distinct found st
  · intro d k e he
    have sides : ∀ t : Session,
        (if t.id = sid then { t with status := st } else t).HasSide (d, k) ↔ t.HasSide (d, k) := by
      intro t
      split <;> rfl
    have ids : ∀ t : Session, (if t.id = sid then { t with status := st } else t).id = t.id := by
      intro t
      split <;> rfl
    rw [h.index d k e he]
    show _ = (sessionsOf (d, k) (v.sessions.map _)).map (·.id)
    unfold sessionsOf
    rw [List.filter_map, List.map_map]
    congr 1
    · funext t
      exact (ids t).symm
    · congr 1
      funext t
      exact decide_eq_decide.2 (sides t).symm

end Refines

/-! ## Helpers -/

section Helpers

variable {C J : Type} {r : Registry C J} {v : Rendezvous C J}

namespace Registry

/-- Without a network or an account no device helps. -/
theorem isHelperFor_unnamed {e : Option (SlotEntry C)} {ip : String} {accountId : Option String}
    (unnamed : accountId.getD "" = "") : isHelperFor e ip accountId = false := by
  cases e with
  | none => rfl
  | some e => simp [isHelperFor, unnamed]

/-- The connection of the first of the two slots that helps. -/
theorem helperConn_eq (slots : Slots C) (ip : String) (accountId : Option String) :
    helperConn slots ip accountId = [DeviceKind.host, .controller].findSome? fun k =>
      ((slots.get k).filter fun e => isHelperFor (some e) ip accountId).map (·.conn) := by
  have slot (k : DeviceKind) : ((slots.get k).filter fun e => isHelperFor (some e) ip accountId).map (·.conn) =
      if isHelperFor (slots.get k) ip accountId then (slots.get k).map (·.conn) else none := by
    cases slots.get k with
    | none => rfl
    | some e => cases helps : isHelperFor (some e) ip accountId <;> simp [helps]
  have held (k : DeviceKind) (helps : isHelperFor (slots.get k) ip accountId = true) :
      ((slots.get k).map (·.conn)).isSome := by
    cases hk : slots.get k with
    | none => rw [hk] at helps; cases helps
    | some e => rfl
  unfold helperConn
  simp only [List.map_cons, List.map_nil, List.find?_cons, List.find?_nil, List.findSome?_cons, List.findSome?_nil,
    slot]
  cases host : isHelperFor (slots.get .host) ip accountId with
  | true =>
    obtain ⟨c, hc⟩ := Option.isSome_iff_exists.1 (held .host host)
    simp [hc]
  | false =>
    cases controller : isHelperFor (slots.get .controller) ip accountId with
    | true =>
      obtain ⟨c, hc⟩ := Option.isSome_iff_exists.1 (held .controller controller)
      simp [hc]
    | false => rfl

/-- A device has a connection to help on if one of its slots helps. -/
theorem isSome_helperConn (slots : Slots C) (ip : String) (accountId : Option String) :
    (helperConn slots ip accountId).isSome =
      [DeviceKind.host, .controller].any fun k => isHelperFor (slots.get k) ip accountId := by
  rw [helperConn_eq, List.isSome_findSome?]
  congr 1
  funext k
  cases slots.get k with
  | none => rfl
  | some e => cases helps : isHelperFor (some e) ip accountId <;> simp [helps]

end Registry

namespace Refines

theorem helperOf (h : Refines r v) {d : DeviceId} {slots : Slots C} (hd : r.devices.get d = some slots)
    {ip account : String} (named : account ≠ "") :
    Registry.helperConn slots ip (some account) = v.helperOf ip account d := by
  rw [Registry.helperConn_eq, Rendezvous.helperOf]
  congr 1
  funext k
  have slot : r.slot d k = slots.get k := by rw [Registry.slot, hd, Option.bind_some]
  rw [h.reached d k, slot]
  cases slots.get k with
  | none => rfl
  | some e =>
    have same : Registry.isHelperFor (some e) ip (some account) =
        decide ((Presence.mk e.conn e.lastSeen e.wanIp e.canWake e.accountId).Helps ip account) := by
      rw [Bool.eq_iff_iff, decide_eq_true_iff]
      simp [Registry.isHelperFor, Presence.Helps, named, and_assoc]
    rw [Option.map_some, Option.filter_some, Option.filter_some, same]
    split <;> rfl

/-- The devices `dispatchWake` and `helpersOnNetwork` go through, each with the connection it
helps on. -/
theorem helpers (h : Refines r v) (wanIp : Option String) (exceptId : DeviceId) (accountId : Option String) :
    (r.devices.entries.filterMap fun d => if d.1 = exceptId ∨ wanIp.getD "" = "" then none
        else Registry.helperConn d.2 (wanIp.getD "") accountId) = v.helpers wanIp exceptId accountId := by
  unfold Rendezvous.helpers
  have given {x : Option String} (none_given : x.filter (· ≠ "") = none) : x.getD "" = "" := by
    cases x with
    | none => rfl
    | some x => simpa using none_given
  have value {x : Option String} {y : String} (some_given : x.filter (· ≠ "") = some y) : x = some y ∧ y ≠ "" := by
    rw [Option.filter_eq_some_iff] at some_given
    exact ⟨some_given.1, of_decide_eq_true some_given.2⟩
  cases hip : wanIp.filter (· ≠ "") with
  | none => simp [given hip]
  | some ip =>
    obtain ⟨rfl, known⟩ := value hip
    cases hacc : accountId.filter (· ≠ "") with
    | none =>
      have nobody (slots : Slots C) : Registry.helperConn slots ip accountId = none := by
        have idle (k : DeviceKind) :
            (slots.get k).filter (fun e => Registry.isHelperFor (some e) ip accountId) = none :=
          Option.filter_eq_none_iff.2 fun e _ => by simp [Registry.isHelperFor_unnamed (given hacc)]
        simp [Registry.helperConn_eq, idle]
      simp [nobody]
    | some account =>
      obtain ⟨rfl, named⟩ := value hacc
      dsimp only
      rw [← h.devices, Registry.deviceIds, List.filter_map, List.filterMap_map, List.filterMap_filter]
      refine List.filterMap_congr fun d hd => ?_
      have slots : Registry.helperConn d.2 ip (some account) = v.helperOf ip account d.1 :=
        h.helperOf (JsMap.mem_entries.1 hd) named
      by_cases same : d.1 = exceptId
      · simp [same]
      · simp [same, known, slots]

end Refines

end Helpers

end ZortilWatch.Signaling
