import ZortilWatch.Signaling.RegistryRuns

/-!
# The session index of the registry

Who takes part in a session is stored three times: in the session and in the
`sessions` sets of its two slots. `Members` says the sets hold nothing else,
`Joined` that they miss nothing. `Members` survives every call. `Joined`
survives every call but a granted request from a slot that is not registered.
-/

namespace ZortilWatch.Signaling

namespace Registry

variable {C J : Type} {r : Registry C J}

/-- A pairing of sessions with sides they have, whatever their status. -/
structure Pairing (want : Session → Side → Prop) : Prop where
  hasSide : ∀ s side, want s side → s.HasSide side
  anyStatus : ∀ s side st, want { s with status := st } side ↔ want s side

/-- A session listed in a slot is open and paired with that slot. -/
def ListsOnly (want : Session → Side → Prop) (r : Registry C J) : Prop :=
  ∀ d k e sid, r.slot d k = some e → sid ∈ e.sessions →
    ∃ s, r.sessions.get sid = some s ∧ want s (d, k)

/-- An open session is listed in every slot it is paired with. -/
def ListsAll (want : Session → Side → Prop) (r : Registry C J) : Prop :=
  ∀ sid s side, r.sessions.get sid = some s → want s side →
    ∃ e, r.slot side.1 side.2 = some e ∧ sid ∈ e.sessions

/-- A session listed in a slot is open and has that slot as a side. -/
def Members (r : Registry C J) : Prop :=
  ∀ d k e sid, r.slot d k = some e → sid ∈ e.sessions →
    ∃ s, r.sessions.get sid = some s ∧ s.HasSide (d, k)

/-- Both sides of an open session are registered and list it. -/
def Joined (r : Registry C J) : Prop :=
  ∀ sid s side, r.sessions.get sid = some s → s.HasSide side →
    ∃ e, r.slot side.1 side.2 = some e ∧ sid ∈ e.sessions

/-- The session index is exact. -/
def Indexed (r : Registry C J) : Prop :=
  ∀ d k e, r.slot d k = some e → ∀ sid,
    (sid ∈ e.sessions ↔ ∃ s, r.sessions.get sid = some s ∧ s.HasSide (d, k))

theorem pairing_hasSide : Pairing Session.HasSide := ⟨fun _ _ h => h, fun _ _ _ => Iff.rfl⟩

theorem Members.indexed (hm : r.Members) (hj : r.Joined) : r.Indexed := by
  intro d k e he sid
  refine ⟨hm d k e sid he, ?_⟩
  rintro ⟨s, hs, hside⟩
  obtain ⟨e', he', hin⟩ := hj sid s (d, k) hs hside
  cases he.symm.trans he'
  exact hin

section Pairings

variable {want : Session → Side → Prop}

/-! ## Writes to slots -/

/-- Writing slots without touching their session sets keeps both invariants. -/
theorem slot_sets_congr {r' : Registry C J} (hs : r'.sessions = r.sessions)
    (hslot : ∀ d k, (r'.slot d k).map (·.sessions) = (r.slot d k).map (·.sessions)) :
    (r.ListsOnly want → r'.ListsOnly want) ∧ (r.ListsAll want → r'.ListsAll want) := by
  constructor
  · intro hm d k e sid he hin
    have h := hslot d k
    rw [he] at h
    obtain ⟨e0, he0, hsets⟩ := Option.map_eq_some_iff.1 h.symm
    rw [hs]
    exact hm d k e0 sid he0 (hsets ▸ hin)
  · intro hj sid s side hg hside
    obtain ⟨e0, he0, hin⟩ := hj sid s side (hs ▸ hg) hside
    have h := hslot side.1 side.2
    rw [he0] at h
    obtain ⟨e, he, hsets⟩ := Option.map_eq_some_iff.1 h
    exact ⟨e, he, hsets ▸ hin⟩

theorem touch_sets (r : Registry C J) (d : DeviceId) (now : Nat) :
    (r.ListsOnly want → (r.touch d now).ListsOnly want) ∧ (r.ListsAll want → (r.touch d now).ListsAll want) := by
  refine slot_sets_congr (by simp [touch]) fun d' k' => ?_
  simp only [touch, slot_modifySlot]
  cases r.slot d' k' with
  | none => simp
  | some e => split <;> split <;> rfl

section Online

variable [DecidableEq C]

theorem ListsOnly.online (hm : r.ListsOnly want) (d : DeviceId) (k : DeviceKind) (conn : C) (info : SlotMeta)
    (now : Nat) : (r.online d k conn info now).1.ListsOnly want := by
  intro d' k' e sid he hin
  rw [slot_online] at he
  split at he
  · rename_i hs
    cases he
    cases hs
    -- the new entry lists what the replaced entry listed
    cases h : r.slot d k with
    | none => simp [onlineEntry, h] at hin
    | some e0 => exact hm d k e0 sid h (by simpa [onlineEntry, h] using hin)
  · exact hm d' k' e sid he hin

theorem ListsAll.online (hj : r.ListsAll want) (d : DeviceId) (k : DeviceKind) (conn : C) (info : SlotMeta)
    (now : Nat) : (r.online d k conn info now).1.ListsAll want := by
  intro sid s side hg hside
  obtain ⟨e, he, hin⟩ := hj sid s side hg hside
  rw [slot_online]
  split
  · rename_i hs
    cases hs
    exact ⟨_, rfl, by simpa [onlineEntry, he] using hin⟩
  · exact ⟨e, he, hin⟩

end Online

theorem ListsOnly.dropSlot (hm : r.ListsOnly want) (d : DeviceId) (k : DeviceKind) :
    (r.dropSlot d k).ListsOnly want := by
  intro d' k' e sid he hin
  rw [slot_dropSlot] at he
  split at he
  · cases he
  · exact (sessions_dropSlot r d k) ▸ hm d' k' e sid he hin

/-! ## Writes to sessions -/

/-- A granted request lists its session in its sides that are registered. -/
theorem ListsOnly.granted (hm : r.ListsOnly want) {sid : SessionId} (fresh : r.sessions.get sid = none)
    {c : DeviceId} {ck : DeviceKind} {t : DeviceId}
    (new : ∀ side, (newSession sid c ck t).HasSide side → (r.slot side.1 side.2).isSome →
      want (newSession sid c ck t) side) : (r.granted sid c ck t).ListsOnly want := by
  intro d k e sid' he hin
  rw [sessions_granted, JsMap.get_set]
  by_cases hs : sid = sid'
  · subst hs
    refine ⟨_, if_pos rfl, ?_⟩
    rw [slot_granted] at he
    split at he
    · rename_i hside
      refine new (d, k) hside ?_
      obtain ⟨e0, he0, -⟩ := Option.map_eq_some_iff.1 he
      exact Option.isSome_iff_exists.2 ⟨e0, he0⟩
    · -- a slot that was not joined lists no fresh id
      obtain ⟨s, hg, _⟩ := hm d k e sid he hin
      rw [fresh] at hg
      cases hg
  · rw [if_neg hs]
    rw [slot_granted] at he
    split at he
    · obtain ⟨e0, he0, rfl⟩ := Option.map_eq_some_iff.1 he
      refine hm d k e0 sid' he0 ?_
      simpa [Ne.symm hs] using hin
    · exact hm d k e sid' he hin

theorem ListsAll.granted (p : Pairing want) (hj : r.ListsAll want) {sid : SessionId} {c : DeviceId}
    {ck : DeviceKind} {t : DeviceId}
    (present : ∀ side, want (newSession sid c ck t) side → (r.slot side.1 side.2).isSome) :
    (r.granted sid c ck t).ListsAll want := by
  intro sid' s side hg hside
  rw [sessions_granted, JsMap.get_set] at hg
  rw [slot_granted]
  by_cases hs : sid = sid'
  · subst hs
    rw [if_pos rfl] at hg
    cases hg
    rw [if_pos (p.hasSide _ _ hside)]
    obtain ⟨e, he⟩ := Option.isSome_iff_exists.1 (present side hside)
    exact ⟨_, by rw [he]; rfl, by simp⟩
  · rw [if_neg hs] at hg
    obtain ⟨e, he, hin⟩ := hj sid' s side hg hside
    rw [he]
    split
    · exact ⟨_, rfl, by simp [hin]⟩
    · exact ⟨e, rfl, hin⟩

theorem Joined.granted (hj : r.Joined) {sid : SessionId} {c : DeviceId} {ck : DeviceKind} {t : DeviceId}
    (host : (r.slot t .host).isSome) (caller : (r.slot c ck).isSome) : (r.granted sid c ck t).Joined := by
  refine ListsAll.granted pairing_hasSide hj fun side hside => ?_
  rcases hside with rfl | rfl
  · exact caller
  · exact host

/-- Setting a status changes no pairing. -/
theorem withStatus_sets (p : Pairing want) {sid : SessionId} {s : Session} (hg : r.sessions.get sid = some s)
    (st : SessionStatus) :
    (r.ListsOnly want →
        ({ r with sessions := r.sessions.set sid { s with status := st } } : Registry C J).ListsOnly want) ∧
      (r.ListsAll want →
        ({ r with sessions := r.sessions.set sid { s with status := st } } : Registry C J).ListsAll want) := by
  constructor
  · intro hm d k e sid' he hin
    obtain ⟨s', hs', hside⟩ := hm d k e sid' he hin
    by_cases h : sid = sid'
    · subst h
      cases hg.symm.trans hs'
      exact ⟨_, JsMap.get_set_self _ _ _, (p.anyStatus s (d, k) st).2 hside⟩
    · exact ⟨s', by rw [JsMap.get_set_ne _ _ h, hs'], hside⟩
  · intro hj sid' s' side hs' hside
    rw [JsMap.get_set] at hs'
    split at hs'
    · rename_i h
      subst h
      cases hs'
      exact hj sid s side hg ((p.anyStatus s side st).1 hside)
    · exact hj sid' s' side hs' hside

theorem ListsOnly.teardown (p : Pairing want) (hm : r.ListsOnly want) (sid : SessionId) (reason : String)
    (initiator : Side) : (r.teardown sid reason initiator).1.ListsOnly want := by
  intro d k e sid' he hin
  rw [get_teardown]
  rw [slot_teardown] at he
  cases hg : r.sessions.get sid with
  | none =>
    rw [hg] at he
    obtain ⟨s, hs, hside⟩ := hm d k e sid' he hin
    have : sid ≠ sid' := fun h => by rw [← h, hg] at hs; cases hs
    exact ⟨s, by rw [if_neg this, hs], hside⟩
  | some s =>
    rw [hg] at he
    dsimp only at he
    split at he
    · obtain ⟨e0, he0, rfl⟩ := Option.map_eq_some_iff.1 he
      simp only [SlotEntry.deleteSession_sessions, JsSet.mem_delete] at hin
      rw [if_neg (Ne.symm hin.1)]
      exact hm d k e0 sid' he0 hin.2
    · rename_i hno
      obtain ⟨s', hs', hside⟩ := hm d k e sid' he hin
      have : sid ≠ sid' := fun h => by
        rw [← h, hg] at hs'
        cases hs'
        exact hno (p.hasSide _ _ hside)
      exact ⟨s', by rw [if_neg this, hs'], hside⟩

theorem ListsAll.teardown (hj : r.ListsAll want) (sid : SessionId) (reason : String) (initiator : Side) :
    (r.teardown sid reason initiator).1.ListsAll want := by
  intro sid' s side hg hside
  rw [get_teardown] at hg
  split at hg
  · cases hg
  · rename_i hne
    obtain ⟨e, he, hin⟩ := hj sid' s side hg hside
    have same := slot_teardown_other r reason initiator hne side.1 side.2
    rw [he] at same
    obtain ⟨e', he', heq⟩ := Option.map_eq_some_iff.1 same
    exact ⟨e', he', heq ▸ hin⟩

end Pairings

/-! ## Going offline -/

section Offline

variable [DecidableEq C] {want : Session → Side → Prop}

theorem ListsOnly.offline (p : Pairing want) (hm : r.ListsOnly want) (d : DeviceId) (k : DeviceKind)
    (guard : Option C) : (r.offline d k guard).1.ListsOnly want := by
  rcases r.offline_cases d k guard with h | ⟨e, -, -, h⟩ <;> rw [h]
  · exact hm
  · exact teardownAll_induct (P := fun r _ => r.ListsOnly want) (fun r _ sid _ h => h.teardown p sid _ _)
      (hm.dropSlot d k)

/-- When `offline` takes effect, no open session is paired with the role. -/
theorem ListsAll.offline_clears (hj : r.ListsAll want) {d : DeviceId} {k : DeviceKind} {guard : Option C}
    {e : SlotEntry C} (he : r.slot d k = some e) (hg : guard.any (· ≠ e.conn) = false) {sid : SessionId}
    {s : Session} (hs : (r.offline d k guard).1.sessions.get sid = some s) : ¬ want s (d, k) := by
  intro hside
  rw [r.offline_eq he hg, get_teardownAll, sessions_dropSlot] at hs
  split at hs
  · cases hs
  · -- a session paired with this side is listed in its slot, so the loop closed it
    obtain ⟨e', he', hin⟩ := hj sid s (d, k) hs hside
    cases he.symm.trans he'
    contradiction

theorem ListsAll.offline (hj : r.ListsAll want) (d : DeviceId) (k : DeviceKind) (guard : Option C) :
    (r.offline d k guard).1.ListsAll want := by
  intro sid s side hs hside
  rcases r.offline_cases d k guard with h | ⟨e, he, hg, h⟩
  · rw [h] at hs ⊢
    exact hj sid s side hs hside
  · have hno := hj.offline_clears he hg hs
    rw [h, get_teardownAll, sessions_dropSlot] at hs
    split at hs
    · cases hs
    · rename_i hnot
      obtain ⟨e0, he0, hin⟩ := hj sid s side hs hside
      have hne : (d, k) ≠ (side.1, side.2) := fun hd => hno (hd ▸ hside)
      have same := slot_teardownAll_other (r.dropSlot d k) "peer_offline" (d, k) hnot side.1 side.2
      rw [slot_dropSlot, if_neg hne, he0] at same
      obtain ⟨e1, he1, heq⟩ := Option.map_eq_some_iff.1 same
      rw [h]
      exact ⟨e1, he1, heq ▸ hin⟩

/-! ## Every call -/

theorem ListsOnly.perform (p : Pairing want) (hm : r.ListsOnly want) (op : Op C J)
    (fresh : ∀ sid d k t pk, op = .requestConnect sid d k t pk → r.sessions.get sid = none)
    (new : ∀ sid d k t pk, op = .requestConnect sid d k t pk → (r.perform op).1 = true →
      ∀ side, (newSession sid d k t).HasSide side → (r.slot side.1 side.2).isSome →
        want (newSession sid d k t) side) :
    (r.perform op).2.1.ListsOnly want := by
  cases op with
  | online d k conn info now => exact hm.online d k conn info now
  | offline d k guard => exact hm.offline p d k guard
  | touch d now => exact (touch_sets r d now).1 hm
  | dispatchWake => exact hm
  | requestConnect sid d k t pk =>
    rcases r.requestConnect_cases sid d k t pk with ⟨_, h⟩ | ⟨_, _, _, h⟩ <;> simp only [Registry.perform, h]
    · exact hm
    · exact hm.granted (fresh _ _ _ _ _ rfl) (new _ _ _ _ _ rfl (by simp only [Registry.perform, h]))
  | acceptConnect sid d k =>
    rcases r.acceptConnect_cases sid d k with h | ⟨s, hs, _, _, h⟩ <;> simp only [Registry.perform, h]
    · exact hm
    · exact (withStatus_sets p hs .ready).1 hm
  | rejectConnect sid d k reason =>
    rcases r.rejectConnect_cases sid d k reason with h | ⟨_, _, _, h⟩ <;> simp only [Registry.perform, h]
    · exact hm
    · exact hm.teardown p sid _ _
  | relaySignal sid d k kind payload =>
    rcases r.relaySignal_cases sid d k kind payload with h | ⟨_, _, _, _, h⟩ <;>
      simp only [Registry.perform, h] <;> exact hm
  | closeSession sid d k reason =>
    rcases r.closeSession_cases sid d k reason with h | ⟨_, _, _, _, h⟩ <;> simp only [Registry.perform, h]
    · exact hm
    · exact hm.teardown p sid _ _

/-- The target of a granted request is registered, so only other sides of the
new session need be. -/
theorem ListsAll.perform (p : Pairing want) (hj : r.ListsAll want) (op : Op C J)
    (present : ∀ sid d k t pk, op = .requestConnect sid d k t pk →
      ∀ side, want (newSession sid d k t) side → side ≠ (t, .host) → (r.slot side.1 side.2).isSome) :
    (r.perform op).2.1.ListsAll want := by
  cases op with
  | online d k conn info now => exact hj.online d k conn info now
  | offline d k guard => exact hj.offline d k guard
  | touch d now => exact (touch_sets r d now).2 hj
  | dispatchWake => exact hj
  | requestConnect sid d k t pk =>
    rcases r.requestConnect_cases sid d k t pk with ⟨_, h⟩ | ⟨host, hh, _, h⟩ <;>
      simp only [Registry.perform, h]
    · exact hj
    · refine hj.granted p fun side hside => ?_
      by_cases target : side = (t, .host)
      · rw [target, hh]
        rfl
      · exact present _ _ _ _ _ rfl side hside target
  | acceptConnect sid d k =>
    rcases r.acceptConnect_cases sid d k with h | ⟨s, hs, _, _, h⟩ <;> simp only [Registry.perform, h]
    · exact hj
    · exact (withStatus_sets p hs .ready).2 hj
  | rejectConnect sid d k reason =>
    rcases r.rejectConnect_cases sid d k reason with h | ⟨_, _, _, h⟩ <;> simp only [Registry.perform, h]
    · exact hj
    · exact hj.teardown sid _ _
  | relaySignal sid d k kind payload =>
    rcases r.relaySignal_cases sid d k kind payload with h | ⟨_, _, _, _, h⟩ <;>
      simp only [Registry.perform, h] <;> exact hj
  | closeSession sid d k reason =>
    rcases r.closeSession_cases sid d k reason with h | ⟨_, _, _, _, h⟩ <;> simp only [Registry.perform, h]
    · exact hj
    · exact hj.teardown sid _ _

theorem Members.perform (hm : r.Members) (op : Op C J)
    (fresh : ∀ sid d k t pk, op = .requestConnect sid d k t pk → r.sessions.get sid = none) :
    (r.perform op).2.1.Members :=
  ListsOnly.perform pairing_hasSide hm op fresh fun _ _ _ _ _ _ _ _ hside _ => hside

theorem Joined.perform (hj : r.Joined) (op : Op C J)
    (caller : ∀ sid d k t pk, op = .requestConnect sid d k t pk → (r.slot d k).isSome) :
    (r.perform op).2.1.Joined := by
  refine ListsAll.perform pairing_hasSide hj op fun sid d k t pk hop side hside other => ?_
  rcases hside with rfl | rfl
  · exact caller sid d k t pk hop
  · exact absurd rfl other

omit [DecidableEq C] in
/-- A teardown opens no session. -/
theorem open_of_teardown {r : Registry C J} {sid sid' : SessionId} {reason : String} {initiator : Side}
    (h : ((r.teardown sid' reason initiator).1.sessions.get sid).isSome) : (r.sessions.get sid).isSome := by
  rw [get_teardown] at h
  split at h
  · cases h
  · exact h

/-- Only a granted request opens a session. -/
theorem perform_opens (r : Registry C J) (op : Op C J) {sid : SessionId}
    (h : ((r.perform op).2.1.sessions.get sid).isSome) :
    (r.sessions.get sid).isSome ∨ (∃ d k t pk, op = .requestConnect sid d k t pk ∧ (r.perform op).1 = true) := by
  cases op with
  | online d k conn info now => exact .inl h
  | offline d k guard =>
    refine .inl ?_
    simp only [perform] at h
    rcases r.offline_cases d k guard with e | ⟨_, -, -, e⟩ <;> rw [e] at h
    · exact h
    · rw [get_teardownAll, sessions_dropSlot] at h
      split at h
      · cases h
      · exact h
  | touch d now =>
    refine .inl ?_
    simpa [perform, touch] using h
  | dispatchWake => exact .inl h
  | requestConnect sid' d k t pk =>
    simp only [perform] at h ⊢
    rcases r.requestConnect_cases sid' d k t pk with ⟨_, e⟩ | ⟨_, _, _, e⟩ <;> rw [e] at h ⊢
    · exact .inl h
    · simp only [sessions_granted, JsMap.get_set] at h
      split at h
      · rename_i hs
        subst hs
        exact .inr ⟨d, k, t, pk, rfl, rfl⟩
      · exact .inl h
  | acceptConnect sid' d k =>
    refine .inl ?_
    simp only [perform] at h
    rcases r.acceptConnect_cases sid' d k with e | ⟨s, hs, _, _, e⟩ <;> rw [e] at h
    · exact h
    · simp only [JsMap.get_set] at h
      split at h
      · rename_i hs'
        subst hs'
        rw [hs]
        rfl
      · exact h
  | rejectConnect sid' d k reason =>
    refine .inl ?_
    simp only [perform] at h
    rcases r.rejectConnect_cases sid' d k reason with e | ⟨_, _, _, e⟩ <;> rw [e] at h
    · exact h
    · exact open_of_teardown h
  | relaySignal sid' d k kind payload =>
    refine .inl ?_
    simp only [perform] at h
    rcases r.relaySignal_cases sid' d k kind payload with e | ⟨_, _, _, _, e⟩ <;> rw [e] at h <;> exact h
  | closeSession sid' d k reason =>
    refine .inl ?_
    simp only [perform] at h
    rcases r.closeSession_cases sid' d k reason with e | ⟨_, _, _, _, e⟩ <;> rw [e] at h
    · exact h
    · exact open_of_teardown h

end Offline

theorem members_empty (opts : RegistryOptions J) : ({ opts := opts } : Registry C J).Members := by
  intro d k e sid he
  cases he

theorem joined_empty (opts : RegistryOptions J) : ({ opts := opts } : Registry C J).Joined := by
  intro sid s side hs
  cases hs

end Registry

/-! ## Runs -/

namespace Trace

variable {C J : Type} {t : Trace C J}

/-- What every run keeps: slots list only their own sessions, and every open
session has an id that was handed out. -/
structure Sane (t : Trace C J) : Prop where
  members : t.reg.Members
  issued : ∀ sid, (t.reg.sessions.get sid).isSome → sid ∈ t.issued

theorem Sane.start (opts : RegistryOptions J) : ({ reg := { opts := opts } } : Trace C J).Sane where
  members := Registry.members_empty opts
  issued sid h := by cases h

/-- A fresh id names no open session. -/
theorem Sane.free (ht : t.Sane) {sid : SessionId} (fresh : sid ∉ t.issued) : t.reg.sessions.get sid = none := by
  cases h : t.reg.sessions.get sid with
  | none => rfl
  | some s => exact absurd (ht.issued sid (by rw [h]; rfl)) fresh

/-- A request that may be made next names no open session. -/
theorem Sane.free_request (ht : t.Sane) {op : Op C J} (fresh : t.freshId op) :
    ∀ sid d k target pk, op = .requestConnect sid d k target pk → t.reg.sessions.get sid = none := by
  intro sid d k target pk h
  subst h
  exact ht.free fresh

variable [DecidableEq C]

theorem issued_mono (t : Trace C J) (op : Op C J) {sid : SessionId} (h : sid ∈ t.issued) :
    sid ∈ (t.perform op).issued := by
  simp only [perform]
  split
  · split
    · exact List.mem_cons_of_mem _ h
    · exact h
  · exact h

theorem Sane.perform (ht : t.Sane) {op : Op C J} (fresh : t.freshId op) : (t.perform op).Sane where
  members := ht.members.perform op (ht.free_request fresh)
  issued sid h := by
    rcases t.reg.perform_opens op h with h | ⟨d, k, target, pk, rfl, ok⟩
    · exact t.issued_mono op (ht.issued sid h)
    · simp [Trace.perform, ok]

theorem sane_of_reachable (ht : (registrySystem C J).Reachable t) : t.Sane := by
  refine System.Reachable.invariant (fun t0 h0 => ?_) (fun t0 op _ h he => h.perform he) ht
  obtain ⟨opts, rfl⟩ := h0
  exact .start opts

end Trace

end ZortilWatch.Signaling
