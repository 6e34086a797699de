import ZortilWatch.Signaling.Presence

/-!
# The access list of a target

`connect_request` is checked against the target's lists after the lookup, with
the identity the socket has then, and the registry is called under the same
identity. So no session gets past a list (`calls_within_acl`), but the check
comes before the registry answers `offline`: a requester can tell a list that
refuses it from an id that is not there (`same_reply_iff`).
-/

namespace ZortilWatch.Signaling

namespace Registry

variable {C J : Type}

/-- A session that a request opens is the one it asked for. -/
theorem requestConnect_opened {r : Registry C J} {sid sid' : SessionId} {d : DeviceId} {k : DeviceKind} {t : DeviceId}
    {pk : Option PasswordKind} {s : Session} (before : r.sessions.get sid' = none)
    (after : (r.requestConnect sid d k t pk).2.1.sessions.get sid' = some s) :
    sid' = sid ∧ s = newSession sid d k t := by
  rcases r.requestConnect_cases sid d k t pk with ⟨code, e⟩ | ⟨host, -, -, e⟩ <;> rw [e] at after
  · rw [before] at after
    cases after
  · simp only [sessions_granted, JsMap.get_set] at after
    split at after
    · rename_i same
      cases after
      exact ⟨same.symm, rfl⟩
    · rw [before] at after
      cases after

end Registry

/-- The lists of a row let a requester through. -/
def DeviceRow.Admits (row : DeviceRow) (requester : DeviceId) : Prop :=
  requester ∉ row.blockedIds ∧ (row.allowedIds = [] ∨ requester ∈ row.allowedIds)

theorem aclOk_found {row : DeviceRow} {requester : DeviceId} :
    aclOk requester (.found (some row)) = true ↔ row.Admits requester := by
  simp [aclOk, DeviceRow.Admits]

namespace Endpoint

variable {J : Type} (env : Env J) (ep : Endpoint J)

/-! ## No session past the list -/

/-- Where an event asks the registry for a connection, a lookup carried on the
request of that socket, it did not fail, and the row it found lets through the
identity the registry is called under. -/
def AsksWithinAcl (e : Event J) : Prop :=
  ∀ sid d k target pk, .requestConnect sid d k target pk ∈ ops env ep e →
    ∃ s i device now rid, e = .resume s i device sid now ∧
      ep.waitingAt s i = some (.connectRequest target pk rid) ∧ ep.identity s = some (d, k) ∧ device ≠ .failed ∧
      ∀ row, device = .found (some row) → row.Admits d

/-- Every session an event opens is one it asked the registry for. -/
def OpensAsked (e : Event J) : Prop :=
  ∀ sid s, ep.registry.sessions.get sid = none → (handle env ep e).1.registry.sessions.get sid = some s →
    ∃ pk, .requestConnect sid s.controllerId s.controllerKind s.hostId pk ∈ ops env ep e

theorem asksWithinAcl (e : Event J) : AsksWithinAcl env ep e := by
  intro sid d k target pk call
  rcases ids_handle env ep e with ⟨-, none_asked⟩ | ⟨s, i, device, sid', now, d', k', target', pk', rfl, only, -⟩
  · cases none_asked _ call
  rw [only, List.mem_singleton] at call
  cases call
  -- the same event, now as the handler that was carried on
  simp only [ops] at only
  cases hw : ep.waitingAt s i with
  | none => simp [hw] at only
  | some msg =>
    cases msg with
    | connectRequest target' pk' rid =>
      cases hid : ep.identity s with
      | none => simp [hw, hid] at only
      | some side =>
        simp only [hw, hid] at only
        split at only
        · cases only
        · rename_i passed
          cases only
          refine ⟨s, i, device, now, rid, rfl, hw, hid, ?_, ?_⟩
          · rintro rfl
            exact passed rfl
          · rintro row rfl
            exact aclOk_found.1 (by simpa using passed)
    | register d secret kind mac canWake rid =>
      cases device with
      | failed => simp [hw] at only
      | found device =>
        cases ha : env.authenticate device secret with
        | none => simp [hw, ha] at only
        | some row =>
          have last := congrArg List.getLast? only
          simp [hw, ha] at last
    | _ => simp [hw] at only

theorem opensAsked (e : Event J) : OpensAsked env ep e := by
  intro sid s before after
  rw [registry_handle] at after
  rcases ids_handle env ep e with ⟨-, none_asked⟩ | ⟨_, _, _, sid', _, d, k, target, pk, -, only, -⟩
  · -- a call that hands out no id opens nothing
    have closed : (performAll ep.registry (ops env ep e)).sessions.get sid = none := by
      refine performAll_induct (P := fun r => r.sessions.get sid = none) (fun r op hop still => ?_) before
      by_contra opened
      rcases r.perform_opens op (Option.isSome_iff_ne_none.2 opened) with h | ⟨d, k, target, pk, rfl, -⟩
      · rw [still] at h
        cases h
      · cases none_asked _ hop
    rw [closed] at after
    cases after
  · rw [only] at after ⊢
    obtain ⟨rfl, rfl⟩ := Registry.requestConnect_opened before after
    exact ⟨pk, List.mem_singleton_self _⟩

/-- In every run, the registry is asked for a connection only under an identity
that the list found lets through, and never behind a failed lookup; and every
session is one it was asked for. -/
theorem calls_within_acl (es : List (Event J)) :
    (signaling env).AllSteps (fun ep e => AsksWithinAcl env ep e ∧ OpensAsked env ep e) (initial env) es := by
  generalize initial env = ep
  induction es generalizing ep with
  | nil => trivial
  | cons e es ih => exact ⟨⟨asksWithinAcl env ep e, opensAsked env ep e⟩, ih _⟩

/-! ## What a requester learns -/

/-- What is sent on a socket. -/
def repliesTo (s : SocketId) (outs : List (Output J)) : List (ServerMessage J) :=
  outs.filterMap fun
    | .send s' msg => if s' = s then some msg else none
    | _ => none

/-- All that socket `s` is told about its `connect_request`: at once, and when its
lookup is answered from the device table, after the events `between`. -/
def connectReplies (env : Env J) (ep : Endpoint J) (s : SocketId) (target : DeviceId) (pk : Option PasswordKind)
    (rid : Option String) (now : Nat) (between : List (Event J)) (i : Nat) (table : DeviceId → Option DeviceRow)
    (sid : SessionId) (later : Nat) : List (ServerMessage J) :=
  let asked := handle env ep (.message s (some (.connectRequest target pk rid)) now)
  repliesTo s asked.2 ++
    repliesTo s (handle env ((signaling env).after asked.1 between) (.resume s i (.found (table target)) sid later)).2

section Oracle

variable {env} {ep} {s : SocketId} {i : Nat} {target : DeviceId} {pk : Option PasswordKind} {rid : Option String}

/-- What a requester of an offline target is told after the lookup. -/
theorem repliesTo_resume (hw : ep.waitingAt s i = some (.connectRequest target pk rid))
    (offline : ep.registry.slot target .host = none) (row : Option DeviceRow) (sid : SessionId) (now : Nat) :
    repliesTo s (handle env ep (.resume s i (.found row) sid now)).2 =
      match ep.identity s with
      | none => []
      | some (d, _) => [.connectErr (if aclOk d (.found row) then .offline else .forbidden) rid none] := by
  have same : (ep.unpark s i).identity s = ep.identity s := ep.identity_unpark s s i
  simp only [unpark] at same
  simp only [handle, onResume, hw, resumeConnectRequest, same]
  cases ep.identity s with
  | none => rfl
  | some side =>
    obtain ⟨d, k⟩ := side
    have refused : ep.registry.requestConnect sid d k target pk =
        ({ ok := false, code := some .offline }, ep.registry, []) := by
      simp only [Registry.requestConnect, offline]
    dsimp only
    cases hacl : aclOk d (.found row) with
    | false => simp [repliesTo]
    | true => simp [repliesTo, modifySocket, refused]

end Oracle

/-- With the target offline, two device tables that differ in its row give the
same replies exactly if both rows, or their absence, let the requester through or
both refuse it. -/
theorem same_reply_iff (env : Env J) (ep : Endpoint J) {s : SocketId} {target : DeviceId} {pk : Option PasswordKind}
    {rid : Option String} {now : Nat} {between : List (Event J)} {i : Nat}
    (hw : ((signaling env).after (handle env ep (.message s (some (.connectRequest target pk rid)) now)).1
      between).waitingAt s i = some (.connectRequest target pk rid))
    (offline : ((signaling env).after (handle env ep (.message s (some (.connectRequest target pk rid)) now)).1
      between).registry.slot target .host = none)
    (table : DeviceId → Option DeviceRow) (row row' : Option DeviceRow) (sid : SessionId) (later : Nat) :
    connectReplies env ep s target pk rid now between i (Function.update table target row) sid later =
        connectReplies env ep s target pk rid now between i (Function.update table target row') sid later ↔
      ∀ d k, ((signaling env).after (handle env ep (.message s (some (.connectRequest target pk rid)) now)).1
        between).identity s = some (d, k) → aclOk d (.found row) = aclOk d (.found row') := by
  have told (ok ok' : Bool) : [ServerMessage.connectErr (J := J) (if ok then .offline else .forbidden) rid none] =
      [.connectErr (if ok' then .offline else .forbidden) rid none] ↔ ok = ok' := by
    cases ok <;> cases ok' <;> simp
  simp only [connectReplies, Function.update_self, List.append_cancel_left_eq, repliesTo_resume hw offline]
  cases ((signaling env).after _ between).identity s with
  | none => simp
  | some side =>
    obtain ⟨d, k⟩ := side
    constructor
    · rintro same _ _ ⟨⟩
      exact (told _ _).1 same
    · intro same
      exact (told _ _).2 (same d k rfl)

/-! ## A blocked requester -/

/-- One controller is registered and no host. -/
def lonelyController : Endpoint Unit :=
  (signaling sampleEnv).after (initial sampleEnv)
    [.connection 0 none, registering 0 "111111111" .controller, registered 0]

theorem lonelyController_reachable : (signaling sampleEnv).Reachable lonelyController :=
  (System.Reachable.init rfl : (signaling sampleEnv).Reachable (initial sampleEnv)).after
    ⟨rfl, ⟨_, rfl, rfl⟩, ⟨rfl, List.not_mem_nil⟩, trivial⟩

/-- The row of a device that blocks the controller. -/
def blockingRow : DeviceRow := { accountId := "owner", blockedIds := ["111111111"] }

/-- An id that is not there is offline; an offline device that blocks the
requester is forbidden. -/
theorem blocked_target_told_apart :
    ¬ ∀ ep, (signaling sampleEnv).Reachable ep → ∀ s target table row row',
      ep.registry.slot target .host = none →
      connectReplies sampleEnv ep s target none none 0 [] 0 (Function.update table target row) "s" 0 =
        connectReplies sampleEnv ep s target none none 0 [] 0 (Function.update table target row') "s" 0 := by
  intro all
  have same := all lonelyController lonelyController_reachable 0 "222222222" (fun _ => none) none
    (some blockingRow) (by decide)
  exact absurd same (by decide)

/-- A row without lists is told from no row by nobody. -/
theorem same_reply_of_open_target :
    connectReplies sampleEnv lonelyController 0 "222222222" none none 0 [] 0
        (Function.update (fun _ => none) "222222222" none) "s" 0 =
      connectReplies sampleEnv lonelyController 0 "222222222" none none 0 [] 0
        (Function.update (fun _ => none) "222222222" (some sampleRow)) "s" 0 :=
  (same_reply_iff sampleEnv lonelyController (by decide) (by decide) (fun _ => none) none (some sampleRow) "s" 0).2
    fun _ _ _ => rfl

end Endpoint

end ZortilWatch.Signaling
