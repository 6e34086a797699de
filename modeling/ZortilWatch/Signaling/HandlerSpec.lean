import ZortilWatch.Signaling.Handler
import ZortilWatch.Signaling.RegistryIndex

/-!
# What the endpoint's handlers do

Each event is a short list of calls on the registry (`Endpoint.ops`) and a write
to one socket. `follows_registry` makes the registry of every reachable endpoint
one that `registrySystem` reaches, so whatever all sequences of calls keep, the
endpoint keeps.
-/

namespace ZortilWatch.Signaling

namespace Endpoint

variable {J : Type} (env : Env J) (ep : Endpoint J)

/-! ## Sockets -/

section Sockets

variable (s s' : SocketId) (f : Socket J → Socket J)

theorem sockets_modifySocket :
    (ep.modifySocket s f).sockets s' = if s' = s then (ep.sockets s).map f else ep.sockets s' := by
  simp [modifySocket, Function.update_apply]

/-- A write that keeps the variables `deviceId` and `clientKind` keeps every
identity. -/
theorem identity_modifySocket_same (h : ∀ sock, (f sock).identity = sock.identity) :
    (ep.modifySocket s f).identity s' = ep.identity s' := by
  unfold identity
  rw [sockets_modifySocket]
  split
  · rename_i hs
    subst hs
    cases ep.sockets s' with
    | none => rfl
    | some sock => exact h sock
  · rfl

theorem isOpen_modifySocket_same (h : ∀ sock, (f sock).closed = sock.closed) :
    (ep.modifySocket s f).isOpen s' ↔ ep.isOpen s' := by
  unfold isOpen
  rw [sockets_modifySocket]
  split
  · rename_i hs
    subst hs
    cases ep.sockets s' with
    | none => simp
    | some sock => simp [h]
  · rfl

theorem isSome_modifySocket : ((ep.modifySocket s f).sockets s').isSome = (ep.sockets s').isSome := by
  rw [sockets_modifySocket]
  split
  · rename_i hs
    rw [hs, Option.isSome_map]
  · rfl

variable {ep s}

theorem connected_of_isOpen (h : ep.isOpen s) : (ep.sockets s).isSome := by
  obtain ⟨sock, hs, -⟩ := h
  exact Option.isSome_of_eq_some hs

/-- Only a connected socket has handlers that wait. -/
theorem connected_of_waitingAt {i : Nat} (h : (ep.waitingAt s i).isSome) : (ep.sockets s).isSome := by
  obtain ⟨msg, waits⟩ := Option.isSome_iff_exists.1 h
  obtain ⟨sock, hs, -⟩ := Option.bind_eq_some_iff.1 waits
  exact Option.isSome_of_eq_some hs

end Sockets

/-- The registration an event completes: its socket and the identity taken. -/
def registers : Event J → Option (SocketId × Side)
  | .resume s i (.found device) _ _ =>
    match ep.waitingAt s i with
    | some (.register d secret kind _ _ _) =>
      if (env.authenticate device secret).isSome then some (s, (d, kind)) else none
    | _ => none
  | _ => none

/-! ## Calls on the registry -/

/-- A call that hands out no id. -/
def keepsIds : Op SocketId J → Bool
  | .requestConnect .. => false
  | _ => true

/-- The call of the close handler and of a repeated `register`. -/
def releases (s : SocketId) : List (Op SocketId J) :=
  match ep.identity s with
  | none => []
  | some (d, k) => [.offline d k (some s)]

/-- The call an answer, a signal or a close of a session makes. -/
def answers (d : DeviceId) (k : DeviceKind) : ClientMessage J → List (Op SocketId J)
  | .connectAccept sid => [.acceptConnect sid d k]
  | .connectReject sid reason => [.rejectConnect sid d k reason]
  | .signal sid kind payload => [.relaySignal sid d k kind payload]
  | .sessionClose sid reason => [.closeSession sid d k reason]
  | _ => []

/-- The calls of an event that may change the registry. -/
def ops : Event J → List (Op SocketId J)
  | .connection .. => []
  | .message s raw _ =>
    match raw.filter ClientMessage.wellFormed with
    | none => []
    | some msg =>
      match ep.identity s with
      | none => []
      | some (d, k) => answers d k msg
  | .resume s i device sessionId now =>
    match ep.waitingAt s i with
    | some (.register d secret kind _ canWake _) =>
      match device with
      | .failed => []
      | .found device =>
        match env.authenticate device secret with
        | none => []
        | some row => ep.releases s ++ [.online d kind s
            { wanIp := (ep.sockets s).bind (·.wanIp), canWake := canWake, accountId := some row.accountId } now]
    | some (.connectRequest target pk _) =>
      match ep.identity s with
      | none => []
      | some (d, k) => if aclOk d device = false then [] else [.requestConnect sessionId d k target pk]
    | _ => []
  | .close s => ep.releases s

/-- The registry after a list of calls. -/
def performAll (r : Registry SocketId J) (ops : List (Op SocketId J)) : Registry SocketId J :=
  ops.foldl (fun r op => (r.perform op).2.1) r

/-- Calls that each keep `P` keep it together. -/
theorem performAll_induct {P : Registry SocketId J → Prop} {ops : List (Op SocketId J)}
    (one : ∀ r, ∀ op ∈ ops, P r → P (r.perform op).2.1) {r : Registry SocketId J} (start : P r) :
    P (performAll r ops) := by
  induction ops generalizing r with
  | nil => exact start
  | cons op ops ih =>
    exact ih (fun r op' h' => one r op' (List.mem_cons_of_mem _ h')) (one r op List.mem_cons_self start)

theorem offline_of_released {ep : Endpoint J} {s : SocketId} {op : Op SocketId J} (released : op ∈ ep.releases s) :
    ∃ d k, op = .offline d k (some s) := by
  unfold releases at released
  cases hid : ep.identity s with
  | none => simp [hid] at released
  | some side =>
    rw [hid] at released
    exact ⟨side.1, side.2, List.mem_singleton.1 released⟩

theorem keepsIds_releases (s : SocketId) : ∀ op ∈ ep.releases s, keepsIds op := by
  intro op released
  obtain ⟨d, k, rfl⟩ := offline_of_released released
  rfl

theorem keepsIds_answers (d : DeviceId) (k : DeviceKind) (msg : ClientMessage J) :
    ∀ op ∈ answers d k msg, keepsIds op := by
  intro op hop
  cases msg <;> simp only [answers, List.mem_singleton, List.not_mem_nil] at hop <;> subst hop <;> rfl

theorem registry_releaseSlot (s : SocketId) : (ep.releaseSlot s).1 = performAll ep.registry (ep.releases s) := by
  unfold releaseSlot releases
  cases ep.identity s with
  | none => rfl
  | some side => rfl

/-- A handler that ran to its lookup or its end: it may have parked a message,
and it wrote nothing else to its socket. -/
structure Ran (ep : Endpoint J) (s : SocketId) (ops : List (Op SocketId J)) (ep' : Endpoint J) : Prop where
  sockets : ep'.sockets = ep.sockets ∨ ∃ msg, ep'.sockets = (ep.park s msg).sockets
  issued : ep'.issued = ep.issued
  registry : ep'.registry = performAll ep.registry ops

theorem onRequest_ran (s : SocketId) (d : DeviceId) (k : DeviceKind) (msg : ClientMessage J) (now : Nat) :
    Ran ep s (answers d k msg) (ep.onRequest s d k msg now).1 := by
  cases msg with
  | connectRequest target pk rid =>
    simp only [onRequest]
    split
    · exact ⟨.inr ⟨_, rfl⟩, rfl, rfl⟩
    · exact ⟨.inl rfl, rfl, rfl⟩
  | wake => exact ⟨.inr ⟨_, rfl⟩, rfl, rfl⟩
  | register => exact ⟨.inl rfl, rfl, rfl⟩
  | listPresence => exact ⟨.inl rfl, rfl, rfl⟩
  | connectAccept => exact ⟨.inl rfl, rfl, rfl⟩
  | connectReject => exact ⟨.inl rfl, rfl, rfl⟩
  | signal => exact ⟨.inl rfl, rfl, rfl⟩
  | sessionClose => exact ⟨.inl rfl, rfl, rfl⟩

theorem answers_of_isRegister {msg : ClientMessage J} (h : msg.isRegister = true) (d : DeviceId) (k : DeviceKind) :
    answers d k msg = [] := by
  cases msg <;> first | rfl | cases h

theorem Ran.parked (s : SocketId) (msg : ClientMessage J) : Ran ep s [] (ep.park s msg) :=
  ⟨.inr ⟨msg, rfl⟩, rfl, rfl⟩

theorem onMessage_ran (s : SocketId) (raw : Option (ClientMessage J)) (now : Nat) :
    Ran ep s (ops env ep (.message s raw now)) (ep.onMessage s raw now).1 := by
  simp only [onMessage, ops]
  cases raw.filter ClientMessage.wellFormed with
  | none => exact ⟨.inl rfl, rfl, rfl⟩
  | some msg =>
    dsimp only
    cases hreg : msg.isRegister with
    | true =>
      rw [if_pos rfl]
      cases ep.identity s with
      | none => exact .parked ep s msg
      | some side =>
        dsimp only
        rw [answers_of_isRegister hreg]
        exact .parked ep s msg
    | false =>
      rw [if_neg Bool.false_ne_true]
      cases ep.identity s with
      | none => exact ⟨.inl rfl, rfl, rfl⟩
      | some side => exact onRequest_ran ep s side.1 side.2 msg now

theorem performAll_append (r : Registry SocketId J) (ops ops' : List (Op SocketId J)) :
    performAll r (ops ++ ops') = performAll (performAll r ops) ops' :=
  List.foldl_append

/-- The socket with its `i`-th waiting handler taken off the list. -/
def unpark (s : SocketId) (i : Nat) : Endpoint J :=
  ep.modifySocket s fun sock => { sock with waiting := sock.waiting.eraseIdx i }

@[simp] theorem identity_unpark (s s' : SocketId) (i : Nat) : (ep.unpark s i).identity s' = ep.identity s' :=
  ep.identity_modifySocket_same s s' _ fun _ => rfl

theorem wanIp_unpark (s : SocketId) (i : Nat) :
    ((ep.unpark s i).sockets s).bind (·.wanIp) = (ep.sockets s).bind (·.wanIp) := by
  rw [unpark, sockets_modifySocket, if_pos rfl]
  cases ep.sockets s <;> rfl

theorem releaseSlot_unpark (s : SocketId) (i : Nat) : (ep.unpark s i).releaseSlot s = ep.releaseSlot s := by
  simp only [releaseSlot, identity_unpark]
  rfl

/-- Set the identity of a socket. -/
def assign (s : SocketId) (side : Side) : Endpoint J :=
  ep.modifySocket s fun sock => { sock with deviceId := some side.1, clientKind := some side.2 }

theorem identity_assign {s : SocketId} (hs : (ep.sockets s).isSome) (side : Side) (s' : SocketId) :
    (ep.assign s side).identity s' = if s = s' then some side else ep.identity s' := by
  obtain ⟨sock, hs⟩ := Option.isSome_iff_exists.1 hs
  unfold identity assign
  rw [sockets_modifySocket]
  by_cases h : s = s'
  · subst h
    simp [hs, Socket.identity]
  · rw [if_neg h, if_neg (Ne.symm h)]

theorem isOpen_assign (s : SocketId) (side : Side) (s' : SocketId) :
    (ep.assign s side).isOpen s' ↔ ep.isOpen s' :=
  ep.isOpen_modifySocket_same s s' _ fun _ => rfl

@[simp] theorem isOpen_unpark (s s' : SocketId) (i : Nat) : (ep.unpark s i).isOpen s' ↔ ep.isOpen s' :=
  ep.isOpen_modifySocket_same s s' _ fun _ => rfl

/-- An event hands out no id, or it is a request that may hand out the one its
resumption carries. -/
def IdsAfter (env : Env J) (ep : Endpoint J) (e : Event J) (ep' : Endpoint J) : Prop :=
  (ep'.issued = ep.issued ∧ ∀ op ∈ ops env ep e, keepsIds op) ∨
    ∃ s i device sid now d k target pk, e = .resume s i device sid now ∧
      ops env ep e = [.requestConnect sid d k target pk] ∧
      ep'.issued = if (ep.registry.requestConnect sid d k target pk).1.ok then sid :: ep.issued else ep.issued

/-- A handler that a lookup carried on. -/
structure Resumed (env : Env J) (ep : Endpoint J) (s : SocketId) (e : Event J) (ep' : Endpoint J) : Prop where
  sockets : (∃ i side, registers env ep e = some (s, side) ∧
      ep'.sockets = ((ep.unpark s i).assign s side).sockets) ∨
    (∃ i, registers env ep e = none ∧ ep'.sockets = (ep.unpark s i).sockets)
  registry : ep'.registry = performAll ep.registry (ops env ep e)
  issued : IdsAfter env ep e ep'

theorem onResume_resumed (s : SocketId) (i : Nat) (device : Lookup) (sessionId : SessionId) (now : Nat) :
    Resumed env ep s (.resume s i device sessionId now) (onResume env ep s i device sessionId now).1 := by
  -- a handler that stops at the lookup's answer
  have stopped (hr : registers env ep (.resume s i device sessionId now) = none)
      (ho : ops env ep (.resume s i device sessionId now) = []) :
      Resumed env ep s (.resume s i device sessionId now) (ep.unpark s i) :=
    ⟨.inr ⟨i, hr, rfl⟩, by rw [ho]; rfl, .inl ⟨rfl, by simp [ho]⟩⟩
  cases hw : ep.waitingAt s i with
  | none =>
    simp only [onResume, hw]
    exact stopped (by cases device <;> simp [registers, hw]) (by simp [ops, hw])
  | some msg =>
    cases msg with
    | register d secret kind mac canWake rid =>
      simp only [onResume, hw]
      cases device with
      | failed => exact stopped rfl (by simp [ops, hw])
      | found device =>
        cases ha : env.authenticate device secret with
        | none =>
          simp only [resumeRegister, ha]
          exact stopped (by simp [registers, hw, ha]) (by simp [ops, hw, ha])
        | some row =>
          simp only [resumeRegister, ha]
          refine ⟨.inl ⟨i, (d, kind), by simp [registers, hw, ha], rfl⟩, ?_, .inl ⟨rfl, fun op hop => ?_⟩⟩
          rotate_left
          · simp only [ops, hw, ha, List.mem_append, List.mem_singleton] at hop
            rcases hop with hop | rfl
            · exact ep.keepsIds_releases s op hop
            · rfl
          have released := ep.releaseSlot_unpark s i
          have wanIp := ep.wanIp_unpark s i
          simp only [unpark] at released wanIp
          simp only [ops, hw, ha, performAll_append, released, wanIp, registry_releaseSlot]
          rfl
    | connectRequest target pk rid =>
      have none_registers : registers env ep (.resume s i device sessionId now) = none := by
        cases device <;> simp [registers, hw]
      have same : (ep.unpark s i).identity s = ep.identity s := ep.identity_unpark s s i
      simp only [unpark] at same
      simp only [onResume, hw, resumeConnectRequest, same]
      cases hid : ep.identity s with
      | none => exact stopped none_registers (by simp [ops, hw, hid])
      | some side =>
        dsimp only
        split
        · rename_i refused
          exact stopped none_registers (by simp [ops, hw, hid, refused])
        · rename_i passed
          have call : ops env ep (.resume s i device sessionId now) =
              [.requestConnect sessionId side.1 side.2 target pk] := by simp [ops, hw, hid, passed]
          exact ⟨.inr ⟨i, none_registers, rfl⟩, by rw [call]; rfl, .inr ⟨_, _, _, _, _, _, _, _, _, rfl, call, rfl⟩⟩
    | wake target rid =>
      simp only [onResume, hw]
      exact stopped (by cases device <;> simp [registers, hw]) (by simp [ops, hw])
    | _ =>
      simp only [onResume, hw]
      exact stopped (by cases device <;> simp [registers, hw]) (by simp [ops, hw])

/-- A handler that goes on does not ask the limiter again. -/
theorem limiter_resume (s : SocketId) (i : Nat) (device : Lookup) (sessionId : SessionId) (now : Nat) :
    (handle env ep (.resume s i device sessionId now)).1.limiter = ep.limiter := by
  simp only [handle, onResume]
  split
  · unfold resumeRegister
    split
    · rfl
    · split <;> rfl
  · unfold resumeConnectRequest
    split
    · rfl
    · split <;> rfl
  · rfl
  · rfl

/-! ## Every event -/

/-- The registry sees an event as its list of calls. -/
theorem registry_handle (e : Event J) : (handle env ep e).1.registry = performAll ep.registry (ops env ep e) := by
  cases e with
  | connection s wanIp => rfl
  | message s raw now => exact (onMessage_ran env ep s raw now).registry
  | resume s i device sessionId now => exact (onResume_resumed env ep s i device sessionId now).registry
  | close s => exact ep.registry_releaseSlot s

theorem ids_handle (e : Event J) : IdsAfter env ep e (handle env ep e).1 := by
  cases e with
  | connection s wanIp => exact .inl ⟨rfl, by simp [ops]⟩
  | message s raw now =>
    refine .inl ⟨(onMessage_ran env ep s raw now).issued, ?_⟩
    simp only [ops]
    cases raw.filter ClientMessage.wellFormed with
    | none => simp
    | some msg =>
      cases ep.identity s with
      | none => simp
      | some side => exact keepsIds_answers side.1 side.2 msg
  | resume s i device sessionId now => exact (onResume_resumed env ep s i device sessionId now).issued
  | close s => exact .inl ⟨rfl, ep.keepsIds_releases s⟩

/-- Only a completed registration changes an identity. -/
theorem identity_handle {e : Event J} (he : ep.admits e) (s : SocketId) :
    (handle env ep e).1.identity s =
      match registers env ep e with
      | some (s', side) => if s' = s then some side else ep.identity s
      | none => ep.identity s := by
  cases e with
  | connection s' wanIp =>
    simp only [handle, registers, identity, Function.update_apply]
    split
    · rename_i h
      subst h
      rw [show ep.sockets s = none from he]
      rfl
    · rfl
  | message s' raw now =>
    rcases (onMessage_ran env ep s' raw now).sockets with h | ⟨msg, h⟩
    · simp only [handle, registers, identity, h]
    · simp only [handle, registers, identity, h]
      exact ep.identity_modifySocket_same s' s _ fun _ => rfl
  | resume s' i device sessionId now =>
    rcases (onResume_resumed env ep s' i device sessionId now).sockets with ⟨j, side, hr, h⟩ | ⟨j, hr, h⟩
    · have connected : ((ep.unpark s' j).sockets s').isSome := by
        rw [unpark, isSome_modifySocket]
        exact connected_of_waitingAt he.1
      have assigned := (ep.unpark s' j).identity_assign connected side s
      rw [identity_unpark] at assigned
      simp only [handle, hr, identity, h]
      exact assigned
    · simp only [handle, hr, identity, h]
      exact ep.identity_unpark s' s j
  | close s' => exact ep.identity_modifySocket_same s' s _ fun _ => rfl

/-- A socket is open from its connection to its close event. -/
theorem isOpen_handle (e : Event J) (s : SocketId) : (handle env ep e).1.isOpen s ↔
    (ep.isOpen s ∧ e ≠ .close s) ∨ ∃ wanIp, e = .connection s wanIp := by
  cases e with
  | connection s' wanIp =>
    by_cases h : s = s'
    · subst h
      simp [handle, isOpen]
    · simp [handle, isOpen, h, Ne.symm h]
  | message s' raw now =>
    have same : (handle env ep (.message s' raw now)).1.isOpen s ↔ ep.isOpen s := by
      rcases (onMessage_ran env ep s' raw now).sockets with h | ⟨msg, h⟩
      · simp only [handle, isOpen, h]
      · simp only [handle, isOpen, h]
        exact ep.isOpen_modifySocket_same s' s _ fun _ => rfl
    simpa using same
  | resume s' i device sessionId now =>
    have same : (handle env ep (.resume s' i device sessionId now)).1.isOpen s ↔ ep.isOpen s := by
      rcases (onResume_resumed env ep s' i device sessionId now).sockets with ⟨j, side, -, h⟩ | ⟨j, -, h⟩
      · simp only [handle, isOpen, h]
        exact ((ep.unpark s' j).isOpen_assign s' side s).trans (ep.isOpen_unpark s' s j)
      · simp only [handle, isOpen, h]
        exact ep.isOpen_unpark s' s j
    simpa using same
  | close s' =>
    by_cases h : s = s'
    · subst h
      simp [handle, onClose, isOpen, sockets_modifySocket]
    · simp [handle, onClose, isOpen, sockets_modifySocket, h, Ne.symm h]

/-! ## The endpoint runs the registry -/

theorem reg_after (t : Trace SocketId J) (ops : List (Op SocketId J)) :
    ((registrySystem SocketId J).after t ops).reg = performAll t.reg ops := by
  induction ops generalizing t with
  | nil => rfl
  | cons op ops ih => exact ih _

theorem ids_after (t : Trace SocketId J) {ops : List (Op SocketId J)} (h : ∀ op ∈ ops, keepsIds op) :
    ((registrySystem SocketId J).after t ops).issued = t.issued ∧ (registrySystem SocketId J).Valid t ops := by
  induction ops generalizing t with
  | nil => exact ⟨rfl, trivial⟩
  | cons op ops ih =>
    have one : (t.perform op).issued = t.issued ∧ t.freshId op := by
      have hop := h op List.mem_cons_self
      cases op with
      | requestConnect => cases hop
      | _ => exact ⟨rfl, trivial⟩
    obtain ⟨hissued, hv⟩ := ih (t.perform op) fun op' h' => h op' (List.mem_cons_of_mem _ h')
    exact ⟨hissued.trans one.1, one.2, hv⟩

/-- The endpoint's registry and ids are those of a trace of calls. -/
structure Follows (ep : Endpoint J) (t : Trace SocketId J) : Prop where
  reg : t.reg = ep.registry
  issued : t.issued = ep.issued

variable {env ep}

/-- The calls of an event are a run of the registry that ends where the
endpoint's registry does. -/
theorem Follows.handle {t : Trace SocketId J} (h : Follows ep t) {e : Event J} (he : ep.admits e) :
    (registrySystem SocketId J).Valid t (ops env ep e) ∧
      Follows (Endpoint.handle env ep e).1 ((registrySystem SocketId J).after t (ops env ep e)) := by
  have reg : ((registrySystem SocketId J).after t (ops env ep e)).reg = (Endpoint.handle env ep e).1.registry := by
    rw [reg_after, h.reg, registry_handle]
  rcases ids_handle env ep e with ⟨hids, hkeep⟩ | ⟨s, i, device, sid, now, d, k, target, pk, rfl, hops, hids⟩
  · obtain ⟨hissued, hv⟩ := ids_after t hkeep
    exact ⟨hv, reg, by rw [hissued, h.issued, hids]⟩
  · have fresh : sid ∉ t.issued := by
      rw [h.issued]
      exact he.2
    refine ⟨by rw [hops]; exact ⟨fresh, trivial⟩, reg, ?_⟩
    rw [hops, hids, ← h.reg, ← h.issued]
    rfl

/-- The registry of every reachable endpoint is reached by a sequence of calls. -/
theorem follows_registry (h : (signaling env).Reachable ep) :
    ∃ t, (registrySystem SocketId J).Reachable t ∧ Follows ep t := by
  refine System.Reachable.invariant (P := fun ep => ∃ t, (registrySystem SocketId J).Reachable t ∧ Follows ep t)
    (fun ep0 h0 => ?_) (fun ep0 e _ ⟨t, ht, hf⟩ he => ?_) h
  · cases h0
    exact ⟨_, .init ⟨_, rfl⟩, rfl, rfl⟩
  · obtain ⟨hv, hf'⟩ : (registrySystem SocketId J).Valid t (ops env ep0 e) ∧ _ := hf.handle he
    exact ⟨_, ht.after hv, hf'⟩

end Endpoint

end ZortilWatch.Signaling
