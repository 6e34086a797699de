import ZortilWatch.Lib.Refinement
import ZortilWatch.Signaling.Capacity
import ZortilWatch.Signaling.RegistryClosing

/-!
# What is said of a session

Everything the server sends about one session id, to whichever party, is a word
of a small protocol (`Phase.next`): one `incoming_request`, then signals, one
`connect_ready` for the offerer with at most one for the answerer behind it,
signals again, and at most one `session_close`, after which nothing follows.
`Turn` lists what one call can say of a session and do to it. A run of the
registry is a sequence of turns, and the endpoint adds no word of its own, so
every run of the endpoint speaks the protocol (`sessions_speak_protocol`).
-/

namespace ZortilWatch.Signaling

/-- What a message says of the session it names. -/
inductive Saying where
  | asked
  | ready (role : Role)
  | signal
  | closed
  deriving DecidableEq, Repr

def ServerMessage.saying? {J : Type} (sid : SessionId) : ServerMessage J → Option Saying
  | .incomingRequest sid' _ _ _ => if sid' = sid then some .asked else none
  | .connectReady sid' role _ _ => if sid' = sid then some (.ready role) else none
  | .signal sid' _ _ => if sid' = sid then some .signal else none
  | .sessionClose sid' _ => if sid' = sid then some .closed else none
  | _ => none

/-- How far the conversation about a session has come. -/
inductive Phase where
  | unknown
  | requested
  | offered
  | ready
  | over
  deriving DecidableEq, Repr

namespace Phase

def next : Phase → Saying → Option Phase
  | .unknown, .asked => some .requested
  | .requested, .signal => some .requested
  | .requested, .ready .offerer => some .offered
  | .offered, .ready .answerer => some .ready
  | .offered, .signal => some .offered
  | .ready, .signal => some .ready
  | .requested, .closed | .offered, .closed | .ready, .closed => some .over
  | _, _ => none

/-- The phase a list of words leads to, if each was in turn. -/
def follow (p : Phase) (words : List Saying) : Option Phase := words.foldlM next p

theorem follow_append (p : Phase) (words words' : List Saying) :
    p.follow (words ++ words') = (p.follow words).bind fun q => q.follow words' :=
  List.foldlM_append

/-- The phases a session in this state can be in. An id that names no session was
never heard of, or its conversation stopped where it was. -/
def Fits (p : Phase) (issued : Prop) : Option Session → Prop
  | none => ¬ issued → p = .unknown
  | some s =>
    match s.status with
    | .pending => p = .requested
    | .ready => p = .offered ∨ p = .ready

end Phase

/-- What a listener makes of the messages in a list of calls on connections. -/
def heard {C J α : Type} (g : C → ServerMessage J → Option α) (out : List (Effect C J)) : List α :=
  out.filterMap fun
    | .send conn msg => g conn msg
    | _ => none

/-- The words about `sid` in a list of calls on connections. -/
def said {C J : Type} (sid : SessionId) (out : List (Effect C J)) : List Saying :=
  heard (fun _ msg => msg.saying? sid) out

section Said

variable {C J : Type} {sid : SessionId} {out : List (Effect C J)}

theorem ServerMessage.sessionId_of_saying {msg : ServerMessage J} {w : Saying} (h : msg.saying? sid = some w) :
    msg.sessionId? = some sid := by
  cases msg <;> simp only [saying?, reduceCtorEq] at h <;> split at h <;> simp_all [sessionId?]

theorem heard_append {α : Type} {g : C → ServerMessage J → Option α} (out out' : List (Effect C J)) :
    heard g (out ++ out') = heard g out ++ heard g out' :=
  List.filterMap_append

theorem heard_eq_nil {α : Type} {g : C → ServerMessage J → Option α}
    (deaf : ∀ conn msg, .send conn msg ∈ out → g conn msg = none) : heard g out = [] := by
  apply List.filterMap_eq_nil_iff.2
  intro x hx
  cases x with
  | send conn msg => exact deaf conn msg hx
  | _ => rfl

theorem said_append (out out' : List (Effect C J)) : said sid (out ++ out') = said sid out ++ said sid out' :=
  heard_append out out'

theorem said_eq_nil (other : ∀ conn msg, .send conn msg ∈ out → msg.sessionId? ≠ some sid) : said sid out = [] := by
  apply heard_eq_nil
  intro conn msg sent
  by_contra speaks
  obtain ⟨w, hw⟩ := Option.ne_none_iff_exists'.1 speaks
  exact other conn msg sent (ServerMessage.sessionId_of_saying hw)

/-- Calls that only close say what `notices` counts. -/
theorem said_of_closes (only : ∀ conn msg, .send conn msg ∈ out → ∀ id, msg.sessionId? = some id →
    ∃ reason, msg = .sessionClose id reason) : said sid out = (notices sid out).map fun _ => .closed := by
  unfold said heard notices
  rw [List.map_filterMap]
  apply List.filterMap_congr
  intro x hx
  cases x with
  | send conn msg =>
    cases hid : msg.sessionId? with
    | none => cases msg <;> first | rfl | cases hid
    | some id =>
      obtain ⟨reason, rfl⟩ := only conn msg hx id hid
      by_cases same : id = sid <;> simp [ServerMessage.saying?, same]
  | _ => rfl

end Said

/-! ## One call -/

/-- What one call says of a session and does to it. -/
inductive Turn : Option Session → List Saying → Option Session → Prop where
  | quiet (now : Option Session) : Turn now [] now
  | asked (s : Session) (pending : s.status = .pending) : Turn none [.asked] (some s)
  | signalled (s : Session) : Turn (some s) [.signal] (some s)
  | accepted (s : Session) (answerer : List Saying) (pending : s.status = .pending)
      (atMost : answerer = [] ∨ answerer = [.ready .answerer]) :
      Turn (some s) (.ready .offerer :: answerer) (some { s with status := .ready })
  | ended (s : Session) (words : List Saying) (atMost : words = [] ∨ words = [.closed]) : Turn (some s) words none

namespace Registry

variable {C J : Type} {r : Registry C J} {sid : SessionId} {s : Session}

theorem closes_teardown {sid' : SessionId} {reason : String} {initiator : Side} {conn : C} {msg : ServerMessage J}
    (sent : .send conn msg ∈ (r.teardown sid' reason initiator).2) : msg = .sessionClose sid' reason := by
  obtain ⟨s', -, ⟨h, -⟩ | ⟨side, e, -, -, -, h⟩⟩ := r.mem_teardown_out sent
  · cases h
  · cases h
    rfl

/-- Besides the side that ends a session there is at most one to tell. -/
theorem length_peersOf_le (r : Registry C J) {causer : Side} (member : s.HasSide causer) :
    (r.peersOf s causer).length ≤ 1 := by
  refine Nat.le_trans (List.length_filterMap_le ..) ?_
  unfold Session.sides
  rcases member with rfl | rfl
  · by_cases same : s.controllerSide = s.hostSide
    · simp [same]
    · simp [same, Ne.symm same]
  · by_cases same : s.controllerSide = s.hostSide
    · simp [same]
    · simp [same]

/-- An accept tells the host, and the controller if it is still there. -/
theorem turn_of_accepted (hosted : r.ListsAll intoHost) (hs : r.sessions.get sid = some s)
    (pending : s.status = .pending) :
    Turn (some s) (said sid (r.acceptOut sid s)) (some { s with status := .ready }) := by
  obtain ⟨e, he, -⟩ := hosted sid s s.hostSide hs rfl
  have words : said sid (r.acceptOut sid s) = .ready .offerer ::
      said sid (r.sendTo s.controllerSide
        (.connectReady sid .answerer .host (r.opts.iceServersFor s.controllerId))) := by
    simp [acceptOut, sendTo, he, said, heard, ServerMessage.saying?]
  rw [words]
  apply Turn.accepted s _ pending
  unfold sendTo
  cases r.slot s.controllerSide.1 s.controllerSide.2 with
  | none => exact .inl rfl
  | some c => exact .inr (by simp [said, heard, ServerMessage.saying?])

variable [DecidableEq C]

/-- The calls that end sessions send notices of their end, and a refusal to one that asked. -/
theorem sent_of_ends {op : Op C J} {side : Side} (ends : op.Ends side) {conn : C} {msg : ServerMessage J}
    (sent : .send conn msg ∈ (r.perform op).2.2) :
    (∃ sid reason, msg = .sessionClose sid reason) ∨ ∃ code rid after, msg = .connectErr code rid after := by
  cases op with
  | offline d k guard =>
    rcases r.offline_cases d k guard with h | ⟨e, -, -, h⟩ <;> simp only [perform, h] at sent
    · cases sent
    · revert sent
      refine teardownAll_induct (P := fun _ out => .send conn msg ∈ out →
        (∃ sid reason, msg = .sessionClose sid reason) ∨ ∃ code rid after, msg = .connectErr code rid after)
        (fun r' out sid' _ before sent => ?_) fun sent => by cases sent
      rcases List.mem_append.1 sent with sent | sent
      · exact before sent
      · exact .inl ⟨sid', _, closes_teardown sent⟩
  | rejectConnect sid' d k reason =>
    rcases r.rejectConnect_cases sid' d k reason with h | ⟨s', -, -, h⟩ <;> simp only [perform, h] at sent
    · cases sent
    · rcases List.mem_append.1 sent with sent | sent
      · obtain ⟨e, -, h⟩ := r.mem_sendTo.1 sent
        cases h
        exact .inr ⟨_, _, _, rfl⟩
      · exact .inl ⟨sid', _, closes_teardown sent⟩
  | closeSession sid' d k reason =>
    rcases r.closeSession_cases sid' d k reason with h | ⟨_, _, -, -, h⟩ <;> simp only [perform, h] at sent
    · cases sent
    · exact .inl ⟨sid', _, closes_teardown sent⟩
  | online | touch | dispatchWake | requestConnect | acceptConnect | relaySignal => cases ends

/-- They send nothing about a session but its end. -/
theorem closes_of_ends {op : Op C J} {side : Side} (ends : op.Ends side) {conn : C} {msg : ServerMessage J}
    (sent : .send conn msg ∈ (r.perform op).2.2) {id : SessionId} (names : msg.sessionId? = some id) :
    ∃ reason, msg = .sessionClose id reason := by
  rcases sent_of_ends ends sent with ⟨sid', reason, rfl⟩ | ⟨code, rid, after, rfl⟩
  · cases names
    exact ⟨reason, rfl⟩
  · cases names

variable (sid) in
/-- A call that ends sessions leaves the ones it does not end as they are. -/
theorem get_of_ends {op : Op C J} {side : Side} (ends : op.Ends side) :
    (r.perform op).2.1.sessions.get sid = none ∨
      (r.perform op).2.1.sessions.get sid = r.sessions.get sid := by
  cases op with
  | offline d k guard =>
    rcases r.offline_cases d k guard with h | ⟨e, -, -, h⟩ <;> simp only [perform, h]
    · exact .inr trivial
    · rw [get_teardownAll, sessions_dropSlot]
      split
      · exact .inl rfl
      · exact .inr rfl
  | rejectConnect sid' d k reason =>
    rcases r.rejectConnect_cases sid' d k reason with h | ⟨s', -, -, h⟩ <;> simp only [perform, h]
    · exact .inr trivial
    · rw [get_teardown]
      split
      · exact .inl rfl
      · exact .inr rfl
  | closeSession sid' d k reason =>
    rcases r.closeSession_cases sid' d k reason with h | ⟨_, _, -, -, h⟩ <;> simp only [perform, h]
    · exact .inr trivial
    · rw [get_teardown]
      split
      · exact .inl rfl
      · exact .inr rfl
  | online | touch | dispatchWake | requestConnect | acceptConnect | relaySignal => cases ends

/-- A call that ends sessions says at most once that this one is closed. -/
theorem turn_of_ends (hm : r.Members) {op : Op C J} (side : Side) (ends : op.Ends side)
    (hs : r.sessions.get sid = some s) :
    Turn (some s) (said sid (r.perform op).2.2) ((r.perform op).2.1.sessions.get sid) := by
  have words : said sid (r.perform op).2.2 = (notices sid (r.perform op).2.2).map fun _ => .closed :=
    said_of_closes fun _ _ sent _ names => closes_of_ends ends sent names
  cases after : (r.perform op).2.1.sessions.get sid with
  | none =>
    obtain ⟨causer, -, member, told⟩ := hm.perform_closes hs after
    apply Turn.ended
    rw [words, told]
    have few := length_peersOf_le (r.perform op).2.1 member
    match h : (r.perform op).2.1.peersOf s causer, few with
    | [], _ => exact .inl rfl
    | [conn], _ => exact .inr rfl
  | some s' =>
    have same : some s' = some s := by
      rcases get_of_ends sid ends with gone | same
      · rw [after] at gone
        cases gone
      · rw [← after, same, hs]
    rw [same, words, notices_of_open op (Option.isSome_of_eq_some after)]
    exact .quiet _

/-- Every call takes one turn for every session. -/
theorem perform_turn (hm : r.Members) (hosted : r.ListsAll intoHost) {op : Op C J}
    (fresh : ∀ sid d k t pk, op = .requestConnect sid d k t pk → r.sessions.get sid = none) (sid : SessionId) :
    Turn (r.sessions.get sid) (said sid (r.perform op).2.2) ((r.perform op).2.1.sessions.get sid) := by
  cases hs : r.sessions.get sid with
  | none =>
    cases after : (r.perform op).2.1.sessions.get sid with
    | none =>
      have silent : said sid (r.perform op).2.2 = [] := by
        apply said_eq_nil
        intro conn msg sent names
        obtain ⟨s, h | h, -⟩ := r.perform_addressed op conn msg sid sent names
        · rw [hs] at h
          cases h
        · rw [after] at h
          cases h
      rw [silent]
      exact .quiet _
    | some s =>
      rcases r.perform_opens op (Option.isSome_of_eq_some after) with h | ⟨d, k, target, pk, rfl, -⟩
      · simp [hs] at h
      · rcases r.requestConnect_cases sid d k target pk with ⟨_, h⟩ | ⟨host, -, -, h⟩ <;>
          simp only [perform, h] at after ⊢
        · rw [hs] at after
          cases after
        · rw [sessions_granted, JsMap.get_set_self] at after
          cases after
          have word : said sid [.send host.conn (.incomingRequest sid .controller pk (r.opts.iceServersFor target))] =
              [.asked] := by simp [said, heard, ServerMessage.saying?]
          rw [word]
          exact .asked _ rfl
  | some s =>
    -- calls that leave the session and do not speak of it
    have quiet (same : (r.perform op).2.1.sessions.get sid = some s) (silent : said sid (r.perform op).2.2 = []) :
        Turn (some s) (said sid (r.perform op).2.2) ((r.perform op).2.1.sessions.get sid) := by
      rw [same, silent]
      exact .quiet _
    cases op with
    | online d k conn info now =>
      refine quiet hs (said_eq_nil fun conn' msg sent => ?_)
      obtain ⟨c, reason, h⟩ := r.mem_online_out d k conn info now sent
      cases h
    | touch d now => exact quiet (by simpa [perform, touch] using hs) rfl
    | dispatchWake d target mac wanIp accountId =>
      refine quiet hs (said_eq_nil fun conn msg sent => ?_)
      obtain ⟨c, mac, h⟩ := r.mem_dispatchWake_out sent
      cases h
      simp [ServerMessage.sessionId?]
    | requestConnect sid' d k t pk =>
      have other : sid' ≠ sid := by
        rintro rfl
        rw [fresh _ _ _ _ _ rfl] at hs
        cases hs
      rcases r.requestConnect_cases sid' d k t pk with ⟨_, h⟩ | ⟨host, -, -, h⟩
      · exact quiet (by simpa [perform, h] using hs) (by simp only [perform, h]; rfl)
      · refine quiet ?_ ?_ <;> simp only [perform, h]
        · rw [sessions_granted, JsMap.get_set_ne _ _ other, hs]
        · simp [said, heard, ServerMessage.saying?, other]
    | acceptConnect sid' d k =>
      rcases r.acceptConnect_cases sid' d k with h | ⟨s', hs', -, pending, h⟩
      · exact quiet (by simpa [perform, h] using hs) (by simp only [perform, h]; rfl)
      · by_cases same : sid' = sid
        · subst same
          cases hs.symm.trans hs'
          simp only [perform, h, JsMap.get_set_self]
          exact turn_of_accepted hosted hs pending
        · refine quiet ?_ ?_ <;> simp only [perform, h]
          · rw [JsMap.get_set_ne _ _ same, hs]
          · apply said_eq_nil
            intro conn msg sent names
            simp only [acceptOut, List.mem_cons, reduceCtorEq, List.mem_append, false_or, mem_sendTo] at sent
            rcases sent with ⟨_, -, h⟩ | ⟨_, -, h⟩ <;> cases h <;> cases names <;> exact same rfl
    | relaySignal sid' d k kind payload =>
      rcases r.relaySignal_cases sid' d k kind payload with h | ⟨s', peer, -, -, h⟩
      · exact quiet (by simpa [perform, h] using hs) (by simp only [perform, h]; rfl)
      · by_cases same : sid' = sid
        · subst same
          have word : said sid' [.send peer.conn (.signal sid' kind payload)] = [.signal] := by
            simp [said, heard, ServerMessage.saying?]
          simp only [perform, h, word, hs]
          exact .signalled s
        · refine quiet ?_ ?_ <;> simp only [perform, h]
          · exact hs
          · simp [said, heard, ServerMessage.saying?, same]
    | offline d k guard => exact turn_of_ends hm (d, k) rfl hs
    | rejectConnect sid' d k reason => exact turn_of_ends hm (d, k) rfl hs
    | closeSession sid' d k reason => exact turn_of_ends hm (d, k) rfl hs

end Registry

/-! ## Runs -/

/-- A turn takes a phase that fits a session to one that fits what it became. -/
theorem Turn.follow {before after : Option Session} {words : List Saying} (turn : Turn before words after)
    {p : Phase} {issued issued' : Prop} (fits : p.Fits issued before) (mono : issued → issued')
    (fresh : before = none → after ≠ none → ¬ issued) (closed : before ≠ none → issued) :
    ∃ q, p.follow words = some q ∧ q.Fits issued' after := by
  cases turn with
  | quiet =>
    refine ⟨p, rfl, ?_⟩
    cases before with
    | none => exact fun unissued => fits fun h => unissued (mono h)
    | some s => exact fits
  | asked s pending =>
    have unknown : p = .unknown := fits (fresh rfl (by simp))
    subst unknown
    exact ⟨.requested, rfl, by simp [Phase.Fits, pending]⟩
  | signalled s =>
    refine ⟨p, ?_, fits⟩
    cases hst : s.status <;> simp only [Phase.Fits, hst] at fits
    · subst fits
      rfl
    · rcases fits with rfl | rfl <;> rfl
  | accepted s answerer pending atMost =>
    simp only [Phase.Fits, pending] at fits
    subst fits
    rcases atMost with rfl | rfl
    · exact ⟨.offered, rfl, .inl rfl⟩
    · exact ⟨.ready, rfl, .inr rfl⟩
  | ended s words atMost =>
    have vacuous (q : Phase) : q.Fits issued' none := fun unissued => absurd (mono (closed (by simp))) unissued
    rcases atMost with rfl | rfl
    · exact ⟨p, rfl, vacuous p⟩
    · refine ⟨.over, ?_, vacuous _⟩
      cases hst : s.status <;> simp only [Phase.Fits, hst] at fits
      · subst fits
        rfl
      · rcases fits with rfl | rfl <;> rfl

namespace Trace

variable {C J : Type} [DecidableEq C] {t : Trace C J}

/-- What was said of `sid` is a word of the protocol, in a phase that fits the
session. -/
def Speaks (t : Trace C J) (sid : SessionId) : Prop :=
  ∃ p, Phase.unknown.follow (said sid t.log) = some p ∧ p.Fits (sid ∈ t.issued) (t.reg.sessions.get sid)

theorem Speaks.perform {sid : SessionId} (speaks : t.Speaks sid) (sane : t.Sane) (hosted : t.reg.Accounted)
    {op : Op C J} (fresh : t.freshId op) : (t.perform op).Speaks sid := by
  obtain ⟨p, word, fits⟩ := speaks
  have turn := Registry.perform_turn sane.members hosted.hosted (sane.free_request fresh) sid
  have mono : sid ∈ t.issued → sid ∈ (t.perform op).issued := t.issued_mono op
  have unissued (closed : t.reg.sessions.get sid = none) (opened : (t.perform op).reg.sessions.get sid ≠ none) :
      sid ∉ t.issued := fun issued => opened ((Gone.mk issued closed).step fresh).closed
  have known (opened : t.reg.sessions.get sid ≠ none) : sid ∈ t.issued :=
    sane.issued sid (Option.isSome_iff_ne_none.2 opened)
  obtain ⟨q, more, fits'⟩ := turn.follow fits mono unissued known
  refine ⟨q, ?_, fits'⟩
  show Phase.unknown.follow (said sid (t.log ++ (t.reg.perform op).2.2)) = some q
  rw [said_append, Phase.follow_append, word]
  exact more

theorem speaks_of_reachable (ht : (registrySystem C J).Reachable t) (sid : SessionId) : t.Speaks sid := by
  refine System.Reachable.invariant (P := fun t => t.Speaks sid) (fun t0 h0 => ?_) (fun t0 op hr speaks fresh => ?_) ht
  · obtain ⟨opts, rfl⟩ := h0
    exact ⟨.unknown, rfl, fun _ => rfl⟩
  · exact speaks.perform (sane_of_reachable hr) (Registry.accounted_of_reachable hr) fresh

end Trace

/-! ## The endpoint -/

namespace Endpoint

variable {J : Type}

/-- A message the endpoint answers with by itself. -/
def isReply : ServerMessage J → Bool
  | .registerOk .. | .registerErr .. | .presenceState .. | .connectErr .. | .wakeResult .. | .error .. => true
  | _ => false

/-- The calls on connections that a `wake` makes after its lookup. -/
def wakeEffects (ep : Endpoint J) (target : DeviceId) (device : Lookup) : List (Effect SocketId J) :=
  let row := match device with
    | .failed => none
    | .found row => row
  (ep.registry.dispatchWake target (row.bind (·.macAddress)) (row.bind (·.lastWanIp)) (row.map (·.accountId))).2

/-- What a listener makes of the messages in what the endpoint does. -/
def told {α : Type} (g : SocketId → ServerMessage J → Option α) (out : List (Output J)) : List α :=
  out.filterMap fun
    | .send s msg => g s msg
    | _ => none

/-- The words about `sid` in what the endpoint does. -/
def spoken (sid : SessionId) (out : List (Output J)) : List Saying := told (fun _ msg => msg.saying? sid) out

/-- The calls on connections and hooks that a list of calls makes. -/
def effectsAll : Registry SocketId J → List (Op SocketId J) → List (Effect SocketId J)
  | _, [] => []
  | r, op :: ops => (r.perform op).2.2 ++ effectsAll (r.perform op).2.1 ops

def wokenBy (ep : Endpoint J) : Event J → List (Effect SocketId J)
  | .resume s i device _ _ =>
    match ep.waitingAt s i with
    | some (.wake target _) => ep.wakeEffects target device
    | _ => []
  | _ => []

/-- The calls on connections and hooks that an event makes. -/
def effectsOf (env : Env J) (ep : Endpoint J) (e : Event J) : List (Effect SocketId J) :=
  effectsAll ep.registry (ops env ep e) ++ ep.wokenBy e

/-- The endpoint, giving what each event makes it do. -/
def endpointMachine (env : Env J) : Machine (Endpoint J) (Event J) (List (Output J)) where
  step ep e := ((handle env ep e).2, (handle env ep e).1)

theorem mem_wokenBy {ep : Endpoint J} {e : Event J} {x : Effect SocketId J} (mem : x ∈ ep.wokenBy e) :
    ∃ s i device sessionId now target rid, e = .resume s i device sessionId now ∧
      ep.waitingAt s i = some (.wake target rid) ∧ x ∈ ep.wakeEffects target device := by
  cases e with
  | resume s i device sessionId now =>
    simp only [wokenBy] at mem
    split at mem
    · rename_i target rid hw
      exact ⟨s, i, device, sessionId, now, target, rid, rfl, hw, mem⟩
    · cases mem
  | _ => cases mem

section Words

variable {α : Type} {g : SocketId → ServerMessage J → Option α} (env : Env J) (ep : Endpoint J)

theorem told_append (out out' : List (Output J)) : told g (out ++ out') = told g out ++ told g out' :=
  List.filterMap_append

theorem told_ofEffect (out : List (Effect SocketId J)) : told g (out.map .ofEffect) = heard g out := by
  unfold told heard
  rw [List.filterMap_map]
  apply List.filterMap_congr
  intro x _
  cases x <;> rfl

/-- A listener that does not care for replies hears nothing where there are only replies. -/
theorem told_eq_nil (deaf : ∀ s msg, isReply msg = true → g s msg = none) {out : List (Output J)}
    (replies : ∀ s msg, .send s msg ∈ out → isReply msg = true) : told g out = [] := by
  apply List.filterMap_eq_nil_iff.2
  intro x hx
  cases x with
  | send s msg => exact deaf s msg (replies s msg hx)
  | _ => rfl

theorem effectsAll_append (r : Registry SocketId J) (ops ops' : List (Op SocketId J)) :
    effectsAll r (ops ++ ops') = effectsAll r ops ++ effectsAll (performAll r ops) ops' := by
  induction ops generalizing r with
  | nil => rfl
  | cons op ops ih =>
    rw [List.cons_append, effectsAll, effectsAll, ih, List.append_assoc]
    rfl

theorem effects_single (r : Registry SocketId J) (op : Op SocketId J) : effectsAll r [op] = (r.perform op).2.2 :=
  List.append_nil _

theorem log_after (t : Trace SocketId J) (ops : List (Op SocketId J)) :
    ((registrySystem SocketId J).after t ops).log = t.log ++ effectsAll t.reg ops := by
  induction ops generalizing t with
  | nil => exact (List.append_nil _).symm
  | cons op ops ih =>
    show ((registrySystem SocketId J).after (t.perform op) ops).log = _
    rw [ih, effectsAll, ← List.append_assoc]
    rfl

theorem effects_releaseSlot (s : SocketId) : (ep.releaseSlot s).2 = effectsAll ep.registry (ep.releases s) := by
  unfold releaseSlot releases
  cases ep.identity s with
  | none => rfl
  | some side =>
    dsimp only
    rw [effects_single]
    rfl

section Replies

variable (deaf : ∀ s msg, isReply msg = true → g s msg = none)
include deaf

/-- A request of a registered socket. -/
theorem told_onRequest (s : SocketId) (d : DeviceId) (k : DeviceKind) (msg : ClientMessage J) (now : Nat) :
    told g (ep.onRequest s d k msg now).2 = heard g (effectsAll ep.registry (answers d k msg)) := by
  cases msg with
  | connectRequest target pk rid =>
    refine told_eq_nil deaf fun s' reply sent => ?_
    simp only [onRequest] at sent
    split at sent
    · cases sent
    · simp only [List.mem_singleton, Output.send.injEq] at sent
      rw [sent.2]
      rfl
  | listPresence ids rid =>
    refine told_eq_nil deaf fun s' reply sent => ?_
    simp only [onRequest, List.mem_singleton, Output.send.injEq] at sent
    rw [sent.2]
    rfl
  | register | wake => rfl
  | connectAccept | connectReject | signal | sessionClose =>
    rw [answers, effects_single]
    exact told_ofEffect _

theorem told_onMessage (s : SocketId) (raw : Option (ClientMessage J)) (now : Nat) :
    told g (ep.onMessage s raw now).2 = heard g (effectsAll ep.registry (ops env ep (.message s raw now))) := by
  have refusal (code reason : String) : told g [.send s (.error code reason none)] = [] := by
    refine told_eq_nil deaf fun s' reply sent => ?_
    simp only [List.mem_singleton, Output.send.injEq] at sent
    rw [sent.2]
    rfl
  simp only [onMessage, ops]
  cases raw.filter ClientMessage.wellFormed with
  | none => exact refusal _ _
  | some msg =>
    dsimp only
    cases hreg : msg.isRegister with
    | true =>
      rw [if_pos rfl]
      cases ep.identity s with
      | none => rfl
      | some side =>
        dsimp only
        rw [answers_of_isRegister hreg]
        rfl
    | false =>
      rw [if_neg Bool.false_ne_true]
      cases ep.identity s with
      | none => exact refusal _ _
      | some side => exact told_onRequest ep deaf s side.1 side.2 msg now

/-- `connect_request` after its lookup. -/
theorem told_resumeConnectRequest (s : SocketId) (target : DeviceId) (pk : Option PasswordKind) (rid : Option String)
    (device : Lookup) (sessionId : SessionId) :
    told g (ep.resumeConnectRequest s target pk rid device sessionId).2 =
      heard g (effectsAll ep.registry (match ep.identity s with
        | none => []
        | some (d, k) => if aclOk d device = false then [] else [.requestConnect sessionId d k target pk])) := by
  have refusal (code : ConnectErrCode) (rest : List (Output J)) (silent : told g rest = []) :
      told g (.send s (.connectErr code rid none) :: rest) = [] := by
    rw [← List.singleton_append, told_append, silent, List.append_nil]
    refine told_eq_nil deaf fun s' reply sent => ?_
    simp only [List.mem_singleton, Output.send.injEq] at sent
    rw [sent.2]
    rfl
  unfold resumeConnectRequest
  cases ep.identity s with
  | none => rfl
  | some side =>
    dsimp only
    split
    · exact refusal _ _ rfl
    · rw [effects_single]
      rcases ep.registry.requestConnect_cases sessionId side.1 side.2 target pk with ⟨code, h⟩ | ⟨host, -, -, h⟩
      · simp only [Registry.perform, h]
        exact refusal _ _ rfl
      · simp only [Registry.perform, h, List.append_nil]
        exact told_ofEffect _

/-- `wake` after its lookup. -/
theorem told_resumeWake (s : SocketId) (target : DeviceId) (rid : Option String) (device : Lookup) :
    told g (ep.resumeWake s target rid device).2 = heard g (ep.wakeEffects target device) := by
  unfold resumeWake wakeEffects
  dsimp only
  rw [List.append_assoc, told_append, told_ofEffect]
  refine (congrArg _ (told_eq_nil deaf fun s' msg sent => ?_)).trans (List.append_nil _)
  rcases List.mem_append.1 sent with sent | audit
  · cases List.mem_singleton.1 sent
    rfl
  · split at audit
    · simp at audit
    · cases audit

theorem told_onResume (s : SocketId) (i : Nat) (device : Lookup) (sessionId : SessionId) (now : Nat) :
    told g (onResume env ep s i device sessionId now).2 =
      heard g (ep.effectsOf env (.resume s i device sessionId now)) := by
  have refusal (code reason why : String) (rid : Option String) :
      told g [.send s (.registerErr code reason rid), Output.closing s why] = [] := by
    refine told_eq_nil deaf fun s' reply sent => ?_
    simp only [List.mem_cons, Output.send.injEq, Output.closing, reduceCtorEq, List.not_mem_nil, or_false] at sent
    rw [sent.2]
    rfl
  cases hw : ep.waitingAt s i with
  | none =>
    simp only [onResume, effectsOf, wokenBy, ops, hw]
    rfl
  | some msg =>
    cases msg with
    | register d secret kind mac canWake rid =>
      simp only [onResume, effectsOf, wokenBy, ops, hw, List.append_nil]
      cases device with
      | failed => exact refusal _ _ _ _
      | found device =>
        cases ha : env.authenticate device secret with
        | none =>
          simp only [resumeRegister, ha]
          exact refusal _ _ _ _
        | some row =>
          simp only [resumeRegister, ha]
          have released := ep.releaseSlot_unpark s i
          have wanIp := ep.wanIp_unpark s i
          simp only [unpark] at released wanIp
          have told_ok (mac wanIp : Option String) :
              told g [.updateDeviceWol d mac wanIp, .send s (.registerOk d now rid)] = [] := by
            refine told_eq_nil deaf fun s' reply sent => ?_
            simp only [List.mem_cons, reduceCtorEq, Output.send.injEq, List.not_mem_nil, or_false, false_or] at sent
            rw [sent.2]
            rfl
          rw [effectsAll_append, effects_single, told_append, told_ofEffect, released, wanIp, effects_releaseSlot,
            registry_releaseSlot, told_ok]
          exact List.append_nil _
    | connectRequest target pk rid =>
      simp only [onResume, effectsOf, wokenBy, ops, hw, List.append_nil]
      rw [← ep.identity_unpark s s i]
      exact told_resumeConnectRequest (ep.unpark s i) deaf s target pk rid device sessionId
    | wake target rid =>
      simp only [onResume, effectsOf, wokenBy, ops, hw]
      exact told_resumeWake (ep.unpark s i) deaf s target rid device
    | listPresence | connectAccept | connectReject | signal | sessionClose =>
      simp only [onResume, effectsOf, wokenBy, ops, hw, List.append_nil]
      rfl

/-- Its replies apart, the endpoint tells what its calls on the registry tell. -/
theorem told_effects (e : Event J) : told g (handle env ep e).2 = heard g (ep.effectsOf env e) := by
  cases e with
  | connection s wanIp => rfl
  | message s raw now => exact (told_onMessage env ep deaf s raw now).trans (congrArg _ (List.append_nil _).symm)
  | resume s i device sessionId now => exact told_onResume env ep deaf s i device sessionId now
  | close s =>
    simp only [handle, onClose, effectsOf, wokenBy, ops, List.append_nil]
    rw [told_ofEffect, effects_releaseSlot]

end Replies

/-- Of sessions it tells what the calls about sessions tell. -/
theorem told_handle (sessions : ∀ s msg, msg.sessionId? = none → g s msg = none) (e : Event J) :
    told g (handle env ep e).2 = heard g (effectsAll ep.registry (ops env ep e)) := by
  have deaf (s : SocketId) (msg : ServerMessage J) (reply : isReply msg = true) : g s msg = none := by
    refine sessions s msg ?_
    cases msg <;> first | rfl | cases reply
  rw [told_effects env ep deaf, effectsOf, heard_append]
  refine (congrArg _ (heard_eq_nil fun s msg sent => ?_)).trans (List.append_nil _)
  obtain ⟨_, _, _, _, _, target, _, -, -, sent⟩ := mem_wokenBy sent
  obtain ⟨_, _, woken⟩ := ep.registry.mem_dispatchWake_out sent
  cases woken
  exact sessions _ _ rfl

end Words

/-- The endpoint says of a session what its calls on the registry say. -/
theorem spoken_handle (env : Env J) (ep : Endpoint J) (e : Event J) (sid : SessionId) :
    spoken sid (handle env ep e).2 = said sid (effectsAll ep.registry (ops env ep e)) := by
  refine told_handle env ep (fun _ msg names => ?_) e
  by_contra speaks
  obtain ⟨w, hw⟩ := Option.ne_none_iff_exists'.1 speaks
  rw [ServerMessage.sessionId_of_saying hw] at names
  cases names

/-- From a state that follows a trace, a run says what the trace goes on to say. -/
theorem Follows.run {env : Env J} {es : List (Event J)} {ep : Endpoint J} {t : Trace SocketId J}
    (follows : Follows ep t)
    (reached : (registrySystem SocketId J).Reachable t) (hv : (signaling env).Valid ep es) (sid : SessionId) :
    ∃ t', (registrySystem SocketId J).Reachable t' ∧ Follows ((signaling env).after ep es) t' ∧
      said sid t'.log = said sid t.log ++ spoken sid ((endpointMachine env).answers ep es).flatten := by
  induction es generalizing ep t with
  | nil => exact ⟨t, reached, follows, (List.append_nil _).symm⟩
  | cons e es ih =>
    obtain ⟨valid, follows'⟩ := follows.handle hv.1
    obtain ⟨t', reached', follows'', words⟩ := ih follows' (reached.after valid) hv.2
    refine ⟨t', reached', follows'', ?_⟩
    have now := spoken_handle env ep e sid
    rw [words, log_after, said_append, Machine.answers, List.flatten_cons, List.append_assoc, follows.reg, ← now]
    congr 1
    exact (told_append _ _).symm

/-- In every run of the endpoint, whatever the sockets send and in whatever order
lookups answer, the messages about any session id are a word of the protocol; it
stands at `requested` while the session is pending and at `offered` or `ready`
while it is accepted, and nothing was said of an id that was never handed out. -/
theorem sessions_speak_protocol (env : Env J) {es : List (Event J)} (hv : (signaling env).Valid (initial env) es)
    (sid : SessionId) :
    let ep := (signaling env).after (initial env) es
    ∃ p, Phase.unknown.follow (spoken sid ((endpointMachine env).answers (initial env) es).flatten) = some p ∧
      p.Fits (sid ∈ ep.issued) (ep.registry.sessions.get sid) := by
  intro ep
  have start : Follows (initial env) ({ reg := (initial env).registry } : Trace SocketId J) := ⟨rfl, rfl⟩
  obtain ⟨t, reached, follows, words⟩ := start.run (.init ⟨_, rfl⟩) hv sid
  obtain ⟨p, word, fits⟩ := Trace.speaks_of_reachable reached sid
  refine ⟨p, ?_, ?_⟩
  · rw [words] at word
    exact word
  · rw [follows.reg, follows.issued] at fits
    exact fits

/-- A requester whose socket closes while its session is pending: the host is asked,
hears the signal sent before, and is told of the end, but never of an answerer. -/
theorem sessions_speak_protocol_lost :
    let es : List (Event Unit) := sampleRequest ++ [.resume 1 0 (.found (some sampleRow)) "s" 0,
      .message 1 (some (.signal "s" .offer ())) 0, .close 1, .message 0 (some (.connectAccept "s")) 0]
    (∃ p, Phase.unknown.follow
        (spoken "s" ((endpointMachine sampleEnv).answers (initial sampleEnv) es).flatten) = some p ∧
      p.Fits ("s" ∈ ((signaling sampleEnv).after (initial sampleEnv) es).issued)
        (((signaling sampleEnv).after (initial sampleEnv) es).registry.sessions.get "s")) ∧
      spoken "s" ((endpointMachine sampleEnv).answers (initial sampleEnv) es).flatten = [.asked, .signal, .closed] := by
  intro es
  refine ⟨sessions_speak_protocol sampleEnv ?_ "s", by decide⟩
  exact ⟨rfl, ⟨_, rfl, rfl⟩, ⟨rfl, List.not_mem_nil⟩, rfl, ⟨_, rfl, rfl⟩, ⟨rfl, List.not_mem_nil⟩, ⟨_, rfl, rfl⟩,
    ⟨rfl, List.not_mem_nil⟩, ⟨_, rfl, rfl⟩, ⟨_, rfl, rfl⟩, ⟨_, rfl, rfl⟩, trivial⟩

end Endpoint

end ZortilWatch.Signaling
