import ZortilWatch.Core.HostSpec

/-!
# The session a host sets up

`serve_session` takes the session to join from whatever `connect_ready` it reads
and `establish_managed` takes any answer and any candidates, without looking at
the session id of the message; messages of a session given up before may still
be on the WebSocket. A `Setup` log is kept beside a run: which session every
message taken was for, and where the offers went.
-/

namespace ZortilWatch.Core

variable {J : Type} (env : HostEnv J)

/-- The negotiation of the request in hand. -/
def Control.negotiation : Control J → Option (Attempt × Negotiation J)
  | .awaitingAnswer a n | .confirming a n => some (a, n)
  | _ => none

/-- The message a step takes for the session it sets up: the id accepted and the id the message carries. -/
def Host.uses (h : Host J) (r : Reading J) : Option (String × String) :=
  match h.control with
  | .awaitingReady a =>
    if r.stop || r.late then none
    else
      match r.recv with
      | .ok (some (.connectReady sid _)) => some (a.sid, sid)
      | _ => none
  | .awaitingAnswer a _ =>
    if r.late then none
    else
      match r.recv with
      | .ok (some (.signal sid kind _)) => if kind = "answer" ∨ kind = "ice" then some (a.sid, sid) else none
      | _ => none
  | _ => none

/-- The sessions the signals among `outs` are for. -/
def sentSignals (outs : List (Output J)) : List String :=
  outs.filterMap fun
    | .send (.signal sid _ _) => some sid
    | _ => none

/-- For each message taken and each signal sent: the id accepted and the id it carries. -/
structure Setup where
  used : List (String × String)
  sent : List (String × String)
  deriving DecidableEq, Repr

def Setup.record (h : Host J) (r : Reading J) (s : Setup) : Setup where
  used := (h.uses r).toList ++ s.used
  sent := h.control.attempt.toList.flatMap (fun a => (sentSignals (h.serve env r).2).map (a.sid, ·)) ++ s.sent

/-- The host loop with its setup log. The messages of the readings, in their order, are the stream. -/
def setupRuns : System (Host J × Setup) (Reading J) :=
  (hostLoop env).recording (fun _ => ⟨[], []⟩) (Setup.record env)

/-- Nothing of another session goes into the session accepted. -/
structure OwnSession (p : Host J × Setup) : Prop where
  used : ∀ u ∈ p.2.used, u.2 = u.1
  joined : ∀ a sid, p.1.control.joined = some (a, sid) → sid = a.sid
  sent : ∀ u ∈ p.2.sent, u.2 = u.1

/-- What comes off the stream in the two waiting loops is for the session accepted. -/
structure OwnMessages (p : Host J × Setup) (r : Reading J) : Prop where
  ready : ∀ a sid ice, p.1.control = .awaitingReady a → r.stop = false → r.late = false →
    r.recv = .ok (some (.connectReady sid ice)) → sid = a.sid
  signal : ∀ a n sid kind payload, p.1.control = .awaitingAnswer a n → r.late = false →
    r.recv = .ok (some (.signal sid kind payload)) → kind = "answer" ∨ kind = "ice" → sid = a.sid

section Steps

variable (h : Host J) (r : Reading J)

theorem uses_eq_some {own carried : String} :
    h.uses r = some (own, carried) ↔
      (∃ a ice, h.control = .awaitingReady a ∧ r.stop = false ∧ r.late = false ∧
        r.recv = .ok (some (.connectReady carried ice)) ∧ a.sid = own) ∨
      ∃ a n kind payload, h.control = .awaitingAnswer a n ∧ r.late = false ∧
        r.recv = .ok (some (.signal carried kind payload)) ∧ (kind = "answer" ∨ kind = "ice") ∧ a.sid = own := by
  constructor
  · intro taken
    unfold Host.uses at taken
    split at taken
    · rename_i a hc
      split at taken
      · cases taken
      · rename_i going
        split at taken
        · rename_i sid ice got
          cases taken
          have running : r.stop = false ∧ r.late = false := by simpa using going
          exact .inl ⟨a, ice, hc, running.1, running.2, got, rfl⟩
        · cases taken
    · rename_i a n hc
      split at taken
      · cases taken
      · rename_i going
        split at taken
        · rename_i sid kind payload got
          split at taken
          · rename_i known
            cases taken
            exact .inr ⟨a, n, kind, payload, hc, by simpa using going, got, known, rfl⟩
          · cases taken
        · cases taken
    · cases taken
  · rintro (⟨a, ice, hc, hs, hl, got, rfl⟩ | ⟨a, n, kind, payload, hc, hl, got, known, rfl⟩)
    · simp [Host.uses, hc, hs, hl, got]
    · simp [Host.uses, hc, hl, got, known]

theorem ownMessages_iff {p : Host J × Setup} :
    OwnMessages p r ↔ ∀ u ∈ p.1.uses r, u.2 = u.1 := by
  constructor
  · rintro own ⟨accepted, carried⟩ taken
    obtain ⟨a, ice, hc, hs, hl, got, rfl⟩ | ⟨a, n, kind, payload, hc, hl, got, known, rfl⟩ := (uses_eq_some _ _).1 taken
    · exact own.ready a carried ice hc hs hl got
    · exact own.signal a n carried kind payload hc hl got known
  · intro own
    constructor
    · intro a sid ice hc hs hl got
      exact own _ ((uses_eq_some _ _).2 (.inl ⟨a, ice, hc, hs, hl, got, rfl⟩))
    · intro a n sid kind payload hc hl got known
      exact own _ ((uses_eq_some _ _).2 (.inr ⟨a, n, kind, payload, hc, hl, got, known, rfl⟩))

instance (p : Host J × Setup) : Decidable (OwnMessages p r) := decidable_of_iff _ (ownMessages_iff r).symm

theorem onSignal_joined {n n' : Negotiation J} {kind : String} {payload : J} {accepted : Bool}
    (took : onSignal env n kind payload accepted = some n') : n'.joined = n.joined := by
  unfold onSignal at took
  split at took
  · split at took
    · cases took
    · split at took
      · cases took; rfl
      · cases took
  · split at took <;> cases took <;> rfl

/-- The session joined is the one before or the one of the `connect_ready` taken. -/
theorem joined_serve {a : Attempt} {sid : String} (joined : (h.serve env r).1.control.joined = some (a, sid)) :
    h.control.joined = some (a, sid) ∨ h.uses r = some (a.sid, sid) := by
  have moves := serve_moves env h r
  have used := @uses_eq_some _ h r a.sid sid
  generalize h.control = c at moves used ⊢
  generalize (h.serve env r).1.control = c' at moves joined
  have none_of {c : Control J} (hc : c.attempt = none) : c.joined = none := by cases c <;> first | rfl | cases hc
  cases moves with
  | idle _ gone => rw [none_of gone] at joined; cases joined
  | dropped gone _ => rw [none_of gone] at joined; cases joined
  | ready hs hl got => cases joined; exact .inr (used.2 (.inl ⟨_, _, rfl, hs, hl, got, rfl⟩))
  | negotiated _ _ took hc =>
    refine .inl ?_
    obtain rfl | rfl := hc <;> simpa [Control.joined, onSignal_joined env took] using joined
  | confirmed => cases joined
  | _ => exact .inl joined

/-- A step that takes no message leaves the answer and the candidates as they are. -/
theorem negotiation_of_unused (unused : h.uses r = none) {a : Attempt} {n : Negotiation J}
    (after : (h.serve env r).1.control.negotiation = some (a, n)) :
    h.control.negotiation = some (a, n) ∨ n.answer = none ∧ n.ice = [] := by
  have moves := serve_moves env h r
  have used := fun carried => @uses_eq_some _ h r a.sid carried
  simp only [unused, reduceCtorEq, false_iff, not_or] at used
  generalize h.control = c at moves used ⊢
  generalize (h.serve env r).1.control = c' at moves after
  have none_of {c : Control J} (hc : c.attempt = none) : c.negotiation = none := by
    cases c <;> first | rfl | cases hc
  cases moves with
  | idle _ gone => rw [none_of gone] at after; cases after
  | dropped gone _ => rw [none_of gone] at after; cases after
  | offered => cases after; exact .inr ⟨rfl, rfl⟩
  | @negotiated b m m' sid kind payload c hl got took hc =>
    obtain ⟨rfl, rfl⟩ : b = a ∧ m' = n := by obtain rfl | rfl := hc <;> cases after <;> exact ⟨rfl, rfl⟩
    have unknown : ¬ (kind = "answer" ∨ kind = "ice") := fun known =>
      (used sid).2 ⟨b, m, kind, payload, rfl, hl, got, known, rfl⟩
    obtain ⟨notAnswer, notIce⟩ := not_or.1 unknown
    simp only [onSignal, notAnswer, notIce, if_false, Option.some.injEq] at took
    exact .inl (took ▸ rfl)
  | confirmed => cases after
  | _ => exact .inl after

/-! Signals go out from `sendOffer` only, for the session joined. -/

theorem whileBusy_signals (loop broken : Control J) : sentSignals (whileBusy loop broken r).2 = [] := by
  unfold whileBusy
  split <;> rfl

theorem poll_signals (code : String) (pending : Option Request) : sentSignals (poll env code pending r).2 = [] := by
  unfold poll
  split
  · rfl
  · split <;> rfl

theorem waitDecision_signals (a : Attempt) (id : Nat) : sentSignals (waitDecision a id r).2 = [] := by
  unfold waitDecision
  split
  · rfl
  · split
    · rfl
    · rfl
    · exact whileBusy_signals r _ _

theorem awaitReady_signals (a : Attempt) : sentSignals (awaitReady a r).2 = [] := by
  unfold awaitReady
  split
  · rfl
  · split
    · rfl
    · exact whileBusy_signals r _ _

theorem sendOffer_signals (a : Attempt) (joined : String) (ice : Option J) :
    ∀ sid ∈ sentSignals (sendOffer a joined ice r).2, sid = joined := by
  unfold sendOffer
  split
  · exact nofun
  · split <;> simp [sentSignals]

theorem awaitAnswer_signals (a : Attempt) (n : Negotiation J) : sentSignals (awaitAnswer env a n r).2 = [] := by
  unfold awaitAnswer
  split
  · rfl
  · split
    · split <;> rfl
    · exact whileBusy_signals r _ _

theorem duringSession_signals (a : Attempt) : sentSignals (duringSession a r).2 = [] := by
  unfold duringSession
  split
  · rfl
  · split
    · split
      · rfl
      · exact whileBusy_signals r _ _
    · rfl
    · exact whileBusy_signals r _ _

theorem sentSignals_serve {sid : String} (sent : sid ∈ sentSignals (h.serve env r).2) :
    ∃ a, h.control.attempt = some a ∧ h.control.joined = some (a, sid) := by
  have silent (outs : sentSignals (h.serve env r).2 = []) :
      ∃ a, h.control.attempt = some a ∧ h.control.joined = some (a, sid) := by
    rw [outs] at sent
    cases sent
  cases hc : h.control with
  | offering a joined ice =>
    simp only [Host.serve, hc, Host.goto] at sent
    exact ⟨a, rfl, by rw [sendOffer_signals r a joined ice sid sent]; rfl⟩
  | top pending =>
    refine hc ▸ silent ?_
    cases hs : r.stop <;> cases hr : r.rotate <;> simp [Host.serve, hc, hs, hr, Host.goto, Host.rotate, sentSignals]
  | admitted a =>
    refine hc ▸ silent ?_
    cases hq : r.confirmIncoming <;> simp [Host.serve, hc, hq, Host.goto, sentSignals]
  | ending a tail wsOk =>
    refine hc ▸ silent ?_
    cases hl : r.lockOnEnd <;> cases wsOk <;> cases hu : a.oneTimeUsed <;>
      simp [Host.serve, hc, hl, hu, Host.goto, Host.rotate, sentSignals]
  | polling pending => exact hc ▸ silent (by simp [Host.serve, hc, Host.goto, poll_signals])
  | deciding a id => exact hc ▸ silent (by simp [Host.serve, hc, Host.goto, waitDecision_signals])
  | awaitingReady a => exact hc ▸ silent (by simp [Host.serve, hc, Host.goto, awaitReady_signals])
  | awaitingAnswer a n => exact hc ▸ silent (by simp [Host.serve, hc, Host.goto, awaitAnswer_signals])
  | inSession a => exact hc ▸ silent (by simp [Host.serve, hc, Host.goto, duringSession_signals])
  | _ => exact hc ▸ silent (by simp [Host.serve, hc, Host.goto, sentSignals])

end Steps

/-- In the runs in which the stream gives the waiting loops messages of the
session accepted only, and in no others, the session accepted is the one set up. -/
theorem own_session_iff {start : Host J × Setup} (hi : (setupRuns env).init start) {rs : List (Reading J)} :
    (setupRuns env).AllStates OwnSession start rs ↔ (setupRuns env).AllSteps OwnMessages start rs := by
  have valid := System.valid_of_enabled (M := setupRuns env) (fun _ _ => trivial) start rs
  refine System.allStates_iff_allSteps ?_ (.init hi) ?_ valid
  · intro p r _ _ own
    rw [ownMessages_iff]
    constructor
    · intro after u taken
      exact after.used u (List.mem_append_left _ (Option.mem_toList.2 taken))
    · intro messages
      constructor
      · intro u mem
        obtain taken | mem := List.mem_append.1 mem
        · exact messages u (Option.mem_toList.1 taken)
        · exact own.used u mem
      · intro a sid joined
        obtain before | taken := joined_serve env p.1 r joined
        · exact own.joined a sid before
        · exact messages (a.sid, sid) taken
      · intro u mem
        obtain new | mem := List.mem_append.1 mem
        · simp only [List.mem_flatMap, Option.mem_toList, List.mem_map] at new
          obtain ⟨a, inHand, sid, sent, rfl⟩ := new
          obtain ⟨b, hb, joined⟩ := sentSignals_serve env p.1 r sent
          obtain rfl : a = b := by simpa [inHand] using hb
          exact own.joined a sid joined
        · exact own.sent u mem
  · obtain ⟨⟨start', -⟩, empty⟩ := hi
    constructor
    · simp [empty]
    · simp [start', Control.joined]
    · simp [empty]

/-! ## Runs of a sample host -/

def setupStart : Host String × Setup := (⟨.connecting, "AAAAAAAA", 0⟩, ⟨[], []⟩)

/-- Requests with the permanent password: the first is accepted and given up
waiting for its `connect_ready`, the second is accepted. -/
def twoRequests : List (Reading String) :=
  [{}, {}, { recv := .ok (some (.incomingRequest "old" none)) }, {}, {}, { late := true },
    {}, { recv := .ok (some (.incomingRequest "new" none)) }, {}, {}]

/-- The late `connect_ready` of the first session is taken for the second: the
host joins the first session and sends its offer there. -/
theorem joins_abandoned_session :
    ¬ (setupRuns sampleHostEnv).AllStates OwnSession setupStart
      (twoRequests ++
        [{ recv := .ok (some (.connectReady "old" none)) }, { prepared := some ("offer", "candidates") }]) := by
  intro own
  have sent := own.last.sent ("new", "old") (by decide)
  exact absurd sent (by decide)

/-- With the messages of the second session, the second session is joined. -/
theorem joins_accepted_session :
    (setupRuns sampleHostEnv).AllStates OwnSession setupStart
      (twoRequests ++
        [{ recv := .ok (some (.connectReady "new" none)) }, { prepared := some ("offer", "candidates") },
          { recv := .ok (some (.signal "new" "answer" "sdp")) },
          { recv := .ok (some (.signal "new" "ice" "candidate")) }]) :=
  (own_session_iff sampleHostEnv ⟨⟨rfl, rfl⟩, rfl⟩).2 (by decide)

end ZortilWatch.Core
