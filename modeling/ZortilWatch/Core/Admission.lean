import ZortilWatch.Core.HostSpec

/-!
# Admission of incoming requests

Five loops of the host read `incoming_request`: idle, waiting for the human,
waiting for `connect_ready`, establishing, and beside the media thread. An
`Admissions` record kept beside a run says which requests were consumed and
answered on the present WebSocket, whether `serve_session` has accepted and not
returned, and what happened to the request in hand since it was chosen.
-/

namespace ZortilWatch.Core

variable {J : Type}

/-- The session of a connect_accept. -/
def Output.accepted : Output J → Option String
  | .send (.connectAccept sid) => some sid
  | _ => none

/-- The session of a connect_accept or connect_reject. -/
def Output.answered : Output J → Option String
  | .send (.connectAccept sid) => some sid
  | .send (.connectReject sid _) => some sid
  | _ => none

/-- The request id of a `Confirm` event. -/
def Output.issued : Output J → Option Nat
  | .onEvent (.confirm id _) => some id
  | _ => none

/-- The sessions answered by what a step sends. -/
def answers (out : List (Output J)) : List String := out.filterMap Output.answered

/-- The session of the request a `try_recv` returns. -/
def Reading.incoming (r : Reading J) : List String :=
  match r.recv with
  | .ok (some (.incomingRequest sid _)) => [sid]
  | _ => []

/-- Whether a step calls `try_recv`. -/
def Host.reads (h : Host J) (r : Reading J) : Bool :=
  match h.control with
  | .polling pending => pending.isNone
  | .deciding _ id => !(r.stop || r.late) && (r.decision.filter (·.1 = id)).isNone
  | .awaitingReady _ => !(r.stop || r.late)
  | .awaitingAnswer _ _ => !r.late
  | .inSession _ => !(r.done || r.stop)
  | _ => false

/-- The request a step consumes. -/
def Host.consumes (h : Host J) (r : Reading J) : List String := if h.reads r then r.incoming else []

/-- The request consumed and not yet answered. -/
def Control.unanswered : Control J → List String
  | .top pending | .polling pending => pending.toList.map (·.sessionId)
  | .rejecting sid _ => [sid]
  | .admitted a | .deciding a _ | .accepting a => [a.sid]
  | .ending _ tail _ => tail.toList.map (·.sessionId)
  | _ => []

/-- Inside `serve_session`, behind its connect_accept. -/
def Control.serving : Control J → Bool
  | .awaitingReady _ | .offering .. | .awaitingAnswer .. | .confirming .. | .spawning _ | .inSession _
  | .ending .. => true
  | _ => false

/-- The WebSocket is not known to be broken, and `serve` has not returned. -/
def Control.wsUp : Control J → Bool
  | .connecting | .returned | .ending _ _ false => false
  | _ => true

/-- What `serve` did with the request it has chosen. -/
structure Inquiry where
  sid : String
  /-- `confirm_incoming` as read for this request. -/
  confirm : Option Bool
  /-- The request id issued for this request. -/
  issued : Option Nat
  /-- The decisions read since. -/
  decisions : List (Nat × Bool)
  deriving DecidableEq, Repr

structure Admissions where
  consumed : List String
  answered : List String
  /-- A connect_accept was sent, and its `serve_session` has not returned. -/
  serving : Bool
  inquiry : Option Inquiry
  deriving DecidableEq, Repr

variable (env : HostEnv J)

def Inquiry.record (h : Host J) (r : Reading J) (q : Inquiry) : Inquiry :=
  match h.control with
  | .admitted _ =>
    { q with confirm := some r.confirmIncoming, issued := (h.serve env r).2.findSome? Output.issued }
  | .deciding _ _ => if r.stop || r.late then q else { q with decisions := r.decision.toList ++ q.decisions }
  | _ => q

def Admissions.record (h : Host J) (r : Reading J) (l : Admissions) : Admissions :=
  let next := (h.serve env r).1.control
  let out := (h.serve env r).2
  let fresh := match h.control with
    | .connecting => true
    | _ => false
  { consumed := if fresh then [] else l.consumed ++ h.consumes r
    answered := if fresh then [] else l.answered ++ answers out
    serving := (l.serving || out.any (·.accepted.isSome)) && next.serving
    inquiry :=
      match h.control with
      | .polling _ => next.attempt.map fun a => ⟨a.sid, none, none, []⟩
      | _ => l.inquiry.map (Inquiry.record env h r) }

/-- The host loop with its record. -/
def admissionRuns : System (Host J × Admissions) (Reading J) :=
  (hostLoop env).recording (fun _ => ⟨[], [], false, none⟩) (Admissions.record env)

/-- The request was let through without a human, or by a decision that carries
the id issued for it. -/
def Inquiry.Permits (q : Inquiry) (sid : String) : Prop :=
  q.sid = sid ∧
    (q.confirm = some false ∨ q.confirm = some true ∧ ∃ id, q.issued = some id ∧ (id, true) ∈ q.decisions)

/-- Steps of a waiting `wait_decision` before its deadline. -/
def undecidedSteps : Host J → List (Reading J) → Nat
  | _, [] => 0
  | h, r :: rs =>
    (match h.control with
      | .deciding _ _ => if r.late then 0 else 1
      | _ => 0) + undecidedSteps (h.serve env r).1 rs

/-- `stop` is unset, the WebSocket stays up, and `sid` gets no answer. -/
def Unanswered (sid : String) (h : Host J) (r : Reading J) : Prop :=
  r.stop = false ∧ (h.serve env r).1.control.wsUp = true ∧ sid ∉ answers (h.serve env r).2

/-- What admission control promises of a state. -/
structure AdmissionControl (p : Host J × Admissions) : Prop where
  /-- Every request consumed on this WebSocket has its one answer, but for the
  one in hand. -/
  once : p.1.control.wsUp = true → p.2.consumed.Perm (p.2.answered ++ p.1.control.unanswered)
  /-- The one in hand gets its answer, a few steps after the human or the
  deadline decides. -/
  answered : ∀ sid ∈ p.1.control.unanswered, ∀ rs,
    (hostLoop env).AllSteps (Unanswered env sid) p.1 rs → rs.length ≤ 5 + undecidedSteps env p.1 rs
  /-- A connect_accept is sent outside `serve_session` only, and for a request
  that was let through. -/
  accepts : ∀ r sid, .send (.connectAccept sid) ∈ (p.1.serve env r).2 →
    p.2.serving = false ∧ ∃ q ∈ p.2.inquiry, q.Permits sid

/-! ## One step -/

section Steps

variable {h : Host J} {r : Reading J}

theorem answers_whileBusy {loop broken : Control J} (down : broken.wsUp = false)
    (up : (whileBusy loop broken r).1.wsUp = true) :
    (whileBusy loop broken r).1 = loop ∧ answers (whileBusy loop broken r).2 = r.incoming := by
  unfold whileBusy at up ⊢
  unfold Reading.incoming
  rcases got : r.recv with _ | _ | msg
  · simp only [got, down, Bool.false_eq_true] at up
  · exact ⟨rfl, rfl⟩
  · cases msg with
    | incomingRequest sid kind =>
      cases ok : r.ok with
      | true => exact ⟨rfl, rfl⟩
      | false => simp only [got, ok, Bool.false_eq_true, if_false, down] at up
    | _ => exact ⟨rfl, rfl⟩

theorem unanswered_choosePassword (code : String) (q : Request) :
    (choosePassword env code q).unanswered = [q.sessionId] := by
  obtain ⟨a, chosen, sid, -⟩ | refused := choosePassword_control env code q
  · rw [chosen, ← sid]
    rfl
  · rw [refused]
    rfl

/-- What a loop does about requests: with `inHand` unanswered and `read` what its
`try_recv` gave, it answers or goes on with them. -/
def Balanced (inHand read : List String) (p : Control J × List (Output J)) : Prop :=
  p.1.wsUp = true → (inHand ++ read).Perm (answers p.2 ++ p.1.unanswered)

theorem balanced_whileBusy {loop broken : Control J} (down : broken.wsUp = false) :
    Balanced loop.unanswered r.incoming (whileBusy loop broken r) := by
  intro up
  obtain ⟨stays, answered⟩ := answers_whileBusy down up
  rw [stays, answered]
  exact List.perm_append_comm

theorem balanced_poll (code : String) (pending : Option Request) :
    Balanced (pending.toList.map (·.sessionId)) (if pending.isNone then r.incoming else [])
      (poll env code pending r) := by
  intro up
  cases pending with
  | some q => simp [poll, unanswered_choosePassword, answers]
  | none =>
    unfold poll Reading.incoming at *
    rcases got : r.recv with _ | _ | msg
    · simp [got, Control.wsUp] at up
    · exact .refl _
    · cases msg with
      | incomingRequest sid kind => simp [unanswered_choosePassword, answers]
      | _ => exact .refl _

theorem balanced_waitDecision (a : Attempt) (id : Nat) :
    Balanced [a.sid] (if !(r.stop || r.late) && (r.decision.filter (·.1 = id)).isNone then r.incoming else [])
      (waitDecision a id r) := by
  unfold waitDecision
  cases r.stop || r.late with
  | true => exact fun _ => .refl _
  | false =>
    cases own : r.decision.filter (·.1 = id) with
    | none => exact balanced_whileBusy rfl
    | some decision =>
      obtain ⟨_, allow⟩ := decision
      cases allow <;> exact fun _ => .refl _

theorem balanced_awaitReady (a : Attempt) :
    Balanced [] (if !(r.stop || r.late) then r.incoming else []) (awaitReady a r) := by
  unfold awaitReady
  cases r.stop || r.late with
  | true => exact fun _ => .refl _
  | false =>
    simp only [Bool.false_eq_true, if_false, Bool.not_false, if_true]
    split
    · rename_i got
      simp [Reading.incoming, got, Balanced, Control.unanswered, answers]
    · exact balanced_whileBusy rfl

theorem balanced_awaitAnswer (a : Attempt) (n : Negotiation J) :
    Balanced [] (if !r.late then r.incoming else []) (awaitAnswer env a n r) := by
  unfold awaitAnswer
  cases r.late with
  | true => exact fun _ => .refl _
  | false =>
    simp only [Bool.false_eq_true, if_false, Bool.not_false, if_true]
    split
    · rename_i got
      simp only [Reading.incoming, got]
      split
      · exact fun _ => .refl _
      · intro _
        split <;> exact .refl _
    · exact balanced_whileBusy rfl

theorem balanced_duringSession (a : Attempt) :
    Balanced [] (if !(r.done || r.stop) then r.incoming else []) (duringSession a r) := by
  unfold duringSession
  cases r.done || r.stop with
  | true => exact fun _ => .refl _
  | false =>
    simp only [Bool.false_eq_true, if_false, Bool.not_false, if_true]
    split
    · rename_i got
      split
      · simp [Reading.incoming, got, Balanced, Control.unanswered, answers]
      · exact balanced_whileBusy rfl
    · rename_i got
      simp [Reading.incoming, got, Balanced, Control.unanswered, answers, Output.answered]
    · exact balanced_whileBusy rfl

theorem balanced_serve (live : h.control ≠ .connecting) :
    Balanced h.control.unanswered (h.consumes r) ((h.serve env r).1.control, (h.serve env r).2) := by
  unfold Host.consumes Host.reads Host.serve
  cases hc : h.control with
  | connecting => exact absurd hc live
  | top pending =>
    intro up
    cases stop : r.stop with
    | true => simp [stop, Host.goto, Control.wsUp] at up
    | false =>
      simp only [Bool.false_eq_true, if_false, List.append_nil]
      cases r.rotate <;> exact .refl _
  | polling pending => exact balanced_poll env h.oneTime pending
  | rejecting sid reason =>
    intro up
    cases ok : r.ok with
    | true => exact .refl _
    | false => simp [ok, Host.goto, Control.wsUp] at up
  | admitted a => cases asked : r.confirmIncoming <;> exact fun _ => .refl _
  | deciding a id => exact balanced_waitDecision a id
  | accepting a =>
    intro up
    cases ok : r.ok with
    | true => exact .refl _
    | false => simp [ok, Host.goto, Control.wsUp] at up
  | awaitingReady a => exact balanced_awaitReady a
  | offering a joined ice =>
    intro _
    unfold sendOffer
    cases r.prepared with
    | none => exact .refl _
    | some texts => cases r.ok <;> cases r.iceSent <;> exact .refl _
  | awaitingAnswer a n => exact balanced_awaitAnswer env a n
  | confirming a n => cases ok : r.ok <;> exact fun _ => .refl _
  | spawning a => cases ok : r.ok <;> exact fun _ => .refl _
  | inSession a => exact balanced_duringSession a
  | ending a tail wsOk =>
    intro up
    cases wsOk with
    | false => simp [Host.goto, Control.wsUp] at up
    | true =>
      simp only [Bool.false_eq_true, if_false, if_true, List.append_nil]
      cases a.oneTimeUsed <;> cases r.lockOnEnd <;> exact .refl _
  | returned =>
    intro up
    simp [hc, Control.wsUp] at up

/-- A WebSocket that broke does not come up again but by a new one. -/
theorem wsUp_of_serve (live : h.control ≠ .connecting) (up : (h.serve env r).1.control.wsUp = true) :
    h.control.wsUp = true := by
  cases hc : h.control with
  | connecting => exact absurd hc live
  | returned => simp [Host.serve, hc, Control.wsUp] at up
  | ending a tail wsOk =>
    cases wsOk with
    | false => simp [Host.serve, hc, Host.goto, Control.wsUp] at up
    | true => rfl
  | _ => rfl

theorem accepted_whileBusy {loop broken : Control J} : ∀ o ∈ (whileBusy loop broken r).2, o.accepted = none := by
  unfold whileBusy
  split <;> simp [Output.accepted]

/-- A connect_accept is the first thing `serve_session` does. -/
theorem accepting_of_accepted {sid : String} (sent : .send (.connectAccept sid) ∈ (h.serve env r).2) :
    ∃ a, h.control = .accepting a ∧ a.sid = sid := by
  have loud : ∃ o ∈ (h.serve env r).2, o.accepted = some sid := ⟨_, sent, rfl⟩
  have busy {loop broken : Control J} : ¬ ∃ o ∈ (whileBusy loop broken r).2, o.accepted = some sid := by
    rintro ⟨o, mem, accepts⟩
    simp [accepted_whileBusy o mem] at accepts
  unfold Host.serve at loud
  cases hc : h.control with
  | accepting a =>
    refine ⟨a, rfl, ?_⟩
    simpa [hc, Host.goto, Output.accepted] using loud
  | top pending =>
    cases stop : r.stop <;> cases rotate : r.rotate <;>
      simp [hc, stop, rotate, Host.goto, Host.rotate, Output.accepted] at loud
  | polling pending =>
    simp only [hc, Host.goto] at loud
    unfold poll at loud
    split at loud
    · simp at loud
    · split at loud <;> simp [Output.accepted] at loud
  | admitted a => cases asked : r.confirmIncoming <;> simp [hc, asked, Host.goto, Output.accepted] at loud
  | deciding a id =>
    simp only [hc, Host.goto] at loud
    unfold waitDecision at loud
    split at loud
    · simp at loud
    · split at loud
      · simp at loud
      · simp at loud
      · exact absurd loud busy
  | awaitingReady a =>
    simp only [hc, Host.goto] at loud
    unfold awaitReady at loud
    split at loud
    · simp at loud
    · split at loud
      · simp at loud
      · exact absurd loud busy
  | offering a joined ice =>
    simp only [hc, Host.goto] at loud
    unfold sendOffer at loud
    split at loud
    · simp at loud
    · cases ok : r.ok <;> simp [ok, Output.accepted] at loud
  | awaitingAnswer a n =>
    simp only [hc, Host.goto] at loud
    unfold awaitAnswer at loud
    split at loud
    · simp at loud
    · split at loud
      · split at loud <;> simp at loud
      · exact absurd loud busy
  | inSession a =>
    simp only [hc, Host.goto] at loud
    unfold duringSession at loud
    split at loud
    · simp at loud
    · split at loud
      · split at loud
        · simp at loud
        · exact absurd loud busy
      · simp [Output.accepted] at loud
      · exact absurd loud busy
  | ending a tail wsOk =>
    cases wsOk <;> cases used : a.oneTimeUsed <;> cases lock : r.lockOnEnd <;>
      simp [hc, used, lock, Host.goto, Host.rotate, Output.accepted] at loud
  | _ => simp [hc, Host.goto, Output.accepted] at loud

/-- The steps left for the request in hand, the wait for the human apart. -/
def Control.distance : Control J → Nat
  | .ending .. => 5
  | .top _ => 4
  | .polling _ => 3
  | .admitted _ => 2
  | .deciding .. => 1
  | _ => 0

theorem unanswered_serve {sid : String} (inHand : sid ∈ h.control.unanswered) (waits : Unanswered env sid h r) :
    sid ∈ (h.serve env r).1.control.unanswered := by
  have live : h.control ≠ .connecting := fun hc => by simp [hc, Control.unanswered] at inHand
  have kept := (balanced_serve env (r := r) live waits.2.1).subset (List.mem_append_left _ inHand)
  exact (List.mem_append.mp kept).resolve_left waits.2.2

/-- A step that gives the request in hand no answer brings it nearer to one,
unless `wait_decision` goes on waiting. -/
theorem distance_serve {sid : String} (inHand : sid ∈ h.control.unanswered) (waits : Unanswered env sid h r) :
    (h.serve env r).1.control.distance < h.control.distance ∨
      (h.serve env r).1.control = h.control ∧ r.late = false ∧ ∃ a id, h.control = .deciding a id := by
  obtain ⟨going, up, silent⟩ := waits
  cases hc : h.control with
  | top pending =>
    left
    cases rotate : r.rotate <;> simp [Host.serve, hc, going, rotate, Host.goto, Host.rotate, Control.distance]
  | polling pending =>
    left
    cases pending with
    | none => simp [hc, Control.unanswered] at inHand
    | some q =>
      obtain ⟨a, next, -⟩ | next := choosePassword_control env h.oneTime q <;>
        simp [Host.serve, hc, poll, Host.goto, next, Control.distance]
  | rejecting other reason =>
    rw [hc] at inHand
    obtain rfl := List.mem_singleton.mp inHand
    simp [Host.serve, hc, Host.goto, answers, Output.answered] at silent
  | accepting a =>
    rw [hc] at inHand
    obtain rfl := List.mem_singleton.mp inHand
    simp [Host.serve, hc, Host.goto, answers, Output.answered] at silent
  | admitted a =>
    left
    cases asked : r.confirmIncoming <;> simp [Host.serve, hc, asked, Host.goto, Control.distance]
  | deciding a id =>
    cases late : r.late with
    | true =>
      left
      simp [Host.serve, hc, late, waitDecision, Host.goto, Control.distance]
    | false =>
      obtain ⟨-, -, -, next⟩ | next | next | next := waitDecision_control r a id
      · exact .inl (by simp [Host.serve, hc, Host.goto, next, Control.distance])
      · exact .inl (by simp [Host.serve, hc, Host.goto, next, Control.distance])
      · exact .inr ⟨by simp only [Host.serve, hc, Host.goto, next], rfl, a, id, rfl⟩
      · simp [Host.serve, hc, Host.goto, next, Control.wsUp] at up
  | ending a tail wsOk =>
    left
    cases wsOk with
    | false => simp [Host.serve, hc, Host.goto, Control.wsUp] at up
    | true => cases used : a.oneTimeUsed <;> simp [Host.serve, hc, used, Host.goto, Host.rotate, Control.distance]
  | _ => simp [hc, Control.unanswered] at inHand

theorem distance_le (c : Control J) : c.distance ≤ 5 := by
  cases c <;> simp [Control.distance]

theorem length_of_unanswered {sid : String} {rs : List (Reading J)} (inHand : sid ∈ h.control.unanswered)
    (waits : (hostLoop env).AllSteps (Unanswered env sid) h rs) :
    rs.length ≤ h.control.distance + undecidedSteps env h rs := by
  induction rs generalizing h with
  | nil => exact Nat.zero_le _
  | cons r rs ih =>
    have rest := ih (unanswered_serve env inHand waits.1) waits.2
    rw [List.length_cons, undecidedSteps]
    obtain nearer | ⟨same, early, a, id, hc⟩ := distance_serve env inHand waits.1
    · change rs.length ≤ (h.serve env r).1.control.distance + undecidedSteps env (h.serve env r).1 rs at rest
      omega
    · change rs.length ≤ (h.serve env r).1.control.distance + undecidedSteps env (h.serve env r).1 rs at rest
      rw [same] at rest
      simp only [hc, early]
      rw [hc] at rest
      simp only [Bool.false_eq_true, if_false]
      omega

/-- What the record says about the request in hand, up to its connect_accept. -/
def Inquired (c : Control J) (inquiry : Option Inquiry) : Prop :=
  match c with
  | .admitted a => ∃ q ∈ inquiry, q.sid = a.sid
  | .deciding a id => ∃ q ∈ inquiry, q.sid = a.sid ∧ q.confirm = some true ∧ q.issued = some id
  | .accepting a => ∃ q ∈ inquiry, q.Permits a.sid
  | _ => True

theorem inquired_of_attempt_eq_none {c : Control J} (idle : c.attempt = none) (inquiry : Option Inquiry) :
    Inquired c inquiry := by
  cases c <;> trivial

theorem inquired_serve {l : Admissions} (inq : Inquired h.control l.inquiry) :
    Inquired (h.serve env r).1.control (l.record env h r).inquiry := by
  have moves := serve_moves env h r
  have sent (a : Attempt) (hc : h.control = .admitted a) (asked : r.confirmIncoming = true) :
      (h.serve env r).2.findSome? Output.issued = some (h.nextRequestId + 1) := by
    simp [Host.serve, hc, asked, Output.issued]
  simp only [Admissions.record]
  unfold Inquiry.record
  generalize h.control = c at moves inq sent ⊢
  generalize (h.serve env r).1.control = c' at moves ⊢
  cases moves with
  | idle _ gone => exact inquired_of_attempt_eq_none gone _
  | dropped gone _ => exact inquired_of_attempt_eq_none gone _
  | chosen _ => exact ⟨_, rfl, rfl⟩
  | asked yes =>
    obtain ⟨q, present, sid⟩ := inq
    rw [Option.mem_def.mp present]
    exact ⟨_, rfl, sid, congrArg some yes, sent _ rfl yes⟩
  | undecided =>
    obtain ⟨q, present, sid, confirm, issued⟩ := inq
    rw [Option.mem_def.mp present]
    refine ⟨_, rfl, ?_⟩
    show (ite _ q _ : Inquiry).sid = _ ∧ (ite _ q _ : Inquiry).confirm = _ ∧ (ite _ q _ : Inquiry).issued = _
    split <;> exact ⟨sid, confirm, issued⟩
  | unattended no =>
    obtain ⟨q, present, sid⟩ := inq
    rw [Option.mem_def.mp present]
    exact ⟨_, rfl, sid, .inl (congrArg some no)⟩
  | allowed stop late decision =>
    obtain ⟨q, present, sid, confirm, issued⟩ := inq
    rw [Option.mem_def.mp present]
    simp only [stop, late, decision]
    exact ⟨_, rfl, sid, .inr ⟨confirm, _, issued, List.mem_cons_self⟩⟩
  | negotiated _ _ _ next => obtain rfl | rfl := next <;> trivial
  | _ => trivial

end Steps

/-- What every state of an admission run keeps. -/
structure Accountable (p : Host J × Admissions) : Prop where
  once : p.1.control.wsUp = true → p.2.consumed.Perm (p.2.answered ++ p.1.control.unanswered)
  serving : p.2.serving = true → p.1.control.serving = true
  inquired : Inquired p.1.control p.2.inquiry

namespace Accountable

variable {env} {p : Host J × Admissions} {r : Reading J}

theorem once_step (acc : Accountable p) (up : (p.1.serve env r).1.control.wsUp = true) :
    (p.2.record env p.1 r).consumed.Perm
      ((p.2.record env p.1 r).answered ++ (p.1.serve env r).1.control.unanswered) := by
  by_cases start : p.1.control = .connecting
  · have fresh : (p.1.serve env r).1.control.unanswered = [] := by
      cases stop : r.stop <;> cases ok : r.ok <;> simp [Host.serve, start, stop, ok, Host.goto, Control.unanswered]
    simp [Admissions.record, start, fresh]
  · have balanced := balanced_serve env start up
    have once := acc.once (wsUp_of_serve env start up)
    -- `start` rules the first row of `fresh` out
    simp only [Admissions.record, Bool.false_eq_true, if_false]
    rw [List.append_assoc]
    refine (once.append_right _).trans ?_
    rw [List.append_assoc]
    exact balanced.append_left _

theorem step (acc : Accountable p) (r : Reading J) :
    Accountable ((p.1.serve env r).1, p.2.record env p.1 r) where
  once := acc.once_step
  serving := fun inside => (Bool.and_eq_true_iff.mp inside).2
  inquired := inquired_serve env acc.inquired

theorem reachable (hp : (admissionRuns env).Reachable p) : Accountable p := by
  refine hp.invariant ?_ fun q r _ acc _ => acc.step r
  rintro ⟨h, l⟩ ⟨⟨start, -⟩, empty⟩
  obtain rfl : l = ⟨[], [], false, none⟩ := empty
  replace start : h.control = .connecting := start
  constructor
  case once => exact fun up => by simp [start, Control.wsUp] at up
  case serving => exact fun inside => by cases inside
  case inquired => simp [start, Inquired]

end Accountable

/-- In every state the host reaches, whatever the server sends, the human decides
and the toggles say. -/
theorem admission_control {p : Host J × Admissions} (hp : (admissionRuns env).Reachable p) :
    AdmissionControl env p := by
  have acc := Accountable.reachable hp
  constructor
  case once => exact acc.once
  case answered =>
    intro sid inHand rs waits
    have left := length_of_unanswered env inHand waits
    have near := distance_le p.1.control
    omega
  case accepts =>
    intro r sid sent
    obtain ⟨a, hc, rfl⟩ := accepting_of_accepted env sent
    have inq := acc.inquired
    rw [hc] at inq
    refine ⟨?_, inq⟩
    cases inside : p.2.serving with
    | false => rfl
    | true => simpa [hc, Control.serving] using acc.serving inside

/-- A request the human allows, while a late decision comes in and a second
request is refused as busy. -/
def confirmedRequest : List (Reading String) :=
  [{}, {}, { recv := .ok (some (.incomingRequest "s1" none)) }, { confirmIncoming := true },
    { decision := some (0, true), recv := .ok (some (.incomingRequest "s2" none)) }, { decision := some (1, true) }]

/-- The host right after the code "AAAAAAAA" was shown. -/
def hostAtStart : Host String × Admissions := (⟨.connecting, "AAAAAAAA", 0⟩, ⟨[], [], false, none⟩)

/-- The host right before the connect_accept of `confirmedRequest`. -/
def hostAfterDecision : Host String × Admissions :=
  (admissionRuns sampleHostEnv).after hostAtStart confirmedRequest

example : hostAfterDecision.2 =
    ⟨["s1", "s2"], ["s2"], false, some ⟨"s1", some true, some 1, [(1, true), (0, true)]⟩⟩ := by decide

theorem admission_control_after_decision : AdmissionControl sampleHostEnv hostAfterDecision := by
  have start : (admissionRuns sampleHostEnv).init hostAtStart := ⟨⟨rfl, rfl⟩, rfl⟩
  have valid : (admissionRuns sampleHostEnv).Valid hostAtStart confirmedRequest :=
    System.valid_of_enabled (fun _ _ => trivial) _ _
  exact admission_control sampleHostEnv (.after (.init start) valid)

end ZortilWatch.Core
