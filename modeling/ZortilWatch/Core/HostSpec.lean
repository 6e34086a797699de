import ZortilWatch.Core.Host

/-!
# What one step of the host loop does

Where the request in hand, the negotiation and the one-time code of the state
after a step come from. The invariants of the runs use these lemmas and do not
look into the loops again.
-/

namespace ZortilWatch.Core

variable {J : Type}

/-- The request in hand. -/
def Control.attempt : Control J → Option Attempt
  | .admitted a | .deciding a _ | .accepting a | .awaitingReady a | .offering a _ _ | .awaitingAnswer a _
  | .confirming a _ | .spawning a | .inSession a | .ending a _ _ => some a
  | _ => none

/-- The request in hand, once its handshake has confirmed. -/
def Control.established : Control J → Option Attempt
  | .spawning a | .inSession a | .ending a _ _ => some a
  | _ => none

/-- The session joined for the request in hand. -/
def Control.joined : Control J → Option (Attempt × String)
  | .offering a joined _ => some (a, joined)
  | .awaitingAnswer a n | .confirming a n => some (a, n.joined)
  | _ => none

/-- The request a step lets through to `serve_session`. -/
def Host.letsThrough (h : Host J) (r : Reading J) : Option Attempt :=
  match h.control with
  | .admitted a => if r.confirmIncoming then none else some a
  | .deciding a id => if !r.stop && !r.late && r.decision == some (id, true) then some a else none
  | _ => none

/-- Whether a step calls `generate_one_time`. -/
def Host.generates (h : Host J) (r : Reading J) : Bool :=
  match h.control with
  | .top _ => !r.stop && r.rotate
  | .ending a _ wsOk => wsOk && a.oneTimeUsed
  | _ => false

section Loops

variable (env : HostEnv J) (r : Reading J)

theorem whileBusy_control (loop broken : Control J) :
    (whileBusy loop broken r).1 = loop ∨ (whileBusy loop broken r).1 = broken := by
  unfold whileBusy
  split
  · cases r.ok
    · exact .inr rfl
    · exact .inl rfl
  · exact .inl rfl
  · exact .inr rfl

theorem waitDecision_control (a : Attempt) (id : Nat) :
    (r.stop = false ∧ r.late = false ∧ r.decision = some (id, true) ∧ (waitDecision a id r).1 = .accepting a) ∨
      (waitDecision a id r).1 = .rejecting a.sid "denied" ∨ (waitDecision a id r).1 = .deciding a id ∨
        (waitDecision a id r).1 = .connecting := by
  unfold waitDecision
  split
  · exact .inr (.inl rfl)
  · rename_i going
    have running : r.stop = false ∧ r.late = false := by simpa using going
    split
    · rename_i d
      obtain ⟨known, own⟩ := Option.filter_eq_some_iff.1 d
      obtain rfl : _ = id := by simpa using own
      exact .inl ⟨running.1, running.2, known, rfl⟩
    · exact .inr (.inl rfl)
    · exact .inr ((whileBusy_control r _ _).elim (fun h => .inr (.inl h)) fun h => .inr (.inr h))

theorem awaitReady_control (a : Attempt) :
    (∃ sid ice, r.stop = false ∧ r.late = false ∧ r.recv = .ok (some (.connectReady sid ice)) ∧
        (awaitReady a r).1 = .offering a sid ice) ∨
      (awaitReady a r).1 = .awaitingReady a ∨ (awaitReady a r).1 = .connecting ∨ (awaitReady a r).1 = .top none := by
  unfold awaitReady
  split
  · exact .inr (.inr (.inr rfl))
  · rename_i going
    have running : r.stop = false ∧ r.late = false := by simpa using going
    split
    · rename_i sid ice got
      exact .inl ⟨sid, ice, running.1, running.2, got, rfl⟩
    · exact .inr ((whileBusy_control r _ _).imp_right .inl)

theorem sendOffer_control (a : Attempt) (joined : String) (ice : Option J) :
    (sendOffer a joined ice r).1 = .awaitingAnswer a ⟨joined, ice, none, []⟩ ∨
      (sendOffer a joined ice r).1 = .connecting ∨ (sendOffer a joined ice r).1 = .top none := by
  unfold sendOffer
  split
  · exact .inr (.inr rfl)
  · cases r.ok <;> cases r.iceSent <;> simp

/-- The loop of `establish_managed` goes on with the negotiation it had or with what a signal makes of it. -/
theorem awaitAnswer_control (a : Attempt) (n : Negotiation J) :
    (∃ sid kind payload n', r.late = false ∧ r.recv = .ok (some (.signal sid kind payload)) ∧
        onSignal env n kind payload r.answerAccepted = some n' ∧
        ((awaitAnswer env a n r).1 = .awaitingAnswer a n' ∨ (awaitAnswer env a n r).1 = .confirming a n')) ∨
      (awaitAnswer env a n r).1 = .awaitingAnswer a n ∨ (awaitAnswer env a n r).1 = .connecting ∨
        (awaitAnswer env a n r).1 = .top none := by
  unfold awaitAnswer
  split
  · exact .inr (.inr (.inr rfl))
  · rename_i going
    split
    · rename_i sid kind payload got
      split
      · exact .inr (.inr (.inr rfl))
      · rename_i n' took
        refine .inl ⟨sid, kind, payload, n', by simpa using going, got, took, ?_⟩
        split
        · exact .inr rfl
        · exact .inl rfl
    · exact .inr ((whileBusy_control r _ _).imp_right .inl)

theorem duringSession_control (a : Attempt) :
    (duringSession a r).1 = .inSession a ∨ ∃ tail wsOk, (duringSession a r).1 = .ending a tail wsOk := by
  have busy := whileBusy_control r (.inSession a) (.ending a none false)
  unfold duringSession
  split
  · exact .inr ⟨_, _, rfl⟩
  · split
    · split
      · exact .inr ⟨_, _, rfl⟩
      · exact busy.imp_right fun h => ⟨_, _, h⟩
    · exact .inl rfl
    · exact busy.imp_right fun h => ⟨_, _, h⟩

theorem choosePassword_control (code : String) (q : Request) :
    (∃ a, choosePassword env code q = .admitted a ∧ a.sid = q.sessionId ∧ a.kind = q.passwordKind ∧
        (a.oneTimeUsed = true → a.password = utf8 code)) ∨
      choosePassword env code q = .rejecting q.sessionId "no_permanent" := by
  unfold choosePassword
  split
  · exact .inl ⟨_, rfl, rfl, rfl, fun _ => rfl⟩
  · rename_i other
    split
    · exact .inl ⟨_, rfl, rfl, rfl, fun used => absurd (by simpa [Attempt.oneTimeUsed] using used) other⟩
    · exact .inr rfl

theorem poll_control (code : String) (pending : Option Request) :
    (∃ a, (poll env code pending r).1 = .admitted a ∧ (a.oneTimeUsed = true → a.password = utf8 code)) ∨
      (∃ sid reason, (poll env code pending r).1 = .rejecting sid reason) ∨
      (poll env code pending r).1 = .top none ∨ (poll env code pending r).1 = .connecting := by
  have choice (q : Request) :
      (∃ a, choosePassword env code q = .admitted a ∧ (a.oneTimeUsed = true → a.password = utf8 code)) ∨
        ∃ sid reason, choosePassword env code q = .rejecting sid reason := by
    obtain ⟨a, h, _, _, hp⟩ | h := choosePassword_control env code q
    · exact .inl ⟨a, h, hp⟩
    · exact .inr ⟨_, _, h⟩
  unfold poll
  split
  · exact (choice _).imp_right .inl
  · split
    · exact (choice _).imp_right .inl
    · exact .inr (.inr (.inl rfl))
    · exact .inr (.inr (.inl rfl))
    · exact .inr (.inr (.inr rfl))

end Loops

section Serve

variable (env : HostEnv J) (h : Host J) (r : Reading J)

theorem oneTime_serve : (h.serve env r).1.oneTime = if h.generates r then r.code else h.oneTime := by
  unfold Host.serve Host.generates
  cases h.control with
  | top pending => cases r.stop <;> cases r.rotate <;> rfl
  | ending a tail wsOk => cases wsOk <;> cases hu : a.oneTimeUsed <;> simp [hu, Host.goto, Host.rotate]
  | admitted a => cases r.confirmIncoming <;> rfl
  | _ => rfl

/-- A new code comes between two requests. -/
theorem attempt_of_generates (made : h.generates r = true) : (h.serve env r).1.control.attempt = none := by
  unfold Host.generates at made
  unfold Host.serve
  cases hc : h.control with
  | top pending =>
    rw [hc] at made
    obtain ⟨going, asked⟩ : r.stop = false ∧ r.rotate = true := by simpa using made
    simp [going, asked, Host.rotate, Control.attempt]
  | ending a tail wsOk =>
    rw [hc] at made
    obtain ⟨up, used⟩ : wsOk = true ∧ a.oneTimeUsed = true := by simpa using made
    simp [up, used, Host.rotate, Control.attempt]
  | _ => rw [hc] at made; cases made

/-- The moves of the host, with what made it move. A request comes in hand by
`chosen` only and leaves by `dropped` only. -/
inductive Moves : Control J → Control J → Prop where
  | idle {c c' : Control J} : c.attempt = none → c'.attempt = none → Moves c c'
  | chosen {pending : Option Request} {a : Attempt} :
      (a.oneTimeUsed = true → a.password = utf8 h.oneTime) → Moves (.polling pending) (.admitted a)
  | asked {a : Attempt} : r.confirmIncoming = true → Moves (.admitted a) (.deciding a (h.nextRequestId + 1))
  | undecided {a : Attempt} {id : Nat} : Moves (.deciding a id) (.deciding a id)
  | unattended {a : Attempt} : r.confirmIncoming = false → Moves (.admitted a) (.accepting a)
  | allowed {a : Attempt} {id : Nat} : r.stop = false → r.late = false → r.decision = some (id, true) →
      Moves (.deciding a id) (.accepting a)
  | accepted {a : Attempt} : Moves (.accepting a) (.awaitingReady a)
  | unready {a : Attempt} : Moves (.awaitingReady a) (.awaitingReady a)
  | ready {a : Attempt} {sid : String} {ice : Option J} : r.stop = false → r.late = false →
      r.recv = .ok (some (.connectReady sid ice)) → Moves (.awaitingReady a) (.offering a sid ice)
  | offered {a : Attempt} {joined : String} {ice : Option J} :
      Moves (.offering a joined ice) (.awaitingAnswer a ⟨joined, ice, none, []⟩)
  | unanswered {a : Attempt} {n : Negotiation J} : Moves (.awaitingAnswer a n) (.awaitingAnswer a n)
  | negotiated {a : Attempt} {n n' : Negotiation J} {sid kind : String} {payload : J} {c : Control J} :
      r.late = false → r.recv = .ok (some (.signal sid kind payload)) →
      onSignal env n kind payload r.answerAccepted = some n' →
      c = .awaitingAnswer a n' ∨ c = .confirming a n' → Moves (.awaitingAnswer a n) c
  | confirmed {a : Attempt} {n : Negotiation J} : r.ok = true → Moves (.confirming a n) (.spawning a)
  | spawned {a : Attempt} : r.ok = true → Moves (.spawning a) (.inSession a)
  | streaming {a : Attempt} : Moves (.inSession a) (.inSession a)
  | closing {a : Attempt} {tail : Option Request} {wsOk : Bool} : Moves (.inSession a) (.ending a tail wsOk)
  | dropped {c c' : Control J} : c'.attempt = none → (∀ a, c ≠ .inSession a) → Moves c c'

theorem serve_moves : Moves env h r h.control (h.serve env r).1.control := by
  unfold Host.serve
  cases hc : h.control with
  | connecting => cases r.stop <;> cases r.ok <;> exact .idle rfl rfl
  | top pending => cases r.stop <;> cases r.rotate <;> exact .idle rfl rfl
  | polling pending =>
    obtain ⟨a, next, hp⟩ | ⟨sid, reason, next⟩ | next | next := poll_control env r h.oneTime pending <;>
      simp only [Host.goto, next]
    · exact .chosen hp
    all_goals exact .idle rfl rfl
  | rejecting sid reason => cases r.ok <;> exact .idle rfl rfl
  | admitted a =>
    cases hq : r.confirmIncoming
    · exact .unattended hq
    · exact .asked hq
  | deciding a id =>
    obtain ⟨hs, hl, hd, next⟩ | next | next | next := waitDecision_control r a id <;> simp only [Host.goto, next]
    · exact .allowed hs hl hd
    · exact .dropped rfl nofun
    · exact .undecided
    · exact .dropped rfl nofun
  | accepting a =>
    cases r.ok
    · exact .dropped rfl nofun
    · exact .accepted
  | awaitingReady a =>
    obtain ⟨sid, ice, hs, hl, got, next⟩ | next | next | next := awaitReady_control r a <;> simp only [Host.goto, next]
    · exact .ready hs hl got
    · exact .unready
    all_goals exact .dropped rfl nofun
  | offering a joined ice =>
    obtain next | next | next := sendOffer_control r a joined ice <;> simp only [Host.goto, next]
    · exact .offered
    all_goals exact .dropped rfl nofun
  | awaitingAnswer a n =>
    obtain ⟨sid, kind, payload, n', hl, got, took, next⟩ | next | next | next := awaitAnswer_control env r a n
    · exact .negotiated hl got took next
    all_goals simp only [Host.goto, next]
    · exact .unanswered
    all_goals exact .dropped rfl nofun
  | confirming a n =>
    cases ho : r.ok
    · exact .dropped rfl nofun
    · exact .confirmed ho
  | spawning a =>
    cases ho : r.ok
    · exact .dropped rfl nofun
    · exact .spawned ho
  | inSession a =>
    obtain next | ⟨tail, wsOk, next⟩ := duringSession_control r a <;> simp only [Host.goto, next]
    · exact .streaming
    · exact .closing
  | ending a tail wsOk =>
    cases wsOk <;> cases hu : a.oneTimeUsed <;> simp only [hu] <;> exact .dropped rfl nofun
  | returned => exact .idle rfl (by simp [hc, Control.attempt])

/-- The request in hand is the one before, or a new one whose password, for a
one-time request, is the code at that moment. -/
theorem attempt_serve {a : Attempt} (inHand : (h.serve env r).1.control.attempt = some a) :
    h.control.attempt = some a ∨ (a.oneTimeUsed = true → a.password = utf8 h.oneTime) := by
  have moves := serve_moves env h r
  generalize h.control = c at moves ⊢
  generalize (h.serve env r).1.control = c' at moves inHand
  cases moves with
  | idle _ gone => rw [gone] at inHand; cases inHand
  | dropped gone _ => rw [gone] at inHand; cases inHand
  | chosen hp => cases inHand; exact .inr hp
  | negotiated _ _ _ hc => obtain rfl | rfl := hc <;> exact .inl inHand
  | _ => exact .inl inHand

theorem established_serve {a : Attempt} (up : (h.serve env r).1.control.established = some a) :
    h.control.established = some a ∨ (∃ n, h.control = .confirming a n) ∧ r.ok = true := by
  have moves := serve_moves env h r
  generalize h.control = c at moves ⊢
  generalize (h.serve env r).1.control = c' at moves up
  have none_of {c : Control J} (hc : c.attempt = none) : c.established = none := by cases c <;> first | rfl | cases hc
  cases moves with
  | idle _ gone => rw [none_of gone] at up; cases up
  | dropped gone _ => rw [none_of gone] at up; cases up
  | confirmed ho => cases up; exact .inr ⟨⟨_, rfl⟩, ho⟩
  | negotiated _ _ _ hc => obtain rfl | rfl := hc <;> cases up
  | _ => exact .inl up

/-- `serve_session` is called exactly for the requests let through. -/
theorem accepting_serve {a : Attempt} :
    (h.serve env r).1.control = .accepting a ↔ h.letsThrough r = some a := by
  constructor
  · intro called
    have moves := serve_moves env h r
    unfold Host.letsThrough
    generalize h.control = c at moves ⊢
    rw [called] at moves
    cases moves with
    | idle _ gone => cases gone
    | dropped gone _ => cases gone
    | unattended hq => simp [hq]
    | allowed hs hl hd => simp [hs, hl, hd]
    | negotiated _ _ _ hc => obtain hc | hc := hc <;> cases hc
  · intro through
    unfold Host.letsThrough at through
    unfold Host.serve
    cases hc : h.control with
    | admitted b =>
      rw [hc] at through
      cases hq : r.confirmIncoming <;> simp only [hq] at through <;> cases through
      rfl
    | deciding b id =>
      simp only [hc, Option.ite_none_right_eq_some, Option.some.injEq] at through
      obtain ⟨yes, rfl⟩ := through
      obtain ⟨⟨hs, hl⟩, hd⟩ : (r.stop = false ∧ r.late = false) ∧ r.decision = some (id, true) := by simpa using yes
      simp [waitDecision, hs, hl, hd, Host.goto, Option.filter]
    | _ => rw [hc] at through; cases through

end Serve

end ZortilWatch.Core
