import ZortilWatch.Core.HostSpec

/-!
# What a stopped host still does

Behind `stop` the host reaches the heads of its loops and returns there. On the way it
finishes the request in hand: one that waits for `connect_ready` is given up, one whose
`connect_ready` has come is negotiated, and its session is served, to the end.
-/

namespace ZortilWatch.Core

variable {J : Type}

/-- The heads of the two loops of `serve`. -/
inductive AtHead : Control J → Prop where
  | connecting : AtHead .connecting
  | top (pending : Option Request) : AtHead (.top pending)

/-- Neither at a head nor returned. -/
def Control.inLoop : Control J → Bool
  | .connecting | .top _ | .returned => false
  | _ => true

/-- The moves of a stopped host. -/
inductive Winds : Control J → Control J → Prop where
  | returns {c : Control J} : AtHead c → Winds c .returned
  | givesUp {c c' : Control J} : c.inLoop = true → AtHead c' → Winds c c'
  | admits (pending : Option Request) (a : Attempt) : Winds (.polling pending) (.admitted a)
  | refuses (pending : Option Request) (sid reason : String) : Winds (.polling pending) (.rejecting sid reason)
  | asks (a : Attempt) (id : Nat) : Winds (.admitted a) (.deciding a id)
  | lets (a : Attempt) : Winds (.admitted a) (.accepting a)
  | denies (a : Attempt) (id : Nat) : Winds (.deciding a id) (.rejecting a.sid "denied")
  | accepts (a : Attempt) : Winds (.accepting a) (.awaitingReady a)
  | offers (a : Attempt) (joined : String) (ice : Option J) (n : Negotiation J) :
      Winds (.offering a joined ice) (.awaitingAnswer a n)
  | waits (a : Attempt) (n n' : Negotiation J) : Winds (.awaitingAnswer a n) (.awaitingAnswer a n')
  | answered (a : Attempt) (n n' : Negotiation J) : Winds (.awaitingAnswer a n) (.confirming a n')
  | confirms (a : Attempt) (n : Negotiation J) : Winds (.confirming a n) (.spawning a)
  | spawns (a : Attempt) : Winds (.spawning a) (.inSession a)
  | leaves (a : Attempt) : Winds (.inSession a) (.ending a none true)

theorem winds_of_stop (env : HostEnv J) (h : Host J) {r : Reading J} (stop : r.stop = true)
    (alive : h.control ≠ .returned) :
    Winds h.control (h.serve env r).1.control := by
  unfold Host.serve
  cases hc : h.control with
  | connecting =>
    simp only [stop, if_true]
    exact .returns .connecting
  | top pending =>
    simp only [stop, if_true]
    exact .returns (.top pending)
  | polling pending =>
    obtain ⟨a, next, -⟩ | ⟨sid, reason, next⟩ | next | next := poll_control env r h.oneTime pending <;>
      simp only [Host.goto, next]
    · exact .admits pending a
    · exact .refuses pending sid reason
    · exact .givesUp rfl (.top none)
    · exact .givesUp rfl .connecting
  | rejecting sid reason =>
    cases r.ok
    · exact .givesUp rfl .connecting
    · exact .givesUp rfl (.top none)
  | admitted a =>
    cases r.confirmIncoming
    · exact .lets a
    · exact .asks a _
  | deciding a id =>
    simp only [waitDecision, stop, Bool.true_or, if_true]
    exact .denies a id
  | accepting a =>
    cases r.ok
    · exact .givesUp rfl .connecting
    · exact .accepts a
  | awaitingReady a =>
    simp only [awaitReady, stop, Bool.true_or, if_true]
    exact .givesUp rfl (.top none)
  | offering a joined ice =>
    obtain next | next | next := sendOffer_control r a joined ice <;> simp only [Host.goto, next]
    · exact .offers a joined ice _
    · exact .givesUp rfl .connecting
    · exact .givesUp rfl (.top none)
  | awaitingAnswer a n =>
    obtain ⟨sid, kind, payload, n', -, -, -, next | next⟩ | next | next | next := awaitAnswer_control env r a n <;>
      simp only [Host.goto, next]
    · exact .waits a n n'
    · exact .answered a n n'
    · exact .waits a n n
    · exact .givesUp rfl .connecting
    · exact .givesUp rfl (.top none)
  | confirming a n =>
    cases r.ok
    · exact .givesUp rfl (.top none)
    · exact .confirms a n
  | spawning a =>
    cases r.ok
    · exact .givesUp rfl (.top none)
    · exact .spawns a
  | inSession a =>
    simp only [duringSession, stop, Bool.or_true, if_true]
    exact .leaves a
  | ending a tail wsOk =>
    cases wsOk
    · exact .givesUp rfl .connecting
    · cases used : a.oneTimeUsed <;>
        simp only [used, if_true, Bool.false_eq_true, if_false, Host.goto, Host.rotate]
      all_goals exact .givesUp rfl (.top tail)
  | returned => exact absurd hc alive

/-- How many moves a stopped host is from its end, the turns of its wait for an answer apart. -/
def Control.windingRank : Control J → Nat
  | .returned => 0
  | .connecting | .top _ => 1
  | .rejecting _ _ | .awaitingReady _ | .ending _ _ _ => 2
  | .deciding _ _ | .accepting _ | .inSession _ => 3
  | .admitted _ | .spawning _ => 4
  | .polling _ | .confirming _ _ => 5
  | .awaitingAnswer _ _ => 6
  | .offering _ _ _ => 7

/-- Where a stopped host may still send a `connect_accept`. -/
def Control.mayAccept : Control J → Bool
  | .polling _ | .admitted _ | .accepting _ => true
  | _ => false

/-- Where a stopped host may still begin a session. -/
def Control.mayBegin : Control J → Bool
  | .offering _ _ _ | .awaitingAnswer _ _ | .confirming _ _ | .spawning _ => true
  | _ => false

namespace Winds

variable {c c' : Control J} (winds : Winds c c')
include winds

theorem rank_lt (other : ∀ a n a' n', c = .awaitingAnswer a n → c' ≠ .awaitingAnswer a' n') :
    c'.windingRank < c.windingRank := by
  cases winds with
  | returns head => cases head <;> exact Nat.zero_lt_one
  | givesUp inside head =>
    have low : c'.windingRank = 1 := by cases head <;> rfl
    rw [low]
    cases c with
    | connecting | top | returned => cases inside
    | _ => exact Nat.le_add_left 2 _
  | waits a n n' => exact absurd rfl (other a n a n' rfl)
  | _ => exact Nat.lt_of_sub_eq_succ rfl

theorem rank_le : c'.windingRank ≤ c.windingRank := by
  by_cases waiting : ∃ a n a' n', c = .awaitingAnswer a n ∧ c' = .awaitingAnswer a' n'
  · obtain ⟨a, n, a', n', rfl, rfl⟩ := waiting
    exact Nat.le_refl 6
  · exact Nat.le_of_lt (winds.rank_lt fun a n a' n' at_ next => waiting ⟨a, n, a', n', at_, next⟩)

theorem mayAccept (later : c'.mayAccept = true) : c.mayAccept = true ∧ ∀ a, c ≠ .accepting a := by
  cases winds with
  | givesUp inside head => cases head <;> cases later
  | admits pending a => exact ⟨rfl, nofun⟩
  | lets a => exact ⟨rfl, nofun⟩
  | _ => cases later

theorem mayBegin (later : c'.mayBegin = true) : c.mayBegin = true ∧ ∀ a, c ≠ .spawning a := by
  cases winds with
  | givesUp inside head => cases head <;> cases later
  | offers | waits | answered | confirms => exact ⟨rfl, nofun⟩
  | _ => cases later

end Winds

/-- At the deadline the wait for an answer ends. -/
theorem late_awaitAnswer (env : HostEnv J) {h : Host J} {r : Reading J} {a : Attempt} {n : Negotiation J}
    (at_ : h.control = .awaitingAnswer a n) (late : r.late = true) : (h.serve env r).1.control = .top none := by
  simp only [Host.serve, at_, awaitAnswer, late, if_true, Host.goto]

end ZortilWatch.Core
