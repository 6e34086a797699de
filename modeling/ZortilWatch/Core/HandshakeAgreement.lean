import ZortilWatch.Core.Session
import ZortilWatch.Lib.Runs

/-!
# Two honest handshakes

Two parties and two ordered channels that deliver every message once. The
deliveries of the two directions interleave freely, and how far either party is
depends on the number of messages it has had alone (`Meeting.Stage`). When all
is delivered both have confirmed one key, or both have failed (`handshakes_agree`).
-/

namespace ZortilWatch.Core

/-- What one party brings to a handshake. -/
structure Party (prim : Primitives) where
  password : Bytes
  ownFp : String
  peerFp : String
  rng : prim.Rng

namespace Party

variable {prim : Primitives} (p q : Party prim)

def start : Handshake prim × SessionMessage := Handshake.start p.password p.ownFp p.peerFp p.rng

/-- The state after `pakeStart`, and the message it sends. -/
def pake : prim.PakeState × Bytes := pakeStart prim p.password p.rng

def text : Bytes := bindingText p.ownFp p.peerFp

end Party

/-- Two handshakes with the messages on their way to either. -/
structure Meeting (prim : Primitives) where
  a : Handshake prim
  b : Handshake prim
  toA : List SessionMessage
  toB : List SessionMessage

namespace Meeting

variable {prim : Primitives}

/-- Both have started and sent their first message. -/
def initial (p q : Party prim) : Meeting prim where
  a := p.start.1
  b := q.start.1
  toA := [q.start.2]
  toB := [p.start.2]

/-- The next message of a direction arrives. -/
inductive Event where
  | deliverA
  | deliverB
  deriving DecidableEq

def step (m : Meeting prim) : Event → Meeting prim
  | .deliverA =>
    match m.toA with
    | [] => m
    | msg :: toA =>
      let res := m.a.onMessage msg
      { m with a := res.1, toA := toA, toB := m.toB ++ res.2.toList }
  | .deliverB =>
    match m.toB with
    | [] => m
    | msg :: toB =>
      let res := m.b.onMessage msg
      { m with b := res.1, toB := toB, toA := m.toA ++ res.2.toList }

def admits (m : Meeting prim) : Event → Prop
  | .deliverA => m.toA ≠ []
  | .deliverB => m.toB ≠ []

end Meeting

/-- The interleavings of the two directions. -/
def meetings {prim : Primitives} : System (Meeting prim) Meeting.Event where
  init m := ∃ p q, m = .initial p q
  enabled := Meeting.admits
  step := Meeting.step

/-! ## What the primitives promise -/

/-- An exchange of two parties under ideal primitives: each finishes on the
other's message, the keys are equal for equal passwords only, and the tags for
equal keys and texts only. -/
structure IdealExchange {prim : Primitives} (p q : Party prim) (keyA keyB : Bytes32) : Prop where
  finishA : pakeFinish prim p.pake.1 q.pake.2 = .ok keyA
  finishB : pakeFinish prim q.pake.1 p.pake.2 = .ok keyB
  keys : keyA = keyB ↔ p.password = q.password
  tags : prim.hmac keyA p.text = prim.hmac keyB q.text → keyA = keyB ∧ p.text = q.text

/-- The parties know the password and see each other's fingerprint. -/
def Party.Match {prim : Primitives} (p q : Party prim) : Prop :=
  p.password = q.password ∧ p.ownFp = q.peerFp ∧ p.peerFp = q.ownFp

instance {prim : Primitives} (p q : Party prim) : Decidable (p.Match q) := inferInstanceAs (Decidable (_ ∧ _))

namespace IdealExchange

variable {prim : Primitives} {p q : Party prim} {keyA keyB : Bytes32}

/-- The tags agree exactly between matching parties. -/
theorem tags_iff (h : IdealExchange p q keyA keyB) (nulA : NulFree p.ownFp ∧ NulFree p.peerFp)
    (own : p.ownFp ≠ q.ownFp) :
    sessionBinding prim keyA p.ownFp p.peerFp = sessionBinding prim keyB q.ownFp q.peerFp ↔ p.Match q := by
  constructor
  · intro same
    obtain ⟨key, text⟩ := h.tags same
    refine ⟨h.keys.1 key, ?_⟩
    rcases bindingText_inj nulA.1 nulA.2 text with ⟨ho, -⟩ | ⟨ho, hp⟩
    · exact absurd ho own
    · exact ⟨ho, hp⟩
  · rintro ⟨password, ho, hp⟩
    rw [h.keys.2 password, ho, hp]
    exact sessionBinding_comm prim keyB q.peerFp q.ownFp

end IdealExchange

/-! ## How far the parties are -/

section Stages

variable {prim : Primitives} (p : Party prim) (key tag peerTag : Bytes32)

/-- The state of a party after `n` messages of an honest peer. -/
def Party.stateAfter : Nat → HandshakeState prim
  | 0 => .awaitingPake p.pake.1
  | 1 => .awaitingBinding key tag
  | _ => if tag = peerTag then .confirmed key else .failed

/-- What a party has sent after `n` messages. -/
def Party.sentAfter : Nat → List SessionMessage
  | 0 => [.pake p.pake.2]
  | _ => [.pake p.pake.2, .binding tag]

/-- A party after `n` messages. -/
def Party.after (n : Nat) : Handshake prim :=
  { ownFp := p.ownFp, peerFp := p.peerFp, state := p.stateAfter key tag peerTag n }

variable {p key tag peerTag} {q : Party prim}

/-- The next message takes a party one stage further. -/
theorem Party.after_onMessage (finish : pakeFinish prim p.pake.1 q.pake.2 = .ok key)
    (htag : tag = sessionBinding prim key p.ownFp p.peerFp) {n j : Nat} {msg : SessionMessage}
    {rest : List SessionMessage} (next : (q.sentAfter peerTag j).drop n = msg :: rest) :
    (p.after key tag peerTag n).onMessage msg =
        (p.after key tag peerTag (n + 1), if n = 0 then some (.binding tag) else none) ∧
      (p.sentAfter tag (n + 1)) = p.sentAfter tag n ++ (if n = 0 then [.binding tag] else []) ∧
      (q.sentAfter peerTag j).drop (n + 1) = rest := by
  have behind : (q.sentAfter peerTag j).drop (n + 1) = rest := by
    rw [← List.drop_drop, next]
    rfl
  match n, j, next with
  | 0, 0, next =>
    cases next
    refine ⟨?_, rfl, behind⟩
    simp only [Party.after, Party.stateAfter, Handshake.onMessage, finish, htag]
    rfl
  | 0, j + 1, next =>
    cases next
    refine ⟨?_, rfl, behind⟩
    simp only [Party.after, Party.stateAfter, Handshake.onMessage, finish, htag]
    rfl
  | 1, j + 1, next =>
    cases next
    refine ⟨?_, rfl, behind⟩
    simp only [Party.after, Party.stateAfter, Handshake.onMessage, ctEq_iff]
    rfl
  | n + 2, 0, next => simp [Party.sentAfter] at next
  | n + 2, j + 1, next => simp [Party.sentAfter] at next

end Stages

/-- `a` has had `i` messages and `b` has had `j`; what is under way to either is
what the other has sent beyond that. -/
structure Meeting.Stage {prim : Primitives} (p q : Party prim) (keyA keyB tagA tagB : Bytes32) (i j : Nat)
    (m : Meeting prim) : Prop where
  a : m.a = p.after keyA tagA tagB i
  b : m.b = q.after keyB tagB tagA j
  toA : m.toA = (q.sentAfter tagB j).drop i
  toB : m.toB = (p.sentAfter tagA i).drop j
  hadA : i ≤ (q.sentAfter tagB j).length
  hadB : j ≤ (p.sentAfter tagA i).length

section Runs

variable {prim : Primitives} {p q : Party prim} {keyA keyB : Bytes32}

/-- Both channels and both parties look the same from the other side. -/
def Meeting.swap (m : Meeting prim) : Meeting prim := { a := m.b, b := m.a, toA := m.toB, toB := m.toA }

variable {tagA tagB : Bytes32} {i j : Nat} {m : Meeting prim}

theorem Meeting.Stage.swap (h : m.Stage p q keyA keyB tagA tagB i j) : m.swap.Stage q p keyB keyA tagB tagA j i :=
  ⟨h.b, h.a, h.toB, h.toA, h.hadB, h.hadA⟩

theorem Meeting.step_swap (m : Meeting prim) : m.step .deliverB = (m.swap.step .deliverA).swap := by
  obtain ⟨a, b, toA, toB⟩ := m
  cases toB <;> rfl

theorem Meeting.Stage.deliverA (h : m.Stage p q keyA keyB tagA tagB i j)
    (finish : pakeFinish prim p.pake.1 q.pake.2 = .ok keyA)
    (htag : tagA = sessionBinding prim keyA p.ownFp p.peerFp) (some_toA : m.toA ≠ []) :
    (m.step .deliverA).Stage p q keyA keyB tagA tagB (i + 1) j := by
  obtain ⟨msg, rest, hmsg⟩ := List.exists_cons_of_ne_nil some_toA
  have next : (q.sentAfter tagB j).drop i = msg :: rest := h.toA.symm.trans hmsg
  obtain ⟨taken, sent, left⟩ := Party.after_onMessage finish htag next
  have shorter : i + 1 ≤ (q.sentAfter tagB j).length := by
    have := congrArg List.length next
    rw [List.length_drop, List.length_cons] at this
    omega
  simp only [Meeting.step, hmsg, h.a, taken]
  refine ⟨rfl, h.b, left.symm, ?_, shorter, ?_⟩
  · rw [sent, List.drop_append_of_le_length h.hadB, h.toB]
    split <;> rfl
  · rw [sent, List.length_append]
    have := h.hadB
    omega

theorem Meeting.Stage.step (h : m.Stage p q keyA keyB tagA tagB i j) (ideal : IdealExchange p q keyA keyB)
    (htagA : tagA = sessionBinding prim keyA p.ownFp p.peerFp)
    (htagB : tagB = sessionBinding prim keyB q.ownFp q.peerFp) {e : Meeting.Event} (he : m.admits e) :
    ∃ i' j', (m.step e).Stage p q keyA keyB tagA tagB i' j' := by
  cases e with
  | deliverA => exact ⟨i + 1, j, h.deliverA ideal.finishA htagA he⟩
  | deliverB =>
    rw [Meeting.step_swap]
    exact ⟨i, j + 1, (h.swap.deliverA ideal.finishB htagB he).swap⟩

theorem Meeting.stage_after (ideal : IdealExchange p q keyA keyB) {es : List Meeting.Event}
    (hv : meetings.Valid (Meeting.initial p q) es) :
    ∃ i j, (meetings.after (Meeting.initial p q) es).Stage p q keyA keyB
      (sessionBinding prim keyA p.ownFp p.peerFp) (sessionBinding prim keyB q.ownFp q.peerFp) i j := by
  have start : (Meeting.initial p q).Stage p q keyA keyB (sessionBinding prim keyA p.ownFp p.peerFp)
      (sessionBinding prim keyB q.ownFp q.peerFp) 0 0 := ⟨rfl, rfl, rfl, rfl, Nat.zero_le _, Nat.zero_le _⟩
  have all := System.allStates_of_allSteps (M := meetings) (C := Meeting.admits)
    (P := fun m : Meeting prim => ∃ i j, m.Stage p q keyA keyB (sessionBinding prim keyA p.ownFp p.peerFp)
      (sessionBinding prim keyB q.ownFp q.peerFp) i j)
    (fun m e _ he ⟨i, j, h⟩ _ => h.step ideal rfl rfl he) (.init ⟨p, q, rfl⟩) ⟨0, 0, start⟩ hv hv
  exact all.last

/-- Once every message is delivered both parties have had two. -/
theorem Meeting.Stage.ended (h : m.Stage p q keyA keyB tagA tagB i j) (doneA : m.toA = []) (doneB : m.toB = []) :
    2 ≤ i ∧ 2 ≤ j := by
  have restA : (q.sentAfter tagB j).length ≤ i := List.drop_eq_nil_iff.1 (h.toA.symm.trans doneA)
  have restB : (p.sentAfter tagA i).length ≤ j := List.drop_eq_nil_iff.1 (h.toB.symm.trans doneB)
  have atLeast (r : Party prim) (tag : Bytes32) (n : Nat) : (r.sentAfter tag n).length = if n = 0 then 1 else 2 := by
    cases n <;> rfl
  rw [atLeast] at restA restB
  split at restA <;> split at restB <;> omega

/-- Two honest handshakes end confirmed with one key if the parties match, and
both failed otherwise. -/
theorem handshakes_agree (p q : Party prim) (nul : NulFree p.ownFp ∧ NulFree p.peerFp)
    (own : p.ownFp ≠ q.ownFp) {keyA keyB : Bytes32} (ideal : IdealExchange p q keyA keyB)
    {es : List Meeting.Event} (hv : meetings.Valid (Meeting.initial p q) es)
    (doneA : (meetings.after (Meeting.initial p q) es).toA = [])
    (doneB : (meetings.after (Meeting.initial p q) es).toB = []) :
    let m := meetings.after (Meeting.initial p q) es
    (p.Match q → ∃ key, m.a.state = .confirmed key ∧ m.b.state = .confirmed key) ∧
      (¬ p.Match q → m.a.state = .failed ∧ m.b.state = .failed ∧
        m.a.confirmedKey = none ∧ m.b.confirmedKey = none) := by
  obtain ⟨i, j, stage⟩ := Meeting.stage_after ideal hv
  obtain ⟨hi, hj⟩ := stage.ended doneA doneB
  obtain ⟨i, rfl⟩ := Nat.exists_eq_add_of_le' hi
  obtain ⟨j, rfl⟩ := Nat.exists_eq_add_of_le' hj
  have tags := ideal.tags_iff nul own
  constructor
  · intro hm
    refine ⟨keyA, ?_, ?_⟩
    · rw [stage.a]
      exact if_pos (tags.2 hm)
    · rw [stage.b, ideal.keys.2 hm.1]
      exact if_pos ((tags.2 hm).symm.trans (by rw [ideal.keys.2 hm.1]))
  · intro hm
    have failedA : (meetings.after (Meeting.initial p q) es).a.state = .failed := by
      rw [stage.a]
      exact if_neg fun h => hm (tags.1 h)
    have failedB : (meetings.after (Meeting.initial p q) es).b.state = .failed := by
      rw [stage.b]
      exact if_neg fun h => hm (tags.1 h.symm)
    exact ⟨failedA, failedB, by simp [Handshake.confirmedKey, failedA], by simp [Handshake.confirmedKey, failedB]⟩

end Runs

/-! ## A meeting of the sample primitives -/

def sampleHost : Party samplePrimitives := { password := [7], ownFp := "h", peerFp := "c", rng := (1 : UInt8) }

def sampleController : Party samplePrimitives := { password := [7], ownFp := "c", peerFp := "h", rng := (2 : UInt8) }

/-- Matching parties confirm one key. -/
theorem handshakes_agree_matching :
    ∃ key, (meetings.after (Meeting.initial sampleHost sampleController)
      [.deliverA, .deliverB, .deliverB, .deliverA]).a.state = .confirmed key := by
  let key : Bytes32 := Vector.ofFn fun i => (([7, 1, 2] : Bytes) ++ utf8 "zortilwatch session key v1").getD i 0
  have ideal : IdealExchange sampleHost sampleController key key :=
    ⟨by rfl, by rfl, by simp [sampleHost, sampleController], fun _ => ⟨rfl, by decide +kernel⟩⟩
  have hv : meetings.Valid (Meeting.initial sampleHost sampleController)
      [.deliverA, .deliverB, .deliverB, .deliverA] := by
    refine ⟨?_, ?_, ?_, ?_, trivial⟩ <;> exact List.cons_ne_nil _ _
  obtain ⟨k, confirmed, -⟩ := (handshakes_agree sampleHost sampleController (by decide) (by decide) ideal hv
    (by decide +kernel) (by decide +kernel)).1 (by decide)
  exact ⟨k, confirmed⟩

end ZortilWatch.Core
