import ZortilWatch.Lib.Runs

/-!
# Refinement of machines that answer

A `Machine` gives an answer to every event. One machine stands for another on
the runs a `System` admits when a relation between their states is kept by every
admitted step and makes the two answers equal (`Machine.Simulates`). Then they
answer every admitted run alike (`Simulates.answers_eq`): whoever sees answers
only cannot tell them apart.

A `System` may instead take other steps than the one that stands for it. `look`
gives the events an event amounts to there, and what a run amounts to is a run
(`System.Simulates.valid_image`).
-/

universe u v w

/-- A deterministic machine with an answer to every event. -/
structure Machine (σ : Type u) (ε : Type v) (ο : Type w) where
  step : σ → ε → ο × σ

namespace Machine

variable {σ τ : Type*} {ε : Type*} {ο : Type*}

/-- The answers to a list of events, in order. -/
def answers (M : Machine σ ε ο) : σ → List ε → List ο
  | _, [] => []
  | s, e :: es => (M.step s e).1 :: answers M (M.step s e).2 es

/-- The machine as a system, with its initial states and the events it is given. -/
def toSystem (M : Machine σ ε ο) (init : σ → Prop) (enabled : σ → ε → Prop) : System σ ε where
  init := init
  enabled := enabled
  step s e := (M.step s e).2

/-- Related states answer an admitted event alike and stay related. -/
structure Simulates (M : Machine σ ε ο) (admits : σ → ε → Prop) (N : Machine τ ε ο) (R : σ → τ → Prop) :
    Prop where
  answer : ∀ s t e, R s t → admits s e → (M.step s e).1 = (N.step t e).1
  state : ∀ s t e, R s t → admits s e → R (M.step s e).2 (N.step t e).2

variable {M : Machine σ ε ο} {N : Machine τ ε ο} {admits : σ → ε → Prop} {R : σ → τ → Prop}

theorem Simulates.answers_eq (sim : M.Simulates admits N R) (init : σ → Prop) {s : σ} {t : τ} (h : R s t) {es : List ε}
    (hv : (M.toSystem init admits).Valid s es) : M.answers s es = N.answers t es := by
  induction es generalizing s t with
  | nil => rfl
  | cons e es ih =>
    obtain ⟨now, later⟩ := hv
    rw [answers, answers, sim.answer s t e h now, ih (sim.state s t e h now) later]

end Machine

namespace System

variable {σ τ : Type*} {ε δ : Type*}

/-- What a run amounts to, where `look` says so of one event. -/
def image (M : System σ ε) (look : σ → ε → List δ) : σ → List ε → List δ
  | _, [] => []
  | s, e :: es => look s e ++ M.image look (M.step s e) es

/-- Related states stay related, the one taking a step and the other what the step amounts to. -/
structure Simulates (M : System σ ε) (N : System τ δ) (look : σ → ε → List δ) (R : σ → τ → Prop) : Prop where
  admitted : ∀ s t e, R s t → M.enabled s e → N.Valid t (look s e)
  state : ∀ s t e, R s t → M.enabled s e → R (M.step s e) (N.after t (look s e))

variable {M : System σ ε} {N : System τ δ} {look : σ → ε → List δ} {R : σ → τ → Prop}

theorem Simulates.valid_image (sim : M.Simulates N look R) {s : σ} {t : τ} (h : R s t) {es : List ε}
    (hv : M.Valid s es) : N.Valid t (M.image look s es) := by
  induction es generalizing s t with
  | nil => trivial
  | cons e es ih =>
    obtain ⟨now, later⟩ := hv
    exact allSteps_append.2 ⟨sim.admitted s t e h now, ih (sim.state s t e h now) later⟩

end System
