import Mathlib.Data.List.Induction

/-!
# Runs of event-driven systems

A `System` is a deterministic step function over states and events, with the
initial states and the events each state admits. Nondeterminism (a scheduler, a
network, a user) lives in the events. A run is the list of its events, oldest
first. `AllStates P` and `AllSteps C` speak of every state and of every step of
one run, and `Reachable` of the states all admitted runs visit.

The two rules the rest of a development uses are `Reachable.invariant` (an
inductive invariant holds in every reachable state) and `allStates_iff_allSteps`
(when one step keeps `P` exactly if it meets `C`, a run keeps `P` throughout
exactly if all its steps meet `C`).
-/

universe u v

/-- A system driven by events. -/
structure System (σ : Type u) (ε : Type v) where
  init : σ → Prop
  enabled : σ → ε → Prop
  step : σ → ε → σ

namespace System

variable {σ : Type u} {ε : Type v} (M : System σ ε)

/-- The state the events `es` lead to from `s`. -/
def after (s : σ) (es : List ε) : σ := es.foldl M.step s

/-- `P` holds in every state of the run of `es` from `s`, both ends included. -/
def AllStates (P : σ → Prop) : σ → List ε → Prop
  | s, [] => P s
  | s, e :: es => P s ∧ AllStates P (M.step s e) es

/-- `C` holds of every step of the run of `es` from `s`. -/
def AllSteps (C : σ → ε → Prop) : σ → List ε → Prop
  | _, [] => True
  | s, e :: es => C s e ∧ AllSteps C (M.step s e) es

/-- Every event of the run is admitted in the state it meets. -/
def Valid (s : σ) (es : List ε) : Prop := M.AllSteps M.enabled s es

instance decidableAllSteps {C : σ → ε → Prop} [∀ s e, Decidable (C s e)] :
    (s : σ) → (es : List ε) → Decidable (M.AllSteps C s es)
  | _, [] => .isTrue trivial
  | s, e :: es => @instDecidableAnd _ _ _ (decidableAllSteps (M.step s e) es)

instance [∀ s e, Decidable (M.enabled s e)] (s : σ) (es : List ε) : Decidable (M.Valid s es) :=
  M.decidableAllSteps s es

/-- States that some admitted run from an initial state visits. -/
inductive Reachable : σ → Prop where
  | init {s : σ} : M.init s → Reachable s
  | step {s : σ} {e : ε} : Reachable s → M.enabled s e → Reachable (M.step s e)

/-- The same system, admitting only the steps that also meet `C`. -/
def restrict (C : σ → ε → Prop) : System σ ε where
  init := M.init
  enabled s e := M.enabled s e ∧ C s e
  step := M.step

/-- The same system with a record of the run kept beside it. -/
def recording {η : Type*} (start : σ → η) (record : σ → ε → η → η) : System (σ × η) ε where
  init p := M.init p.1 ∧ p.2 = start p.1
  enabled p e := M.enabled p.1 e
  step p e := (M.step p.1 e, record p.1 e p.2)

variable {M}

/-- Where every event is admitted, every list of events is a run. -/
theorem valid_of_enabled (h : ∀ s e, M.enabled s e) (s : σ) (es : List ε) : M.Valid s es := by
  induction es generalizing s with
  | nil => trivial
  | cons e es ih => exact ⟨h s e, ih _⟩

/-- The invariant rule. -/
theorem Reachable.invariant {P : σ → Prop} (start : ∀ s, M.init s → P s)
    (keep : ∀ s e, M.Reachable s → P s → M.enabled s e → P (M.step s e)) {s : σ}
    (h : M.Reachable s) : P s := by
  induction h with
  | init h0 => exact start _ h0
  | step hr he ih => exact keep _ _ hr ih he

theorem Reachable.after {s : σ} (h : M.Reachable s) {es : List ε} (hv : M.Valid s es) :
    M.Reachable (M.after s es) := by
  induction es generalizing s with
  | nil => exact h
  | cons e es ih => exact ih (.step h hv.1) hv.2

theorem after_append (s : σ) (es es' : List ε) : M.after s (es ++ es') = M.after (M.after s es) es' :=
  List.foldl_append

theorem allSteps_append {C : σ → ε → Prop} {s : σ} {es es' : List ε} :
    M.AllSteps C s (es ++ es') ↔ M.AllSteps C s es ∧ M.AllSteps C (M.after s es) es' := by
  induction es generalizing s with
  | nil => exact ⟨fun h => ⟨trivial, h⟩, fun h => h.2⟩
  | cons e es ih =>
    rw [List.cons_append, AllSteps, AllSteps, ih, and_assoc]
    rfl

/-- Two runs one after the other share the state between them. -/
theorem allStates_append {P : σ → Prop} {s : σ} {es es' : List ε} (first : M.AllStates P s es)
    (second : M.AllStates P (M.after s es) es') : M.AllStates P s (es ++ es') := by
  induction es generalizing s with
  | nil => exact second
  | cons e es ih => exact ⟨first.1, ih first.2 second⟩

theorem AllStates.head {P : σ → Prop} {s : σ} {es : List ε} (h : M.AllStates P s es) : P s := by
  cases es with
  | nil => exact h
  | cons e es => exact h.1

theorem AllStates.last {P : σ → Prop} {s : σ} {es : List ε} (h : M.AllStates P s es) :
    P (M.after s es) := by
  induction es generalizing s with
  | nil => exact h
  | cons e es ih => exact ih h.2

/-- When a step from a good state keeps the state good exactly if it meets `C`,
a run stays good exactly if all its steps meet `C`. -/
theorem allStates_iff_allSteps {P : σ → Prop} {C : σ → ε → Prop}
    (exact_step : ∀ s e, M.Reachable s → M.enabled s e → P s → (P (M.step s e) ↔ C s e))
    {s : σ} (hr : M.Reachable s) (hs : P s) {es : List ε} (hv : M.Valid s es) :
    M.AllStates P s es ↔ M.AllSteps C s es := by
  induction es generalizing s with
  | nil => exact ⟨fun _ => trivial, fun _ => hs⟩
  | cons e es ih =>
    have one := exact_step s e hr hv.1 hs
    have hr' : M.Reachable (M.step s e) := .step hr hv.1
    constructor
    · intro h
      exact ⟨one.1 h.2.head, (ih hr' h.2.head hv.2).1 h.2⟩
    · intro h
      have hs' := one.2 h.1
      exact ⟨hs, (ih hr' hs' hv.2).2 h.2⟩

/-- When every step that meets `C` keeps `P`, so does a run of such steps. -/
theorem allStates_of_allSteps {P : σ → Prop} {C : σ → ε → Prop}
    (keep : ∀ s e, M.Reachable s → M.enabled s e → P s → C s e → P (M.step s e))
    {s : σ} (hr : M.Reachable s) (hs : P s) {es : List ε} (hv : M.Valid s es) (hc : M.AllSteps C s es) :
    M.AllStates P s es := by
  induction es generalizing s with
  | nil => exact hs
  | cons e es ih => exact ⟨hs, ih (.step hr hv.1) (keep s e hr hv.1 hs hc.1) hv.2 hc.2⟩

/-- When a step into `P` meets `C`, a run that keeps `P` throughout is one of such steps. -/
theorem allSteps_of_allStates {P : σ → Prop} {C : σ → ε → Prop}
    (into : ∀ s e, M.enabled s e → P (M.step s e) → C s e) {s : σ} {es : List ε} (hv : M.Valid s es)
    (h : M.AllStates P s es) : M.AllSteps C s es := by
  induction es generalizing s with
  | nil => trivial
  | cons e es ih => exact ⟨into s e hv.1 h.2.head, ih hv.2 h.2⟩

/-- The rule for what a state and the rest of its run keep together. -/
theorem allSteps_of_rest {I : σ → List ε → Prop} {C : σ → ε → Prop}
    (keep : ∀ s e es, M.enabled s e → I s (e :: es) → C s e ∧ I (M.step s e) es) {s : σ} {es : List ε}
    (hv : M.Valid s es) (hi : I s es) : M.AllSteps C s es := by
  induction es generalizing s with
  | nil => trivial
  | cons e es ih =>
    obtain ⟨now, rest⟩ := keep s e es hv.1 hi
    exact ⟨now, ih hv.2 rest⟩

/-- The rule for what a run and the state it leads to keep together, from the start of the run. -/
theorem Valid.induct {P : List ε → σ → Prop} {s : σ} (start : P [] s)
    (keep : ∀ es e, M.Valid s es → P es (M.after s es) → M.enabled (M.after s es) e →
      P (es ++ [e]) (M.step (M.after s es) e)) {es : List ε} (hv : M.Valid s es) : P es (M.after s es) := by
  induction es using List.reverseRecOn with
  | nil => exact start
  | append_singleton es e ih =>
    obtain ⟨before, last⟩ := allSteps_append.1 hv
    rw [after_append]
    exact keep es e before (ih before) last.1

/-- What is equivalent in reachable states is equivalent along a run. -/
theorem allStates_congr {P Q : σ → Prop} (h : ∀ s, M.Reachable s → (P s ↔ Q s)) {s : σ} (hr : M.Reachable s)
    {es : List ε} (hv : M.Valid s es) : M.AllStates P s es ↔ M.AllStates Q s es := by
  induction es generalizing s with
  | nil => exact h s hr
  | cons e es ih => exact and_congr (h s hr) (ih (.step hr hv.1) hv.2)

theorem AllStates.mono {P Q : σ → Prop} (h : ∀ s, P s → Q s) {s : σ} {es : List ε} (hp : M.AllStates P s es) :
    M.AllStates Q s es := by
  induction es generalizing s with
  | nil => exact h s hp
  | cons e es ih => exact ⟨h s hp.1, ih hp.2⟩

theorem AllSteps.mono {C D : σ → ε → Prop} (h : ∀ s e, M.enabled s e → C s e → D s e) {s : σ} {es : List ε}
    (hv : M.Valid s es) (hc : M.AllSteps C s es) : M.AllSteps D s es := by
  induction es generalizing s with
  | nil => trivial
  | cons e es ih => exact ⟨h s e hv.1 hc.1, ih hv.2 hc.2⟩

section Restrict

variable {C : σ → ε → Prop} {s : σ} {es : List ε}

theorem allStates_restrict {P : σ → Prop} : (M.restrict C).AllStates P s es ↔ M.AllStates P s es := by
  induction es generalizing s with
  | nil => rfl
  | cons e es ih => exact and_congr_right fun _ => ih

theorem allSteps_restrict {D : σ → ε → Prop} : (M.restrict C).AllSteps D s es ↔ M.AllSteps D s es := by
  induction es generalizing s with
  | nil => rfl
  | cons e es ih => exact and_congr_right fun _ => ih

theorem allSteps_and {D : σ → ε → Prop} :
    M.AllSteps (fun s e => C s e ∧ D s e) s es ↔ M.AllSteps C s es ∧ M.AllSteps D s es := by
  induction es generalizing s with
  | nil => exact ⟨fun _ => ⟨trivial, trivial⟩, fun _ => trivial⟩
  | cons e es ih =>
    rw [AllSteps, AllSteps, AllSteps, ih]
    exact ⟨fun h => ⟨⟨h.1.1, h.2.1⟩, h.1.2, h.2.2⟩, fun h => ⟨⟨h.1.1, h.2.1⟩, h.1.2, h.2.2⟩⟩

/-- Runs of a restricted system are the runs whose steps all meet the
restriction. -/
theorem valid_restrict : (M.restrict C).Valid s es ↔ M.Valid s es ∧ M.AllSteps C s es :=
  allSteps_restrict.trans allSteps_and

/-- What a restricted system reaches, the system reaches. -/
theorem Reachable.of_restrict (h : (M.restrict C).Reachable s) : M.Reachable s := by
  induction h with
  | init h0 => exact .init h0
  | step _ he ih => exact .step ih he.1

/-- A condition that every step meets restricts nothing. -/
theorem Reachable.restrict (h : M.Reachable s) (all : ∀ s e, C s e) : (M.restrict C).Reachable s := by
  induction h with
  | init h0 => exact .init h0
  | step _ he ih => exact .step ih ⟨he, all _ _⟩

end Restrict

end System
