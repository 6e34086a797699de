import ZortilWatch.Lib.Runs

/-!
# Runs that a rank bounds

Some steps are a system's own, the others come from outside. When every own step lowers
a rank and every other raises it by a bounded amount, the rank a run starts with and what
came from outside bound the number of its own steps (`own_le_rank`): what is never stuck
before its end gets there.
-/

universe u v

namespace System

variable {σ : Type u} {ε : Type v} (M : System σ ε)

/-- How many steps of the run of `es` from `s` meet `p`. -/
def stepCount (p : σ → ε → Bool) : σ → List ε → Nat
  | _, [] => 0
  | s, e :: es => (if p s e then 1 else 0) + stepCount p (M.step s e) es

/-- A rank that own steps lower and others raise by `c` at most. -/
structure Ranked (own : σ → ε → Bool) (rank : σ → Nat) (c : Nat) : Prop where
  lowers : ∀ s e, M.Reachable s → M.enabled s e → own s e = true → rank (M.step s e) < rank s
  raises : ∀ s e, M.Reachable s → M.enabled s e → own s e = false → rank (M.step s e) ≤ rank s + c

variable {M}

theorem stepCount_event (p : ε → Bool) (s : σ) (es : List ε) : M.stepCount (fun _ e => p e) s es = es.countP p := by
  induction es generalizing s with
  | nil => rfl
  | cons e es ih =>
    rw [stepCount, ih, List.countP_cons]
    omega

theorem Ranked.own_le_rank {own : σ → ε → Bool} {rank : σ → Nat} {c : Nat} (h : M.Ranked own rank c) {s : σ}
    (hr : M.Reachable s) {es : List ε} (hv : M.Valid s es) :
    M.stepCount own s es + rank (M.after s es) ≤ rank s + c * M.stepCount (fun s e => ! own s e) s es := by
  induction es generalizing s with
  | nil =>
    show 0 + rank s ≤ rank s + c * 0
    omega
  | cons e es ih =>
    obtain ⟨now, later⟩ := hv
    have rest := ih (.step hr now) later
    have same : M.after s (e :: es) = M.after (M.step s e) es := rfl
    rw [stepCount, stepCount, same]
    cases he : own s e with
    | true =>
      have lower := h.lowers s e hr now he
      simp only [if_true, Bool.not_true, Bool.false_eq_true, if_false, Nat.zero_add]
      omega
    | false =>
      have higher := h.raises s e hr now he
      simp only [Bool.false_eq_true, if_false, Bool.not_false, if_true, Nat.mul_add, Nat.mul_one]
      omega

/-- The bound where the event alone tells whose step it is. -/
theorem Ranked.events_le_rank {own : ε → Bool} {rank : σ → Nat} {c : Nat} (h : M.Ranked (fun _ e => own e) rank c)
    {s : σ} (hr : M.Reachable s) {es : List ε} (hv : M.Valid s es) :
    es.countP own + rank (M.after s es) ≤ rank s + c * es.countP (! own ·) := by
  rw [← stepCount_event (M := M) own s es, ← stepCount_event (M := M) (! own ·) s es]
  exact h.own_le_rank hr hv

end System
