import Mathlib.Data.List.Basic
import Mathlib.Data.List.TakeWhile

/-!
# Fixed windows

One counter that allows `limit` calls in each window of `length` ticks. A window
opens with the first call that finds none open, and ends on its own. `verdicts`
is what the calls of a list of times are told.

If time does not run backwards, the calls split into windows of which exactly the
first `limit` calls are allowed (`splits_verdicts`), so an interval of a window's
length holds at most `2 * limit` allowed calls (`Splits.allowed_le`).
-/

namespace FixedWindow

structure Policy where
  limit : Nat
  length : Nat

/-- The calls a window has seen and the time it ends. -/
structure Window where
  count : Nat
  resetAt : Nat
  deriving DecidableEq

/-- What a call is told; a denial with the time its window has left. -/
inductive Verdict where
  | allowed
  | denied (left : Nat)
  deriving DecidableEq

def Verdict.isAllowed : Verdict → Bool
  | .allowed => true
  | .denied _ => false

/-- The window, if it is open at `now`. -/
def openAt (w : Option Window) (now : Nat) : Option Window := w.filter fun w => now < w.resetAt

/-- A call at `now`: the window after it and its verdict. -/
def call (p : Policy) (w : Option Window) (now : Nat) : Window × Verdict :=
  match openAt w now with
  | none => (⟨1, now + p.length⟩, .allowed)
  | some w =>
    (⟨w.count + 1, w.resetAt⟩, if w.count + 1 ≤ p.limit then .allowed else .denied (w.resetAt - now))

/-- The calls at the given times, each with its verdict. -/
def verdicts (p : Policy) (w : Option Window) : List Nat → List (Nat × Verdict)
  | [] => []
  | t :: ts => (t, (call p w t).2) :: verdicts p (some (call p w t).1) ts

/-! ## Equal windows -/

/-- No difference is seen from `now` on. -/
def AgreeFrom (now : Nat) (w w' : Option Window) : Prop := ∀ t, now ≤ t → openAt w t = openAt w' t

section Agree

variable {p : Policy} {w w' : Option Window} {now : Nat}

theorem AgreeFrom.refl (now : Nat) (w : Option Window) : AgreeFrom now w w := fun _ _ => rfl

theorem AgreeFrom.later {t : Nat} (h : AgreeFrom now w w') (le : now ≤ t) : AgreeFrom t w w' :=
  fun t' le' => h t' (Nat.le_trans le le')

theorem AgreeFrom.call_eq (h : AgreeFrom now w w') : call p w now = call p w' now := by
  simp only [call, h now (Nat.le_refl _)]

theorem openAt_some {w : Window} (running : now < w.resetAt) : openAt (some w) now = some w := by
  simp [openAt, running]

theorem openAt_eq_none {w : Window} (ended : w.resetAt ≤ now) : openAt (some w) now = none := by
  simp [openAt, ended]

theorem openAt_eq_some {x : Window} : openAt w now = some x ↔ w = some x ∧ now < x.resetAt := by
  simp [openAt, Option.filter_eq_some_iff]

end Agree

/-! ## Denials -/

section Denied

variable {p : Policy} {w : Option Window} {now left : Nat}

/-- A denial is told the time to the end of its window, and keeps that end. -/
theorem call_denied (h : (call p w now).2 = .denied left) :
    now + left = (call p w now).1.resetAt ∧ 0 < left := by
  cases running : openAt w now with
  | none => simp [call, running] at h
  | some x =>
    have before : now < x.resetAt := (openAt_eq_some.1 running).2
    simp only [call, running] at h ⊢
    split at h
    · cases h
    · cases h
      omega

/-- Denied calls leave the end of a window alone, so the first call behind it is
allowed. -/
theorem allowed_after_denials {x : Window} {times : List Nat} {mid post : List (Nat × Verdict)} {t : Nat} {v : Verdict}
    (calls : verdicts p (some x) times = mid ++ (t, v) :: post) (denied : ∀ c ∈ mid, c.2.isAllowed = false)
    (ended : x.resetAt ≤ t) : v = .allowed := by
  induction mid generalizing x times with
  | nil =>
    cases times with
    | nil => cases calls
    | cons t' ts =>
      simp only [verdicts, List.nil_append, List.cons.injEq, Prod.mk.injEq] at calls
      obtain ⟨⟨rfl, rfl⟩, -⟩ := calls
      simp only [call, openAt_eq_none ended]
  | cons c mid ih =>
    cases times with
    | nil => cases calls
    | cons t' ts =>
      simp only [verdicts, List.cons_append, List.cons.injEq] at calls
      obtain ⟨rfl, calls⟩ := calls
      refine ih calls (fun c mem => denied c (List.mem_cons_of_mem _ mem)) ?_
      have told := denied _ List.mem_cons_self
      cases running : openAt (some x) t' with
      | none => simp [call, running, Verdict.isAllowed] at told
      | some y =>
        obtain ⟨same, -⟩ := openAt_eq_some.1 running
        cases same
        simpa only [call, running] using ended

/-- The calls behind some of the calls are calls of a window again. -/
theorem verdicts_behind {times : List Nat} {pre rest : List (Nat × Verdict)}
    (calls : verdicts p w times = pre ++ rest) : ∃ w' ts, rest = verdicts p w' ts := by
  induction pre generalizing w times with
  | nil => exact ⟨w, times, calls.symm⟩
  | cons c pre ih =>
    cases times with
    | nil => cases calls
    | cons t ts =>
      simp only [verdicts, List.cons_append, List.cons.injEq] at calls
      exact ih calls.2

/-- Whoever waits as long as a denial says is allowed, unless a call in between
was. -/
theorem allowed_after_waiting {times : List Nat} {pre mid post : List (Nat × Verdict)} {t : Nat} {v : Verdict}
    (calls : verdicts p w times = pre ++ (now, .denied left) :: (mid ++ (t, v) :: post))
    (denied : ∀ c ∈ mid, c.2.isAllowed = false) (waited : now + left ≤ t) : v = .allowed := by
  obtain ⟨w', ts, behind⟩ := verdicts_behind calls
  cases ts with
  | nil => cases behind
  | cons t' ts =>
    simp only [verdicts, List.cons.injEq, Prod.mk.injEq] at behind
    obtain ⟨⟨rfl, told⟩, behind⟩ := behind
    apply allowed_after_denials behind.symm denied
    have ends := (call_denied told.symm).1
    omega

end Denied

/-! ## Windows -/

/-- A window by the times of its calls: the one that opens it, and the others. -/
structure Span where
  start : Nat
  later : List Nat

/-- The calls of a window; the first `limit` are allowed. -/
def Span.calls (limit : Nat) (s : Span) : List (Nat × Bool) :=
  (s.start :: s.later).zipIdx.map fun x => (x.1, decide (x.2 < limit))

/-- The calls split into windows, in order. -/
def Splits (p : Policy) (calls : List (Nat × Bool)) : Prop :=
  ∃ spans : List Span, calls = spans.flatMap (·.calls p.limit) ∧
    (∀ s ∈ spans, ∀ t ∈ s.later, s.start ≤ t ∧ t < s.start + p.length) ∧
    spans.Pairwise fun s s' => s.start + p.length ≤ s'.start

/-- The verdicts, as flags. -/
def flags (calls : List (Nat × Verdict)) : List (Nat × Bool) := calls.map fun c => (c.1, c.2.isAllowed)

section Spans

variable {p : Policy}

/-- Calls while a window is open are numbered through. -/
theorem flags_inside (w : Window) {ts : List Nat} (inside : ∀ t ∈ ts, t < w.resetAt) (rest : List Nat) :
    flags (verdicts p (some w) (ts ++ rest)) =
      (ts.zipIdx w.count).map (fun x => (x.1, decide (x.2 < p.limit))) ++
        flags (verdicts p (some ⟨w.count + ts.length, w.resetAt⟩) rest) := by
  induction ts generalizing w with
  | nil => rfl
  | cons t ts ih =>
    have running : openAt (some w) t = some w := openAt_some (inside t List.mem_cons_self)
    have one : call p (some w) t = (⟨w.count + 1, w.resetAt⟩,
        if w.count + 1 ≤ p.limit then .allowed else .denied (w.resetAt - t)) := by
      simp only [call, running]
    have rest_eq := ih ⟨w.count + 1, w.resetAt⟩ fun t' mem => inside t' (List.mem_cons_of_mem _ mem)
    have told : (call p (some w) t).2.isAllowed = decide (w.count < p.limit) := by
      rw [one]
      dsimp only
      split
      · rename_i le
        exact (decide_eq_true (p := w.count < p.limit) (by omega)).symm
      · rename_i gt
        exact (decide_eq_false (p := w.count < p.limit) (by omega)).symm
    simp only [List.cons_append, verdicts, flags, List.map_cons, told, List.zipIdx_cons, List.cons.injEq, true_and]
    rw [one]
    simp only [flags] at rest_eq
    rw [rest_eq]
    simp [Nat.add_assoc, Nat.add_comm 1]

theorem times_verdicts (w : Option Window) (times : List Nat) : (flags (verdicts p w times)).map Prod.fst = times := by
  induction times generalizing w with
  | nil => rfl
  | cons t ts ih => exact congrArg (t :: ·) (ih _)

/-- A list in order is cut by any bound. -/
theorem exists_cut {ts : List Nat} (sorted : ts.Pairwise (· ≤ ·)) (bound : Nat) :
    ∃ inside rest, ts = inside ++ rest ∧ (∀ t ∈ inside, t < bound) ∧ ∀ t ∈ rest, bound ≤ t := by
  induction ts with
  | nil => exact ⟨[], [], rfl, by simp, by simp⟩
  | cons t ts ih =>
    obtain ⟨first, sorted⟩ := List.pairwise_cons.1 sorted
    rcases Nat.lt_or_ge t bound with before | behind
    · obtain ⟨inside, rest, cut, within, beyond⟩ := ih sorted
      refine ⟨t :: inside, rest, by rw [cut, List.cons_append], fun x mem => ?_, beyond⟩
      rcases List.mem_cons.1 mem with rfl | mem
      · exact before
      · exact within x mem
    · refine ⟨[], t :: ts, rfl, by simp, fun x mem => ?_⟩
      rcases List.mem_cons.1 mem with rfl | mem
      · exact behind
      · exact Nat.le_trans behind (first x mem)

/-- The verdicts of calls in the order of time split into windows. -/
theorem splits_verdicts (positive : 0 < p.limit) {w : Option Window} {times : List Nat}
    (sorted : times.Pairwise (· ≤ ·)) (ended : ∀ t ∈ times.head?, openAt w t = none) :
    Splits p (flags (verdicts p w times)) := by
  induction h : times.length using Nat.strong_induction_on generalizing w times with
  | h n ih =>
    cases times with
    | nil => exact ⟨[], rfl, fun _ mem => (List.not_mem_nil mem).elim, .nil⟩
    | cons t ts =>
      obtain ⟨first, sorted⟩ := List.pairwise_cons.1 sorted
      -- the window of the first call takes all calls up to its end
      obtain ⟨inside, rest, rfl, within, beyond⟩ := exists_cut sorted (t + p.length)
      have later : Splits p (flags (verdicts p (some ⟨1 + inside.length, t + p.length⟩) rest)) := by
        refine ih rest.length ?_ (List.pairwise_append.1 sorted).2.1 (fun t' head => ?_) rfl
        · simp only [List.length_cons, List.length_append] at h
          omega
        · exact openAt_eq_none (beyond t' (List.mem_of_mem_head? head))
      have opens : call p w t = (⟨1, t + p.length⟩, .allowed) := by simp only [call, ended t rfl]
      have calls : flags (verdicts p w (t :: (inside ++ rest))) = Span.calls p.limit ⟨t, inside⟩ ++
          flags (verdicts p (some ⟨1 + inside.length, t + p.length⟩) rest) := by
        have here := flags_inside (p := p) ⟨1, t + p.length⟩ within rest
        rw [verdicts, opens]
        simp only [flags, List.map_cons] at here ⊢
        rw [here]
        simp [Span.calls, Verdict.isAllowed, positive]
      obtain ⟨spans, split, bounds, apart⟩ := later
      refine ⟨⟨t, inside⟩ :: spans, by rw [calls, split, List.flatMap_cons], ?_, ?_⟩
      · intro s mem
        rcases List.mem_cons.1 mem with rfl | mem
        · exact fun x hx => ⟨first x (List.mem_append_left _ hx), within x hx⟩
        · exact bounds s mem
      · refine List.pairwise_cons.2 ⟨fun s mem => ?_, apart⟩
        -- a window opens at the time of a call
        apply beyond
        rw [← times_verdicts (p := p) (some ⟨1 + inside.length, t + p.length⟩) rest, split]
        refine List.mem_map.2 ⟨(s.start, decide (0 < p.limit)), List.mem_flatMap.2 ⟨s, mem, ?_⟩, rfl⟩
        simp [Span.calls]

end Spans

/-! ## Intervals -/

section Intervals

variable {p : Policy} {a : Nat}

/-- The allowed calls in the interval of a window's length from `a` on, both ends
included. -/
def allowedFrom (p : Policy) (a : Nat) (calls : List (Nat × Bool)) : Nat :=
  calls.countP fun c => c.2 && decide (a ≤ c.1 ∧ c.1 ≤ a + p.length)

theorem countP_zipIdx_le {α : Type} (xs : List α) (k n : Nat) :
    (xs.zipIdx k).countP (fun x => decide (x.2 < n)) ≤ n - k := by
  induction xs generalizing k with
  | nil => exact Nat.zero_le _
  | cons x xs ih =>
    have := ih (k + 1)
    rw [List.zipIdx_cons, List.countP_cons]
    split
    · rename_i h
      have : k < n := by simpa using h
      omega
    · omega

/-- A window allows `limit` calls at most. -/
theorem Span.allowed_le (s : Span) : allowedFrom p a (s.calls p.limit) ≤ p.limit := by
  have numbered := countP_zipIdx_le (s.start :: s.later) 0 p.limit
  refine Nat.le_trans ?_ numbered
  rw [allowedFrom, Span.calls, List.countP_map]
  apply List.countP_mono_left
  intro x _ allowed
  simpa using (Bool.and_eq_true_iff.1 allowed).1

theorem Span.allowed_eq_zero {s : Span} (outside : ∀ t ∈ s.start :: s.later, t < a ∨ a + p.length < t) :
    allowedFrom p a (s.calls p.limit) = 0 := by
  apply List.countP_eq_zero.2
  intro c mem allowed
  obtain ⟨x, hx, rfl⟩ := List.mem_map.1 mem
  have time : x.1 ∈ s.start :: s.later := List.fst_mem_of_mem_zipIdx hx
  have inside : a ≤ x.1 ∧ x.1 ≤ a + p.length := by simpa using (Bool.and_eq_true_iff.1 allowed).2
  rcases outside x.1 time with before | behind <;> omega

theorem allowedFrom_cons (s : Span) (spans : List Span) :
    allowedFrom p a ((s :: spans).flatMap (·.calls p.limit)) =
      allowedFrom p a (s.calls p.limit) + allowedFrom p a (spans.flatMap (·.calls p.limit)) :=
  List.countP_append

/-- Windows that open behind the interval. -/
theorem allowed_behind {spans : List Span} (bounds : ∀ s ∈ spans, ∀ t ∈ s.later, s.start ≤ t ∧ t < s.start + p.length)
    (behind : ∀ s ∈ spans, a + p.length < s.start) : allowedFrom p a (spans.flatMap (·.calls p.limit)) = 0 := by
  induction spans with
  | nil => rfl
  | cons s spans ih =>
    have rest := ih (fun s mem => bounds s (List.mem_cons_of_mem _ mem))
      fun s mem => behind s (List.mem_cons_of_mem _ mem)
    have here : allowedFrom p a (s.calls p.limit) = 0 := by
      apply Span.allowed_eq_zero
      intro t mem
      have start := behind s List.mem_cons_self
      rcases List.mem_cons.1 mem with rfl | mem
      · exact .inr start
      · exact .inr (Nat.lt_of_lt_of_le start (bounds s List.mem_cons_self t mem).1)
    rw [allowedFrom_cons, here, rest]

/-- Of the windows that open within the interval, one reaches its calls. -/
theorem allowed_within {spans : List Span} (bounds : ∀ s ∈ spans, ∀ t ∈ s.later, s.start ≤ t ∧ t < s.start + p.length)
    (apart : spans.Pairwise fun s s' => s.start + p.length ≤ s'.start) (opened : ∀ s ∈ spans, a < s.start) :
    allowedFrom p a (spans.flatMap (·.calls p.limit)) ≤ p.limit := by
  cases spans with
  | nil => exact Nat.zero_le _
  | cons s spans =>
    have rest : allowedFrom p a (spans.flatMap (·.calls p.limit)) = 0 := by
      apply allowed_behind fun s mem => bounds s (List.mem_cons_of_mem _ mem)
      intro s' mem
      have next := (List.pairwise_cons.1 apart).1 s' mem
      have start := opened s List.mem_cons_self
      omega
    rw [allowedFrom_cons, rest]
    exact s.allowed_le

/-- An interval of a window's length meets two windows at most. -/
theorem Splits.allowed_le (positive : 0 < p.length) {calls : List (Nat × Bool)} (h : Splits p calls) (a : Nat) :
    allowedFrom p a calls ≤ 2 * p.limit := by
  obtain ⟨spans, rfl, bounds, apart⟩ := h
  induction spans with
  | nil => exact Nat.zero_le _
  | cons s spans ih =>
    obtain ⟨next, apart⟩ := List.pairwise_cons.1 apart
    have later_bounds : ∀ s ∈ spans, ∀ t ∈ s.later, s.start ≤ t ∧ t < s.start + p.length :=
      fun s mem => bounds s (List.mem_cons_of_mem _ mem)
    rw [allowedFrom_cons]
    rcases Nat.lt_or_ge a (s.start + p.length) with open_ | ended
    · have here := s.allowed_le (p := p) (a := a)
      have rest := allowed_within later_bounds apart fun s' mem => Nat.lt_of_lt_of_le open_ (next s' mem)
      omega
    · have here : allowedFrom p a (s.calls p.limit) = 0 := by
        apply Span.allowed_eq_zero
        intro t mem
        rcases List.mem_cons.1 mem with rfl | mem
        · exact .inl (by omega)
        · exact .inl (Nat.lt_of_lt_of_le (bounds s List.mem_cons_self t mem).2 ended)
      have rest := ih later_bounds apart
      omega

end Intervals

end FixedWindow
