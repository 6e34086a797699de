import Mathlib.Logic.Function.Basic
import ZortilWatch.Lib.Runs

/-!
# The service and its worker (`service/src/main.rs`)

`run_service` keeps one worker in the console session. A turn of its loop reads the
session, asks whether the worker lives and starts or ends workers; the calls it makes are
run on a table of open process handles, which takes a call only where the handle is in the
state for it. The loop makes no other calls, in whatever order sessions, crashes and failing
starts come (`supervises_one`).
-/

namespace ZortilWatch.Service

def NO_SESSION : UInt32 := 0xFFFFFFFF

/-- A call with what it returned. -/
inductive Call (H : Type) where
  | activeConsoleSession (session : UInt32)
  | isAlive (h : H) (alive : Bool)
  | spawnWorker (session : UInt32) (spawned : Option H)
  | terminateProcess (h : H)
  | closeHandle (h : H)
  | recvTimeout (stop : Bool)
  deriving DecidableEq

/-- What one turn of the loop finds. -/
structure Observation (H : Type) where
  session : UInt32
  /-- The worker, if there is one, still runs. -/
  alive : Bool
  /-- What `spawn_worker` returns, if it is called. -/
  spawned : Option H
  stop : Bool

/-- `worker`: the session it was started in and its handle. -/
abbrev Worker (H : Type) := Option (UInt32 × H)

variable {H : Type}

def kill (h : H) : List (Call H) := [.terminateProcess h, .closeHandle h]

/-- `if let Some((_, h)) = worker.take()`, and kill it. -/
def takeAndKill : Worker H → List (Call H)
  | some (_, h) => kill h
  | none => []

/-- `worker.as_ref().map(is_alive)`. -/
def askAlive (o : Observation H) : Worker H → List (Call H) × Bool
  | some (_, h) => ([.isAlive h o.alive], o.alive)
  | none => ([], false)

/-- The loop's body up to its wait: the calls and the worker then. -/
def turn (worker : Worker H) (o : Observation H) : List (Call H) × Worker H :=
  let (asked, alive) := askAlive o worker
  let seen := .activeConsoleSession o.session :: asked
  let sameSession := worker.map Prod.fst == some o.session
  if o.session ≠ NO_SESSION then
    if worker.isNone || !alive || !sameSession then
      (seen ++ takeAndKill worker ++ [.spawnWorker o.session o.spawned], o.spawned.map (o.session, ·))
    else (seen, worker)
  else (seen ++ takeAndKill worker, none)

/-- What a turn can do: keep a living worker in its session, end the worker, or start a
new one behind it. -/
theorem turn_cases (worker : Worker H) (o : Observation H) :
    (turn worker o = (.activeConsoleSession o.session :: (askAlive o worker).1, worker) ∧
        ∃ h, worker = some (o.session, h)) ∨
      turn worker o = (.activeConsoleSession o.session :: (askAlive o worker).1 ++ takeAndKill worker, none) ∨
      turn worker o = (.activeConsoleSession o.session :: (askAlive o worker).1 ++ takeAndKill worker ++
        [.spawnWorker o.session o.spawned], o.spawned.map (o.session, ·)) := by
  unfold turn
  dsimp only
  split
  · split
    · exact .inr (.inr rfl)
    · rename_i kept
      refine .inl ⟨rfl, ?_⟩
      cases worker with
      | none => simp at kept
      | some w =>
        obtain ⟨s, h⟩ := w
        simp only [Option.isNone_some, Bool.false_or, Bool.or_eq_true, not_or, Bool.not_eq_true,
          Bool.not_eq_false', Option.map_some, beq_iff_eq, Option.some.injEq] at kept
        exact ⟨h, by rw [kept.2]⟩
  · exact .inr (.inl rfl)

structure Supervisor (H : Type) where
  worker : Worker H := none
  calls : List (Call H) := []
  running : Bool := true

/-- The loop of `run_service` and what follows it, with all calls so far. -/
def supervision : System (Supervisor H) (Observation H) where
  init s := s = {}
  enabled s _ := s.running = true
  step s o :=
    let (calls, worker) := turn s.worker o
    let calls := s.calls ++ (calls ++ [.recvTimeout o.stop])
    if o.stop then { worker := none, calls := calls ++ takeAndKill worker, running := false }
    else { worker := worker, calls := calls, running := true }

/-! ## The handles of processes -/

structure Process where
  session : UInt32
  terminated : Bool := false
  deriving DecidableEq

/-- The open handles. -/
abbrev Handles (H : Type) := H → Option Process

def noHandles : Handles H := fun _ => none

section Table

variable [DecidableEq H]

/-- The system's side of the calls. A handle is used only while it is open and its
process not terminated, and closed only once it is. -/
def handles : System (Handles H) (Call H) where
  init t := t = noHandles
  enabled t
    | .spawnWorker _ (some h) => t h = none
    | .isAlive h _ => ∃ p, t h = some p ∧ p.terminated = false
    | .terminateProcess h => ∃ p, t h = some p ∧ p.terminated = false
    | .closeHandle h => ∃ p, t h = some p ∧ p.terminated = true
    | _ => True
  step t
    | .spawnWorker s (some h) => Function.update t h (some { session := s })
    | .terminateProcess h => Function.update t h ((t h).map fun p => { p with terminated := true })
    | .closeHandle h => Function.update t h none
    | _ => t

/-- At most one process has not been terminated. -/
def AtMostOne (t : Handles H) : Prop :=
  ∀ h h' p p', t h = some p → t h' = some p' → p.terminated = false → p'.terminated = false → h = h'

/-- One open handle. -/
def only (h : H) (p : Process) : Handles H := Function.update noHandles h (some p)

/-- The handles there are with such a worker. -/
def handlesOf : Worker H → Handles H
  | some (s, h) => only h { session := s }
  | none => noHandles

/-- Calls that the table takes, with one process at a time, from one worker to another. -/
structure Keeps (before : Worker H) (calls : List (Call H)) (behind : Worker H) : Prop where
  valid : handles.Valid (handlesOf before) calls
  one : handles.AllStates AtMostOne (handlesOf before) calls
  tracks : handles.after (handlesOf before) calls = handlesOf behind

@[simp] theorem only_self (h : H) (p : Process) : only h p h = some p := Function.update_self h _ _

theorem eq_of_only {h k : H} {p q : Process} (hq : only h p k = some q) : k = h := by
  by_contra other
  rw [only, Function.update_of_ne other] at hq
  cases hq

theorem atMostOne_only (h : H) (p : Process) : AtMostOne (only h p) :=
  fun _ _ _ _ hp hp' _ _ => (eq_of_only hp).trans (eq_of_only hp').symm

theorem atMostOne_handlesOf : (worker : Worker H) → AtMostOne (handlesOf worker)
  | none => fun _ _ _ _ hp => nomatch hp
  | some (s, h) => atMostOne_only h { session := s }

namespace Keeps

variable {worker worker' worker'' : Worker H} {calls calls' : List (Call H)}

theorem nil (worker : Worker H) : Keeps worker [] worker := ⟨trivial, atMostOne_handlesOf worker, rfl⟩

theorem append (first : Keeps worker calls worker') (second : Keeps worker' calls' worker'') :
    Keeps worker (calls ++ calls') worker'' where
  valid := System.allSteps_append.2 ⟨first.valid, by rw [first.tracks]; exact second.valid⟩
  one := System.allStates_append first.one (by rw [first.tracks]; exact second.one)
  tracks := by rw [System.after_append, first.tracks, second.tracks]

/-- Calls about no handle. -/
theorem unhandled (call : Call H) (free : ∀ t, handles.enabled t call) (still : ∀ t, handles.step t call = t)
    (worker : Worker H) : Keeps worker [call] worker where
  valid := ⟨free _, trivial⟩
  one := ⟨atMostOne_handlesOf worker, by rw [still]; exact atMostOne_handlesOf worker⟩
  tracks := still _

theorem asked (o : Observation H) : (worker : Worker H) → Keeps worker (askAlive o worker).1 worker
  | none => .nil none
  | some (s, h) =>
    { valid := ⟨⟨{ session := s }, only_self h _, rfl⟩, trivial⟩
      one := ⟨atMostOne_only h _, atMostOne_only h _⟩
      tracks := rfl }

/-- A worker that is killed leaves no handle open. -/
theorem killed : (worker : Worker H) → Keeps worker (takeAndKill worker) none
  | none => .nil none
  | some (s, h) => by
    have terminate : handles.step (only h { session := s }) (.terminateProcess h) =
        only h { session := s, terminated := true } := by simp [handles, only]
    have close : handles.step (only h { session := s, terminated := true }) (.closeHandle h) = noHandles := by
      simp [handles, only, noHandles]
    refine ⟨⟨⟨{ session := s }, only_self h _, rfl⟩, ?_, trivial⟩, ⟨atMostOne_only h _, ?_, ?_⟩, ?_⟩
    · rw [handlesOf, terminate]
      exact ⟨_, only_self h _, rfl⟩
    · rw [handlesOf, terminate]
      exact atMostOne_only h _
    · rw [handlesOf, terminate, close]
      exact atMostOne_handlesOf none
    · exact (congrArg (handles.step · (.closeHandle h)) terminate).trans close

/-- A worker is started where none is. -/
theorem spawned (session : UInt32) (result : Option H) :
    Keeps none [.spawnWorker session result] (result.map (session, ·)) := by
  cases result with
  | none => exact unhandled (.spawnWorker session none) (fun _ => trivial) (fun _ => rfl) none
  | some h => exact ⟨⟨rfl, trivial⟩, ⟨atMostOne_handlesOf none, atMostOne_only h _⟩, rfl⟩

end Keeps

theorem Keeps.turn (worker : Worker H) (o : Observation H) :
    Keeps worker (turn worker o).1 (turn worker o).2 := by
  have seen : Keeps worker (.activeConsoleSession o.session :: (askAlive o worker).1) worker :=
    (Keeps.unhandled (.activeConsoleSession o.session) (fun _ => trivial) (fun _ => rfl) worker).append
      (.asked o worker)
  rcases turn_cases worker o with ⟨e, -⟩ | e | e <;> rw [e]
  · exact seen
  · exact seen.append (.killed worker)
  · exact (seen.append (.killed worker)).append (.spawned o.session o.spawned)

/-! ## Every run -/

/-- A handle that is open, and one whose process is not terminated. -/
def openCount (t : Handles H) (h : H) : Nat := if (t h).isSome then 1 else 0

def liveCount (t : Handles H) (h : H) : Nat := if (t h).any (!·.terminated) then 1 else 0

/-- How often a handle was handed out, terminated and closed. -/
def spawns (calls : List (Call H)) (h : H) : Nat :=
  calls.countP fun | .spawnWorker _ spawned => spawned == some h | _ => false

def terminations (calls : List (Call H)) (h : H) : Nat := calls.count (.terminateProcess h)

def closings (calls : List (Call H)) (h : H) : Nat := calls.count (.closeHandle h)

/-- One call the table takes. -/
theorem balanced_step {t : Handles H} {call : Call H} (taken : handles.enabled t call) (h : H) :
    spawns [call] h + liveCount t h = terminations [call] h + liveCount (handles.step t call) h ∧
      spawns [call] h + openCount t h = closings [call] h + openCount (handles.step t call) h := by
  cases call with
  | spawnWorker s spawned =>
    cases spawned with
    | none => exact ⟨rfl, rfl⟩
    | some k =>
      have fresh : t k = none := taken
      by_cases same : k = h
      · subst same
        simp [spawns, terminations, closings, liveCount, openCount, handles, fresh]
      · simp [spawns, terminations, closings, liveCount, openCount, handles, same, Ne.symm same]
  | isAlive k alive => exact ⟨rfl, rfl⟩
  | terminateProcess k =>
    obtain ⟨p, open_, live⟩ := taken
    by_cases same : k = h
    · subst same
      simp [spawns, terminations, closings, liveCount, openCount, handles, open_, live]
    · simp [spawns, terminations, closings, liveCount, openCount, handles, same, Ne.symm same]
  | closeHandle k =>
    obtain ⟨p, open_, dead⟩ := taken
    by_cases same : k = h
    · subst same
      simp [spawns, terminations, closings, liveCount, openCount, handles, open_, dead]
    · simp [spawns, terminations, closings, liveCount, openCount, handles, same, Ne.symm same]
  | activeConsoleSession => exact ⟨rfl, rfl⟩
  | recvTimeout => exact ⟨rfl, rfl⟩

/-- In calls the table takes, each handle that is handed out is terminated and closed
once, or still to be. -/
theorem balanced {t : Handles H} {calls : List (Call H)} (valid : handles.Valid t calls) (h : H) :
    spawns calls h + liveCount t h = terminations calls h + liveCount (handles.after t calls) h ∧
      spawns calls h + openCount t h = closings calls h + openCount (handles.after t calls) h := by
  induction calls generalizing t with
  | nil => exact ⟨rfl, rfl⟩
  | cons call calls ih =>
    obtain ⟨live, open_⟩ := ih valid.2
    obtain ⟨live', open_'⟩ := balanced_step valid.1 h
    have spawned : spawns (call :: calls) h = spawns [call] h + spawns calls h := by
      simp only [spawns, ← List.singleton_append (l := calls), List.countP_append]
    have terminated : terminations (call :: calls) h = terminations [call] h + terminations calls h := by
      simp only [terminations, ← List.singleton_append (l := calls), List.count_append]
    have closed : closings (call :: calls) h = closings [call] h + closings calls h := by
      simp only [closings, ← List.singleton_append (l := calls), List.count_append]
    have behind : handles.after t (call :: calls) = handles.after (handles.step t call) calls := rfl
    rw [spawned, terminated, closed, behind]
    omega

/-- What the service has done so far is in order: the table took all of it, with one
process at a time, and if the service has ended, every process was terminated and its
handle closed once. -/
structure Orderly (s : Supervisor H) : Prop where
  valid : handles.Valid noHandles s.calls
  one : handles.AllStates AtMostOne noHandles s.calls
  ended : s.running = false → handles.after noHandles s.calls = noHandles ∧
    ∀ h, terminations s.calls h = spawns s.calls h ∧ closings s.calls h = spawns s.calls h

/-- Behind the body of this turn, a process not terminated is of the session read in it. -/
def InSession (s : Supervisor H) (o : Observation H) : Prop :=
  ∀ h p, handles.after noHandles (s.calls ++ (turn s.worker o).1) h = some p → p.terminated = false →
    p.session = o.session

/-- The calls so far lead to the worker there is, and to none behind the end. -/
structure Tracked (s : Supervisor H) : Prop where
  keeps : Keeps none s.calls s.worker
  ended : s.running = false → s.worker = none

theorem Tracked.orderly {s : Supervisor H} (h : Tracked s) : Orderly s := by
  refine ⟨h.keeps.valid, h.keeps.one, fun ended => ?_⟩
  have empty : handles.after noHandles s.calls = noHandles := by
    have tracks := h.keeps.tracks
    rwa [h.ended ended] at tracks
  refine ⟨empty, fun k => ?_⟩
  obtain ⟨live, open_⟩ := balanced h.keeps.valid k
  have tracks : handles.after (handlesOf none) s.calls = noHandles := empty
  rw [tracks] at live open_
  exact ⟨by simpa [liveCount, handlesOf, noHandles] using live.symm,
    by simpa [openCount, handlesOf, noHandles] using open_.symm⟩

/-- One turn, to its end or to the end of the service. -/
theorem Tracked.step {s : Supervisor H} (h : Tracked s) (o : Observation H) :
    Tracked (supervision.step s o) ∧ InSession s o := by
  have waited : Keeps (turn s.worker o).2 [.recvTimeout o.stop] (turn s.worker o).2 :=
    .unhandled (.recvTimeout o.stop) (fun _ => trivial) (fun _ => rfl) _
  have turned : Keeps none (s.calls ++ (turn s.worker o).1) (turn s.worker o).2 := h.keeps.append (.turn s.worker o)
  have whole : Keeps none (s.calls ++ ((turn s.worker o).1 ++ [.recvTimeout o.stop])) (turn s.worker o).2 := by
    rw [← List.append_assoc]
    exact turned.append waited
  constructor
  · simp only [supervision]
    split
    · exact ⟨whole.append (.killed _), fun _ => rfl⟩
    · exact ⟨whole, fun stopped => nomatch stopped⟩
  · intro k p open_ _
    have tracks : handles.after noHandles (s.calls ++ (turn s.worker o).1) = handlesOf (turn s.worker o).2 :=
      turned.tracks
    rw [tracks] at open_
    rcases turn_cases s.worker o with ⟨e, w, same⟩ | e | e
    · rw [e] at open_
      dsimp only at open_
      rw [same] at open_
      obtain rfl := eq_of_only open_
      rw [handlesOf, only_self] at open_
      cases open_
      rfl
    · rw [e] at open_
      cases open_
    · rw [e] at open_
      dsimp only at open_
      cases spawned : o.spawned with
      | none =>
        rw [spawned] at open_
        cases open_
      | some w =>
        rw [spawned] at open_
        obtain rfl := eq_of_only open_
        rw [Option.map_some, handlesOf, only_self] at open_
        cases open_
        rfl

/-- Whatever the loop observes, turn after turn: one worker at most is not terminated,
all that were started are terminated and closed once by the end and not used afterwards,
and the worker left by a turn is in the session read in it. -/
theorem supervises_one (os : List (Observation H)) (hv : supervision.Valid ({} : Supervisor H) os) :
    supervision.AllStates Orderly ({} : Supervisor H) os ∧ supervision.AllSteps InSession ({} : Supervisor H) os := by
  have start : Tracked ({} : Supervisor H) := ⟨.nil none, fun ended => nomatch ended⟩
  generalize ({} : Supervisor H) = s at hv start
  induction os generalizing s with
  | nil => exact ⟨start.orderly, trivial⟩
  | cons o os ih =>
    obtain ⟨next, session⟩ := start.step o
    obtain ⟨states, steps⟩ := ih _ hv.2 next
    exact ⟨⟨start.orderly, states⟩, session, steps⟩

/-- A worker is started, dies, cannot be started again, is started anew under the same
handle, and is ended with the service. -/
def crashes : List (Observation Nat) :=
  [⟨1, false, some 7, false⟩, ⟨1, false, none, false⟩, ⟨2, false, some 7, false⟩, ⟨2, true, none, true⟩]

theorem supervises_one_crashes :
    supervision.AllStates Orderly {} crashes ∧ supervision.AllSteps InSession {} crashes :=
  supervises_one crashes ⟨rfl, rfl, rfl, rfl, trivial⟩

end Table

end ZortilWatch.Service
