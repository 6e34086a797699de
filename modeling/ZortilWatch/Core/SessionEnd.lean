import ZortilWatch.Core.Handover

/-!
# How a session ends

`controller_loop` and `managed_loop` (`core/src/connection.rs`) from their first
turn to the end of their threads. Behind the loops both say goodbye: `SESSION_BYE`
on the channel, a few rounds to get it out, `rtc.disconnect()`. Two exits leave by
`return` and pass this by: the controller's when the receiver of its frames is
gone, the host's when the capture does not start (`announced_iff`).
-/

namespace ZortilWatch.Core

/-- What a thread does on its way out. -/
inductive Act where
  /-- `write_raw(.., SESSION_BYE)`, and whether the channel takes it. -/
  | writeBye (taken : Bool)
  | drain (ok : Bool)
  /-- `handle_input(Input::Timeout(..))` -/
  | timeout
  | disconnect
  /-- `done.store(true)` -/
  | done
  | stopCapture
  deriving DecidableEq

/-- What a thread meets behind its loop. -/
structure Parting where
  /-- The channel is there and `write` answers `Ok(true)`. -/
  taken : Bool := true
  drains : List Bool := []
  lastDrain : Bool := true

/-- The rounds of `drain` and `Timeout`, until a `drain` fails. -/
def pump : List Bool → List Act
  | [] => []
  | true :: rest => .drain true :: .timeout :: pump rest
  | false :: _ => [.drain false]

/-- The block behind both loops. -/
def shutdown (p : Parting) : List Act :=
  .writeBye p.taken :: (pump (p.drains.take 5) ++ [.disconnect, .drain p.lastDrain])

/-- How a thread came to its end. -/
inductive Ending where
  | loop (e : Exit)
  | receiverGone
  | captureFailed
  deriving DecidableEq

/-! ## The threads -/

/-- Where a turn of `controller_loop` breaks off. A frame that finds no receiver
leaves at once, also behind a BYE. -/
def controllerExit (t : ControllerTurn) (inbox : List Bytes) : Option Ending :=
  if t.stop then some (.loop .stopped)
  else if !t.alive then some (.loop .dead)
  else if !t.drained then some (.loop .drain)
  else if t.receiverGone.isSome then some .receiverGone
  else if inbox.contains SESSION_BYE then some (.loop .bye)
  else if !t.drainedAfter then some (.loop .drain)
  else none

/-- The thread of the controller over the turns given, each with its inbox; `none`
while it runs on. -/
def controllerThread (turns : List (ControllerTurn × List Bytes)) (p : Parting) : Option (Ending × List Act) :=
  match turns.findSome? fun t => controllerExit t.1 t.2 with
  | none => none
  | some .receiverGone => some (.receiverGone, [])
  | some e => some (e, shutdown p)

/-- The thread of the host. The cleanup of the desktop is `Guard.cleanup`. -/
def managedThread (captureStarts : Bool) (turns : List (ManagedTurn Bytes)) (p : Parting) :
    Option (Ending × List Act) :=
  if !captureStarts then some (.captureFailed, [.done])
  else
    match managedLoop (· == SESSION_BYE) keep [] turns with
    | none => none
    | some (e, _) => some (.loop e, .done :: (shutdown p ++ [.stopCapture]))

/-- `controllerExit` says where `controllerTurn` does not go on. -/
theorem controllerTurn_goes_on (handled : List Bytes) (t : ControllerTurn) (inbox : List Bytes) :
    (controllerTurn handled t inbox).2 = (controllerExit t inbox).isNone := by
  obtain ⟨stop, alive, drained, receiverGone, drainedAfter⟩ := t
  cases stop <;> cases alive <;> cases drained <;> cases receiverGone <;>
    simp [controllerTurn, controllerExit]
  cases drainedAfter <;> by_cases bye : SESSION_BYE ∈ inbox <;> simp [bye]

/-! ## Goodbye -/

/-- The BYE is given to the channel, and the connection closed behind it. -/
def SaysBye (taken : Bool) (acts : List Act) : Prop :=
  ∃ before between behind, acts = before ++ .writeBye taken :: (between ++ .disconnect :: behind)

/-- A turn the loop comes to decodes a frame nobody receives. -/
def LosesReceiver (turns : List (ControllerTurn × List Bytes)) : Prop :=
  ∃ before t inbox behind, turns = before ++ (t, inbox) :: behind ∧
    (∀ x ∈ before, controllerExit x.1 x.2 = none) ∧
    t.stop = false ∧ t.alive = true ∧ t.drained = true ∧ t.receiverGone.isSome = true

theorem not_mem_pump (taken : Bool) (drains : List Bool) : .writeBye taken ∉ pump drains := by
  induction drains with
  | nil => simp [pump]
  | cons ok drains ih =>
    cases ok with
    | true => simpa [pump] using ih
    | false => simp [pump]

/-- The shutdown writes one BYE. -/
theorem mem_shutdown {p : Parting} {taken : Bool} : .writeBye taken ∈ shutdown p ↔ p.taken = taken := by
  unfold shutdown
  rw [List.mem_cons, List.mem_append]
  constructor
  · rintro (same | pumped | rest)
    · cases same
      rfl
    · exact (not_mem_pump _ _ pumped).elim
    · simp at rest
  · rintro rfl
    exact .inl rfl

theorem saysBye_shutdown {p : Parting} {taken : Bool} {before behind : List Act}
    (others : .writeBye taken ∉ before ++ behind) :
    SaysBye taken (before ++ (shutdown p ++ behind)) ↔ p.taken = taken := by
  constructor
  · rintro ⟨first, between, last, acts⟩
    have mem : Act.writeBye taken ∈ before ++ (shutdown p ++ behind) := by
      rw [acts]
      exact List.mem_append_right _ List.mem_cons_self
    rw [List.mem_append] at others
    rcases List.mem_append.1 mem with mem | mem
    · exact absurd (.inl mem) others
    · rcases List.mem_append.1 mem with mem | mem
      · exact mem_shutdown.1 mem
      · exact absurd (.inr mem) others
  · rintro rfl
    refine ⟨before, pump (p.drains.take 5), .drain p.lastDrain :: behind, ?_⟩
    simp [shutdown]

/-- The exit of a turn that finds no receiver. -/
theorem controllerExit_receiverGone {t : ControllerTurn} {inbox : List Bytes} :
    controllerExit t inbox = some .receiverGone ↔
      t.stop = false ∧ t.alive = true ∧ t.drained = true ∧ t.receiverGone.isSome = true := by
  obtain ⟨stop, alive, drained, receiverGone, drainedAfter⟩ := t
  unfold controllerExit
  cases stop <;> cases alive <;> cases drained <;> cases receiverGone <;> simp
  split_ifs <;> simp

theorem losesReceiver_iff {turns : List (ControllerTurn × List Bytes)} :
    LosesReceiver turns ↔ turns.findSome? (fun t => controllerExit t.1 t.2) = some .receiverGone := by
  rw [List.findSome?_eq_some_iff]
  constructor
  · rintro ⟨before, t, inbox, behind, cut, on, gone⟩
    exact ⟨before, (t, inbox), behind, cut, controllerExit_receiverGone.2 gone, on⟩
  · rintro ⟨before, ⟨t, inbox⟩, behind, cut, exit, on⟩
    exact ⟨before, t, inbox, behind, cut, on, controllerExit_receiverGone.1 exit⟩

/-- The end of a controller's thread: it leaves at once, or through the shutdown. -/
theorem controllerThread_ended {turns : List (ControllerTurn × List Bytes)} {p : Parting} {e : Ending}
    {acts : List Act} (ended : controllerThread turns p = some (e, acts)) :
    LosesReceiver turns ∧ acts = [] ∨ ¬ LosesReceiver turns ∧ acts = shutdown p := by
  rw [losesReceiver_iff]
  unfold controllerThread at ended
  split at ended
  · cases ended
  · rename_i gone
    cases ended
    exact .inl ⟨gone, rfl⟩
  · rename_i e' other exit
    cases ended
    refine .inr ⟨fun gone => other ?_, rfl⟩
    rw [gone] at exit
    exact (Option.some.inj exit).symm

theorem managedThread_ended {captureStarts : Bool} {turns : List (ManagedTurn Bytes)} {p : Parting} {e : Ending}
    {acts : List Act} (ended : managedThread captureStarts turns p = some (e, acts)) :
    captureStarts = false ∧ acts = [.done] ∨
      captureStarts = true ∧ acts = [.done] ++ (shutdown p ++ [.stopCapture]) := by
  unfold managedThread at ended
  cases captureStarts with
  | false =>
    cases ended
    exact .inl ⟨rfl, rfl⟩
  | true =>
    simp only [Bool.not_true, Bool.false_eq_true, if_false] at ended
    split at ended
    · cases ended
    · cases ended
      exact .inr ⟨rfl, rfl⟩

theorem not_saysBye {taken : Bool} {acts : List Act} (silent : .writeBye taken ∉ acts) : ¬ SaysBye taken acts := by
  rintro ⟨before, between, behind, rfl⟩
  exact silent (List.mem_append_right _ List.mem_cons_self)

/-- When the end of a session is announced. The controller tries to say goodbye
exactly if no turn finds its receiver gone, the host exactly if the capture has
started; the BYE is in the channel exactly if it also takes it. -/
theorem announced_iff (p : Parting) :
    (∀ turns e acts, controllerThread turns p = some (e, acts) →
      ((∃ taken, SaysBye taken acts) ↔ ¬ LosesReceiver turns) ∧
        (SaysBye true acts ↔ ¬ LosesReceiver turns ∧ p.taken = true)) ∧
    (∀ captureStarts turns e acts, managedThread captureStarts turns p = some (e, acts) →
      ((∃ taken, SaysBye taken acts) ↔ captureStarts = true) ∧
        (SaysBye true acts ↔ captureStarts = true ∧ p.taken = true)) := by
  constructor
  · intro turns e acts ended
    rcases controllerThread_ended ended with ⟨lost, rfl⟩ | ⟨kept, rfl⟩
    · have silent : ∀ taken, ¬ SaysBye taken [] := fun taken => not_saysBye List.not_mem_nil
      simp [silent, lost]
    · have spoken : ∀ taken, SaysBye taken (shutdown p) ↔ p.taken = taken := fun taken => by
        have alone : SaysBye taken ([] ++ (shutdown p ++ [])) ↔ p.taken = taken := saysBye_shutdown (by simp)
        rwa [List.nil_append, List.append_nil] at alone
      simp [spoken, kept]
  · intro captureStarts turns e acts ended
    rcases managedThread_ended ended with ⟨rfl, rfl⟩ | ⟨rfl, rfl⟩
    · have silent : ∀ taken, ¬ SaysBye taken [.done] := fun taken => not_saysBye (by simp)
      simp [silent]
    · have spoken : ∀ taken, SaysBye taken ([.done] ++ (shutdown p ++ [.stopCapture])) ↔ p.taken = taken :=
        fun taken => saysBye_shutdown (by simp)
      simp only [spoken, true_and, exists_eq', and_self]

theorem announced_iff_bye : (SaysBye true (shutdown {}) ↔
      ¬ LosesReceiver [({}, []), ({}, [SESSION_BYE])] ∧ ({} : Parting).taken = true) ∧
    (SaysBye true (.done :: (shutdown {} ++ [.stopCapture])) ↔ true = true ∧ ({} : Parting).taken = true) :=
  ⟨((announced_iff {}).1 [({}, []), ({}, [SESSION_BYE])] (.loop .bye) (shutdown {}) (by decide)).2,
    ((announced_iff {}).2 true [{ stop := true }] (.loop .stopped) (.done :: (shutdown {} ++ [.stopCapture]))
      (by decide)).2⟩

/-- A receiver dropped before a frame comes, and a capture that does not start: both
threads end in silence. -/
theorem ended_unannounced :
    controllerThread [({}, []), ({ receiverGone := some 0 }, [[0x5a]])] {} = some (.receiverGone, []) ∧
      managedThread false [] {} = some (.captureFailed, [.done]) ∧
      (∀ taken, ¬ SaysBye taken []) ∧ ∀ taken, ¬ SaysBye taken [.done] :=
  ⟨by decide, by decide, fun _ => not_saysBye List.not_mem_nil, fun _ => not_saysBye (by simp)⟩

end ZortilWatch.Core
