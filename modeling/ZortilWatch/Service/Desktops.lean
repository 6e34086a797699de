import ZortilWatch.Lib.Runs

/-!
# Threads that follow the input desktop (`core/src/capture.rs`, `service/src/main.rs`)

The capture thread and the thread that injects input bind themselves to the desktop
that has the input (Default, Winlogon, a screen saver). Both open it again and again;
a handle is kept while the thread is bound to it and closed otherwise. `CloseDesktop`
fails for a handle that is not open and, as documented, for one a thread of the
process is bound to.

`source_follows_desktop` is about the capture thread: what it holds open, which
desktop and output its pictures are of, and the one call that fails, behind its loop.
`injector_follows_desktop` is about the thread that injects.
-/

namespace ZortilWatch.Service

abbrev Hdesk := Nat

/-- The desktop handles of the process, and the one the thread is bound to. -/
structure Desktops where
  /-- The names of the desktops opened so far; a handle is a position here. -/
  names : List String := []
  opened : List Hdesk := []
  thread : Option Hdesk := none
  /-- Calls of `CloseDesktop` that failed. -/
  failed : Nat := 0
  deriving DecidableEq

namespace Desktops

/-- `OpenInputDesktop`, where it succeeds. -/
def openInput (os : Desktops) (name : String) : Desktops :=
  { os with names := os.names ++ [name], opened := os.names.length :: os.opened }

/-- `SetThreadDesktop`, where it succeeds. -/
def setThread (os : Desktops) (h : Hdesk) : Desktops := { os with thread := some h }

/-- `CloseDesktop` -/
def close (os : Desktops) (h : Hdesk) : Desktops :=
  if h ∈ os.opened ∧ os.thread ≠ some h then { os with opened := os.opened.erase h }
  else { os with failed := os.failed + 1 }

/-- `if let Some(old)`, close it. -/
def closeOld (os : Desktops) : Option Hdesk → Desktops
  | none => os
  | some old => os.close old

end Desktops

/-- A thread's binding: the system's side and `bound`. -/
structure Binding where
  os : Desktops := {}
  bound : Option Hdesk := none
  deriving DecidableEq

/-- The input desktop was opened: a thread that is on it (`same`) stays, else it is bound
to the new handle if that succeeds (`bind`). Also whether it was. -/
def Binding.follow (b : Binding) (name : String) (same bind : Bool) : Binding × Bool :=
  let hdesk := b.os.names.length
  let os := b.os.openInput name
  if same then ({ b with os := os.close hdesk }, false)
  else if bind then ({ os := (os.setThread hdesk).closeOld b.bound, bound := some hdesk }, true)
  else ({ b with os := os.close hdesk }, false)

theorem Binding.follow_kept {b : Binding} {name : String} {same bind : Bool}
    (kept : (b.follow name same bind).2 = false) :
    (b.follow name same bind).1.bound = b.bound := by
  cases same with
  | true => rfl
  | false =>
    cases bind with
    | false => rfl
    | true => cases kept

theorem Binding.follow_moved {b : Binding} {name : String} {same bind : Bool}
    (moved : (b.follow name same bind).2 = true) :
    (b.follow name same bind).1.bound = some b.os.names.length := by
  cases same with
  | true => cases moved
  | false =>
    cases bind with
    | false => cases moved
    | true => rfl

/-- The handle the thread is bound to is open, and no other, and no call failed; the
desktop is called `name`. -/
structure Binding.Held (b : Binding) (name : String) : Prop where
  opened : b.os.opened = b.bound.toList
  thread : b.os.thread = b.bound
  named : ∀ h ∈ b.bound, b.os.names[h]? = some name
  clean : b.os.failed = 0

namespace Binding.Held

variable {b : Binding} {name : String}

theorem start (name : String) : Held {} name := ⟨rfl, rfl, nofun, rfl⟩

theorem old (h : Held b name) {d : Hdesk} (bound : b.bound = some d) : d < b.os.names.length := by
  have named := h.named d bound
  exact (List.getElem?_eq_some_iff.1 named).1

/-- The handle just opened is closed again, unless the thread was bound to it. -/
theorem close_new (h : Held b name) (new : String) :
    (b.os.openInput new).close b.os.names.length = { b.os with names := b.os.names ++ [new] } := by
  have unbound : b.os.thread ≠ some b.os.names.length := by
    rw [h.thread]
    intro bound
    exact Nat.lt_irrefl _ (h.old bound)
  unfold Desktops.close
  rw [if_pos ⟨List.mem_cons_self, unbound⟩]
  simp [Desktops.openInput]

/-- A thread that stays where it is. -/
theorem stays (h : Held b name) (new : String) :
    Held { b with os := (b.os.openInput new).close b.os.names.length } name := by
  rw [h.close_new]
  refine ⟨h.opened, h.thread, fun d bound => ?_, h.clean⟩
  show (b.os.names ++ [new])[d]? = some name
  rw [List.getElem?_append_left (h.old bound)]
  exact h.named d bound

/-- A thread bound to the desktop just opened closes the one before. -/
theorem moves (h : Held b name) (new : String) :
    Held { os := ((b.os.openInput new).setThread b.os.names.length).closeOld b.bound, bound := some b.os.names.length }
      new := by
  have closes : ((b.os.openInput new).setThread b.os.names.length).closeOld b.bound =
      { names := b.os.names ++ [new], opened := [b.os.names.length], thread := some b.os.names.length } := by
    cases hb : b.bound with
    | none => simp [Desktops.closeOld, Desktops.setThread, Desktops.openInput, h.opened, hb, h.clean]
    | some d =>
      have before := Nat.ne_of_gt (h.old hb)
      simp only [Desktops.closeOld, Desktops.close, Desktops.setThread, Desktops.openInput, h.opened, hb,
        Option.toList_some]
      rw [if_pos (by simp [before])]
      simp [before, h.clean]
  rw [closes]
  refine ⟨rfl, rfl, fun d mem => ?_, rfl⟩
  cases mem
  exact List.getElem?_concat_length

theorem follow (h : Held b name) (new : String) (same bind : Bool) :
    (b.follow new same bind).2 = false ∧ (same = true ∨ bind = false) ∧ Held (b.follow new same bind).1 name ∨
      (b.follow new same bind).2 = true ∧ Held (b.follow new same bind).1 new := by
  cases same with
  | true => exact .inl ⟨rfl, .inl rfl, h.stays new⟩
  | false =>
    cases bind with
    | false => exact .inl ⟨rfl, .inr rfl, h.stays new⟩
    | true => exact .inr ⟨rfl, h.moves new⟩

/-- Behind the loop the handle is closed while the thread is still bound to it. -/
theorem close_bound (h : Held b name) : b.os.closeOld b.bound = { b.os with failed := b.bound.toList.length } := by
  cases hb : b.bound with
  | none =>
    show b.os = _
    rw [Option.toList_none, List.length_nil, ← h.clean]
  | some d =>
    have bound : b.os.thread = some d := h.thread.trans hb
    show b.os.close d = _
    unfold Desktops.close
    rw [if_neg fun ⟨_, free⟩ => free bound, h.clean]
    rfl

end Binding.Held

/-! ## The capture thread -/

/-- `DxgiCapture`: the desktop it was created on, the output it was asked for and the
one it duplicates. -/
structure DxgiCapture where
  desktop : Option Hdesk
  asked : UInt32
  output : UInt32
  deriving DecidableEq

/-- `DxgiCapture::new_output` of a thread on `desktop`; `outputs` is how many the adapter
has, unless a call fails. An index beyond them falls back to the first. -/
def newOutput (desktop : Option Hdesk) (index : UInt32) : Option Nat → Option DxgiCapture
  | none => none
  | some 0 => none
  | some outputs => some ⟨desktop, index, if index.toNat < outputs then index else 0⟩

/-- The variables of `source_loop`. -/
structure Source where
  binding : Binding := {}
  current : String := ""
  cap : Option DxgiCapture := none
  currentOutput : UInt32 := 0xFFFFFFFF
  running : Bool := true
  deriving DecidableEq

/-- What `next_frame` and `try_send` come to. -/
inductive Next where
  | delivered
  | full
  | disconnected
  | timeout
  | lost
  deriving DecidableEq, Repr

/-- What one turn of the loop finds: the output asked for, whether 200 ms have passed,
the name of the input desktop if it can be opened, whether the thread can be bound to
it, the adapter and the frame. -/
structure SourceTurn where
  desired : UInt32
  due : Bool
  input : Option String
  bind : Bool
  outputs : Option Nat
  next : Next
  deriving DecidableEq

namespace Source

/-- Another output is asked for. -/
def select (s : Source) (desired : UInt32) : Source :=
  if desired ≠ s.currentOutput then { s with currentOutput := desired, cap := none } else s

/-- The look at the input desktop. -/
def poll (s : Source) (input : Option String) (bind : Bool) : Source :=
  match input with
  | none => s
  | some name =>
    let (binding, rebound) := s.binding.follow name (name = s.current) bind
    if rebound then { s with binding := binding, current := name, cap := none }
    else { s with binding := binding }

/-- The capture the turn goes on with, if there is one or one can be created. -/
def ensure (s : Source) (outputs : Option Nat) : Option DxgiCapture :=
  match s.cap with
  | some c => some c
  | none => newOutput s.binding.os.thread s.currentOutput outputs

/-- One turn of `source_loop`, with the capture a frame was taken from. -/
def turn (s : Source) (i : SourceTurn) : Source × Option DxgiCapture :=
  let s := s.select i.desired
  let s := if s.cap.isNone || i.due then s.poll i.input i.bind else s
  match s.ensure i.outputs with
  | none => (s, none)
  | some c =>
    match i.next with
    | .delivered => ({ s with cap := some c }, some c)
    | .full => ({ s with cap := some c }, some c)
    | .disconnected => ({ s with cap := none, running := false }, some c)
    | .timeout => ({ s with cap := some c }, none)
    | .lost => ({ s with cap := none }, none)

/-- What follows the loop: `bound` is closed. -/
def finish (s : Source) : Desktops := s.binding.os.closeOld s.binding.bound

end Source

/-- The capture thread, until it is stopped or its consumer is gone. -/
def sourceLoop : System Source SourceTurn where
  init s := s = {}
  enabled s _ := s.running = true
  step s i := (s.turn i).1

namespace Source

/-- The thread holds the handle of its desktop, and its capture is one of that desktop
and of the output in force. -/
structure Current (s : Source) : Prop where
  held : s.binding.Held s.current
  cap : ∀ c, s.cap = some c → c.desktop = s.binding.bound ∧ c.asked = s.currentOutput

variable {s : Source}

theorem Current.select (h : Current s) (desired : UInt32) :
    Current (s.select desired) ∧ (s.select desired).currentOutput = desired := by
  unfold Source.select
  split
  · exact ⟨⟨h.held, nofun⟩, rfl⟩
  · rename_i same
    exact ⟨h, (not_not.1 same).symm⟩

theorem Current.poll (h : Current s) (input : Option String) (bind : Bool) :
    Current (s.poll input bind) ∧ (s.poll input bind).currentOutput = s.currentOutput ∧
      ∀ name, input = some name → name = s.current ∨ bind = true → (s.poll input bind).current = name := by
  cases input with
  | none => exact ⟨h, rfl, nofun⟩
  | some name =>
    simp only [Source.poll]
    rcases h.held.follow name (decide (name = s.current)) bind with ⟨kept, why, held⟩ | ⟨moved, held⟩
    · rw [if_neg (by rw [kept]; exact Bool.false_ne_true)]
      refine ⟨⟨held, fun c hc => ?_⟩, rfl, fun name' h' bound => ?_⟩
      · show c.desktop = (s.binding.follow name (decide (name = s.current)) bind).1.bound ∧ _
        rw [Binding.follow_kept kept]
        exact h.cap c hc
      · cases h'
        rcases bound with same | bound
        · exact same.symm
        · rcases why with same | free
          · exact (of_decide_eq_true same).symm
          · rw [bound] at free
            cases free
    · rw [if_pos moved]
      exact ⟨⟨held, nofun⟩, rfl, fun name' h' _ => Option.some.inj h'⟩

theorem Current.ensure (h : Current s) {outputs : Option Nat} {c : DxgiCapture} (hc : s.ensure outputs = some c) :
    c.desktop = s.binding.bound ∧ c.asked = s.currentOutput := by
  unfold Source.ensure at hc
  split at hc
  · rename_i c' used
    cases hc
    exact h.cap c used
  · unfold newOutput at hc
    split at hc
    · cases hc
    · cases hc
    · cases hc
      exact ⟨h.held.thread, rfl⟩

/-- What a turn keeps, and what a frame it takes is of. -/
theorem Current.turn (h : Current s) (i : SourceTurn) :
    Current (s.turn i).1 ∧ ∀ c, (s.turn i).2 = some c →
      c.desktop = (s.turn i).1.binding.bound ∧ c.asked = i.desired := by
  obtain ⟨selected, asked⟩ := h.select i.desired
  have polled : ∃ s', Current s' ∧ s'.currentOutput = i.desired ∧
      (if (s.select i.desired).cap.isNone || i.due then (s.select i.desired).poll i.input i.bind
        else s.select i.desired) = s' := by
    split
    · obtain ⟨current, output, -⟩ := selected.poll i.input i.bind
      exact ⟨_, current, output.trans asked, rfl⟩
    · exact ⟨_, selected, asked, rfl⟩
  obtain ⟨s', current, output, same⟩ := polled
  unfold Source.turn
  dsimp only
  rw [same]
  cases hc : s'.ensure i.outputs with
  | none => exact ⟨current, nofun⟩
  | some c =>
    obtain ⟨desktop, now⟩ := current.ensure hc
    have taken : Current { s' with cap := some c } := ⟨current.held, fun c' h' => by cases h'; exact ⟨desktop, now⟩⟩
    have dropped (running : Bool) : Current { s' with cap := none, running := running } := ⟨current.held, nofun⟩
    have frame : ∀ c', some c = some c' → c'.desktop = s'.binding.bound ∧ c'.asked = i.desired := by
      rintro c' ⟨⟩
      exact ⟨desktop, now.trans output⟩
    cases i.next with
    | delivered => exact ⟨taken, frame⟩
    | full => exact ⟨taken, frame⟩
    | disconnected => exact ⟨dropped false, frame⟩
    | timeout => exact ⟨taken, nofun⟩
    | lost => exact ⟨dropped s'.running, nofun⟩

/-- Only the look at the input desktop changes the desktop. -/
theorem current_turn (s : Source) (i : SourceTurn) : (s.turn i).1.current =
    (if (s.select i.desired).cap.isNone || i.due then (s.select i.desired).poll i.input i.bind
      else s.select i.desired).current := by
  unfold turn
  dsimp only
  generalize (if (s.select i.desired).cap.isNone || i.due then (s.select i.desired).poll i.input i.bind
      else s.select i.desired) = s'
  cases s'.ensure i.outputs with
  | none => rfl
  | some c => cases i.next <;> rfl

theorem current_of_reachable (hr : sourceLoop.Reachable s) : Current s := by
  refine hr.invariant (fun s0 h0 => ?_) fun s0 i _ h _ => (h.turn i).1
  cases h0
  exact ⟨.start _, nofun⟩

/-- In every run of the capture thread, however opening, binding, creating and capturing
come out: the handle of the desktop the thread is bound to is open and no other is, and
no call of the loop failed; when the loop looks and the input desktop opens, the thread
is on it then, unless it could not be bound; a frame is taken from a capture of the
thread's desktop, for the output asked for at the time; and behind the loop the last
handle stays open, as it is closed while the thread is bound to it. -/
theorem source_follows_desktop (hr : sourceLoop.Reachable s) (i : SourceTurn) :
    s.binding.Held s.current ∧
      (s.cap = none ∨ i.desired ≠ s.currentOutput ∨ i.due = true → ∀ name, i.input = some name →
        name = s.current ∨ i.bind = true → (s.turn i).1.binding.Held name) ∧
      (∀ c, (s.turn i).2 = some c → c.desktop = (s.turn i).1.binding.os.thread ∧ c.asked = i.desired) ∧
      s.finish = { s.binding.os with failed := s.binding.bound.toList.length } := by
  have current := current_of_reachable hr
  obtain ⟨after, frame⟩ := current.turn i
  refine ⟨current.held, fun looks name opens bound => ?_, fun c hc => ?_, current.held.close_bound⟩
  · have looked : ((s.select i.desired).cap.isNone || i.due) = true := by
      unfold select
      rcases looks with none_ | other | due
      · split <;> simp [none_]
      · rw [if_pos other]
        rfl
      · rw [due, Bool.or_true]
    have same : (s.select i.desired).current = s.current := by
      unfold select
      split <;> rfl
    have now := (current.select i.desired).1.poll i.input i.bind
    have named : (s.turn i).1.current = name := by
      rw [current_turn, if_pos looked]
      exact now.2.2 name opens (same.symm ▸ bound)
    exact named ▸ after.held
  · obtain ⟨desktop, asked⟩ := frame c hc
    exact ⟨desktop.trans after.held.thread.symm, asked⟩

/-- The user locks the machine while the first output is shown. -/
theorem source_follows_desktop_locked :
    let s := sourceLoop.after {} [⟨0, true, some "Default", true, some 2, .delivered⟩]
    let i : SourceTurn := ⟨0, true, some "Winlogon", true, some 2, .delivered⟩
    (s.turn i).1.binding.Held "Winlogon" ∧ (s.turn i).2 = some ⟨some 1, 0, 0⟩ := by
  intro s i
  have start : sourceLoop.Reachable {} := .init rfl
  have hr : sourceLoop.Reachable s := start.after ⟨rfl, trivial⟩
  exact ⟨(source_follows_desktop hr i).2.1 (.inr (.inr rfl)) _ rfl (.inr rfl), by decide⟩

end Source

/-! ## The thread that injects -/

/-- The thread of the service's session, with `INPUT_DESK`. -/
structure Injector where
  os : Desktops := {}
  desk : Option (Hdesk × String) := none
  deriving DecidableEq

/-- What one turn of the session's loop finds: whether messages are pending, whether 200 ms
have passed since the last look, the input desktop if it can be opened, with its name if
that can be read, and whether the thread can be bound to it. -/
structure InjectorTurn where
  pending : Bool
  due : Bool
  input : Option (Option String)
  bind : Bool
  deriving DecidableEq

namespace InjectorTurn

/-- The name of the input desktop, as the turn finds it if it looks. -/
def looked (i : InjectorTurn) : Option String :=
  if i.pending && i.due then i.input.map (·.getD "<?>") else none

/-- The desktop a thread that is on `here` injects the turn's input on. -/
def goesTo (i : InjectorTurn) (here : String) : String :=
  match i.looked with
  | none => here
  | some name => if i.bind then name else here

end InjectorTurn

namespace Injector

def binding (j : Injector) : Binding := { os := j.os, bound := j.desk.map Prod.fst }

/-- `ensure_input_desktop`, with the name of the input desktop if it can be opened. -/
def ensureInputDesktop (j : Injector) (input : Option String) (bind : Bool) : Injector :=
  match input with
  | none => j
  | some name =>
    let (binding, rebound) := j.binding.follow name (j.desk.any fun d => d.2 = name) bind
    { os := binding.os, desk := if rebound then binding.bound.map (·, name) else j.desk }

/-- A turn, up to where it injects what is pending. -/
def turn (j : Injector) (i : InjectorTurn) : Injector := j.ensureInputDesktop i.looked i.bind

/-- The thread holds the handle of its desktop, under the name it remembers. -/
structure On (j : Injector) (here : String) : Prop where
  held : j.binding.Held here
  named : ∀ d ∈ j.desk, d.2 = here

theorem On.ensureInputDesktop {j : Injector} {here : String} (h : On j here) (name : String) (bind : Bool) :
    On (j.ensureInputDesktop (some name) bind) (if bind then name else here) := by
  obtain ⟨held, named⟩ := h
  simp only [Injector.ensureInputDesktop]
  rcases held.follow name (j.desk.any fun d => d.2 = name) bind with ⟨kept, why, held'⟩ | ⟨moved, held'⟩
  · -- the thread stays: its desktop has the name, or it could not be bound
    have same : (if bind then name else here) = here := by
      rcases why with same | free
      · cases hd : j.desk with
        | none =>
          rw [hd] at same
          cases same
        | some d =>
          rw [hd, Option.any_some, decide_eq_true_eq] at same
          rw [← same, named d hd, ite_self]
      · rw [free, if_neg Bool.false_ne_true]
    rw [if_neg (by rw [kept]; exact Bool.false_ne_true), same]
    refine ⟨?_, named⟩
    have stays := Binding.follow_kept kept
    show Binding.Held { os := _, bound := j.binding.bound } here
    rw [← stays]
    exact held'
  · have bound : bind = true := by
      by_contra free
      rw [Bool.not_eq_true] at free
      rw [free] at moved
      cases hs : j.desk.any fun d => d.2 = name <;> rw [hs] at moved <;> cases moved
    have now := Binding.follow_moved moved
    rw [if_pos moved, now, if_pos bound]
    refine ⟨?_, fun d mem => ?_⟩
    · show Binding.Held { os := _, bound := some j.binding.os.names.length } name
      rw [← now]
      exact held'
    · cases mem
      rfl

theorem On.turn {j : Injector} {here : String} (h : On j here) (i : InjectorTurn) : On (j.turn i) (i.goesTo here) := by
  unfold Injector.turn InjectorTurn.goesTo
  cases i.looked with
  | none => exact h
  | some name => exact h.ensureInputDesktop name i.bind

end Injector

/-- The thread of the service's session, turn by turn. -/
def injecting : System Injector InjectorTurn where
  init j := j = {}
  enabled _ _ := True
  step := Injector.turn

namespace Injector

/-- In every run of the session's thread, however opening, reading the name and binding come
out: the handle of the desktop the thread is bound to is open and no other is, and no call
failed. A turn that looks, with input pending and the last look 200 ms ago, takes the thread
to the desktop of the name it finds if it can be bound there (one whose name cannot be read
counts as `<?>`), and every other turn leaves it where it is; what is pending is injected
there. -/
theorem injector_follows_desktop {j : Injector} (hr : injecting.Reachable j) :
    ∃ here, j.binding.Held here ∧ ∀ i : InjectorTurn, (j.turn i).binding.Held (i.goesTo here) := by
  have current : ∃ here, On j here := by
    refine hr.invariant (P := fun j => ∃ here, On j here) (fun j0 h0 => ?_)
      fun j0 i _ ⟨here, on⟩ _ => ⟨_, on.turn i⟩
    cases h0
    exact ⟨"", .start "", nofun⟩
  obtain ⟨here, on⟩ := current
  exact ⟨here, on.held, fun i => (on.turn i).held⟩

/-- The user locks the machine while the controller types. -/
theorem injector_follows_desktop_locked :
    let j := injecting.after {} [⟨true, true, some (some "Default"), true⟩]
    ∃ here, j.binding.Held here ∧ (j.turn ⟨true, true, some (some "Winlogon"), true⟩).binding.Held "Winlogon" ∧
      (j.turn ⟨true, false, some (some "Winlogon"), true⟩).binding.Held here := by
  intro j
  have start : injecting.Reachable {} := .init rfl
  have first : injecting.Valid {} [⟨true, true, some (some "Default"), true⟩] := ⟨trivial, trivial⟩
  obtain ⟨here, held, goes⟩ := injector_follows_desktop (start.after first)
  exact ⟨here, held, goes ⟨true, true, some (some "Winlogon"), true⟩, goes ⟨true, false, some (some "Winlogon"), true⟩⟩

/-- Where the two differ: an input desktop without a name is one the capture thread takes
itself to be on from the start, and the injecting thread binds itself to. -/
theorem unnamed_desktop (bind : Bool) :
    ((({} : Source).poll (some "") bind).binding.bound = none) ∧
      ((({} : Injector).ensureInputDesktop (some "") true).binding.bound = some 0) := by
  constructor
  · rfl
  · rfl

end Injector

end ZortilWatch.Service
