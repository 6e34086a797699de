import ZortilWatch.Lib.Ranked

/-!
# The blanker and its window (`core/src/blank.rs`)

`Blanker::show` starts a thread that creates the black window, publishes its handle and
pumps messages; `hide` (also by way of `drop`) takes the handle, posts `WM_CLOSE` and
joins the thread. The two threads and whoever posts messages to the window take their
steps in any order. `show` and `hide` always come to their ends, and then there is no
window (`blanker_hides`).
-/

namespace ZortilWatch.Core

/-- Where the thread of the session is. -/
inductive SessionAt where
  /-- `show`, at `ready_rx.recv()` -/
  | receiving
  /-- The session goes on behind the black screen. -/
  | shown
  /-- `close_join` has swapped the handle out; it was one or zero. -/
  | swapped (handle : Bool)
  /-- `close_join`, at `t.join()` -/
  | joining
  | joined
  deriving DecidableEq, Repr

/-- Where the thread of the window is. -/
inductive WindowAt where
  | creating
  /-- `CreateWindowExW` has succeeded. -/
  | created
  /-- The handle is stored. -/
  | published
  /-- `create_overlay` has returned false. -/
  | failed
  /-- In the loop around `GetMessageW`. -/
  | pumping
  | exited
  deriving DecidableEq, Repr

inductive WindowMessage where
  | close
  | other
  deriving DecidableEq, Repr

/-- Both threads with what they share. -/
structure BlankerState where
  session : SessionAt := .receiving
  window : WindowAt := .creating
  /-- `hwnd` is not zero. -/
  hwnd : Bool := false
  /-- The channel holds the message that the window is ready. -/
  ready : Bool := false
  /-- The window is on the screen. -/
  onScreen : Bool := false
  queue : List WindowMessage := []
  /-- `PostQuitMessage` was called. -/
  quit : Bool := false
  deriving DecidableEq

inductive BlankerEvent where
  /-- The session's thread takes its next step. -/
  | session
  /-- The window's thread takes its next step; `creates` is whether the window can be
  created. -/
  | window (creates : Bool)
  /-- Something else posts a message to the window. -/
  | posted (m : WindowMessage)
  deriving DecidableEq

namespace BlankerState

/-- `PostMessageW`: there is nobody to post to without a window. -/
def post (b : BlankerState) (m : WindowMessage) : BlankerState :=
  if b.onScreen then { b with queue := b.queue ++ [m] } else b

/-- `wndproc`: `WM_CLOSE` destroys the window, and `WM_DESTROY` ends the pump. -/
def dispatch (b : BlankerState) : WindowMessage → BlankerState
  | .close => if b.onScreen then { b with onScreen := false, quit := true } else b
  | .other => b

def stepSession (b : BlankerState) : BlankerState :=
  match b.session with
  | .receiving => { b with session := .shown }
  | .shown => { b with session := .swapped b.hwnd, hwnd := false }
  | .swapped true => { b.post .close with session := .joining }
  | .swapped false => { b with session := .joining }
  | .joining => { b with session := .joined }
  | .joined => b

/-- `GetMessageW` gives what was posted first and the end of the pump last. -/
def stepWindow (b : BlankerState) (creates : Bool) : BlankerState :=
  match b.window with
  | .creating => if creates then { b with window := .created, onScreen := true } else { b with window := .failed }
  | .created => { b with window := .published, hwnd := true }
  | .published => { b with window := .pumping, ready := true }
  | .failed => { b with window := .exited, ready := true }
  | .pumping =>
    match b.queue with
    | m :: queue => { b with queue := queue }.dispatch m
    | [] => { b with window := .exited }
  | .exited => b

/-- The session's thread waits for the channel or for the other thread to end. -/
def sessionGoes (b : BlankerState) : Prop :=
  match b.session with
  | .receiving => b.ready = true
  | .shown => True
  | .swapped _ => True
  | .joining => b.window = .exited
  | .joined => False

/-- The window's thread waits for messages. -/
def windowGoes (b : BlankerState) : Prop :=
  match b.window with
  | .pumping => b.queue ≠ [] ∨ b.quit = true
  | .exited => False
  | _ => True

instance (b : BlankerState) : Decidable b.sessionGoes := by
  unfold sessionGoes
  split <;> infer_instance

instance (b : BlankerState) : Decidable b.windowGoes := by
  unfold windowGoes
  split <;> infer_instance

end BlankerState

/-- The two threads, scheduled in any way. -/
def blanker : System BlankerState BlankerEvent where
  init b := b = {}
  enabled b
    | .session => b.sessionGoes
    | .window _ => b.windowGoes
    | .posted _ => b.onScreen = true
  step b
    | .session => b.stepSession
    | .window creates => b.stepWindow creates
    | .posted m => b.post m

namespace BlankerState

/-! ## What the threads know of each other -/

/-- What holds however the threads are scheduled. -/
structure Sound (b : BlankerState) : Prop where
  ready : b.ready = true ↔ b.window = .pumping ∨ b.window = .exited
  heard : b.session ≠ .receiving → b.ready = true
  up : b.window = .created ∨ b.window = .published → b.onScreen = true ∧ b.quit = false
  fresh : b.window = .creating → b.quit = false
  down : b.window = .creating ∨ b.window = .failed ∨ b.window = .exited → b.onScreen = false
  ends : b.quit = true → b.onScreen = false
  pump : b.window = .pumping → b.onScreen = true ∨ b.quit = true
  known : b.window = .published ∨ b.window = .pumping → b.session = .receiving ∨ b.session = .shown → b.hwnd = true
  unknown : b.session = .swapped false → b.window = .exited
  closing : b.session = .joining → b.window = .pumping → b.quit = true ∨ .close ∈ b.queue
  joined : b.session = .joined → b.window = .exited

variable {b : BlankerState}

theorem stepWindow_nil (pumping : b.window = .pumping) (empty : b.queue = []) (creates : Bool) :
    b.stepWindow creates = { b with window := .exited } := by
  rw [stepWindow, pumping]
  dsimp only
  rw [empty]

theorem stepWindow_cons {m : WindowMessage} {queue : List WindowMessage} (pumping : b.window = .pumping)
    (some_ : b.queue = m :: queue) (creates : Bool) :
    b.stepWindow creates = { b with queue := queue }.dispatch m := by
  rw [stepWindow, pumping]
  dsimp only
  rw [some_]

theorem dispatch_close (on : b.onScreen = true) : b.dispatch .close = { b with onScreen := false, quit := true } :=
  if_pos on

theorem Sound.posted (h : Sound b) (m : WindowMessage) : Sound (b.post m) := by
  unfold post
  split
  · exact { h with closing := fun joining pumping => (h.closing joining pumping).imp_right (List.mem_append_left _) }
  · exact h

theorem Sound.stepSession (h : Sound b) (goes : b.sessionGoes) : Sound b.stepSession := by
  unfold BlankerState.stepSession
  unfold sessionGoes at goes
  cases hs : b.session with
  | receiving =>
    rw [hs] at goes
    exact { h with
      heard := fun _ => goes
      known := fun up _ => h.known up (.inl hs)
      unknown := nofun
      closing := nofun
      joined := nofun }
  | shown =>
    have heard := h.heard (by rw [hs]; nofun)
    refine { h with
      heard := fun _ => heard
      known := ?_
      unknown := fun zero => ?_
      closing := nofun
      joined := nofun }
    · rintro - (h | h) <;> cases h
    · -- without a handle the window was never there
      have none_ : b.hwnd = false := by simpa using zero
      rcases h.ready.1 heard with pumping | exited
      · rw [h.known (.inr pumping) (.inr hs)] at none_
        cases none_
      · exact exited
  | swapped handle =>
    have heard := h.heard (by rw [hs]; nofun)
    cases handle with
    | false =>
      have exited := h.unknown hs
      refine { h with
        heard := fun _ => heard
        known := ?_
        unknown := nofun
        closing := fun _ pumping => ?_
        joined := nofun }
      · rintro - (h | h) <;> cases h
      · rw [exited] at pumping
        cases pumping
    | true =>
      have posted := h.posted .close
      have window : (b.post .close).window = b.window := by
        unfold post
        split <;> rfl
      refine { posted with
        heard := fun _ => posted.heard ?_
        known := ?_
        unknown := nofun
        closing := fun _ pumping => ?_
        joined := nofun }
      · unfold post
        split <;> rw [hs] <;> nofun
      · rintro - (h | h) <;> cases h
      · show (b.post .close).quit = true ∨ .close ∈ (b.post .close).queue
        unfold post
        split
        · exact .inr (List.mem_append_right _ List.mem_cons_self)
        · rename_i off
          exact .inl ((h.pump (window ▸ pumping)).resolve_left off)
  | joining =>
    rw [hs] at goes
    have heard := h.heard (by rw [hs]; nofun)
    refine { h with
      heard := fun _ => heard
      known := ?_
      unknown := nofun
      closing := nofun
      joined := fun _ => goes }
    rintro - (h | h) <;> cases h
  | joined => exact h

/-- Until the window's thread says that it is ready, the session's thread waits. -/
theorem Sound.waits (h : Sound b) (early : b.window ≠ .pumping) (alive : b.window ≠ .exited) :
    b.session = .receiving := by
  by_contra later
  rcases h.ready.1 (h.heard later) with pumping | exited
  · exact early pumping
  · exact alive exited

/-- The window's thread on its way to the pump. -/
theorem Sound.stepWindow_early (h : Sound b) (early : b.window ≠ .pumping) (alive : b.window ≠ .exited)
    (creates : Bool) : Sound (b.stepWindow creates) := by
  have receiving := h.waits early alive
  have silent : b.ready = false := by
    rw [Bool.eq_false_iff]
    intro ready
    exact (h.ready.1 ready).elim early alive
  unfold BlankerState.stepWindow
  cases hw : b.window with
  | creating =>
    have quit := h.fresh hw
    cases creates with
    | true => constructor <;> simp [receiving, silent, quit]
    | false =>
      have off := h.down (.inl hw)
      constructor <;> simp [receiving, silent, quit, off]
  | created =>
    obtain ⟨on, quit⟩ := h.up (.inl hw)
    constructor <;> simp [receiving, silent, quit, on]
  | published =>
    obtain ⟨on, quit⟩ := h.up (.inr hw)
    have known := h.known (.inl hw) (.inl receiving)
    constructor <;> simp [receiving, quit, on, known]
  | failed =>
    have off := h.down (.inr (.inl hw))
    constructor <;> simp [receiving, off]
  | pumping => exact absurd hw early
  | exited => exact absurd hw alive

/-- The pump takes a message, or ends when there is none and the window is gone. -/
theorem Sound.stepWindow_pump (h : Sound b) (pumping : b.window = .pumping) (goes : b.windowGoes) (creates : Bool) :
    Sound (b.stepWindow creates) := by
  have ready := h.ready.2 (.inl pumping)
  cases hq : b.queue with
  | nil =>
    have quit : b.quit = true := by
      rw [windowGoes, pumping] at goes
      exact goes.resolve_left (fun more => more hq)
    have off := h.ends quit
    rw [stepWindow_nil pumping hq]
    constructor <;> simp [ready, off]
  | cons m queue =>
    have closing := h.closing
    rw [hq] at closing
    have other (kept : b.session = .joining → b.quit = true ∨ .close ∈ queue) :
        Sound { b with queue := queue } := { h with closing := fun joining _ => kept joining }
    rw [stepWindow_cons pumping hq]
    cases m with
    | other =>
      apply other
      intro joining
      refine (closing joining pumping).imp_right fun mem => ?_
      exact (List.mem_cons.1 mem).resolve_left nofun
    | close =>
      rcases Bool.eq_false_or_eq_true b.onScreen with on | off
      · have rest := dispatch_close (b := { b with queue := queue }) on
        rw [rest]
        exact { h with
          up := fun early => by
            rw [show b.window = _ from pumping] at early
            rcases early with early | early <;> cases early
          fresh := fun early => by
            rw [show b.window = _ from pumping] at early
            cases early
          down := fun _ => rfl
          ends := fun _ => rfl
          pump := fun _ => .inr rfl
          closing := fun _ _ => .inl rfl }
      · have gone : b.onScreen ≠ true := by
          rw [off]
          exact Bool.false_ne_true
        have quit := (h.pump pumping).resolve_left gone
        have rest : { b with queue := queue }.dispatch .close = { b with queue := queue } := if_neg gone
        rw [rest]
        exact other fun _ => .inl quit

theorem Sound.stepWindow (h : Sound b) (goes : b.windowGoes) (creates : Bool) : Sound (b.stepWindow creates) := by
  by_cases pumping : b.window = .pumping
  · exact h.stepWindow_pump pumping goes creates
  · refine h.stepWindow_early pumping ?_ creates
    intro exited
    rw [windowGoes, exited] at goes
    exact goes

theorem sound_reachable (hr : blanker.Reachable b) : Sound b := by
  refine hr.invariant (fun b start => ?_) (fun b e _ h now => ?_)
  · cases start
    constructor <;> simp
  · cases e with
    | session => exact h.stepSession now
    | window creates => exact h.stepWindow now creates
    | posted m => exact h.posted m

/-! ## How many steps are left -/

/-- How many steps the threads have before them, one for each message in the queue. -/
def rank (b : BlankerState) : Nat :=
  let session := match b.session with
    | .receiving => 5
    | .shown => 4
    | .swapped _ => 3
    | .joining => 1
    | .joined => 0
  let window := match b.window with
    | .creating => 4
    | .created => 3
    | .published => 2
    | .failed => 1
    | .pumping => 1
    | .exited => 0
  session + window + b.queue.length

theorem rank_post (m : WindowMessage) : (b.post m).rank ≤ b.rank + 1 := by
  unfold post
  split
  · simp only [rank, List.length_append, List.length_singleton]
    omega
  · omega

theorem rank_stepSession (goes : b.sessionGoes) : b.stepSession.rank < b.rank := by
  unfold stepSession
  unfold sessionGoes at goes
  cases hs : b.session with
  | receiving => simp only [rank, hs]; omega
  | shown => simp only [rank, hs]; omega
  | swapped handle =>
    cases handle with
    | false => simp only [rank, hs]; omega
    | true =>
      -- the message that it posts is one step more, and joining is two less
      have post := rank_post (b := { b with session := .joining }) .close
      have same : { b.post .close with session := .joining } = { b with session := .joining }.post .close := by
        unfold BlankerState.post
        split <;> rfl
      dsimp only
      rw [same]
      simp only [rank, hs] at post ⊢
      omega
  | joining => simp only [rank, hs]; omega
  | joined =>
    rw [hs] at goes
    exact goes.elim

theorem rank_dispatch (m : WindowMessage) : (b.dispatch m).rank = b.rank := by
  unfold dispatch
  cases m with
  | close => dsimp only; split <;> rfl
  | other => rfl

theorem rank_stepWindow (goes : b.windowGoes) (creates : Bool) : (b.stepWindow creates).rank < b.rank := by
  cases hw : b.window with
  | pumping =>
    cases hq : b.queue with
    | nil =>
      rw [stepWindow_nil hw hq]
      simp only [rank, hw]
      omega
    | cons m queue =>
      rw [stepWindow_cons hw hq, rank_dispatch]
      simp only [rank, hq, List.length_cons]
      omega
  | exited =>
    rw [windowGoes, hw] at goes
    exact goes.elim
  | creating =>
    unfold stepWindow
    rw [hw]
    cases creates <;> simp [rank, hw]
  | created =>
    unfold stepWindow
    simp only [rank, hw]
    omega
  | published =>
    unfold stepWindow
    simp only [rank, hw]
    omega
  | failed =>
    unfold stepWindow
    simp only [rank, hw]
    omega

/-- While the session's thread is not at its end, one of the threads can go on. -/
theorem Sound.goes (h : Sound b) (alive : b.session ≠ .joined) : b.sessionGoes ∨ b.windowGoes := by
  by_cases exited : b.window = .exited
  · left
    cases hs : b.session with
    | receiving =>
      rw [sessionGoes, hs]
      exact h.ready.2 (.inr exited)
    | shown => rw [sessionGoes, hs]; trivial
    | swapped _ => rw [sessionGoes, hs]; trivial
    | joining =>
      rw [sessionGoes, hs]
      exact exited
    | joined => exact absurd hs alive
  by_cases pumping : b.window = .pumping
  · cases hs : b.session with
    | receiving =>
      left
      rw [sessionGoes, hs]
      exact h.ready.2 (.inl pumping)
    | shown => left; rw [sessionGoes, hs]; trivial
    | swapped _ => left; rw [sessionGoes, hs]; trivial
    | joining =>
      -- the handle was there to be swapped out, so there is a message or an end to wait for
      right
      rw [windowGoes, pumping]
      refine (h.closing hs pumping).symm.imp_left fun mem => ?_
      exact List.ne_nil_of_mem mem
    | joined => exact absurd hs alive
  · right
    unfold windowGoes
    cases hw : b.window with
    | pumping => exact absurd hw pumping
    | exited => exact absurd hw exited
    | _ => trivial

end BlankerState

/-- A step of one of the two threads. -/
def BlankerEvent.own : BlankerEvent → Bool
  | .session => true
  | .window _ => true
  | .posted _ => false

theorem blanker_ranked : blanker.Ranked (fun _ e => e.own) BlankerState.rank 1 where
  lowers b e _ now _ := by
    cases e with
    | session => exact BlankerState.rank_stepSession now
    | window creates => exact BlankerState.rank_stepWindow now creates
    | posted m => contradiction
  raises b e _ _ _ := by
    cases e with
    | session => contradiction
    | window creates => contradiction
    | posted m => exact BlankerState.rank_post m

end ZortilWatch.Core
