import ZortilWatch.Core.HostStop
import ZortilWatch.Lib.Ranked

/-!
# Host mode of the desktop application

The host commands of `desktop/src-tauri/src/lib.rs` and the confirmation dialog and
the code panel of `ui/src/App.tsx`. `start_host` starts a thread of `Managed::serve`
and keeps its `HostHandle`; the other commands reach a thread through the handle only.
`stop_host` drops the handle, and the thread goes on beside its successor until it
returns. Commands, clicks and the steps of the threads come in any order.
-/

namespace ZortilWatch.Desktop

open ZortilWatch.Core

/-- A thread of `serve` with what it shares with its `HostHandle`. -/
structure ServeThread (J : Type) where
  permanentPassword : Option Bytes
  stop : Bool := false
  rotate : Bool := false
  confirm : Bool
  lockOnEnd : Bool
  decisions : List (Nat × Bool) := []
  oneTime : Option String := none
  /-- What `on_event` has sent and the webview has not received. -/
  events : List HostEvent := []
  /-- `none` before the first code is generated. -/
  host : Option (Host J) := none
  /-- `confirm_incoming` was read for the request in hand and the old decisions are gone. -/
  cleared : Bool := false

/-- `ConfirmRequest`, with the thread whose channel brought it; `decide` looks at the id only. -/
structure Dialog where
  thread : Nat
  requestId : Nat
  deriving DecidableEq, Repr

/-- `HostStatus` -/
structure HostStatus where
  active : Bool
  oneTime : Option String
  deriving DecidableEq, Repr

/-- The host part of `AppState` with the threads started so far, and of the webview
`oneTime`, `pendingConfirm` and the calls of `decideIncoming` and the answers of
`hostStatus` on their way. -/
structure HostMode (J : Type) where
  threads : List (ServeThread J) := []
  handle : Option Nat := none
  panel : Option String := none
  dialog : Option Dialog := none
  clicked : List (Dialog × Bool) := []
  answers : List HostStatus := []

inductive HostModeEvent (J : Type) where
  | startHost (permanentPassword : Option String) (confirmIncoming lockOnEnd : Bool)
  | stopHost
  | setLockOnEnd (enabled : Bool)
  | setConfirmIncoming (enabled : Bool)
  | refreshOneTime
  /-- `hostStatus` is executed, which the webview asks for some time behind a refresh. -/
  | hostStatus
  /-- The webview receives the `n`-th of the answers on their way. -/
  | answer (n : Nat)
  /-- The first of the clicks on their way is executed. -/
  | decideIncoming
  /-- `decide` of the webview -/
  | click (allow : Bool)
  /-- The 30 seconds of the dialog are over. -/
  | expire
  /-- `setOneTime(null)` behind `stopHost` -/
  | forget
  /-- The webview receives the next event of thread `i`. -/
  | deliver (i : Nat)
  /-- Thread `i` generates its first code. -/
  | begin (i : Nat) (code : String)
  /-- `while opts.decisions.try_recv().is_ok() {}` -/
  | clear (i : Nat)
  | serve (i : Nat) (r : Reading J)

/-- The thread that takes a step. -/
def HostModeEvent.thread? {J : Type} : HostModeEvent J → Option Nat
  | .begin i _ | .clear i | .serve i _ => some i
  | _ => none

section Threads

variable {J : Type} (env : HostEnv J) (t : ServeThread J)

/-- The flags and options that `start_host` makes. -/
def ServeThread.start (permanentPassword : Option String) (confirmIncoming lockOnEnd : Bool) : ServeThread J where
  permanentPassword := (permanentPassword.filter (· ≠ "")).map utf8
  confirm := confirmIncoming
  lockOnEnd := lockOnEnd

/-- The callback that `start_host` gives to `serve`. -/
def ServeThread.onEvent : HostEvent → ServeThread J
  | .oneTime code => { t with oneTime := some code, events := t.events ++ [.oneTime code] }
  | .confirm requestId kind => { t with events := t.events ++ [.confirm requestId kind] }

def ServeThread.begin (code : String) : ServeThread J :=
  { t with host := some ⟨.connecting, code, 0⟩ }.onEvent (.oneTime code)

/-- A step reads the flags and the decisions from the memory it shares. -/
def ServeThread.reads (r : Reading J) : Reading J :=
  { r with
    stop := t.stop, rotate := t.rotate, confirmIncoming := t.cleared, decision := t.decisions.head?,
    lockOnEnd := t.lockOnEnd }

/-- What a step takes out of that memory. -/
def ServeThread.taken (h : Host J) (late : Bool) : ServeThread J :=
  match h.control with
  | .top _ => if t.stop then t else { t with rotate := false }
  | .admitted _ => { t with cleared := false }
  | .deciding _ _ => if t.stop || late then t else { t with decisions := t.decisions.tail }
  | _ => t

def hostEvents (out : List (Output J)) : List HostEvent :=
  out.filterMap fun
    | .onEvent e => some e
    | _ => none

def ServeThread.options : HostEnv J := { env with permanentPassword := t.permanentPassword }

def ServeThread.serve (r : Reading J) : ServeThread J :=
  match t.host with
  | none => t
  | some h =>
    let p := h.serve (t.options env) (t.reads r)
    (hostEvents p.2).foldl ServeThread.onEvent { t.taken h r.late with host := some p.1 }

/-- `confirm_incoming` is read, and the old decisions are taken, before the request goes on. -/
def ServeThread.Clears : Prop := t.confirm = true ∧ t.cleared = false ∧ ∃ h a, t.host = some h ∧ h.control = .admitted a

def ServeThread.Serves : Prop :=
  ∃ h, t.host = some h ∧ h.control ≠ .returned ∧ ∀ a, h.control = .admitted a → t.cleared = true ∨ t.confirm = false

end Threads

section HostMode

variable {J : Type} (env : HostEnv J) (s : HostMode J)

def HostMode.onThread (i : Nat) (f : ServeThread J → ServeThread J) : HostMode J :=
  { s with threads := s.threads.modify i f }

def HostMode.onHandle (f : ServeThread J → ServeThread J) : HostMode J :=
  match s.handle with
  | some i => s.onThread i f
  | none => s

/-- `host_status` -/
def HostMode.hostStatus : HostStatus where
  active := s.handle.isSome
  oneTime := s.handle.bind fun i => s.threads[i]?.bind (·.oneTime)

/-- The code in an answer of `hostStatus`; an empty one is passed over. -/
def HostMode.answered (n : Nat) : Option String := (s.answers[n]?).bind fun st => st.oneTime.filter (· ≠ "")

/-- The next event that the webview receives of thread `i`. -/
def HostMode.nextEvent (i : Nat) : Option HostEvent := s.threads[i]?.bind (·.events.head?)

def HostMode.deliver (i : Nat) : HostMode J :=
  match s.nextEvent i with
  | none => s
  | some e =>
    let s := s.onThread i fun t => { t with events := t.events.tail }
    match e with
    | .oneTime code => { s with panel := some code }
    | .confirm requestId _ => { s with dialog := some ⟨i, requestId⟩ }

def HostMode.step : HostModeEvent J → HostMode J
  | .startHost permanent confirm lock =>
    match s.handle with
    | some _ => s
    | none =>
      { s with threads := s.threads ++ [ServeThread.start permanent confirm lock], handle := some s.threads.length }
  | .stopHost => { s.onHandle fun t => { t with stop := true } with handle := none }
  | .setLockOnEnd enabled => s.onHandle fun t => { t with lockOnEnd := enabled }
  | .setConfirmIncoming enabled => s.onHandle fun t => { t with confirm := enabled }
  | .refreshOneTime => s.onHandle fun t => { t with rotate := true }
  | .hostStatus => { s with answers := s.answers ++ [s.hostStatus] }
  | .answer n => { s with panel := (s.answered n).or s.panel, answers := s.answers.eraseIdx n }
  | .decideIncoming =>
    match s.clicked with
    | [] => s
    | (d, allow) :: rest =>
      { s.onHandle fun t => { t with decisions := t.decisions ++ [(d.requestId, allow)] } with clicked := rest }
  | .click allow =>
    match s.dialog with
    | none => s
    | some d => { s with clicked := s.clicked ++ [(d, allow)], dialog := none }
  | .expire => { s with dialog := none }
  | .forget => { s with panel := none }
  | .deliver i => s.deliver i
  | .begin i code => s.onThread i fun t => t.begin code
  | .clear i => s.onThread i fun t => { t with decisions := [], cleared := true }
  | .serve i r => s.onThread i fun t => t.serve env r

/-- A thread begins once, and goes on from where it is. -/
def HostMode.enabled : HostModeEvent J → Prop
  | .forget => s.handle = none
  | .begin i _ => ∃ t, s.threads[i]? = some t ∧ t.host = none
  | .clear i => ∃ t, s.threads[i]? = some t ∧ t.Clears
  | .serve i _ => ∃ t, s.threads[i]? = some t ∧ t.Serves
  | _ => True

def hostMode : System (HostMode J) (HostModeEvent J) where
  init s := s = {}
  enabled := HostMode.enabled
  step := HostMode.step env

end HostMode

/-! ## What a step of a thread sends to the webview -/

section Events

variable {J : Type} (env : HostEnv J) (r : Reading J)

theorem hostEvents_whileBusy (loop broken : Control J) : hostEvents (whileBusy loop broken r).2 = [] := by
  unfold whileBusy
  split <;> rfl

theorem hostEvents_poll (code : String) (pending : Option Request) :
    hostEvents (poll env code pending r).2 = [] := by
  unfold poll
  split
  · rfl
  · split <;> rfl

theorem hostEvents_waitDecision (a : Attempt) (id : Nat) : hostEvents (waitDecision a id r).2 = [] := by
  unfold waitDecision
  split
  · rfl
  · split
    · rfl
    · rfl
    · exact hostEvents_whileBusy r ..

theorem hostEvents_awaitReady (a : Attempt) : hostEvents (awaitReady a r).2 = [] := by
  unfold awaitReady
  split
  · rfl
  · split
    · rfl
    · exact hostEvents_whileBusy r ..

theorem hostEvents_sendOffer (a : Attempt) (joined : String) (ice : Option J) :
    hostEvents (sendOffer a joined ice r).2 = [] := by
  unfold sendOffer
  split
  · rfl
  · cases r.ok <;> rfl

theorem hostEvents_awaitAnswer (a : Attempt) (n : Negotiation J) : hostEvents (awaitAnswer env a n r).2 = [] := by
  unfold awaitAnswer
  split
  · rfl
  · split
    · split <;> rfl
    · exact hostEvents_whileBusy r ..

theorem hostEvents_duringSession (a : Attempt) : hostEvents (duringSession a r).2 = [] := by
  unfold duringSession
  split
  · rfl
  · split
    · split
      · rfl
      · exact hostEvents_whileBusy r ..
    · rfl
    · exact hostEvents_whileBusy r ..

/-- The request that a step asks the person about. -/
def asks (h : Host J) : Option HostEvent :=
  match h.control with
  | .admitted a =>
    if r.confirmIncoming then some (.confirm (h.nextRequestId + 1) (a.kind.getD "permanent")) else none
  | _ => none

/-- A step sends a new code, or asks the person, or is silent. -/
theorem hostEvents_serve (h : Host J) :
    hostEvents (h.serve env r).2 = if h.generates r then [.oneTime r.code] else (asks r h).toList := by
  unfold Host.serve Host.generates asks
  cases h.control with
  | top pending => cases r.stop <;> cases r.rotate <;> rfl
  | polling pending => exact hostEvents_poll env r ..
  | admitted a => cases r.confirmIncoming <;> rfl
  | deciding a id => exact hostEvents_waitDecision r ..
  | awaitingReady a => exact hostEvents_awaitReady r ..
  | offering a joined ice => exact hostEvents_sendOffer r ..
  | awaitingAnswer a n => exact hostEvents_awaitAnswer env r ..
  | inSession a => exact hostEvents_duringSession r ..
  | ending a tail wsOk => cases wsOk <;> cases hu : a.oneTimeUsed <;> cases r.lockOnEnd <;> simp [hu] <;> rfl
  | _ => rfl

theorem nextRequestId_serve (h : Host J) :
    (h.serve env r).1.nextRequestId = h.nextRequestId + (asks r h).toList.length := by
  unfold Host.serve asks
  cases h.control with
  | top pending => cases r.stop <;> cases r.rotate <;> rfl
  | admitted a => cases r.confirmIncoming <;> rfl
  | ending a tail wsOk => cases wsOk <;> cases hu : a.oneTimeUsed <;> simp [hu, Host.goto, Host.rotate]
  | _ => rfl

end Events

/-! ## What an event does to a thread -/

section Moves

variable {J : Type} (env : HostEnv J) (s : HostMode J)

theorem ServeThread.serve_eq {t : ServeThread J} {h : Host J} (begun : t.host = some h) (r : Reading J) :
    t.serve env r =
      { t.taken h r.late with
        host := some (h.serve (t.options env) (t.reads r)).1
        oneTime := if h.generates (t.reads r) then some r.code else t.oneTime
        events := t.events ++ hostEvents (h.serve (t.options env) (t.reads r)).2 } := by
  have same : (t.taken h r.late).oneTime = t.oneTime ∧ (t.taken h r.late).events = t.events := by
    unfold ServeThread.taken
    split
    · split <;> exact ⟨rfl, rfl⟩
    · exact ⟨rfl, rfl⟩
    · split <;> exact ⟨rfl, rfl⟩
    · exact ⟨rfl, rfl⟩
  unfold ServeThread.serve
  rw [begun]
  dsimp only
  rw [hostEvents_serve]
  cases h.generates (t.reads r) with
  | true =>
    simp only [if_true, List.foldl_cons, List.foldl_nil, ServeThread.onEvent, same.2]
    rfl
  | false =>
    simp only [Bool.false_eq_true, if_false]
    unfold asks
    split
    · split
      · simp only [Option.toList, List.foldl_cons, List.foldl_nil, ServeThread.onEvent, same.1, same.2]
      · simp [same.1, same.2]
    · simp [same.1, same.2]

theorem ServeThread.host_serve {t : ServeThread J} {h : Host J} (begun : t.host = some h) (r : Reading J) :
    (t.serve env r).host = some (h.serve (t.options env) (t.reads r)).1 := by
  rw [ServeThread.serve_eq env begun]

theorem ServeThread.events_serve {t : ServeThread J} {h : Host J} (begun : t.host = some h) (r : Reading J) :
    (t.serve env r).events = t.events ++ hostEvents (h.serve (t.options env) (t.reads r)).2 := by
  rw [ServeThread.serve_eq env begun]

/-- What an event makes of thread `i`. -/
inductive Moves (i : Nat) : HostModeEvent J → ServeThread J → ServeThread J → Prop where
  | same {e : HostModeEvent J} {t : ServeThread J} :
      (e = .stopHost → s.handle ≠ some i) → e.thread? ≠ some i → e ≠ .deliver i → Moves i e t t
  | stops {t : ServeThread J} : s.handle = some i → Moves i .stopHost t { t with stop := true }
  | locks {t : ServeThread J} (enabled : Bool) : s.handle = some i →
      Moves i (.setLockOnEnd enabled) t { t with lockOnEnd := enabled }
  | confirms {t : ServeThread J} (enabled : Bool) : s.handle = some i →
      Moves i (.setConfirmIncoming enabled) t { t with confirm := enabled }
  | refreshes {t : ServeThread J} : s.handle = some i → Moves i .refreshOneTime t { t with rotate := true }
  | decided {t : ServeThread J} (d : Dialog) (allow : Bool) (rest : List (Dialog × Bool)) :
      s.handle = some i → s.clicked = (d, allow) :: rest →
      Moves i .decideIncoming t { t with decisions := t.decisions ++ [(d.requestId, allow)] }
  | delivered {t : ServeThread J} : Moves i (.deliver i) t { t with events := t.events.tail }
  | begins {t : ServeThread J} (code : String) : t.host = none → Moves i (.begin i code) t (t.begin code)
  | clears {t : ServeThread J} : t.Clears → Moves i (.clear i) t { t with decisions := [], cleared := true }
  | serves {t : ServeThread J} (h : Host J) (r : Reading J) : t.host = some h → h.control ≠ .returned →
      (∀ a, h.control = .admitted a → t.cleared = true ∨ t.confirm = false) →
      Moves i (.serve i r) t (t.serve env r)

variable {s}

theorem threads_onThread (i j : Nat) (f : ServeThread J → ServeThread J) :
    (s.onThread i f).threads[j]? = s.threads[j]?.map fun t => if i = j then f t else t := by
  exact List.getElem?_modify ..

theorem threads_onHandle {i : Nat} {t : ServeThread J} (f : ServeThread J → ServeThread J)
    (known : s.threads[i]? = some t) :
    (s.onHandle f).threads[i]? = some (if s.handle = some i then f t else t) := by
  unfold HostMode.onHandle
  cases s.handle with
  | none => simp [known]
  | some j =>
    rw [threads_onThread, known]
    by_cases same : j = i <;> simp [same]

theorem handle_onHandle (f : ServeThread J → ServeThread J) : (s.onHandle f).handle = s.handle := by
  unfold HostMode.onHandle
  split <;> rfl

theorem threads_deliver {i j : Nat} {t : ServeThread J} (known : s.threads[i]? = some t) :
    (s.deliver j).threads[i]? = some (if j = i then { t with events := t.events.tail } else t) := by
  unfold HostMode.deliver
  cases found : s.nextEvent j with
  | none =>
    dsimp only
    rw [known]
    split
    · rename_i same
      subst same
      rw [HostMode.nextEvent, known] at found
      have empty : t.events = [] := List.head?_eq_none_iff.1 found
      rw [show t.events.tail = t.events by rw [empty]; rfl]
    · rfl
  | some e =>
    have threads : (s.onThread j fun t => { t with events := t.events.tail }).threads[i]? =
        some (if j = i then { t with events := t.events.tail } else t) := by
      rw [threads_onThread, known]
      by_cases same : j = i <;> simp [same]
    cases e <;> exact threads

theorem thread_step {e : HostModeEvent J} (now : s.enabled e) {i : Nat} {t : ServeThread J}
    (known : s.threads[i]? = some t) : ∃ t', (s.step env e).threads[i]? = some t' ∧ Moves env s i e t t' := by
  have own (f : ServeThread J → ServeThread J) (j : Nat) :
      (s.onThread j f).threads[i]? = some (if j = i then f t else t) := by
    rw [threads_onThread, known]
    by_cases same : j = i <;> simp [same]
  cases e with
  | startHost permanent confirm lock =>
    refine ⟨t, ?_, .same nofun nofun nofun⟩
    unfold HostMode.step
    dsimp only
    split
    · exact known
    · rw [← known]
      exact List.getElem?_append_left (List.getElem?_eq_some_iff.1 known).1
  | stopHost =>
    refine ⟨_, threads_onHandle _ known, ?_⟩
    split
    · exact .stops ‹_›
    · exact .same (fun _ => ‹_›) nofun nofun
  | setLockOnEnd enabled =>
    refine ⟨_, threads_onHandle _ known, ?_⟩
    split
    · exact .locks enabled ‹_›
    · exact .same nofun nofun nofun
  | setConfirmIncoming enabled =>
    refine ⟨_, threads_onHandle _ known, ?_⟩
    split
    · exact .confirms enabled ‹_›
    · exact .same nofun nofun nofun
  | refreshOneTime =>
    refine ⟨_, threads_onHandle _ known, ?_⟩
    split
    · exact .refreshes ‹_›
    · exact .same nofun nofun nofun
  | decideIncoming =>
    unfold HostMode.step
    cases waiting : s.clicked with
    | nil => exact ⟨t, known, .same nofun nofun nofun⟩
    | cons c rest =>
      refine ⟨_, threads_onHandle _ known, ?_⟩
      split
      · exact .decided c.1 c.2 rest ‹_› waiting
      · exact .same nofun nofun nofun
  | click allow =>
    refine ⟨t, ?_, .same nofun nofun nofun⟩
    unfold HostMode.step
    cases s.dialog <;> exact known
  | hostStatus | answer | expire | forget => exact ⟨t, known, .same nofun nofun nofun⟩
  | deliver j =>
    refine ⟨_, threads_deliver known, ?_⟩
    split
    · rename_i same
      exact same ▸ .delivered
    · exact .same nofun nofun fun own => ‹¬ j = i› (HostModeEvent.deliver.inj own)
  | begin j code =>
    refine ⟨_, own _ j, ?_⟩
    split
    · rename_i same
      subst same
      obtain ⟨t', found, fresh⟩ := now
      obtain rfl : t = t' := Option.some.inj (known.symm.trans found)
      exact .begins code fresh
    · exact .same nofun (fun own => ‹¬ j = i› (Option.some.inj own)) nofun
  | clear j =>
    refine ⟨_, own _ j, ?_⟩
    split
    · rename_i same
      subst same
      obtain ⟨t', found, clears⟩ := now
      obtain rfl : t = t' := Option.some.inj (known.symm.trans found)
      exact .clears clears
    · exact .same nofun (fun own => ‹¬ j = i› (Option.some.inj own)) nofun
  | serve j r =>
    refine ⟨_, own _ j, ?_⟩
    split
    · rename_i same
      subst same
      obtain ⟨t', found, h, begun, alive, ready⟩ := now
      obtain rfl : t = t' := Option.some.inj (known.symm.trans found)
      exact .serves h r begun alive ready
    · exact .same nofun (fun own => ‹¬ j = i› (Option.some.inj own)) nofun

theorem length_onThread (i : Nat) (f : ServeThread J → ServeThread J) :
    (s.onThread i f).threads.length = s.threads.length := List.length_modify ..

theorem length_onHandle (f : ServeThread J → ServeThread J) : (s.onHandle f).threads.length = s.threads.length := by
  unfold HostMode.onHandle
  cases s.handle with
  | none => rfl
  | some i => exact length_onThread i f

theorem length_deliver (i : Nat) : (s.deliver i).threads.length = s.threads.length := by
  unfold HostMode.deliver
  split
  · rfl
  · rename_i e _
    cases e <;> exact length_onThread i _

/-- Only `start_host` adds a thread. -/
theorem length_step (e : HostModeEvent J) :
    (s.step env e).threads.length = s.threads.length ∨
      s.handle = none ∧ ∃ permanent confirm lock, e = .startHost permanent confirm lock := by
  cases e with
  | startHost permanent confirm lock =>
    cases idle : s.handle with
    | none => exact .inr ⟨rfl, permanent, confirm, lock, rfl⟩
    | some i =>
      left
      simp only [HostMode.step, idle]
  | decideIncoming =>
    left
    unfold HostMode.step
    cases s.clicked with
    | nil => rfl
    | cons c rest => exact length_onHandle _
  | click allow =>
    left
    unfold HostMode.step
    cases s.dialog <;> rfl
  | deliver i => exact .inl (length_deliver i)
  | begin | clear | serve => exact .inl (length_onThread ..)
  | stopHost | setLockOnEnd | setConfirmIncoming | refreshOneTime => exact .inl (length_onHandle _)
  | hostStatus | answer | expire | forget => exact .inl rfl

/-- A thread that `start_host` has just started. -/
structure ServeThread.Fresh (t : ServeThread J) : Prop where
  stop : t.stop = false
  host : t.host = none
  oneTime : t.oneTime = none
  events : t.events = []
  decisions : t.decisions = []
  cleared : t.cleared = false

/-- A thread was there before, or `start_host` has just started it. -/
theorem thread_before {e : HostModeEvent J} (now : s.enabled e) {i : Nat} {t' : ServeThread J}
    (after : (s.step env e).threads[i]? = some t') :
    (∃ t, s.threads[i]? = some t ∧ Moves env s i e t t') ∨
      (s.handle = none ∧ i = s.threads.length ∧ t'.Fresh ∧
        ∃ permanent confirm lock, e = .startHost permanent confirm lock) := by
  cases known : s.threads[i]? with
  | some t =>
    obtain ⟨t'', found, moves⟩ := thread_step env now known
    obtain rfl : t' = t'' := Option.some.inj (after.symm.trans found)
    exact .inl ⟨t, rfl, moves⟩
  | none =>
    right
    have outside : s.threads.length ≤ i := List.getElem?_eq_none_iff.1 known
    rcases length_step env (s := s) e with kept | ⟨idle, permanent, confirm, lock, rfl⟩
    · have none_ : (s.step env e).threads[i]? = none := List.getElem?_eq_none_iff.2 (by omega)
      rw [none_] at after
      cases after
    · have threads : (s.step env (.startHost permanent confirm lock)).threads =
          s.threads ++ [ServeThread.start permanent confirm lock] := by
        simp only [HostMode.step, idle]
      rw [threads, List.getElem?_append_right outside, List.getElem?_singleton] at after
      obtain ⟨last, same⟩ := Option.ite_none_right_eq_some.1 after
      cases same
      exact ⟨idle, by omega, ⟨rfl, rfl, rfl, rfl, rfl, rfl⟩, permanent, confirm, lock, rfl⟩

theorem handle_step (e : HostModeEvent J) :
    (s.step env e).handle = match e with
      | .startHost _ _ _ => some (s.handle.getD s.threads.length)
      | .stopHost => none
      | _ => s.handle := by
  cases e with
  | startHost permanent confirm lock =>
    unfold HostMode.step
    cases idle : s.handle with
    | none => rfl
    | some i => exact idle
  | decideIncoming =>
    unfold HostMode.step
    cases s.clicked with
    | nil => rfl
    | cons c rest => exact handle_onHandle _
  | click allow =>
    unfold HostMode.step
    cases s.dialog <;> rfl
  | deliver i =>
    show (s.deliver i).handle = s.handle
    unfold HostMode.deliver
    split
    · rfl
    · rename_i e _
      cases e <;> rfl
  | setLockOnEnd | setConfirmIncoming | refreshOneTime => exact handle_onHandle _
  | _ => rfl

/-- A thread that was there before and is the handle's was the handle's. -/
theorem handle_before {e : HostModeEvent J} {i : Nat} {t : ServeThread J} (known : s.threads[i]? = some t)
    (handle : (s.step env e).handle = some i) : s.handle = some i := by
  rw [handle_step] at handle
  cases e with
  | startHost permanent confirm lock =>
    obtain ⟨inside, -⟩ := List.getElem?_eq_some_iff.1 known
    cases before : s.handle with
    | none =>
      rw [before] at handle
      have last : s.threads.length = i := Option.some.inj handle
      omega
    | some j => rwa [before] at handle
  | stopHost => cases handle
  | _ => exact handle

end Moves

/-! ## One host at a time -/

section OneHost

variable {J : Type} (env : HostEnv J) {s : HostMode J}

theorem ServeThread.taken_stop (t : ServeThread J) (h : Host J) (late : Bool) : (t.taken h late).stop = t.stop := by
  unfold ServeThread.taken
  split
  · split <;> rfl
  · rfl
  · split <;> rfl
  · rfl

variable {env} in
theorem Moves.stop_kept {i : Nat} {e : HostModeEvent J} {t t' : ServeThread J} (moves : Moves env s i e t t') :
    t'.stop = t.stop ∧ (e = .stopHost → s.handle ≠ some i) ∨ e = .stopHost ∧ s.handle = some i ∧ t'.stop = true := by
  cases moves with
  | same other _ _ => exact .inl ⟨rfl, other⟩
  | stops current => exact .inr ⟨rfl, current, rfl⟩
  | serves h r begun alive ready =>
    left
    rw [ServeThread.serve_eq env begun]
    exact ⟨t.taken_stop h r.late, nofun⟩
  | _ => exact .inl ⟨rfl, nofun⟩

/-- The code the panel asks for is the one the thread takes for the next one-time request. -/
def ServeThread.Shows (t : ServeThread J) : Prop := t.oneTime = t.host.map (·.oneTime)

variable {env} in
theorem Moves.shows {i : Nat} {e : HostModeEvent J} {t t' : ServeThread J} (moves : Moves env s i e t t')
    (shows : t.Shows) : t'.Shows := by
  cases moves with
  | serves h r begun alive ready =>
    rw [ServeThread.serve_eq env begun]
    show (if h.generates (t.reads r) then some r.code else t.oneTime) =
      some (h.serve (t.options env) (t.reads r)).1.oneTime
    rw [oneTime_serve, shows, begun]
    split <;> rfl
  | begins code fresh => rfl
  | _ => exact shows

/-- The handle is the one of the only thread that is not stopped. -/
structure HostMode.OneHost (s : HostMode J) : Prop where
  current : ∀ (i : Nat) (t : ServeThread J), s.threads[i]? = some t → (t.stop = false ↔ s.handle = some i)
  known : ∀ i, s.handle = some i → i < s.threads.length
  shows : ∀ (i : Nat) (t : ServeThread J), s.threads[i]? = some t → t.Shows

theorem HostMode.OneHost.step (one : s.OneHost) {e : HostModeEvent J} (now : s.enabled e) :
    (s.step env e).OneHost := by
  constructor
  case current =>
    intro i t' after
    rw [handle_step]
    rcases thread_before env now after with ⟨t, known, moves⟩ | ⟨idle, last, fresh, permanent, confirm, lock, rfl⟩
    · have before := one.current i t known
      rcases moves.stop_kept with ⟨kept, other⟩ | ⟨rfl, -, stopped⟩
      · rw [kept, before]
        cases e with
        | startHost permanent confirm lock =>
          obtain ⟨inside, -⟩ := List.getElem?_eq_some_iff.1 known
          cases handle : s.handle with
          | none =>
            simp only [reduceCtorEq, Option.getD_none, Option.some.injEq, false_iff]
            omega
          | some j => rfl
        | stopHost => exact iff_of_false (other rfl) nofun
        | _ => rfl
      · rw [stopped]
        exact iff_of_false nofun nofun
    · rw [idle, last]
      exact iff_of_true fresh.stop rfl
  case known =>
    intro i handle
    rw [handle_step] at handle
    have grows := length_step env (s := s) e
    cases e with
    | startHost permanent confirm lock =>
      cases before : s.handle with
      | none =>
        rw [before] at handle
        cases handle
        simp only [HostMode.step, before, List.length_append, List.length_singleton, Option.getD_none]
        omega
      | some j =>
        rw [before] at handle
        cases handle
        simpa only [HostMode.step, before, Option.getD_some] using one.known j before
    | stopHost => cases handle
    | _ =>
      have inside := one.known i handle
      rcases grows with kept | ⟨-, _, _, _, start⟩
      · omega
      · cases start
  case shows =>
    intro i t' after
    rcases thread_before env now after with ⟨t, known, moves⟩ | ⟨-, -, fresh, -⟩
    · exact moves.shows (one.shows i t known)
    · rw [ServeThread.Shows, fresh.oneTime, fresh.host]
      rfl

theorem oneHost_reachable (hr : (hostMode env).Reachable s) : s.OneHost := by
  refine hr.invariant (fun s start => ?_) fun s e _ one now => one.step env now
  have empty (i : Nat) (t : ServeThread J) : s.threads[i]? ≠ some t := by
    rw [show s = {} from start]
    exact nofun
  refine ⟨fun i t known => absurd known (empty i t), fun i handle => ?_, fun i t known => absurd known (empty i t)⟩
  rw [show s = {} from start] at handle
  cases handle

/-- Whatever is started and stopped, at most one thread accepts requests: the one the
commands reach. `host_status` reports it, and the code it takes for the next one-time
request. -/
theorem one_host_at_a_time (hr : (hostMode env).Reachable s) :
    (∀ i t, s.threads[i]? = some t → (t.stop = false ↔ s.handle = some i)) ∧
      (s.hostStatus.active = true ↔ ∃ t ∈ s.threads, t.stop = false) ∧
      ∀ (i : Nat) (t : ServeThread J), s.threads[i]? = some t → t.stop = false →
        s.hostStatus = ⟨true, t.host.map (·.oneTime)⟩ := by
  have one := oneHost_reachable env hr
  refine ⟨one.current, ⟨fun active => ?_, ?_⟩, fun i t known running => ?_⟩
  · obtain ⟨i, handle⟩ := Option.isSome_iff_exists.1 active
    have inside := one.known i handle
    exact ⟨s.threads[i], List.getElem_mem inside, (one.current i _ (List.getElem?_eq_getElem inside)).2 handle⟩
  · rintro ⟨t, mem, running⟩
    obtain ⟨i, known⟩ := List.mem_iff_getElem?.1 mem
    exact Option.isSome_iff_exists.2 ⟨i, (one.current i t known).1 running⟩
  · have handle := (one.current i t known).1 running
    have code := one.shows i t known
    simp only [HostMode.hostStatus, handle, Option.isSome_some, Option.bind_some, known, HostStatus.mk.injEq, true_and]
    exact code

/-- A host is stopped while it polls, and another one is started. -/
def restarted : List (HostModeEvent String) :=
  [.startHost none false false, .begin 0 "AAAAAAAA", .serve 0 {}, .serve 0 {}, .stopHost, .startHost none true false,
    .begin 1 "BBBBBBBB"]

theorem restarted_valid : (hostMode sampleHostEnv).Valid {} restarted :=
  ⟨trivial, ⟨_, rfl, rfl⟩, ⟨_, rfl, _, rfl, nofun, nofun⟩, ⟨_, rfl, _, rfl, nofun, nofun⟩, trivial, trivial,
    ⟨_, rfl, rfl⟩, trivial⟩

theorem restarted_reachable :
    (hostMode sampleHostEnv).Reachable ((hostMode sampleHostEnv).after {} restarted) :=
  (System.Reachable.init rfl).after restarted_valid

theorem one_host_at_a_time_restarted :
    let s := (hostMode sampleHostEnv).after {} restarted
    s.hostStatus = ⟨true, some "BBBBBBBB"⟩ ∧ ∀ t, s.threads[0]? = some t → t.stop = true := by
  intro s
  obtain ⟨current, -, status⟩ := one_host_at_a_time sampleHostEnv restarted_reachable
  refine ⟨status 1 _ rfl rfl, fun t first => ?_⟩
  cases stop : t.stop with
  | true => rfl
  | false => cases (current 0 t first).1 stop

end OneHost

/-! ## A stopped host winds down -/

section Stopped

variable {J : Type} (env : HostEnv J)

/-- Where the thread is; before its first code it has not connected. -/
def ServeThread.control (t : ServeThread J) : Control J := (t.host.map (·.control)).getD .connecting

/-- Where thread `i` is, once it is stopped. -/
def HostMode.stoppedAt (s : HostMode J) (i : Nat) : Option (Control J) :=
  (s.threads[i]?.filter (·.stop)).map ServeThread.control

/-- Whether a step is one of thread `i`, stopped, that meets `q`. -/
def stoppedStep (i : Nat) (q : Control J → Reading J → Bool) (s : HostMode J) : HostModeEvent J → Bool
  | .serve j r => j == i && (s.stoppedAt i).any (q · r)
  | _ => false

/-- A step towards the end: any but a turn of the wait for an answer before its deadline. -/
def towardsEnd : Control J → Reading J → Bool
  | .awaitingAnswer _ _, r => r.late
  | _, _ => true

/-- A step that sends a `connect_accept`. -/
def accepts : Control J → Reading J → Bool
  | .accepting _, _ => true
  | _, _ => false

/-- A step that begins a session. -/
def begins : Control J → Reading J → Bool
  | .spawning _, r => r.ok
  | _, _ => false

variable {env} {i : Nat}

theorem ServeThread.control_of_host {t : ServeThread J} {h : Host J} (begun : t.host = some h) :
    t.control = h.control := by
  rw [ServeThread.control, begun]
  rfl

/-- What a thread that is stopped, and not the handle's, may do. -/
theorem Moves.stopped {s : HostMode J} {e : HostModeEvent J} {t t' : ServeThread J} (move : Moves env s i e t t')
    (stop : t.stop = true) (past : s.handle ≠ some i) :
    (t'.control = t.control ∧ ∀ r, e ≠ .serve i r) ∨
      ∃ r, e = .serve i r ∧ Winds t.control t'.control ∧
        (r.late = true → ∀ a n, t.control = .awaitingAnswer a n → t'.control = .top none) := by
  cases move with
  | same _ other _ => exact .inl ⟨rfl, fun r own => other (own ▸ rfl)⟩
  | stops current => exact absurd current past
  | locks _ current => exact absurd current past
  | confirms _ current => exact absurd current past
  | refreshes current => exact absurd current past
  | decided _ _ _ current => exact absurd current past
  | delivered =>
    refine .inl ⟨rfl, fun r own => ?_⟩
    cases own
  | begins code fresh =>
    refine .inl ⟨?_, fun r own => ?_⟩
    · rw [ServeThread.control, ServeThread.control, fresh]
      rfl
    · cases own
  | clears =>
    refine .inl ⟨rfl, fun r own => ?_⟩
    cases own
  | serves h r begun alive ready =>
    rw [ServeThread.control_of_host begun, ServeThread.control_of_host (ServeThread.host_serve env begun r)]
    have winds : Winds h.control (h.serve (t.options env) (t.reads r)).1.control := winds_of_stop _ h stop alive
    exact .inr ⟨r, rfl, winds, fun late a n at_ => late_awaitAnswer _ at_ late⟩

/-- The position of a stopped thread behind an event. -/
theorem stoppedAt_step {s : HostMode J} (hr : (hostMode env).Reachable s) {c : Control J} (at_ : s.stoppedAt i = some c)
    {e : HostModeEvent J} (now : s.enabled e) :
    ∃ c', (s.step env e).stoppedAt i = some c' ∧ (c' = c ∧ (∀ r, e ≠ .serve i r) ∨
      ∃ r, e = .serve i r ∧ Winds c c' ∧ (r.late = true → ∀ a n, c = .awaitingAnswer a n → c' = .top none)) := by
  obtain ⟨t, known, rfl⟩ := Option.map_eq_some_iff.1 at_
  obtain ⟨found, stop⟩ := Option.filter_eq_some_iff.1 known
  have past : s.handle ≠ some i := by
    rw [Ne, ← (oneHost_reachable env hr).current i t found, stop]
    exact Bool.noConfusion
  obtain ⟨t', after, move⟩ := thread_step env now found
  have still : t'.stop = true := by
    rcases move.stop_kept with ⟨kept, -⟩ | ⟨-, -, stops⟩
    · exact kept.trans stop
    · exact stops
  refine ⟨t'.control, ?_, move.stopped stop past⟩
  rw [HostMode.stoppedAt, after, Option.filter_some, if_pos still]
  rfl

/-- What the moves of a stopped host do to a rank, a run does: before the stop the rank is `top`. -/
theorem stopped_ranked (env : HostEnv J) (i : Nat) {top : Nat} {f : Control J → Nat} {q : Control J → Reading J → Bool}
    (below : ∀ c, f c ≤ top)
    (moves : ∀ c c' r, Winds c c' → (r.late = true → ∀ a n, c = .awaitingAnswer a n → c' = .top none) →
      (q c r = true → f c' < f c) ∧ f c' ≤ f c) :
    (hostMode env).Ranked (stoppedStep i q) (fun s => ((s.stoppedAt i).map f).getD top) 0 := by
  constructor
  case lowers =>
    intro s e hr now own
    cases e with
    | serve j r =>
      obtain ⟨here, meets⟩ : (j == i) = true ∧ (s.stoppedAt i).any (q · r) = true := by
        simpa only [stoppedStep, Bool.and_eq_true] using own
      obtain rfl : j = i := eq_of_beq here
      obtain ⟨c, at_, meets⟩ := (Option.any_eq_true ..).1 meets
      have serves : s.enabled (.serve j r) := now
      obtain ⟨c', next, ⟨-, other⟩ | ⟨r', same, winds, late⟩⟩ := stoppedAt_step hr at_ serves
      · exact absurd rfl (other r)
      · cases same
        show (((s.step env (.serve j r)).stoppedAt j).map f).getD top < ((s.stoppedAt j).map f).getD top
        rw [at_, next]
        exact (moves c c' r winds late).1 meets
    | _ => cases own
  case raises =>
    intro s e hr now _
    show (((s.step env e).stoppedAt i).map f).getD top ≤ ((s.stoppedAt i).map f).getD top
    cases at_ : s.stoppedAt i with
    | none =>
      cases (s.step env e).stoppedAt i with
      | none => exact Nat.le_refl top
      | some c' => exact below c'
    | some c =>
      obtain ⟨c', next, ⟨rfl, -⟩ | ⟨r, -, winds, late⟩⟩ := stoppedAt_step hr at_ now
      · rw [next]
      · rw [next]
        exact (moves c c' r winds late).2

theorem windingRank_le (c : Control J) : c.windingRank ≤ 7 := by
  cases c <;> exact Nat.le_of_sub_eq_zero rfl

theorem winds_towardsEnd {c c' : Control J} {r : Reading J} (winds : Winds c c')
    (late : r.late = true → ∀ a n, c = .awaitingAnswer a n → c' = .top none) (own : towardsEnd c r = true) :
    c'.windingRank < c.windingRank := by
  refine winds.rank_lt fun a n a' n' at_ next => ?_
  subst at_
  rw [late own a n rfl] at next
  cases next

/-- What a stopped host may do once, and never gets back, it does once at most. -/
theorem stopped_once (i : Nat) {may : Control J → Bool} {q : Control J → Reading J → Bool}
    (spends : ∀ c c', Winds c c' → may c' = true → may c = true ∧ ∀ r, q c r = false)
    (has : ∀ c r, q c r = true → may c = true) {s : HostMode J} (hr : (hostMode env).Reachable s)
    {es : List (HostModeEvent J)} (hv : (hostMode env).Valid s es) :
    (hostMode env).stepCount (stoppedStep i q) s es ≤ ((s.stoppedAt i).all may).toNat := by
  have ranked : (hostMode env).Ranked (stoppedStep i q)
      (fun s => ((s.stoppedAt i).map fun c => (may c).toNat).getD 1) 0 := by
    refine stopped_ranked env i (fun c => Bool.toNat_le _) fun c c' r winds _ => ?_
    cases later : may c' with
    | true =>
      obtain ⟨before, unspent⟩ := spends c c' winds later
      rw [before, unspent r]
      exact ⟨Bool.noConfusion, Nat.le_refl _⟩
    | false =>
      refine ⟨fun own => ?_, Nat.zero_le _⟩
      rw [has c r own]
      exact Nat.zero_lt_one
  have bound := ranked.own_le_rank hr hv
  have start : ((s.stoppedAt i).map fun c => (may c).toNat).getD 1 = ((s.stoppedAt i).all may).toNat := by
    cases s.stoppedAt i <;> rfl
  omega

theorem accepts_spends {c c' : Control J} (winds : Winds c c') (later : c'.mayAccept = true) :
    c.mayAccept = true ∧ ∀ r, accepts c r = false := by
  obtain ⟨before, other⟩ := winds.mayAccept later
  refine ⟨before, fun r => ?_⟩
  cases c with
  | accepting a => exact absurd rfl (other a)
  | _ => rfl

theorem begins_spends {c c' : Control J} (winds : Winds c c') (later : c'.mayBegin = true) :
    c.mayBegin = true ∧ ∀ r, begins c r = false := by
  obtain ⟨before, other⟩ := winds.mayBegin later
  refine ⟨before, fun r => ?_⟩
  cases c with
  | spawning a => exact absurd rfl (other a)
  | _ => rfl

/-- A stopped thread is never stuck before it returns. -/
theorem stopped_goes {s : HostMode J} {c : Control J} (at_ : s.stoppedAt i = some c) (going : c ≠ .returned) :
    ∃ e, e.thread? = some i ∧ s.enabled e := by
  obtain ⟨t, known, rfl⟩ := Option.map_eq_some_iff.1 at_
  obtain ⟨found, -⟩ := Option.filter_eq_some_iff.1 known
  cases begun : t.host with
  | none => exact ⟨.begin i "", rfl, t, found, begun⟩
  | some h =>
    rw [ServeThread.control_of_host begun] at going
    by_cases asks : t.confirm = true ∧ t.cleared = false ∧ ∃ a, h.control = .admitted a
    · obtain ⟨confirm, cleared, a, hc⟩ := asks
      exact ⟨.clear i, rfl, t, found, confirm, cleared, h, a, begun, hc⟩
    · refine ⟨.serve i {}, rfl, t, found, h, begun, going, fun a hc => ?_⟩
      cases confirm : t.confirm with
      | false => exact .inr rfl
      | true =>
        cases cleared : t.cleared with
        | true => exact .inl rfl
        | false => exact absurd ⟨confirm, cleared, a, hc⟩ asks

/-- In any run a thread takes at most seven steps towards its end behind its stop, and
until it has returned one is possible. On the way it sends at most one `connect_accept`,
which it gives up, and begins at most one session, whose `connect_ready` had come. -/
theorem stopped_host_winds_down {s : HostMode J} (hr : (hostMode env).Reachable s) {es : List (HostModeEvent J)}
    (hv : (hostMode env).Valid s es) (i : Nat) :
    (hostMode env).stepCount (stoppedStep i towardsEnd) s es ≤ 7 ∧
      (hostMode env).stepCount (stoppedStep i accepts) s es ≤ ((s.stoppedAt i).all Control.mayAccept).toNat ∧
      (hostMode env).stepCount (stoppedStep i begins) s es ≤ ((s.stoppedAt i).all Control.mayBegin).toNat ∧
      ∀ c, s.stoppedAt i = some c → c ≠ .returned → ∃ e, e.thread? = some i ∧ s.enabled e := by
  refine ⟨?_, ?_, ?_, fun c at_ going => stopped_goes at_ going⟩
  · have ranked : (hostMode env).Ranked (stoppedStep i towardsEnd)
        (fun s => ((s.stoppedAt i).map Control.windingRank).getD 7) 0 :=
      stopped_ranked env i windingRank_le fun c c' r winds late => ⟨winds_towardsEnd winds late, winds.rank_le⟩
    have bound := ranked.own_le_rank hr hv
    have seven : ((s.stoppedAt i).map Control.windingRank).getD 7 ≤ 7 := by
      cases s.stoppedAt i with
      | none => exact Nat.le_refl 7
      | some c => exact windingRank_le c
    omega
  · refine stopped_once i (fun c c' => accepts_spends) (fun c r own => ?_) hr hv
    cases c <;> first | rfl | cases own
  · refine stopped_once i (fun c c' => begins_spends) (fun c r own => ?_) hr hv
    cases c <;> first | rfl | cases own

/-- The first host still accepts a request, and gives it up. -/
theorem stopped_host_winds_down_restarted :
    let s := (hostMode sampleHostEnv).after {} restarted
    let es : List (HostModeEvent String) :=
      [.serve 0 { recv := .ok (some (.incomingRequest "s" (some "one_time"))) }, .serve 0 {}, .serve 0 {}, .serve 0 {},
        .serve 0 {}]
    (hostMode sampleHostEnv).stepCount (stoppedStep 0 towardsEnd) s es ≤ 7 ∧
      (hostMode sampleHostEnv).stepCount (stoppedStep 0 accepts) s es = 1 ∧
      (hostMode sampleHostEnv).stepCount (stoppedStep 0 begins) s es = 0 ∧
      ((hostMode sampleHostEnv).after s es).stoppedAt 0 = some .returned := by
  intro s es
  have valid : (hostMode sampleHostEnv).Valid s es :=
    ⟨⟨_, rfl, _, rfl, nofun, nofun⟩, ⟨_, rfl, _, rfl, nofun, fun _ _ => .inr rfl⟩, ⟨_, rfl, _, rfl, nofun, nofun⟩,
      ⟨_, rfl, _, rfl, nofun, nofun⟩, ⟨_, rfl, _, rfl, nofun, nofun⟩, trivial⟩
  obtain ⟨ends, -, sessions, -⟩ := stopped_host_winds_down restarted_reachable valid 0
  exact ⟨ends, rfl, Nat.le_zero.1 sessions, rfl⟩

end Stopped

end ZortilWatch.Desktop
