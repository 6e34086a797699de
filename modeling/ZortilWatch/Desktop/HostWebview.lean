import ZortilWatch.Core.OneTime
import ZortilWatch.Desktop.HostMode

/-!
# What the webview shows of host mode

The code panel and the confirmation dialog hear of every thread of `serve` through one
callback, also of the ones that are stopped, and the panel takes the answers of
`hostStatus` besides, whenever they come. While what they hear of is the handle's thread,
and no answer is older than the code, the panel shows the code in force, and a request is
let through by the one click that its own dialog got.
-/

namespace ZortilWatch.Desktop

open ZortilWatch.Core

variable {J : Type} {env : HostEnv J} {s : HostMode J}

/-! ## The code panel -/

def code? : HostEvent → Option String
  | .oneTime code => some code
  | .confirm _ _ => none

def dialog? (i : Nat) : HostEvent → Option Dialog
  | .oneTime _ => none
  | .confirm requestId _ => some ⟨i, requestId⟩

/-- The codes on their way to the webview. -/
def codes (events : List HostEvent) : List String := events.filterMap code?

theorem codes_append (events more : List HostEvent) : codes (events ++ more) = codes events ++ codes more :=
  List.filterMap_append

theorem codes_serve (h : Host J) (r : Reading J) :
    codes (hostEvents (h.serve env r).2) = if h.generates r then [r.code] else [] := by
  rw [hostEvents_serve]
  split
  · rfl
  · unfold asks
    split
    · split <;> rfl
    · rfl

/-- A code that the webview receives is one of the handle's thread, and one in an answer is
what `hostStatus` still answers. -/
def PanelHearsCurrent (s : HostMode J) : HostModeEvent J → Prop
  | .deliver i => ((s.nextEvent i).bind code?).isSome → s.handle = some i
  | .answer n => ∀ code, s.answered n = some code → s.hostStatus.oneTime = some code
  | _ => True

/-- The last code sent, or the one on the panel with none on its way, is the code in force. -/
def PanelFollows (s : HostMode J) : Prop :=
  ∀ i t h, s.handle = some i → s.threads[i]? = some t → t.host = some h →
    (codes t.events).getLast?.or s.panel = some h.oneTime

/-- What a step changes of what the person sees and has clicked. -/
theorem view_step (e : HostModeEvent J) :
    ((s.step env e).panel, (s.step env e).dialog, (s.step env e).clicked) = match e with
      | .deliver i =>
        (((s.nextEvent i).bind code?).or s.panel, ((s.nextEvent i).bind (dialog? i)).or s.dialog, s.clicked)
      | .click allow => (s.panel, none, s.clicked ++ (s.dialog.map (·, allow)).toList)
      | .decideIncoming => (s.panel, s.dialog, s.clicked.tail)
      | .answer n => ((s.answered n).or s.panel, s.dialog, s.clicked)
      | .expire => (s.panel, none, s.clicked)
      | .forget => (none, s.dialog, s.clicked)
      | _ => (s.panel, s.dialog, s.clicked) := by
  have onHandle (f : ServeThread J → ServeThread J) :
      ((s.onHandle f).panel, (s.onHandle f).dialog, (s.onHandle f).clicked) = (s.panel, s.dialog, s.clicked) := by
    unfold HostMode.onHandle
    split <;> rfl
  cases e with
  | startHost permanent confirm lock =>
    unfold HostMode.step
    cases s.handle <;> rfl
  | decideIncoming =>
    unfold HostMode.step
    cases waiting : s.clicked with
    | nil => exact congrArg (s.panel, s.dialog, ·) waiting
    | cons c rest => exact congrArg (fun view => (view.1, view.2.1, rest)) (onHandle _)
  | click allow =>
    unfold HostMode.step
    cases shown : s.dialog with
    | none => exact congrArg₂ (s.panel, ·, ·) shown (List.append_nil _).symm
    | some d => rfl
  | deliver i =>
    show ((s.deliver i).panel, (s.deliver i).dialog, (s.deliver i).clicked) =
      (((s.nextEvent i).bind code?).or s.panel, ((s.nextEvent i).bind (dialog? i)).or s.dialog, s.clicked)
    unfold HostMode.deliver
    cases s.nextEvent i with
    | none => rfl
    | some e => cases e <;> rfl
  | stopHost | setLockOnEnd | setConfirmIncoming | refreshOneTime => exact onHandle _
  | _ => rfl

theorem panel_step (e : HostModeEvent J) :
    (s.step env e).panel = match e with
      | .deliver i => ((s.nextEvent i).bind code?).or s.panel
      | .answer n => (s.answered n).or s.panel
      | .forget => none
      | _ => s.panel := by
  refine (congrArg (·.1) (view_step e)).trans ?_
  cases e <;> rfl

/-- What `hostStatus` answers of the handle's thread. -/
theorem oneTime_hostStatus (reached : (hostMode env).Reachable s) {i : Nat} {t : ServeThread J} {h : Host J}
    (handle : s.handle = some i) (known : s.threads[i]? = some t) (begun : t.host = some h) :
    s.hostStatus.oneTime = some h.oneTime := by
  have shows := (oneHost_reachable env reached).shows i t known
  simp only [HostMode.hostStatus, handle, Option.bind_some, known]
  rw [shows, begun]
  rfl

/-- The panel where the handle's thread is left alone: as it was, or with the code in force
from an answer. -/
theorem panel_same (reached : (hostMode env).Reachable s) {e : HostModeEvent J} (now : s.enabled e)
    (current : PanelHearsCurrent s e) {i : Nat} {t : ServeThread J} {h : Host J} (handle : s.handle = some i)
    (known : s.threads[i]? = some t) (begun : t.host = some h) (other : e ≠ .deliver i) :
    (s.step env e).panel = s.panel ∨ (s.step env e).panel = some h.oneTime := by
  rw [panel_step]
  cases e with
  | deliver j =>
    left
    cases code : (s.nextEvent j).bind code? with
    | none => simp only [code, Option.none_or]
    | some c =>
      have own : s.handle = some j := current (by rw [code]; rfl)
      rw [handle] at own
      exact absurd (congrArg HostModeEvent.deliver (Option.some.inj own).symm) other
  | answer n =>
    cases code : s.answered n with
    | none => exact .inl (by simp only [code, Option.none_or])
    | some c =>
      -- the answer holds what `hostStatus` still answers, the code in force
      right
      have still := (current c code).symm.trans (oneTime_hostStatus reached handle known begun)
      simp only [code, Option.some_or]
      exact still
  | forget => cases handle.symm.trans now
  | _ => exact .inl rfl

/-- The next event goes to the panel. -/
theorem codes_tail (events : List HostEvent) (panel : Option String) :
    (codes events.tail).getLast?.or ((events.head?.bind code?).or panel) = (codes events).getLast?.or panel := by
  cases events with
  | nil => rfl
  | cons e rest =>
    cases e with
    | confirm id kind => rfl
    | oneTime c =>
      show (codes rest).getLast?.or (some c) = (c :: codes rest).getLast?.or panel
      rw [List.getLast?_cons]
      cases (codes rest).getLast? <;> rfl

theorem PanelFollows.step (follows : PanelFollows s) (reached : (hostMode env).Reachable s) {e : HostModeEvent J}
    (now : s.enabled e) (current : PanelHearsCurrent s e) : PanelFollows (s.step env e) := by
  intro i t' h' handle after begun
  rcases thread_before env now after with ⟨t, known, move⟩ | ⟨-, -, fresh, -⟩
  · have here : s.handle = some i := handle_before env known handle
    have before := follows i t
    cases move with
    | same _ _ other =>
      have news := before h' here known begun
      rcases panel_same reached now current here known begun other with same | shown
      · rw [same]
        exact news
      · rw [shown]
        cases last : (codes t'.events).getLast? with
        | none => rfl
        | some c =>
          rw [last] at news
          exact news
    | stops _ =>
      rw [handle_step] at handle
      cases handle
    | delivered =>
      have news := before h' here known begun
      have next : s.nextEvent i = t.events.head? := by
        rw [HostMode.nextEvent, known]
        rfl
      rw [panel_step]
      simp only [next]
      exact (codes_tail t.events s.panel).trans news
    | begins code none_ =>
      cases begun
      rw [show (t.begin code).events = t.events ++ [.oneTime code] from rfl, codes_append, List.getLast?_append]
      rfl
    | serves h r begun' alive ready =>
      rw [ServeThread.host_serve env begun' r] at begun
      cases begun
      rw [ServeThread.events_serve env begun' r, codes_append, codes_serve, oneTime_serve, panel_step]
      cases h.generates (t.reads r) with
      | true => simp [ServeThread.reads]
      | false => simpa using before h here known begun'
    | locks _ _ | confirms _ _ | refreshes _ | decided _ _ _ _ _ | clears _ =>
      rw [panel_step]
      exact before h' here known begun
  · rw [fresh.host] at begun
    cases begun

/-- While the codes that the webview receives are the current host's, and an answer of
`hostStatus` comes before the code changes again, the panel shows the code in force
whenever no code is on its way. -/
theorem panel_shows_code_in_force {s : HostMode J} {es : List (HostModeEvent J)}
    (hv : (hostMode env).Valid {} es) (current : (hostMode env).AllSteps PanelHearsCurrent {} es)
    (after : (hostMode env).after {} es = s) {i : Nat} {t : ServeThread J} {h : Host J} (handle : s.handle = some i)
    (known : s.threads[i]? = some t) (begun : t.host = some h) (received : codes t.events = []) :
    s.panel = some h.oneTime ∧ s.panel = s.hostStatus.oneTime := by
  have start : ((hostMode env).restrict PanelHearsCurrent).Reachable {} := .init rfl
  have reached := start.after (System.valid_restrict.2 ⟨hv, current⟩)
  have follows : PanelFollows s := by
    rw [← after]
    refine reached.invariant (fun s first i t h handle => ?_)
      fun s e hr follows now => follows.step hr.of_restrict now.1 now.2
    rw [show s = ({} : HostMode J) from first] at handle
    cases handle
  have whole : (hostMode env).Reachable s := after ▸ (System.Reachable.init rfl).after hv
  have last := follows i t h handle known begun
  rw [received] at last
  exact ⟨last, last.trans (oneTime_hostStatus whole handle known begun).symm⟩

/-- The answer to the question behind the refresh comes ahead of the new code's event. -/
theorem panel_shows_code_in_force_refreshed :
    let es : List (HostModeEvent String) :=
      [.startHost none false false, .begin 0 "AAAAAAAA", .deliver 0, .refreshOneTime, .serve 0 {},
        .serve 0 { code := "BBBBBBBB" }, .hostStatus, .answer 0, .deliver 0]
    ((hostMode sampleHostEnv).after {} es).panel = some "BBBBBBBB" := by
  intro es
  have valid : (hostMode sampleHostEnv).Valid {} es :=
    ⟨trivial, ⟨_, rfl, rfl⟩, trivial, trivial, ⟨_, rfl, _, rfl, nofun, nofun⟩, ⟨_, rfl, _, rfl, nofun, nofun⟩, trivial,
      trivial, trivial, trivial⟩
  have current : (hostMode sampleHostEnv).AllSteps PanelHearsCurrent {} es :=
    ⟨trivial, trivial, fun _ => rfl, trivial, trivial, trivial, trivial, fun _ answered => answered, fun _ => rfl,
      trivial⟩
  exact (panel_shows_code_in_force valid current rfl rfl rfl rfl rfl).1

/-- An answer of `hostStatus` that is received behind the event of the next code puts the
old code back on the panel. -/
theorem late_answer_overwrites_panel :
    let es : List (HostModeEvent String) :=
      [.startHost none false false, .begin 0 "AAAAAAAA", .deliver 0, .refreshOneTime, .hostStatus, .serve 0 {},
        .serve 0 { code := "BBBBBBBB" }, .deliver 0, .answer 0]
    let s := (hostMode sampleHostEnv).after {} es
    (hostMode sampleHostEnv).Valid {} es ∧ s.panel = some "AAAAAAAA" ∧ s.hostStatus = ⟨true, some "BBBBBBBB"⟩ := by
  intro es s
  refine ⟨?_, rfl, rfl⟩
  exact ⟨trivial, ⟨_, rfl, rfl⟩, trivial, trivial, trivial, ⟨_, rfl, _, rfl, nofun, nofun⟩,
    ⟨_, rfl, _, rfl, nofun, nofun⟩, trivial, trivial, trivial⟩

/-- A host that was stopped in a one-time session ends it beside its successor, and puts a
code on the panel that nobody takes. -/
theorem former_host_overwrites_panel :
    let es : List (HostModeEvent String) :=
      [.startHost none false false, .begin 0 "AAAAAAAA", .deliver 0] ++ oneTimeSession.map (.serve 0) ++
        [.stopHost, .forget, .startHost none false false, .begin 1 "BBBBBBBB", .deliver 1, .serve 0 {},
          .serve 0 { code := "CCCCCCCC" }, .deliver 0]
    let s := (hostMode sampleHostEnv).after {} es
    (hostMode sampleHostEnv).Valid {} es ∧ s.panel = some "CCCCCCCC" ∧ s.hostStatus = ⟨true, some "BBBBBBBB"⟩ := by
  intro es s
  refine ⟨?_, rfl, rfl⟩
  exact ⟨trivial, ⟨_, rfl, rfl⟩, trivial, ⟨_, rfl, _, rfl, nofun, nofun⟩, ⟨_, rfl, _, rfl, nofun, nofun⟩,
    ⟨_, rfl, _, rfl, nofun, nofun⟩, ⟨_, rfl, _, rfl, nofun, fun _ _ => .inr rfl⟩, ⟨_, rfl, _, rfl, nofun, nofun⟩,
    ⟨_, rfl, _, rfl, nofun, nofun⟩, ⟨_, rfl, _, rfl, nofun, nofun⟩, ⟨_, rfl, _, rfl, nofun, nofun⟩,
    ⟨_, rfl, _, rfl, nofun, nofun⟩, ⟨_, rfl, _, rfl, nofun, nofun⟩, ⟨_, rfl, _, rfl, nofun, nofun⟩, trivial, rfl,
    trivial, ⟨_, rfl, rfl⟩, trivial, ⟨_, rfl, _, rfl, nofun, nofun⟩, ⟨_, rfl, _, rfl, nofun, nofun⟩, trivial, trivial⟩

/-! ## The confirmation dialog -/

/-- The clicks of the person, oldest first. -/
def clicks (s : HostMode J) (e : HostModeEvent J) (made : List (Dialog × Bool)) : List (Dialog × Bool) :=
  match e, s.dialog with
  | .click allow, some d => made ++ [(d, allow)]
  | _, _ => made

/-- Host mode with its clicks. -/
def attended (env : HostEnv J) : System (HostMode J × List (Dialog × Bool)) (HostModeEvent J) :=
  (hostMode env).recording (fun _ => []) clicks

/-- A click that is executed was made in a dialog of the handle's thread. -/
def ClickReachesAsker (p : HostMode J × List (Dialog × Bool)) : HostModeEvent J → Prop
  | .decideIncoming => ∀ c i, p.1.clicked.head? = some c → p.1.handle = some i → c.1.thread = i
  | _ => True

theorem dialog_step (e : HostModeEvent J) :
    (s.step env e).dialog = match e with
      | .deliver i => ((s.nextEvent i).bind (dialog? i)).or s.dialog
      | .click _ => none
      | .expire => none
      | _ => s.dialog := by
  refine (congrArg (·.2.1) (view_step e)).trans ?_
  cases e <;> rfl

theorem clicked_step (e : HostModeEvent J) :
    (s.step env e).clicked = match e with
      | .click allow => s.clicked ++ (s.dialog.map (·, allow)).toList
      | .decideIncoming => s.clicked.tail
      | _ => s.clicked := by
  refine (congrArg (·.2.2) (view_step e)).trans ?_
  cases e <;> rfl

/-- How often the thread of `d` asks about its request among the events on their way. -/
def asked (s : HostMode J) (d : Dialog) : Nat :=
  (s.threads[d.thread]?.map fun t => (t.events.filterMap (dialog? d.thread)).count d).getD 0

/-- How often the person is asked, or has answered, about the request of `d`. -/
def pending (s : HostMode J) (made : List (Dialog × Bool)) (d : Dialog) : Nat :=
  asked s d + (s.dialog.toList.count d + (made.map (·.1)).count d)

/-- The thread of `d` has given the request its number. -/
def Issued (s : HostMode J) (d : Dialog) : Prop :=
  ∃ t h, s.threads[d.thread]? = some t ∧ t.host = some h ∧ d.requestId ≤ h.nextRequestId

/-- Every decision goes back to a click, and no request is asked about twice. -/
structure Tracked (p : HostMode J × List (Dialog × Bool)) : Prop where
  clicked : ∀ c ∈ p.1.clicked, c ∈ p.2
  decided : ∀ i t id allow, p.1.threads[i]? = some t → (id, allow) ∈ t.decisions → (⟨i, id⟩, allow) ∈ p.2
  once : ∀ d, pending p.1 p.2 d ≤ 1
  new : ∀ d, ¬ Issued p.1 d → pending p.1 p.2 d = 0

theorem asked_of_none {d : Dialog} (unknown : s.threads[d.thread]? = none) : asked s d = 0 := by
  rw [asked, unknown]
  rfl

theorem asked_of_some {d : Dialog} {t : ServeThread J} (known : s.threads[d.thread]? = some t) :
    asked s d = (t.events.filterMap (dialog? d.thread)).count d := by
  rw [asked, known]
  rfl

theorem Issued.step {d : Dialog} (issued : Issued s d) {e : HostModeEvent J} (now : s.enabled e) :
    Issued (s.step env e) d := by
  obtain ⟨t, h, known, begun, le⟩ := issued
  obtain ⟨t', after, move⟩ := thread_step env now known
  cases move with
  | begins code none_ => cases begun.symm.trans none_
  | serves h' r begun' alive ready =>
    obtain rfl : h = h' := Option.some.inj (begun.symm.trans begun')
    refine ⟨_, _, after, ServeThread.host_serve env begun r, ?_⟩
    rw [nextRequestId_serve]
    omega
  | _ => exact ⟨_, h, after, begun, le⟩

theorem asked_quiet {e : HostModeEvent J} (now : s.enabled e) (d : Dialog) (received : e ≠ .deliver d.thread)
    (served : ∀ r, e ≠ .serve d.thread r) : asked (s.step env e) d = asked s d := by
  cases known : s.threads[d.thread]? with
  | none =>
    rw [asked_of_none known]
    cases after : (s.step env e).threads[d.thread]? with
    | none => exact asked_of_none after
    | some t' =>
      rcases thread_before env now after with ⟨t, known', -⟩ | ⟨-, -, fresh, -⟩
      · cases known.symm.trans known'
      · rw [asked_of_some after, fresh.events]
        rfl
  | some t =>
    obtain ⟨t', after, move⟩ := thread_step env now known
    rw [asked_of_some known, asked_of_some after]
    cases move with
    | delivered => exact absurd rfl received
    | serves h r begun alive ready => exact absurd rfl (served r)
    | begins code none_ =>
      rw [show (t.begin code).events = t.events ++ [.oneTime code] from rfl, List.filterMap_append]
      exact congrArg _ (List.append_nil _)
    | _ => rfl

/-- An event of thread `i` asks about no request of another thread. -/
theorem count_dialog? {i : Nat} {d : Dialog} (other : i ≠ d.thread) (e : Option HostEvent) :
    (e.bind (dialog? i)).toList.count d = 0 := by
  rw [List.count_eq_zero]
  intro mem
  obtain ⟨e, -, asks⟩ := Option.bind_eq_some_iff.1 (Option.mem_toList.1 mem)
  cases e with
  | oneTime code => cases asks
  | confirm id kind =>
    cases asks
    exact other rfl

variable (env s) in
/-- What the webview receives is off its way. -/
theorem asked_deliver (i : Nat) (d : Dialog) :
    asked (s.step env (.deliver i)) d + ((s.nextEvent i).bind (dialog? i)).toList.count d = asked s d := by
  by_cases own : i = d.thread
  · subst own
    cases known : s.threads[d.thread]? with
    | none =>
      have after : (s.deliver d.thread).threads[d.thread]? = none := by
        rw [List.getElem?_eq_none_iff] at known ⊢
        rwa [length_deliver]
      rw [asked_of_none known, HostMode.nextEvent, known]
      exact asked_of_none after
    | some t =>
      have after : (s.step env (.deliver d.thread)).threads[d.thread]? = some { t with events := t.events.tail } := by
        have popped := threads_deliver (j := d.thread) known
        rwa [if_pos rfl] at popped
      rw [asked_of_some known, asked_of_some after, HostMode.nextEvent, known]
      show List.count d (t.events.tail.filterMap _) + (t.events.head?.bind _).toList.count d = _
      cases t.events with
      | nil => rfl
      | cons e rest =>
        cases e with
        | oneTime code => rfl
        | confirm id kind =>
          show (rest.filterMap _).count d + List.count d [⟨d.thread, id⟩] = List.count d (⟨d.thread, id⟩ :: _)
          simp only [List.count_cons, List.count_nil, Nat.zero_add]
  · rw [count_dialog? own]
    have now : s.enabled (.deliver i) := trivial
    exact asked_quiet now d (fun h => own (HostModeEvent.deliver.inj h)) fun r h => by cases h

/-- A step of a thread asks about a request that had no number. -/
theorem asked_serve {i : Nat} {r : Reading J} (now : s.enabled (.serve i r)) (d : Dialog) :
    asked (s.step env (.serve i r)) d = asked s d ∨
      asked (s.step env (.serve i r)) d = asked s d + 1 ∧ ¬ Issued s d ∧ Issued (s.step env (.serve i r)) d := by
  by_cases own : i = d.thread
  · subst own
    obtain ⟨t, known, h, begun, -⟩ := id now
    obtain ⟨t', after, move⟩ := thread_step env now known
    rw [asked_of_some known, asked_of_some after]
    cases move with
    | same => exact .inl rfl
    | serves h' _ begun' alive ready =>
      obtain rfl : h = h' := Option.some.inj (begun.symm.trans begun')
      rw [ServeThread.events_serve env begun r, hostEvents_serve, List.filterMap_append, List.count_append]
      cases h.generates (t.reads r) with
      | true => exact .inl rfl
      | false =>
        rw [if_neg Bool.false_ne_true]
        cases asking : asks (t.reads r) h with
        | none => exact .inl rfl
        | some e =>
          have number : ∃ kind, e = .confirm (h.nextRequestId + 1) kind := by
            unfold asks at asking
            split at asking
            · split at asking
              · exact ⟨_, (Option.some.inj asking).symm⟩
              · cases asking
            · cases asking
          obtain ⟨kind, rfl⟩ := number
          have news : List.count d ((some (HostEvent.confirm (h.nextRequestId + 1) kind)).toList.filterMap
              (dialog? d.thread)) = if d.requestId = h.nextRequestId + 1 then 1 else 0 := by
            obtain ⟨i, id⟩ := d
            show List.count (⟨i, id⟩ : Dialog) [⟨i, h.nextRequestId + 1⟩] = _
            simp only [List.count_singleton, beq_iff_eq, Dialog.mk.injEq, true_and]
            exact if_congr eq_comm rfl rfl
          rw [news]
          by_cases same : d.requestId = h.nextRequestId + 1
          · right
            refine ⟨by rw [if_pos same], ?_, ?_⟩
            · rintro ⟨t', h', known', begun'', le⟩
              obtain rfl : t = t' := Option.some.inj (known.symm.trans known')
              obtain rfl : h = h' := Option.some.inj (begun.symm.trans begun'')
              omega
            · refine ⟨_, _, after, ServeThread.host_serve env begun r, ?_⟩
              rw [nextRequestId_serve, asking, same]
              rfl
          · left
            rw [if_neg same, Nat.add_zero]
  · exact .inl (asked_quiet now d (fun h => by cases h) fun r h => own (HostModeEvent.serve.inj h).1)

theorem mem_clicks {made : List (Dialog × Bool)} {c : Dialog × Bool} (e : HostModeEvent J) (mem : c ∈ made) :
    c ∈ clicks s e made := by
  unfold clicks
  split
  · exact List.mem_append_left _ mem
  · exact mem

variable (env) in
/-- Only a request without a number is asked about anew. -/
theorem pending_step (made : List (Dialog × Bool)) {e : HostModeEvent J} (now : s.enabled e) (d : Dialog) :
    pending (s.step env e) (clicks s e made) d ≤ pending s made d ∨
      pending (s.step env e) (clicks s e made) d ≤ pending s made d + 1 ∧ ¬ Issued s d ∧ Issued (s.step env e) d := by
  unfold pending
  rw [dialog_step]
  cases e with
  | click allow =>
    left
    rw [asked_quiet now d (fun h => by cases h) fun r h => by cases h]
    unfold clicks
    cases s.dialog with
    | none => exact Nat.le_refl _
    | some d' =>
      simp only [List.map_append, List.map_cons, List.map_nil, List.count_append, Option.toList_none,
        Option.toList_some, List.count_nil]
      omega
  | expire =>
    left
    rw [asked_quiet now d (fun h => by cases h) fun r h => by cases h]
    exact Nat.add_le_add_left (Nat.add_le_add_right (Nat.zero_le _) _) _
  | deliver i =>
    left
    have moved := asked_deliver env s i d
    rw [show clicks s (.deliver i) made = made from rfl]
    cases asks : (s.nextEvent i).bind (dialog? i) with
    | none =>
      rw [asks] at moved
      simp only [asks, Option.none_or]
      exact Nat.add_le_add_right (Nat.le.intro moved) _
    | some d' =>
      rw [asks] at moved
      simp only [asks, Option.some_or]
      omega
  | serve i r =>
    rw [show clicks s (.serve i r) made = made from rfl]
    dsimp only
    rcases asked_serve now d with same | ⟨more, before, after⟩
    · exact .inl (by rw [same])
    · exact .inr ⟨by omega, before, after⟩
  | _ =>
    left
    rw [asked_quiet now d (fun h => by cases h) fun r h => by cases h]
    exact Nat.le_refl _

/-- A step takes decisions away at most. -/
theorem mem_decisions_serve {t : ServeThread J} {h : Host J} (begun : t.host = some h) {r : Reading J}
    {c : Nat × Bool} (mem : c ∈ (t.serve env r).decisions) : c ∈ t.decisions := by
  rw [ServeThread.serve_eq env begun] at mem
  unfold ServeThread.taken at mem
  dsimp only at mem
  split at mem
  · split at mem <;> exact mem
  · exact mem
  · split at mem
    · exact mem
    · exact List.mem_of_mem_tail mem
  · exact mem

theorem Tracked.step {p : HostMode J × List (Dialog × Bool)} (tracked : Tracked p) {e : HostModeEvent J}
    (now : p.1.enabled e) (reaches : ClickReachesAsker p e) : Tracked (p.1.step env e, clicks p.1 e p.2) := by
  constructor
  case clicked =>
    intro c mem
    rw [show (p.1.step env e, clicks p.1 e p.2).1.clicked = (p.1.step env e).clicked from rfl, clicked_step] at mem
    cases e with
    | click allow =>
      rcases List.mem_append.1 mem with old | new
      · exact mem_clicks _ (tracked.clicked c old)
      · obtain ⟨d, shown, rfl⟩ := Option.map_eq_some_iff.1 (Option.mem_toList.1 new)
        have now : clicks p.1 (.click allow) p.2 = p.2 ++ [(d, allow)] := by simp only [clicks, shown]
        exact now ▸ List.mem_append_right _ List.mem_cons_self
    | decideIncoming => exact tracked.clicked c (List.mem_of_mem_tail mem)
    | _ => exact tracked.clicked c mem
  case decided =>
    intro i t' id allow after mem
    refine mem_clicks e ?_
    rcases thread_before env now after with ⟨t, known, move⟩ | ⟨-, -, fresh, -⟩
    · have old := tracked.decided i t id allow known
      cases move with
      | decided d made rest current waiting =>
        rcases List.mem_append.1 mem with mem | mem
        · exact old mem
        · obtain ⟨rfl, rfl⟩ := Prod.mk.inj (List.mem_singleton.1 mem)
          have own : d.thread = i := reaches (d, allow) i (by rw [waiting]; rfl) current
          have click : (d, allow) ∈ p.1.clicked := waiting ▸ List.mem_cons_self
          rw [← own]
          exact tracked.clicked _ click
      | clears => cases mem
      | serves h r begun alive ready => exact old (mem_decisions_serve begun mem)
      | _ => exact old mem
    · rw [fresh.decisions] at mem
      cases mem
  case once =>
    intro d
    rcases pending_step env p.2 now d with le | ⟨le, new, -⟩
    · exact Nat.le_trans le (tracked.once d)
    · rw [tracked.new d new] at le
      exact le
  case new =>
    intro d unissued
    have before : ¬ Issued p.1 d := fun issued => unissued (issued.step now)
    rcases pending_step env p.2 now d with le | ⟨-, -, issued⟩
    · rw [tracked.new d before] at le
      exact Nat.le_zero.1 le
    · exact absurd issued unissued

theorem tracked_initial : Tracked (({} : HostMode J), []) := by
  constructor
  case clicked => exact fun c mem => absurd mem List.not_mem_nil
  case decided =>
    intro i t id allow known
    cases known
  case once => exact fun d => Nat.zero_le 1
  case new => exact fun d _ => rfl

/-- A decision on its way is the only click on its request. -/
theorem Tracked.only {p : HostMode J × List (Dialog × Bool)} (tracked : Tracked p) {i id : Nat} {t : ServeThread J}
    {allow : Bool} (known : p.1.threads[i]? = some t) (mem : (id, allow) ∈ t.decisions) :
    p.2.filter (·.1 = ⟨i, id⟩) = [(⟨i, id⟩, allow)] := by
  have click : (⟨i, id⟩, allow) ∈ p.2.filter (·.1 = ⟨i, id⟩) :=
    List.mem_filter.2 ⟨tracked.decided i t id allow known mem, decide_eq_true rfl⟩
  have once : (p.2.filter (·.1 = ⟨i, id⟩)).length ≤ 1 := by
    have clicks : (p.2.map (·.1)).count (⟨i, id⟩ : Dialog) = (p.2.filter (·.1 = ⟨i, id⟩)).length := by
      rw [List.count_eq_countP, List.countP_map, List.countP_eq_length_filter]
      rfl
    have count := tracked.once ⟨i, id⟩
    rw [pending, clicks] at count
    omega
  cases found : p.2.filter (·.1 = ⟨i, id⟩) with
  | nil =>
    rw [found] at click
    cases click
  | cons c rest =>
    rw [found] at click once
    obtain rfl : rest = [] := List.eq_nil_of_length_eq_zero (by simpa using once)
    rw [List.mem_singleton.1 click]

/-- While every click that is executed was made in a dialog of the current host, the
decision that a host acts on is the one click that the person made in the dialog of this
very request; what it lets through was allowed there, and not refused. -/
theorem decision_is_own_click {s : HostMode J} {made : List (Dialog × Bool)} {es : List (HostModeEvent J)}
    (hv : (attended env).Valid ({}, []) es) (reaches : (attended env).AllSteps ClickReachesAsker ({}, []) es)
    (after : (attended env).after ({}, []) es = (s, made)) {i : Nat} {t : ServeThread J}
    (known : s.threads[i]? = some t) :
    (∀ id allow, t.decisions.head? = some (id, allow) → made.filter (·.1 = ⟨i, id⟩) = [(⟨i, id⟩, allow)]) ∧
      ∀ h r a id, t.host = some h → h.control = .deciding a id → h.letsThrough (t.reads r) = some a →
        made.filter (·.1 = ⟨i, id⟩) = [(⟨i, id⟩, true)] := by
  have start : ((attended env).restrict ClickReachesAsker).Reachable ({}, []) := .init ⟨rfl, rfl⟩
  have reached := start.after (System.valid_restrict.2 ⟨hv, reaches⟩)
  have tracked : Tracked (s, made) := by
    rw [← after]
    refine reached.invariant (fun p first => ?_) fun p e _ tracked now => tracked.step now.1 now.2
    rw [show p = (({} : HostMode J), []) from Prod.ext first.1 first.2]
    exact tracked_initial
  refine ⟨fun id allow decision => tracked.only known (List.mem_of_mem_head? decision), ?_⟩
  intro h r a id begun deciding through
  simp only [Host.letsThrough, deciding, Option.ite_none_right_eq_some, Bool.and_eq_true, beq_iff_eq] at through
  exact tracked.only known (List.mem_of_mem_head? through.1.2)

/-- Thread `i` asks the person about the request of session `sid`, and the dialog shows it. -/
def asking (i : Nat) (sid : String) : List (HostModeEvent String) :=
  [.serve i { recv := .ok (some (.incomingRequest sid (some "one_time"))) }, .clear i, .serve i {}, .deliver i,
    .deliver i]

/-- An attended host that waits for requests. -/
def attendedHost (i : Nat) : List (HostModeEvent String) :=
  [.startHost none true false, .begin i "AAAAAAAA", .serve i {}, .serve i {}]

theorem decision_is_own_click_allowed :
    let es := attendedHost 0 ++ asking 0 "s" ++ [.click true, .decideIncoming]
    ((attended sampleHostEnv).after ({}, []) es).2.filter (·.1 = ⟨0, 1⟩) = [(⟨0, 1⟩, true)] := by
  intro es
  have valid : (attended sampleHostEnv).Valid ({}, []) es :=
    ⟨trivial, ⟨_, rfl, rfl⟩, ⟨_, rfl, _, rfl, nofun, nofun⟩, ⟨_, rfl, _, rfl, nofun, nofun⟩,
      ⟨_, rfl, _, rfl, nofun, nofun⟩, ⟨_, rfl, rfl, rfl, _, _, rfl, rfl⟩, ⟨_, rfl, _, rfl, nofun, fun _ _ => .inl rfl⟩,
      trivial, trivial, trivial, trivial, trivial⟩
  have reaches : (attended sampleHostEnv).AllSteps ClickReachesAsker ({}, []) es :=
    ⟨trivial, trivial, trivial, trivial, trivial, trivial, trivial, trivial, trivial, trivial,
      fun c i waiting handle => by cases waiting; cases handle; rfl, trivial⟩
  exact (decision_is_own_click valid reaches rfl rfl).1 1 true rfl

/-- A host that was stopped while it polled asks about a request behind its successor's. Its
dialog covers the other, and the click there lets the other request through. -/
theorem click_answers_for_former_host :
    let es := attendedHost 0 ++ [.stopHost] ++ attendedHost 1 ++ asking 1 "s1" ++ asking 0 "s0" ++
      [.click true, .decideIncoming]
    let p := (attended sampleHostEnv).after ({}, []) es
    (attended sampleHostEnv).Valid ({}, []) es ∧ p.2 = [(⟨0, 1⟩, true)] ∧
      ∃ t h a, p.1.threads[1]? = some t ∧ t.host = some h ∧ a.sid = "s1" ∧ h.letsThrough (t.reads {}) = some a := by
  intro es p
  refine ⟨?_, rfl, _, _, _, rfl, rfl, rfl, rfl⟩
  exact ⟨trivial, ⟨_, rfl, rfl⟩, ⟨_, rfl, _, rfl, nofun, nofun⟩, ⟨_, rfl, _, rfl, nofun, nofun⟩, trivial, trivial,
    ⟨_, rfl, rfl⟩, ⟨_, rfl, _, rfl, nofun, nofun⟩, ⟨_, rfl, _, rfl, nofun, nofun⟩, ⟨_, rfl, _, rfl, nofun, nofun⟩,
    ⟨_, rfl, rfl, rfl, _, _, rfl, rfl⟩, ⟨_, rfl, _, rfl, nofun, fun _ _ => .inl rfl⟩, trivial, trivial,
    ⟨_, rfl, _, rfl, nofun, nofun⟩, ⟨_, rfl, rfl, rfl, _, _, rfl, rfl⟩,
    ⟨_, rfl, _, rfl, nofun, fun _ _ => .inl rfl⟩, trivial, trivial, trivial, trivial, trivial⟩

end ZortilWatch.Desktop
