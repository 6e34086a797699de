import ZortilWatch.Signaling.Presence

/-!
# The heartbeat (`server/src/ws/signaling.ts`)

Every `HEARTBEAT_MS` the server terminates the sockets that have neither connected nor
answered a ping since the last time, and pings the others. A client that went away without
a word is so found at the second tick, and with its close event the registry forgets it.
-/

namespace ZortilWatch.Signaling

/-- The endpoint with `alive`, and the sockets `terminate` has been called on. -/
structure Heartbeat (J : Type) where
  endpoint : Endpoint J
  alive : SocketId → Bool := fun _ => false
  terminated : SocketId → Bool := fun _ => false

inductive Beat (J : Type) where
  | endpoint (e : Event J)
  | pong (s : SocketId)
  /-- The interval fires. -/
  | tick

variable {J : Type} {env : Env J} {s : SocketId}

namespace Beat

/-- The socket says nothing to the heartbeat. -/
def Silent (s : SocketId) (e : Beat J) : Prop := e ≠ .pong s ∧ ∀ wanIp, e ≠ .endpoint (.connection s wanIp)

def isTick : Beat J → Bool
  | .tick => true
  | _ => false

/-- Whether the socket has connected or answered since the last tick, `before` being so
before the event. -/
def marks (s : SocketId) (before : Bool) : Beat J → Bool
  | .endpoint (.connection s' _) => before || s' = s
  | .endpoint _ => before
  | .pong s' => before || s' = s
  | .tick => false

def lately (s : SocketId) (es : List (Beat J)) : Bool := es.foldl (marks s) false

end Beat

namespace Heartbeat

variable {h : Heartbeat J}

def initial (env : Env J) : Heartbeat J where
  endpoint := .initial env

/-- The socket is among `app.websocketServer.clients`. -/
def isClient (h : Heartbeat J) (s : SocketId) : Bool := (h.endpoint.sockets s).any fun sock => !sock.closed

def tick (h : Heartbeat J) : Heartbeat J :=
  { h with
    alive := fun s => h.alive s && !h.isClient s
    terminated := fun s => h.terminated s || h.isClient s && !h.alive s }

def step (env : Env J) (h : Heartbeat J) : Beat J → Heartbeat J
  | .endpoint e =>
    { h with
      endpoint := (Endpoint.handle env h.endpoint e).1
      alive := match e with
        | .connection s _ => Function.update h.alive s true
        | _ => h.alive }
  | .pong s => { h with alive := Function.update h.alive s true }
  | .tick => h.tick

/-- The close event of a terminated socket comes before the next tick. -/
def admits (h : Heartbeat J) : Beat J → Prop
  | .endpoint e => h.endpoint.admits e
  | .pong s => h.endpoint.isOpen s
  | .tick => ∀ s, h.terminated s = true → ¬ h.endpoint.isOpen s

end Heartbeat

def heartbeat (env : Env J) : System (Heartbeat J) (Beat J) where
  init h := h = .initial env
  enabled := Heartbeat.admits
  step := Heartbeat.step env

namespace Heartbeat

variable {h : Heartbeat J}

theorem isClient_iff : h.isClient s = true ↔ h.endpoint.isOpen s := by
  rw [isClient, Option.any_eq_true, Endpoint.isOpen]
  simp only [Bool.not_eq_true']

theorem reachable_endpoint (reached : (heartbeat env).Reachable h) : (signaling env).Reachable h.endpoint := by
  refine reached.invariant (P := fun h => (signaling env).Reachable h.endpoint) ?_ ?_
  · rintro h rfl
    exact .init rfl
  · intro h e _ ih now
    cases e with
    | endpoint e => exact .step ih now
    | pong | tick => exact ih

/-- A socket opens at its connection only. -/
theorem isOpen_step {e : Beat J} (stays : (h.step env e).endpoint.isOpen s) :
    (∃ wanIp, e = .endpoint (.connection s wanIp)) ∨ h.endpoint.isOpen s ∧ e ≠ .endpoint (.close s) := by
  cases e with
  | endpoint e =>
    rcases (Endpoint.isOpen_handle env h.endpoint e s).1 stays with ⟨before, other⟩ | ⟨wanIp, rfl⟩
    · exact .inr ⟨before, fun same => other (Beat.endpoint.inj same)⟩
    · exact .inl ⟨wanIp, rfl⟩
  | pong | tick => exact .inr ⟨stays, fun same => by cases same⟩

/-! ## Who is terminated -/

/-- `alive` has a client exactly if it has lately said something. -/
theorem alive_step {b : Bool} (marked : h.endpoint.isOpen s → h.alive s = b) {e : Beat J}
    (stays : (h.step env e).endpoint.isOpen s) : (h.step env e).alive s = Beat.marks s b e := by
  rcases isOpen_step stays with ⟨wanIp, rfl⟩ | ⟨before, -⟩
  · show Function.update h.alive s true s = (b || decide (s = s))
    simp
  · cases e with
    | endpoint e =>
      cases e with
      | connection s' wanIp =>
        show Function.update h.alive s' true s = (b || decide (s' = s))
        rw [Function.update_apply, marked before]
        by_cases own : s = s' <;> simp [own, eq_comm]
      | _ => exact marked before
    | pong s' =>
      show Function.update h.alive s' true s = (b || decide (s' = s))
      rw [Function.update_apply, marked before]
      by_cases own : s = s' <;> simp [own, eq_comm]
    | tick =>
      show (h.alive s && !h.isClient s) = false
      rw [isClient_iff.2 before, Bool.not_true, Bool.and_false]

theorem alive_after {b : Bool} (marked : h.endpoint.isOpen s → h.alive s = b) {es : List (Beat J)}
    (stays : ((heartbeat env).after h es).endpoint.isOpen s) :
    ((heartbeat env).after h es).alive s = es.foldl (Beat.marks s) b := by
  induction es generalizing h b with
  | nil => exact marked stays
  | cons e es ih => exact ih (fun now => alive_step marked now) stays

/-- A tick terminates the clients that have not said anything lately. -/
theorem terminated_tick (es : List (Beat J)) (s : SocketId) :
    let h := (heartbeat env).after (initial env) es
    h.tick.terminated s = true ↔
      h.terminated s = true ∨ h.endpoint.isOpen s ∧ Beat.lately s es = false := by
  intro h
  rw [tick, Bool.or_eq_true, Bool.and_eq_true, isClient_iff, Bool.not_eq_true']
  refine or_congr_right (and_congr_right fun stays => ?_)
  have marked : (initial env).endpoint.isOpen s → (initial env).alive s = false := fun _ => rfl
  rw [show h.alive s = Beat.lately s es from alive_after marked stays]

/-! ## What becomes of a silent socket -/

/-- How far the heartbeat is with a socket that has been silent for `n` ticks. -/
def Fading (h : Heartbeat J) (s : SocketId) : Nat → Prop
  | 0 => True
  | 1 => h.endpoint.isOpen s → h.alive s = false
  | 2 => h.endpoint.isOpen s → h.terminated s = true
  | _ => ¬ h.endpoint.isOpen s

theorem Fading.step {n : Nat} (fading : h.Fading s n) {e : Beat J} (now : h.admits e) (silent : e.Silent s) :
    (h.step env e).Fading s (n + if e.isTick then 1 else 0) := by
  have before (stays : (h.step env e).endpoint.isOpen s) : h.endpoint.isOpen s := by
    rcases isOpen_step stays with ⟨wanIp, rfl⟩ | ⟨before, -⟩
    · exact absurd rfl (silent.2 wanIp)
    · exact before
  cases e with
  | tick =>
    match n, fading with
    | 0, _ =>
      intro stays
      show (h.alive s && !h.isClient s) = false
      rw [isClient_iff.2 (before stays), Bool.not_true, Bool.and_false]
    | 1, fading =>
      intro stays
      show (h.terminated s || h.isClient s && !h.alive s) = true
      rw [isClient_iff.2 (before stays), fading (before stays), Bool.not_false, Bool.and_true, Bool.or_true]
    | 2, fading => exact fun stays => now s (fading stays) stays
    | n + 3, fading => exact fading
  | pong s' =>
    match n, fading with
    | 0, _ => trivial
    | 1, fading =>
      intro stays
      have other : s ≠ s' := fun same => silent.1 (same ▸ rfl)
      exact (Function.update_of_ne other true h.alive).trans (fading stays)
    | 2, fading => exact fading
    | n + 3, fading => exact fading
  | endpoint e =>
    match n, fading with
    | 0, _ => trivial
    | 1, fading =>
      intro stays
      refine Eq.trans ?_ (fading (before stays))
      cases e with
      | connection s' wanIp =>
        have other : s ≠ s' := fun same => silent.2 wanIp (same ▸ rfl)
        exact Function.update_of_ne other true h.alive
      | _ => rfl
    | 2, fading => exact fun stays => fading (before stays)
    | n + 3, fading => exact fun stays => fading (before stays)

/-- No registration completes on the socket after its close event. -/
def RegistersOpen (env : Env J) (s : SocketId) (h : Heartbeat J) : Beat J → Prop
  | .endpoint e => ∀ side, Endpoint.registers env h.endpoint e = some (s, side) → h.endpoint.isOpen s
  | _ => True

/-- A slot of the socket goes when it closes. -/
def HeldOpen (h : Heartbeat J) (s : SocketId) : Prop :=
  ∀ d k e, h.endpoint.registry.slot d k = some e → e.conn = s → h.endpoint.isOpen s

theorem HeldOpen.step (held : h.HeldOpen s) (owned : h.endpoint.Owned) {e : Beat J} (opens : RegistersOpen env s h e) :
    (h.step env e).HeldOpen s := by
  cases e with
  | endpoint e =>
    rintro d k slot hslot rfl
    refine (Endpoint.isOpen_handle env h.endpoint e slot.conn).2 (.inl ?_)
    rcases owned.slot_handle e hslot with new | ⟨⟨old, hold, same⟩, -, other⟩
    · refine ⟨opens _ new, fun closing => ?_⟩
      rw [closing] at new
      cases new
    · exact ⟨held d k old hold same, other⟩
  | pong | tick => exact held

theorem held_after (reached : (heartbeat env).Reachable h) (held : h.HeldOpen s) {es : List (Beat J)}
    (valid : (heartbeat env).Valid h es) (opens : (heartbeat env).AllSteps (RegistersOpen env s) h es) :
    ((heartbeat env).after h es).HeldOpen s := by
  refine (System.allStates_of_allSteps (P := fun h => h.HeldOpen s) ?_ reached held valid opens).last
  intro h e reached _ held opens
  exact held.step (Endpoint.owned_of_reachable (reachable_endpoint reached)) opens

theorem fades {n : Nat} (fading : h.Fading s n) {es : List (Beat J)} (valid : (heartbeat env).Valid h es)
    (silent : ∀ e ∈ es, e.Silent s) : ((heartbeat env).after h es).Fading s (n + es.countP Beat.isTick) := by
  induction es generalizing h n with
  | nil => exact fading
  | cons e es ih =>
    rw [List.countP_cons, Nat.add_comm (es.countP _), ← Nat.add_assoc]
    refine ih (fading.step valid.1 (silent e List.mem_cons_self)) valid.2 ?_
    exact fun e' mem => silent e' (List.mem_cons_of_mem e mem)

/-- The heartbeat terminates the clients that have said nothing since its last tick, and no
others; and behind three ticks a silent socket is closed and out of the registry, if no
registration on it is late. -/
theorem heartbeat_weeds (env : Env J) {es es' : List (Beat J)}
    (valid : (heartbeat env).Valid (initial env) (es ++ es')) (s : SocketId) :
    let h := (heartbeat env).after (initial env) (es ++ es')
    (h.tick.terminated s = true ↔
        h.terminated s = true ∨ h.endpoint.isOpen s ∧ Beat.lately s (es ++ es') = false) ∧
      ((∀ e ∈ es', e.Silent s) → 3 ≤ es'.countP Beat.isTick →
        (heartbeat env).AllSteps (RegistersOpen env s) (initial env) (es ++ es') →
          ¬ h.endpoint.isOpen s ∧ ∀ d k e, h.endpoint.registry.slot d k = some e → e.conn ≠ s) := by
  intro h
  refine ⟨terminated_tick (es ++ es') s, fun silent ticks opens => ?_⟩
  have split : h = (heartbeat env).after ((heartbeat env).after (initial env) es) es' := System.after_append ..
  have closed : ¬ h.endpoint.isOpen s := by
    have fading := fades (n := 0) trivial (System.allSteps_append.1 valid).2 silent
    rw [← split, Nat.zero_add] at fading
    match es'.countP Beat.isTick, ticks, fading with
    | n + 3, _, fading => exact fading
  refine ⟨closed, fun d k e hslot same => closed ?_⟩
  have none_ : (initial env).HeldOpen s := fun d k e slot => by cases slot
  exact held_after (.init rfl) none_ valid opens d k e hslot same

section Sample

/-- The socket is not connected. -/
theorem never_open {h : Heartbeat J} (closed : ¬ h.endpoint.isOpen s) {es : List (Beat J)}
    (other : ∀ e ∈ es, ∀ wanIp, e ≠ .endpoint (.connection s wanIp)) :
    ¬ ((heartbeat env).after h es).endpoint.isOpen s := by
  induction es generalizing h with
  | nil => exact closed
  | cons e es ih =>
    refine ih (fun stays => ?_) fun e' mem => other e' (List.mem_cons_of_mem e mem)
    rcases isOpen_step stays with ⟨wanIp, rfl⟩ | ⟨before, -⟩
    · exact other _ List.mem_cons_self wanIp rfl
    · exact closed before

/-- The socket 0 connects and registers, and goes away without a word. -/
def sampleBeats : List (Beat Unit) :=
  [.endpoint (.connection 0 none), .endpoint (Endpoint.registering 0 "111111111" .host),
    .endpoint (Endpoint.registered 0), .tick, .tick, .endpoint (.close 0), .tick]

def sampleHeart (n : Nat) : Heartbeat Unit :=
  (heartbeat Endpoint.sampleEnv).after (initial Endpoint.sampleEnv) (sampleBeats.take n)

theorem admits_sampleTick {n : Nat} (first : (sampleHeart n).terminated 0 = false ∨
    ((sampleHeart n).endpoint.sockets 0).map (·.closed) = some true) : (sampleHeart n).admits .tick := by
  rintro s gone ⟨sock, known, opened⟩
  by_cases zero : s = 0
  · subst zero
    rcases first with kept | closed
    · rw [kept] at gone
      cases gone
    · rw [known, Option.map_some, opened] at closed
      cases closed
  · refine never_open (h := initial Endpoint.sampleEnv) ?_ ?_ ⟨sock, known, opened⟩
    · rintro ⟨sock, known, -⟩
      cases known
    · rintro e mem wanIp rfl
      have mem := List.mem_of_mem_take mem
      simp [sampleBeats, Endpoint.registering, Endpoint.registered] at mem
      exact zero mem.1

/-- Behind the third tick its slot is gone. -/
theorem heartbeat_weeds_host :
    let h := (heartbeat Endpoint.sampleEnv).after (initial Endpoint.sampleEnv) sampleBeats
    ∀ d k e, h.endpoint.registry.slot d k = some e → e.conn ≠ 0 := by
  have valid : (heartbeat Endpoint.sampleEnv).Valid (initial Endpoint.sampleEnv)
      (sampleBeats.take 3 ++ sampleBeats.drop 3) := by
    refine ⟨rfl, ⟨_, rfl, rfl⟩, ⟨rfl, List.not_mem_nil⟩, ?_, ?_, ⟨_, rfl, rfl⟩, ?_, trivial⟩
    · exact admits_sampleTick (n := 3) (by decide)
    · exact admits_sampleTick (n := 4) (by decide)
    · exact admits_sampleTick (n := 6) (by decide)
  refine ((heartbeat_weeds Endpoint.sampleEnv valid 0).2 ?_ (by decide) ?_).2
  · intro e mem
    rcases List.mem_cons.1 mem with rfl | mem
    · exact ⟨by simp, by simp⟩
    simp only [List.mem_cons, List.not_mem_nil, or_false] at mem
    rcases mem with rfl | rfl | rfl <;> exact ⟨by simp, by simp⟩
  · refine ⟨?_, ?_, fun side _ => ⟨_, rfl, rfl⟩, trivial, trivial, ?_, trivial, trivial⟩
    all_goals
      intro side known
      cases known

end Sample

end Heartbeat

end ZortilWatch.Signaling
