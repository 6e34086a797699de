import ZortilWatch.Lib.FixedWindow
import ZortilWatch.Server.RateLimit

/-!
# Histories of the rate limiter

For one key the limiter is the counter of `Lib/FixedWindow.lean`, whatever the
other keys do and whenever a sweep comes: a sweep forgets windows that have
ended, and an ended window is as good as none (`checkUnswept_eq`, `Agrees.checked`).
The calls of a key therefore split into windows (`limit_enforced`), and a limiter
that never sweeps decides the same (`sweep_invisible`).
-/

namespace ZortilWatch.Server

open FixedWindow

def Hit.window (h : Hit) : Window := ⟨h.count, h.resetAt⟩

namespace RateLimiter

/-- A limiter as constructed, with `enabled` left at its default. -/
def new (limit windowMs maxKeys : Nat) : RateLimiter := { limit, windowMs, maxKeys }

/-- `check` without the sweep. -/
def checkUnswept (l : RateLimiter) (key : String) (now : Nat) : RateDecision × RateLimiter :=
  if l.enabled = false then (⟨true, 0⟩, l)
  else
    match l.hits.get key with
    | none => (⟨true, 0⟩, { l with hits := l.hits.set key ⟨1, now + l.windowMs⟩ })
    | some e =>
      if now ≥ e.resetAt then (⟨true, 0⟩, { l with hits := l.hits.set key ⟨1, now + l.windowMs⟩ })
      else
        let e := { e with count := e.count + 1 }
        let l := { l with hits := l.hits.set key e }
        if e.count > l.limit then (⟨false, max 1 ((e.resetAt - now + 999) / 1000)⟩, l) else (⟨true, 0⟩, l)

def policy (l : RateLimiter) : Policy := ⟨l.limit, l.windowMs⟩

def windowAt (l : RateLimiter) (key : String) : Option Window := (l.hits.get key).map Hit.window

/-- The answer a verdict is given as. -/
def decision : Verdict → RateDecision
  | .allowed => ⟨true, 0⟩
  | .denied left => ⟨false, max 1 ((left + 999) / 1000)⟩

/-- Store a window. -/
def store (l : RateLimiter) (key : String) (w : Window) : RateLimiter :=
  { l with hits := l.hits.set key ⟨w.count, w.resetAt⟩ }

/-! ## One call -/

section Call

variable {l : RateLimiter} {key : String} {now : Nat}

theorem decision_allowed (v : Verdict) : (decision v).allowed = v.isAllowed := by
  cases v <;> rfl

@[simp] theorem policy_store (l : RateLimiter) (key : String) (w : Window) : (l.store key w).policy = l.policy := rfl

theorem windowAt_store (w : Window) (key' : String) :
    (l.store key w).windowAt key' = if key = key' then some w else l.windowAt key' := by
  unfold windowAt store
  dsimp only
  rw [JsMap.get_set]
  split <;> rfl

/-- A call is one of the counter of its key. -/
theorem checkUnswept_eq (on : l.enabled = true) (key : String) (now : Nat) : l.checkUnswept key now =
    (decision (call l.policy (l.windowAt key) now).2, l.store key (call l.policy (l.windowAt key) now).1) := by
  unfold checkUnswept windowAt
  rw [if_neg (by simp [on])]
  cases hg : l.hits.get key with
  | none => rfl
  | some e =>
    dsimp only [Option.map_some]
    by_cases ended : e.resetAt ≤ now
    · have closed : openAt (some e.window) now = none := openAt_eq_none ended
      rw [if_pos ended]
      simp only [call, closed]
      rfl
    · have running : openAt (some e.window) now = some e.window := openAt_some (Nat.lt_of_not_le ended)
      rw [if_neg ended]
      simp only [call, running]
      by_cases within : e.count + 1 ≤ l.limit
      · rw [if_neg (Nat.not_lt.mpr within), if_pos (show e.window.count + 1 ≤ l.policy.limit from within)]
        rfl
      · rw [if_pos (Nat.lt_of_not_le within), if_neg (show ¬ e.window.count + 1 ≤ l.policy.limit from within)]
        rfl

/-- A call sweeps first, or does not. -/
theorem check_eq_checkUnswept (on : l.enabled = true) (key : String) (now : Nat) :
    ∃ l', Swept l l' now ∧ l'.maxKeys = l.maxKeys ∧ (l.hits.size ≤ l.maxKeys ∧ l' = l ∨ l' = l.sweep now) ∧
      l.check key now = l'.checkUnswept key now := by
  have sw := l.swept now
  refine ⟨if l.hits.size > l.maxKeys then l.sweep now else l, sw, ?_, ?_, ?_⟩
  · split
    · rfl
    · rfl
  · split
    · exact .inr rfl
    · rename_i spare
      exact .inl ⟨Nat.le_of_not_lt spare, rfl⟩
  · have off : ¬ l.enabled = false := by simp [on]
    have swept_off := off
    rw [← sw.enabled] at swept_off
    exact (if_neg off).trans (if_neg swept_off).symm

/-- No difference is seen between a limiter and what its sweep leaves. -/
theorem Swept.agree {l' : RateLimiter} (sw : Swept l l' now) (key : String) :
    AgreeFrom now (l'.windowAt key) (l.windowAt key) := by
  intro t le
  ext w
  simp only [openAt_eq_some, windowAt, Option.map_eq_some_iff]
  constructor
  · rintro ⟨⟨e, stored, rfl⟩, running⟩
    exact ⟨⟨e, sw.kept stored, rfl⟩, running⟩
  · rintro ⟨⟨e, stored, rfl⟩, running⟩
    exact ⟨⟨e, sw.open_kept stored (Nat.lt_of_le_of_lt le running), rfl⟩, running⟩

end Call

/-! ## Limiters that decide the same -/

/-- From `now` on, two limiters have the same open windows. -/
structure Agrees (now : Nat) (l u : RateLimiter) : Prop where
  limit : l.limit = u.limit
  windowMs : l.windowMs = u.windowMs
  enabled : l.enabled = true
  enabled' : u.enabled = true
  windows : ∀ key, AgreeFrom now (l.windowAt key) (u.windowAt key)

section Agree

variable {l u : RateLimiter} {key : String} {now t : Nat}

theorem Agrees.policy (h : Agrees now l u) : l.policy = u.policy := by
  simp only [RateLimiter.policy, h.limit, h.windowMs]

theorem Swept.agrees {l' : RateLimiter} (sw : Swept l l' now) (h : Agrees now l u) : Agrees now l' u where
  limit := sw.limit.trans h.limit
  windowMs := sw.windowMs.trans h.windowMs
  enabled := sw.enabled.trans h.enabled
  enabled' := h.enabled'
  windows key := fun t le => (sw.agree key t le).trans (h.windows key t le)

/-- Two limiters that agree decide alike and agree afterwards, whether a sweep
comes in between or not. -/
theorem Agrees.checked (h : Agrees now l u) (le : now ≤ t) (key : String) :
    (l.check key t).1 = (u.checkUnswept key t).1 ∧ Agrees t (l.check key t).2 (u.checkUnswept key t).2 := by
  have now_agree : Agrees t l u := { h with windows := fun key => (h.windows key).later le }
  obtain ⟨l', sw, -, -, swept⟩ := check_eq_checkUnswept h.enabled key t
  have agree := sw.agrees now_agree
  have same : call l'.policy (l'.windowAt key) t = call u.policy (u.windowAt key) t := by
    rw [agree.policy]
    exact (agree.windows key).call_eq
  rw [swept, checkUnswept_eq agree.enabled, checkUnswept_eq h.enabled', same]
  refine ⟨rfl, ⟨agree.limit, agree.windowMs, agree.enabled, agree.enabled', fun key' => ?_⟩⟩
  rw [windowAt_store, windowAt_store]
  split
  · exact .refl t _
  · exact agree.windows key'

end Agree

/-! ## Runs -/

/-- A call of the limiter. -/
structure Attempt where
  key : String
  now : Nat

/-- The calls of a run, each with its answer. -/
def answered (check : RateLimiter → String → Nat → RateDecision × RateLimiter) (l : RateLimiter) :
    List Attempt → List (Attempt × RateDecision)
  | [] => []
  | e :: es => (e, (check l e.key e.now).1) :: answered check (check l e.key e.now).2 es

/-- The limiter after a run. -/
def after (check : RateLimiter → String → Nat → RateDecision × RateLimiter) (l : RateLimiter) (es : List Attempt) :
    RateLimiter :=
  es.foldl (fun l e => (check l e.key e.now).2) l

/-- The calls of one key. -/
def ofKey (key : String) (calls : List (Attempt × RateDecision)) : List (Nat × RateDecision) :=
  (calls.filter fun c => c.1.key = key).map fun c => (c.1.now, c.2)

def timesOf (key : String) (es : List Attempt) : List Nat := (es.filter fun e => e.key = key).map Attempt.now

section Runs

variable {l u : RateLimiter} {es : List Attempt} {now : Nat}

/-- Agreement lasts over a run. -/
theorem Agrees.run (h : Agrees now l u) (sorted : (es.map Attempt.now).Pairwise (· ≤ ·))
    (later : ∀ e ∈ es, now ≤ e.now) : answered check l es = answered checkUnswept u es ∧
      ∀ t, now ≤ t → (∀ e ∈ es, e.now ≤ t) → Agrees t (after check l es) (after checkUnswept u es) := by
  induction es generalizing l u now with
  | nil => exact ⟨rfl, fun t le _ => { h with windows := fun key => (h.windows key).later le }⟩
  | cons e es ih =>
    obtain ⟨first, sorted⟩ := List.pairwise_cons.1 sorted
    obtain ⟨same, agree⟩ := h.checked (later e List.mem_cons_self) e.key
    obtain ⟨answers, last⟩ := ih agree sorted fun e' mem => first e'.now (List.mem_map_of_mem mem)
    refine ⟨?_, fun t _ all => last t (all e List.mem_cons_self) fun e' mem => all e' (List.mem_cons_of_mem _ mem)⟩
    rw [answered, answered, same, answers]

/-- Without sweeps, the calls of a key are the calls of its own counter, in
whatever order the other keys come. -/
theorem ofKey_answered (on : l.enabled = true) (key : String) : ofKey key (answered checkUnswept l es) =
    (verdicts l.policy (l.windowAt key) (timesOf key es)).map fun c => (c.1, decision c.2) := by
  induction es generalizing l with
  | nil => rfl
  | cons e es ih =>
    have one := checkUnswept_eq on e.key e.now
    have rest := ih (l := l.store e.key (call l.policy (l.windowAt e.key) e.now).1) on
    rw [windowAt_store, policy_store] at rest
    rw [answered, one]
    by_cases own : e.key = key
    · subst own
      rw [if_pos rfl] at rest
      have times : timesOf e.key (e :: es) = e.now :: timesOf e.key es := by simp [timesOf]
      rw [times, verdicts, List.map_cons, ← rest]
      simp [ofKey]
    · rw [if_neg own] at rest
      have times : timesOf key (e :: es) = timesOf key es := by simp [timesOf, own]
      rw [times]
      refine Eq.trans ?_ rest
      simp [ofKey, own]

theorem Agrees.refl (on : l.enabled = true) (now : Nat) : Agrees now l l := ⟨rfl, rfl, on, on, fun _ => .refl _ _⟩

end Runs

/-! ## The limit -/

/-- What the limit promises the calls of one key: windows with `limit` allowed
calls each, at most twice as many in any interval of a window's length, and an
allowed call for whoever waits as long as it was told, if no call in between was
allowed. -/
structure EnforcesLimit (p : Policy) (calls : List (Nat × RateDecision)) : Prop where
  windows : Splits p (calls.map fun c => (c.1, c.2.allowed))
  interval : ∀ a, allowedFrom p a (calls.map fun c => (c.1, c.2.allowed)) ≤ 2 * p.limit
  retry : ∀ {pre mid post now d t d'}, calls = pre ++ (now, d) :: (mid ++ (t, d') :: post) → d.allowed = false →
    (∀ c ∈ mid, c.2.allowed = false) → now + 1000 * d.retryAfterSec ≤ t → d'.allowed = true

/-- The seconds of a denial cover what is left of the window. -/
theorem le_retryAfter (left : Nat) : left ≤ 1000 * (decision (.denied left)).retryAfterSec := by
  show left ≤ 1000 * max 1 ((left + 999) / 1000)
  omega

/-- The answers of a counter keep the promise. -/
theorem enforcesLimit_verdicts {p : Policy} (positive : 0 < p.limit) (length : 0 < p.length) {times : List Nat}
    (sorted : times.Pairwise (· ≤ ·)) :
    EnforcesLimit p ((verdicts p none times).map fun c => (c.1, decision c.2)) := by
  have told : ((verdicts p none times).map fun c => (c.1, decision c.2)).map (fun c => (c.1, c.2.allowed)) =
      flags (verdicts p none times) := by
    simp [flags, decision_allowed]
  have split : Splits p (flags (verdicts p none times)) := splits_verdicts positive sorted fun _ _ => rfl
  refine ⟨told ▸ split, fun a => told ▸ split.allowed_le length a, ?_⟩
  intro pre mid post now d t d' calls denied others waited
  -- the answers come from verdicts, in the same order
  obtain ⟨pre', rest, cut, -, behind⟩ := List.map_eq_append_iff.1 calls
  obtain ⟨c, rest', rfl, first, others_last⟩ := List.map_eq_cons_iff.1 behind
  obtain ⟨mid', rest'', rfl, rfl, final⟩ := List.map_eq_append_iff.1 others_last
  obtain ⟨c', post', rfl, last, -⟩ := List.map_eq_cons_iff.1 final
  obtain ⟨now', v⟩ := c
  obtain ⟨t', v'⟩ := c'
  cases first
  cases last
  rw [decision_allowed] at denied ⊢
  cases v with
  | allowed => cases denied
  | denied left =>
    have enough := le_retryAfter left
    have allowed : v' = .allowed := by
      refine allowed_after_waiting cut (fun c mem => ?_) (Nat.le_trans (Nat.add_le_add_left enough now') waited)
      have := others _ (List.mem_map_of_mem mem)
      rwa [decision_allowed] at this
    rw [allowed]
    rfl

/-- The limiter enforces its limit on every key, whatever the other keys do. -/
theorem limit_enforced {limit windowMs : Nat} (maxKeys : Nat) (positive : 1 ≤ limit) (length : 0 < windowMs)
    {es : List Attempt} (sorted : (es.map Attempt.now).Pairwise (· ≤ ·)) (key : String) :
    EnforcesLimit ⟨limit, windowMs⟩ (ofKey key (answered check (new limit windowMs maxKeys) es)) := by
  have agree : Agrees 0 (new limit windowMs maxKeys) (new limit windowMs maxKeys) := .refl rfl 0
  have own : (timesOf key es).Pairwise (· ≤ ·) := sorted.sublist (List.filter_sublist.map _)
  rw [(agree.run sorted fun _ _ => Nat.zero_le _).1, ofKey_answered rfl]
  exact enforcesLimit_verdicts (p := ⟨limit, windowMs⟩) positive length own

theorem limit_enforced_login : EnforcesLimit ⟨2, 1500⟩
    (ofKey "a" (answered check (new 2 1500 1)
      [⟨"a", 0⟩, ⟨"b", 0⟩, ⟨"a", 10⟩, ⟨"c", 700⟩, ⟨"a", 1400⟩, ⟨"a", 2400⟩])) :=
  limit_enforced 1 (by decide) (by decide) (by decide) "a"

/-- A call in between can open a window and use it up: the second call is told
to wait a second, and a second later it is denied again. -/
theorem denied_after_waiting :
    ¬ ∀ pre mid post now d t d',
      ofKey "k" (answered check (new 1 1500 50000) [⟨"k", 0⟩, ⟨"k", 1000⟩, ⟨"k", 1500⟩, ⟨"k", 2000⟩]) =
        pre ++ (now, d) :: (mid ++ (t, d') :: post) → d.allowed = false →
      (∀ c ∈ mid, c.1 < now + 1000 * d.retryAfterSec) → now + 1000 * d.retryAfterSec ≤ t → d'.allowed = true := by
  intro law
  have := law [(0, ⟨true, 0⟩)] [(1500, ⟨true, 0⟩)] [] 1000 ⟨false, 1⟩ 2000 ⟨false, 1⟩ (by decide +kernel) rfl
    (by decide) (by decide)
  cases this

/-! ## Sweeps -/

/-- The keys with an open window. -/
def openKeys (l : RateLimiter) (now : Nat) : Nat := l.hits.values.countP fun e => now < e.resetAt

section Sweep

variable {l u : RateLimiter} {key : String} {hit : Hit} {now : Nat}

/-- What a sweep leaves is open. -/
theorem open_of_get_sweep (h : (l.sweep now).hits.get key = some hit) : now < hit.resetAt := by
  suffices all : ∀ (entries : List (String × Hit)) (hits : JsMap String Hit),
      (entries.foldl (fun hits e => if now ≥ e.2.resetAt then hits.delete e.1 else hits) hits).get key = some hit →
        hits.get key = some hit ∧ ∀ e ∈ entries, e.1 = key → now < e.2.resetAt by
    obtain ⟨stored, running⟩ := all _ _ h
    exact running (key, hit) (JsMap.mem_entries.2 stored) rfl
  intro entries
  induction entries with
  | nil => exact fun _ h => ⟨h, by simp⟩
  | cons e entries ih =>
    intro hits h
    obtain ⟨kept, running⟩ := ih _ h
    dsimp only at kept
    split at kept
    · rw [JsMap.get_delete] at kept
      split at kept
      · cases kept
      · rename_i other
        refine ⟨kept, fun e' mem same => ?_⟩
        rcases List.mem_cons.1 mem with rfl | mem
        · exact absurd same other
        · exact running e' mem same
    · rename_i running_e
      refine ⟨kept, fun e' mem same => ?_⟩
      rcases List.mem_cons.1 mem with rfl | mem
      · exact Nat.lt_of_not_le running_e
      · exact running e' mem same

theorem size_sweep (l : RateLimiter) (now : Nat) : (l.sweep now).hits.size = l.openKeys now := by
  have all : (l.sweep now).openKeys now = (l.sweep now).hits.values.length := by
    refine List.countP_eq_length.2 fun e mem => ?_
    obtain ⟨x, stored, rfl⟩ := List.mem_map.1 mem
    exact decide_eq_true (open_of_get_sweep (JsMap.mem_entries.1 stored))
  have same : (l.sweep now).openKeys now = l.openKeys now := by
    apply JsMap.count_congr
    intro key hit running
    exact ⟨get_sweep, fun stored => get_sweep_of_open stored (of_decide_eq_true running)⟩
  rw [← same, all, JsMap.values, List.length_map]
  rfl

/-- A call stores one entry at most, and a map that was too large has only open
windows by then. -/
theorem size_check_le (on : l.enabled = true) (key : String) (now : Nat) :
    (l.check key now).2.hits.size ≤ max l.maxKeys (l.openKeys now) + 1 := by
  obtain ⟨l', sw, -, spare, swept⟩ := check_eq_checkUnswept on key now
  have stored : (l.check key now).2.hits.size ≤ l'.hits.size + 1 := by
    rw [swept, checkUnswept_eq (sw.enabled.trans on)]
    exact JsMap.size_set_le _ _ _
  have before : l'.hits.size ≤ max l.maxKeys (l.openKeys now) := by
    rcases spare with ⟨spare, rfl⟩ | rfl
    · exact Nat.le_trans spare (Nat.le_max_left _ _)
    · rw [size_sweep]
      exact Nat.le_max_right _ _
  omega

theorem windowAt_eq_some : l.windowAt key = some hit.window ↔ l.hits.get key = some hit := by
  rw [windowAt, Option.map_eq_some_iff]
  constructor
  · rintro ⟨e, stored, same⟩
    cases e
    cases hit
    cases same
    exact stored
  · exact fun stored => ⟨hit, stored, rfl⟩

theorem Agrees.openKeys_eq (h : Agrees now l u) : l.openKeys now = u.openKeys now := by
  apply JsMap.count_congr
  intro key hit running
  have same := h.windows key now (Nat.le_refl _)
  have stored : ∀ l : RateLimiter, l.hits.get key = some hit ↔ openAt (l.windowAt key) now = some hit.window := by
    intro l
    rw [openAt_eq_some, windowAt_eq_some]
    exact ⟨fun h => ⟨h, of_decide_eq_true running⟩, And.left⟩
  rw [stored l, stored u, same]

theorem maxKeys_check (on : l.enabled = true) : (l.check key now).2.maxKeys = l.maxKeys := by
  obtain ⟨l', sw, same, -, swept⟩ := check_eq_checkUnswept on key now
  rw [swept, checkUnswept_eq (sw.enabled.trans on)]
  exact same

theorem maxKeys_after {es : List Attempt} (on : l.enabled = true) : (after check l es).maxKeys = l.maxKeys := by
  induction es generalizing l with
  | nil => rfl
  | cons e es ih =>
    have next := ih ((l.check_settings e.key e.now).2.trans on)
    exact next.trans (maxKeys_check on)

end Sweep

/-- Sweeping shows in no decision, and keeps the map as small as promised. The open
windows are those a limiter that never sweeps knows of before the call. -/
theorem sweep_invisible (limit windowMs maxKeys : Nat) (es : List Attempt)
    (sorted : (es.map Attempt.now).Pairwise (· ≤ ·)) :
    answered check (new limit windowMs maxKeys) es = answered checkUnswept (new limit windowMs maxKeys) es ∧
      ∀ es' e, es' ++ [e] <+: es → (after check (new limit windowMs maxKeys) (es' ++ [e])).hits.size ≤
        max maxKeys ((after checkUnswept (new limit windowMs maxKeys) es').openKeys e.now) + 1 := by
  have agree : Agrees 0 (new limit windowMs maxKeys) (new limit windowMs maxKeys) := .refl rfl 0
  refine ⟨(agree.run sorted fun _ _ => Nat.zero_le _).1, fun es' e front => ?_⟩
  have sorted' : ((es' ++ [e]).map Attempt.now).Pairwise (· ≤ ·) := sorted.sublist (front.sublist.map _)
  rw [List.map_append] at sorted'
  obtain ⟨before, -, last⟩ := List.pairwise_append.1 sorted'
  have still : Agrees e.now (after check (new limit windowMs maxKeys) es')
      (after checkUnswept (new limit windowMs maxKeys) es') := by
    refine (agree.run before fun _ _ => Nat.zero_le _).2 e.now (Nat.zero_le _) fun e' mem => ?_
    exact last e'.now (List.mem_map_of_mem mem) e.now (List.mem_map_of_mem List.mem_cons_self)
  have bound := size_check_le still.enabled e.key e.now
  have keys : (after check (new limit windowMs maxKeys) es').maxKeys = maxKeys := maxKeys_after rfl
  rw [keys, still.openKeys_eq] at bound
  rwa [after, List.foldl_append]

theorem sweep_invisible_full : (after check (new 1 10 1) [⟨"a", 0⟩, ⟨"b", 5⟩, ⟨"c", 20⟩]).hits.size ≤
    max 1 ((after checkUnswept (new 1 10 1) [⟨"a", 0⟩, ⟨"b", 5⟩]).openKeys 20) + 1 :=
  (sweep_invisible 1 10 1 [⟨"a", 0⟩, ⟨"b", 5⟩, ⟨"c", 20⟩] (by decide)).2 [⟨"a", 0⟩, ⟨"b", 5⟩] ⟨"c", 20⟩
    (List.prefix_refl _)

end RateLimiter

end ZortilWatch.Server
