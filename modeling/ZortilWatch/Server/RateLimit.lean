import ZortilWatch.Lib.JsMap

/-!
# The fixed-window rate limiter (`server/src/lib/ratelimit.ts`)

Times are milliseconds. `check` returns the decision and the limiter after it.
-/

namespace ZortilWatch.Server

structure RateDecision where
  allowed : Bool
  /-- Seconds until the window resets; 0 when allowed. -/
  retryAfterSec : Nat
  deriving DecidableEq

structure Hit where
  count : Nat
  resetAt : Nat
  deriving DecidableEq

structure RateLimiter where
  limit : Nat
  windowMs : Nat
  maxKeys : Nat := 50000
  enabled : Bool := true
  hits : JsMap String Hit := ∅
  deriving DecidableEq

namespace RateLimiter

/-- Forget the windows that have ended. -/
def sweep (l : RateLimiter) (now : Nat) : RateLimiter :=
  { l with hits := l.hits.entries.foldl (fun hits e => if now ≥ e.2.resetAt then hits.delete e.1 else hits) l.hits }

/-- Record an attempt for `key` and decide on it. -/
def check (l : RateLimiter) (key : String) (now : Nat) : RateDecision × RateLimiter :=
  if l.enabled = false then (⟨true, 0⟩, l)
  else
    let l := if l.hits.size > l.maxKeys then l.sweep now else l
    match l.hits.get key with
    | none => (⟨true, 0⟩, { l with hits := l.hits.set key ⟨1, now + l.windowMs⟩ })
    | some e =>
      if now ≥ e.resetAt then (⟨true, 0⟩, { l with hits := l.hits.set key ⟨1, now + l.windowMs⟩ })
      else
        let e := { e with count := e.count + 1 }
        let l := { l with hits := l.hits.set key e }
        -- `Math.ceil` of the milliseconds left, in seconds
        if e.count > l.limit then (⟨false, max 1 ((e.resetAt - now + 999) / 1000)⟩, l) else (⟨true, 0⟩, l)

/-- The window of `key` has not ended. -/
def windowOpen (l : RateLimiter) (key : String) (now : Nat) : Bool :=
  match l.hits.get key with
  | none => false
  | some e => now < e.resetAt

section Spec

variable {l : RateLimiter} {key key' : String} {hit : Hit} {now : Nat}

theorem windowOpen_eq_true : l.windowOpen key now = true ↔ ∃ e, l.hits.get key = some e ∧ now < e.resetAt := by
  unfold windowOpen
  cases l.hits.get key <;> simp

theorem get_sweep (h : (l.sweep now).hits.get key = some hit) : l.hits.get key = some hit := by
  suffices all : ∀ (entries : List (String × Hit)) (hits : JsMap String Hit),
      (entries.foldl (fun hits e => if now ≥ e.2.resetAt then hits.delete e.1 else hits) hits).get key = some hit →
        hits.get key = some hit from all _ _ h
  intro entries
  induction entries with
  | nil => exact fun _ h => h
  | cons e entries ih =>
    intro hits h
    have kept := ih _ h
    dsimp only at kept
    split at kept
    · rw [JsMap.get_delete] at kept
      split at kept
      · cases kept
      · exact kept
    · exact kept

/-- An open window survives the sweep. -/
theorem get_sweep_of_open (h : l.hits.get key = some hit) (hopen : now < hit.resetAt) :
    (l.sweep now).hits.get key = some hit := by
  suffices all : ∀ (entries : List (String × Hit)) (hits : JsMap String Hit),
      (∀ e ∈ entries, e.1 = key → e.2 = hit) → hits.get key = some hit →
        (entries.foldl (fun hits e => if now ≥ e.2.resetAt then hits.delete e.1 else hits) hits).get key =
          some hit by
    refine all _ _ (fun e he same => ?_) h
    have stored := JsMap.mem_entries.1 (show (e.1, e.2) ∈ l.hits.entries from he)
    rw [same, h] at stored
    cases stored
    rfl
  intro entries
  induction entries with
  | nil => exact fun _ _ h => h
  | cons e entries ih =>
    intro hits only stored
    refine ih _ (fun e' he' => only e' (List.mem_cons_of_mem _ he')) ?_
    dsimp only
    split
    · rename_i ended
      rw [JsMap.get_delete, if_neg]
      · exact stored
      · intro same
        have := only e List.mem_cons_self same
        subst this
        omega
    · exact stored

/-- What `check` looks the key up in: the limiter itself, or after a sweep. -/
structure Swept (l l' : RateLimiter) (now : Nat) : Prop where
  kept : ∀ {key hit}, l'.hits.get key = some hit → l.hits.get key = some hit
  open_kept : ∀ {key hit}, l.hits.get key = some hit → now < hit.resetAt → l'.hits.get key = some hit
  limit : l'.limit = l.limit
  windowMs : l'.windowMs = l.windowMs
  enabled : l'.enabled = l.enabled

theorem swept (l : RateLimiter) (now : Nat) :
    Swept l (if l.hits.size > l.maxKeys then l.sweep now else l) now := by
  split
  · exact ⟨get_sweep, get_sweep_of_open, rfl, rfl, rfl⟩
  · exact ⟨id, fun h _ => h, rfl, rfl, rfl⟩

/-- `check` for a key without an open window opens one and allows. -/
theorem check_closed (on : l.enabled = true) (closed : l.windowOpen key now = false) :
    (l.check key now).1.allowed = true ∧ (l.check key now).2.hits.get key = some ⟨1, now + l.windowMs⟩ := by
  have sw := l.swept now
  unfold check
  rw [if_neg (by simp [on])]
  generalize (if l.hits.size > l.maxKeys then l.sweep now else l) = l' at sw
  dsimp only
  cases hg : l'.hits.get key with
  | none => simp [sw.windowMs]
  | some e =>
    have ended : now ≥ e.resetAt := by
      by_contra running
      have : l.windowOpen key now = true := windowOpen_eq_true.2 ⟨e, sw.kept hg, by omega⟩
      rw [closed] at this
      cases this
    simp [ended, sw.windowMs]

/-- `check` in an open window counts and allows up to the limit. -/
theorem check_open (on : l.enabled = true) (stored : l.hits.get key = some hit) (hopen : now < hit.resetAt) :
    ((l.check key now).1.allowed = true ↔ hit.count + 1 ≤ l.limit) ∧
      (l.check key now).2.hits.get key = some { hit with count := hit.count + 1 } := by
  have sw := l.swept now
  unfold check
  rw [if_neg (by simp [on])]
  generalize (if l.hits.size > l.maxKeys then l.sweep now else l) = l' at sw
  dsimp only
  rw [sw.open_kept stored hopen]
  dsimp only
  rw [if_neg (by omega), sw.limit]
  split
  · rename_i beyond
    simp
    omega
  · rename_i within
    simp
    omega

/-- No other key gets an entry. -/
theorem check_other (other : key ≠ key') (h : (l.check key now).2.hits.get key' = some hit) :
    l.hits.get key' = some hit := by
  have sw := l.swept now
  unfold check at h
  split at h
  · exact h
  generalize (if l.hits.size > l.maxKeys then l.sweep now else l) = l' at sw h
  dsimp only at h
  repeat' split at h
  all_goals exact sw.kept (by simpa [JsMap.get_set_ne _ _ other] using h)

theorem check_settings (l : RateLimiter) (key : String) (now : Nat) :
    (l.check key now).2.limit = l.limit ∧ (l.check key now).2.enabled = l.enabled := by
  have sw := l.swept now
  unfold check
  split
  · exact ⟨rfl, rfl⟩
  generalize (if l.hits.size > l.maxKeys then l.sweep now else l) = l' at sw
  dsimp only
  repeat' split
  all_goals exact ⟨sw.limit, sw.enabled⟩

end Spec

end RateLimiter

end ZortilWatch.Server
