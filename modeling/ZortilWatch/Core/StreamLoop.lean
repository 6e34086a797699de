import Mathlib.Data.List.Basic

/-!
# Control flow of the stream loops

The loops of `managed_loop` (`core/src/connection.rs`) and of the service's
`serve_session` (`service/src/main.rs`): where a turn breaks off and which
inbound items it handles. What an item does to the state of interest is the
parameter `handle`.
-/

namespace ZortilWatch.Core

/-- Why a stream loop ended. -/
inductive Exit where
  | stopped
  | dead
  | drain
  | encoder
  | bye
  | timeout
  deriving DecidableEq, Repr

/-- What one turn of `managed_loop` meets. -/
structure ManagedTurn (ι : Type) where
  stop : Bool := false
  alive : Bool := true
  /-- The first `drain` of the turn. -/
  drained : Bool := true
  encoderFails : Bool := false
  inbox : List ι := []
  drainedAfter : Bool := true

/-- What one turn of the service's loop meets. -/
structure ServiceTurn (ι : Type) where
  alive : Bool := true
  inbox : List ι := []
  encoderFails : Bool := false
  /-- `handle_input(Input::Timeout(..))` -/
  timeoutHandled : Bool := true

/-- A loop over the turns given: run `turn` until it exits; `none` while it has not. -/
def untilExit {σ τ : Type} (turn : σ → τ → σ × Option Exit) (s : σ) : List τ → Option (Exit × σ)
  | [] => none
  | t :: ts =>
    match turn s t with
    | (s', some e) => some (e, s')
    | (s', none) => untilExit turn s' ts

section Loops

variable {σ ι : Type} (isBye : ι → Bool) (handle : σ → ι → σ)

/-- One turn of `managed_loop`. The whole inbox is handled, also behind a BYE. -/
def managedTurn (s : σ) (t : ManagedTurn ι) : σ × Option Exit :=
  if t.stop then (s, some .stopped)
  else if !t.alive then (s, some .dead)
  else if !t.drained then (s, some .drain)
  else if t.encoderFails then (s, some .encoder)
  else
    let s' := t.inbox.foldl handle s
    if t.inbox.any isBye then (s', some .bye)
    else if !t.drainedAfter then (s', some .drain)
    else (s', none)

def managedLoop : σ → List (ManagedTurn ι) → Option (Exit × σ) := untilExit (managedTurn isBye handle)

/-- One turn of the service's loop. Its encoder comes behind the inbox. -/
def serviceTurn (s : σ) (t : ServiceTurn ι) : σ × Option Exit :=
  if !t.alive then (s, some .dead)
  else
    let s' := t.inbox.foldl handle s
    if t.inbox.any isBye then (s', some .bye)
    else if t.encoderFails then (s', some .encoder)
    else if !t.timeoutHandled then (s', some .timeout)
    else (s', none)

def serviceLoop : σ → List (ServiceTurn ι) → Option (Exit × σ) := untilExit (serviceTurn isBye handle)

/-- Keep an item. -/
def keep (log : List ι) (i : ι) : List ι := log ++ [i]

/-- The items `managed_loop` has handled when it ends. -/
def managedItems (turns : List (ManagedTurn ι)) : List ι :=
  ((managedLoop isBye keep [] turns).map (·.2)).getD []

/-- The items the service's loop has handled when it ends. -/
def serviceItems (turns : List (ServiceTurn ι)) : List ι :=
  ((serviceLoop isBye keep [] turns).map (·.2)).getD []

theorem foldl_keep (log items : List ι) : items.foldl keep log = log ++ items := by
  induction items generalizing log with
  | nil => simp
  | cons i items ih => simp [keep, ih]

/-- A turn does to the state what its items do, whatever the state is. -/
theorem managedTurn_keep (s : σ) (log : List ι) (t : ManagedTurn ι) :
    managedTurn isBye handle (log.foldl handle s) t =
      ((managedTurn isBye keep log t).1.foldl handle s, (managedTurn isBye keep log t).2) := by
  unfold managedTurn
  rw [foldl_keep]
  split_ifs <;> simp

theorem serviceTurn_keep (s : σ) (log : List ι) (t : ServiceTurn ι) :
    serviceTurn isBye handle (log.foldl handle s) t =
      ((serviceTurn isBye keep log t).1.foldl handle s, (serviceTurn isBye keep log t).2) := by
  unfold serviceTurn
  rw [foldl_keep]
  split_ifs <;> simp

/-- What holds of the turns holds of the loop. -/
theorem untilExit_keep {τ : Type} {turn : σ → τ → σ × Option Exit} {kept : List ι → τ → List ι × Option Exit}
    (one : ∀ s log t, turn (log.foldl handle s) t = ((kept log t).1.foldl handle s, (kept log t).2))
    (s : σ) (log : List ι) (turns : List τ) :
    untilExit turn (log.foldl handle s) turns =
      (untilExit kept log turns).map fun p => (p.1, p.2.foldl handle s) := by
  induction turns generalizing log with
  | nil => rfl
  | cons t turns ih =>
    rw [untilExit, untilExit, one]
    cases kept log t with
    | mk log' ended =>
      cases ended with
      | none => exact ih log'
      | some e => rfl

theorem managedLoop_ended {s s' : σ} {e : Exit} {turns : List (ManagedTurn ι)}
    (ended : managedLoop isBye handle s turns = some (e, s')) : s' = (managedItems isBye turns).foldl handle s := by
  have same := untilExit_keep handle (managedTurn_keep isBye handle) s [] turns
  rw [← managedLoop, ← managedLoop, List.foldl_nil, ended] at same
  obtain ⟨p, kept, hp⟩ := Option.map_eq_some_iff.1 same.symm
  simp only [Prod.mk.injEq] at hp
  simp [managedItems, kept, hp.2]

theorem serviceLoop_ended {s s' : σ} {e : Exit} {turns : List (ServiceTurn ι)}
    (ended : serviceLoop isBye handle s turns = some (e, s')) : s' = (serviceItems isBye turns).foldl handle s := by
  have same := untilExit_keep handle (serviceTurn_keep isBye handle) s [] turns
  rw [← serviceLoop, ← serviceLoop, List.foldl_nil, ended] at same
  obtain ⟨p, kept, hp⟩ := Option.map_eq_some_iff.1 same.symm
  simp only [Prod.mk.injEq] at hp
  simp [serviceItems, kept, hp.2]

end Loops

end ZortilWatch.Core
