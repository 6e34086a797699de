import Mathlib.Data.List.Induction
import ZortilWatch.Core.StreamLoop

/-!
# Blanking and input lock of a session

`Blank` and `InputLock` in the stream loops and the cleanup behind them, over a
desktop on which others may block input too. The loops keep the outcome of the
last `BlockInput` call only: a lock asked for again while the session holds the
block fails and makes them forget it.
-/

namespace ZortilWatch.Core

/-- Who blocks physical input. -/
inductive Holder where
  | session
  | other
  deriving DecidableEq, Repr

structure Desktop where
  holder : Option Holder
  /-- The blanker windows shown. -/
  overlays : List Nat
  deriving DecidableEq, Repr

/-- Win32 `BlockInput` called by the session: what it leaves and whether it succeeds. -/
def blockInput (enabled rights : Bool) (holder : Option Holder) : Option Holder × Bool :=
  if enabled then
    if rights && holder.isNone then (some .session, true) else (holder, false)
  else (none, true)

/-- `input::block_physical` -/
def blockPhysical (enabled rights : Bool) (d : Desktop) : Desktop × Bool :=
  let called := blockInput enabled rights d.holder
  ({ d with holder := called.1 }, called.2)

/-- `blank::Blanker`; `hwnd` is empty where the source stores 0. -/
structure Blanker where
  hwnd : Option Nat
  deriving DecidableEq, Repr

/-- `create_overlay` gives `window`, or fails. -/
def Blanker.show (window : Option Nat) (d : Desktop) : Desktop × Blanker :=
  ({ d with overlays := window.toList ++ d.overlays }, ⟨window⟩)

/-- `close_join`: the window is closed and its thread joined. -/
def Blanker.hide (b : Blanker) (d : Desktop) : Desktop :=
  { d with overlays := d.overlays.filter (b.hwnd ≠ some ·) }

/-- What a stream loop handles, and what others do to the desktop meanwhile. -/
inductive Item where
  /-- `SESSION_BYE` -/
  | bye
  /-- A message that does not open or parse, or an event that is no matter of the desktop. -/
  | elsewhere
  | blank (enabled : Bool) (window : Option Nat)
  | inputLock (enabled rights : Bool)
  | othersBlock
  | othersUnblock
  deriving DecidableEq, Repr

def Item.isBye : Item → Bool
  | .bye => true
  | _ => false

/-- The desktop and the variables of the loops about it. -/
structure Guard where
  desktop : Desktop
  blanker : Option Blanker
  inputLocked : Bool
  deriving DecidableEq, Repr

/-- Before the first turn. -/
def Guard.start (holder : Option Holder) : Guard := ⟨⟨holder, []⟩, none, false⟩

/-- One item. Both loops have the same arms for `Blank` and `InputLock`. -/
def Guard.handle (g : Guard) : Item → Guard
  | .bye | .elsewhere => g
  | .blank enabled window =>
    if enabled && g.blanker.isNone then
      let (d, b) := Blanker.show window g.desktop
      { g with desktop := d, blanker := some b }
    else if !enabled then
      match g.blanker with
      | some b => { g with desktop := b.hide g.desktop, blanker := none }
      | none => g
    else g
  | .inputLock enabled rights =>
    let (d, ok) := blockPhysical enabled rights g.desktop
    { g with desktop := d, inputLocked := ok && enabled }
  | .othersBlock => { g with desktop.holder := if g.desktop.holder.isNone then some .other else g.desktop.holder }
  | .othersUnblock => { g with desktop.holder := none }

/-- The cleanup behind both loops. -/
def Guard.cleanup (g : Guard) : Guard :=
  let g :=
    match g.blanker with
    | some b => { g with desktop := b.hide g.desktop, blanker := none }
    | none => g
  if g.inputLocked then { g with desktop := (blockPhysical false true g.desktop).1 } else g

/-- No blanker window is shown and the session does not block input. -/
structure Desktop.Safe (d : Desktop) : Prop where
  unblanked : d.overlays = []
  free : d.holder ≠ some .session

/-! ## When the lock is forgotten -/

/-- Who blocks input after an item. -/
def holderStep (holder : Option Holder) : Item → Option Holder
  | .inputLock enabled rights => (blockInput enabled rights holder).1
  | .othersBlock => if holder.isNone then some .other else holder
  | .othersUnblock => none
  | _ => holder

/-- Items that lift a block. -/
def Item.lifts : Item → Bool
  | .inputLock false _ | .othersUnblock => true
  | _ => false

/-- The lock was asked for while the session held the block, and the block was not lifted since. -/
def Relocked (holder : Option Holder) (items : List Item) : Prop :=
  ∃ before rights after, items = before ++ .inputLock true rights :: after ∧
    before.foldl holderStep holder = some .session ∧ ∀ i ∈ after, i.lifts = false

/-- The session holds a block the loop does not know of. -/
structure Guard.Stuck (g : Guard) : Prop where
  holds : g.desktop.holder = some .session
  forgot : g.inputLocked = false

/-- The overlays are the window of the blanker kept. -/
def Guard.Tracked (g : Guard) : Prop := g.desktop.overlays = (g.blanker.bind (·.hwnd)).toList

section Items

variable (g : Guard) (holder : Option Holder)

theorem holder_handle (i : Item) : (g.handle i).desktop.holder = holderStep g.desktop.holder i := by
  cases i with
  | blank enabled window =>
    cases enabled <;> cases hb : g.blanker <;> simp [Guard.handle, hb, Blanker.show, Blanker.hide, holderStep]
  | _ => rfl

theorem holder_foldl (items : List Item) :
    (items.foldl Guard.handle g).desktop.holder = items.foldl holderStep g.desktop.holder := by
  induction items generalizing g with
  | nil => rfl
  | cons i items ih => rw [List.foldl_cons, List.foldl_cons, ih, holder_handle]

theorem tracked_handle (tracked : g.Tracked) (i : Item) : (g.handle i).Tracked := by
  unfold Guard.Tracked at *
  cases i with
  | blank enabled window =>
    cases hb : g.blanker with
    | none =>
      rw [hb] at tracked
      cases enabled <;> simp [Guard.handle, hb, Blanker.show, tracked]
    | some b =>
      rw [hb] at tracked
      cases enabled with
      | true => simpa [Guard.handle, hb] using tracked
      | false => cases hw : b.hwnd <;> simp [Guard.handle, hb, Blanker.hide, tracked, hw]
  | _ => exact tracked

theorem tracked_foldl (tracked : g.Tracked) (items : List Item) : (items.foldl Guard.handle g).Tracked := by
  induction items generalizing g with
  | nil => exact tracked
  | cons i items ih => exact ih _ (tracked_handle g tracked i)

theorem lock_blank (enabled : Bool) (window : Option Nat) :
    (g.handle (.blank enabled window)).inputLocked = g.inputLocked := by
  cases enabled <;> cases hb : g.blanker <;> simp [Guard.handle, hb]

/-- The cleanup hides the blanker and lifts a block the loop knows of. -/
theorem cleanup_safe_iff (tracked : g.Tracked) : g.cleanup.desktop.Safe ↔ ¬ g.Stuck := by
  have dark : g.cleanup.desktop.overlays = [] := by
    unfold Guard.Tracked at tracked
    cases hb : g.blanker with
    | none => cases hl : g.inputLocked <;> simp [Guard.cleanup, hb, hl, blockPhysical, tracked]
    | some b =>
      cases hw : b.hwnd <;> cases hl : g.inputLocked <;>
        simp [Guard.cleanup, hb, hl, hw, blockPhysical, Blanker.hide, tracked]
  have blocked : g.cleanup.desktop.holder = if g.inputLocked then none else g.desktop.holder := by
    cases hb : g.blanker <;> cases hl : g.inputLocked <;>
      simp [Guard.cleanup, hb, hl, blockPhysical, blockInput, Blanker.hide]
  constructor
  · intro safe stuck
    have free := safe.free
    rw [blocked, stuck.forgot] at free
    exact free stuck.holds
  · intro known
    refine ⟨dark, fun held => ?_⟩
    rw [blocked] at held
    cases hl : g.inputLocked with
    | true => rw [hl] at held; cases held
    | false => rw [hl] at held; exact known ⟨held, hl⟩

/-- A block is forgotten by a repeated lock, and stays forgotten until it is lifted. -/
theorem stuck_handle (i : Item) :
    (g.handle i).Stuck ↔
      (g.Stuck ∧ i.lifts = false) ∨ (∃ rights, i = .inputLock true rights) ∧ g.desktop.holder = some .session := by
  have stuck_iff (g : Guard) : g.Stuck ↔ g.desktop.holder = some .session ∧ g.inputLocked = false :=
    ⟨fun h => ⟨h.holds, h.forgot⟩, fun h => ⟨h.1, h.2⟩⟩
  rw [stuck_iff, stuck_iff, holder_handle]
  cases i with
  | inputLock enabled rights =>
    cases enabled with
    | false => simp [Guard.handle, blockPhysical, holderStep, blockInput, Item.lifts]
    | true =>
      cases hh : g.desktop.holder with
      | none => cases rights <;> simp [Guard.handle, blockPhysical, holderStep, blockInput, hh]
      | some who => cases who <;> simp [Guard.handle, blockPhysical, holderStep, blockInput, hh, Item.lifts]
  | blank enabled window => simp [lock_blank, holderStep, Item.lifts]
  | othersBlock => cases hh : g.desktop.holder <;> simp [Guard.handle, holderStep, hh, Item.lifts]
  | _ => simp [Guard.handle, holderStep, Item.lifts]

theorem relocked_concat (items : List Item) (i : Item) :
    Relocked holder (items ++ [i]) ↔
      (Relocked holder items ∧ i.lifts = false) ∨
        (∃ rights, i = .inputLock true rights) ∧ items.foldl holderStep holder = some .session := by
  constructor
  · rintro ⟨before, rights, after, split, held, kept⟩
    obtain rfl | ⟨after', last, rfl⟩ := List.eq_nil_or_concat' after
    · obtain ⟨rfl, last⟩ := List.append_inj' split rfl
      exact .inr ⟨⟨rights, by simpa using last⟩, held⟩
    · rw [← List.cons_append, ← List.append_assoc] at split
      obtain ⟨rfl, same⟩ := List.append_inj' split rfl
      obtain rfl : i = last := by simpa using same
      exact .inl ⟨⟨before, rights, after', rfl, held, fun j hj => kept j (by simp [hj])⟩, kept i (by simp)⟩
  · rintro (⟨⟨before, rights, after, rfl, held, kept⟩, stays⟩ | ⟨⟨rights, rfl⟩, held⟩)
    · refine ⟨before, rights, after ++ [i], by simp, held, ?_⟩
      intro j hj
      obtain hj | hj := List.mem_append.1 hj
      · exact kept j hj
      · rwa [List.mem_singleton.1 hj]
    · exact ⟨items, rights, [], rfl, held, nofun⟩

end Items

section Sessions

variable {holder : Option Holder} (free : holder ≠ some .session)
include free

/-- Over a session, the loop has forgotten a block exactly after a repeated lock. -/
theorem stuck_foldl (items : List Item) :
    (items.foldl Guard.handle (.start holder)).Stuck ↔ Relocked holder items := by
  induction items using List.reverseRecOn with
  | nil =>
    constructor
    · intro stuck
      exact absurd stuck.holds free
    · rintro ⟨before, rights, after, split, -⟩
      simp at split
  | append_singleton items i ih =>
    rw [List.foldl_append, List.foldl_cons, List.foldl_nil, stuck_handle, ih, relocked_concat, holder_foldl]
    rfl

theorem cleanup_foldl_safe (items : List Item) :
    (items.foldl Guard.handle (.start holder)).cleanup.desktop.Safe ↔ ¬ Relocked holder items := by
  rw [← stuck_foldl free]
  have tracked : (Guard.start holder).Tracked := by simp [Guard.Tracked, Guard.start]
  exact cleanup_safe_iff _ (tracked_foldl _ tracked items)

/-- However a stream loop ends, its cleanup leaves the desktop safe exactly if
the lock was not asked for again while the session held the block, or the block
was lifted after that. -/
theorem safe_after_session_iff :
    (∀ turns e g, managedLoop Item.isBye Guard.handle (.start holder) turns = some (e, g) →
      (g.cleanup.desktop.Safe ↔ ¬ Relocked holder (managedItems Item.isBye turns))) ∧
    (∀ turns e g, serviceLoop Item.isBye Guard.handle (.start holder) turns = some (e, g) →
      (g.cleanup.desktop.Safe ↔ ¬ Relocked holder (serviceItems Item.isBye turns))) := by
  constructor
  · intro turns e g ended
    rw [managedLoop_ended _ _ ended]
    exact cleanup_foldl_safe free _
  · intro turns e g ended
    rw [serviceLoop_ended _ _ ended]
    exact cleanup_foldl_safe free _

end Sessions

/-- A session that locks twice and says goodbye keeps the keyboard blocked, in both loops. -/
theorem repeated_lock_outlives_session :
    let inbox := [Item.inputLock true true, .inputLock true true, .bye]
    (∃ g, managedLoop Item.isBye Guard.handle (.start none) [{ inbox }] = some (.bye, g) ∧ ¬ g.cleanup.desktop.Safe) ∧
      ∃ g, serviceLoop Item.isBye Guard.handle (.start none) [{ inbox }] = some (.bye, g) ∧
        ¬ g.cleanup.desktop.Safe :=
  ⟨⟨_, rfl, fun safe => safe.free rfl⟩, ⟨_, rfl, fun safe => safe.free rfl⟩⟩

/-- A session that blanks, locks once and is stopped leaves nothing behind. -/
theorem single_lock_safe :
    let turns := [{ inbox := [Item.blank true (some 7), .inputLock true true] }, { stop := true }]
    ∃ g, managedLoop Item.isBye Guard.handle (.start none) turns = some (.stopped, g) ∧ g.cleanup.desktop.Safe := by
  intro turns
  have free : none ≠ some Holder.session := nofun
  refine ⟨_, rfl, ((safe_after_session_iff free).1 turns _ _ rfl).2 fun relocked => ?_⟩
  exact absurd ((stuck_foldl free _).2 relocked).forgot (by decide)

end ZortilWatch.Core
