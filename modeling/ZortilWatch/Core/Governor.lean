import Mathlib.Data.Nat.Basic
import Mathlib.Order.Iterate
import ZortilWatch.Lib.Runs

/-!
# The bitrate governor

The quality settings of `managed_loop` (`core/src/connection.rs`): the controller
sets ceilings, and every three seconds the governor moves the bitrate under them,
by the depth of the outbound queue. A change drops the encoder; the next frame
builds one with the settings of the moment.

All arithmetic is that of `u32`, and stays below its end (`Governed.no_overflow`).
-/

namespace ZortilWatch.Core

/-- The ceilings, with their defaults. -/
structure QualityParams where
  fps : UInt32 := 30
  bitrate : UInt32 := 4000000
  scale : UInt32 := 1
  deriving DecidableEq

/-- What `H264Encoder::new_scaled` is given besides the size of the frame. -/
structure EncoderSettings where
  fps : UInt32
  bitrate : UInt32
  scale : UInt32
  deriving DecidableEq

structure Governor where
  params : QualityParams := {}
  actualBitrate : UInt32 := params.bitrate
  enc : Option EncoderSettings := none
  deriving DecidableEq

/-- `Ord::clamp` -/
def clamp (x lo hi : UInt32) : UInt32 := if x < lo then lo else if hi < x then hi else x

inductive GovernorEvent where
  /-- `InputEvent::Quality`, with what the controller sends. -/
  | quality (fps bitrate scale : UInt32)
  /-- Three seconds have passed; the length of the queue. -/
  | tick (backlog : Nat)
  /-- A frame of the capture is encoded. -/
  | frame
  /-- The last frame is encoded again, with an encoder of its own. -/
  | keepAlive
  /-- `InputEvent::Monitor`, another monitor is captured. -/
  | monitor

namespace Governor

/-- The settings of an encoder built now. -/
def settings (g : Governor) : EncoderSettings := ⟨g.params.fps, g.actualBitrate, max g.params.scale 1⟩

def quality (g : Governor) (fps bitrate scale : UInt32) : Governor :=
  let next : QualityParams := ⟨clamp fps 5 60, clamp bitrate 256000 20000000, clamp scale 1 4⟩
  if next.fps ≠ g.params.fps ∨ next.bitrate ≠ g.params.bitrate ∨ next.scale ≠ g.params.scale then
    { params := next, actualBitrate := next.bitrate, enc := none }
  else g

def tick (g : Governor) (backlog : Nat) : Governor :=
  if 96 < backlog ∧ 256000 < g.actualBitrate then
    { g with actualBitrate := max (g.actualBitrate * 7 / 10) 256000, enc := none }
  else if backlog = 0 ∧ g.actualBitrate < g.params.bitrate then
    { g with actualBitrate := min (g.actualBitrate * 5 / 4) g.params.bitrate, enc := none }
  else g

def step (g : Governor) : GovernorEvent → Governor
  | .quality fps bitrate scale => g.quality fps bitrate scale
  | .tick backlog => g.tick backlog
  | .frame => if g.enc.isNone then { g with enc := some g.settings } else g
  | .keepAlive => { g with enc := some g.settings }
  | .monitor => { g with enc := none }

/-- An encoder in use does not survive the tick. -/
def resets (g : Governor) (backlog : Nat) : Bool :=
  ({ g with enc := some g.settings }.tick backlog).enc.isNone

end Governor

/-- The runs of the loop, from the defaults. -/
def governors : System Governor GovernorEvent where
  init g := g = {}
  enabled _ _ := True
  step := Governor.step

/-! ## What always holds -/

/-- The bitrate is within its bounds, and an encoder in use has the settings of
the moment. -/
structure Governed (g : Governor) : Prop where
  floor : 256000 ≤ g.actualBitrate
  ceiling : g.actualBitrate ≤ g.params.bitrate
  most : g.params.bitrate ≤ 20000000
  current : ∀ e, g.enc = some e → e = g.settings

/-- What a tick makes of the bitrate while the queue is too long. -/
def lower (bitrate : Nat) : Nat := max (bitrate * 7 / 10) 256000

/-- What a tick makes of the bitrate while the queue is empty. -/
def raise (ceiling bitrate : Nat) : Nat := min (bitrate * 5 / 4) ceiling

section Words

variable {a b lo hi : UInt32}

theorem toNat_max (a b : UInt32) : (max a b).toNat = max a.toNat b.toNat := by
  have chosen : max a b = if a ≤ b then b else a := rfl
  rw [chosen]
  split
  · rename_i le
    exact (Nat.max_eq_right (UInt32.le_iff_toNat_le.1 le)).symm
  · rename_i gt
    exact (Nat.max_eq_left (Nat.le_of_not_le fun le => gt (UInt32.le_iff_toNat_le.2 le))).symm

theorem toNat_min (a b : UInt32) : (min a b).toNat = min a.toNat b.toNat := by
  have chosen : min a b = if a ≤ b then a else b := rfl
  rw [chosen]
  split
  · rename_i le
    exact (Nat.min_eq_left (UInt32.le_iff_toNat_le.1 le)).symm
  · rename_i gt
    exact (Nat.min_eq_right (Nat.le_of_not_le fun le => gt (UInt32.le_iff_toNat_le.2 le))).symm

theorem clamp_bounds (h : lo ≤ hi) (x : UInt32) : lo ≤ clamp x lo hi ∧ clamp x lo hi ≤ hi := by
  unfold clamp
  simp only [UInt32.le_iff_toNat_le, UInt32.lt_iff_toNat_lt] at h ⊢
  split
  · exact ⟨Nat.le_refl _, h⟩
  · split
    · exact ⟨h, Nat.le_refl _⟩
    · omega

end Words

namespace Governed

variable {g : Governor}

/-- The numbers behind the words. -/
theorem numbers (h : Governed g) : 256000 ≤ g.actualBitrate.toNat ∧ g.actualBitrate.toNat ≤ g.params.bitrate.toNat ∧
    g.params.bitrate.toNat ≤ 20000000 :=
  ⟨UInt32.le_iff_toNat_le.1 h.floor, UInt32.le_iff_toNat_le.1 h.ceiling, UInt32.le_iff_toNat_le.1 h.most⟩

theorem no_overflow (h : Governed g) : (g.actualBitrate * 7).toNat = g.actualBitrate.toNat * 7 ∧
    (g.actualBitrate * 5).toNat = g.actualBitrate.toNat * 5 := by
  obtain ⟨_, _, _⟩ := h.numbers
  simp only [UInt32.toNat_mul, UInt32.reduceToNat]
  omega

theorem congested (h : Governed g) {backlog : Nat} (full : 96 < backlog) :
    (g.tick backlog).actualBitrate.toNat = lower g.actualBitrate.toNat := by
  obtain ⟨low, _, _⟩ := h.numbers
  have product := h.no_overflow.1
  unfold Governor.tick
  split
  · dsimp only
    rw [toNat_max, UInt32.toNat_div, product]
    rfl
  · rename_i least
    have : ¬ 256000 < g.actualBitrate := fun more => least ⟨full, more⟩
    simp only [UInt32.lt_iff_toNat_lt, UInt32.reduceToNat] at this
    rw [if_neg (by omega)]
    unfold lower
    omega

theorem idle (h : Governed g) :
    (g.tick 0).actualBitrate.toNat = raise g.params.bitrate.toNat g.actualBitrate.toNat := by
  obtain ⟨low, high, _⟩ := h.numbers
  have product := h.no_overflow.2
  unfold Governor.tick
  rw [if_neg (by omega)]
  split
  · dsimp only
    rw [toNat_min, UInt32.toNat_div, product]
    rfl
  · rename_i most
    have : ¬ g.actualBitrate < g.params.bitrate := fun less => most ⟨rfl, less⟩
    simp only [UInt32.lt_iff_toNat_lt] at this
    unfold raise
    omega

/-- A tick changes nothing, or moves the bitrate within its bounds and drops the
encoder. -/
theorem tick_cases (h : Governed g) (backlog : Nat) : g.tick backlog = g ∨
    (g.tick backlog).actualBitrate ≠ g.actualBitrate ∧ 256000 ≤ (g.tick backlog).actualBitrate ∧
      (g.tick backlog).actualBitrate ≤ g.params.bitrate ∧ (g.tick backlog).params = g.params ∧
      (g.tick backlog).enc = none := by
  obtain ⟨low, high, most⟩ := h.numbers
  by_cases full : 96 < backlog ∧ 256000 < g.actualBitrate
  · have down := h.congested full.1
    have above := full.2
    simp only [UInt32.lt_iff_toNat_lt, UInt32.reduceToNat] at above
    have moved : g.tick backlog = { g with actualBitrate := max (g.actualBitrate * 7 / 10) 256000, enc := none } :=
      if_pos full
    unfold lower at down
    refine .inr ⟨fun same => ?_, ?_, ?_, by rw [moved], by rw [moved]⟩
    · rw [same] at down
      omega
    · simp only [UInt32.le_iff_toNat_le, UInt32.reduceToNat, down]
      omega
    · simp only [UInt32.le_iff_toNat_le, down]
      omega
  · by_cases free : backlog = 0 ∧ g.actualBitrate < g.params.bitrate
    · obtain ⟨rfl, below⟩ := free
      have up := h.idle
      have moved : g.tick 0 =
          { g with actualBitrate := min (g.actualBitrate * 5 / 4) g.params.bitrate, enc := none } :=
        (if_neg full).trans (if_pos ⟨rfl, below⟩)
      simp only [UInt32.lt_iff_toNat_lt] at below
      unfold raise at up
      refine .inr ⟨fun same => ?_, ?_, ?_, by rw [moved], by rw [moved]⟩
      · rw [same] at up
        omega
      · simp only [UInt32.le_iff_toNat_le, UInt32.reduceToNat, up]
        omega
      · simp only [UInt32.le_iff_toNat_le, up]
        omega
    · exact .inl ((if_neg full).trans (if_neg free))

theorem tick (h : Governed g) (backlog : Nat) : Governed (g.tick backlog) := by
  rcases h.tick_cases backlog with same | ⟨-, floor, ceiling, params, enc⟩
  · rwa [same]
  · exact ⟨floor, params ▸ ceiling, params ▸ h.most, fun e used => by rw [enc] at used; cases used⟩

theorem quality (h : Governed g) (fps bitrate scale : UInt32) : Governed (g.quality fps bitrate scale) := by
  have bounds : 256000 ≤ clamp bitrate 256000 20000000 ∧ clamp bitrate 256000 20000000 ≤ 20000000 :=
    clamp_bounds (by decide) bitrate
  unfold Governor.quality
  dsimp only
  split
  · exact ⟨bounds.1, UInt32.le_refl _, bounds.2, nofun⟩
  · exact h

theorem rebuilt (h : Governed g) : Governed { g with enc := some g.settings } :=
  ⟨h.floor, h.ceiling, h.most, fun _ used => (Option.some.inj used).symm⟩

theorem step (h : Governed g) (e : GovernorEvent) : Governed (g.step e) := by
  cases e with
  | quality fps bitrate scale => exact h.quality fps bitrate scale
  | tick backlog => exact h.tick backlog
  | frame =>
    unfold Governor.step
    dsimp only
    split
    · exact h.rebuilt
    · exact h
  | keepAlive => exact h.rebuilt
  | monitor => exact ⟨h.floor, h.ceiling, h.most, nofun⟩

theorem of_reachable (reached : governors.Reachable g) : Governed g := by
  refine reached.invariant (fun g start => ?_) fun _ e _ h _ => h.step e
  cases start
  exact ⟨by decide, by decide, by decide, nofun⟩

/-- A tick moves the bitrate the same way whatever the encoder is. -/
theorem tick_enc (g : Governor) (enc : Option EncoderSettings) (backlog : Nat) :
    ({ g with enc := enc }.tick backlog).actualBitrate = (g.tick backlog).actualBitrate := by
  unfold Governor.tick
  dsimp only
  split
  · rfl
  · split <;> rfl

/-- A tick resets the encoder exactly if it changes the bitrate. -/
theorem resets_iff (h : Governed g) (backlog : Nat) :
    g.resets backlog = true ↔ (g.tick backlog).actualBitrate ≠ g.actualBitrate := by
  unfold Governor.resets
  rw [← tick_enc g (some g.settings) backlog]
  rcases h.rebuilt.tick_cases backlog with same | ⟨moved, -, -, -, enc⟩
  · rw [same]
    simp
  · rw [enc]
    simpa using moved

end Governed

/-! ## Constant conditions -/

/-- Ticks among the events. -/
def ticks (es : List GovernorEvent) : Nat := es.countP fun | .tick _ => true | _ => false

/-- No new settings come, and all ticks see a queue like `q`. -/
def Constant (q : Nat → Prop) (es : List GovernorEvent) : Prop :=
  ∀ e ∈ es, match e with
    | .tick backlog => q backlog
    | .quality .. => False
    | _ => True

/-- The ticks of a run that reset the encoder. -/
def restarts : Governor → List GovernorEvent → Nat
  | _, [] => 0
  | g, .tick backlog :: es => (if g.resets backlog then 1 else 0) + restarts (g.tick backlog) es
  | g, e :: es => restarts (g.step e) es

/-- The bitrate moves in one direction with each tick until it is `target`, at the
latest with the `n`-th, and rests there. -/
structure Settles (g : Governor) (es : List GovernorEvent) (target : UInt32) (toward : UInt32 → UInt32 → Prop)
    (n : Nat) : Prop where
  moves : ∀ {before backlog behind}, es = before ++ .tick backlog :: behind →
    (governors.after g before).actualBitrate ≠ target →
      toward (governors.after g before).actualBitrate ((governors.after g before).tick backlog).actualBitrate
  rests : ∀ {before backlog behind}, es = before ++ .tick backlog :: behind →
    (governors.after g before).actualBitrate = target →
      (governors.after g before).tick backlog = governors.after g before
  reached : n ≤ ticks es → (governors.after g es).actualBitrate = target
  few : restarts g es ≤ n

/-- Ticks of one kind act on the bitrate as `f`, which drives it to `target`. -/
structure Drives (q : Nat → Prop) (ceiling target : UInt32) (toward : UInt32 → UInt32 → Prop) (f : Nat → Nat)
    (n : Nat) : Prop where
  one : ∀ {g : Governor} {backlog : Nat}, Governed g → g.params.bitrate = ceiling → q backlog →
    (g.tick backlog).actualBitrate.toNat = f g.actualBitrate.toNat
  moves : ∀ {a a' : UInt32}, 256000 ≤ a.toNat → a.toNat ≤ ceiling.toNat → a ≠ target → a'.toNat = f a.toNat →
    toward a a'
  rests : f target.toNat = target.toNat
  reaches : ∀ {a : Nat}, 256000 ≤ a → a ≤ ceiling.toNat → f^[n] a = target.toNat

section Settling

variable {g : Governor} {q : Nat → Prop} {es : List GovernorEvent} {ceiling target : UInt32}
  {toward : UInt32 → UInt32 → Prop} {f : Nat → Nat} {n : Nat}

/-- Under constant conditions an event is a tick or leaves the bitrate alone. -/
theorem Constant.cons {e : GovernorEvent} (constant : Constant q (e :: es)) : Constant q es ∧
    ((∃ backlog, e = .tick backlog ∧ q backlog) ∨
      ∀ g : Governor, (g.step e).actualBitrate = g.actualBitrate ∧ (g.step e).params = g.params ∧
        ticks (e :: es) = ticks es ∧ restarts g (e :: es) = restarts (g.step e) es) := by
  have here := constant e List.mem_cons_self
  refine ⟨fun e' mem => constant e' (List.mem_cons_of_mem _ mem), ?_⟩
  cases e with
  | quality => exact here.elim
  | tick backlog => exact .inl ⟨backlog, rfl, here⟩
  | frame =>
    refine .inr fun g => ⟨?_, ?_, rfl, rfl⟩
    · unfold Governor.step
      dsimp only
      split <;> rfl
    · unfold Governor.step
      dsimp only
      split <;> rfl
  | keepAlive | monitor => exact .inr fun g => ⟨rfl, rfl, rfl, rfl⟩

theorem Governed.tick_params (h : Governed g) (backlog : Nat) : (g.tick backlog).params = g.params := by
  rcases h.tick_cases backlog with same | ⟨-, -, -, params, -⟩
  · rw [same]
  · exact params

theorem ticks_cons_tick (backlog : Nat) (es : List GovernorEvent) : ticks (.tick backlog :: es) = ticks es + 1 :=
  List.countP_cons_of_pos rfl

namespace Drives

/-- The bitrate behind a run is `f` applied once for each of its ticks. -/
theorem after (d : Drives q ceiling target toward f n) (h : Governed g) (same : g.params.bitrate = ceiling)
    (constant : Constant q es) :
    Governed (governors.after g es) ∧ (governors.after g es).params.bitrate = ceiling ∧
      (governors.after g es).actualBitrate.toNat = f^[ticks es] g.actualBitrate.toNat := by
  induction es generalizing g with
  | nil => exact ⟨h, same, rfl⟩
  | cons e es ih =>
    obtain ⟨later, ⟨backlog, rfl, here⟩ | neutral⟩ := constant.cons
    · have params := h.tick_params backlog
      obtain ⟨governed, same', bitrate⟩ := ih (h.tick backlog) (by rw [params, same]) later
      rw [d.one h same here, ← Function.iterate_succ_apply] at bitrate
      rw [ticks_cons_tick]
      exact ⟨governed, same', bitrate⟩
    · obtain ⟨bitrate, params, count, -⟩ := neutral g
      have rest := ih (h.step e) (by rw [params, same]) later
      rw [bitrate, ← count] at rest
      exact rest

/-- At the target a tick changes nothing. -/
theorem tick_target (d : Drives q ceiling target toward f n) (h : Governed g) (same : g.params.bitrate = ceiling)
    {backlog : Nat} (here : q backlog) (there : g.actualBitrate = target) : g.tick backlog = g := by
  rcases h.tick_cases backlog with kept | ⟨moved, -⟩
  · exact kept
  · have bitrate := d.one h same here
    rw [there, d.rests] at bitrate
    exact absurd (UInt32.toNat_inj.1 bitrate) (there ▸ moved)

/-- No more restarts than ticks it takes to the target. -/
theorem restarts_le (d : Drives q ceiling target toward f n) (h : Governed g) (same : g.params.bitrate = ceiling)
    (constant : Constant q es) {k : Nat} (there : f^[k] g.actualBitrate.toNat = target.toNat) : restarts g es ≤ k := by
  induction es generalizing g k with
  | nil => exact Nat.zero_le _
  | cons e es ih =>
    obtain ⟨later, ⟨backlog, rfl, here⟩ | neutral⟩ := constant.cons
    · have params := h.tick_params backlog
      have same' : (g.tick backlog).params.bitrate = ceiling := by rw [params, same]
      rw [restarts]
      by_cases resets : g.resets backlog = true
      · have moved := (h.resets_iff backlog).1 resets
        cases k with
        | zero =>
          have kept := d.tick_target h same here (UInt32.toNat_inj.1 there)
          exact absurd (congrArg Governor.actualBitrate kept) moved
        | succ k =>
          rw [Function.iterate_succ_apply, ← d.one h same here] at there
          have rest := ih (h.tick backlog) same' later there
          rw [if_pos resets]
          omega
      · have kept : (g.tick backlog).actualBitrate = g.actualBitrate := by
          by_contra moved
          exact resets ((h.resets_iff backlog).2 moved)
        have rest := ih (h.tick backlog) same' later (by rwa [kept])
        rw [if_neg resets]
        omega
    · obtain ⟨bitrate, params, -, count⟩ := neutral g
      rw [count]
      exact ih (h.step e) (by rw [params, same]) later (by rwa [bitrate])

theorem settles (d : Drives q ceiling target toward f n) (h : Governed g) (same : g.params.bitrate = ceiling)
    (constant : Constant q es) : Settles g es target toward n := by
  obtain ⟨low, high, -⟩ := h.numbers
  rw [same] at high
  have start := d.reaches low high
  -- the state before a tick, and the tick
  have at_tick : ∀ {before backlog behind}, es = before ++ .tick backlog :: behind →
      Governed (governors.after g before) ∧ (governors.after g before).params.bitrate = ceiling ∧ q backlog := by
    rintro before backlog behind rfl
    obtain ⟨governed, same', -⟩ := d.after h same fun e mem => constant e (List.mem_append_left _ mem)
    exact ⟨governed, same', constant _ (List.mem_append_right _ List.mem_cons_self)⟩
  refine ⟨fun cut away => ?_, fun cut there => ?_, fun enough => ?_, d.restarts_le h same constant start⟩
  · obtain ⟨governed, same', here⟩ := at_tick cut
    obtain ⟨low, high, -⟩ := governed.numbers
    exact d.moves low (same' ▸ high) away (d.one governed same' here)
  · obtain ⟨governed, same', here⟩ := at_tick cut
    exact d.tick_target governed same' here there
  · obtain ⟨-, -, bitrate⟩ := d.after h same constant
    rw [← Nat.sub_add_cancel enough, Function.iterate_add_apply, start, Function.iterate_fixed d.rests] at bitrate
    exact UInt32.toNat_inj.1 bitrate

end Drives

end Settling

/-! ## Down and up -/

theorem monotone_lower : Monotone lower := by
  intro a b le
  unfold lower
  omega

theorem monotone_raise (ceiling : Nat) : Monotone (raise ceiling) := by
  intro a b le
  unfold raise
  omega

/-- Thirteen ticks bring any bitrate down to the floor. -/
theorem drives_down {ceiling : UInt32} (most : ceiling ≤ 20000000) :
    Drives (96 < ·) ceiling 256000 (· > ·) lower 13 where
  one h _ full := h.congested full
  moves {a a'} low _ away next := by
    have : a.toNat ≠ 256000 := fun same => away (UInt32.toNat_inj.1 same)
    unfold lower at next
    simp only [gt_iff_lt, UInt32.lt_iff_toNat_lt]
    omega
  rests := by decide
  reaches {a} low high := by
    have top : a ≤ 20000000 := Nat.le_trans high (UInt32.le_iff_toNat_le.1 most)
    have above : 256000 ≤ lower^[13] a := by
      rw [Function.iterate_succ_apply']
      exact Nat.le_max_right _ _
    have below : lower^[13] a ≤ lower^[13] 20000000 := monotone_lower.iterate 13 top
    have landed : lower^[13] 20000000 = 256000 := by decide
    rw [landed] at below
    exact Nat.le_antisymm below above

/-- Under a ceiling the bitrate climbs like without, until it meets it. -/
theorem le_iterate_raise (ceiling a k : Nat) :
    min ((fun b => b * 5 / 4)^[k] a) ceiling ≤ (raise ceiling)^[k] (min a ceiling) := by
  induction k with
  | zero => exact Nat.le_refl _
  | succ k ih =>
    rw [Function.iterate_succ_apply', Function.iterate_succ_apply']
    have next := monotone_raise ceiling ih
    unfold raise at next ⊢
    omega

/-- Twenty ticks bring any bitrate up to its ceiling. -/
theorem drives_up {ceiling : UInt32} (most : ceiling ≤ 20000000) :
    Drives (· = 0) ceiling ceiling (· < ·) (raise ceiling.toNat) 20 where
  one {g backlog} h same free := by
    subst free
    rw [h.idle, same]
  moves {a a'} low high away next := by
    have : a.toNat ≠ ceiling.toNat := fun same => away (UInt32.toNat_inj.1 same)
    unfold raise at next
    simp only [UInt32.lt_iff_toNat_lt]
    omega
  rests := by
    unfold raise
    omega
  reaches {a} low high := by
    have top : ceiling.toNat ≤ 20000000 := UInt32.le_iff_toNat_le.1 most
    have below : (raise ceiling.toNat)^[20] a ≤ ceiling.toNat := by
      rw [Function.iterate_succ_apply']
      exact Nat.min_le_right _ _
    have climbed : 20000000 ≤ (fun b => b * 5 / 4)^[20] 256000 := by decide
    have above := le_iterate_raise ceiling.toNat 256000 20
    have start : (raise ceiling.toNat)^[20] (min 256000 ceiling.toNat) ≤ (raise ceiling.toNat)^[20] a :=
      (monotone_raise ceiling.toNat).iterate 20 (by omega)
    omega

/-- The governor keeps the bitrate within its bounds and its arithmetic within
`u32`, resets the encoder exactly when it changes the bitrate, and comes to rest
under constant conditions. -/
theorem governor_settles {g : Governor} (reached : governors.Reachable g) :
    (256000 ≤ g.actualBitrate ∧ g.actualBitrate ≤ g.params.bitrate ∧ g.params.bitrate ≤ 20000000) ∧
      ((g.actualBitrate * 7).toNat = g.actualBitrate.toNat * 7 ∧
        (g.actualBitrate * 5).toNat = g.actualBitrate.toNat * 5) ∧
      (∀ backlog, g.resets backlog = true ↔ (g.tick backlog).actualBitrate ≠ g.actualBitrate) ∧
      (∀ es, Constant (96 < ·) es → Settles g es 256000 (· > ·) 13) ∧
      ∀ es, Constant (· = 0) es → Settles g es g.params.bitrate (· < ·) 20 := by
  have h := Governed.of_reachable reached
  exact ⟨⟨h.floor, h.ceiling, h.most⟩, h.no_overflow, h.resets_iff,
    fun es constant => (drives_down h.most).settles h rfl constant,
    fun es constant => (drives_up h.most).settles h rfl constant⟩

/-- From the defaults, a queue that is always too long. -/
theorem governor_settles_start :
    Settles {} [.frame, .tick 97, .frame, .tick 200, .keepAlive] 256000 (· > ·) 13 :=
  (governor_settles (.init rfl)).2.2.2.1 [.frame, .tick 97, .frame, .tick 200, .keepAlive] (by
    intro e mem
    simp only [List.mem_cons, List.not_mem_nil, or_false] at mem
    rcases mem with rfl | rfl | rfl | rfl | rfl <;> decide)

end ZortilWatch.Core
