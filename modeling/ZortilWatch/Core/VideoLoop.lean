import Mathlib.Data.List.Chain
import ZortilWatch.Core.Crypto
import ZortilWatch.Core.Governor

/-!
# The picture of a session (`managed_loop`, `core/src/connection.rs`)

The loop takes frames of the monitor it captures, drops those that come too early
for the frame rate, and encodes the rest; when nothing was encoded for two seconds
it encodes its snapshot again. Settings, bitrate and monitor change in between, and
each change drops the encoder, for the next picture to build another. `Instant`s
are nanoseconds of one clock. What `H264Encoder::new_scaled` and `encode_bgra`
return comes with the event that calls them.

Every access unit shows the monitor captured at the time with the settings in force
at the time (`PictureKept`), the units of an encoder follow one another without a
gap (`UnitsChained`), and no two units come closer than the frame rate allows
(`UnitsSpaced`).
-/

namespace ZortilWatch.Core

/-- `capture::Frame`; `source` is the capture the frame comes from. -/
structure Frame where
  source : Nat
  width : UInt32
  height : UInt32
  data : Bytes
  deriving DecidableEq

/-- `encode::H264Encoder`, with a number of its own, what it was asked for and the
units it has given. -/
structure H264Encoder where
  serial : Nat
  inW : UInt32
  inH : UInt32
  width : UInt32
  height : UInt32
  settings : EncoderSettings
  units : Nat := 0
  deriving DecidableEq

/-- `H264Encoder::new_scaled` as the loop calls it: odd sizes are rounded down. -/
def H264Encoder.newScaled (serial : Nat) (f : Frame) (settings : EncoderSettings) : H264Encoder where
  serial := serial
  inW := f.width
  inH := f.height
  width := f.width / settings.scale &&& ~~~1
  height := f.height / settings.scale &&& ~~~1
  settings := settings

/-- An access unit on its way to the controller: the bytes, what they were made
from and by, and when the loop decided to and had. -/
structure VideoUnit where
  bytes : Bytes
  frame : Frame
  encoder : H264Encoder
  begun : Nat
  finished : Nat
  deriving DecidableEq

namespace VideoUnit

/-- The unit is the first one of its encoder. -/
def first (u : VideoUnit) : Prop := u.encoder.units = 0

/-- `v` may stand behind `u`: it begins the units of an encoder, or its encoder gave
`u` just before. -/
def Next (u v : VideoUnit) : Prop := v.first ∨ v.encoder = { u.encoder with units := u.encoder.units + 1 }

end VideoUnit

/-- `Duration::from_millis` -/
def fromMillis (ms : Nat) : Nat := ms * 1000000

/-- `1000 / fps.clamp(1, 240)` milliseconds. -/
def minInterval (fps : UInt32) : Nat := fromMillis (1000 / (clamp fps 1 240).toNat)

structure VideoLoop where
  /-- Which capture `capture_pair` holds. -/
  capture : Nat := 0
  activeMon : UInt32
  params : QualityParams := {}
  actualBitrate : UInt32 := params.bitrate
  governorAt : Nat
  lastEncode : Nat
  enc : Option H264Encoder := none
  lastBgra : Option Frame := none
  snapshotAt : Nat
  /-- The loop is left when an encoder cannot be built for a frame. -/
  running : Bool := true
  /-- The encoders built so far. -/
  built : Nat := 0
  /-- The latest reading of the clock. -/
  clock : Nat
  /-- The units sealed for the controller, oldest first. -/
  produced : List VideoUnit := []

inductive VideoEvent where
  /-- `rx.try_recv()` gives a frame; `encoder` and `unit` are what building an encoder
  and encoding come to. -/
  | frame (f : Frame) (now after : Nat) (encoder : Bool) (unit : Option Bytes)
  | keepAlive (now after : Nat) (encoder : Bool) (unit : Option Bytes)
  | governor (now backlog : Nat)
  | quality (fps bitrate scale : UInt32)
  /-- `InputEvent::Monitor`; `started` is whether `start_monitor` succeeds. -/
  | monitor (index : UInt32) (started : Bool)

namespace VideoLoop

/-- What the governor sees of the loop. -/
def governor (v : VideoLoop) : Governor :=
  { params := v.params, actualBitrate := v.actualBitrate, enc := v.enc.map (·.settings) }

/-- A new encoder for a frame, with the settings in force. -/
def build (v : VideoLoop) (f : Frame) : H264Encoder := .newScaled v.built f v.governor.settings

/-- `encode_bgra` with what it returns: a unit that is not empty is sealed and
queued. -/
def encode (v : VideoLoop) (e : H264Encoder) (f : Frame) (now after : Nat) : Option Bytes → VideoLoop
  | none => { v with enc := some e, clock := after }
  | some [] => { v with enc := some e, clock := after }
  | some unit =>
    { v with
      enc := some { e with units := e.units + 1 }
      lastEncode := after
      clock := after
      produced := v.produced ++ [⟨unit, f, e, now, after⟩] }

/-- A frame through the encoder in use, or through one built for it. -/
def encodeLive (v : VideoLoop) (f : Frame) (now after : Nat) (unit : Option Bytes) : VideoLoop :=
  match v.enc with
  | some e => v.encode e f now after unit
  | none => { v with built := v.built + 1 }.encode (v.build f) f now after unit

/-- The snapshot for the keep-alive, once a second. -/
def snapshot (v : VideoLoop) (f : Frame) (now : Nat) : VideoLoop :=
  if fromMillis 1000 ≤ now - v.snapshotAt then { v with snapshotAt := now, lastBgra := some f } else v

def onFrame (v : VideoLoop) (f : Frame) (now after : Nat) (encoder : Bool) (unit : Option Bytes) : VideoLoop :=
  if minInterval v.params.fps ≤ now - v.lastEncode then
    if v.enc.isNone && !encoder then { v with running := false, clock := now }
    else (v.encodeLive f now after unit).snapshot f after
  else { v with clock := now }

def onKeepAlive (v : VideoLoop) (now after : Nat) (encoder : Bool) (unit : Option Bytes) : VideoLoop :=
  if fromMillis 2000 ≤ now - v.lastEncode then
    match v.lastBgra with
    | none => { v with clock := now }
    | some f =>
      if encoder then { v with built := v.built + 1 }.encode (v.build f) f now after unit
      else { v with clock := now }
  else { v with clock := now }

def onGovernor (v : VideoLoop) (now backlog : Nat) : VideoLoop :=
  if fromMillis 3000 ≤ now - v.governorAt then
    let g := v.governor.tick backlog
    { v with
      governorAt := now
      clock := now
      actualBitrate := g.actualBitrate
      enc := if g.enc.isNone then none else v.enc }
  else { v with clock := now }

def onQuality (v : VideoLoop) (fps bitrate scale : UInt32) : VideoLoop :=
  let g := v.governor.quality fps bitrate scale
  if g.params = v.params then v
  else { v with params := g.params, actualBitrate := g.actualBitrate, enc := none, lastBgra := none }

def onMonitor (v : VideoLoop) (index : UInt32) (started : Bool) : VideoLoop :=
  if index ≠ v.activeMon ∧ started then
    { v with capture := v.capture + 1, activeMon := index, enc := none, lastBgra := none }
  else v

def step (v : VideoLoop) : VideoEvent → VideoLoop
  | .frame f now after encoder unit => v.onFrame f now after encoder unit
  | .keepAlive now after encoder unit => v.onKeepAlive now after encoder unit
  | .governor now backlog => v.onGovernor now backlog
  | .quality fps bitrate scale => v.onQuality fps bitrate scale
  | .monitor index started => v.onMonitor index started

/-- Frames come from the capture in force, and the clock does not go back. -/
def admits (v : VideoLoop) : VideoEvent → Prop
  | .frame f now after _ _ => v.running ∧ f.source = v.capture ∧ v.clock ≤ now ∧ now ≤ after
  | .keepAlive now after _ _ => v.running ∧ v.clock ≤ now ∧ now ≤ after
  | .governor now _ => v.running ∧ v.clock ≤ now
  | .quality .. => v.running
  | .monitor .. => v.running

/-- The loop as it starts at `t`: the last picture was a second ago and the last
snapshot two. -/
def start (activeMon : UInt32) (t : Nat) : VideoLoop where
  activeMon := activeMon
  governorAt := t
  lastEncode := t - fromMillis 1000
  snapshotAt := t - fromMillis 2000
  clock := t

end VideoLoop

/-- The loop, with its events in any order. -/
def videoLoop : System VideoLoop VideoEvent where
  init v := ∃ activeMon t, v = .start activeMon t
  enabled := VideoLoop.admits
  step := VideoLoop.step

namespace VideoLoop

variable {v : VideoLoop}

/-! ## Encoding -/

/-- A call of the encoder gives nothing, or one unit behind the others. -/
theorem encode_cases (v : VideoLoop) (e : H264Encoder) (f : Frame) (now after : Nat) (unit : Option Bytes) :
    v.encode e f now after unit = { v with enc := some e, clock := after } ∨
      ∃ bytes, v.encode e f now after unit =
        { v with
          enc := some { e with units := e.units + 1 }
          lastEncode := after
          clock := after
          produced := v.produced ++ [⟨bytes, f, e, now, after⟩] } := by
  match unit with
  | none => exact .inl rfl
  | some [] => exact .inl rfl
  | some (b :: bytes) => exact .inr ⟨b :: bytes, rfl⟩

@[simp] theorem capture_encode (v : VideoLoop) (e : H264Encoder) (f : Frame) (now after : Nat) (unit : Option Bytes) :
    (v.encode e f now after unit).capture = v.capture := by
  rcases v.encode_cases e f now after unit with h | ⟨_, h⟩ <;> rw [h]

/-- The encoder a frame goes through, and the loop that has it: the one in use, or one
built for the frame. -/
inductive Uses (v : VideoLoop) (f : Frame) : VideoLoop → H264Encoder → Prop where
  | inUse (e : H264Encoder) (h : v.enc = some e) : Uses v f v e
  | new : Uses v f { v with built := v.built + 1 } (v.build f)

theorem encodeLive_cases (v : VideoLoop) (f : Frame) (now after : Nat) (unit : Option Bytes) :
    ∃ w e, Uses v f w e ∧ v.encodeLive f now after unit = w.encode e f now after unit := by
  unfold encodeLive
  cases henc : v.enc with
  | none => exact ⟨_, _, .new, rfl⟩
  | some e => exact ⟨v, e, .inUse e henc, rfl⟩

/-- The loop with a reading of the clock, a decision of the governor or the end. -/
structure Quiet (v v' : VideoLoop) : Prop where
  capture : v'.capture = v.capture
  params : v'.params = v.params
  lastEncode : v'.lastEncode = v.lastEncode
  lastBgra : v'.lastBgra = v.lastBgra
  built : v'.built = v.built
  produced : v'.produced = v.produced
  clock : v.clock ≤ v'.clock
  governor : v'.governor = v.governor ∧ v'.enc = v.enc ∨
    ∃ backlog, v'.governor = v.governor.tick backlog ∧ (v'.enc = v.enc ∨ v'.enc = none)

/-- What an event may do to the loop. -/
inductive Turn (v : VideoLoop) : VideoEvent → VideoLoop → Prop where
  | quiet {e : VideoEvent} {v' : VideoLoop} (h : Quiet v v') : Turn v e v'
  /-- A frame of the capture in force, which may become the snapshot. -/
  | live (f : Frame) (now after : Nat) (encoder : Bool) (unit : Option Bytes) {w : VideoLoop} {e : H264Encoder}
      (uses : Uses v f w e) (source : f.source = v.capture) (paced : minInterval v.params.fps ≤ now - v.lastEncode)
      (due : v.clock ≤ now) (order : now ≤ after) :
      Turn v (.frame f now after encoder unit) ((w.encode e f now after unit).snapshot f after)
  /-- The snapshot, by an encoder built for it. -/
  | again (f : Frame) (now after : Nat) (unit : Option Bytes) (snapshot : v.lastBgra = some f)
      (paced : fromMillis 2000 ≤ now - v.lastEncode) (due : v.clock ≤ now) (order : now ≤ after) :
      Turn v (.keepAlive now after true unit) ({ v with built := v.built + 1 }.encode (v.build f) f now after unit)
  | settings (fps bitrate scale : UInt32) (changed : (v.governor.quality fps bitrate scale).params ≠ v.params) :
      Turn v (.quality fps bitrate scale) { v with
        params := (v.governor.quality fps bitrate scale).params
        actualBitrate := (v.governor.quality fps bitrate scale).actualBitrate
        enc := none
        lastBgra := none }
  | monitor (index : UInt32) : Turn v (.monitor index true)
      { v with capture := v.capture + 1, activeMon := index, enc := none, lastBgra := none }

theorem Quiet.refl (v : VideoLoop) : Quiet v v := ⟨rfl, rfl, rfl, rfl, rfl, rfl, Nat.le_refl _, .inl ⟨rfl, rfl⟩⟩

/-- Reading the clock. -/
theorem Quiet.read {now : Nat} (due : v.clock ≤ now) (running : Bool) :
    Quiet v { v with running := running, clock := now } :=
  ⟨rfl, rfl, rfl, rfl, rfl, rfl, due, .inl ⟨rfl, rfl⟩⟩

/-- The governor moves the bitrate and may drop the encoder. -/
theorem governor_tick (v : VideoLoop) (now backlog : Nat) :
    governor { v with
      governorAt := now
      clock := now
      actualBitrate := (v.governor.tick backlog).actualBitrate
      enc := if (v.governor.tick backlog).enc.isNone then none else v.enc } = v.governor.tick backlog := by
  have kept : (v.governor.tick backlog).params = v.params ∧
      ((v.governor.tick backlog).enc = none ∨ (v.governor.tick backlog).enc = v.enc.map (·.settings)) := by
    unfold Governor.tick
    split
    · exact ⟨rfl, .inl rfl⟩
    · split
      · exact ⟨rfl, .inl rfl⟩
      · exact ⟨rfl, .inr rfl⟩
  generalize v.governor.tick backlog = g at kept ⊢
  obtain ⟨params, rate, enc⟩ := g
  obtain ⟨rfl, rfl | rfl⟩ := kept
  · rfl
  · cases v.enc <;> simp [governor]

theorem turn_step {e : VideoEvent} (he : v.admits e) : Turn v e (v.step e) := by
  cases e with
  | frame f now after encoder unit =>
    obtain ⟨-, source, due, order⟩ := he
    simp only [step, onFrame]
    by_cases paced : minInterval v.params.fps ≤ now - v.lastEncode
    · rw [if_pos paced]
      split
      · exact .quiet (.read due false)
      · obtain ⟨w, e, uses, h⟩ := v.encodeLive_cases f now after unit
        rw [h]
        exact .live f now after encoder unit uses source paced due order
    · rw [if_neg paced]
      exact .quiet (.read due v.running)
  | keepAlive now after encoder unit =>
    obtain ⟨-, due, order⟩ := he
    simp only [step, onKeepAlive]
    by_cases paced : fromMillis 2000 ≤ now - v.lastEncode
    · rw [if_pos paced]
      split
      · exact .quiet (.read due v.running)
      · rename_i f snapshot
        cases encoder with
        | true => exact .again f now after unit snapshot paced due order
        | false => exact .quiet (.read due v.running)
    · rw [if_neg paced]
      exact .quiet (.read due v.running)
  | governor now backlog =>
    simp only [step, onGovernor]
    split
    · refine .quiet ⟨rfl, rfl, rfl, rfl, rfl, rfl, he.2, .inr ⟨backlog, governor_tick v now backlog, ?_⟩⟩
      dsimp only
      split
      · exact .inr rfl
      · exact .inl rfl
    · exact .quiet (.read he.2 v.running)
  | quality fps bitrate scale =>
    simp only [step, onQuality]
    split
    · exact .quiet (.refl v)
    · rename_i changed
      exact .settings fps bitrate scale changed
  | monitor index started =>
    simp only [step, onMonitor]
    split
    · rename_i other
      rw [other.2]
      exact .monitor index
    · exact .quiet (.refl v)

theorem snapshot_cases (v : VideoLoop) (f : Frame) (now : Nat) :
    v.snapshot f now = v ∨ v.snapshot f now = { v with snapshotAt := now, lastBgra := some f } := by
  unfold snapshot
  split
  · exact .inr rfl
  · exact .inl rfl

/-! ## The governor -/

theorem governor_encode {f : Frame} {w : VideoLoop} {e : H264Encoder} (uses : Uses v f w e) (now after : Nat)
    (unit : Option Bytes) : (w.encode e f now after unit).governor = v.governor ∨
      (w.encode e f now after unit).governor = v.governor.step .keepAlive := by
  have encoded : (w.encode e f now after unit).governor = { w.governor with enc := some e.settings } := by
    rcases w.encode_cases e f now after unit with h | ⟨_, h⟩ <;> rw [h] <;> rfl
  rw [encoded]
  cases uses with
  | inUse e henc =>
    apply Or.inl
    simp [governor, henc]
  | new => exact .inr rfl

theorem governor_snapshot (v : VideoLoop) (f : Frame) (now : Nat) : (v.snapshot f now).governor = v.governor := by
  rcases snapshot_cases v f now with h | h <;> rw [h]
  rfl

/-- The loop runs the governor. -/
theorem governor_reachable (hr : videoLoop.Reachable v) : governors.Reachable v.governor := by
  refine hr.invariant (P := fun v => governors.Reachable v.governor) (fun v0 h0 => ?_) fun v0 e _ reached he => ?_
  · obtain ⟨activeMon, t, rfl⟩ := h0
    exact .init rfl
  have ran (g : GovernorEvent) : governors.Reachable (v0.governor.step g) := .step reached trivial
  have encoded {f : Frame} {w : VideoLoop} {e : H264Encoder} (uses : Uses v0 f w e) (now after : Nat)
      (unit : Option Bytes) : governors.Reachable (w.encode e f now after unit).governor := by
    rcases governor_encode uses now after unit with same | same
    · rw [same]
      exact reached
    · rw [same]
      exact ran .keepAlive
  show governors.Reachable (v0.step e).governor
  generalize hv' : v0.step e = v'
  have turn : Turn v0 e v' := hv' ▸ turn_step he
  cases turn with
  | quiet q =>
    rcases q.governor with ⟨same, -⟩ | ⟨backlog, ticked, -⟩
    · exact same ▸ reached
    · exact ticked ▸ ran (.tick backlog)
  | live f now after encoder unit uses source paced due order =>
    rw [governor_snapshot]
    exact encoded uses now after unit
  | again f now after unit snapshot paced due order => exact encoded .new now after unit
  | settings fps bitrate scale changed =>
    have dropped : (v0.governor.quality fps bitrate scale).enc = none := by
      unfold Governor.quality at changed ⊢
      dsimp only at changed ⊢
      split at changed
      · rename_i differs
        rw [if_pos differs]
      · exact absurd rfl changed
    have same : ({ v0 with
        params := (v0.governor.quality fps bitrate scale).params
        actualBitrate := (v0.governor.quality fps bitrate scale).actualBitrate
        enc := none
        lastBgra := none } : VideoLoop).governor = v0.governor.step (.quality fps bitrate scale) := by
      show Governor.mk _ _ none = v0.governor.quality fps bitrate scale
      rw [← dropped]
    exact same ▸ ran _
  | monitor index => exact ran .monitor

/-! ## The picture -/

end VideoLoop

/-- The encoder gives the frames it takes scaled down, rounded to even sizes. -/
structure H264Encoder.Scaled (e : H264Encoder) : Prop where
  width : e.width = e.inW / e.settings.scale &&& ~~~1
  height : e.height = e.inH / e.settings.scale &&& ~~~1

namespace VideoLoop

/-- The encoder in use scales by its settings, and the snapshot is of the capture in
force; both have a size that `fits` the capture. -/
structure PictureKept (fits : Nat → UInt32 × UInt32 → Prop) (v : VideoLoop) : Prop where
  encoder : ∀ e, v.enc = some e → e.Scaled ∧ fits v.capture (e.inW, e.inH)
  snapshot : ∀ f, v.lastBgra = some f → f.source = v.capture ∧ fits v.capture (f.width, f.height)

/-- The unit shows the capture in force, with the settings in force. -/
structure Shows (v : VideoLoop) (u : VideoUnit) : Prop where
  source : u.frame.source = v.capture
  settings : u.encoder.settings = v.governor.settings
  scaled : u.encoder.Scaled

/-- A frame has a size that fits its capture. -/
def fitted (fits : Nat → UInt32 × UInt32 → Prop) (_ : VideoLoop) : VideoEvent → Prop
  | .frame f .. => fits f.source (f.width, f.height)
  | _ => True

/-- A frame has the size of its capture. -/
def sized (size : Nat → UInt32 × UInt32) : VideoLoop → VideoEvent → Prop := fitted fun c s => s = size c

namespace PictureKept

variable {fits : Nat → UInt32 × UInt32 → Prop}

/-- The encoder an event uses is one for the settings in force and a size that fits. -/
theorem of_uses (h : PictureKept fits v) (governed : Governed v.governor) {f : Frame}
    (hf : fits v.capture (f.width, f.height)) {w : VideoLoop} {e : H264Encoder} (uses : Uses v f w e) :
    PictureKept fits w ∧ w.capture = v.capture ∧ e.Scaled ∧ fits v.capture (e.inW, e.inH) ∧
      e.settings = v.governor.settings := by
  cases uses with
  | inUse e henc =>
    obtain ⟨scaled, fit⟩ := h.encoder e henc
    refine ⟨h, rfl, scaled, fit, governed.current _ ?_⟩
    simp [governor, henc]
  | new => exact ⟨⟨h.encoder, h.snapshot⟩, rfl, ⟨rfl, rfl⟩, hf, rfl⟩

theorem encode (h : PictureKept fits v) {e : H264Encoder} (scaled : e.Scaled) (fit : fits v.capture (e.inW, e.inH))
    (f : Frame) (now after : Nat) (unit : Option Bytes) : PictureKept fits (v.encode e f now after unit) := by
  rcases v.encode_cases e f now after unit with same | ⟨bytes, same⟩
  · rw [same]
    exact ⟨fun e' used => Option.some.inj used ▸ ⟨scaled, fit⟩, h.snapshot⟩
  · rw [same]
    refine ⟨fun e' used => ?_, h.snapshot⟩
    cases used
    exact ⟨⟨scaled.width, scaled.height⟩, fit⟩

theorem quiet (h : PictureKept fits v) {v' : VideoLoop} (q : Quiet v v') : PictureKept fits v' := by
  refine ⟨fun e used => ?_, fun f kept => ?_⟩
  · have before : v.enc = some e := by
      rcases q.governor with ⟨-, same⟩ | ⟨-, -, same | none_⟩
      · exact same ▸ used
      · exact same ▸ used
      · rw [none_] at used
        cases used
    exact q.capture ▸ h.encoder e before
  · exact q.capture ▸ h.snapshot f (q.lastBgra ▸ kept)

/-- What one event adds: at most one unit, which shows the picture, and of a frame and by
an encoder whose sizes fit. -/
structure Adds (fits : Nat → UInt32 × UInt32 → Prop) (v : VideoLoop) (new : List VideoUnit) : Prop where
  one : new.length ≤ 1
  shows : ∀ u ∈ new, Shows v u
  sizes : ∀ u ∈ new, fits v.capture (u.frame.width, u.frame.height) ∧ fits v.capture (u.encoder.inW, u.encoder.inH)

theorem Adds.nothing : Adds fits v [] where
  one := Nat.zero_le 1
  shows _ mem := absurd mem List.not_mem_nil
  sizes _ mem := absurd mem List.not_mem_nil

/-- What encoding a frame of the capture in force adds shows it. -/
theorem adds_encode (h : PictureKept fits v) (governed : Governed v.governor) {f : Frame}
    (source : f.source = v.capture) (hf : fits v.capture (f.width, f.height)) {w : VideoLoop} {e : H264Encoder}
    (uses : Uses v f w e) (now after : Nat) (unit : Option Bytes) :
    PictureKept fits (w.encode e f now after unit) ∧
      ∃ new, (w.encode e f now after unit).produced = v.produced ++ new ∧ Adds fits v new := by
  obtain ⟨kept, capture, scaled, fit, settings⟩ := h.of_uses governed hf uses
  have produced : w.produced = v.produced := by cases uses <;> rfl
  refine ⟨kept.encode scaled (by rw [capture]; exact fit) f now after unit, ?_⟩
  rcases w.encode_cases e f now after unit with none_ | ⟨bytes, one⟩
  · exact ⟨[], by rw [none_, List.append_nil]; exact produced, .nothing⟩
  · refine ⟨[⟨bytes, f, e, now, after⟩], by rw [one]; exact congrArg (· ++ _) produced,
      Nat.le_refl 1, fun u mem => ?_, fun u mem => ?_⟩
    · rw [List.mem_singleton.1 mem]
      exact ⟨source, settings, scaled⟩
    · rw [List.mem_singleton.1 mem]
      exact ⟨hf, fit⟩

/-- A step keeps the picture, and the unit it adds shows it. -/
theorem step (h : PictureKept fits v) (governed : Governed v.governor) {e : VideoEvent} (he : v.admits e)
    (fit : fitted fits v e) :
    PictureKept fits (v.step e) ∧ ∃ new, (v.step e).produced = v.produced ++ new ∧ Adds fits v new := by
  have none_ {v' : VideoLoop} (same : v'.produced = v.produced) :
      ∃ new, v'.produced = v.produced ++ new ∧ Adds fits v new :=
    ⟨[], by rw [same, List.append_nil], .nothing⟩
  generalize hv' : v.step e = v'
  have turn : Turn v e v' := hv' ▸ turn_step he
  cases turn with
  | quiet q => exact ⟨h.quiet q, none_ q.produced⟩
  | @live f now after encoder unit w enc uses source paced due order =>
    have hf : fits v.capture (f.width, f.height) := source ▸ fit
    obtain ⟨kept, adds⟩ := h.adds_encode governed source hf uses now after unit
    have capture := (h.of_uses governed hf uses).2.1
    rcases snapshot_cases _ f after with same | same
    · rw [same]
      exact ⟨kept, adds⟩
    · rw [same]
      refine ⟨⟨kept.encoder, fun f' snap => ?_⟩, adds⟩
      cases snap
      have same : (w.encode enc f now after unit).capture = v.capture := (capture_encode ..).trans capture
      refine ⟨source.trans same.symm, ?_⟩
      show fits (w.encode enc f now after unit).capture (f.width, f.height)
      rw [same]
      exact hf
  | again f now after unit snapshot paced due order =>
    obtain ⟨source, hf⟩ := h.snapshot f snapshot
    exact h.adds_encode governed source hf .new now after unit
  | settings => exact ⟨⟨nofun, nofun⟩, none_ rfl⟩
  | monitor => exact ⟨⟨nofun, nofun⟩, none_ rfl⟩

/-- What a run keeps, and what the next event adds to it. -/
theorem of_reachable (hr : (videoLoop.restrict (fitted fits)).Reachable v) : PictureKept fits v := by
  refine hr.invariant (fun v0 h0 => ?_) fun v0 e hr kept he => ?_
  · obtain ⟨activeMon, t, rfl⟩ := h0
    exact ⟨nofun, nofun⟩
  · exact (kept.step (.of_reachable (governor_reachable hr.of_restrict)) he.1 he.2).1

theorem adds_of_reachable (hr : (videoLoop.restrict (fitted fits)).Reachable v) {e : VideoEvent} (he : v.admits e)
    (fit : fitted fits v e) : ∃ new, (v.step e).produced = v.produced ++ new ∧ Adds fits v new :=
  ((of_reachable hr).step (.of_reachable (governor_reachable hr.of_restrict)) he fit).2

end PictureKept

/-- What an event adds to any run. -/
theorem adds_step (hr : videoLoop.Reachable v) {e : VideoEvent} (he : v.admits e) :
    ∃ new, (v.step e).produced = v.produced ++ new ∧ PictureKept.Adds (fun _ _ => True) v new := by
  have free (v : VideoLoop) (e : VideoEvent) : fitted (fun _ _ => True) v e := by cases e <;> trivial
  exact PictureKept.adds_of_reachable (hr.restrict free) he (free v e)

/-- In every run, every unit an event adds was made from a frame of the monitor captured
then (also when the snapshot is encoded again), by an encoder built for the frame rate,
bitrate and scale in force. If the frames of a capture keep its size, the encoder was
built for the size of the frame. -/
theorem units_show_settings (hr : videoLoop.Reachable v) {e : VideoEvent} (he : v.admits e) :
    ∃ new, (v.step e).produced = v.produced ++ new ∧ (∀ u ∈ new, Shows v u) ∧
      ∀ size, (videoLoop.restrict (sized size)).Reachable v → sized size v e →
        ∀ u ∈ new, (u.encoder.inW, u.encoder.inH) = (u.frame.width, u.frame.height) := by
  obtain ⟨new, added, adds⟩ := adds_step hr he
  refine ⟨new, added, adds.shows, fun size kept fit u mem => ?_⟩
  obtain ⟨new', added', adds'⟩ := PictureKept.adds_of_reachable kept he fit
  have same : new' = new := List.append_cancel_left (added'.symm.trans added)
  obtain ⟨frame, encoder⟩ := adds'.sizes u (same ▸ mem)
  exact encoder.trans frame.symm

section Sample

/-- A monitor of 5×3 and one of 8×6. -/
def sampleSize (capture : Nat) : UInt32 × UInt32 := if capture = 0 then (5, 3) else (8, 6)

/-- A picture of the first monitor, the switch to the second, and a picture of that. -/
def sampleVideo : List VideoEvent :=
  [.frame ⟨0, 5, 3, []⟩ 5000000000 5001000000 true (some [0, 0, 1, 0x67]), .monitor 1 true,
    .frame ⟨1, 8, 6, []⟩ 5100000000 5101000000 true (some [0, 0, 1, 0x67])]

theorem sampleVideo_valid : (videoLoop.restrict (sized sampleSize)).Valid (.start 0 5000000000) sampleVideo := by
  refine ⟨⟨⟨rfl, rfl, ?_, ?_⟩, rfl⟩, ⟨rfl, trivial⟩, ⟨⟨rfl, rfl, ?_, ?_⟩, rfl⟩, trivial⟩ <;> decide

/-- The second monitor stands still for two seconds, and its picture is sent again. -/
theorem units_show_settings_still :
    let v := (videoLoop.restrict (sized sampleSize)).after (.start 0 5000000000) sampleVideo
    ∃ new, (v.step (.keepAlive 8000000000 8001000000 true (some [0, 0, 1, 0x67]))).produced = v.produced ++ new ∧
      (∀ u ∈ new, Shows v u) ∧
      ∀ u ∈ new, (u.encoder.inW, u.encoder.inH) = (u.frame.width, u.frame.height) := by
  intro v
  have start : (videoLoop.restrict (sized sampleSize)).Reachable (.start 0 5000000000) := .init ⟨0, _, rfl⟩
  have reached := start.after sampleVideo_valid
  obtain ⟨new, added, shows, sizes⟩ := units_show_settings reached.of_restrict (e :=
    .keepAlive 8000000000 8001000000 true (some [0, 0, 1, 0x67])) ⟨rfl, by decide, by decide⟩
  exact ⟨new, added, shows, sizes sampleSize reached trivial⟩

end Sample

/-! ## The units of an encoder -/

/-- The next unit of the encoder can stand behind what was produced: the encoder is
new, or it gave the last unit. -/
def Ready (v : VideoLoop) (e : H264Encoder) : Prop :=
  (e.units = 0 ∧ ∀ u ∈ v.produced, u.encoder.serial < e.serial) ∨
    ∃ u ∈ v.produced.getLast?, e = { u.encoder with units := u.encoder.units + 1 }

/-- Units of one encoder follow one another from its first, and no encoder is taken
up again. -/
structure UnitsChained (v : VideoLoop) : Prop where
  first : ∀ u ∈ v.produced.head?, u.first
  chain : v.produced.IsChain VideoUnit.Next
  apart : v.produced.Pairwise fun u u' => u'.first → u.encoder.serial < u'.encoder.serial
  numbered : ∀ u ∈ v.produced, u.encoder.serial < v.built
  encoder : ∀ e, v.enc = some e → e.serial < v.built ∧ v.Ready e

namespace UnitsChained

theorem of_quiet (h : UnitsChained v) {v' : VideoLoop} (produced : v'.produced = v.produced)
    (built : v.built ≤ v'.built)
    (enc : v'.enc = v.enc ∨ v'.enc = none) : UnitsChained v' := by
  refine ⟨produced ▸ h.first, produced ▸ h.chain, produced ▸ h.apart, fun u mem => ?_, fun e used => ?_⟩
  · exact Nat.lt_of_lt_of_le (h.numbered u (produced ▸ mem)) built
  · rcases enc with same | none_
    · obtain ⟨known, ready⟩ := h.encoder e (same ▸ used)
      exact ⟨Nat.lt_of_lt_of_le known built, by unfold Ready; rw [produced]; exact ready⟩
    · rw [none_] at used
      cases used

theorem encode (h : UnitsChained v) {e : H264Encoder} (known : e.serial < v.built) (ready : v.Ready e) (f : Frame)
    (now after : Nat) (unit : Option Bytes) : UnitsChained (v.encode e f now after unit) := by
  rcases v.encode_cases e f now after unit with same | ⟨bytes, same⟩
  · rw [same]
    refine ⟨h.first, h.chain, h.apart, h.numbered, fun e' used => ?_⟩
    cases used
    exact ⟨known, ready⟩
  · rw [same]
    have next : ∀ u ∈ v.produced.getLast?, u.Next ⟨bytes, f, e, now, after⟩ := by
      intro u last
      rcases ready with ⟨new, -⟩ | ⟨u', last', continues⟩
      · exact .inl new
      · cases last.symm.trans last'
        exact .inr continues
    refine ⟨fun u head => ?_, ?_, ?_, fun u mem => ?_, fun e' used => ?_⟩
    · cases hp : v.produced with
      | nil =>
        dsimp only at head
        rw [hp] at head
        cases head
        rcases ready with ⟨new, -⟩ | ⟨u', last', -⟩
        · exact new
        · rw [hp] at last'
          cases last'
      | cons u' us =>
        dsimp only at head
        rw [hp] at head
        exact h.first u (by rw [hp]; exact head)
    · apply h.chain.append (List.isChain_singleton _)
      intro u last u' head
      cases head
      exact next u last
    · refine List.pairwise_append.2 ⟨h.apart, List.pairwise_singleton .., fun u mem u' new => ?_⟩
      rw [List.mem_singleton.1 new]
      intro (begins : e.units = 0)
      rcases ready with ⟨-, apart⟩ | ⟨u', -, rfl⟩
      · exact apart u mem
      · cases begins
    · rcases List.mem_append.1 mem with mem | mem
      · exact h.numbered u mem
      · rw [List.mem_singleton.1 mem]
        exact known
    · cases used
      exact ⟨known, .inr ⟨_, List.getLast?_concat, rfl⟩⟩

/-- A new encoder is unlike those before. -/
theorem build (h : UnitsChained v) (f : Frame) :
    UnitsChained { v with built := v.built + 1 } ∧ (v.build f).serial < v.built + 1 ∧
      Ready { v with built := v.built + 1 } (v.build f) :=
  ⟨h.of_quiet rfl (Nat.le_succ _) (.inl rfl), Nat.lt_succ_self _, .inl ⟨rfl, h.numbered⟩⟩

theorem step (h : UnitsChained v) {e : VideoEvent} (he : v.admits e) : UnitsChained (v.step e) := by
  generalize hv' : v.step e = v'
  have turn : Turn v e v' := hv' ▸ turn_step he
  cases turn with
  | quiet q =>
    refine h.of_quiet q.produced (Nat.le_of_eq q.built.symm) ?_
    rcases q.governor with ⟨-, same⟩ | ⟨-, -, either⟩
    · exact .inl same
    · exact either
  | @live f now after encoder unit w enc uses source paced due order =>
    have encoded : UnitsChained (w.encode enc f now after unit) := by
      cases uses with
      | inUse enc henc => exact h.encode (h.encoder enc henc).1 (h.encoder enc henc).2 f now after unit
      | new =>
        obtain ⟨chained, known, ready⟩ := h.build f
        exact chained.encode known ready f now after unit
    rcases snapshot_cases _ f after with same | same
    · rw [same]
      exact encoded
    · rw [same]
      exact encoded.of_quiet rfl (Nat.le_refl _) (.inl rfl)
  | again f now after unit snapshot paced due order =>
    obtain ⟨chained, known, ready⟩ := h.build f
    exact chained.encode known ready f now after unit
  | settings fps bitrate scale changed => exact h.of_quiet rfl (Nat.le_refl _) (.inr rfl)
  | monitor index => exact h.of_quiet rfl (Nat.le_refl _) (.inr rfl)

theorem of_reachable (hr : videoLoop.Reachable v) : UnitsChained v := by
  refine hr.invariant (fun v0 h0 => ?_) fun v0 e _ h he => h.step he
  obtain ⟨activeMon, t, rfl⟩ := h0
  exact ⟨nofun, .nil, .nil, nofun, nofun⟩

end UnitsChained

/-! ## The pace -/

/-- The frame rate stays within its bounds. -/
theorem fps_bounds {g : Governor} (reached : governors.Reachable g) : 5 ≤ g.params.fps ∧ g.params.fps ≤ 60 := by
  refine reached.invariant (P := fun g => 5 ≤ g.params.fps ∧ g.params.fps ≤ 60) (fun g start => ?_) fun g e _ h _ => ?_
  · cases start
    decide
  cases e with
  | quality fps bitrate scale =>
    show 5 ≤ (g.quality fps bitrate scale).params.fps ∧ (g.quality fps bitrate scale).params.fps ≤ 60
    unfold Governor.quality
    dsimp only
    split
    · exact clamp_bounds (by decide) fps
    · exact h
  | tick backlog =>
    show 5 ≤ (g.tick backlog).params.fps ∧ (g.tick backlog).params.fps ≤ 60
    unfold Governor.tick
    split
    · exact h
    · split <;> exact h
  | frame =>
    have same : (g.step .frame).params = g.params := by
      simp only [Governor.step]
      split <;> rfl
    exact same ▸ h
  | keepAlive => exact h
  | monitor => exact h

theorem clamp_mono {a b lo hi : UInt32} (h : a ≤ b) (ordered : lo ≤ hi) : clamp a lo hi ≤ clamp b lo hi := by
  unfold clamp
  simp only [UInt32.le_iff_toNat_le, UInt32.lt_iff_toNat_lt] at h ordered ⊢
  repeat' split
  all_goals omega

/-- A higher frame rate needs no longer interval. -/
theorem minInterval_anti {a b : UInt32} (h : a ≤ b) : minInterval b ≤ minInterval a := by
  have mono : clamp a 1 240 ≤ clamp b 1 240 := clamp_mono h (by decide)
  have least : 1 ≤ clamp a 1 240 ∧ clamp a 1 240 ≤ 240 := clamp_bounds (by decide) a
  apply Nat.mul_le_mul_right
  exact Nat.div_le_div_left (UInt32.le_iff_toNat_le.1 mono) (UInt32.le_iff_toNat_le.1 least.1)

theorem minInterval_pos (fps : UInt32) : 0 < minInterval fps := by
  have bounds : 1 ≤ clamp fps 1 240 ∧ clamp fps 1 240 ≤ 240 := clamp_bounds (by decide) fps
  have least : 1 ≤ (clamp fps 1 240).toNat := UInt32.le_iff_toNat_le.1 bounds.1
  have most : (clamp fps 1 240).toNat ≤ 240 := UInt32.le_iff_toNat_le.1 bounds.2
  have : 0 < 1000 / (clamp fps 1 240).toNat := Nat.div_pos (by omega) least
  unfold minInterval fromMillis
  omega

theorem minInterval_le (fps : UInt32) : minInterval fps ≤ fromMillis 2000 := by
  have : 1000 / (clamp fps 1 240).toNat ≤ 1000 := Nat.div_le_self ..
  unfold minInterval fromMillis
  omega

/-- No unit is begun before the interval of its frame rate has passed since the units
before it. -/
structure UnitsSpaced (v : VideoLoop) : Prop where
  spaced : v.produced.Pairwise fun u u' => u.finished + minInterval u'.encoder.settings.fps ≤ u'.begun
  done : ∀ u ∈ v.produced, u.begun ≤ u.finished ∧ u.finished ≤ v.lastEncode
  rate : ∀ u ∈ v.produced, u.encoder.settings.fps ≤ 60
  clock : v.lastEncode ≤ v.clock

namespace UnitsSpaced

theorem of_same (h : UnitsSpaced v) {v' : VideoLoop} (produced : v'.produced = v.produced)
    (lastEncode : v'.lastEncode = v.lastEncode) (clock : v.clock ≤ v'.clock) : UnitsSpaced v' := by
  refine ⟨produced ▸ h.spaced, fun u mem => ?_, produced ▸ h.rate, ?_⟩
  · rw [lastEncode]
    exact h.done u (produced ▸ mem)
  · rw [lastEncode]
    exact Nat.le_trans h.clock clock

theorem encode (h : UnitsSpaced v) {e : H264Encoder} (f : Frame) {now after : Nat}
    (paced : minInterval e.settings.fps ≤ now - v.lastEncode) (rate : e.settings.fps ≤ 60) (due : v.clock ≤ now)
    (order : now ≤ after) (unit : Option Bytes) : UnitsSpaced (v.encode e f now after unit) := by
  have since := h.clock
  rcases v.encode_cases e f now after unit with same | ⟨bytes, same⟩
  · rw [same]
    exact h.of_same rfl rfl (Nat.le_trans due order)
  · rw [same]
    refine ⟨?_, fun u mem => ?_, fun u mem => ?_, Nat.le_refl _⟩
    · refine List.pairwise_append.2 ⟨h.spaced, List.pairwise_singleton .., fun u mem u' new => ?_⟩
      rw [List.mem_singleton.1 new]
      show u.finished + minInterval e.settings.fps ≤ now
      have before := (h.done u mem).2
      omega
    · show u.begun ≤ u.finished ∧ u.finished ≤ after
      rcases List.mem_append.1 mem with mem | mem
      · have before := h.done u mem
        omega
      · rw [List.mem_singleton.1 mem]
        exact ⟨order, Nat.le_refl _⟩
    · rcases List.mem_append.1 mem with mem | mem
      · exact h.rate u mem
      · rw [List.mem_singleton.1 mem]
        exact rate

theorem step (h : UnitsSpaced v) (reached : governors.Reachable v.governor) {e : VideoEvent} (he : v.admits e) :
    UnitsSpaced (v.step e) := by
  have rate : v.governor.params.fps ≤ 60 := (fps_bounds reached).2
  -- a frame goes through an encoder of the frame rate in force
  have through {f : Frame} {w : VideoLoop} {enc : H264Encoder} (uses : Uses v f w enc) {now after : Nat}
      (unit : Option Bytes) (paced : minInterval v.params.fps ≤ now - v.lastEncode) (due : v.clock ≤ now)
      (order : now ≤ after) : UnitsSpaced (w.encode enc f now after unit) := by
    cases uses with
    | inUse enc henc =>
      have settings : enc.settings = v.governor.settings :=
        (Governed.of_reachable reached).current _ (by simp [governor, henc])
      apply h.encode f _ _ due order unit
      · rw [settings]
        exact paced
      · rw [settings]
        exact rate
    | new =>
      have counted : UnitsSpaced { v with built := v.built + 1 } := h.of_same rfl rfl (Nat.le_refl _)
      have settings : (v.build f).settings = v.governor.settings := rfl
      apply counted.encode f _ _ due order unit
      · rw [settings]
        exact paced
      · rw [settings]
        exact rate
  generalize hv' : v.step e = v'
  have turn : Turn v e v' := hv' ▸ turn_step he
  cases turn with
  | quiet q => exact h.of_same q.produced q.lastEncode q.clock
  | @live f now after encoder unit w enc uses source paced due order =>
    have encoded := through uses unit paced due order
    rcases snapshot_cases (w.encode enc f now after unit) f after with same | same
    · rw [same]
      exact encoded
    · rw [same]
      exact encoded.of_same rfl rfl (Nat.le_refl _)
  | again f now after unit snapshot paced due order =>
    exact through .new unit (Nat.le_trans (minInterval_le _) paced) due order
  | settings => exact h.of_same rfl rfl (Nat.le_refl _)
  | monitor => exact h.of_same rfl rfl (Nat.le_refl _)

theorem of_reachable (hr : videoLoop.Reachable v) : UnitsSpaced v := by
  refine hr.invariant (fun v0 h0 => ?_) fun v0 e hr h he => h.step (governor_reachable hr) he
  obtain ⟨activeMon, t, rfl⟩ := h0
  exact ⟨.nil, nofun, nofun, Nat.sub_le ..⟩

end UnitsSpaced

/-- Times a gap apart that fit in an interval are few. -/
theorem length_of_spaced {α : Type*} {at_ : α → Nat} {gap : Nat} {l : List α} {lo hi : Nat}
    (spaced : l.Pairwise fun x y => at_ x + gap ≤ at_ y) (within : ∀ x ∈ l, lo ≤ at_ x ∧ at_ x ≤ hi) (some_ : l ≠ []) :
    lo + (l.length - 1) * gap ≤ hi := by
  induction l generalizing lo with
  | nil => exact absurd rfl some_
  | cons x xs ih =>
    have first := within x List.mem_cons_self
    obtain ⟨behind, rest⟩ := List.pairwise_cons.1 spaced
    cases xs with
    | nil =>
      simp only [List.length_singleton, Nat.sub_self, Nat.zero_mul]
      omega
    | cons y ys =>
      have later : ∀ z ∈ y :: ys, lo + gap ≤ at_ z ∧ at_ z ≤ hi := fun z mem =>
        ⟨Nat.le_trans (Nat.add_le_add_right first.1 gap) (behind z mem),
          (within z (List.mem_cons_of_mem _ mem)).2⟩
      have few := ih rest later (List.cons_ne_nil _ _)
      simp only [List.length_cons, Nat.add_sub_cancel] at few ⊢
      rw [Nat.succ_mul]
      omega

/-- The units begun from `t` on within `T` nanoseconds. -/
def window (v : VideoLoop) (t T : Nat) : List VideoUnit := v.produced.filter fun u => t ≤ u.begun ∧ u.begun ≤ t + T

/-- Of the units begun within any `T` nanoseconds, all at a frame rate of at most `fps`,
there are no more than `T` over the interval of that rate, and one. -/
theorem UnitsSpaced.window_length (h : UnitsSpaced v) {t T : Nat} {fps : UInt32}
    (rate : ∀ u ∈ v.window t T, u.encoder.settings.fps ≤ fps) :
    (v.window t T).length ≤ T / minInterval fps + 1 := by
  have inside : ∀ u ∈ v.window t T, u ∈ v.produced ∧ t ≤ u.begun ∧ u.begun ≤ t + T := by
    intro u mem
    simpa [window] using mem
  by_cases none_ : v.window t T = []
  · rw [none_]
    exact Nat.zero_le _
  have spaced : (v.window t T).Pairwise fun u u' => u.begun + minInterval fps ≤ u'.begun := by
    refine (h.spaced.filter _).imp_of_mem fun {u u'} mem mem' apart => ?_
    have order := (h.done u (inside u mem).1).1
    have slower := minInterval_anti (rate u' mem')
    omega
  have few := length_of_spaced spaced (fun u mem => (inside u mem).2) none_
  have count : ((v.window t T).length - 1) * minInterval fps ≤ T := by omega
  have := (Nat.le_div_iff_mul_le (minInterval_pos fps)).2 count
  omega

/-- In every run, whatever the controller asks for and however often the snapshot is
encoded again: an event adds one unit at most, and begins it no sooner than the interval
of the frame rate then in force after every unit before was finished. So any two units lie
the interval apart of the settings the later was made with, these are 60 frames a second
at most, and of the units begun within any `T` nanoseconds at a frame rate of at most `fps`
there are no more than `T` over the interval of that rate, and one. -/
theorem units_paced (hr : videoLoop.Reachable v) :
    (∀ e, v.admits e → ∃ new, (v.step e).produced = v.produced ++ new ∧ new.length ≤ 1 ∧
      ∀ u' ∈ new, ∀ u ∈ v.produced, u.finished + minInterval v.params.fps ≤ u'.begun) ∧
    (v.produced.Pairwise fun u u' => u.finished + minInterval u'.encoder.settings.fps ≤ u'.begun) ∧
    (∀ u ∈ v.produced, u.encoder.settings.fps ≤ 60) ∧
    ∀ t T fps, (∀ u ∈ v.window t T, u.encoder.settings.fps ≤ fps) →
      (v.window t T).length ≤ T / minInterval fps + 1 := by
  have h := UnitsSpaced.of_reachable hr
  refine ⟨fun e he => ?_, h.spaced, h.rate, fun t T fps rate => h.window_length rate⟩
  obtain ⟨new, added, adds⟩ := adds_step hr he
  refine ⟨new, added, adds.one, fun u' mem' u mem => ?_⟩
  have spaced := (UnitsSpaced.of_reachable (hr.step he)).spaced
  have apart := (List.pairwise_append.1 (added ▸ spaced)).2.2 u mem u' mem'
  rw [(adds.shows u' mem').settings] at apart
  exact apart

/-- A picture of each monitor, the second 99 ms behind the first where 33 would do. -/
theorem units_paced_sample :
    let v := (videoLoop.restrict (sized sampleSize)).after (.start 0 5000000000) sampleVideo
    v.produced.map (fun u => (u.begun, u.finished)) =
        [(5000000000, 5001000000), (5100000000, 5101000000)] ∧
      (v.produced.Pairwise fun u u' => u.finished + minInterval u'.encoder.settings.fps ≤ u'.begun) ∧
      (v.window 5000000000 100000000).length ≤ 100000000 / minInterval 30 + 1 := by
  intro v
  have start : (videoLoop.restrict (sized sampleSize)).Reachable (.start 0 5000000000) := .init ⟨0, _, rfl⟩
  obtain ⟨-, apart, -, few⟩ := units_paced (start.after sampleVideo_valid).of_restrict
  refine ⟨by decide, apart, few 5000000000 100000000 30 fun u mem => ?_⟩
  have all : ∀ u ∈ v.produced, u.encoder.settings.fps ≤ 30 := by decide
  exact all u (List.mem_filter.1 mem).1

end VideoLoop

end ZortilWatch.Core
