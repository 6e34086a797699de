import ZortilWatch.Lib.Runs
import ZortilWatch.Core.Layers

/-!
# Where the video starts (`ui/src/App.tsx`)

A decoder has to begin with a key frame, which `hasNal` finds by its NAL units. The scan
goes on three bytes behind a start code, and no start code begins in between, so it finds
what a search of every position finds (`hasNal_iff`). What a viewer decodes since it
last began anew starts with a key frame (`decodes_from_key`).
-/

namespace ZortilWatch.Ui

open ZortilWatch.Core

/-- `00 00 01` at position `i`. -/
def StartCode (buf : Bytes) (i : Nat) : Prop := buf.getD i 0 = 0 ∧ buf.getD (i + 1) 0 = 0 ∧ buf.getD (i + 2) 0 = 1

instance (buf : Bytes) (i : Nat) : Decidable (StartCode buf i) :=
  inferInstanceAs (Decidable (buf.getD i 0 = 0 ∧ buf.getD (i + 1) 0 = 0 ∧ buf.getD (i + 2) 0 = 1))

/-- The type in the byte behind a start code. -/
def nalType (buf : Bytes) (i : Nat) : Nat := (buf.getD (i + 3) 0 &&& 0x1f).toNat

/-- The loop of `hasNal` from `i` on. -/
def hasNalFrom (buf : Bytes) (type i : Nat) : Bool :=
  if i + 3 < buf.length then
    if StartCode buf i then
      if nalType buf i = type then true else hasNalFrom buf type (i + 3)
    else hasNalFrom buf type (i + 1)
  else false
termination_by buf.length - i

def hasNal (buf : Bytes) (type : Nat) : Bool := hasNalFrom buf type 0

/-- A NAL unit of the type at position `i`. -/
structure NalAt (buf : Bytes) (type i : Nat) : Prop where
  inside : i + 3 < buf.length
  start : StartCode buf i
  type : nalType buf i = type

section Scan

variable {buf : Bytes} {type i j : Nat}

/-- Start codes do not overlap. -/
theorem StartCode.apart (hi : StartCode buf i) (hj : StartCode buf j) (behind : i < j) : i + 3 ≤ j := by
  by_contra near
  rcases show j = i + 1 ∨ j = i + 2 by omega with rfl | rfl
  · exact absurd (hi.2.2.symm.trans hj.2.1) (by decide)
  · exact absurd (hi.2.2.symm.trans hj.1) (by decide)

theorem hasNalFrom_iff (buf : Bytes) (type i : Nat) : hasNalFrom buf type i = true ↔ ∃ j, i ≤ j ∧ NalAt buf type j := by
  fun_induction hasNalFrom buf type i with
  | case1 i inside start same => exact iff_of_true rfl ⟨i, Nat.le_refl i, inside, start, same⟩
  | case2 i inside start differs ih =>
    rw [ih]
    constructor
    · rintro ⟨j, behind, nal⟩
      exact ⟨j, by omega, nal⟩
    · rintro ⟨j, behind, nal⟩
      have other : i ≠ j := by
        rintro rfl
        exact differs nal.type
      exact ⟨j, start.apart nal.start (by omega), nal⟩
  | case3 i inside none_ ih =>
    rw [ih]
    constructor
    · rintro ⟨j, behind, nal⟩
      exact ⟨j, by omega, nal⟩
    · rintro ⟨j, behind, nal⟩
      have other : i ≠ j := by
        rintro rfl
        exact none_ nal.start
      exact ⟨j, by omega, nal⟩
  | case4 i short =>
    refine iff_of_false Bool.false_ne_true ?_
    rintro ⟨j, behind, nal⟩
    have inside := nal.inside
    omega

/-- The scan finds a NAL unit exactly if there is one anywhere. -/
theorem hasNal_iff (buf : Bytes) (type : Nat) : hasNal buf type = true ↔ ∃ i, i + 3 < buf.length ∧
    (buf.getD i 0 = 0 ∧ buf.getD (i + 1) 0 = 0 ∧ buf.getD (i + 2) 0 = 1) ∧
      (buf.getD (i + 3) 0 &&& 0x1f).toNat = type := by
  rw [hasNal, hasNalFrom_iff]
  constructor
  · rintro ⟨i, -, nal⟩
    exact ⟨i, nal.inside, nal.start, nal.type⟩
  · rintro ⟨i, inside, start, same⟩
    exact ⟨i, Nat.zero_le i, inside, start, same⟩

end Scan

/-! ## The viewer -/

inductive ChunkType where
  | key
  | delta
  deriving DecidableEq, Repr

/-- What `onFrame` calls on its decoder. -/
inductive DecoderCall where
  | configure
  | decode (type : ChunkType) (data : Bytes)
  deriving DecidableEq, Repr

/-- The chunk in a call. -/
def DecoderCall.chunk? : DecoderCall → Option (ChunkType × Bytes)
  | .configure => none
  | .decode type data => some (type, data)

theorem filterMap_chunk_configured (decoder : Bool) :
    (if decoder then [] else [DecoderCall.configure]).filterMap DecoderCall.chunk? = [] := by
  cases decoder <;> rfl

theorem filterMap_chunk_decode (type : ChunkType) (data : Bytes) :
    [DecoderCall.decode type data].filterMap DecoderCall.chunk? = [(type, data)] := rfl

/-- `decoderRef` and `startedRef`. -/
structure Viewer where
  decoder : Bool := false
  started : Bool := false

inductive ViewerEvent where
  /-- `onFrame`; `canvas`: there is one to draw on. -/
  | frame (h264 : Bytes) (canvas : Bool)
  | doConnect
  /-- `disconnect`, `onClose` or the watchdog. -/
  | closed

namespace Viewer

/-- What `onFrame` does with video: a decoder is made and configured for the first. -/
def onVideo (v : Viewer) (h264 : Bytes) : Viewer × List DecoderCall :=
  let configured := if v.decoder then [] else [.configure]
  let v := { v with decoder := true }
  let key := hasNal h264 7 || hasNal h264 5
  if !v.started && !key then (v, configured)
  else ({ v with started := true }, configured ++ [.decode (if key then .key else .delta) h264])

def handle (v : Viewer) : ViewerEvent → Viewer × List DecoderCall
  | .frame h264 canvas =>
    match onFrame h264 with
    | .video unit => if canvas then v.onVideo unit else (v, [])
    | _ => (v, [])
  | .doConnect => ({ v with started := false }, [])
  | .closed => ({ decoder := false, started := false }, [])

/-- What was given to the decoder since the viewer last began anew. -/
def fedSince (v : Viewer) : ViewerEvent → List (ChunkType × Bytes) → List (ChunkType × Bytes)
  | .frame h264 canvas, fed => fed ++ (v.handle (.frame h264 canvas)).2.filterMap DecoderCall.chunk?
  | .doConnect, _ => []
  | .closed, _ => []

/-- A viewer with what it fed its decoder. -/
def viewing : System (Viewer × List (ChunkType × Bytes)) ViewerEvent :=
  System.recording ⟨fun v => v = {}, fun _ _ => True, fun v e => (v.handle e).1⟩ (fun _ => []) fedSince

/-- Chunks are named for what they hold, and the first one is a key frame. -/
structure FromKey (v : Viewer) (fed : List (ChunkType × Bytes)) : Prop where
  begun : v.started = true ↔ fed ≠ []
  first : ∀ chunk ∈ fed.head?, chunk.1 = .key
  named : ∀ chunk ∈ fed, chunk.1 = .key ↔ ∃ type i, (type = 7 ∨ type = 5) ∧ NalAt chunk.2 type i

theorem named_chunk (h264 : Bytes) : (if hasNal h264 7 || hasNal h264 5 then ChunkType.key else .delta) = .key ↔
    ∃ type i, (type = 7 ∨ type = 5) ∧ NalAt h264 type i := by
  have found (type : Nat) : hasNal h264 type = true ↔ ∃ i, NalAt h264 type i := by
    rw [hasNal, hasNalFrom_iff]
    exact ⟨fun ⟨i, _, nal⟩ => ⟨i, nal⟩, fun ⟨i, nal⟩ => ⟨i, Nat.zero_le i, nal⟩⟩
  have key : (hasNal h264 7 || hasNal h264 5) = true ↔ ∃ type i, (type = 7 ∨ type = 5) ∧ NalAt h264 type i := by
    rw [Bool.or_eq_true, found, found]
    constructor
    · rintro (⟨i, nal⟩ | ⟨i, nal⟩)
      · exact ⟨7, i, .inl rfl, nal⟩
      · exact ⟨5, i, .inr rfl, nal⟩
    · rintro ⟨type, i, rfl | rfl, nal⟩
      · exact .inl ⟨i, nal⟩
      · exact .inr ⟨i, nal⟩
  rw [← key]
  split <;> simp_all

variable {v : Viewer} {fed : List (ChunkType × Bytes)}

theorem FromKey.onVideo (h : FromKey v fed) (h264 : Bytes) :
    FromKey (v.onVideo h264).1 (fed ++ (v.onVideo h264).2.filterMap DecoderCall.chunk?) := by
  unfold Viewer.onVideo
  dsimp only
  split
  · rw [filterMap_chunk_configured, List.append_nil]
    exact ⟨h.begun, h.first, h.named⟩
  · rename_i given
    rw [List.filterMap_append, filterMap_chunk_configured, List.nil_append, filterMap_chunk_decode]
    refine ⟨iff_of_true rfl (List.append_ne_nil_of_right_ne_nil _ (List.cons_ne_nil _ _)), ?_, ?_⟩
    · intro chunk head
      cases fed with
      | cons first rest => exact h.first chunk head
      | nil =>
        cases head
        -- nothing was fed, so the viewer has not begun and waits for a key frame
        have waiting : v.started = false := by
          have none_ := h.begun
          simpa using none_
        have key : (hasNal h264 7 || hasNal h264 5) = true := by
          by_contra none_
          rw [Bool.not_eq_true] at none_
          exact given (by rw [waiting, none_]; rfl)
        dsimp only
        rw [if_pos key]
    · intro chunk mem
      rcases List.mem_append.1 mem with mem | mem
      · exact h.named chunk mem
      · rw [List.mem_singleton.1 mem]
        exact named_chunk h264

theorem FromKey.step (h : FromKey v fed) (e : ViewerEvent) : FromKey (v.handle e).1 (fedSince v e fed) := by
  have anew (v : Viewer) (stopped : v.started = false) : FromKey v [] :=
    ⟨by simp [stopped], nofun, fun _ mem => absurd mem List.not_mem_nil⟩
  have same : FromKey v (fed ++ ([] : List DecoderCall).filterMap DecoderCall.chunk?) := by
    rw [List.filterMap_nil, List.append_nil]
    exact h
  cases e with
  | doConnect => exact anew _ rfl
  | closed => exact anew _ rfl
  | frame h264 canvas =>
    simp only [fedSince, handle]
    split
    · split
      · exact h.onVideo _
      · exact same
    · exact same

/-- In every run, what the decoder was given since the viewer began anew starts with a
key frame, and exactly the chunks with parameters or a whole picture are named so. -/
theorem decodes_from_key (es : List ViewerEvent) :
    viewing.AllStates (fun p => FromKey p.1 p.2) ({}, []) es := by
  have start : FromKey {} [] := ⟨by simp, nofun, fun _ mem => absurd mem List.not_mem_nil⟩
  generalize ({} : Viewer) = v at start
  generalize ([] : List (ChunkType × Bytes)) = fed at start
  induction es generalizing v fed with
  | nil => exact start
  | cons e es ih => exact ⟨start, ih _ _ (start.step e)⟩

end Viewer

end ZortilWatch.Ui
