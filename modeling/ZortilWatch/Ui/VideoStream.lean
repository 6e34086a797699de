import ZortilWatch.Core.VideoLoop
import ZortilWatch.Ui.VideoStart

/-!
# The picture from the host's encoder to the viewer's decoder

`managed_loop` makes the units (`Core/VideoLoop.lean`), the media path delivers a
prefix of what it was given, and `onFrame` of `ui/src/App.tsx` feeds the decoder once
its canvas is on the page, from the first key frame on. A decoder can take a delta
frame only when it is configured, and only from the encoder whose last unit it was
given; `viewer_decodes_loop` says that this is all it gets, and that it gets all of it.
-/

namespace ZortilWatch.Ui

open ZortilWatch.Core

/-- A unit with parameters or a whole picture. -/
def isKey (h264 : Bytes) : Bool := hasNal h264 7 || hasNal h264 5

/-- The call a unit is given to the decoder with. -/
def decodeUnit (h264 : Bytes) : DecoderCall := .decode (if isKey h264 then .key else .delta) h264

/-- What gets to `onFrame` of the UI; the desktop keeps the frames of files. -/
def reachesUi : Client → Bytes → Bool
  | .native, frame => frame.head? != some FILE_FRAME_MAGIC
  | .web, _ => true

/-- Video among what gets to the UI. -/
def isVideo (frame : Bytes) : Bool := frame.head? != some 0x7B

/-- The unit in a product of the host. -/
def videoOf : Product → Option Bytes
  | .video unit => some unit
  | _ => none

namespace Viewer

/-- The calls on the decoder in a run. -/
def calls (v : Viewer) : List ViewerEvent → List DecoderCall
  | [] => []
  | e :: es => (v.handle e).2 ++ (v.handle e).1.calls es

/-- Without a canvas the decoder is left alone. -/
theorem calls_no_canvas (v : Viewer) (frames : List Bytes) (es : List ViewerEvent) :
    v.calls (frames.map (.frame · false) ++ es) = v.calls es := by
  induction frames with
  | nil => rfl
  | cons frame frames ih =>
    have nothing : v.handle (.frame frame false) = (v, []) := by
      simp only [handle, Bool.false_eq_true, if_false]
      split <;> rfl
    rw [List.map_cons, List.cons_append, calls, nothing]
    exact ih

/-- With a canvas, the decoder is configured for the first video, and given all video from
the first key frame on. -/
theorem calls_canvas (v : Viewer) (frames : List Bytes) :
    v.calls (frames.map (.frame · true)) =
      (if v.decoder ∨ frames.filter isVideo = [] then [] else [.configure]) ++
        (if v.started then frames.filter isVideo else (frames.filter isVideo).dropWhile (! isKey ·)).map
          decodeUnit := by
  induction frames generalizing v with
  | nil => cases v.started <;> simp [calls]
  | cons frame frames ih =>
    rw [List.map_cons, calls, ih]
    by_cases video : isVideo frame
    · have unit : Core.onFrame frame = .video frame := by
        apply if_neg
        simpa [isVideo] using video
      have fedUnit : v.handle (.frame frame true) = v.onVideo frame := by
        simp [handle, unit]
      rw [fedUnit, List.filter_cons_of_pos video]
      cases started : v.started with
      | true => cases decoder : v.decoder <;> simp [onVideo, started, decoder, decodeUnit, isKey]
      | false =>
        cases key : isKey frame with
        | true =>
          have found : (hasNal frame 7 || hasNal frame 5) = true := key
          cases decoder : v.decoder <;> simp [onVideo, started, decoder, found, decodeUnit, key]
        | false =>
          have found : (hasNal frame 7 || hasNal frame 5) = false := key
          cases decoder : v.decoder <;> simp [onVideo, started, decoder, found, key]
    · have control : Core.onFrame frame = .control frame := by
        apply if_pos
        simpa [isVideo] using video
      have nothing : v.handle (.frame frame true) = (v, []) := by
        simp [handle, control]
      rw [nothing, List.filter_cons_of_neg video, List.nil_append]

end Viewer

/-! ## What the path carries -/

/-- Of what conforming products get to the UI, the video is their units. -/
theorem video_of_products {client : Client} {products : List Product} (conform : ∀ p ∈ products, p.Conforms client) :
    ((products.filterMap Product.plaintext?).filter (reachesUi client)).filter isVideo =
      products.filterMap videoOf := by
  induction products with
  | nil => rfl
  | cons p products ih =>
    have rest := ih fun q hq => conform q (List.mem_cons_of_mem _ hq)
    have here := conform p List.mem_cons_self
    cases p with
    | video unit =>
      obtain ⟨tail, rfl⟩ := here
      have toUi : reachesUi client ([0, 0] ++ tail) = true := by cases client <;> rfl
      have plaintext : (Product.video ([0, 0] ++ tail)).plaintext? = some ([0, 0] ++ tail) := rfl
      have unit : videoOf (.video ([0, 0] ++ tail)) = some ([0, 0] ++ tail) := rfl
      have video : isVideo ([0, 0] ++ tail) = true := rfl
      rw [List.filterMap_cons_some plaintext, List.filterMap_cons_some unit, List.filter_cons_of_pos toUi,
        List.filter_cons_of_pos video, rest]
    | control json =>
      obtain ⟨members, rfl⟩ := here
      have brace := head_toVec_obj members
      have toUi : reachesUi client (toVec (.obj members)) = true := by
        cases client
        · simp [reachesUi, head_toVec]
        · rfl
      have video : isVideo (toVec (.obj members)) = false := by simp [isVideo, brace]
      have plaintext : (Product.control (toVec (.obj members))).plaintext? = some (toVec (.obj members)) := rfl
      rw [List.filterMap_cons_some plaintext, List.filterMap_cons_none rfl, List.filter_cons_of_pos toUi,
        List.filter_cons_of_neg (by simp [video]), rest]
    | file id offset data =>
      cases here
      have kept : reachesUi .native (encodeFileFrame id offset data) = false := by simp [reachesUi, encodeFileFrame]
      have plaintext : (Product.file id offset data).plaintext? = some (encodeFileFrame id offset data) := rfl
      rw [List.filterMap_cons_some plaintext, List.filterMap_cons_none rfl, List.filter_cons_of_neg (by simp [kept]),
        rest]

/-- What gets to the UI, with no canvas at first. -/
def viewerEvents (client : Client) (early late : List Bytes) : List ViewerEvent :=
  (early.filter (reachesUi client)).map (.frame · false) ++ (late.filter (reachesUi client)).map (.frame · true)

/-- How many of the frames get to the UI as video. -/
def videoCount (client : Client) (frames : List Bytes) : Nat :=
  ((frames.filter (reachesUi client)).filter isVideo).length

/-- Of units that arrive in order, the video behind the frames that came too early. -/
theorem late_video {client : Client} {early late units : List Bytes}
    (carried : ((early ++ late).filter (reachesUi client)).filter isVideo <+: units) :
    (late.filter (reachesUi client)).filter isVideo =
      (units.take (videoCount client (early ++ late))).drop (videoCount client early) := by
  obtain ⟨behind, rfl⟩ := carried
  unfold videoCount
  rw [List.take_left, List.filter_append, List.filter_append]
  exact List.drop_left.symm

/-- The units of a loop begin with a key frame if those of its encoders do. -/
theorem dropWhile_produced {loop : VideoLoop} (hr : videoLoop.Reachable loop)
    (begins : ∀ u ∈ loop.produced, u.first → isKey u.bytes = true) :
    loop.produced.dropWhile (! isKey ·.bytes) = loop.produced := by
  cases hp : loop.produced with
  | nil => rfl
  | cons u us =>
    have key : isKey u.bytes = true := by
      apply begins u (by rw [hp]; exact List.mem_cons_self)
      exact (VideoLoop.UnitsChained.of_reachable hr).first u (by rw [hp]; rfl)
    exact List.dropWhile_cons_of_neg (by simp [key])

/-- In every run of the host's loop whose encoders begin with a key frame, and for
either client, with the frames that came before there was a canvas and those that came
after: the decoder is configured before anything else, for the first unit it could be
given, and is then given every unit that arrived with a canvas, from the first key frame
on and in order. Each of them either begins an encoder's units, as a key frame, or
continues those of the encoder of the unit before it. With a canvas from the start and
everything delivered, they are all the units. -/
theorem viewer_decodes_loop {loop : VideoLoop} (hr : videoLoop.Reachable loop) {client : Client}
    {products : List Product} (conform : ∀ p ∈ products, p.Conforms client)
    (videos : products.filterMap videoOf = loop.produced.map (·.bytes))
    (begins : ∀ u ∈ loop.produced, u.first → isKey u.bytes = true) {early late : List Bytes}
    (delivered : early ++ late <+: products.filterMap Product.plaintext?) {v : Viewer} (waiting : v.started = false) :
    let missed := videoCount client early
    let arrived := videoCount client (early ++ late)
    let shown := ((loop.produced.take arrived).drop missed).dropWhile (! isKey ·.bytes)
    v.calls (viewerEvents client early late) =
        (if v.decoder ∨ arrived = missed then [] else [.configure]) ++ shown.map (decodeUnit ·.bytes) ∧
      (∀ u ∈ shown.head?, isKey u.bytes = true) ∧ shown.IsChain VideoUnit.Next ∧
      (∀ u ∈ shown, u.first → decodeUnit u.bytes = .decode .key u.bytes) ∧
      (missed = 0 → arrived = loop.produced.length → shown = loop.produced) := by
  intro missed arrived shown
  have chained := VideoLoop.UnitsChained.of_reachable hr
  have carried : ((early ++ late).filter (reachesUi client)).filter isVideo <+: loop.produced.map (·.bytes) := by
    rw [← videos, ← video_of_products conform]
    exact (delivered.filter _).filter _
  have lateUnits : (late.filter (reachesUi client)).filter isVideo =
      ((loop.produced.take arrived).drop missed).map (·.bytes) := by
    rw [late_video carried, List.map_drop, List.map_take]
  have part : shown <:+: loop.produced :=
    (List.dropWhile_suffix _).isInfix.trans ((List.drop_suffix ..).isInfix.trans (List.take_prefix ..).isInfix)
  refine ⟨?_, fun u head => ?_, chained.chain.infix part, fun u mem first => ?_, fun canvas all => ?_⟩
  · have none_late : (late.filter (reachesUi client)).filter isVideo = [] ↔ arrived = missed := by
      have counted : arrived = missed + ((late.filter (reachesUi client)).filter isVideo).length := by
        show videoCount client (early ++ late) = videoCount client early + _
        rw [videoCount, videoCount, List.filter_append, List.filter_append, List.length_append]
      rw [← List.length_eq_zero_iff]
      omega
    rw [viewerEvents, Viewer.calls_no_canvas, Viewer.calls_canvas, waiting]
    congr 1
    · exact if_congr (or_congr Iff.rfl none_late) rfl rfl
    · rw [if_neg Bool.false_ne_true, lateUnits, List.dropWhile_map, List.map_map]
      rfl
  · have stops := List.head?_dropWhile_not (! isKey ·.bytes) ((loop.produced.take arrived).drop missed)
    rw [show (List.dropWhile _ _).head? = some u from head] at stops
    simpa using stops
  · have key := begins u (part.subset mem) first
    rw [decodeUnit, if_pos key]
  · have everything : (loop.produced.take arrived).drop missed = loop.produced := by
      rw [canvas, all, List.drop_zero, List.take_length]
    show List.dropWhile _ ((loop.produced.take arrived).drop missed) = loop.produced
    rw [everything]
    exact dropWhile_produced hr begins

/-- A picture that comes before the canvas, the switch to another monitor and its
picture. -/
theorem viewer_decodes_loop_late :
    let loop := (videoLoop.restrict (VideoLoop.sized VideoLoop.sampleSize)).after (.start 0 5000000000)
      VideoLoop.sampleVideo
    loop.produced.map (·.bytes) = [[0, 0, 1, 0x67], [0, 0, 1, 0x67]] ∧
      Viewer.calls {} (viewerEvents .web [[0, 0, 1, 0x67]] [toVec (.obj []), [0, 0, 1, 0x67]]) =
        [.configure, .decode .key [0, 0, 1, 0x67]] := by
  intro loop
  have start : (videoLoop.restrict (VideoLoop.sized VideoLoop.sampleSize)).Reachable (.start 0 5000000000) :=
    .init ⟨0, _, rfl⟩
  have key : isKey [0, 0, 1, 0x67] = true := by
    have found : hasNal [0, 0, 1, 0x67] 7 = true :=
      (hasNalFrom_iff _ 7 0).2 ⟨0, Nat.le_refl 0, by decide, by decide, by decide⟩
    simp [isKey, found]
  have bytes : loop.produced.map (·.bytes) = [[0, 0, 1, 0x67], [0, 0, 1, 0x67]] := by decide
  have conform : ∀ p ∈ [Product.video [0, 0, 1, 0x67], .control (toVec (.obj [])), .video [0, 0, 1, 0x67]],
      p.Conforms .web := by
    intro p mem
    simp only [List.mem_cons, List.not_mem_nil, or_false] at mem
    rcases mem with rfl | rfl | rfl
    · exact ⟨[1, 0x67], rfl⟩
    · exact ⟨[], rfl⟩
    · exact ⟨[1, 0x67], rfl⟩
  have delivered : [[0, 0, 1, 0x67]] ++ [toVec (.obj []), [0, 0, 1, 0x67]] <+:
      [Product.video [0, 0, 1, 0x67], .control (toVec (.obj [])), .video [0, 0, 1, 0x67]].filterMap
        Product.plaintext? := List.prefix_rfl
  have waiting : ({} : Viewer).started = false := rfl
  have keys : ∀ u ∈ loop.produced, u.first → isKey u.bytes = true := by
    intro u mem _
    have same : u.bytes ∈ loop.produced.map (·.bytes) := List.mem_map_of_mem mem
    rw [bytes] at same
    simp only [List.mem_cons, List.not_mem_nil, or_false, or_self] at same
    rw [same, key]
  obtain ⟨called, -⟩ := viewer_decodes_loop (start.after VideoLoop.sampleVideo_valid).of_restrict conform rfl keys
    delivered waiting
  refine ⟨bytes, called.trans ?_⟩
  have missed : videoCount .web [[0, 0, 1, 0x67]] = 1 := by decide
  have arrived : videoCount .web ([[0, 0, 1, 0x67]] ++ [toVec (.obj []), [0, 0, 1, 0x67]]) = 2 := by decide
  have shown : ((((loop.produced.take 2).drop 1).dropWhile (! isKey ·.bytes)).map (·.bytes)).map decodeUnit =
      [.decode .key [0, 0, 1, 0x67]] := by
    have onBytes (us : List VideoUnit) : (us.dropWhile (! isKey ·.bytes)).map (·.bytes) =
        (us.map (·.bytes)).dropWhile (! isKey ·) := by
      rw [List.dropWhile_map]
      rfl
    rw [onBytes, List.map_drop, List.map_take, bytes]
    simp [decodeUnit, key]
  rw [missed, arrived, if_neg (by decide), ← shown, List.map_map]
  rfl

end ZortilWatch.Ui
