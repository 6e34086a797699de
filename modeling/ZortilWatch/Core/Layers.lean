import ZortilWatch.Lib.Json
import ZortilWatch.Core.Handover
import ZortilWatch.Core.MediaPath

/-!
# The layers of the data channel

The channel carries handshake messages (JSON), chunks of sealed messages, sealed
messages and a goodbye, and the plaintexts are video, JSON or file frames. The
receivers tell them apart by comparison with the goodbye, by parsing and by first
bytes; no message a conforming sender writes is taken for one of another kind.
-/

namespace ZortilWatch.Core

/-! ## Dispatch -/

/-- What `managed_loop` makes of an opened plaintext. -/
inductive ManagedInbound (E : Type) where
  | file (id : UInt32) (offset : UInt64) (data : Bytes)
  | event (ev : E)
  | ignored
  deriving DecidableEq, Repr

/-- The dispatch of `managed_loop`; `fromSlice` is `serde_json::from_slice::<InputEvent>`. -/
def dispatchManaged {E : Type} (fromSlice : Bytes → Option E) (opened : Bytes) : ManagedInbound E :=
  match parseFileFrame opened with
  | some (id, offset, data) => .file id offset data
  | none =>
    match fromSlice opened with
    | some ev => .event ev
    | none => .ignored

/-- What a controller makes of an opened plaintext. -/
inductive ControllerInbound where
  | video (unit : Bytes)
  | control (json : Bytes)
  | file (id : UInt32) (offset : UInt64) (data : Bytes)
  | ignored
  deriving DecidableEq, Repr

/-- `onFrame` of the UI (`ui/src/App.tsx`): what begins with a brace is control JSON. -/
def onFrame (h264 : Bytes) : ControllerInbound := if h264.head? = some 0x7B then .control h264 else .video h264

/-- The thread of the desktop's `connect` that delivers frames
(`desktop/src-tauri/src/lib.rs`): file frames stay there, the rest goes to the UI. -/
def deliverFrame (frame : Bytes) : ControllerInbound :=
  if frame.head? = some FILE_FRAME_MAGIC then
    match parseFileFrame frame with
    | some (id, offset, data) => .file id offset data
    | none => .ignored
  else onFrame frame

def Client.dispatch : Client → Bytes → ControllerInbound
  | .native => deliverFrame
  | .web => onFrame

/-! ## Conforming senders -/

/-- The text `serde_json::to_vec` writes; numbers are given as they are spelled. -/
def toVec (value : Json String) : Bytes := utf8 (value.text id)

/-- An access unit in Annex-B form, an object of `queue_control_json`, or a frame
of a file. Only the desktop asks for files. -/
def Product.Conforms (client : Client) : Product → Prop
  | .video unit => [0, 0] <+: unit
  | .control json => ∃ members, json = toVec (.obj members)
  | .file .. => client = .native

/-- Its own kind. -/
def Product.inbound : Product → ControllerInbound
  | .video unit => .video unit
  | .control json => .control json
  | .file id offset data => .file id offset data

/-- The first `n` sealed messages of a host with their chunks. -/
def firstChunked (prim : Primitives) (s : StreamSealer) (ps : List Bytes) (n : Nat) : List (Bytes × List Bytes) :=
  ((Chunker.new DEFAULT_MAX_PAYLOAD).chunkAll (messages prim s ps)).take n

/-- Whitespace of JSON. -/
def jsonSpace : Bytes := [0x20, 0x09, 0x0A, 0x0D]

/-- What serde_json reads as an externally tagged enum is an object or a string,
behind whitespace. -/
def ReadsTagged (parse : Bytes → Option SessionMessage) : Prop :=
  ∀ raw m, parse raw = some m →
    ∃ space lead rest, raw = space ++ lead :: rest ∧ (∀ b ∈ space, b ∈ jsonSpace) ∧ (lead = 0x7B ∨ lead = 0x22)

/-- No message is taken for one of another layer or kind. -/
structure LayersApart (prim : Primitives) (parse : Bytes → Option SessionMessage) : Prop where
  chunk_ne_bye : ∀ s ps, SESSION_BYE ∉ mediaChunks prim s ps
  sealed_ne_bye : ∀ s ps, SESSION_BYE ∉ messages prim s ps
  chunk_no_handshake : ∀ s ps, ∀ sent ∈ firstChunked prim s ps (2 ^ 24), ∀ chunk ∈ sent.2, parse chunk = none
  sealed_no_handshake : ∀ s ps, ∀ msg ∈ messages prim s ps, parse msg = none
  file_round_trip : ∀ id offset data, parseFileFrame (encodeFileFrame id offset data) = some (id, offset, data)
  json_no_file : ∀ value, parseFileFrame (toVec value) = none
  to_controller : ∀ client (product : Product), product.Conforms client →
    ∀ plaintext, product.plaintext? = some plaintext → client.dispatch plaintext = product.inbound
  file_to_host : ∀ {E : Type} (fromSlice : Bytes → Option E) id offset data,
    dispatchManaged fromSlice (encodeFileFrame id offset data) = .file id offset data
  event_to_host : ∀ {E : Type} (fromSlice : Bytes → Option E) value ev,
    fromSlice (toVec value) = some ev → dispatchManaged fromSlice (toVec value) = .event ev

/-! ## First bytes -/

theorem utf8_eq (s : String) : utf8 s = s.toList.flatMap String.utf8EncodeChar := by
  show s.toByteArray.data.toList = _
  rw [← String.utf8Encode_toList]
  simp [List.utf8Encode]

/-- The byte of the magic occurs in no UTF-8 text; here, not as the first byte of a character. -/
theorem head_utf8EncodeChar (c : Char) : (String.utf8EncodeChar c).head? ≠ some FILE_FRAME_MAGIC := by
  have scalar : c.val.toNat < 0x110000 := by
    rcases c.valid with h | h <;> omega
  unfold String.utf8EncodeChar
  generalize c.val.toNat = v at scalar ⊢
  have first {lead : Nat} {rest : Bytes} (other : lead % 256 ≠ 0xF7) :
      (UInt8.ofNat lead :: rest).head? ≠ some FILE_FRAME_MAGIC := by
    intro same
    have value := congrArg UInt8.toNat (Option.some.inj same)
    rw [UInt8.toNat_ofNat'] at value
    exact other value
  simp only
  split_ifs <;> exact first (by omega)

theorem head_utf8 (s : String) : (utf8 s).head? ≠ some FILE_FRAME_MAGIC := by
  rw [utf8_eq]
  cases s.toList with
  | nil => simp
  | cons c cs =>
    have bytes : String.utf8EncodeChar c ≠ [] := by
      rw [← List.length_pos_iff, String.length_utf8EncodeChar]
      exact c.utf8Size_pos
    rw [List.flatMap_cons, List.head?_append_of_ne_nil _ bytes]
    exact head_utf8EncodeChar c

theorem parseFileFrame_of_head {buf : Bytes} (other : buf.head? ≠ some FILE_FRAME_MAGIC) :
    parseFileFrame buf = none := by
  unfold parseFileFrame
  split
  · rename_i magic _ _ _ _ _ _ _ _ _ _ _ _ _
    have differs : magic ≠ FILE_FRAME_MAGIC := fun same => other (by rw [same]; rfl)
    exact if_pos differs
  · rfl

theorem head_toVec (value : Json String) : (toVec value).head? ≠ some FILE_FRAME_MAGIC := head_utf8 _

theorem parseFileFrame_toVec (value : Json String) : parseFileFrame (toVec value) = none :=
  parseFileFrame_of_head (head_toVec value)

theorem head_toVec_obj (members : List (String × Json String)) : (toVec (.obj members)).head? = some 0x7B := by
  have brace : utf8 "\x7b" = [0x7B] := by decide +kernel
  rw [toVec, Json.text, utf8_append, brace]
  rfl

/-- What is no file frame reaches `onFrame` on either client. -/
theorem dispatch_of_head {frame : Bytes} (other : frame.head? ≠ some FILE_FRAME_MAGIC) (client : Client) :
    client.dispatch frame = onFrame frame := by
  cases client with
  | native => exact if_neg other
  | web => rfl

section Sealed

variable {prim : Primitives} {s : StreamSealer} {ps : List Bytes} {msg : Bytes}

/-- A sealed message begins with its nonce. -/
theorem nonce_of_mem_messages (sent : msg ∈ messages prim s ps) : ∃ counter ct, msg = streamNonce counter ++ ct := by
  induction ps generalizing s with
  | nil => cases sent
  | cons p ps ih =>
    rcases List.mem_cons.1 sent with rfl | later
    · exact ⟨s.counter, _, rfl⟩
    · exact ih later

theorem head_of_mem_messages (sent : msg ∈ messages prim s ps) : msg.head? = some 0 := by
  obtain ⟨counter, ct, rfl⟩ := nonce_of_mem_messages sent
  rfl

theorem chunkAll_take (c : Chunker) (frames : List Bytes) (n : Nat) :
    (c.chunkAll frames).take n = c.chunkAll (frames.take n) := by
  induction frames generalizing c n with
  | nil => simp [Chunker.chunkAll]
  | cons frame frames ih =>
    cases n with
    | zero => rfl
    | succ n => simp only [Chunker.chunkAll, List.take_succ_cons, ih]

theorem head_beBytes32 {i : Nat} (small : i < 2 ^ 24) : (beBytes32 (UInt32.ofNat i)).head? = some 0 := by
  have high : (UInt32.ofNat i >>> 24).toUInt8 = 0 := by
    rw [← UInt8.toNat_inj, UInt32.toNat_toUInt8, UInt32.toNat_shiftRight, UInt32.toNat_ofNat']
    show (i % 2 ^ 32) >>> 24 % 2 ^ 8 = 0
    rw [Nat.shiftRight_eq_div_pow]
    omega
  exact congrArg some high

/-- The first byte of a chunk is the highest of its message's number. -/
theorem head_of_mem_firstChunked {sent : Bytes × List Bytes} (mem : sent ∈ firstChunked prim s ps (2 ^ 24))
    {chunk : Bytes} (hc : chunk ∈ sent.2) : chunk.head? = some 0 := by
  rw [firstChunked, chunkAll_take] at mem
  obtain ⟨i, early, number⟩ := Chunker.number_of_mem mem hc
  have few : i < 2 ^ 24 := early.trans_le (List.length_take_le _ _)
  have start : (Chunker.new DEFAULT_MAX_PAYLOAD).seq = 0 := rfl
  rw [start, UInt32.zero_add] at number
  have same : chunk.head? = (chunk.take 4).head? := by
    cases chunk <;> rfl
  rw [same, number]
  exact head_beBytes32 few

end Sealed

theorem parse_of_head_zero {parse : Bytes → Option SessionMessage} (reads : ReadsTagged parse) {raw : Bytes}
    (zero : raw.head? = some 0) : parse raw = none := by
  cases read : parse raw with
  | none => rfl
  | some m =>
    obtain ⟨space, lead, rest, rfl, blank, start⟩ := reads raw m read
    cases space with
    | nil =>
      have first : lead = 0 := Option.some.inj zero
      rcases start with start | start <;> simp [first] at start
    | cons b space =>
      have first : b = 0 := Option.some.inj zero
      exact absurd (blank b List.mem_cons_self) (by rw [first]; decide)

/-- serde_json being what it is, the layers of the channel are never confused. -/
theorem layers_apart (prim : Primitives) {parse : Bytes → Option SessionMessage} (reads : ReadsTagged parse) :
    LayersApart prim parse := by
  constructor
  case chunk_ne_bye => exact fun s ps sent => chunk_ne_bye (by decide) (fun _ => messages_ne_nil prim s ps) sent rfl
  case sealed_ne_bye =>
    intro s ps sent
    have first := head_of_mem_messages sent
    revert first
    decide +kernel
  case chunk_no_handshake =>
    exact fun s ps sent mem chunk hc => parse_of_head_zero reads (head_of_mem_firstChunked mem hc)
  case sealed_no_handshake => exact fun s ps msg sent => parse_of_head_zero reads (head_of_mem_messages sent)
  case file_round_trip => exact parse_encodeFileFrame
  case json_no_file => exact parseFileFrame_toVec
  case to_controller =>
    intro client product conforms plaintext made
    cases product with
    | video unit =>
      obtain ⟨rest, rfl⟩ := conforms
      obtain rfl : [0, 0] ++ rest = plaintext := Option.some.inj made
      have other : ([0, 0] ++ rest).head? ≠ some FILE_FRAME_MAGIC := by
        show some (0 : UInt8) ≠ _
        decide
      rw [dispatch_of_head other]
      rfl
    | control json =>
      obtain ⟨members, rfl⟩ := conforms
      obtain rfl : toVec (.obj members) = plaintext := Option.some.inj made
      rw [dispatch_of_head (head_toVec _)]
      exact if_pos (head_toVec_obj members)
    | file id offset data =>
      obtain rfl : encodeFileFrame id offset data = plaintext := Option.some.inj made
      obtain rfl : client = .native := conforms
      have magic : (encodeFileFrame id offset data).head? = some FILE_FRAME_MAGIC := rfl
      show deliverFrame _ = _
      rw [deliverFrame, if_pos magic, parse_encodeFileFrame]
      rfl
  case file_to_host =>
    intro E fromSlice id offset data
    rw [dispatchManaged, parse_encodeFileFrame]
  case event_to_host =>
    intro E fromSlice value ev read
    rw [dispatchManaged, parseFileFrame_toVec, read]

/-- The parser on the two messages of the sample peer of the handover. -/
theorem layers_apart_for_sample_peer : LayersApart samplePrimitives sampleParse := by
  refine layers_apart samplePrimitives fun raw m read => ?_
  have known := List.find?_some read
  have same : m.toJson = raw := by simpa using known
  have brace : m.toJson.head? = some 0x7B := by
    rcases List.mem_cons.1 (List.mem_of_find?_eq_some read) with rfl | last
    · decide +kernel
    · obtain rfl := List.mem_singleton.1 last
      decide +kernel
  rw [same] at brace
  obtain ⟨rest, rfl⟩ := List.head?_eq_some_iff.1 brace
  exact ⟨[], 0x7B, rest, rfl, by simp, .inl rfl⟩

end ZortilWatch.Core
