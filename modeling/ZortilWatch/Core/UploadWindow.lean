import ZortilWatch.Core.Upload

/-!
# The window of an upload

The sender stops where it is a window ahead of the last ack it has read, and the
host acks every `ACK_STEP` bytes. While the host's disk works and nobody cancels,
frames arrive where the host's count is, the sender is never further ahead than the
window and one chunk, and it is not held up once frames and acks have all arrived
(`upload_window`).
-/

namespace ZortilWatch.Core

namespace Upload

/-- The disk works, and `fs_cancel` is not called. -/
def Event.Smooth : Event → Prop
  | .host disk => disk = {}
  | .cancel | .sendCancel => False
  | _ => True

variable {id : UInt32} {file : DiskFile} {remote : Option Bytes} {m : Upload}

/-- The frames in flight follow one another from the host's count to the sender's. -/
def Contiguous (id : UInt32) (file : DiskFile) : Nat → List ControllerMessage → Nat → Prop
  | written, [], sent => written = sent
  | written, msg :: rest, sent =>
    ∃ n, 0 < n ∧ written + n ≤ file.bytes.length ∧
      msg = .raw (encodeFileFrame id (UInt64.ofNat written) ((file.bytes.drop written).take n)) ∧
      Contiguous id file (written + n) rest sent

/-- The acks in flight only grow, from the one in `up_acked` to the last one sent. -/
def Acks : Nat → List HostMessage → Nat → Prop
  | acked, [], last => acked = last
  | acked, .fsProgress offset _ _ :: rest, last => acked ≤ offset ∧ Acks offset rest last
  | acked, .fsDone _ _ :: rest, last => Acks acked rest last

theorem Contiguous.le {written sent : Nat} {msgs : List ControllerMessage} (h : Contiguous id file written msgs sent) :
    written ≤ sent := by
  induction msgs generalizing written with
  | nil => exact Nat.le_of_eq h
  | cons msg msgs ih =>
    obtain ⟨n, _, _, _, rest⟩ := h
    exact (Nat.le_add_right _ _).trans (ih rest)

theorem Contiguous.snoc {written sent n : Nat} {msgs : List ControllerMessage}
    (h : Contiguous id file written msgs sent) (some_bytes : 0 < n) (inside : sent + n ≤ file.bytes.length) :
    Contiguous id file written
      (msgs ++ [.raw (encodeFileFrame id (UInt64.ofNat sent) ((file.bytes.drop sent).take n))]) (sent + n) := by
  induction msgs generalizing written with
  | nil =>
    cases h
    exact ⟨n, some_bytes, inside, rfl, rfl⟩
  | cons msg msgs ih =>
    obtain ⟨k, hk, room, eq, rest⟩ := h
    exact ⟨k, hk, room, eq, ih rest⟩

theorem Acks.le {acked last : Nat} {msgs : List HostMessage} (h : Acks acked msgs last) : acked ≤ last := by
  induction msgs generalizing acked with
  | nil => exact Nat.le_of_eq h
  | cons msg msgs ih =>
    cases msg with
    | fsProgress offset size done => exact h.1.trans (ih h.2)
    | fsDone ok err => exact ih h

/-- With no ack in flight the last one is in `up_acked`. -/
theorem Acks.arrived {acked last : Nat} {msgs : List HostMessage} (h : Acks acked msgs last)
    (none_left : ∀ offset size done, .fsProgress offset size done ∉ msgs) : acked = last := by
  induction msgs with
  | nil => exact h
  | cons msg msgs ih =>
    cases msg with
    | fsProgress offset size done => exact absurd List.mem_cons_self (none_left offset size done)
    | fsDone ok err => exact ih h fun offset size done hm => none_left offset size done (List.mem_cons_of_mem _ hm)

theorem Acks.append {acked mid last : Nat} {msgs more : List HostMessage} (h : Acks acked msgs mid)
    (h' : Acks mid more last) : Acks acked (msgs ++ more) last := by
  induction msgs generalizing acked with
  | nil =>
    cases h
    exact h'
  | cons msg msgs ih =>
    cases msg with
    | fsProgress offset size done => exact ⟨h.1, ih h.2⟩
    | fsDone ok err => exact ih h

/-- Where the sender may be, when `acked` is the ack in `up_acked`. -/
def SenderAt (begin acked sent : Nat) : Sender → Prop
  | .waiting => sent = begin
  | .polling start sent' seen => start = begin ∧ sent' = sent ∧ seen ≤ acked ∧ sent ≤ seen + WINDOW + FILE_CHUNK
  | .reading start sent' seen => start = begin ∧ sent' = sent ∧ seen ≤ acked ∧ sent ≤ seen + WINDOW
  | .stopped => True

/-- The invariant of an upload the host has started at `begin`: its count, the
last ack it has sent, the ack in `up_acked` and the sender's count. -/
structure Flow (id : UInt32) (file : DiskFile) (begin written last acked sent : Nat) (m : Upload) : Prop where
  frames : Contiguous id file written m.toHost sent
  sent_le : sent ≤ file.bytes.length
  acks : Acks acked m.toController last
  begin_le : begin ≤ acked
  last_le : last ≤ written
  /-- What is not acked is less than the step between acks. -/
  step : written < file.bytes.length → written / ACK_STEP = last / ACK_STEP
  upload : m.host.upload =
    if written < file.bytes.length then some { written := written, size := file.bytes.length } else none
  entry : m.acked = some acked ∨ m.acked = some UNACKED ∧ acked = begin ∧ m.sender ∈ [.waiting, .stopped] ∧
    ∃ size done, .fsProgress begin size done ∈ m.toController
  sender : SenderAt begin acked sent m.sender

/-- The invariant of a run: before the host has opened the file, and behind it. -/
def Flows (id : UInt32) (file : DiskFile) (remote : Option Bytes) (m : Upload) : Prop :=
  (m.toHost = [.fsUploadStart file.bytes.length] ∧ m.toController = [] ∧ m.acked = some UNACKED ∧
      m.sender ∈ [.waiting, .stopped] ∧ m.host = { remote := remote }) ∨
    ∃ begin written last acked sent, m.Flow id file begin written last acked sent

section Flow

variable {begin written last acked sent : Nat}

theorem Flow.acked_lt (h : m.Flow id file begin written last acked sent) : acked < UNACKED := by
  have := h.acks.le
  have := h.last_le
  have := h.frames.le
  have := h.sent_le
  have := file.bound
  unfold UNACKED
  omega

/-- Once it has started the sender reads the acks as they are. -/
theorem Flow.entry_of (h : m.Flow id file begin written last acked sent) (started : m.sender ∉ [.waiting, .stopped]) :
    m.acked = some acked :=
  h.entry.resolve_right fun unacked => started unacked.2.2.1

theorem Flow.poll (h : m.Flow id file begin written last acked sent) :
    (m.poll file).Flow id file begin written last acked sent := by
  have at_ := h.sender
  have below := h.acked_lt
  have kept {sender : Sender} (entry : m.acked = some acked) (senderAt : SenderAt begin acked sent sender) :
      ({ m with sender := sender } : Upload).Flow id file begin written last acked sent :=
    { h with entry := .inl entry, sender := senderAt }
  unfold Upload.poll
  split
  · rename_i hs gone
    have entry := h.entry
    rw [gone] at entry
    simp at entry
  · rename_i off hs hoff
    rw [hs] at at_
    split_ifs with unacked all
    · exact h
    all_goals
      have entry : m.acked = some acked :=
        h.entry.resolve_right fun e => unacked (Option.some.inj (hoff.symm.trans e.1))
      cases hoff.symm.trans entry
    · exact kept entry trivial
    · have := h.acks.le
      have := h.last_le
      have := h.frames.le
      have := h.begin_le
      have : sent = begin := at_
      exact kept entry ⟨by omega, by omega, Nat.le_refl _, by omega⟩
  · rename_i hs gone
    have entry := h.entry_of (by simp [hs])
    rw [gone] at entry
    cases entry
  · rename_i start sent' seen a hs ha
    have entry := h.entry_of (by simp [hs])
    cases ha.symm.trans entry
    rw [hs] at at_
    obtain ⟨rfl, rfl, older, window⟩ := at_
    simp only [if_pos (Nat.ne_of_lt below)]
    split_ifs with full
    · exact kept entry ⟨rfl, rfl, Nat.le_refl _, by omega⟩
    · exact kept entry ⟨rfl, rfl, Nat.le_refl _, by omega⟩
  · exact h

theorem Flow.queue (h : m.Flow id file begin written last acked sent) {n : Nat} (few : n ≤ FILE_CHUNK) :
    ∃ sent', (m.queue id file n).Flow id file begin written last acked sent' := by
  have at_ := h.sender
  unfold Upload.queue
  split
  · rename_i start sent' seen hs
    rw [hs] at at_
    obtain ⟨rfl, rfl, older, window⟩ := at_
    have entry := h.entry_of (by simp [hs])
    simp only
    split
    · exact ⟨sent', { h with entry := .inl entry, sender := trivial }⟩
    · rename_i some_bytes
      have positive : 0 < ((file.bytes.drop sent').take n).length :=
        List.length_pos_iff.2 fun hnil => some_bytes (by rw [hnil]; rfl)
      have inside := read_le h.sent_le n
      have read : ((file.bytes.drop sent').take n).length ≤ n := List.length_take_le _ _
      have frames := h.frames.snoc positive inside
      rw [take_length_take] at frames
      exact ⟨sent' + ((file.bytes.drop sent').take n).length, { h with
        frames := frames
        sent_le := inside
        entry := .inl entry
        sender := ⟨rfl, rfl, older, by omega⟩ }⟩
  · exact ⟨sent, h⟩

theorem Flow.reader (h : m.Flow id file begin written last acked sent) :
    ∃ acked', m.reader.Flow id file begin written last acked' sent := by
  have acks := h.acks
  unfold Upload.reader
  split
  · exact ⟨acked, h⟩
  · rename_i offset size done rest eq
    rw [eq] at acks
    have newer := acks.1
    refine ⟨offset, { h with
      acks := acks.2, begin_le := h.begin_le.trans newer, entry := .inl rfl, sender := ?_ }⟩
    have at_ := h.sender
    show SenderAt begin offset sent m.sender
    cases hs : m.sender with
    | waiting | stopped =>
      rw [hs] at at_
      exact at_
    | polling start sent' seen | reading start sent' seen =>
      rw [hs] at at_
      exact ⟨at_.1, at_.2.1, at_.2.2.1.trans newer, at_.2.2.2⟩
  · rename_i ok err rest eq
    rw [eq] at acks
    refine ⟨acked, { h with
      acks := acks, entry := h.entry.imp_right fun e => ⟨e.1, e.2.1, e.2.2.1, ?_⟩ }⟩
    obtain ⟨-, -, -, size, done, pending⟩ := e
    exact ⟨size, done, by simpa [eq] using pending⟩

/-- A frame in flight carries the host's count. -/
theorem Flow.frame (h : m.Flow id file begin written last acked sent) {msg : ControllerMessage}
    {rest : List ControllerMessage} (head : m.toHost = msg :: rest) :
    ∃ n, 0 < n ∧ written + n ≤ file.bytes.length ∧
      msg = .raw (encodeFileFrame id (UInt64.ofNat written) ((file.bytes.drop written).take n)) ∧
      Contiguous id file (written + n) rest sent ∧ (UInt64.ofNat written).toNat = written ∧
      m.host.upload = some { written := written, size := file.bytes.length } := by
  have frames := h.frames
  rw [head] at frames
  obtain ⟨n, positive, inside, eq, later⟩ := frames
  have bound := file.bound
  exact ⟨n, positive, inside, eq, later, UInt64.toNat_ofNat_of_lt' (by rw [UInt64.size]; omega),
    h.upload.trans (if_pos (by omega))⟩

theorem Flow.hostStep (h : m.Flow id file begin written last acked sent) :
    ∃ written' last', (m.hostStep id {}).Flow id file begin written' last' acked sent := by
  unfold Upload.hostStep
  split
  · exact ⟨written, last, h⟩
  · rename_i msg rest head
    obtain ⟨n, positive, inside, rfl, later, here, upload⟩ := h.frame head
    have length : ((file.bytes.drop written).take n).length = n := by
      rw [List.length_take, List.length_drop]
      omega
    have older : last ≤ written + n := h.last_le.trans (Nat.le_add_right _ _)
    have entry (more : List HostMessage) : m.acked = some acked ∨ m.acked = some UNACKED ∧ acked = begin ∧
        m.sender ∈ [.waiting, .stopped] ∧ ∃ size done, .fsProgress begin size done ∈ m.toController ++ more :=
      h.entry.imp_right fun ⟨unacked, first, early, size, done, pending⟩ =>
        ⟨unacked, first, early, size, done, List.mem_append_left _ pending⟩
    have ack (size : Nat) (done : Bool) : Acks last [.fsProgress (written + n) size done] (written + n) := ⟨older, rfl⟩
    simp only [HostSide.onMessage, HostSide.fileFrame, parse_encodeFileFrame, upload, if_pos, here, HostSide.write,
      length, and_self]
    split_ifs with complete crossed
    · refine ⟨written + n, written + n, { h with
        frames := later, acks := h.acks.append ⟨older, rfl⟩, last_le := Nat.le_refl _, step := fun _ => rfl,
        upload := ?_, entry := entry _ }⟩
      exact (if_neg (by omega)).symm
    · refine ⟨written + n, written + n, { h with
        frames := later, acks := h.acks.append (ack _ _), last_le := Nat.le_refl _, step := fun _ => rfl,
        upload := ?_, entry := entry _ }⟩
      exact (if_pos (by omega)).symm
    · refine ⟨written + n, last, { h with
        frames := later, acks := by rw [List.append_nil]; exact h.acks, last_le := older, step := fun _ => ?_,
        upload := ?_, entry := entry _ }⟩
      · exact (not_ne_iff.1 crossed).trans (h.step (by omega))
      · exact (if_pos (by omega)).symm

end Flow

/-- The host's first answer names the point where the upload begins. -/
theorem flow_start (head : m.toHost = [.fsUploadStart file.bytes.length]) (silent : m.toController = [])
    (unacked : m.acked = some UNACKED) (sender : m.sender ∈ [.waiting, .stopped])
    (fresh : m.host = { remote := remote }) :
    ∃ begin, (m.hostStep id {}).Flow id file begin begin begin begin begin := by
  refine ⟨min (remote.getD []).length file.bytes.length, ?_⟩
  have at_ : SenderAt (min (remote.getD []).length file.bytes.length) (min (remote.getD []).length file.bytes.length)
      (min (remote.getD []).length file.bytes.length) m.sender := by
    simp only [List.mem_cons, List.not_mem_nil, or_false] at sender
    rcases sender with hs | hs <;> rw [hs]
    · rfl
    · trivial
  unfold Upload.hostStep
  simp only [head, fresh, HostSide.onMessage, HostSide.fsUploadStart, silent, List.nil_append]
  split_ifs with all
  · exact { frames := rfl, sent_le := Nat.min_le_right _ _, acks := ⟨Nat.le_refl _, rfl⟩, begin_le := Nat.le_refl _,
            last_le := Nat.le_refl _, step := fun _ => rfl, upload := (if_neg (by omega)).symm,
            entry := .inr ⟨unacked, rfl, sender, _, _, List.mem_cons_self⟩, sender := at_ }
  · exact { frames := rfl, sent_le := Nat.min_le_right _ _, acks := ⟨Nat.le_refl _, rfl⟩, begin_le := Nat.le_refl _,
            last_le := Nat.le_refl _, step := fun _ => rfl, upload := (if_pos (by omega)).symm,
            entry := .inr ⟨unacked, rfl, sender, _, _, List.mem_cons_self⟩, sender := at_ }

theorem chunk_of_admits {n : Nat} (h : m.admits file (.queue n) = true) : n ≤ FILE_CHUNK := by
  simp only [admits] at h
  split at h
  · simp only [Bool.and_eq_true, decide_eq_true_eq] at h
    exact h.1
  · cases h

theorem Flows.step (h : m.Flows id file remote) {e : Event} (he : m.admits file e = true) (smooth : e.Smooth) :
    (m.step id file e).Flows id file remote := by
  obtain ⟨head, silent, unacked, sender, fresh⟩ | ⟨begin, written, last, acked, sent, h⟩ := h
  · cases e with
    | poll =>
      have same : m.poll file = m := by
        simp only [List.mem_cons, List.not_mem_nil, or_false] at sender
        rcases sender with hs | hs <;> simp [poll, hs, unacked]
      exact .inl (by rw [Upload.step, same]; exact ⟨head, silent, unacked, sender, fresh⟩)
    | queue n =>
      simp only [List.mem_cons, List.not_mem_nil, or_false] at sender
      simp only [admits] at he
      rcases sender with hs | hs <;> simp [hs] at he
    | giveUp => exact .inl ⟨head, silent, unacked, by simp [Upload.step], fresh⟩
    | host disk =>
      cases smooth
      have started : ∃ begin, (m.hostStep id {}).Flow id file begin begin begin begin begin :=
        flow_start head silent unacked sender fresh
      obtain ⟨begin, flow⟩ := started
      exact .inr ⟨_, _, _, _, _, flow⟩
    | reader => simp [admits, silent] at he
    | cancel | sendCancel => exact smooth.elim
  · cases e with
    | poll => exact .inr ⟨_, _, _, _, _, h.poll⟩
    | queue n =>
      obtain ⟨sent, h⟩ := h.queue (chunk_of_admits he)
      exact .inr ⟨_, _, _, _, _, h⟩
    | giveUp =>
      exact .inr ⟨begin, written, last, acked, sent, { h with
        entry := h.entry.imp_right fun e => ⟨e.1, e.2.1, List.mem_cons_of_mem _ List.mem_cons_self, e.2.2.2⟩
        sender := trivial }⟩
    | host disk =>
      cases smooth
      obtain ⟨written, last, h⟩ := h.hostStep
      exact .inr ⟨_, _, _, _, _, h⟩
    | reader =>
      obtain ⟨acked, h⟩ := h.reader
      exact .inr ⟨_, _, _, _, _, h⟩
    | cancel | sendCancel => exact smooth.elim

end Upload

open Upload

/-- The runs in which the host's disk works and nobody cancels. -/
def smoothUploads (id : UInt32) (file : DiskFile) (remote : Option Bytes) : System Upload Upload.Event :=
  (uploads id file remote).restrict fun _ e => e.Smooth

section Window

variable {id : UInt32} {file : DiskFile} {remote : Option Bytes} {m : Upload}

/-- The sender has sent `sent` bytes of the file and has last read the ack `seen`. -/
def Sending (m : Upload) (sent seen : Nat) : Prop :=
  ∃ start, m.sender = .polling start sent seen ∨ m.sender = .reading start sent seen

theorem Upload.Flow.sending {begin written last acked sent sent' seen : Nat}
    (h : m.Flow id file begin written last acked sent) (s : Sending m sent' seen) :
    m.acked = some acked ∧ sent' = sent ∧ seen ≤ acked ∧ sent ≤ seen + WINDOW + FILE_CHUNK := by
  have at_ := h.sender
  obtain ⟨start, hs | hs⟩ := s
  · rw [hs] at at_
    exact ⟨h.entry_of (by simp [hs]), at_.2.1, at_.2.2.1, at_.2.2.2⟩
  · rw [hs] at at_
    exact ⟨h.entry_of (by simp [hs]), at_.2.1, at_.2.2.1, at_.2.2.2.trans (Nat.le_add_right _ _)⟩

/-- With nothing in flight, all that is sent is written and the last ack is known. -/
theorem Upload.Flow.settled {begin written last acked sent : Nat} (h : m.Flow id file begin written last acked sent)
    (no_frame : m.toHost = []) (no_ack : ∀ offset size done, .fsProgress offset size done ∉ m.toController)
    (unfinished : m.host.upload.isSome) : sent = written ∧ sent - acked < ACK_STEP := by
  have frames := h.frames
  rw [no_frame] at frames
  have known := h.acks.arrived no_ack
  have open_ : written < file.bytes.length := by
    by_contra closed
    rw [h.upload, if_neg closed] at unfinished
    cases unfinished
  have step := h.step open_
  refine ⟨frames.symm, ?_⟩
  rw [← frames, known]
  unfold ACK_STEP at *
  omega

/-- With nothing in flight the next check of the sender lets it on. -/
theorem Upload.Flow.next_check {begin written last acked sent : Nat}
    (h : m.Flow id file begin written last acked sent) (no_frame : m.toHost = [])
    (no_ack : ∀ offset size done, .fsProgress offset size done ∉ m.toController) (unfinished : m.host.upload.isSome)
    (running : m.sender ≠ .stopped) : ∃ sent seen, Sending (m.poll file) sent seen ∧
      (m.sender ≠ .waiting → ∃ start, (m.poll file).sender = .reading start sent seen) := by
  obtain ⟨rfl, close⟩ := h.settled no_frame no_ack unfinished
  have entry : m.acked = some acked := h.entry.resolve_right fun ⟨_, _, _, size, done, pending⟩ =>
    no_ack _ size done pending
  have below := h.acked_lt
  have at_ := h.sender
  have more : sent < file.bytes.length := by
    by_contra all
    rw [h.upload, if_neg all] at unfinished
    cases unfinished
  cases hs : m.sender with
  | stopped => exact absurd hs running
  | waiting =>
    rw [hs] at at_
    have := h.acks.le
    have := h.last_le
    have begun : (m.poll file).sender = .polling acked acked acked := by
      simp only [Upload.poll, hs, entry]
      rw [if_neg (Nat.ne_of_lt below), if_neg (by omega)]
    exact ⟨acked, acked, ⟨acked, .inl begun⟩, fun h => absurd rfl h⟩
  | polling start sent' seen =>
    rw [hs] at at_
    obtain ⟨-, rfl, -, -⟩ := at_
    have on : (m.poll file).sender = .reading start sent' acked := by
      simp only [Upload.poll, hs, entry, if_pos (Nat.ne_of_lt below)]
      rw [if_neg (by unfold ACK_STEP at close; unfold WINDOW; omega)]
    exact ⟨sent', acked, ⟨start, .inr on⟩, fun _ => ⟨start, on⟩⟩
  | reading start sent' seen =>
    have on : (m.poll file).sender = .reading start sent' seen := by simp [Upload.poll, hs]
    exact ⟨sent', seen, ⟨start, .inr on⟩, fun _ => ⟨start, on⟩⟩

theorem Upload.Flows.of_reachable (h : (smoothUploads id file remote).Reachable m) : m.Flows id file remote :=
  h.invariant
    (fun m hm => by
      cases hm
      exact .inl ⟨rfl, rfl, rfl, by simp [initial], rfl⟩)
    (fun m e _ hm he => hm.step he.1 he.2)

/-- The sender is at most the window and a chunk ahead of the last ack it has read. -/
theorem Upload.Flows.window (h : m.Flows id file remote) {sent seen : Nat} (sending : Sending m sent seen) :
    sent - seen ≤ WINDOW + FILE_CHUNK := by
  obtain ⟨-, -, -, sender, -⟩ | ⟨begin, written, last, acked, sent', flow⟩ := h
  · simp only [List.mem_cons, List.not_mem_nil, or_false] at sender
    obtain ⟨start, hs | hs⟩ := sending <;> simp [hs] at sender
  · obtain ⟨-, rfl, -, window⟩ := flow.sending sending
    omega

/-- In every state: a frame arrives where the host's count is; the sender is at
most the window and a chunk ahead of the last ack it has read; and when frames and
acks have all arrived and the upload is unfinished, it is less than the step
between acks ahead of the ack in `up_acked`, and its next check lets it on. -/
theorem upload_window (h : (smoothUploads id file remote).Reachable m) :
    (∀ frame rest, m.toHost = .raw frame :: rest → ∃ u offset data, m.host.upload = some u ∧
        parseFileFrame frame = some (id, offset, data) ∧ offset.toNat = u.written) ∧
      (∀ sent seen, Sending m sent seen → sent - seen ≤ WINDOW + FILE_CHUNK) ∧
      (m.toHost = [] → (∀ offset size done, .fsProgress offset size done ∉ m.toController) →
        m.host.upload.isSome →
        (∀ sent seen, Sending m sent seen → ∃ acked, m.acked = some acked ∧ sent - acked < ACK_STEP) ∧
          (m.sender ≠ .stopped → ∃ sent seen, Sending (m.poll file) sent seen ∧
            (m.sender ≠ .waiting → ∃ start, (m.poll file).sender = .reading start sent seen))) := by
  have flows := Upload.Flows.of_reachable h
  have window (sent seen : Nat) (s : Sending m sent seen) : sent - seen ≤ WINDOW + FILE_CHUNK := flows.window s
  obtain ⟨head, silent, unacked, sender, fresh⟩ | ⟨begin, written, last, acked, sent, flow⟩ := flows
  · refine ⟨fun frame rest eq => ?_, window, fun no_frame => ?_⟩
    · cases head.symm.trans eq
    · cases head.symm.trans no_frame
  · refine ⟨fun frame rest head => ?_, window, fun no_frame no_ack unfinished => ⟨fun sent' seen s => ?_, ?_⟩⟩
    · obtain ⟨n, -, -, eq, -, here, upload⟩ := flow.frame head
      cases eq
      exact ⟨_, _, _, upload, parse_encodeFileFrame _ _ _, here⟩
    · obtain ⟨entry, rfl, -, -⟩ := flow.sending s
      exact ⟨acked, entry, (flow.settled no_frame no_ack unfinished).2⟩
    · exact flow.next_check no_frame no_ack unfinished

end Window

/-- The second byte of a file arrives where the host is, behind the first. -/
theorem upload_window_resumed :
    ∃ u offset data,
      ((uploads 1 sampleFile (some [1])).after (initial sampleFile (some [1]))
        [.host {}, .reader, .poll, .poll, .queue 1]).host.upload = some u ∧
      parseFileFrame (encodeFileFrame 1 1 [2]) = some (1, offset, data) ∧ offset.toNat = u.written := by
  have hv : (uploads 1 sampleFile (some [1])).Valid (initial sampleFile (some [1]))
      [.host {}, .reader, .poll, .poll, .queue 1] := by decide
  have reached := System.Reachable.after (M := smoothUploads 1 sampleFile (some [1])) (.init rfl)
    (System.valid_restrict.2 ⟨hv, rfl, trivial, trivial, trivial, trivial, trivial⟩)
  exact (upload_window reached).1 (encodeFileFrame 1 1 [2]) [] rfl

end ZortilWatch.Core
