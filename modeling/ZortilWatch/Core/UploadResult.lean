import ZortilWatch.Core.UploadSession

/-!
# What a finished upload leaves

The host trusts the bytes it finds at the path, and uploads to one path write to one
file: a finished upload is what was there, the rest of the file behind it, and what
other uploads have written over it. So it is the file if the old content was its
beginning and no other upload put other bytes there, and without other uploads only
then (`finished_upload_iff`).
-/

namespace ZortilWatch.Core

/-- The upload that a request is about. -/
def UploadRequest.id? : UploadRequest → Option UInt32
  | .fsUploadStart id _ _ => some id
  | .raw frame => (parseFileFrame frame).map (·.1)
  | .fsCancel id => some id

def UploadRequest.starts (id : UInt32) : UploadRequest → Bool
  | .fsUploadStart fid _ _ => fid == id
  | _ => false

def HostMessage.succeeds : HostMessage → Bool
  | .fsDone ok _ => ok
  | .fsProgress _ _ _ => false

/-- What is noted about one upload of a run. -/
structure UploadNote where
  file : DiskFile
  path : String
  /-- What is at the path when the host opens it. -/
  prior : Option Bytes := none
  /-- Another upload has changed the file since. -/
  foreign : Bool := false
  /-- Another upload has made it something the local file does not begin with. -/
  clobbered : Bool := false
  /-- The host has just sent its `fsDone` with `ok`. -/
  done : Bool := false

namespace UploadSession

variable (id : UInt32)

/-- Note what the host does. -/
def noteHost (m : UploadSession) (disk : Disk) (u : UploadNote) : UploadNote :=
  match m.toHost with
  | [] => { u with done := false }
  | req :: _ =>
    let r := m.host.onRequest disk req
    let done := r.2.any fun msg => msg.1 == id && msg.2.succeeds
    if req.id? = some id then
      if req.starts id then
        { u with prior := some ((m.host.disk u.path).getD []), foreign := false, clobbered := false, done := done }
      else { u with done := done }
    else
      let changed := r.1.disk u.path != m.host.disk u.path
      { u with
        foreign := u.foreign || changed
        clobbered := u.clobbered || changed && !((r.1.disk u.path).getD []).isPrefixOf u.file.bytes
        done := done }

def note (m : UploadSession) (e : Event) (r : Option UploadNote) : Option UploadNote :=
  match e with
  | .fsUpload fid file path =>
    if fid = id then some { file := file, path := path } else r.map ({ · with done := false })
  | .host disk => r.map (m.noteHost id disk)
  | _ => r.map ({ · with done := false })

end UploadSession

/-- The runs of a session, with what is noted about the upload `id`. -/
def notedUploads (disk : String → Option Bytes) (id : UInt32) :
    System (UploadSession × Option UploadNote) UploadSession.Event :=
  (uploading disk).recording (fun _ => none) (UploadSession.note id)

/-! ## The host and one file -/

section Host

variable {whole : Bytes} {content : Option Bytes} {u : HostUpload}

/-- While the upload is open, its file is `whole` so far, up to a write that failed. -/
def Partly (whole : Bytes) (content : Option Bytes) (upload : Option HostUpload) : Prop :=
  ∀ u ∈ upload, u.size = whole.length ∧
    ∃ upto, u.written ≤ upto ∧ upto ≤ whole.length ∧ content = some (whole.take upto)

/-- A frame that is taken extends the file by its bytes; one that fails leaves some of
them behind the count. -/
theorem Partly.write (h : Partly whole content (some u)) (offset n : Nat) (inside : offset + n ≤ whole.length)
    (disk : Disk) {data : Bytes} (slice : offset = u.written → data = (whole.drop offset).take n) :
    let r := ({ remote := content, upload := some u } : HostSide).write u offset data disk
    Partly whole r.1.remote r.1.upload ∧ (r.2.any HostMessage.succeeds = true → r.1.remote = some whole) := by
  obtain ⟨size, upto, written, upto_le, there⟩ := h u rfl
  unfold HostSide.write
  split_ifs with taken
  · obtain ⟨rfl, -⟩ := taken
    cases slice rfl
    split
    · -- some of the bytes are written and not counted
      rename_i k _
      refine ⟨?_, nofun⟩
      rintro _ ⟨⟩
      refine ⟨size, max upto (min (u.written + min k n) whole.length), by omega, by omega, ?_⟩
      simp only [there, Option.getD_some, List.take_take, writeAt_take _ written upto_le]
    · have length : ((whole.drop u.written).take n).length = n := by
        rw [List.length_take, List.length_drop]
        omega
      simp only [there, Option.getD_some, length, writeAt_take n written upto_le]
      split_ifs with complete crossed
      · have all : max upto (min (u.written + n) whole.length) = whole.length := by omega
        exact ⟨nofun, fun _ => by rw [all, List.take_length]⟩
      all_goals
        refine ⟨?_, by simp [HostMessage.succeeds]⟩
        rintro _ ⟨⟩
        exact ⟨size, max upto (min (u.written + n) whole.length), by simp only; omega, by omega, rfl⟩
  · exact ⟨h, nofun⟩

/-- The count only grows. -/
theorem written_write (side : HostSide) (upload : side.upload = some u) (offset : Nat) (data : Bytes) (disk : Disk) :
    ∀ u' ∈ (side.write u offset data disk).1.upload, u.written ≤ u'.written := by
  unfold HostSide.write
  split_ifs
  · split
    · intro u' mem
      cases upload.symm.trans mem
      exact Nat.le_refl _
    · dsimp only
      split_ifs
      · nofun
      all_goals
        rintro _ ⟨⟩
        exact Nat.le_add_right _ _
  · intro u' mem
    cases upload.symm.trans mem
    exact Nat.le_refl _

/-- Writing does not shorten a file. -/
theorem length_write (side : HostSide) (offset : Nat) (data : Bytes) (disk : Disk) {c : Bytes}
    (there : side.remote = some c) :
    ∃ c', (side.write u offset data disk).1.remote = some c' ∧ c.length ≤ c'.length := by
  unfold HostSide.write
  split_ifs
  · split
    · exact ⟨_, rfl, by rw [there, Option.getD_some, length_writeAt]; exact Nat.le_max_left _ _⟩
    · dsimp only
      split_ifs <;> exact ⟨_, rfl, by rw [there, Option.getD_some, length_writeAt]; exact Nat.le_max_left _ _⟩
  · exact ⟨c, there, Nat.le_refl _⟩

theorem remote_fsUploadStart {side : HostSide} {c : Bytes} (there : side.remote = some c) (size : Nat) (disk : Disk) :
    (side.fsUploadStart size disk).1.remote = some c := by
  unfold HostSide.fsUploadStart
  split
  · exact there
  · dsimp only
    split_ifs <;> rw [there, Option.getD_some]

/-- A request of another upload leaves the entry, tells nothing of this one and does not
shorten a file. -/
theorem onRequest_other {id : UInt32} {req : UploadRequest} (other : req.id? ≠ some id) (h : UploadHost) (disk : Disk) :
    (h.onRequest disk req).1.uploads id = h.uploads id ∧ (∀ msg ∈ (h.onRequest disk req).2, msg.1 ≠ id) ∧
      ∀ path c, h.disk path = some c →
        ∃ c', (h.onRequest disk req).1.disk path = some c' ∧ c.length ≤ c'.length := by
  have kept (path : String) (c : Bytes) (there : h.disk path = some c) :
      ∃ c', h.disk path = some c' ∧ c.length ≤ c'.length := ⟨c, there, Nat.le_refl _⟩
  cases req with
  | fsUploadStart fid fpath size =>
    have apart : id ≠ fid := fun same => other (congrArg some same.symm)
    refine ⟨?_, ?_, fun path c there => ?_⟩
    · simp only [UploadHost.onRequest, UploadHost.fsUploadStart]
      cases (({ remote := h.disk fpath } : HostSide).fsUploadStart size disk).1.upload with
      | none => rfl
      | some u => exact Function.update_of_ne apart _ _
    · intro msg mem
      obtain ⟨x, -, rfl⟩ := List.mem_map.1 mem
      exact apart.symm
    · simp only [UploadHost.onRequest, UploadHost.fsUploadStart]
      by_cases here : path = fpath
      · subst here
        refine ⟨c, ?_, Nat.le_refl _⟩
        rw [Function.update_self]
        exact remote_fsUploadStart there size disk
      · exact ⟨c, (Function.update_of_ne here _ _).trans there, Nat.le_refl _⟩
  | fsCancel fid =>
    have apart : id ≠ fid := fun same => other (congrArg some same.symm)
    exact ⟨Function.update_of_ne apart _ _, nofun, kept⟩
  | raw frame =>
    simp only [UploadHost.onRequest]
    split
    · exact ⟨rfl, nofun, kept⟩
    · rename_i fid o offset data received
      obtain ⟨parsed, known, entry⟩ := Option.bind_eq_some_iff.1 received
      obtain ⟨o', -, same⟩ := Option.map_eq_some_iff.1 entry
      cases same
      have apart : id ≠ parsed.1 := fun same => other (by rw [UploadRequest.id?, known, same]; rfl)
      refine ⟨Function.update_of_ne apart _ _, ?_, fun path c there => ?_⟩
      · intro msg mem
        obtain ⟨x, -, rfl⟩ := List.mem_map.1 mem
        exact apart.symm
      · simp only [UploadHost.write]
        by_cases here : path = o.path
        · subst here
          rw [Function.update_self]
          exact length_write _ _ _ _ there
        · exact ⟨c, (Function.update_of_ne here _ _).trans there, Nat.le_refl _⟩

end Host

/-! ## One upload of a session -/

/-- What the host has of an upload that it has begun: in terms of what was there before
and, as long as no other upload has changed the file, exactly. -/
structure Going (u : UploadNote) (prior : Bytes) (content : Option Bytes) (entry : Option OpenUpload) : Prop where
  path : ∀ o ∈ entry, o.path = u.path
  behind : ∀ o ∈ entry, prior.length ≤ o.upload.written ∧ prior.length ≤ u.file.bytes.length
  good : prior <+: u.file.bytes → u.clobbered = false →
    Partly u.file.bytes content (entry.map (·.upload)) ∧ (u.done = true → content = some u.file.bytes)
  alone : u.foreign = false →
    Partly (resumed prior u.file.bytes) content (entry.map (·.upload)) ∧
      (u.done = true → content = some (resumed prior u.file.bytes))

section Going

variable {u : UploadNote} {prior : Bytes} {content content' : Option Bytes} {entry : Option OpenUpload}

theorem Going.later (h : Going u prior content entry) : Going { u with done := false } prior content entry where
  path := h.path
  behind := h.behind
  good front clean := ⟨(h.good front clean).1, nofun⟩
  alone first := ⟨(h.alone first).1, nofun⟩

theorem Going.cancelled (u : UploadNote) (prior : Bytes) (content : Option Bytes) :
    Going { u with done := false } prior content none where
  path := nofun
  behind := nofun
  good _ _ := ⟨nofun, nofun⟩
  alone _ := ⟨nofun, nofun⟩

/-- Opening the file begins the upload at the end of what is there. -/
theorem going_start (u : UploadNote) (content : Option Bytes) (disk : Disk) :
    let r := ({ remote := content } : HostSide).fsUploadStart u.file.bytes.length disk
    Going { u with
        prior := some (content.getD []), foreign := false, clobbered := false,
        done := r.2.any HostMessage.succeeds } (content.getD []) r.1.remote (r.1.upload.map (⟨u.path, ·⟩)) := by
  unfold HostSide.fsUploadStart
  split
  · exact Going.cancelled { u with prior := some (content.getD []), foreign := false, clobbered := false } _ _
  · dsimp only
    split_ifs with all
    · have rest : u.file.bytes.drop (content.getD []).length = [] := List.drop_eq_nil_of_le (by omega)
      refine ⟨nofun, nofun, fun front _ => ⟨nofun, fun _ => ?_⟩, fun _ => ⟨nofun, fun _ => ?_⟩⟩
      · have whole : u.file.bytes.length ≤ (content.getD []).length := by omega
        rw [front.eq_of_length_le whole]
      · rw [resumed, rest, List.append_nil]
    · have short : min (content.getD []).length u.file.bytes.length = (content.getD []).length := by omega
      have inside : (content.getD []).length ≤ u.file.bytes.length := by omega
      refine ⟨?_, ?_, fun front _ => ⟨?_, by simp [HostMessage.succeeds]⟩,
        fun _ => ⟨?_, by simp [HostMessage.succeeds]⟩⟩ <;> rintro _ ⟨⟩
      · rfl
      · exact ⟨Nat.le_of_eq short.symm, inside⟩
      · exact ⟨rfl, _, Nat.le_of_eq short, inside, congrArg some (List.prefix_iff_eq_take.1 front)⟩
      · refine ⟨(length_resumed inside).symm, _, Nat.le_of_eq short, ?_, ?_⟩
        · rw [length_resumed inside]
          exact inside
        · rw [resumed, List.take_left]

/-- A frame of the upload. -/
theorem Going.write {o : OpenUpload} (h : Going u prior content (some o)) {offset : Nat} {data : Bytes}
    (inside : offset + data.length ≤ u.file.bytes.length)
    (slice : data = (u.file.bytes.drop offset).take data.length) (disk : Disk) :
    let r := ({ remote := content, upload := some o.upload } : HostSide).write o.upload offset data disk
    Going { u with done := r.2.any HostMessage.succeeds } prior r.1.remote (r.1.upload.map (⟨o.path, ·⟩)) := by
  intro r
  obtain ⟨old, short⟩ := h.behind o rfl
  have entries (upload : Option HostUpload) : (upload.map (OpenUpload.mk o.path)).map (·.upload) = upload := by
    cases upload <;> rfl
  constructor
  · intro o' mem
    obtain ⟨u', -, rfl⟩ := Option.map_eq_some_iff.1 mem
    exact h.path o rfl
  · intro o' mem
    obtain ⟨u', new, rfl⟩ := Option.map_eq_some_iff.1 mem
    have grows := written_write { remote := content, upload := some o.upload } rfl offset data disk u' new
    exact ⟨old.trans grows, short⟩
  · intro front clean
    rw [entries]
    exact (h.good front clean).1.write offset _ inside disk fun _ => slice
  · intro first
    rw [entries]
    have length := length_resumed short
    refine (h.alone first).1.write offset data.length (length ▸ inside) disk fun here => ?_
    rw [drop_resumed (here ▸ old)]
    exact slice

/-- A request of another upload. -/
theorem Going.other (h : Going u prior content entry)
    (longer : ∀ c, content = some c → ∃ c', content' = some c' ∧ c.length ≤ c'.length) :
    Going { u with
        foreign := u.foreign || (content' != content)
        clobbered := u.clobbered || (content' != content) && !(content'.getD []).isPrefixOf u.file.bytes
        done := false } prior content' entry where
  path := h.path
  behind := h.behind
  good front clean := by
    refine ⟨fun u' open_ => ?_, nofun⟩
    rw [Bool.or_eq_false_iff] at clean
    obtain ⟨size, upto, written, inside, there⟩ := (h.good front clean.1).1 u' open_
    by_cases same : content' = content
    · exact ⟨size, upto, written, inside, same.trans there⟩
    · obtain ⟨c', there', le⟩ := longer _ there
      have beginning : c' <+: u.file.bytes := by
        have kept := clean.2
        rw [bne_iff_ne.2 same, Bool.true_and, Bool.not_eq_false', there', Option.getD_some] at kept
        exact List.isPrefixOf_iff_prefix.1 kept
      rw [List.length_take_of_le inside] at le
      exact ⟨size, c'.length, written.trans le, beginning.length_le,
        there'.trans (congrArg some (List.prefix_iff_eq_take.1 beginning))⟩
  alone first := by
    rw [Bool.or_eq_false_iff, bne_eq_false_iff_eq] at first
    rw [first.2]
    exact ⟨(h.alone first.1).1, nofun⟩

end Going

/-- The frames of the upload in flight are bytes of its file. -/
def FramesOf (id : UInt32) (file : DiskFile) (requests : List UploadRequest) : Prop :=
  ∀ frame, .raw frame ∈ requests → ∀ offset data, parseFileFrame frame = some (id, offset, data) →
    offset.toNat + data.length ≤ file.bytes.length ∧ data = (file.bytes.drop offset.toNat).take data.length

/-- An upload that the host has not begun, and one that it has. -/
inductive Phase (id : UInt32) (m : UploadSession) (u : UploadNote) : Prop where
  | asked (starts : m.toHost.filter (·.starts id) = [.fsUploadStart id u.path u.file.bytes.length])
      (entry : m.host.uploads id = none) (done : u.done = false)
  | begun (prior : Bytes) (noted : u.prior = some prior) (starts : m.toHost.filter (·.starts id) = [])
      (going : Going u prior (m.host.disk u.path) (m.host.uploads id))

/-- The sender has read no more than there is. -/
def InFile (file : DiskFile) (sender : Sender) : Prop :=
  ∀ start sent seen, sender = .polling start sent seen ∨ sender = .reading start sent seen → sent ≤ file.bytes.length

/-- The upload `id`, before and behind its call. -/
inductive Tracked (id : UInt32) (m : UploadSession) : Option UploadNote → Prop where
  | unused (fresh : id ∉ m.used) (call : m.calls id = none) (entry : m.host.uploads id = none)
      (starts : m.toHost.filter (·.starts id) = [])
      (frames : ∀ frame, .raw frame ∈ m.toHost → (parseFileFrame frame).map (·.1) ≠ some id) : Tracked id m none
  | called (u : UploadNote) (sender : Sender) (used : id ∈ m.used) (call : m.calls id = some ⟨u.file, u.path, sender⟩)
      (sent : InFile u.file sender)
      (frames : FramesOf id u.file m.toHost) (phase : Phase id m u) : Tracked id m (some u)

section Run

variable {id : UInt32} {m : UploadSession} {u : UploadNote} {r : Option UploadNote}

theorem FramesOf.append {file : DiskFile} {before after : List UploadRequest} (h : FramesOf id file before)
    (h' : FramesOf id file after) : FramesOf id file (before ++ after) := fun frame mem =>
  (List.mem_append.1 mem).elim (h frame) (h' frame)

/-- Requests of other uploads, or none that begin this one. -/
theorem Phase.push (h : Phase id m u) {more : List UploadRequest} (quiet : more.filter (·.starts id) = [])
    {m' : UploadSession} (host : m'.host = m.host) (toHost : m'.toHost = m.toHost ++ more) :
    Phase id m' { u with done := false } := by
  have starts : m'.toHost.filter (·.starts id) = m.toHost.filter (·.starts id) := by
    rw [toHost, List.filter_append, quiet, List.append_nil]
  cases h with
  | asked s entry done => exact .asked (starts.trans s) (host ▸ entry) rfl
  | begun prior noted s going => exact .begun prior noted (starts.trans s) (host ▸ going.later)

/-- Requests that are no frames of this upload and do not begin it, while its thread does
nothing. -/
theorem Tracked.push (h : Tracked id m r) {more : List UploadRequest} {m' : UploadSession} (host : m'.host = m.host)
    (toHost : m'.toHost = m.toHost ++ more) (calls : m'.calls id = m.calls id) (used : id ∈ m'.used ↔ id ∈ m.used)
    (quiet : more.filter (·.starts id) = [])
    (others : ∀ frame, .raw frame ∈ more → (parseFileFrame frame).map (·.1) ≠ some id) :
    Tracked id m' (r.map ({ · with done := false })) := by
  cases h with
  | unused fresh call entry starts frames =>
    refine .unused (mt used.1 fresh) (calls.trans call) (host ▸ entry) ?_ fun frame mem => ?_
    · rw [toHost, List.filter_append, starts, quiet, List.append_nil]
    · rw [toHost] at mem
      exact (List.mem_append.1 mem).elim (frames frame) (others frame)
  | called u sender used' call sent frames phase =>
    refine .called _ sender (used.2 used') (calls.trans call) sent ?_ (phase.push quiet host toHost)
    rw [toHost]
    refine frames.append fun frame mem offset data parsed => ?_
    exact absurd (by rw [parsed]; rfl) (others frame mem)

/-! ### The threads of the calls -/

/-- The call that begins the upload. -/
theorem Tracked.call (h : Tracked id m r) (given : id ∉ m.used) (file : DiskFile) (path : String) :
    Tracked id (m.fsUpload id file path) (some { file := file, path := path }) := by
  cases h with
  | called _ _ used => exact absurd used given
  | unused fresh call entry starts frames =>
    refine .called _ .waiting List.mem_cons_self (Function.update_self _ _ _) (fun _ _ _ at_ => by simp at at_) ?_
      (.asked ?_ entry rfl)
    · intro frame mem offset data parsed
      rcases List.mem_append.1 mem with mem | mem
      · exact absurd (by rw [parsed]; rfl) (frames frame mem)
      · cases List.mem_singleton.1 mem
    · have here : (UploadRequest.fsUploadStart id path file.bytes.length).starts id = true := beq_self_eq_true id
      exact (List.filter_append _ _).trans (by rw [starts, List.filter_cons_of_pos here]; rfl)

/-- The call of another. -/
theorem Tracked.call_other (h : Tracked id m r) {fid : UInt32} (other : fid ≠ id) (file : DiskFile) (path : String) :
    Tracked id (m.fsUpload fid file path) (r.map ({ · with done := false })) := by
  refine h.push rfl rfl (Function.update_of_ne other.symm _ _) ?_ ?_ fun frame mem => by simp at mem
  · exact ⟨fun mem => (List.mem_cons.1 mem).resolve_left other.symm, List.mem_cons_of_mem _⟩
  · exact List.filter_cons_of_neg fun start => other (beq_iff_eq.1 start)

theorem inFile_poll {file : DiskFile} {v : Upload} (h : InFile file v.sender) : InFile file (v.poll file).sender := by
  intro start sent seen at_
  unfold Upload.poll at at_
  split at at_
  · simp at at_
  · rename_i hs _
    split_ifs at at_ with unacked all
    · simp [hs] at at_
    · simp at at_
    · simp only [Sender.polling.injEq, or_false] at at_
      omega
  · simp at at_
  · rename_i start' sent' seen' a hs _
    have le := h _ _ _ (.inl hs)
    simp only at at_
    split_ifs at at_
    all_goals
      simp only [Sender.polling.injEq, Sender.reading.injEq, or_false, false_or] at at_
      omega
  · exact h _ _ _ at_

/-- Looking into `up_acked` sends nothing. -/
theorem toHost_poll (file : DiskFile) (v : Upload) : (v.poll file).toHost = v.toHost := by
  unfold Upload.poll
  split
  · rfl
  · split_ifs <;> rfl
  · rfl
  · dsimp only
    split_ifs <;> rfl
  · rfl

/-- What the thread sends is a frame with bytes of the file. -/
theorem queue_cases (fid : UInt32) (file : DiskFile) (v : Upload) (n : Nat) :
    (v.queue fid file n).toHost = v.toHost ∧ (InFile file v.sender → InFile file (v.queue fid file n).sender) ∨
      ∃ start sent seen data, v.sender = .reading start sent seen ∧ data = (file.bytes.drop sent).take n ∧
        (v.queue fid file n).toHost = v.toHost ++ [.raw (encodeFileFrame fid (UInt64.ofNat sent) data)] ∧
        (v.queue fid file n).sender = .polling start (sent + data.length) seen := by
  unfold Upload.queue
  split
  · rename_i start sent seen hs
    dsimp only
    split
    · exact .inl ⟨rfl, fun _ _ _ _ at_ => by simp at at_⟩
    · exact .inr ⟨start, sent, seen, _, hs, rfl, rfl, rfl⟩
  · exact .inl ⟨rfl, id⟩

/-- A thread that goes on sends frames of its own upload. -/
theorem Tracked.goOn (h : Tracked id m r) {fid : UInt32} {c : UploadCall} (call : m.calls fid = some c) {v : Upload}
    (frames : ∀ req ∈ v.toHost, ∃ offset data, req = .raw (encodeFileFrame fid offset data))
    (own : InFile c.file c.sender →
      FramesOf fid c.file (v.toHost.map (·.request fid c.path)) ∧ InFile c.file v.sender) :
    Tracked id (m.goOn fid c v) (r.map ({ · with done := false })) := by
  have quiet : (v.toHost.map (·.request fid c.path)).filter (·.starts id) = [] := by
    rw [List.filter_eq_nil_iff]
    intro req mem
    obtain ⟨msg, sent, rfl⟩ := List.mem_map.1 mem
    obtain ⟨offset, data, rfl⟩ := frames msg sent
    exact Bool.false_ne_true
  have parsed (frame : Bytes) (mem : .raw frame ∈ v.toHost.map (·.request fid c.path)) :
      (parseFileFrame frame).map (·.1) = some fid := by
    obtain ⟨msg, sent, eq⟩ := List.mem_map.1 mem
    obtain ⟨offset, data, rfl⟩ := frames msg sent
    cases eq
    rw [parse_encodeFileFrame]
    rfl
  by_cases same : fid = id
  · subst same
    cases h with
    | unused _ none_ => cases none_.symm.trans call
    | called u sender used called sent slices phase =>
      cases called.symm.trans call
      obtain ⟨new, inFile⟩ := own sent
      exact .called _ v.sender used (Function.update_self _ _ _) inFile (slices.append new) (phase.push quiet rfl rfl)
  · refine h.push rfl rfl (Function.update_of_ne (Ne.symm same) _ _) Iff.rfl quiet fun frame mem => ?_
    rw [parsed frame mem]
    exact fun eq => same (Option.some.inj eq)

theorem Tracked.goOn_silent (h : Tracked id m r) {fid : UInt32} {c : UploadCall} (call : m.calls fid = some c)
    {v : Upload} (silent : v.toHost = []) (kept : InFile c.file c.sender → InFile c.file v.sender) :
    Tracked id (m.goOn fid c v) (r.map ({ · with done := false })) := by
  refine h.goOn call (fun req mem => ?_) fun inside => ⟨?_, kept inside⟩
  · rw [silent] at mem
    cases mem
  · rw [silent]
    exact nofun

theorem Tracked.queue (h : Tracked id m r) {fid : UInt32} {c : UploadCall} (call : m.calls fid = some c) (n : Nat) :
    Tracked id (m.goOn fid c ((m.thread fid c).queue fid c.file n)) (r.map ({ · with done := false })) := by
  rcases queue_cases fid c.file (m.thread fid c) n with
    ⟨silent, kept⟩ | ⟨start, sent, seen, data, at_, read, sends, goes⟩
  · exact h.goOn_silent call silent kept
  · refine h.goOn call (fun req mem => ?_) fun inside => ⟨fun frame mem offset data' parsed => ?_, ?_⟩
    · rw [sends] at mem
      exact ⟨_, _, List.mem_singleton.1 mem⟩
    · rw [sends] at mem
      cases List.mem_singleton.1 mem
      cases (parse_encodeFileFrame fid (UInt64.ofNat sent) data).symm.trans parsed
      have bound := c.file.bound
      have le := inside _ _ _ (.inr at_)
      have here : (UInt64.ofNat sent).toNat = sent := UInt64.toNat_ofNat_of_lt' (by rw [UInt64.size]; omega)
      rw [here, read]
      exact ⟨read_le le n, (take_length_take _ n).symm⟩
    · have le := inside _ _ _ (.inr at_)
      intro start' sent' seen' now
      rw [goes] at now
      simp only [Sender.polling.injEq, reduceCtorEq, or_false] at now
      rw [← now.2.1, read]
      exact read_le le n

/-! ### The host -/

/-- A frame without an entry is dropped. -/
theorem receiver_eq_none {h : UploadHost} {frame : Bytes} (own : (parseFileFrame frame).map (·.1) = some id)
    (entry : h.uploads id = none) : h.receiver frame = none := by
  obtain ⟨⟨fid, offset, data⟩, known, rfl⟩ := Option.map_eq_some_iff.1 own
  rw [UploadHost.receiver, known]
  show (h.uploads fid).map _ = none
  rw [entry]
  rfl

theorem receiver_eq_some {h : UploadHost} {frame : Bytes} (own : (parseFileFrame frame).map (·.1) = some id)
    {o : OpenUpload} (entry : h.uploads id = some o) : ∃ offset data, parseFileFrame frame = some (id, offset, data) ∧
      h.receiver frame = some (id, o, offset.toNat, data) := by
  obtain ⟨⟨_, offset, data⟩, known, rfl⟩ := Option.map_eq_some_iff.1 own
  refine ⟨offset, data, known, ?_⟩
  rw [UploadHost.receiver, known]
  show (h.uploads _).map _ = _
  rw [entry]
  rfl

/-- What the host does with a request of an upload that it has begun. -/
theorem Going.onRequest {prior : Bytes} (h : Going u prior (m.host.disk u.path) (m.host.uploads id))
    {req : UploadRequest} (own : req.id? = some id) (begun : req.starts id = false)
    (frames : FramesOf id u.file [req]) (disk : Disk) :
    Going { u with done := (m.host.onRequest disk req).2.any fun msg => msg.1 == id && msg.2.succeeds } prior
      ((m.host.onRequest disk req).1.disk u.path) ((m.host.onRequest disk req).1.uploads id) := by
  cases req with
  | fsUploadStart fid path size =>
    cases own
    rw [UploadRequest.starts, beq_self_eq_true] at begun
    cases begun
  | fsCancel fid =>
    cases own
    simp only [UploadHost.onRequest, Function.update_self]
    exact Going.cancelled _ _ _
  | raw frame =>
    cases entry : m.host.uploads id with
    | none =>
      simp only [UploadHost.onRequest, receiver_eq_none own entry, entry]
      exact Going.cancelled _ _ _
    | some o =>
      obtain ⟨offset, data, parsed, received⟩ := receiver_eq_some own entry
      obtain ⟨inside, slice⟩ := frames frame List.mem_cons_self offset data parsed
      rw [entry] at h
      obtain ⟨path, up⟩ := o
      obtain rfl : path = u.path := h.path _ rfl
      simp only [UploadHost.onRequest, received, UploadHost.write, Function.update_self, List.any_map,
        Function.comp_def, beq_self_eq_true, Bool.true_and]
      exact h.write inside slice disk

/-- What it does with one of an upload that it has not, but the request to begin it. -/
theorem onRequest_unopened {h : UploadHost} {req : UploadRequest} (own : req.id? = some id)
    (begun : req.starts id = false) (entry : h.uploads id = none) (disk : Disk) :
    (h.onRequest disk req).1.uploads id = h.uploads id ∧ (h.onRequest disk req).2 = [] := by
  cases req with
  | fsUploadStart fid path size =>
    cases own
    rw [UploadRequest.starts, beq_self_eq_true] at begun
    cases begun
  | fsCancel fid =>
    cases own
    exact ⟨(Function.update_self _ _ _).trans entry.symm, rfl⟩
  | raw frame =>
    simp only [UploadHost.onRequest, receiver_eq_none own entry]
    exact ⟨trivial, trivial⟩

/-- The host begins an upload it has no entry of. -/
theorem going_onRequest (u : UploadNote) {h : UploadHost} (entry : h.uploads id = none) (disk : Disk) :
    let r := h.onRequest disk (.fsUploadStart id u.path u.file.bytes.length)
    Going { u with
      prior := some ((h.disk u.path).getD []), foreign := false, clobbered := false
      done := r.2.any fun msg => msg.1 == id && msg.2.succeeds }
      ((h.disk u.path).getD []) (r.1.disk u.path) (r.1.uploads id) := by
  have started := going_start u (h.disk u.path) disk
  dsimp only at started
  simp only [UploadHost.onRequest, UploadHost.fsUploadStart, Function.update_self, List.any_map,
    Function.comp_def, beq_self_eq_true, Bool.true_and]
  cases entries : (({ remote := h.disk u.path } : HostSide).fsUploadStart u.file.bytes.length disk).1.upload with
  | none =>
    rw [entries] at started
    dsimp only
    rw [entry]
    exact started
  | some up =>
    rw [entries] at started
    dsimp only
    rw [Function.update_self]
    exact started

theorem Phase.host (h : Phase id m u) (frames : FramesOf id u.file m.toHost) (disk : Disk) :
    Phase id (m.hostStep disk) (m.noteHost id disk u) := by
  unfold UploadSession.hostStep UploadSession.noteHost
  cases head : m.toHost with
  | nil =>
    cases h with
    | asked starts _ _ =>
      rw [head] at starts
      cases starts
    | begun prior noted _ going => exact .begun prior noted (by rw [head]; rfl) going.later
  | cons req rest =>
    rw [head] at frames
    have own_frames : FramesOf id u.file [req] := fun frame mem =>
      frames frame (by rw [List.mem_singleton.1 mem]; exact List.mem_cons_self)
    have later (not_start : req.starts id = false) : rest.filter (·.starts id) = m.toHost.filter (·.starts id) := by
      rw [head, List.filter_cons_of_neg (by rw [not_start]; exact Bool.false_ne_true)]
    dsimp only
    split_ifs with own starts
    · -- the host begins the upload
      cases req with
      | raw | fsCancel => cases starts
      | fsUploadStart fid path size =>
        cases own
        cases h with
        | begun _ _ none_ _ =>
          rw [head, List.filter_cons_of_pos starts] at none_
          cases none_
        | asked one entry _ =>
          rw [head, List.filter_cons_of_pos starts] at one
          injection one with first others
          cases first
          exact .begun ((m.host.disk u.path).getD []) rfl others (going_onRequest u entry disk)
    · rw [Bool.not_eq_true] at starts
      cases h with
      | asked one entry _ =>
        obtain ⟨same, silent⟩ := onRequest_unopened own starts entry disk
        exact .asked ((later starts).trans one) (same ▸ entry) (by rw [silent]; rfl)
      | begun prior noted none_ going =>
        exact .begun prior noted ((later starts).trans none_) (going.onRequest own starts own_frames disk)
    · obtain ⟨entry', silent, longer⟩ := onRequest_other own m.host disk
      have quiet : ((m.host.onRequest disk req).2.any fun msg => msg.1 == id && msg.2.succeeds) = false := by
        rw [List.any_eq_false]
        intro msg mem
        simp [silent msg mem]
      have not_start : req.starts id = false := by
        cases req with
        | fsUploadStart fid => exact beq_eq_false_iff_ne.2 fun same => own (congrArg some same)
        | raw | fsCancel => rfl
      rw [quiet]
      cases h with
      | asked one entry _ => exact .asked ((later not_start).trans one) (entry'.trans entry) rfl
      | begun prior noted none_ going =>
        refine .begun prior noted ((later not_start).trans none_) ?_
        rw [← entry'] at going
        exact going.other (longer u.path)

theorem Tracked.host (h : Tracked id m r) (disk : Disk) :
    Tracked id (m.hostStep disk) (r.map (m.noteHost id disk)) := by
  cases h with
  | called u sender used call sent frames phase =>
    have begun := phase.host frames disk
    have same : (m.noteHost id disk u).file = u.file ∧ (m.noteHost id disk u).path = u.path := by
      unfold UploadSession.noteHost
      split
      · exact ⟨rfl, rfl⟩
      · dsimp only
        split_ifs <;> exact ⟨rfl, rfl⟩
    have kept : (m.hostStep disk).used = m.used ∧ (m.hostStep disk).calls = m.calls ∧
        ∀ req ∈ (m.hostStep disk).toHost, req ∈ m.toHost := by
      unfold UploadSession.hostStep
      cases head : m.toHost with
      | nil => exact ⟨rfl, rfl, fun _ mem => head ▸ mem⟩
      | cons req rest => exact ⟨rfl, rfl, fun _ => List.mem_cons_of_mem _⟩
    refine .called _ sender (kept.1 ▸ used) ?_ ?_ ?_ begun
    · rw [kept.2.1, call, same.1, same.2]
    · rw [same.1]
      exact sent
    · rw [same.1]
      exact fun frame mem => frames frame (kept.2.2 _ mem)
  | unused fresh call entry starts frames =>
    unfold UploadSession.hostStep
    cases head : m.toHost with
    | nil => exact .unused fresh call entry starts frames
    | cons req rest =>
      rw [head] at starts frames
      have not_start : req.starts id = false := by
        by_contra start
        rw [List.filter_cons_of_pos (by simpa using start)] at starts
        cases starts
      rw [List.filter_cons_of_neg (by simp [not_start])] at starts
      refine .unused fresh call ?_ starts fun frame mem => frames frame (List.mem_cons_of_mem _ mem)
      by_cases own : req.id? = some id
      · exact (onRequest_unopened own not_start entry disk).1.trans entry
      · exact (onRequest_other own m.host disk).1.trans entry

theorem Tracked.step (h : Tracked id m r) {e : UploadSession.Event} (admitted : m.admits e = true) :
    Tracked id (m.step e) (m.note id e r) := by
  have later {m' : UploadSession} (host : m'.host = m.host) (calls : m'.calls = m.calls) (used : m'.used = m.used)
      (toHost : m'.toHost = m.toHost) : Tracked id m' (r.map ({ · with done := false })) :=
    h.push host (by rw [toHost, List.append_nil]) (by rw [calls]) (by rw [used]) rfl
      fun _ mem => absurd mem List.not_mem_nil
  cases e with
  | fsUpload fid file path =>
    have given : fid ∉ m.used := by simpa [UploadSession.admits] using admitted
    by_cases same : fid = id
    · subst same
      rw [UploadSession.note, if_pos rfl]
      exact h.call given file path
    · rw [UploadSession.note, if_neg same]
      exact h.call_other same file path
  | poll fid =>
    obtain ⟨c, call, -⟩ := (Option.any_eq_true ..).1 admitted
    simp only [UploadSession.step, call, Option.elim_some]
    exact h.goOn_silent call (toHost_poll c.file (m.thread fid c)) fun inside => inFile_poll inside
  | queue fid n =>
    obtain ⟨c, call, -⟩ := (Option.any_eq_true ..).1 admitted
    simp only [UploadSession.step, call, Option.elim_some]
    exact h.queue call n
  | giveUp fid =>
    obtain ⟨c, call⟩ := Option.isSome_iff_exists.1 admitted
    simp only [UploadSession.step, call, Option.elim_some]
    exact h.goOn_silent call rfl fun _ _ _ _ at_ => by simp at at_
  | host disk => exact h.host disk
  | reader =>
    refine later ?_ ?_ ?_ ?_ <;> (simp only [UploadSession.step, UploadSession.reader]; split <;> rfl)
  | cancel fid => exact later rfl rfl rfl rfl
  | sendCancel fid => exact h.push rfl rfl rfl Iff.rfl rfl fun frame mem => by simp at mem

end Run

/-! ## Two uploads -/

instance (disk : String → Option Bytes) (id : UInt32) (p : UploadSession × Option UploadNote)
    (e : UploadSession.Event) : Decidable ((notedUploads disk id).enabled p e) :=
  inferInstanceAs (Decidable (p.1.admits e = true))

/-- The host's file, if there is one. -/
def hostFile (content : Option Bytes) (path : String) : Option Bytes := if path = "up.bin" then content else none

/-- Upload the file, all of its rest in one frame. -/
def oneUpload : List UploadSession.Event :=
  [.fsUpload 1 sampleFile "up.bin", .host {}, .reader, .poll 1, .poll 1, .queue 1 2, .host {}]

/-- Two uploads to one path, the frame of the second between those of the first. -/
def crossedUploads : List UploadSession.Event :=
  [.fsUpload 1 sampleFile "up.bin", .fsUpload 2 ⟨[3, 4], by decide⟩ "up.bin", .host {}, .host {}, .reader, .reader,
    .poll 1, .poll 1, .queue 1 1, .poll 2, .poll 2, .queue 2 2, .poll 1, .queue 1 1, .host {}, .host {}, .host {}]

end ZortilWatch.Core
