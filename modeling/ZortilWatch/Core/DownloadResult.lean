import ZortilWatch.Core.Download

/-!
# What a finished download leaves

The controller appends what arrives to what it has, whatever offset the frames
name and whether or not a write succeeds. So a finished download is the file if
the local file was its beginning, every frame of it was written and no other
download put other bytes there (`finished_download`).
-/

namespace ZortilWatch.Core

/-- What is noted about one download of a run. -/
structure Download where
  remotePath : String
  localPath : String
  /-- The local file before it. -/
  prior : Bytes
  /-- A frame of it was not written, or not as a whole. -/
  missed : Bool := false
  /-- Another download has written to its local file. -/
  foreign : Bool := false
  /-- Another download has written something the remote file does not begin with. -/
  clobbered : Bool := false
  /-- The message just handled is its `fsDone` with `ok`. -/
  done : Bool := false
  deriving DecidableEq

namespace Downloads

variable (remote : String → Option Bytes) (id : UInt32)

/-- Note what the reader thread does to the download. -/
def noteReader (m : Downloads) (writeFails : Option Nat) (d : Download) : Download :=
  match m.toController, m.arriving with
  | .fsDone fid ok _ :: _, _ => { d with done := decide (fid = id) && ok }
  | _, none => { d with done := false }
  | _, some (fid, _) =>
    if fid = id then
      { d with done := false, missed := d.missed || (m.down id).isNone || writeFails.isSome }
    else if (m.down fid).any fun e => e.path == d.localPath then
      { d with
        done := false
        foreign := true
        clobbered := d.clobbered ||
          !(((m.reader writeFails).localFiles d.localPath).getD []).isPrefixOf ((remote d.remotePath).getD []) }
    else { d with done := false }

def note (m : Downloads) (e : Event) (r : Option Download) : Option Download :=
  match e with
  | .fsDownload fid remotePath localPath =>
    if fid = id then
      some { remotePath := remotePath, localPath := localPath, prior := (m.localFiles localPath).getD [] }
    else r.map fun d => { d with done := false }
  | .reader writeFails => r.map (m.noteReader remote id writeFails)
  | _ => r.map fun d => { d with done := false }

end Downloads

/-- The runs of a session, with what is noted about the download `id`. -/
def notedDownloads (remote localFiles : String → Option Bytes) (id : UInt32) :
    System (Downloads × Option Download) Downloads.Event :=
  (downloading remote localFiles).recording (fun _ => none) (Downloads.note remote id)

/-! ## The channel of one download -/

/-- A message about one download. -/
inductive Piece where
  | data (bytes : Bytes)
  | ended (ok : Bool)
  deriving DecidableEq

def piece (id : UInt32) : HostOutput → Option Piece
  | .fileFrame frame =>
    match parseFileFrame frame with
    | some (fid, _, data) => if fid = id then some (.data data) else none
    | none => none
  | .fsDone fid ok _ => if fid = id then some (.ended ok) else none
  | .fsProgress _ _ _ | .other => none

def pieces (id : UInt32) (msgs : List HostOutput) : List Piece := msgs.filterMap (piece id)

/-- The pieces are the bytes of `whole` between two offsets, in order. -/
def Slices (whole : Bytes) : Nat → List Piece → Nat → Prop
  | arrived, [], off => arrived = off
  | arrived, .data bytes :: rest, off =>
    ∃ n, 0 < n ∧ arrived + n ≤ whole.length ∧ bytes = (whole.drop arrived).take n ∧ Slices whole (arrived + n) rest off
  | _, .ended _ :: _, _ => False

/-- The request for the download is not on its way. -/
def NotAsked (id : UInt32) (requests : List DownloadRequest) : Prop :=
  ∀ path offset, .fsDownload id path offset ∉ requests

/-- Where a download is on its way from the host: `arrived` bytes of `whole` have
arrived, the first ones being those the controller had. -/
inductive Sent (id : UInt32) (path : String) (prior : Nat) (whole : Bytes) (arrived : Nat)
    (requests : List DownloadRequest) (entry : Option HostDownload) (ps : List Piece) : Prop where
  | asked (before after : List DownloadRequest) : requests = before ++ .fsDownload id path prior :: after →
      NotAsked id before → NotAsked id after → entry = none → ps = [] → arrived = min prior whole.length →
      Sent id path prior whole arrived requests entry ps
  | pumped (off : Nat) : NotAsked id requests → entry = some { file := whole, off := off, size := whole.length } →
      off ≤ whole.length → Slices whole arrived ps off → Sent id path prior whole arrived requests entry ps
  | ended (off : Nat) (ok : Bool) (data : List Piece) : NotAsked id requests → entry = none → off ≤ whole.length →
      Slices whole arrived data off → ps = data ++ [.ended ok] → (ok = true → off = whole.length) →
      Sent id path prior whole arrived requests entry ps
  | dropped (off : Nat) : NotAsked id requests → entry = none → off ≤ whole.length → Slices whole arrived ps off →
      Sent id path prior whole arrived requests entry ps

def Downloads.Sending (remote : String → Option Bytes) (id : UInt32) (path : String) (prior arrived : Nat)
    (m : Downloads) : Prop :=
  Sent id path prior ((remote path).getD []) arrived m.toHost (m.downloads id) (pieces id m.toController)

/-- The local file of a download whose pieces have arrived up to `arrived`. -/
structure Stored (d : Download) (whole : Bytes) (arrived : Nat) (content : Bytes) (entry : Option Down) : Prop where
  path : ∀ e, entry = some e → e.path = d.localPath
  alone : d.foreign = false → d.clobbered = false
  /-- Under the condition, the local file is a beginning of the remote one. -/
  good : d.prior <+: whole → d.missed = false → d.clobbered = false →
    content <+: whole ∧ arrived ≤ content.length ∧ ∀ e, entry = some e → e.pos = arrived
  /-- With no other download about, the local file has grown by what was written. -/
  own : d.foreign = false → ∃ more, content = d.prior ++ more ∧
    more.length + d.missed.toNat + min d.prior.length whole.length ≤ arrived ∧
    ∀ e, entry = some e → e.pos = content.length

/-- The state of a download under way. -/
structure Begun (remote : String → Option Bytes) (id : UInt32) (m : Downloads) (d : Download) (arrived : Nat)
    (content : Bytes) : Prop where
  used : id ∈ m.used
  sending : m.Sending remote id d.remotePath d.prior.length arrived
  here : m.localFiles d.localPath = some content
  stored : Stored d ((remote d.remotePath).getD []) arrived content (m.down id)

/-- The host has nothing to do for an id that is not given out. -/
structure Unasked (id : UInt32) (m : Downloads) : Prop where
  asked : NotAsked id m.toHost
  entry : m.downloads id = none
  sent : pieces id m.toController = []

/-- The invariant of a run: nothing about an id not yet given out, and where its
download is afterwards. -/
inductive Noted (remote : String → Option Bytes) (id : UInt32) (m : Downloads) : Option Download → Prop where
  | fresh : id ∉ m.used → Unasked id m → Noted remote id m none
  | begun (d : Download) (arrived : Nat) (content : Bytes) : Begun remote id m d arrived content →
      (d.done = true → arrived = ((remote d.remotePath).getD []).length) → Noted remote id m (some d)

section Channel

variable {id : UInt32} {path : String} {prior : Nat} {whole : Bytes} {arrived : Nat}
  {requests : List DownloadRequest} {entry : Option HostDownload} {ps : List Piece}

@[simp] theorem pieces_append (msgs more : List HostOutput) :
    pieces id (msgs ++ more) = pieces id msgs ++ pieces id more :=
  List.filterMap_append

@[simp] theorem pieces_progress (fid : UInt32) (offset size : Nat) :
    pieces id [.fsProgress fid offset size] = [] := rfl

@[simp] theorem pieces_traffic : pieces id [.other] = [] := rfl

theorem pieces_cons (msg : HostOutput) (rest : List HostOutput) :
    pieces id (msg :: rest) = pieces id [msg] ++ pieces id rest :=
  pieces_append [msg] rest

theorem pieces_done (fid : UInt32) (ok : Bool) (err : Option String) :
    pieces id [.fsDone fid ok err] = if fid = id then [.ended ok] else [] := by
  simp only [pieces, List.filterMap_cons, piece]
  split_ifs <;> rfl

theorem pieces_parsed {frame : Bytes} {fid : UInt32} {offset : UInt64} {data : Bytes}
    (parsed : parseFileFrame frame = some (fid, offset, data)) :
    pieces id [.fileFrame frame] = if fid = id then [.data data] else [] := by
  simp only [pieces, List.filterMap_cons, piece, parsed]
  split_ifs <;> rfl

theorem pieces_frame (fid : UInt32) (offset : UInt64) (data : Bytes) :
    pieces id [.fileFrame (encodeFileFrame fid offset data)] = if fid = id then [.data data] else [] :=
  pieces_parsed (parse_encodeFileFrame fid offset data)

theorem Slices.snoc {off n : Nat} (h : Slices whole arrived ps off) (some_bytes : 0 < n)
    (inside : off + n ≤ whole.length) :
    Slices whole arrived (ps ++ [.data ((whole.drop off).take n)]) (off + n) := by
  induction ps generalizing arrived with
  | nil =>
    cases h
    exact ⟨n, some_bytes, inside, rfl, rfl⟩
  | cons p ps ih =>
    cases p with
    | data bytes =>
      obtain ⟨k, hk, room, eq, rest⟩ := h
      exact ⟨k, hk, room, eq, ih rest⟩
    | ended ok => exact h.elim

theorem notAsked_append {before after : List DownloadRequest} :
    NotAsked id (before ++ after) ↔ NotAsked id before ∧ NotAsked id after := by
  simp only [NotAsked, List.mem_append, not_or]
  exact ⟨fun h => ⟨fun p o => (h p o).1, fun p o => (h p o).2⟩, fun h p o => ⟨h.1 p o, h.2 p o⟩⟩

theorem notAsked_single {req : DownloadRequest} (other : ∀ p o, req ≠ .fsDownload id p o) : NotAsked id [req] :=
  fun p o h => other p o (List.mem_singleton.1 h).symm

/-- Another request is sent. -/
theorem Sent.push (h : Sent id path prior whole arrived requests entry ps) {req : DownloadRequest}
    (other : ∀ p o, req ≠ .fsDownload id p o) : Sent id path prior whole arrived (requests ++ [req]) entry ps := by
  have apart := notAsked_single other
  cases h with
  | asked before after eq hb ha none_yet none_sent first =>
    exact .asked before (after ++ [req]) (by rw [eq, List.append_assoc, List.cons_append]) hb
      (notAsked_append.2 ⟨ha, apart⟩) none_yet none_sent first
  | pumped off hn he hl hs => exact .pumped off (notAsked_append.2 ⟨hn, apart⟩) he hl hs
  | ended off ok data hn he hl hs hp hk => exact .ended off ok data (notAsked_append.2 ⟨hn, apart⟩) he hl hs hp hk
  | dropped off hn he hl hs => exact .dropped off (notAsked_append.2 ⟨hn, apart⟩) he hl hs

/-- Another request is taken. -/
theorem Sent.pop {req : DownloadRequest} (h : Sent id path prior whole arrived (req :: requests) entry ps)
    (other : ∀ p o, req ≠ .fsDownload id p o) : Sent id path prior whole arrived requests entry ps := by
  have tail {l : List DownloadRequest} (h : NotAsked id (req :: l)) : NotAsked id l :=
    fun p o hm => h p o (List.mem_cons_of_mem _ hm)
  cases h with
  | asked before after eq hb ha none_yet none_sent first =>
    cases before with
    | nil =>
      cases eq
      exact absurd rfl (other path prior)
    | cons b before =>
      cases eq
      exact .asked before after rfl (tail hb) ha none_yet none_sent first
  | pumped off hn he hl hs => exact .pumped off (tail hn) he hl hs
  | ended off ok data hn he hl hs hp hk => exact .ended off ok data (tail hn) he hl hs hp hk
  | dropped off hn he hl hs => exact .dropped off (tail hn) he hl hs

/-- The request of the download is the one at the head. -/
theorem Sent.asked_head {path' : String} {offset : Nat}
    (h : Sent id path prior whole arrived (.fsDownload id path' offset :: requests) entry ps) :
    path' = path ∧ offset = prior ∧ NotAsked id requests ∧ entry = none ∧ ps = [] ∧
      arrived = min prior whole.length := by
  cases h with
  | asked before after eq hb ha none_yet none_sent first =>
    cases before with
    | nil =>
      cases eq
      exact ⟨rfl, rfl, ha, none_yet, none_sent, first⟩
    | cons b before =>
      cases eq
      exact absurd List.mem_cons_self (hb path' offset)
  | pumped _ hn | ended _ _ _ hn | dropped _ hn => exact absurd List.mem_cons_self (hn path' offset)

/-- The host drops the entry. -/
theorem Sent.drop (h : Sent id path prior whole arrived requests entry ps) :
    Sent id path prior whole arrived requests none ps := by
  cases h with
  | asked before after eq hb ha none_yet none_sent first => exact .asked before after eq hb ha rfl none_sent first
  | pumped off hn he hl hs => exact .dropped off hn rfl hl hs
  | ended off ok data hn he hl hs hp hk => exact .ended off ok data hn rfl hl hs hp hk
  | dropped off hn he hl hs => exact .dropped off hn rfl hl hs

/-- An entry stands where the frames in flight end. -/
theorem Sent.of_entry {d : HostDownload} (h : Sent id path prior whole arrived requests (some d) ps) :
    NotAsked id requests ∧ d.file = whole ∧ d.size = whole.length ∧ d.off ≤ whole.length ∧
      Slices whole arrived ps d.off := by
  cases h with
  | asked _ _ _ _ _ none_yet => cases none_yet
  | pumped off hn he hl hs =>
    cases he
    exact ⟨hn, rfl, rfl, hl, hs⟩
  | ended _ _ _ _ he | dropped _ _ he => cases he

theorem Sent.take_data {bytes : Bytes} (h : Sent id path prior whole arrived requests entry (.data bytes :: ps)) :
    ∃ n, 0 < n ∧ arrived + n ≤ whole.length ∧ bytes = (whole.drop arrived).take n ∧
      Sent id path prior whole (arrived + n) requests entry ps := by
  cases h with
  | asked _ _ _ _ _ _ none_sent => cases none_sent
  | pumped off hn he hl hs =>
    obtain ⟨n, some_bytes, inside, eq, rest⟩ := hs
    exact ⟨n, some_bytes, inside, eq, .pumped off hn he hl rest⟩
  | ended off ok data hn he hl hs hp hk =>
    cases data with
    | nil => cases hp
    | cons p data =>
      cases hp
      obtain ⟨n, some_bytes, inside, eq, rest⟩ := hs
      exact ⟨n, some_bytes, inside, eq, .ended off ok data hn he hl rest rfl hk⟩
  | dropped off hn he hl hs =>
    obtain ⟨n, some_bytes, inside, eq, rest⟩ := hs
    exact ⟨n, some_bytes, inside, eq, .dropped off hn he hl rest⟩

/-- The end of a download comes behind all its bytes. -/
theorem Sent.take_ended {ok : Bool} (h : Sent id path prior whole arrived requests entry (.ended ok :: ps)) :
    (ok = true → arrived = whole.length) ∧ Sent id path prior whole arrived requests entry ps := by
  cases h with
  | asked _ _ _ _ _ _ none_sent => cases none_sent
  | pumped _ _ _ _ hs | dropped _ _ _ _ hs => exact hs.elim
  | ended off ok' data hn he hl hs hp hk =>
    cases data with
    | nil =>
      cases hp
      cases hs
      exact ⟨hk, .dropped arrived hn he hl rfl⟩
    | cons p data =>
      cases hp
      exact hs.elim

end Channel

/-! ## The host -/

section Host

variable {remote : String → Option Bytes} {id : UInt32} {path : String} {prior arrived : Nat} {m : Downloads}

/-- The host takes a request. -/
theorem Downloads.Sending.host (h : m.Sending remote id path prior arrived) (openError : Option String) :
    (m.host remote openError).Sending remote id path prior arrived := by
  unfold Downloads.host
  split
  · exact h
  · rename_i fid path' offset rest head
    unfold Downloads.Sending at h
    rw [head] at h
    by_cases same : fid = id
    · subst same
      obtain ⟨rfl, rfl, none_left, none_yet, none_sent, first⟩ := h.asked_head
      unfold Downloads.openDownload
      split
      · rename_i file hfile
        have opened : ((remote path').getD []) = file := by rw [hfile, Option.getD_some]
        rw [opened] at first
        refine .pumped (min offset file.length) none_left ?_ (by rw [opened]; exact Nat.min_le_right _ _) ?_
        · rw [opened]
          exact Function.update_self _ _ _
        · rw [pieces_append, none_sent]
          exact first
      · exact .ended arrived false [] none_left none_yet (by omega) rfl (by simp [none_sent, pieces_done]) nofun
    · have rest_sent := h.pop fun p o eq => same (by cases eq; rfl)
      unfold Downloads.openDownload
      split
      · simpa [Downloads.Sending, Function.update_of_ne (Ne.symm same)] using rest_sent
      · simpa [Downloads.Sending, pieces_done, same] using rest_sent
  · rename_i fid rest head
    unfold Downloads.Sending at h
    rw [head] at h
    have rest_sent := h.pop nofun
    by_cases same : fid = id
    · subst same
      have := rest_sent.drop
      simpa [Downloads.Sending] using this
    · simpa [Downloads.Sending, Function.update_of_ne (Ne.symm same)] using rest_sent

/-- The host ends a download. -/
theorem Downloads.Sending.finish (h : m.Sending remote id path prior arrived) (fid : UInt32) (ok : Bool)
    (err : Option String) (entry : (m.downloads fid).isSome)
    (whole : ∀ d, fid = id → ok = true → m.downloads fid = some d → d.off = d.file.length) :
    (m.finish fid ok err).Sending remote id path prior arrived := by
  obtain ⟨d, hd⟩ := Option.isSome_iff_exists.1 entry
  by_cases same : fid = id
  · subst same
    unfold Downloads.Sending at h
    rw [hd] at h
    obtain ⟨none_left, file, -, off_le, slices⟩ := h.of_entry
    refine .ended d.off ok (pieces fid m.toController) none_left (Function.update_self _ _ _) off_le slices ?_ ?_
    · simp [Downloads.finish, pieces_done]
    · exact fun hok => (whole d rfl hok hd).trans (by rw [file])
  · simpa [Downloads.Sending, Downloads.finish, pieces_done, same, Function.update_of_ne (Ne.symm same)] using h

/-- The host sends some bytes of a download. -/
theorem Downloads.Sending.frame (h : m.Sending remote id path prior arrived) {d : HostDownload}
    (hd : m.downloads id = some d) {n : Nat} (some_bytes : 0 < n) (inside : d.off + n ≤ d.file.length) :
    Downloads.Sending remote id path prior arrived { m with
      downloads := Function.update m.downloads id (some { d with off := d.off + n })
      toController := m.toController ++
        [.fileFrame (encodeFileFrame id (UInt64.ofNat d.off) ((d.file.drop d.off).take n))] } := by
  unfold Downloads.Sending at h
  rw [hd] at h
  obtain ⟨none_left, file, size, -, slices⟩ := h.of_entry
  rw [file] at inside
  refine .pumped (d.off + n) none_left ?_ inside ?_
  · rw [← size, ← file]
    exact Function.update_self _ _ _
  · rw [pieces_append, pieces_frame, if_pos rfl, file]
    exact slices.snoc some_bytes inside

/-- The host reads on in a download. -/
theorem Downloads.Sending.pump (h : m.Sending remote id path prior arrived) (fid : UInt32) (n : Nat) :
    (m.pump fid n).Sending remote id path prior arrived := by
  unfold Downloads.pump
  split
  · exact h
  · rename_i d hd
    simp only
    by_cases same : fid = id
    · subst same
      have sent := h
      unfold Downloads.Sending at sent
      rw [hd] at sent
      obtain ⟨-, file, size, off_le, -⟩ := sent.of_entry
      rw [← file] at size off_le
      split
      · refine h.finish fid _ none (by simp [hd]) fun d' _ all hd' => ?_
        cases hd.symm.trans hd'
        have := of_decide_eq_true all
        omega
      · rename_i some_bytes
        have positive : 0 < ((d.file.drop d.off).take n).length :=
          List.length_pos_iff.2 fun hnil => some_bytes (by rw [hnil]; rfl)
        have inside := read_le (show d.off ≤ d.file.length by omega) n
        have pushed := h.frame hd positive inside
        rw [take_length_take] at pushed
        split_ifs with complete
        · refine pushed.finish fid true none (by simp) fun d' _ _ hd' => ?_
          simp only [Function.update_self, Option.some.injEq] at hd'
          cases hd'
          simp only
          omega
        · exact pushed
    · split_ifs
      all_goals simpa [-List.append_assoc, Downloads.Sending, Downloads.finish, pieces_done, pieces_frame, same,
        Function.update_of_ne (Ne.symm same)] using h

/-- The host has nothing to do with the controller's side. -/
theorem host_controller (m : Downloads) (openError : Option String) :
    (m.host remote openError).localFiles = m.localFiles ∧ (m.host remote openError).down = m.down ∧
      (m.host remote openError).used = m.used := by
  unfold Downloads.host
  split
  · exact ⟨rfl, rfl, rfl⟩
  · unfold Downloads.openDownload
    split <;> exact ⟨rfl, rfl, rfl⟩
  · exact ⟨rfl, rfl, rfl⟩

theorem pump_controller (m : Downloads) (fid : UInt32) (n : Nat) :
    (m.pump fid n).localFiles = m.localFiles ∧ (m.pump fid n).down = m.down ∧ (m.pump fid n).used = m.used := by
  unfold Downloads.pump
  split
  · exact ⟨rfl, rfl, rfl⟩
  · simp only
    split_ifs <;> exact ⟨rfl, rfl, rfl⟩

end Host

/-! ## The reader thread -/

section Reader

variable {remote : String → Option Bytes} {id : UInt32} {m : Downloads} {d : Download} {whole content : Bytes}
  {arrived : Nat} {entry : Option Down}

/-- A write has nothing to do with the host's side. -/
theorem write_host (m : Downloads) (fid : UInt32) (e : Down) (data : Bytes) (writeFails : Option Nat) :
    (m.write fid e data writeFails).toHost = m.toHost ∧ (m.write fid e data writeFails).downloads = m.downloads ∧
      (m.write fid e data writeFails).toController = m.toController ∧
      (m.write fid e data writeFails).used = m.used := by
  unfold Downloads.write
  split <;> exact ⟨rfl, rfl, rfl, rfl⟩

/-- Bytes of the download find no entry. -/
theorem Stored.skip (h : Stored d whole arrived content none) {n : Nat} (some_bytes : 0 < n) (done : Bool) :
    Stored { d with done := done, missed := true } whole (arrived + n) content none where
  path := nofun
  alone := h.alone
  good _ missed := by cases missed
  own foreign := by
    obtain ⟨more, eq, length, -⟩ := h.own foreign
    exact ⟨more, eq, by simp only [Bool.toNat_true]; omega, nofun⟩

/-- Bytes of the download are written. -/
theorem Stored.append {e : Down} (h : Stored d whole arrived content (some e)) {n : Nat}
    (inside : arrived + n ≤ whole.length) (done : Bool) (written announced : Nat) :
    Stored { d with done := done } whole (arrived + n) (writeAt content e.pos ((whole.drop arrived).take n))
      (some { e with
        pos := e.pos + ((whole.drop arrived).take n).length, written := written, announced := announced }) where
  path e' he' := by
    cases he'
    exact h.path e rfl
  alone := h.alone
  good prior missed clobbered := by
    obtain ⟨start, reaches, pos⟩ := h.good prior missed clobbered
    have length : ((whole.drop arrived).take n).length = n := by
      rw [List.length_take, List.length_drop]
      omega
    rw [pos e rfl, length]
    refine ⟨writeAt_keeps_front start reaches n, ?_, fun e' he' => by cases he'; rfl⟩
    rw [length_writeAt, length]
    omega
  own foreign := by
    obtain ⟨more, eq, length, pos⟩ := h.own foreign
    rw [pos e rfl, writeAt_length]
    refine ⟨more ++ (whole.drop arrived).take n, by rw [eq, List.append_assoc], ?_, fun e' he' => ?_⟩
    · rw [List.length_append, List.length_take, List.length_drop]
      simp only
      omega
    · cases he'
      simp only [List.length_append]

/-- The write of bytes of the download fails behind some of them. -/
theorem Stored.fail {e : Down} (h : Stored d whole arrived content (some e)) {n k : Nat} {bytes : Bytes}
    (short : k < n) (done : Bool) :
    Stored { d with done := done, missed := true } whole (arrived + n) (writeAt content e.pos (bytes.take k))
      (some { e with pos := e.pos + (bytes.take k).length }) where
  path e' he' := by
    cases he'
    exact h.path e rfl
  alone := h.alone
  good _ missed := by cases missed
  own foreign := by
    obtain ⟨more, eq, length, pos⟩ := h.own foreign
    rw [pos e rfl, writeAt_length]
    refine ⟨more ++ bytes.take k, by rw [eq, List.append_assoc], ?_, fun e' he' => ?_⟩
    · have := List.length_take_le k bytes
      rw [List.length_append]
      simp only [Bool.toNat_true]
      omega
    · cases he'
      simp only [List.length_append]

/-- Another download writes to the local file. -/
theorem Stored.overwrite (h : Stored d whole arrived content entry) (offset : Nat) (bytes : Bytes) :
    Stored { d with
      done := false
      foreign := true
      clobbered := d.clobbered || !(writeAt content offset bytes).isPrefixOf whole } whole arrived
      (writeAt content offset bytes) entry where
  path := h.path
  alone foreign := by cases foreign
  good prior missed clobbered := by
    simp only [Bool.or_eq_false_iff, Bool.not_eq_false', List.isPrefixOf_iff_prefix] at clobbered
    obtain ⟨-, reaches, pos⟩ := h.good prior missed clobbered.1
    exact ⟨clobbered.2, reaches.trans (by rw [length_writeAt]; exact Nat.le_max_left _ _), pos⟩
  own foreign := by cases foreign

/-- The entry is removed. -/
theorem Stored.close (h : Stored d whole arrived content entry) (done : Bool) :
    Stored { d with done := done } whole arrived content none where
  path := nofun
  alone := h.alone
  good prior missed clobbered := by
    obtain ⟨start, reaches, -⟩ := h.good prior missed clobbered
    exact ⟨start, reaches, nofun⟩
  own foreign := by
    obtain ⟨more, eq, length, -⟩ := h.own foreign
    exact ⟨more, eq, length, nofun⟩

theorem Stored.later (h : Stored d whole arrived content entry) (done : Bool) :
    Stored { d with done := done } whole arrived content entry :=
  ⟨h.path, h.alone, h.good, h.own⟩

/-- What a write of bytes does to the local files. -/
theorem write_local (m : Downloads) (fid : UInt32) (e : Down) (data : Bytes) (writeFails : Option Nat) :
    ∃ part, (m.write fid e data writeFails).localFiles = Function.update m.localFiles e.path
        (some (writeAt ((m.localFiles e.path).getD []) e.pos part)) ∧
      ∀ id, id ≠ fid → (m.write fid e data writeFails).down id = m.down id := by
  unfold Downloads.write
  split
  · exact ⟨_, rfl, fun id other => Function.update_of_ne other _ _⟩
  · exact ⟨data, rfl, fun id other => Function.update_of_ne other _ _⟩

/-- A frame of another download is handled. -/
theorem Stored.other_frame (stored : Stored d whole arrived content (m.down id))
    (here : m.localFiles d.localPath = some content) {fid : UInt32} (other : fid ≠ id) (e : Down) (data : Bytes)
    (writeFails : Option Nat) :
    (e.path = d.localPath → ∃ content', (m.write fid e data writeFails).localFiles d.localPath = some content' ∧
      Stored { d with
        done := false
        foreign := true
        clobbered := d.clobbered || !content'.isPrefixOf whole }
        whole arrived content' ((m.write fid e data writeFails).down id)) ∧
    (e.path ≠ d.localPath → (m.write fid e data writeFails).localFiles d.localPath = some content) := by
  obtain ⟨part, files, entries⟩ := write_local m fid e data writeFails
  rw [files, entries id (Ne.symm other)]
  constructor
  · intro same
    rw [same, here, Option.getD_some, Function.update_self]
    exact ⟨_, rfl, stored.overwrite e.pos part⟩
  · intro apart
    rw [Function.update_of_ne (Ne.symm apart)]
    exact here

/-- A frame of the download is handled. -/
theorem Stored.own_frame (stored : Stored d whole arrived content (m.down id))
    (here : m.localFiles d.localPath = some content) {e : Down} (he : m.down id = some e) {n : Nat}
    (inside : arrived + n ≤ whole.length) {writeFails : Option Nat} (part : ∀ k, writeFails = some k → k < n) :
    ∃ content', (m.write id e ((whole.drop arrived).take n) writeFails).localFiles d.localPath = some content' ∧
      Stored { d with done := false, missed := d.missed || writeFails.isSome } whole (arrived + n) content'
        ((m.write id e ((whole.drop arrived).take n) writeFails).down id) := by
  rw [he] at stored
  have path := stored.path e rfl
  unfold Downloads.write
  split
  · rename_i k
    refine ⟨writeAt content e.pos (((whole.drop arrived).take n).take k), ?_, ?_⟩
    · simp only [path, here, Option.getD_some, Function.update_self]
    · simp only [Function.update_self, Option.isSome_some, Bool.or_true]
      exact stored.fail (part k rfl) false
  · refine ⟨writeAt content e.pos ((whole.drop arrived).take n), ?_, ?_⟩
    · simp only [path, here, Option.getD_some, Function.update_self]
    · simp only [Function.update_self, Option.isSome_none, Bool.or_false]
      exact stored.append inside false _ _

theorem noteReader_remotePath (m : Downloads) (writeFails : Option Nat) (d : Download) :
    (m.noteReader remote id writeFails d).remotePath = d.remotePath := by
  unfold Downloads.noteReader
  split
  · rfl
  · rfl
  · split_ifs <;> rfl

/-- The reader thread has nothing to do with the host's side. -/
theorem reader_host (m : Downloads) (writeFails : Option Nat) :
    (m.reader writeFails).toHost = m.toHost ∧ (m.reader writeFails).downloads = m.downloads ∧
      (m.reader writeFails).toController = m.toController.tail ∧ (m.reader writeFails).used = m.used := by
  unfold Downloads.reader
  split
  · rename_i head
    exact ⟨rfl, rfl, by rw [head]; rfl, rfl⟩
  · rename_i head
    rw [head]
    unfold Downloads.handle
    split
    · split
      · exact ⟨rfl, rfl, rfl, rfl⟩
      · split
        · exact ⟨rfl, rfl, rfl, rfl⟩
        · exact write_host _ _ _ _ _
    all_goals exact ⟨rfl, rfl, rfl, rfl⟩

variable {writeFails : Option Nat}

/-- What a message does to a download once its pieces, its file and its entry are known. -/
theorem Begun.reader_of (h : Begun remote id m d arrived content) {d' : Download} {arrived' : Nat} {content' : Bytes}
    (paths : d'.remotePath = d.remotePath ∧ d'.localPath = d.localPath) (prior : d'.prior = d.prior)
    (sending : Sent id d.remotePath d.prior.length ((remote d.remotePath).getD []) arrived' m.toHost (m.downloads id)
      (pieces id m.toController.tail))
    (here : (m.reader writeFails).localFiles d.localPath = some content')
    (stored : Stored d' ((remote d.remotePath).getD []) arrived' content' ((m.reader writeFails).down id)) :
    Begun remote id (m.reader writeFails) d' arrived' content' := by
  obtain ⟨toHost, downloads, toController, used⟩ := reader_host m writeFails
  refine ⟨?_, ?_, ?_, ?_⟩
  · rw [used]
    exact h.used
  · unfold Downloads.Sending
    rw [toHost, downloads, toController, paths.1, prior]
    exact sending
  · rw [paths.2]
    exact here
  · rw [paths.1]
    exact stored

section Head

variable {msg : HostOutput} {rest : List HostOutput} {frame data : Bytes} {fid : UInt32} {offset : UInt64}

theorem Begun.sending_tail (h : Begun remote id m d arrived content) (head : m.toController = msg :: rest)
    (none_here : pieces id [msg] = []) :
    Sent id d.remotePath d.prior.length ((remote d.remotePath).getD []) arrived m.toHost (m.downloads id)
      (pieces id m.toController.tail) := by
  have sending := h.sending
  unfold Downloads.Sending at sending
  rw [head, pieces_cons, none_here, List.nil_append] at sending
  rw [head, List.tail_cons]
  exact sending

/-- A message that says nothing about the download and changes no file. -/
theorem Begun.reader_apart (h : Begun remote id m d arrived content) (head : m.toController = msg :: rest)
    (none_here : pieces id [msg] = []) (files : (m.reader writeFails).localFiles = m.localFiles)
    (entry : (m.reader writeFails).down id = m.down id) :
    Begun remote id (m.reader writeFails) { d with done := false } arrived content := by
  refine h.reader_of ⟨rfl, rfl⟩ rfl (h.sending_tail head none_here) ?_ ?_
  · rw [files]
    exact h.here
  · rw [entry]
    exact h.stored.later false

theorem Begun.reader_done (h : Begun remote id m d arrived content) {ok : Bool} {err : Option String}
    (head : m.toController = .fsDone fid ok err :: rest) :
    Begun remote id (m.reader writeFails) { d with done := decide (fid = id) && ok } arrived content ∧
      ((decide (fid = id) && ok) = true → arrived = ((remote d.remotePath).getD []).length) := by
  have files : (m.reader writeFails).localFiles = m.localFiles := by
    simp only [Downloads.reader, head, Downloads.handle]
  have entries : (m.reader writeFails).down = Function.update m.down fid none := by
    simp only [Downloads.reader, head, Downloads.handle]
  by_cases same : fid = id
  · subst same
    have sending := h.sending
    unfold Downloads.Sending at sending
    rw [head, pieces_cons, pieces_done, if_pos rfl] at sending
    obtain ⟨all, sending⟩ := Sent.take_ended sending
    refine ⟨h.reader_of ⟨rfl, rfl⟩ rfl ?_ ?_ ?_, fun done => all (by simpa using done)⟩
    · rw [head]
      exact sending
    · rw [files]
      exact h.here
    · rw [entries, Function.update_self]
      exact h.stored.close _
  · rw [decide_eq_false same, Bool.false_and]
    refine ⟨h.reader_apart head ?_ files ?_, fun done => by cases done⟩
    · rw [pieces_done, if_neg same]
    · rw [entries, Function.update_of_ne (Ne.symm same)]

/-- A frame of the download is written, in part or not at all if the write fails or
the entry is gone. -/
theorem Begun.reader_own_frame (h : Begun remote id m d arrived content)
    (admitted : m.admits (.reader writeFails) = true) (head : m.toController = .fileFrame frame :: rest)
    (parsed : parseFileFrame frame = some (id, offset, data)) :
    ∃ arrived' content', Begun remote id (m.reader writeFails)
      { d with done := false, missed := d.missed || (m.down id).isNone || writeFails.isSome } arrived' content' := by
  have sending := h.sending
  unfold Downloads.Sending at sending
  rw [head, pieces_cons, pieces_parsed parsed, if_pos rfl] at sending
  obtain ⟨n, some_bytes, inside, rfl, taken⟩ := Sent.take_data sending
  have tail : pieces id m.toController.tail = pieces id rest := by rw [head, List.tail_cons]
  rw [← tail] at taken
  cases he : m.down id with
  | none =>
    have read : m.reader writeFails = { m with toController := rest } := by
      simp only [Downloads.reader, head, Downloads.handle, parsed, he]
    have stored := h.stored
    rw [he] at stored
    refine ⟨arrived + n, content, h.reader_of ⟨rfl, rfl⟩ rfl taken ?_ ?_⟩
    · rw [read]
      exact h.here
    · rw [read, Option.isNone_none, Bool.or_true, Bool.true_or]
      simpa only [he] using stored.skip some_bytes false
  | some e =>
    have read : m.reader writeFails = Downloads.write { m with toController := rest } id e
        ((((remote d.remotePath).getD []).drop arrived).take n) writeFails := by
      simp only [Downloads.reader, head, Downloads.handle, parsed, he]
    -- a failed write has not written all
    have part (k : Nat) (hk : writeFails = some k) : k < n := by
      subst hk
      simp only [Downloads.admits, Downloads.arriving, head, parsed, Option.map_some, decide_eq_true_eq,
        List.length_take] at admitted
      omega
    obtain ⟨content', here, stored⟩ := Stored.own_frame (m := { m with toController := rest })
      h.stored h.here he inside part
    refine ⟨arrived + n, content', h.reader_of ⟨rfl, rfl⟩ rfl taken ?_ ?_⟩
    · rw [read]
      exact here
    · rw [read, Option.isNone_some, Bool.or_false]
      exact stored

/-- A frame of another download is written. -/
theorem Begun.reader_other_frame (h : Begun remote id m d arrived content)
    (head : m.toController = .fileFrame frame :: rest) (parsed : parseFileFrame frame = some (fid, offset, data))
    (other : fid ≠ id) (writeFails : Option Nat) :
    ∃ content', Begun remote id (m.reader writeFails) (m.noteReader remote id writeFails d) arrived content' := by
  have none_here : pieces id [.fileFrame frame] = [] := by rw [pieces_parsed parsed, if_neg other]
  unfold Downloads.noteReader Downloads.arriving
  simp only [head, parsed, Option.map_some, if_neg other]
  cases he : m.down fid with
  | none =>
    have read : m.reader writeFails = { m with toController := rest } := by
      simp only [Downloads.reader, head, Downloads.handle, parsed, he]
    exact ⟨content, h.reader_apart head none_here (by rw [read]) (by rw [read])⟩
  | some e =>
    have read : m.reader writeFails = Downloads.write { m with toController := rest } fid e data writeFails := by
      simp only [Downloads.reader, head, Downloads.handle, parsed, he]
    obtain ⟨shared, apart⟩ :=
      Stored.other_frame (m := { m with toController := rest }) h.stored h.here other e data writeFails
    rw [Option.any_some]
    by_cases path : e.path = d.localPath
    · obtain ⟨content', here, stored⟩ := shared path
      rw [← read] at here stored
      rw [path, beq_self_eq_true, if_pos rfl, here]
      exact ⟨content', h.reader_of ⟨rfl, rfl⟩ rfl (h.sending_tail head none_here) here stored⟩
    · obtain ⟨-, -, entries⟩ := write_local { m with toController := rest } fid e data writeFails
      rw [beq_eq_false_iff_ne.2 path, if_neg Bool.false_ne_true]
      refine ⟨content, h.reader_of ⟨rfl, rfl⟩ rfl (h.sending_tail head none_here) ?_ ?_⟩
      · rw [read]
        exact apart path
      · rw [read, entries id (Ne.symm other)]
        exact h.stored.later false

end Head

/-- The reader thread takes a message. -/
theorem Begun.reader (h : Begun remote id m d arrived content) (admitted : m.admits (.reader writeFails) = true) :
    ∃ arrived' content', Begun remote id (m.reader writeFails) (m.noteReader remote id writeFails d) arrived' content' ∧
      ((m.noteReader remote id writeFails d).done = true →
        arrived' = ((remote d.remotePath).getD []).length) := by
  cases head : m.toController with
  | nil =>
    have read : m.reader writeFails = m := by simp only [Downloads.reader, head]
    have note : m.noteReader remote id writeFails d = { d with done := false } := by
      simp only [Downloads.noteReader, Downloads.arriving, head]
    rw [read, note]
    exact ⟨arrived, content, ⟨h.used, h.sending, h.here, h.stored.later false⟩, fun done => by cases done⟩
  | cons msg rest =>
    cases msg with
    | fsProgress | other =>
      have note : m.noteReader remote id writeFails d = { d with done := false } := by
        simp only [Downloads.noteReader, Downloads.arriving, head]
      have read : m.reader writeFails = { m with toController := rest } := by
        simp only [Downloads.reader, head, Downloads.handle]
      rw [note]
      exact ⟨arrived, content, h.reader_apart head rfl (by rw [read]) (by rw [read]), fun done => by cases done⟩
    | fsDone fid ok err =>
      have note : m.noteReader remote id writeFails d = { d with done := decide (fid = id) && ok } := by
        simp only [Downloads.noteReader, head]
      rw [note]
      exact ⟨arrived, content, h.reader_done head⟩
    | fileFrame frame =>
      cases parsed : parseFileFrame frame with
      | none =>
        have note : m.noteReader remote id writeFails d = { d with done := false } := by
          simp only [Downloads.noteReader, Downloads.arriving, head, parsed, Option.map_none]
        have read : m.reader writeFails = { m with toController := rest } := by
          simp only [Downloads.reader, head, Downloads.handle, parsed]
        have none_here : pieces id [.fileFrame frame] = [] := by simp [pieces, piece, parsed]
        rw [note]
        exact ⟨arrived, content, h.reader_apart head none_here (by rw [read]) (by rw [read]),
          fun done => by cases done⟩
      | some p =>
        obtain ⟨fid, offset, data⟩ := p
        by_cases same : fid = id
        · subst same
          have note : m.noteReader remote fid writeFails d =
              { d with done := false, missed := d.missed || (m.down fid).isNone || writeFails.isSome } := by
            simp only [Downloads.noteReader, Downloads.arriving, head, parsed, Option.map_some, if_true]
          rw [note]
          obtain ⟨arrived', content', begun⟩ := h.reader_own_frame admitted head parsed
          exact ⟨arrived', content', begun, fun done => by cases done⟩
        · obtain ⟨content', begun⟩ := h.reader_other_frame head parsed same writeFails
          refine ⟨arrived, content', begun, fun done => absurd done ?_⟩
          simp only [Downloads.noteReader, Downloads.arriving, head, parsed, Option.map_some, if_neg same]
          split_ifs <;> simp

end Reader

/-! ## Runs -/

section Runs

variable {remote localFiles : String → Option Bytes} {id : UInt32} {m : Downloads} {d : Download} {content : Bytes}
  {arrived : Nat}

/-- `fs_download` gives the id out. -/
theorem begun_start (remote : String → Option Bytes) (h : Unasked id m) (remotePath localPath : String) :
    ∃ arrived content, Begun remote id (m.fsDownload id remotePath localPath)
      { remotePath := remotePath, localPath := localPath, prior := (m.localFiles localPath).getD [] }
      arrived content := by
  let prior := (m.localFiles localPath).getD []
  let whole := (remote remotePath).getD []
  refine ⟨min prior.length whole.length, prior, List.mem_cons_self, ?_, Function.update_self _ _ _, ?_⟩
  · exact .asked m.toHost [] rfl h.asked (fun _ _ => List.not_mem_nil) h.entry h.sent rfl
  · have entry : (m.fsDownload id remotePath localPath).down id =
        some { path := localPath, pos := prior.length, written := prior.length, announced := prior.length } :=
      Function.update_self _ _ _
    rw [entry]
    refine ⟨fun e he => by cases he; rfl, fun _ => rfl,
      fun start _ _ => ⟨start, Nat.min_le_left _ _, fun e he => ?_⟩,
      fun _ => ⟨[], (List.append_nil _).symm, by simp [prior, whole], fun e he => by cases he; rfl⟩⟩
    cases he
    exact (Nat.min_eq_left start.length_le).symm

/-- `fs_download` gives another id out. -/
theorem Begun.fsDownload (h : Begun remote id m d arrived content) {fid : UInt32} (other : fid ≠ id)
    (remotePath localPath : String) :
    Begun remote id (m.fsDownload fid remotePath localPath) { d with done := false } arrived content where
  used := List.mem_cons_of_mem _ h.used
  sending := Sent.push h.sending fun _ _ eq => other (by cases eq; rfl)
  here := by
    have here := h.here
    by_cases same : localPath = d.localPath
    · subst same
      simp [Downloads.fsDownload, here]
    · simpa [Downloads.fsDownload, Function.update_of_ne (Ne.symm same)] using here
  stored := by
    have entry : (m.fsDownload fid remotePath localPath).down id = m.down id :=
      Function.update_of_ne (Ne.symm other) _ _
    rw [entry]
    exact h.stored.later false

theorem Begun.fsCancel (h : Begun remote id m d arrived content) (fid : UInt32) :
    Begun remote id (m.fsCancel fid) { d with done := false } arrived content where
  used := h.used
  sending := Sent.push h.sending nofun
  here := h.here
  stored := by
    by_cases same : fid = id
    · subst same
      have entry : (m.fsCancel fid).down fid = none := Function.update_self _ _ _
      rw [entry]
      exact h.stored.close false
    · have entry : (m.fsCancel fid).down id = m.down id := Function.update_of_ne (Ne.symm same) _ _
      rw [entry]
      exact h.stored.later false

/-- A step of the host. -/
theorem Begun.hostSide (h : Begun remote id m d arrived content) {m' : Downloads}
    (sending : m'.Sending remote id d.remotePath d.prior.length arrived)
    (controller : m'.localFiles = m.localFiles ∧ m'.down = m.down ∧ m'.used = m.used) :
    Begun remote id m' { d with done := false } arrived content where
  used := controller.2.2 ▸ h.used
  sending := sending
  here := controller.1 ▸ h.here
  stored := controller.2.1 ▸ h.stored.later false

theorem Begun.step (h : Begun remote id m d arrived content) {e : Downloads.Event} (admitted : m.admits e = true) :
    ∃ d' arrived' content', m.note remote id e (some d) = some d' ∧
      Begun remote id (m.step remote e) d' arrived' content' ∧
      (d'.done = true → arrived' = ((remote d'.remotePath).getD []).length) := by
  cases e with
  | fsDownload fid remotePath localPath =>
    have other : fid ≠ id := by
      rintro rfl
      simp [Downloads.admits, h.used] at admitted
    exact ⟨_, _, _, by rw [Downloads.note, if_neg other]; rfl, h.fsDownload other remotePath localPath, nofun⟩
  | fsCancel fid => exact ⟨_, _, _, rfl, h.fsCancel fid, nofun⟩
  | host openError => exact ⟨_, _, _, rfl, h.hostSide (h.sending.host openError) (host_controller m openError), nofun⟩
  | pump fid n => exact ⟨_, _, _, rfl, h.hostSide (h.sending.pump fid n) (pump_controller m fid n), nofun⟩
  | pumpFails fid err =>
    refine ⟨{ d with done := false }, arrived, content, rfl, ?_, nofun⟩
    have entry : (m.downloads fid).isSome = true := admitted
    rw [Downloads.step, if_pos entry]
    exact h.hostSide (h.sending.finish fid false (some err) entry nofun) ⟨rfl, rfl, rfl⟩
  | traffic =>
    refine ⟨{ d with done := false }, arrived, content, rfl, h.hostSide ?_ ⟨rfl, rfl, rfl⟩, nofun⟩
    simpa [Downloads.Sending, Downloads.step] using h.sending
  | reader writeFails =>
    obtain ⟨arrived', content', begun, done⟩ := h.reader admitted
    refine ⟨_, arrived', content', rfl, begun, fun hd => ?_⟩
    rw [noteReader_remotePath]
    exact done hd

theorem Unasked.host (h : Unasked id m) (openError : Option String) : Unasked id (m.host remote openError) := by
  have asked := h.asked
  unfold Downloads.host
  split
  · exact h
  · rename_i fid path offset rest head
    rw [head] at asked
    have other : fid ≠ id := by
      rintro rfl
      exact asked path offset List.mem_cons_self
    have later : NotAsked id rest := fun p o hm => asked p o (List.mem_cons_of_mem _ hm)
    unfold Downloads.openDownload
    split
    · exact ⟨later, by simp [Function.update_of_ne (Ne.symm other), h.entry], by simp [h.sent]⟩
    · exact ⟨later, h.entry, by simp [h.sent, pieces_done, other]⟩
  · rename_i fid rest head
    rw [head] at asked
    refine ⟨fun p o hm => asked p o (List.mem_cons_of_mem _ hm), ?_, h.sent⟩
    by_cases same : fid = id
    · subst same
      exact Function.update_self _ _ _
    · simp [Function.update_of_ne (Ne.symm same), h.entry]

theorem Unasked.finish (h : Unasked id m) {fid : UInt32} (other : fid ≠ id) (ok : Bool) (err : Option String) :
    Unasked id (m.finish fid ok err) :=
  ⟨h.asked, by simp [Downloads.finish, Function.update_of_ne (Ne.symm other), h.entry],
    by simp [Downloads.finish, h.sent, pieces_done, other]⟩

theorem Unasked.pump (h : Unasked id m) (fid : UInt32) (n : Nat) : Unasked id (m.pump fid n) := by
  unfold Downloads.pump
  split
  · exact h
  · rename_i d hd
    have other : fid ≠ id := by
      rintro rfl
      cases hd.symm.trans h.entry
    have pushed (frame : UInt64) (data : Bytes) (d' : HostDownload) : Unasked id { m with
        downloads := Function.update m.downloads fid (some d')
        toController := m.toController ++ [.fileFrame (encodeFileFrame fid frame data)] } :=
      ⟨h.asked, by simp [Function.update_of_ne (Ne.symm other), h.entry], by simp [h.sent, pieces_frame, other]⟩
    simp only
    split_ifs
    · exact h.finish other _ _
    · exact (pushed _ _ _).finish other _ _
    · exact pushed _ _ _

theorem Noted.step {r : Option Download} (h : Noted remote id m r) {e : Downloads.Event}
    (admitted : m.admits e = true) : Noted remote id (m.step remote e) (m.note remote id e r) := by
  cases h with
  | begun d arrived content begun _ =>
    obtain ⟨d', arrived', content', noted, begun', done⟩ := begun.step admitted
    rw [noted]
    exact .begun d' arrived' content' begun' done
  | fresh unused quiet =>
    cases e with
    | fsDownload fid remotePath localPath =>
      by_cases same : fid = id
      · subst same
        obtain ⟨arrived, content, begun⟩ := begun_start remote quiet remotePath localPath
        rw [Downloads.note, if_pos rfl]
        exact .begun _ arrived content begun nofun
      · rw [Downloads.note, if_neg same]
        exact .fresh (by simpa [Downloads.step, Downloads.fsDownload, Ne.symm same] using unused)
          ⟨notAsked_append.2 ⟨quiet.asked, notAsked_single fun _ _ eq => same (by cases eq; rfl)⟩,
            quiet.entry, quiet.sent⟩
    | fsCancel fid =>
      exact .fresh unused ⟨notAsked_append.2 ⟨quiet.asked, notAsked_single nofun⟩, quiet.entry, quiet.sent⟩
    | host openError => exact .fresh ((host_controller m openError).2.2 ▸ unused) (quiet.host openError)
    | pump fid n => exact .fresh ((pump_controller m fid n).2.2 ▸ unused) (quiet.pump fid n)
    | pumpFails fid err =>
      have entry : (m.downloads fid).isSome = true := admitted
      have other : fid ≠ id := by
        rintro rfl
        rw [quiet.entry] at entry
        cases entry
      rw [Downloads.step, if_pos entry]
      exact .fresh unused (quiet.finish other false (some err))
    | traffic => exact .fresh unused ⟨quiet.asked, quiet.entry, by simpa [Downloads.step] using quiet.sent⟩
    | reader writeFails =>
      obtain ⟨toHost, downloads, toController, used⟩ := reader_host m writeFails
      refine .fresh (used ▸ unused) ⟨toHost ▸ quiet.asked, downloads ▸ quiet.entry, ?_⟩
      have sent := quiet.sent
      rw [Downloads.step, toController]
      cases head : m.toController with
      | nil => rfl
      | cons msg rest =>
        rw [head, pieces_cons] at sent
        exact (List.append_eq_nil_iff.1 sent).2

theorem noted_after {es : List Downloads.Event}
    (hv : (notedDownloads remote localFiles id).Valid ({ localFiles := localFiles }, none) es) :
    Noted remote id ((notedDownloads remote localFiles id).after ({ localFiles := localFiles }, none) es).1
      ((notedDownloads remote localFiles id).after ({ localFiles := localFiles }, none) es).2 := by
  have start : (notedDownloads remote localFiles id).Reachable ({ localFiles := localFiles }, none) := .init ⟨rfl, rfl⟩
  refine (start.after hv).invariant (P := fun p => Noted remote id p.1 p.2) ?_ fun p e _ h admitted => h.step admitted
  rintro ⟨m, r⟩ ⟨hm, hr⟩
  cases hm
  cases hr
  exact .fresh List.not_mem_nil ⟨fun _ _ => List.not_mem_nil, rfl, rfl⟩

end Runs

/-! ## A session with one download -/

instance (remote localFiles : String → Option Bytes) (id : UInt32) (p : Downloads × Option Download)
    (e : Downloads.Event) : Decidable ((notedDownloads remote localFiles id).enabled p e) :=
  inferInstanceAs (Decidable (p.1.admits e = true))

/-- The host's file. -/
def hostFiles (path : String) : Option Bytes := if path = "host.bin" then some [1, 2] else none

/-- The controller's file, if there is one. -/
def ownFiles (content : Option Bytes) (path : String) : Option Bytes := if path = "own.bin" then content else none

/-- Download the file in one frame, and handle all messages. -/
def oneDownload (writeFails : Option Nat) : List Downloads.Event :=
  [.fsDownload 1 "host.bin" "own.bin", .host none, .pump 1 2, .reader none, .reader writeFails, .reader none]

end ZortilWatch.Core
