import ZortilWatch.Lib.Runs
import ZortilWatch.Lib.FileContent
import ZortilWatch.Core.Files

/-!
# Uploads

One upload as a system: `fs_upload`'s thread, `fs_cancel` and the reader thread of
`connect` (`desktop/src-tauri/src/lib.rs`) on one side, `managed_loop`
(`core/src/connection.rs`) on the other, and the two directions of the ordered
channel between them. The messages and map entries are those of the upload's id, and
nobody else writes to its file. `Core/UploadSession.lean` has all uploads of a session,
and `Core/UploadView.lean` finds this system in it.
-/

namespace ZortilWatch.Core

/-- A file as the system keeps it: lengths are signed 64-bit numbers. -/
structure DiskFile where
  bytes : Bytes
  bound : bytes.length < 2 ^ 63

def sampleFile : DiskFile := ⟨[1, 2], by decide⟩

/-- `u64::MAX` in `up_acked`: no ack yet. -/
def UNACKED : Nat := 2 ^ 64 - 1

/-- How far the sender may be ahead of the acks. -/
def WINDOW : Nat := 1048576

/-- The host acks when its count passes a multiple of this. -/
def ACK_STEP : Nat := 524288

/-- What the controller sends about the upload. -/
inductive ControllerMessage where
  | fsUploadStart (size : Nat)
  | raw (frame : Bytes)
  | fsCancel
  deriving DecidableEq

/-- What the host sends about the upload. -/
inductive HostMessage where
  | fsProgress (offset size : Nat) (done : Bool)
  | fsDone (ok : Bool) (err : Option String)
  deriving DecidableEq

/-- The thread of `fs_upload`. -/
inductive Sender where
  /-- Before the first ack. -/
  | waiting
  /-- At the window check; `seen` is the last ack it has read. -/
  | polling (start sent seen : Nat)
  /-- Behind the window check. -/
  | reading (start sent seen : Nat)
  | stopped
  deriving DecidableEq

/-- An entry of the host's `uploads`, less the file. -/
structure HostUpload where
  written : Nat
  size : Nat
  deriving DecidableEq

/-- The host's side of one upload: the file at its path and its entry of `uploads`. -/
structure HostSide where
  remote : Option Bytes
  upload : Option HostUpload := none
  deriving DecidableEq

/-- How the host's disk behaves. -/
structure Disk where
  openError : Option String := none
  seeks : Bool := true
  /-- A write that fails behind this many bytes. -/
  writeFails : Option Nat := none
  deriving DecidableEq

namespace HostSide

/-- The file is not truncated: what is on disk is taken for the beginning of the upload. -/
def fsUploadStart (h : HostSide) (size : Nat) (disk : Disk) : HostSide × List HostMessage :=
  match disk.openError with
  | some e => (h, [.fsDone false (some e)])
  | none =>
    let content := h.remote.getD []
    let existing := min content.length size
    let progress := .fsProgress existing size (decide (existing ≥ size))
    if existing ≥ size then ({ h with remote := some content }, [progress, .fsDone true none])
    else ({ remote := some content, upload := some { written := existing, size := size } }, [progress])

/-- The body of `if let Some((f, written, size)) = uploads.get_mut(&id)`, and the
messages behind it. -/
def write (h : HostSide) (u : HostUpload) (offset : Nat) (data : Bytes) (disk : Disk) : HostSide × List HostMessage :=
  let content := h.remote.getD []
  if offset = u.written ∧ disk.seeks then
    match disk.writeFails with
    | some n => ({ h with remote := some (writeAt content offset (data.take n)) }, [])
    | none =>
      let written := u.written + data.length
      let remote := some (writeAt content offset data)
      if written ≥ u.size then
        ({ remote := remote }, [.fsProgress written u.size true, .fsDone true none])
      else
        ({ remote := remote, upload := some { u with written := written } },
          if written / ACK_STEP ≠ u.written / ACK_STEP then [.fsProgress written u.size false] else [])
  else (h, [])

variable (id : UInt32)

def fileFrame (h : HostSide) (frame : Bytes) (disk : Disk) : HostSide × List HostMessage :=
  match parseFileFrame frame, h.upload with
  | some (fid, offset, data), some u => if fid = id then h.write u offset.toNat data disk else (h, [])
  | _, _ => (h, [])

def onMessage (h : HostSide) (m : ControllerMessage) (disk : Disk) : HostSide × List HostMessage :=
  match m with
  | .fsUploadStart size => h.fsUploadStart size disk
  | .raw frame => h.fileFrame id frame disk
  | .fsCancel => ({ h with upload := none }, [])

end HostSide

/-- An upload under way. -/
structure Upload where
  /-- The entry of `up_acked`. -/
  acked : Option Nat
  sender : Sender := .waiting
  toHost : List ControllerMessage
  host : HostSide
  toController : List HostMessage := []
  /-- Calls of `fs_cancel` that have not sent their `FsCancel`. -/
  cancels : Nat := 0
  deriving DecidableEq

namespace Upload

/-- What the threads and the host do. -/
inductive Event where
  /-- The sender looks into `up_acked`. -/
  | poll
  /-- The sender reads some bytes and hands the frame over. -/
  | queue (n : Nat)
  /-- The sender returns: no ack in time, a failed read, no session. -/
  | giveUp
  | host (disk : Disk)
  /-- The reader thread takes a message. -/
  | reader
  /-- `fs_cancel` removes the entry. -/
  | cancel
  /-- `fs_cancel` tells the host. -/
  | sendCancel
  deriving DecidableEq

variable (id : UInt32) (file : DiskFile)

/-- A call of `fs_upload` for a path with the given content. -/
def initial (remote : Option Bytes) : Upload where
  acked := some UNACKED
  toHost := [.fsUploadStart file.bytes.length]
  host := { remote := remote }

def poll (m : Upload) : Upload :=
  match m.sender, m.acked with
  | .waiting, none => { m with sender := .stopped }
  | .waiting, some off =>
    if off = UNACKED then m
    else if off ≥ file.bytes.length then { m with sender := .stopped }
    else { m with sender := .polling off off off }
  | .polling _ _ _, none => { m with sender := .stopped }
  | .polling start sent _, some a =>
    let acked := if a ≠ UNACKED then a else start
    if sent - acked > WINDOW then { m with sender := .polling start sent acked }
    else { m with sender := .reading start sent acked }
  | _, _ => m

def queue (m : Upload) (n : Nat) : Upload :=
  match m.sender with
  | .reading start sent seen =>
    let data := (file.bytes.drop sent).take n
    if data.isEmpty then { m with sender := .stopped }
    else
      { m with
        toHost := m.toHost ++ [.raw (encodeFileFrame id (UInt64.ofNat sent) data)]
        sender := .polling start (sent + data.length) seen }
  | _ => m

def hostStep (m : Upload) (disk : Disk) : Upload :=
  match m.toHost with
  | [] => m
  | msg :: rest =>
    let r := m.host.onMessage id msg disk
    { m with toHost := rest, host := r.1, toController := m.toController ++ r.2 }

/-- The reader thread enters any progress it sees. -/
def reader (m : Upload) : Upload :=
  match m.toController with
  | [] => m
  | .fsProgress offset _ _ :: rest => { m with toController := rest, acked := some offset }
  | .fsDone _ _ :: rest => { m with toController := rest }

def step (m : Upload) : Event → Upload
  | .poll => m.poll file
  | .queue n => m.queue id file n
  | .giveUp => { m with sender := .stopped }
  | .host disk => m.hostStep id disk
  | .reader => m.reader
  | .cancel => { m with acked := none, cancels := m.cancels + 1 }
  | .sendCancel => { m with toHost := m.toHost ++ [.fsCancel], cancels := m.cancels - 1 }

/-- A read gives up to `FILE_CHUNK` bytes, and none only at the end of the file. -/
def admits (m : Upload) : Event → Bool
  | .poll => m.sender != .stopped
  | .queue n =>
    match m.sender with
    | .reading _ sent _ => decide (n ≤ FILE_CHUNK) && (n != 0 || decide (file.bytes.length ≤ sent))
    | _ => false
  | .giveUp => true
  | .host _ => !m.toHost.isEmpty
  | .reader => !m.toController.isEmpty
  | .cancel => true
  | .sendCancel => decide (0 < m.cancels)

end Upload

/-- The runs of an upload to a path with the given content. -/
def uploads (id : UInt32) (file : DiskFile) (remote : Option Bytes) : System Upload Upload.Event where
  init m := m = Upload.initial file remote
  enabled m e := m.admits file e = true
  step := Upload.step id file

instance (id : UInt32) (file : DiskFile) (remote : Option Bytes) (m : Upload) (e : Upload.Event) :
    Decidable ((uploads id file remote).enabled m e) := inferInstanceAs (Decidable (m.admits file e = true))

end ZortilWatch.Core
