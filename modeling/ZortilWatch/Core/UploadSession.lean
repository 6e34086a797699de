import Mathlib.Logic.Function.Basic
import ZortilWatch.Core.Upload

/-!
# The uploads of a session

All uploads of a session as one system. The host keeps them in a map by id and they
share its disk, so two of them may write to one path. Each call of `fs_upload` has
its own thread; the channel and the reader thread are common to all.
-/

namespace ZortilWatch.Core

/-- What the controller sends about its uploads. -/
inductive UploadRequest where
  | fsUploadStart (id : UInt32) (path : String) (size : Nat)
  | raw (frame : Bytes)
  | fsCancel (id : UInt32)
  deriving DecidableEq

/-- An entry of `uploads`. The open file is its path. -/
structure OpenUpload where
  path : String
  upload : HostUpload
  deriving DecidableEq

/-- The host's disk and its `uploads`. -/
structure UploadHost where
  disk : String → Option Bytes
  uploads : UInt32 → Option OpenUpload := fun _ => none

namespace UploadHost

/-- An entry is made unless all of the file is there. -/
def fsUploadStart (h : UploadHost) (id : UInt32) (path : String) (size : Nat) (disk : Disk) :
    UploadHost × List HostMessage :=
  let r := ({ remote := h.disk path } : HostSide).fsUploadStart size disk
  ({ disk := Function.update h.disk path r.1.remote
     uploads := match r.1.upload with
      | none => h.uploads
      | some u => Function.update h.uploads id (some ⟨path, u⟩) }, r.2)

def write (h : UploadHost) (id : UInt32) (o : OpenUpload) (offset : Nat) (data : Bytes) (disk : Disk) :
    UploadHost × List HostMessage :=
  let r := ({ remote := h.disk o.path, upload := some o.upload } : HostSide).write o.upload offset data disk
  ({ disk := Function.update h.disk o.path r.1.remote
     uploads := Function.update h.uploads id (r.1.upload.map (⟨o.path, ·⟩)) }, r.2)

/-- The file that a frame is for, with the entry. -/
def receiver (h : UploadHost) (frame : Bytes) : Option (UInt32 × OpenUpload × Nat × Bytes) :=
  (parseFileFrame frame).bind fun (id, offset, data) => (h.uploads id).map fun o => (id, o, offset.toNat, data)

def onRequest (h : UploadHost) (disk : Disk) : UploadRequest → UploadHost × List (UInt32 × HostMessage)
  | .fsUploadStart id path size =>
    let r := h.fsUploadStart id path size disk
    (r.1, r.2.map (id, ·))
  | .raw frame =>
    match h.receiver frame with
    | none => (h, [])
    | some (id, o, offset, data) =>
      let r := h.write id o offset data disk
      (r.1, r.2.map (id, ·))
  | .fsCancel id => ({ h with uploads := Function.update h.uploads id none }, [])

end UploadHost

/-- A call of `fs_upload`: its file, the path it is for and its thread. -/
structure UploadCall where
  file : DiskFile
  path : String
  sender : Sender := .waiting

structure UploadSession where
  host : UploadHost
  calls : UInt32 → Option UploadCall := fun _ => none
  /-- `up_acked` -/
  acked : UInt32 → Option Nat := fun _ => none
  /-- Ids that `next_id` has given out. -/
  used : List UInt32 := []
  toHost : List UploadRequest := []
  toController : List (UInt32 × HostMessage) := []
  /-- Calls of `fs_cancel` that have not sent their `FsCancel`. -/
  cancels : List UInt32 := []

/-- What a session sends for one of its uploads. -/
def ControllerMessage.request (id : UInt32) (path : String) : ControllerMessage → UploadRequest
  | .fsUploadStart size => .fsUploadStart id path size
  | .raw frame => .raw frame
  | .fsCancel => .fsCancel id

namespace UploadSession

inductive Event where
  | fsUpload (id : UInt32) (file : DiskFile) (path : String)
  /-- The threads of the calls. -/
  | poll (id : UInt32)
  | queue (id : UInt32) (n : Nat)
  | giveUp (id : UInt32)
  | host (disk : Disk)
  /-- The reader thread takes a message. -/
  | reader
  /-- `fs_cancel` removes the entry, and then tells the host. -/
  | cancel (id : UInt32)
  | sendCancel (id : UInt32)

/-- What the thread of a call has before it. -/
def thread (m : UploadSession) (id : UInt32) (c : UploadCall) : Upload where
  acked := m.acked id
  sender := c.sender
  toHost := []
  host := { remote := m.host.disk c.path }

/-- The thread goes on. -/
def goOn (m : UploadSession) (id : UInt32) (c : UploadCall) (u : Upload) : UploadSession :=
  { m with
    calls := Function.update m.calls id (some { c with sender := u.sender })
    toHost := m.toHost ++ u.toHost.map (·.request id c.path) }

def fsUpload (m : UploadSession) (id : UInt32) (file : DiskFile) (path : String) : UploadSession :=
  { m with
    calls := Function.update m.calls id (some { file := file, path := path })
    acked := Function.update m.acked id (some UNACKED)
    used := id :: m.used
    toHost := m.toHost ++ [.fsUploadStart id path file.bytes.length] }

def hostStep (m : UploadSession) (disk : Disk) : UploadSession :=
  match m.toHost with
  | [] => m
  | req :: rest =>
    let r := m.host.onRequest disk req
    { m with toHost := rest, host := r.1, toController := m.toController ++ r.2 }

def reader (m : UploadSession) : UploadSession :=
  match m.toController with
  | [] => m
  | (id, .fsProgress offset _ _) :: rest =>
    { m with toController := rest, acked := Function.update m.acked id (some offset) }
  | (_, .fsDone _ _) :: rest => { m with toController := rest }

def step (m : UploadSession) : Event → UploadSession
  | .fsUpload id file path => m.fsUpload id file path
  | .poll id => (m.calls id).elim m fun c => m.goOn id c ((m.thread id c).poll c.file)
  | .queue id n => (m.calls id).elim m fun c => m.goOn id c ((m.thread id c).queue id c.file n)
  | .giveUp id => (m.calls id).elim m fun c => m.goOn id c { m.thread id c with sender := .stopped }
  | .host disk => m.hostStep disk
  | .reader => m.reader
  | .cancel id => { m with acked := Function.update m.acked id none, cancels := id :: m.cancels }
  | .sendCancel id => { m with toHost := m.toHost ++ [.fsCancel id], cancels := m.cancels.erase id }

/-- Ids are not given out twice; what a thread does, `Upload.admits`. -/
def admits (m : UploadSession) : Event → Bool
  | .fsUpload id _ _ => !m.used.contains id
  | .poll id => (m.calls id).any fun c => (m.thread id c).admits c.file .poll
  | .queue id n => (m.calls id).any fun c => (m.thread id c).admits c.file (.queue n)
  | .giveUp id => (m.calls id).isSome
  | .host _ => !m.toHost.isEmpty
  | .reader => !m.toController.isEmpty
  | .cancel _ => true
  | .sendCancel id => m.cancels.contains id

end UploadSession

/-- The runs of a session whose host has the given files. -/
def uploading (disk : String → Option Bytes) : System UploadSession UploadSession.Event where
  init m := m = { host := { disk := disk } }
  enabled m e := m.admits e = true
  step := UploadSession.step

instance (disk : String → Option Bytes) (m : UploadSession) (e : UploadSession.Event) :
    Decidable ((uploading disk).enabled m e) := inferInstanceAs (Decidable (m.admits e = true))

end ZortilWatch.Core
