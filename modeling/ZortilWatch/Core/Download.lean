import Mathlib.Logic.Function.Basic
import ZortilWatch.Lib.Runs
import ZortilWatch.Lib.FileContent
import ZortilWatch.Core.Files

/-!
# Downloads

All downloads of a session as one system: `fs_download`, `fs_cancel` and the reader
thread of `connect` (`desktop/src-tauri/src/lib.rs`) on one side, the pump of
`managed_loop` (`core/src/connection.rs`) on the other, and the ordered channel
between them. The files of the host do not change.
-/

namespace ZortilWatch.Core

/-- The controller tells the webview every so many bytes. -/
def ANNOUNCE_STEP : Nat := 524288

/-- An entry of the controller's `down`. The open file is its path and position. -/
structure Down where
  path : String
  pos : Nat
  written : Nat
  announced : Nat
  deriving DecidableEq

/-- An entry of the host's `downloads`. The open file stands at `off`. -/
structure HostDownload where
  file : Bytes
  off : Nat
  size : Nat
  deriving DecidableEq

/-- What the controller sends about downloads. -/
inductive DownloadRequest where
  | fsDownload (id : UInt32) (path : String) (offset : Nat)
  | fsCancel (id : UInt32)
  deriving DecidableEq

/-- What the host sends. -/
inductive HostOutput where
  | fileFrame (frame : Bytes)
  | fsProgress (id : UInt32) (offset size : Nat)
  | fsDone (id : UInt32) (ok : Bool) (err : Option String)
  /-- Video, and whatever else is not about downloads. -/
  | other
  deriving DecidableEq

/-- A session with its downloads. -/
structure Downloads where
  localFiles : String → Option Bytes
  down : UInt32 → Option Down := fun _ => none
  /-- Ids that `next_id` has given out. -/
  used : List UInt32 := []
  toHost : List DownloadRequest := []
  downloads : UInt32 → Option HostDownload := fun _ => none
  toController : List HostOutput := []
  /-- `fsLocal` events for the webview. -/
  shown : List (UInt32 × Nat) := []

namespace Downloads

inductive Event where
  | fsDownload (id : UInt32) (remotePath localPath : String)
  | fsCancel (id : UInt32)
  /-- The host takes a request. Opening the file may fail. -/
  | host (openError : Option String)
  /-- The pump reads some bytes of a download. -/
  | pump (id : UInt32) (n : Nat)
  | pumpFails (id : UInt32) (err : String)
  /-- The host sends something else. -/
  | traffic
  /-- The reader thread takes a message. The write of a frame may fail behind some bytes. -/
  | reader (writeFails : Option Nat)
  deriving DecidableEq

variable (remote : String → Option Bytes)

/-- The file is created but not truncated, and the download starts at its end. -/
def fsDownload (m : Downloads) (id : UInt32) (remotePath localPath : String) : Downloads :=
  let content := (m.localFiles localPath).getD []
  let offset := content.length
  { m with
    localFiles := Function.update m.localFiles localPath (some content)
    down := Function.update m.down id
      (some { path := localPath, pos := offset, written := offset, announced := offset })
    used := id :: m.used
    toHost := m.toHost ++ [.fsDownload id remotePath offset] }

def fsCancel (m : Downloads) (id : UInt32) : Downloads :=
  { m with down := Function.update m.down id none, toHost := m.toHost ++ [.fsCancel id] }

/-- The offset is cut to the size of the file. `openError` has the text of an absent file too. -/
def openDownload (m : Downloads) (id : UInt32) (path : String) (offset : Nat) (openError : Option String) : Downloads :=
  match openError, remote path with
  | none, some file =>
    let size := file.length
    let off := min offset size
    { m with
      downloads := Function.update m.downloads id (some { file := file, off := off, size := size })
      toController := m.toController ++ [.fsProgress id off size] }
  | err, _ => { m with toController := m.toController ++ [.fsDone id false (some (err.getD ""))] }

def host (m : Downloads) (openError : Option String) : Downloads :=
  match m.toHost with
  | [] => m
  | .fsDownload id path offset :: rest => openDownload remote { m with toHost := rest } id path offset openError
  | .fsCancel id :: rest => { m with toHost := rest, downloads := Function.update m.downloads id none }

/-- Send the end of a download and drop its entry. -/
def finish (m : Downloads) (id : UInt32) (ok : Bool) (err : Option String) : Downloads :=
  { m with
    downloads := Function.update m.downloads id none
    toController := m.toController ++ [.fsDone id ok err] }

/-- One round of the pump. `id` is whichever key comes first. -/
def pump (m : Downloads) (id : UInt32) (n : Nat) : Downloads :=
  match m.downloads id with
  | none => m
  | some d =>
    let data := (d.file.drop d.off).take n
    if data.isEmpty then m.finish id (decide (d.off ≥ d.size)) none
    else
      let off := d.off + data.length
      let m' : Downloads := { m with
        downloads := Function.update m.downloads id (some { d with off := off })
        toController := m.toController ++ [.fileFrame (encodeFileFrame id (UInt64.ofNat d.off) data)] }
      if off ≥ d.size then m'.finish id true none else m'

/-- Append what has arrived. The offset in the frame is not looked at. -/
def write (m : Downloads) (id : UInt32) (e : Down) (data : Bytes) (writeFails : Option Nat) : Downloads :=
  let content := (m.localFiles e.path).getD []
  match writeFails with
  | some n =>
    let part := data.take n
    { m with
      localFiles := Function.update m.localFiles e.path (some (writeAt content e.pos part))
      down := Function.update m.down id (some { e with pos := e.pos + part.length }) }
  | none =>
    let written := e.written + data.length
    let tell := decide (written - e.announced ≥ ANNOUNCE_STEP)
    { m with
      localFiles := Function.update m.localFiles e.path (some (writeAt content e.pos data))
      down := Function.update m.down id (some { e with
        pos := e.pos + data.length, written := written, announced := if tell then written else e.announced })
      shown := if tell then m.shown ++ [(id, written)] else m.shown }

/-- What the reader thread does with a message. -/
def handle (m : Downloads) (msg : HostOutput) (writeFails : Option Nat) : Downloads :=
  match msg with
  | .fileFrame frame =>
    match parseFileFrame frame with
    | none => m
    | some (id, _, data) =>
      match m.down id with
      | none => m
      | some e => m.write id e data writeFails
  | .fsDone id _ _ => { m with down := Function.update m.down id none }
  | .fsProgress _ _ _ | .other => m

def reader (m : Downloads) (writeFails : Option Nat) : Downloads :=
  match m.toController with
  | [] => m
  | msg :: rest => handle { m with toController := rest } msg writeFails

def step (m : Downloads) : Event → Downloads
  | .fsDownload id remotePath localPath => m.fsDownload id remotePath localPath
  | .fsCancel id => m.fsCancel id
  | .host openError => m.host remote openError
  | .pump id n => m.pump id n
  | .pumpFails id err => if (m.downloads id).isSome then m.finish id false (some err) else m
  | .traffic => { m with toController := m.toController ++ [.other] }
  | .reader writeFails => m.reader writeFails

/-- The bytes of a frame at the head of the channel. -/
def arriving (m : Downloads) : Option (UInt32 × Bytes) :=
  match m.toController with
  | .fileFrame frame :: _ => (parseFileFrame frame).map fun p => (p.1, p.2.2)
  | _ => none

/-- Ids are not given out twice; a read gives up to `FILE_CHUNK` bytes, and none
only at the end; a failed write has not written all. -/
def admits (m : Downloads) : Event → Bool
  | .fsDownload id _ _ => !m.used.contains id
  | .fsCancel _ => true
  | .host _ => !m.toHost.isEmpty
  | .pump id n =>
    match m.downloads id with
    | some d => decide (n ≤ FILE_CHUNK) && (n != 0 || decide (d.file.length ≤ d.off))
    | none => false
  | .pumpFails id _ => (m.downloads id).isSome
  | .traffic => true
  | .reader writeFails =>
    match writeFails, m.arriving with
    | none, _ => !m.toController.isEmpty
    | some n, some (_, data) => decide (n < data.length)
    | some _, none => false

end Downloads

/-- The runs of a session with the given files. -/
def downloading (remote localFiles : String → Option Bytes) : System Downloads Downloads.Event where
  init m := m = { localFiles := localFiles }
  enabled m e := m.admits e = true
  step := Downloads.step remote

instance (remote localFiles : String → Option Bytes) (m : Downloads) (e : Downloads.Event) :
    Decidable ((downloading remote localFiles).enabled m e) := inferInstanceAs (Decidable (m.admits e = true))

end ZortilWatch.Core
