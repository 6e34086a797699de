import Mathlib.Data.UInt
import Mathlib.Logic.Function.Basic

/-!
# Starting a file transfer

`fs_download` and `fs_upload` of the desktop client (`desktop/src-tauri/src/lib.rs`)
up to the point where the transfer is on its way. Both enter the transfer into
their map before they look for a connection, and without one they return and leave
the entry behind: nobody knows its id (`transfers_kept_iff`).
-/

namespace ZortilWatch.Desktop

/-- `std::sync::Mutex`; a thread that panics with the lock held poisons it. -/
structure Mutex (α : Type) where
  value : α
  poisoned : Bool := false

def Mutex.lock {α : Type} (m : Mutex α) : Option α := if m.poisoned then none else some m.value

/-- What the commands send to the host about transfers. -/
inductive InputEvent where
  | fsDownload (id : UInt32) (path : String) (offset : UInt64)
  | fsUploadStart (id : UInt32) (path : String) (size : UInt64)
  deriving DecidableEq

/-- The session of a controller: what was put into `input_tx`. -/
structure Controller where
  inputs : List InputEvent := []

def Controller.sendInput (c : Controller) (e : InputEvent) : Controller := { c with inputs := c.inputs ++ [e] }

/-- A file that could be opened. -/
structure Opened (φ : Type) where
  file : φ
  /-- `metadata().map(|m| m.len())` -/
  len : Option UInt64
  /-- `seek(SeekFrom::End(0))` -/
  seekEnd : Except String Unit := .ok ()

/-- What the system answers for a path. -/
structure LocalFiles (φ : Type) where
  /-- `OpenOptions::new().create(true).write(true).truncate(false).open(..)` -/
  openWrite : String → Except String (Opened φ)
  /-- `File::open` -/
  openRead : String → Except String (Opened φ)

structure Transfers (φ : Type) where
  /-- The local file, bytes written, bytes announced. -/
  down : Mutex (UInt32 → Option (φ × UInt64 × UInt64))
  upAcked : Mutex (UInt32 → Option UInt64)
  nextId : UInt32

structure AppState (φ : Type) where
  conn : Mutex (Option Controller)
  transfers : Transfers φ

section Commands

variable {φ : Type}

/-- `next_id.fetch_add(1)`, and the id made of it. -/
def AppState.freshId (s : AppState φ) : UInt32 × AppState φ :=
  (s.transfers.nextId + 1, { s with transfers.nextId := s.transfers.nextId + 1 })

/-- Send to the host and return the id, if there is a connection. -/
def AppState.request (s : AppState φ) (e : InputEvent) (id : UInt32) : Except String UInt32 × AppState φ :=
  match s.conn.lock with
  | none => (.error "state poisoned", s)
  | some none => (.error "not connected", s)
  | some (some conn) => (.ok id, { s with conn.value := some (conn.sendInput e) })

def fsDownload (s : AppState φ) (files : LocalFiles φ) (remotePath localPath : String) :
    Except String UInt32 × AppState φ :=
  let (id, s) := s.freshId
  match files.openWrite localPath with
  | .error e => (.error e, s)
  | .ok f =>
    let offset := f.len.getD 0
    match f.seekEnd with
    | .error e => (.error e, s)
    | .ok _ =>
      match s.transfers.down.lock with
      | none => (.error "state poisoned", s)
      | some down =>
        let s := { s with transfers.down.value := Function.update down id (some (f.file, offset, offset)) }
        s.request (.fsDownload id remotePath offset) id

/-- `fs_upload` up to its sender thread, which is `Core/Upload.lean`. -/
def fsUpload (s : AppState φ) (files : LocalFiles φ) (localPath remotePath : String) :
    Except String UInt32 × AppState φ :=
  let (id, s) := s.freshId
  match files.openRead localPath with
  | .error e => (.error e, s)
  | .ok f =>
    let size := f.len.getD 0
    match s.transfers.upAcked.lock with
    | none => (.error "state poisoned", s)
    | some acked =>
      let s := { s with transfers.upAcked.value := Function.update acked id (some 0xffffffffffffffff) }
      s.request (.fsUploadStart id remotePath size) id

end Commands

namespace Mutex

variable {α κ ν : Type}

theorem lock_free {m : Mutex α} (h : m.poisoned = false) : m.lock = some m.value := by simp [lock, h]

theorem lock_poisoned {m : Mutex α} (h : m.poisoned = true) : m.lock = none := by simp [lock, h]

/-- An entry changes a map unless it is there already. -/
theorem enter_eq_self [DecidableEq κ] {m : Mutex (κ → ν)} {k : κ} {v : ν} :
    { m with value := Function.update m.value k v } = m ↔ m.value k = v := by
  constructor
  · intro same
    have value := congrArg (fun m => m.value k) same
    simpa using value.symm
  · rintro rfl
    rw [Function.update_eq_self]

end Mutex

/-! ## Commands that fail -/

section Failing

variable {φ : Type} {s : AppState φ} {files : LocalFiles φ} {remotePath localPath : String}

/-- A command that fails leaves the transfers as they were. -/
def KeptOnError (s : AppState φ) (r : Except String UInt32 × AppState φ) : Prop :=
  ∀ e, r.1 = .error e → r.2.transfers.down = s.transfers.down ∧ r.2.transfers.upAcked = s.transfers.upAcked

/-- The connection can be used. -/
def AppState.connected (s : AppState φ) : Bool := !s.conn.poisoned && s.conn.value.isSome

theorem request_connected (up : s.connected = true) (e : InputEvent) (id : UInt32) :
    ∃ s', s.request e id = (.ok id, s') := by
  unfold AppState.connected at up
  simp only [Bool.and_eq_true, Bool.not_eq_true'] at up
  obtain ⟨conn, present⟩ := Option.isSome_iff_exists.1 up.2
  refine ⟨{ s with conn.value := some (conn.sendInput e) }, ?_⟩
  simp only [AppState.request, Mutex.lock, up.1, Bool.false_eq_true, if_false, present]

theorem request_unconnected (down : s.connected = false) (e : InputEvent) (id : UInt32) :
    ∃ err, s.request e id = (.error err, s) := by
  unfold AppState.request Mutex.lock
  cases poisoned : s.conn.poisoned with
  | true => exact ⟨_, rfl⟩
  | false =>
    cases present : s.conn.value with
    | none => exact ⟨_, rfl⟩
    | some conn => simp [AppState.connected, poisoned, present] at down

/-- Behind the entry it is the connection that decides. -/
theorem keptOnError_request {s' : AppState φ} (conn : s'.conn = s.conn) (e : InputEvent) (id : UInt32) :
    KeptOnError s (s'.request e id) ↔ s.connected = true ∨
      s'.transfers.down = s.transfers.down ∧ s'.transfers.upAcked = s.transfers.upAcked := by
  have same : s'.connected = s.connected := by rw [AppState.connected, conn, AppState.connected]
  cases up : s.connected with
  | true =>
    obtain ⟨s'', ok⟩ := request_connected (same.trans up) e id
    rw [ok]
    exact ⟨fun _ => .inl rfl, fun _ err failed => by cases failed⟩
  | false =>
    obtain ⟨err, failed⟩ := request_unconnected (same.trans up) e id
    rw [failed]
    constructor
    · exact fun kept => .inr (kept err rfl)
    · rintro (up | kept)
      · cases up
      · exact fun _ _ => kept

/-- A failure before the entry changes neither map. -/
theorem keptOnError_error (err : String) (nextId : UInt32) :
    KeptOnError s (.error err, { s with transfers.nextId := nextId }) := fun _ _ => ⟨rfl, rfl⟩

/-- A command that asks for a mutex: poisoned it ends the command, else the rest decides. -/
theorem keptOnError_locked {α : Type} (m : Mutex α) {nextId : UInt32} {r : Except String UInt32 × AppState φ} {P : Prop}
    (refused : m.poisoned = true → r = (.error "state poisoned", { s with transfers.nextId := nextId }))
    (entered : m.poisoned = false → (KeptOnError s r ↔ s.connected = true ∨ P)) :
    KeptOnError s r ↔ s.connected = true ∨ m.poisoned = true ∨ P := by
  rcases Bool.eq_false_or_eq_true m.poisoned with poisoned | free
  · rw [refused poisoned]
    exact ⟨fun _ => .inr (.inl poisoned), fun _ => keptOnError_error _ _⟩
  · refine (entered free).trans (or_congr_right ⟨.inr, fun h => h.resolve_left fun poisoned => ?_⟩)
    rw [free] at poisoned
    cases poisoned

theorem fsDownload_kept_iff : KeptOnError s (fsDownload s files remotePath localPath) ↔
    s.connected = true ∨ s.transfers.down.poisoned = true ∨
      ∀ f, files.openWrite localPath = .ok f → f.seekEnd = .ok () →
        s.transfers.down.value (s.transfers.nextId + 1) = some (f.file, f.len.getD 0, f.len.getD 0) := by
  unfold fsDownload AppState.freshId
  dsimp only
  cases opened : files.openWrite localPath with
  | error err => exact ⟨fun _ => .inr (.inr nofun), fun _ => keptOnError_error err _⟩
  | ok f =>
    dsimp only
    cases positioned : f.seekEnd with
    | error err =>
      refine ⟨fun _ => .inr (.inr ?_), fun _ => keptOnError_error err _⟩
      rintro _ ⟨⟩ sought
      rw [positioned] at sought
      cases sought
    | ok _ =>
      dsimp only
      refine keptOnError_locked s.transfers.down (fun poisoned => by rw [Mutex.lock_poisoned poisoned]) fun free => ?_
      rw [Mutex.lock_free free]
      refine (keptOnError_request (s := s) (by rfl) _ _).trans (or_congr_right ?_)
      dsimp only
      rw [Mutex.enter_eq_self]
      constructor
      · rintro ⟨there, -⟩ _ ⟨⟩ -
        exact there
      · exact fun there => ⟨there f rfl positioned, rfl⟩

theorem fsUpload_kept_iff : KeptOnError s (fsUpload s files localPath remotePath) ↔
    s.connected = true ∨ s.transfers.upAcked.poisoned = true ∨
      ∀ f, files.openRead localPath = .ok f →
        s.transfers.upAcked.value (s.transfers.nextId + 1) = some 0xffffffffffffffff := by
  unfold fsUpload AppState.freshId
  dsimp only
  cases opened : files.openRead localPath with
  | error err => exact ⟨fun _ => .inr (.inr nofun), fun _ => keptOnError_error err _⟩
  | ok f =>
    dsimp only
    refine keptOnError_locked s.transfers.upAcked (fun poisoned => by rw [Mutex.lock_poisoned poisoned]) fun free => ?_
    rw [Mutex.lock_free free]
    refine (keptOnError_request (s := s) (by rfl) _ _).trans (or_congr_right ?_)
    dsimp only
    rw [Mutex.enter_eq_self]
    exact ⟨fun there _ _ => there.2, fun there => ⟨rfl, there f rfl⟩⟩

end Failing

/-- A command that fails leaves the transfers as they were exactly if there is a
connection, or the entry was never made: its map is poisoned, the file could not be
opened or positioned, or the very entry was there before. -/
theorem transfers_kept_iff {φ : Type} (s : AppState φ) (files : LocalFiles φ) (remotePath localPath : String) :
    (KeptOnError s (fsDownload s files remotePath localPath) ↔
      s.connected = true ∨ s.transfers.down.poisoned = true ∨
        ∀ f, files.openWrite localPath = .ok f → f.seekEnd = .ok () →
          s.transfers.down.value (s.transfers.nextId + 1) = some (f.file, f.len.getD 0, f.len.getD 0)) ∧
    (KeptOnError s (fsUpload s files localPath remotePath) ↔
      s.connected = true ∨ s.transfers.upAcked.poisoned = true ∨
        ∀ f, files.openRead localPath = .ok f →
          s.transfers.upAcked.value (s.transfers.nextId + 1) = some 0xffffffffffffffff) :=
  ⟨fsDownload_kept_iff, fsUpload_kept_iff⟩

/-- Before the first connection. -/
def idle : AppState Nat where
  conn := ⟨none, false⟩
  transfers := ⟨⟨fun _ => none, false⟩, ⟨fun _ => none, false⟩, 0⟩

/-- Files that can be opened; they are empty. -/
def emptyFiles : LocalFiles Nat := ⟨fun _ => .ok ⟨3, some 0, .ok ()⟩, fun _ => .ok ⟨4, some 0, .ok ()⟩⟩

/-- Both commands answer that there is no connection, and have a transfer more. -/
theorem unconnected_transfer_stays :
    (fsDownload idle emptyFiles "r" "l").1 = .error "not connected" ∧
      (fsDownload idle emptyFiles "r" "l").2.transfers.down.value 1 = some (3, 0, 0) ∧
      (fsUpload idle emptyFiles "l" "r").1 = .error "not connected" ∧
      (fsUpload idle emptyFiles "l" "r").2.transfers.upAcked.value 1 = some 0xffffffffffffffff ∧
      ¬ KeptOnError idle (fsDownload idle emptyFiles "r" "l") ∧
      ¬ KeptOnError idle (fsUpload idle emptyFiles "l" "r") := by
  refine ⟨rfl, rfl, rfl, rfl, fun kept => ?_, fun kept => ?_⟩
  · have same := congrArg (fun m => m.value 1) (kept _ rfl).1
    cases same
  · have same := congrArg (fun m => m.value 1) (kept _ rfl).2
    cases same

end ZortilWatch.Desktop
