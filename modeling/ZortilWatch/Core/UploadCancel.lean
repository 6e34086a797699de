import ZortilWatch.Core.Upload

/-!
# Cancelled uploads

`fs_cancel` stops the sender by taking the upload's entry out of `up_acked`. The
reader thread puts one back with every progress it handles, so the upload stays
cancelled exactly as long as no progress comes late (`stays_cancelled_iff`).
-/

namespace ZortilWatch.Core

/-- What has happened since `fs_cancel` removed the entry. -/
structure Since where
  /-- Window checks the sender had passed by then. -/
  passed : Nat
  /-- Frames it has queued since. -/
  queued : Nat := 0
  deriving DecidableEq

/-- Window checks passed for frames that are not queued yet. -/
def Sender.passed : Sender → Nat
  | .reading _ _ _ => 1
  | _ => 0

namespace Upload

variable (id : UInt32) (file : DiskFile)

def since (m : Upload) (e : Event) (r : Option Since) : Option Since :=
  match r, e with
  | none, .cancel => some { passed := m.sender.passed }
  | some r, .queue n => some { r with queued := r.queued + ((m.queue id file n).toHost.length - m.toHost.length) }
  | r, _ => r

end Upload

open Upload

/-- The runs of an upload with what follows its cancellation. -/
def cancelledUploads (id : UInt32) (file : DiskFile) (remote : Option Bytes) :
    System (Upload × Option Since) Upload.Event :=
  (uploads id file remote).recording (fun _ => none) (Upload.since id file)

/-- A removed entry does not come back, and only the frame behind its window
check is still queued. -/
def StaysCancelled (p : Upload × Option Since) : Prop :=
  ∀ r, p.2 = some r → p.1.acked = none ∧ r.queued ≤ r.passed

/-- The reader thread handles a progress after the entry is removed. -/
def LateProgress (p : Upload × Option Since) (e : Upload.Event) : Prop :=
  p.2.isSome ∧ e = .reader ∧ ∃ offset size done rest, p.1.toController = .fsProgress offset size done :: rest

section Cancel

variable {id : UInt32} {file : DiskFile} {remote : Option Bytes}

/-- `StaysCancelled`, counting the frame on its way. -/
def KeepsCancelled (p : Upload × Option Since) : Prop :=
  ∀ r, p.2 = some r → p.1.acked = none ∧ r.queued + p.1.sender.passed ≤ r.passed

/-- Without an entry the sender passes no further check. -/
theorem passed_poll (file : DiskFile) {m : Upload} (h : m.acked = none) :
    (m.poll file).acked = none ∧ (m.poll file).sender.passed ≤ m.sender.passed := by
  unfold Upload.poll
  rw [h]
  split <;> simp_all [Sender.passed]

/-- A frame queued is one check used up. -/
theorem passed_queue (id : UInt32) (file : DiskFile) (m : Upload) (n : Nat) :
    (m.queue id file n).acked = m.acked ∧
      (m.queue id file n).toHost.length - m.toHost.length + (m.queue id file n).sender.passed ≤ m.sender.passed := by
  unfold queue
  split
  · rename_i hs
    simp only
    split <;> simp [hs, Sender.passed]
  · simp

/-- What the reader thread does with a message that is no progress. -/
theorem reader_timely {m : Upload}
    (timely : ∀ offset size done rest, m.toController ≠ .fsProgress offset size done :: rest) :
    m.reader.acked = m.acked ∧ m.reader.sender = m.sender := by
  unfold reader
  split
  · exact ⟨rfl, rfl⟩
  · rename_i h
    exact absurd h (timely _ _ _ _)
  · exact ⟨rfl, rfl⟩

theorem hostStep_controller (id : UInt32) (m : Upload) (disk : Disk) :
    (m.hostStep id disk).acked = m.acked ∧ (m.hostStep id disk).sender = m.sender := by
  unfold hostStep
  split <;> exact ⟨rfl, rfl⟩

theorem KeepsCancelled.step {p : Upload × Option Since} (h : KeepsCancelled p) {e : Upload.Event}
    (timely : ¬ LateProgress p e) : KeepsCancelled ((cancelledUploads id file remote).step p e) := by
  obtain ⟨m, r⟩ := p
  cases r with
  | none =>
    intro r hr
    cases e with
    | cancel =>
      cases hr
      exact ⟨rfl, by rw [Nat.zero_add]; exact Nat.le_refl _⟩
    | poll | queue | giveUp | host | reader | sendCancel => cases hr
  | some r =>
    obtain ⟨gone, few⟩ := h r rfl
    intro r' hr
    cases e with
    | poll =>
      cases hr
      obtain ⟨acked, passed⟩ := passed_poll file gone
      exact ⟨acked, (Nat.add_le_add_left passed _).trans few⟩
    | queue n =>
      cases hr
      obtain ⟨acked, passed⟩ := passed_queue id file m n
      refine ⟨acked.trans gone, ?_⟩
      rw [Nat.add_assoc]
      exact (Nat.add_le_add_left passed _).trans few
    | giveUp =>
      cases hr
      exact ⟨gone, (Nat.le_add_right _ _).trans few⟩
    | host disk =>
      cases hr
      obtain ⟨acked, sender⟩ := hostStep_controller id m disk
      exact ⟨acked.trans gone, by rw [← sender] at few; exact few⟩
    | reader =>
      cases hr
      obtain ⟨acked, sender⟩ := reader_timely fun offset size done rest hp =>
        timely ⟨rfl, rfl, offset, size, done, rest, hp⟩
      exact ⟨acked.trans gone, by rw [← sender] at few; exact few⟩
    | cancel =>
      cases hr
      exact ⟨rfl, few⟩
    | sendCancel =>
      cases hr
      exact ⟨gone, few⟩

theorem KeepsCancelled.stays {p : Upload × Option Since} (h : KeepsCancelled p) : StaysCancelled p :=
  fun r hr => ⟨(h r hr).1, (Nat.le_add_right _ _).trans (h r hr).2⟩

/-- A late progress enters the upload again. -/
theorem LateProgress.reenters {p : Upload × Option Since} {e : Upload.Event} (late : LateProgress p e) :
    ¬ StaysCancelled ((cancelledUploads id file remote).step p e) := by
  obtain ⟨m, r⟩ := p
  obtain ⟨cancelled, rfl, offset, size, done, rest, head⟩ := late
  obtain ⟨r, rfl⟩ := Option.isSome_iff_exists.1 cancelled
  intro stays
  have gone : m.reader.acked = none := (stays r rfl).1
  simp only at head
  simp [reader, head] at gone

/-- A cancelled upload stays cancelled in every state of a run exactly if the
reader thread handles no progress of it after the entry is removed. -/
theorem stays_cancelled_iff {es : List Upload.Event}
    (hv : (cancelledUploads id file remote).Valid (initial file remote, none) es) :
    (cancelledUploads id file remote).AllStates StaysCancelled (initial file remote, none) es ↔
      (cancelledUploads id file remote).AllSteps (fun p e => ¬ LateProgress p e) (initial file remote, none) es := by
  constructor
  · exact System.allSteps_of_allStates (fun p e _ stays late => late.reenters stays) hv
  · intro timely
    have start : (cancelledUploads id file remote).Reachable (initial file remote, none) := .init ⟨rfl, rfl⟩
    have kept : KeepsCancelled (initial file remote, none) := nofun
    exact (System.allStates_of_allSteps (fun p e _ _ h t => h.step t) start kept hv timely).mono fun p h => h.stays

end Cancel

/-! ## A progress in flight -/

instance (id : UInt32) (file : DiskFile) (remote : Option Bytes) (p : Upload × Option Since) (e : Upload.Event) :
    Decidable ((cancelledUploads id file remote).enabled p e) :=
  inferInstanceAs (Decidable (p.1.admits file e = true))

/-- A sender that has passed its check queues the frame and stops. -/
theorem stays_cancelled_in_time :
    (cancelledUploads 1 sampleFile none).AllStates StaysCancelled (initial sampleFile none, none)
      [.host {}, .reader, .poll, .poll, .cancel, .queue 1, .poll] := by
  have other {p : Upload × Option Since} {e : Upload.Event} (h : e ≠ .reader) : ¬ LateProgress p e :=
    fun late => h late.2.1
  exact (stays_cancelled_iff (by decide)).2 ⟨other nofun, fun late => absurd late.1 (by decide), other nofun,
    other nofun, other nofun, other nofun, other nofun, trivial⟩

/-- The progress that answers the start comes behind `fs_cancel`, and the sender
goes on to the end of the file. -/
theorem late_progress_restarts :
    let es : List Upload.Event := [.host {}, .cancel, .reader, .poll, .poll, .queue 1, .poll, .queue 1]
    (cancelledUploads 1 sampleFile none).Valid (initial sampleFile none, none) es ∧
      ((cancelledUploads 1 sampleFile none).after (initial sampleFile none, none) es).1.acked = some 0 ∧
      ((cancelledUploads 1 sampleFile none).after (initial sampleFile none, none) es).2 =
        some { passed := 0, queued := 2 } ∧
      ¬ (cancelledUploads 1 sampleFile none).AllStates StaysCancelled (initial sampleFile none, none) es := by
  intro es
  have queued : ((cancelledUploads 1 sampleFile none).after (initial sampleFile none, none) es).2 =
      some { passed := 0, queued := 2 } := by decide
  refine ⟨by decide, by decide, queued, fun all => ?_⟩
  exact absurd (all.last _ queued).2 (by decide)

end ZortilWatch.Core
