import Mathlib.Data.List.Basic
import ZortilWatch.Lib.Runs

/-!
# The shared clipboard of the managed side

What `managed_loop` (`core/src/connection.rs`) does with the clipboard: it polls
the sequence number of the OS every two seconds and sends a changed text, and it
takes texts from the controller. Both are meant to rest while `clip_sync` is off.

The number remembered in `clip_seq` stands still while synchronisation is off, so
the first poll behind the switch takes what was copied in between for news
(`private_iff`).
-/

namespace ZortilWatch.Core

/-! ## The clipboard of the OS (`core/src/clipboard.rs`) -/

/-- A change of the clipboard: its new sequence number and its text, if it holds text. -/
structure ClipChange where
  seq : UInt32
  text : Option String
  deriving DecidableEq

/-- The clipboard as its last change left it. The mark says whether `clip_sync` was
off when it changed. -/
structure OsClipboard extends ClipChange where
  whileOff : Bool := false
  deriving DecidableEq

/-- How far an attempt of `set_text_once` comes. -/
inductive SetOutcome where
  /-- Another process holds the clipboard. -/
  | unopened
  /-- `EmptyClipboard` went through, what follows it failed. -/
  | emptied (seq : UInt32)
  | written (seq : UInt32)
  deriving DecidableEq

/-- An attempt, and what others do to the clipboard before it. -/
structure SetAttempt where
  before : List ClipChange := []
  outcome : SetOutcome
  deriving DecidableEq

namespace OsClipboard

/-- The clipboard changes while `clip_sync` is as given. -/
def changed (os : OsClipboard) (sync : Bool) (changes : List ClipChange) : OsClipboard :=
  changes.foldl (fun _ c => { c with whileOff := !sync }) os

/-- `None` also where another process holds the clipboard. -/
def getText (os : OsClipboard) (busy : Bool) : Option String := if busy then none else os.text

/-- `set_text`, which only runs while `clip_sync` is on. -/
def setText (os : OsClipboard) (text : String) : List SetAttempt → Nat → OsClipboard
  | [], _ | _, 0 => os
  | a :: more, attempts + 1 =>
    let os := os.changed true a.before
    match a.outcome with
    | .unopened => os.setText text more attempts
    | .emptied seq => (os.changed true [⟨seq, none⟩]).setText text more attempts
    | .written seq => os.changed true [⟨seq, some text⟩]

end OsClipboard

/-! ## The loop -/

/-- The control message `{"clipboard": {"text": ..}}`, with the mark of the text. -/
structure ClipboardMessage where
  text : String
  whileOff : Bool
  deriving DecidableEq

/-- The clipboard variables of `managed_loop`, the clipboard, and what was queued. -/
structure ClipLoop where
  clipSync : Bool := true
  clipSeq : UInt32
  clipAt : Nat
  os : OsClipboard
  sent : List ClipboardMessage := []
  deriving DecidableEq

inductive ClipEvent where
  /-- Someone at the managed machine changes the clipboard. -/
  | change (c : ClipChange)
  /-- The loop comes by at `now`. The clipboard can change between `sequence` and
  `get_text`. -/
  | pass (now : Nat) (between : List ClipChange) (busy : Bool)
  /-- `InputEvent::Clipboard`. Others can change the clipboard behind `set_text`. -/
  | clipboard (text : String) (attempts : List SetAttempt) (behind : List ClipChange)
  /-- `InputEvent::ClipboardSync` -/
  | clipboardSync (enabled : Bool)

namespace ClipLoop

/-- Where `managed_loop` starts: what is in the clipboard is no news. -/
def start (c : ClipChange) (now : Nat) : ClipLoop := { clipSeq := c.seq, clipAt := now, os := { c with } }

def due (s : ClipLoop) (now : Nat) : Bool := 2000 ≤ now - s.clipAt

/-- Texts that are sent. -/
def sendable (text : String) : Bool := text ≠ "" && text.utf8ByteSize ≤ 262144

/-- The body of the poll, behind the `if clip_sync`. -/
def poll (s : ClipLoop) (between : List ClipChange) (busy : Bool) : ClipLoop :=
  if s.os.seq = s.clipSeq then s
  else
    let s := { s with clipSeq := s.os.seq, os := s.os.changed s.clipSync between }
    match s.os.getText busy with
    | some text => if sendable text then { s with sent := s.sent ++ [⟨text, s.os.whileOff⟩] } else s
    | none => s

def step (s : ClipLoop) : ClipEvent → ClipLoop
  | .change c => { s with os := s.os.changed s.clipSync [c] }
  | .pass now between busy =>
    if s.due now then
      let s := { s with clipAt := now }
      if s.clipSync then s.poll between busy else s
    else s
  | .clipboard text attempts behind =>
    if s.clipSync then
      let os := (s.os.setText text attempts 5).changed true behind
      { s with os := os, clipSeq := os.seq }
    else s
  | .clipboardSync enabled => { s with clipSync := enabled }

end ClipLoop

/-! ## What was copied in private -/

/-- Whether a change was made while synchronisation was off that nothing has covered
since: no further change, no due poll and no text from the controller while it is on. -/
def missed (s : ClipLoop) (e : ClipEvent) (m : Bool) : Bool :=
  match e with
  | .change _ => !s.clipSync
  | .pass now _ _ => m && !(s.clipSync && s.due now)
  | .clipboard _ _ _ => m && !s.clipSync
  | .clipboardSync _ => m

/-- The runs of the loop. The OS and the controller are free. -/
def clipLoops : System (ClipLoop × Bool) ClipEvent :=
  System.recording { init := fun s => ∃ c now, s = .start c now, enabled := fun _ _ => True, step := ClipLoop.step }
    (fun _ => false) missed

/-- Nothing that was copied while synchronisation was off has been sent. -/
def KeepsPrivate (p : ClipLoop × Bool) : Prop := ∀ m ∈ p.1.sent, m.whileOff = false

/-- A due poll, with synchronisation on again, finds a change it missed: the number
is another one than it remembers, and the text is fit to be sent. -/
def FindsMissed (p : ClipLoop × Bool) (e : ClipEvent) : Prop :=
  ∃ now text, e = .pass now [] false ∧ p.1.due now = true ∧ p.1.clipSync = true ∧ p.2 = true ∧
    p.1.os.seq ≠ p.1.clipSeq ∧ p.1.os.text = some text ∧ ClipLoop.sendable text = true

section Private

variable {s : ClipLoop} {m : Bool}

/-- A change while synchronisation is on leaves no mark. -/
theorem marked_changed {os : OsClipboard} {changes : List ClipChange} :
    (os.changed true changes).whileOff = true ↔ changes = [] ∧ os.whileOff = true := by
  induction changes generalizing os with
  | nil => exact ⟨fun h => ⟨rfl, h⟩, And.right⟩
  | cons c changes ih =>
    constructor
    · intro h
      have marked : (!true) = true := (ih.1 h).2
      cases marked
    · rintro ⟨h, -⟩
      cases h

/-- The message a poll makes of what it reads. -/
def message (os : OsClipboard) (busy : Bool) : List ClipboardMessage :=
  match os.getText busy with
  | some text => if ClipLoop.sendable text then [⟨text, os.whileOff⟩] else []
  | none => []

theorem mem_message {os : OsClipboard} {busy : Bool} {c : ClipboardMessage} : c ∈ message os busy ↔
    busy = false ∧ os.text = some c.text ∧ ClipLoop.sendable c.text = true ∧ c.whileOff = os.whileOff := by
  unfold message OsClipboard.getText
  cases busy with
  | true => simp
  | false =>
    cases os.text with
    | none => simp
    | some text =>
      obtain ⟨text', mark⟩ := c
      by_cases fit : ClipLoop.sendable text = true
      · simp only [Bool.false_eq_true, if_false, fit, if_true, List.mem_singleton, ClipboardMessage.mk.injEq,
          Option.some.injEq, true_and]
        constructor
        · rintro ⟨rfl, rfl⟩
          exact ⟨rfl, fit, rfl⟩
        · rintro ⟨rfl, -, rfl⟩
          exact ⟨rfl, rfl⟩
      · simp only [Bool.false_eq_true, if_false, fit, List.not_mem_nil, false_iff, Option.some.injEq, true_and]
        rintro ⟨rfl, fit', -⟩
        exact fit fit'

theorem poll_news {between : List ClipChange} {busy : Bool} (news : s.os.seq ≠ s.clipSeq) : s.poll between busy =
    { s with clipSeq := s.os.seq, os := s.os.changed s.clipSync between,
             sent := s.sent ++ message (s.os.changed s.clipSync between) busy } := by
  unfold ClipLoop.poll message
  rw [if_neg news]
  dsimp only
  cases (s.os.changed s.clipSync between).getText busy with
  | none => simp
  | some text => by_cases fit : ClipLoop.sendable text = true <;> simp [fit]

/-- A pass without a poll, without news, and with news. -/
theorem pass_cases (s : ClipLoop) (now : Nat) (between : List ClipChange) (busy : Bool) :
    (s.due now && s.clipSync) = false ∧ (s.step (.pass now between busy)).os = s.os ∧
        (s.step (.pass now between busy)).clipSeq = s.clipSeq ∧ (s.step (.pass now between busy)).sent = s.sent ∨
      s.due now = true ∧ s.clipSync = true ∧ s.os.seq = s.clipSeq ∧
        s.step (.pass now between busy) = { s with clipAt := now } ∨
      s.due now = true ∧ s.clipSync = true ∧ s.os.seq ≠ s.clipSeq ∧ s.step (.pass now between busy) =
        { s with clipAt := now, clipSeq := s.os.seq, os := s.os.changed true between,
                 sent := s.sent ++ message (s.os.changed true between) busy } := by
  obtain ⟨on, seq, last, os, sent⟩ := s
  cases due : ClipLoop.due ⟨on, seq, last, os, sent⟩ now with
  | false =>
    left
    simp [ClipLoop.step, due]
  | true =>
    cases on with
    | false =>
      left
      simp [ClipLoop.step, due]
    | true =>
      have polled : ClipLoop.step ⟨true, seq, last, os, sent⟩ (.pass now between busy) =
          ClipLoop.poll ⟨true, seq, now, os, sent⟩ between busy := if_pos due
      rw [polled]
      by_cases news : os.seq = seq
      · exact .inr (.inl ⟨rfl, rfl, news, if_pos news⟩)
      · exact .inr (.inr ⟨rfl, rfl, news, poll_news (s := ⟨true, seq, now, os, sent⟩) news⟩)

/-- What is marked has been missed, or the loop has its number. -/
structure Marks (p : ClipLoop × Bool) : Prop where
  marked : p.2 = true → p.1.os.whileOff = true
  known : p.1.os.whileOff = true → p.2 = false → p.1.os.seq = p.1.clipSeq

theorem Marks.step {p : ClipLoop × Bool} (h : Marks p) (e : ClipEvent) : Marks (clipLoops.step p e) := by
  obtain ⟨s, m⟩ := p
  show Marks (s.step e, missed s e m)
  cases e with
  | change c =>
    refine ⟨id, fun marked covered => ?_⟩
    have off : (!s.clipSync) = true := marked
    have on : (!s.clipSync) = false := covered
    rw [off] at on
    cases on
  | clipboardSync enabled => exact ⟨h.marked, h.known⟩
  | clipboard text attempts behind =>
    unfold ClipLoop.step missed
    cases s.clipSync with
    | false =>
      refine ⟨fun kept => h.marked ?_, fun marked covered => h.known marked ?_⟩
      · simpa using kept
      · simpa using covered
    | true => exact ⟨fun kept => by simp at kept, fun _ _ => rfl⟩
  | pass now between busy =>
    show Marks (s.step (.pass now between busy), m && !(s.clipSync && s.due now))
    rcases pass_cases s now between busy with ⟨quiet, os, seq, -⟩ | ⟨due, on, same, after⟩ | ⟨due, on, news, after⟩
    · have kept : (m && !(s.clipSync && s.due now)) = m := by
        rw [Bool.and_comm s.clipSync, quiet]
        simp
      refine ⟨fun marked => ?_, fun marked covered => ?_⟩
      · exact os ▸ h.marked (kept ▸ marked)
      · exact os ▸ seq ▸ h.known (os ▸ marked) (kept ▸ covered)
    · rw [after, due, on]
      exact ⟨fun kept => by simp at kept, fun _ _ => same⟩
    · rw [after, due, on]
      refine ⟨fun kept => by simp at kept, fun marked _ => ?_⟩
      obtain ⟨rfl, -⟩ := marked_changed.1 marked
      rfl

/-- A step sends nothing marked exactly if it finds nothing that was missed. -/
theorem keepsPrivate_step {p : ClipLoop × Bool} (h : Marks p) (private_ : KeepsPrivate p) (e : ClipEvent) :
    KeepsPrivate (clipLoops.step p e) ↔ ¬ FindsMissed p e := by
  obtain ⟨s, m⟩ := p
  cases e with
  | change c => exact ⟨fun _ ⟨_, _, other, _⟩ => (nomatch other), fun _ => private_⟩
  | clipboardSync enabled => exact ⟨fun _ ⟨_, _, other, _⟩ => (nomatch other), fun _ => private_⟩
  | clipboard text attempts behind =>
    refine ⟨fun _ ⟨_, _, other, _⟩ => (nomatch other), fun _ => ?_⟩
    have kept : (s.step (.clipboard text attempts behind)).sent = s.sent := by
      unfold ClipLoop.step
      cases s.clipSync <;> rfl
    intro c mem
    exact private_ c (kept ▸ mem)
  | pass now between busy =>
    rcases pass_cases s now between busy with ⟨quiet, -, -, sent⟩ | ⟨due, on, same, after⟩ | ⟨due, on, news, after⟩
    · refine ⟨?_, fun _ c mem => private_ c (sent ▸ mem)⟩
      rintro - ⟨_, _, same, due, on, -⟩
      cases same
      rw [due, on] at quiet
      cases quiet
    · refine ⟨?_, fun _ c mem => private_ c (by simpa [clipLoops, System.recording, after] using mem)⟩
      rintro - ⟨_, _, -, -, -, -, news, -⟩
      exact news same
    · have sent : (clipLoops.step (s, m) (.pass now between busy)).1.sent =
          s.sent ++ message (s.os.changed true between) busy := congrArg ClipLoop.sent after
      constructor
      · rintro keeps ⟨_, text, bare, -, -, missed, -, held, fit⟩
        cases bare
        have mem : (⟨text, true⟩ : ClipboardMessage) ∈ message s.os false :=
          mem_message.2 ⟨rfl, held, fit, (h.marked missed).symm⟩
        have unmarked := keeps _ (by rw [sent]; exact List.mem_append_right _ mem)
        cases unmarked
      · intro finds c mem
        rw [sent] at mem
        rcases List.mem_append.1 mem with old | new
        · exact private_ c old
        · obtain ⟨free, held, fit, mark⟩ := mem_message.1 new
          rw [mark, Bool.eq_false_iff]
          intro marked
          obtain ⟨rfl, marked⟩ := marked_changed.1 marked
          refine finds ⟨now, c.text, by rw [free], due, on, ?_, news, held, fit⟩
          by_contra covered
          exact news (h.known marked (Bool.eq_false_iff.2 covered))

theorem marks_of_reachable {p : ClipLoop × Bool} (h : clipLoops.Reachable p) : Marks p := by
  induction h with
  | @init p start =>
    obtain ⟨s, m⟩ := p
    obtain ⟨⟨c, now, rfl⟩, fresh⟩ := start
    cases show m = false from fresh
    exact ⟨nofun, nofun⟩
  | step _ _ ih => exact ih.step _

end Private

/-- Nothing copied while synchronisation was off is sent in a run exactly if no due
poll finds a change it missed. -/
theorem private_iff (c : ClipChange) (now : Nat) (es : List ClipEvent) :
    clipLoops.AllStates KeepsPrivate (.start c now, false) es ↔
      clipLoops.AllSteps (fun p e => ¬ FindsMissed p e) (.start c now, false) es := by
  exact System.allStates_iff_allSteps (fun p e reached _ h => keepsPrivate_step (marks_of_reachable reached) h e)
    (.init ⟨⟨c, now, rfl⟩, rfl⟩) (fun _ mem => (List.not_mem_nil mem).elim)
    (System.valid_of_enabled (fun _ _ => trivial) _ es)

/-- A secret copied with synchronisation off goes out two seconds after the start,
once it is on again. -/
theorem copied_while_off_sent : ¬ clipLoops.AllStates KeepsPrivate (.start ⟨1, none⟩ 0, false)
    [.clipboardSync false, .change ⟨2, some "secret"⟩, .clipboardSync true, .pass 2000 [] false] := by
  intro all
  have sent : (clipLoops.after (.start ⟨1, none⟩ 0, false)
      [.clipboardSync false, .change ⟨2, some "secret"⟩, .clipboardSync true, .pass 2000 [] false]).1.sent =
        [⟨"secret", true⟩] := by decide
  have unmarked := all.last ⟨"secret", true⟩ (sent ▸ List.mem_cons_self)
  cases unmarked

end ZortilWatch.Core
