import Mathlib.Algebra.BigOperators.Group.Finset.Piecewise
import Mathlib.Algebra.Order.BigOperators.Group.Finset
import ZortilWatch.Signaling.Presence

/-!
# Who pays for a connection attempt

A `connect_request` is charged to the identity of its socket when it arrives and
calls the registry, after its lookup, under the identity the socket has then. A
`ConnectLedger` is kept beside a run: whom each suspended handler was charged to,
and how many calls each device made in its window. A device makes no more calls
than the limit if every call it makes was charged to it in the same window
(`connectLimit_of_charged`); a socket that registers again, and a lookup that
outlives the window, make it more.
-/

namespace ZortilWatch.Signaling

open ZortilWatch.Server

/-- The device charged and the number of its window. -/
abbrev Charge := DeviceId × Nat

structure ConnectLedger where
  /-- Sockets that ever connected. -/
  connected : Finset SocketId := ∅
  /-- The charges of the suspended handlers of a socket, as its `waiting` list;
  `none` for a handler the limiter was not asked about. -/
  charges : SocketId → List (Option Charge) := fun _ => []
  /-- How many windows of a device were opened. -/
  window : DeviceId → Nat := fun _ => 0
  /-- Calls of `requestConnect` under a device in its last window, while it was open. -/
  calls : DeviceId → Nat := fun _ => 0

namespace ConnectLedger

/-- A handler of `s` is suspended. -/
def suspend (l : ConnectLedger) (s : SocketId) (c : Option Charge) : ConnectLedger :=
  { l with charges := Function.update l.charges s (l.charges s ++ [c]) }

/-- The `i`-th suspended handler of `s` goes on. -/
def carryOn (l : ConnectLedger) (s : SocketId) (i : Nat) : ConnectLedger :=
  { l with charges := Function.update l.charges s ((l.charges s).eraseIdx i) }

def openWindow (l : ConnectLedger) (d : DeviceId) : ConnectLedger :=
  { l with window := Function.update l.window d (l.window d + 1), calls := Function.update l.calls d 0 }

def called (l : ConnectLedger) (d : DeviceId) : ConnectLedger :=
  { l with calls := Function.update l.calls d (l.calls d + 1) }

/-- A `connect_request` of a socket registered as `d` asks the limiter. -/
def charge (l : ConnectLedger) (limiter : RateLimiter) (s : SocketId) (d : DeviceId) (now : Nat) : ConnectLedger :=
  let l := if limiter.windowOpen d now then l else l.openWindow d
  if (limiter.check d now).1.allowed then l.suspend s (some (d, l.window d)) else l

variable {J : Type}

/-- What a message does to the ledger, given the identity of its socket. -/
def message (l : ConnectLedger) (limiter : RateLimiter) (identity : Option Side) (s : SocketId)
    (msg : ClientMessage J) (now : Nat) : ConnectLedger :=
  match msg with
  | .register .. => l.suspend s none
  | .wake .. => if identity.isSome then l.suspend s none else l
  | .connectRequest .. =>
    match identity with
    | none => l
    | some (d, _) => l.charge limiter s d now
  | _ => l

/-- The device under which a resumed handler calls the registry, if that device's
window is open. -/
def calling (env : Env J) (ep : Endpoint J) (e : Event J) (now : Nat) : Option DeviceId :=
  match Endpoint.ops env ep e with
  | [.requestConnect _ d _ _ _] => if ep.limiter.windowOpen d now then some d else none
  | _ => none

def record (env : Env J) (ep : Endpoint J) (e : Event J) (l : ConnectLedger) : ConnectLedger :=
  match e with
  | .connection s _ => { l with connected := insert s l.connected }
  | .message s raw now =>
    match raw.filter ClientMessage.wellFormed with
    | none => l
    | some msg => l.message ep.limiter (ep.identity s) s msg now
  | .resume s i _ _ now =>
    match calling env ep e now with
    | none => l.carryOn s i
    | some d => (l.carryOn s i).called d
  | .close _ => l

/-- Suspended handlers that are charged to `d` in its last window. -/
def outstanding (l : ConnectLedger) (d : DeviceId) : Nat :=
  ∑ s ∈ l.connected, (l.charges s).count (some (d, l.window d))

section Outstanding

variable {l : ConnectLedger} {s : SocketId} {d : DeviceId}

/-- Replacing one list of a family moves the count by the difference. -/
theorem sum_count_update {α : Type} [BEq α] {S : Finset SocketId} (hs : s ∈ S) (f : SocketId → List α)
    (xs : List α) (a : α) : (∑ t ∈ S, (Function.update f s xs t).count a) + (f s).count a =
      (∑ t ∈ S, (f t).count a) + xs.count a := by
  have others : ∑ t ∈ S.erase s, (Function.update f s xs t).count a = ∑ t ∈ S.erase s, (f t).count a := by
    apply Finset.sum_congr rfl
    intro t ht
    rw [Function.update_of_ne (Finset.ne_of_mem_erase ht)]
  have before := Finset.add_sum_erase S (fun t => (f t).count a) hs
  have after := Finset.add_sum_erase S (fun t => (Function.update f s xs t).count a) hs
  simp only [Function.update_self] at after
  omega

theorem count_eraseIdx {α : Type} [DecidableEq α] [BEq α] [LawfulBEq α] (xs : List α) (i : Nat) (a : α) :
    (xs.eraseIdx i).count a + (if xs[i]? = some a then 1 else 0) = xs.count a := by
  induction xs generalizing i with
  | nil => simp
  | cons x xs ih =>
    cases i with
    | zero => simp [List.count_cons]
    | succ i =>
      have := ih i
      simp only [List.eraseIdx_cons_succ, List.count_cons, List.getElem?_cons_succ]
      omega

theorem outstanding_suspend (hs : s ∈ l.connected) (c : Option Charge) : (l.suspend s c).outstanding d =
    l.outstanding d + if c = some (d, l.window d) then 1 else 0 := by
  have moved := sum_count_update hs l.charges (l.charges s ++ [c]) (some (d, l.window d))
  have last : [c].count (some (d, l.window d)) = if c = some (d, l.window d) then 1 else 0 := by
    simp [List.count_singleton]
  rw [List.count_append, last] at moved
  simp only [outstanding, suspend]
  omega

theorem outstanding_carryOn (hs : s ∈ l.connected) (i : Nat) : (l.carryOn s i).outstanding d +
    (if (l.charges s)[i]? = some (some (d, l.window d)) then 1 else 0) = l.outstanding d := by
  have moved := sum_count_update hs l.charges ((l.charges s).eraseIdx i) (some (d, l.window d))
  have erased := count_eraseIdx (l.charges s) i (some (d, l.window d))
  simp only [outstanding, carryOn]
  omega

/-- Nobody is charged to a window that was not opened yet. -/
theorem outstanding_openWindow (old : ∀ s d w, some (d, w) ∈ l.charges s → w ≤ l.window d) :
    (l.openWindow d).outstanding d = 0 := by
  apply Finset.sum_eq_zero
  intro s _
  apply List.count_eq_zero_of_not_mem
  intro charged
  have := old s d _ charged
  simp only [openWindow, Function.update_self] at this
  omega

theorem outstanding_openWindow_of_ne {d' : DeviceId} (other : d' ≠ d) :
    (l.openWindow d).outstanding d' = l.outstanding d' := by
  simp [outstanding, openWindow, Function.update_of_ne other]

/-- What counts against the limit of `d`: its calls, and the handlers charged to
it that may still call. -/
def used (l : ConnectLedger) (d : DeviceId) : Nat := l.calls d + l.outstanding d

theorem used_suspend (hs : s ∈ l.connected) (c : Option Charge) :
    (l.suspend s c).used d = l.used d + if c = some (d, l.window d) then 1 else 0 := by
  have moved := outstanding_suspend (d := d) hs c
  have calls : (l.suspend s c).calls = l.calls := rfl
  simp only [used, calls]
  omega

theorem used_openWindow (old : ∀ s d w, some (d, w) ∈ l.charges s → w ≤ l.window d) :
    (l.openWindow d).used d = 0 := by
  have calls : (l.openWindow d).calls d = 0 := Function.update_self ..
  simp [used, calls, outstanding_openWindow old]

theorem used_openWindow_of_ne {d' : DeviceId} (other : d' ≠ d) : (l.openWindow d).used d' = l.used d' := by
  have calls : (l.openWindow d).calls d' = l.calls d' := Function.update_of_ne other ..
  simp [used, calls, outstanding_openWindow_of_ne other]

theorem used_carryOn (hs : s ∈ l.connected) (i : Nat) : (l.carryOn s i).used d +
    (if (l.charges s)[i]? = some (some (d, l.window d)) then 1 else 0) = l.used d := by
  have moved := outstanding_carryOn (d := d) hs i
  have calls : (l.carryOn s i).calls = l.calls := rfl
  simp only [used, calls]
  omega

theorem used_called (d' : DeviceId) : (l.called d).used d' = l.used d' + if d' = d then 1 else 0 := by
  have same : (l.called d).outstanding d' = l.outstanding d' := rfl
  rw [used, used, same]
  simp only [called, Function.update_apply]
  split
  · rename_i h
    rw [h]
    omega
  · rfl

/-- A request uses the window of the device it is charged to, and no other. -/
theorem used_charge_of_ne {d' : DeviceId} (other : d' ≠ d) (hs : s ∈ l.connected) (limiter : RateLimiter) (now : Nat) :
    (l.charge limiter s d now).used d' = l.used d' := by
  have opened : (if limiter.windowOpen d now then l else l.openWindow d).used d' = l.used d' := by
    split
    · rfl
    · exact used_openWindow_of_ne other
  have still : s ∈ (if limiter.windowOpen d now then l else l.openWindow d).connected := by
    split <;> exact hs
  unfold charge
  dsimp only
  split
  · rw [used_suspend still, opened, if_neg (by simp [Ne.symm other])]
    rfl
  · exact opened

theorem used_charge_open (hs : s ∈ l.connected) {limiter : RateLimiter} {now : Nat}
    (hopen : limiter.windowOpen d now = true) :
    (l.charge limiter s d now).used d = l.used d + if (limiter.check d now).1.allowed then 1 else 0 := by
  simp only [charge, hopen, if_true]
  split
  · rw [used_suspend hs, if_pos rfl]
  · rfl

theorem used_charge_closed (hs : s ∈ l.connected) (old : ∀ s d w, some (d, w) ∈ l.charges s → w ≤ l.window d)
    {limiter : RateLimiter} {now : Nat} (closed : limiter.windowOpen d now = false) :
    (l.charge limiter s d now).used d ≤ 1 := by
  have still : s ∈ (l.openWindow d).connected := hs
  simp only [charge, closed, Bool.false_eq_true, if_false]
  split
  · rw [used_suspend still, used_openWindow old, if_pos rfl]
  · rw [used_openWindow old]
    exact Nat.zero_le 1

end Outstanding

end ConnectLedger

namespace Endpoint

variable {J : Type} {env : Env J} {ep : Endpoint J} {l : ConnectLedger} {s s' : SocketId}

/-! ## The ledger follows the waiting lists -/

/-- How many handlers of a socket are suspended. -/
def waitingCount (ep : Endpoint J) (s : SocketId) : Nat := ((ep.sockets s).map (·.waiting.length)).getD 0

theorem waitingCount_congr {ep' : Endpoint J} (same : ep'.sockets = ep.sockets) :
    ep'.waitingCount s = ep.waitingCount s := by
  simp only [waitingCount, same]

theorem waitingCount_park (connected : (ep.sockets s).isSome) (msg : ClientMessage J) :
    (ep.park s msg).waitingCount s' = if s' = s then ep.waitingCount s + 1 else ep.waitingCount s' := by
  obtain ⟨sock, hs⟩ := Option.isSome_iff_exists.1 connected
  unfold waitingCount park
  rw [sockets_modifySocket]
  split <;> simp [hs]

theorem waitingCount_unpark (i : Nat) : (ep.unpark s i).waitingCount s' =
    if s' = s then (if i < ep.waitingCount s then ep.waitingCount s - 1 else ep.waitingCount s)
    else ep.waitingCount s' := by
  unfold waitingCount unpark
  rw [sockets_modifySocket]
  split
  · cases ep.sockets s with
    | none => simp
    | some sock => simp [List.length_eraseIdx]
  · rfl

theorem waitingCount_modifySocket_same {f : Socket J → Socket J} (keep : ∀ sock, (f sock).waiting = sock.waiting) :
    (ep.modifySocket s f).waitingCount s' = ep.waitingCount s' := by
  unfold waitingCount
  rw [sockets_modifySocket]
  split
  · rename_i same
    subst same
    cases ep.sockets s' with
    | none => rfl
    | some sock => simp [keep sock]
  · rfl

/-- A message leaves everything as it was, suspends a handler that nobody is
charged for, or asks the limiter. -/
theorem message_cases (env : Env J) (ep : Endpoint J) (l : ConnectLedger) (s : SocketId)
    (raw : Option (ClientMessage J)) (now : Nat) :
    ((handle env ep (.message s raw now)).1.sockets = ep.sockets ∧
        (handle env ep (.message s raw now)).1.limiter = ep.limiter ∧
        l.record env ep (.message s raw now) = l) ∨
      (∃ msg, (handle env ep (.message s raw now)).1.sockets = (ep.park s msg).sockets ∧
        (handle env ep (.message s raw now)).1.limiter = ep.limiter ∧
        l.record env ep (.message s raw now) = l.suspend s none) ∨
      ∃ d msg, (handle env ep (.message s raw now)).1.sockets =
          (if (ep.limiter.check d now).1.allowed then (ep.park s msg).sockets else ep.sockets) ∧
        (handle env ep (.message s raw now)).1.limiter = (ep.limiter.check d now).2 ∧
        l.record env ep (.message s raw now) = l.charge ep.limiter s d now := by
  simp only [handle, onMessage, ConnectLedger.record]
  cases raw.filter ClientMessage.wellFormed with
  | none => exact .inl ⟨rfl, rfl, rfl⟩
  | some msg =>
    cases hid : ep.identity s with
    | none =>
      cases msg with
      | register => exact .inr (.inl ⟨_, rfl, rfl, rfl⟩)
      | _ => exact .inl ⟨rfl, rfl, rfl⟩
    | some side =>
      cases msg with
      | register => exact .inr (.inl ⟨_, rfl, rfl, rfl⟩)
      | wake => exact .inr (.inl ⟨_, rfl, rfl, rfl⟩)
      | connectRequest target pk rid =>
        refine .inr (.inr ⟨side.1, .connectRequest target pk rid, ?_, ?_, rfl⟩)
        all_goals
          simp only [ClientMessage.isRegister, Bool.false_eq_true, if_false, onRequest]
          split <;> rfl
      | _ => exact .inl ⟨rfl, rfl, rfl⟩

theorem sockets_resume (env : Env J) (ep : Endpoint J) (s : SocketId) (i : Nat) (device : Lookup) (sid : SessionId)
    (now : Nat) :
    (handle env ep (.resume s i device sid now)).1.sockets = (ep.unpark s i).sockets ∨
      ∃ side, (handle env ep (.resume s i device sid now)).1.sockets = ((ep.unpark s i).assign s side).sockets := by
  simp only [handle, onResume]
  split
  · rename_i d secret kind mac canWake rid _
    unfold resumeRegister
    split
    · exact .inl rfl
    · split
      · exact .inl rfl
      · exact .inr ⟨(d, kind), rfl⟩
  · unfold resumeConnectRequest
    split
    · exact .inl rfl
    · split <;> exact .inl rfl
  · exact .inl rfl
  · exact .inl rfl

/-- The endpoint with its ledger. -/
def connectRuns (env : Env J) : System (Endpoint J × ConnectLedger) (Event J) :=
  (signaling env).recording (fun _ => {}) fun ep e l => l.record env ep e

/-- The ledger has a list for every connected socket, as long as its waiting list,
and nobody is charged to a window to come. -/
structure Bookkeeping (p : Endpoint J × ConnectLedger) : Prop where
  listed : ∀ s, s ∈ p.2.connected ↔ (p.1.sockets s).isSome
  parallel : ∀ s, (p.2.charges s).length = p.1.waitingCount s
  old : ∀ s d w, some (d, w) ∈ p.2.charges s → w ≤ p.2.window d

namespace Bookkeeping

variable {p : Endpoint J × ConnectLedger} (b : Bookkeeping p)
include b

/-- A suspended handler is entered, uncharged or charged to a window opened. -/
theorem suspend (connected : (p.1.sockets s).isSome) {ep' : Endpoint J} {msg : ClientMessage J}
    (hs : ep'.sockets = (p.1.park s msg).sockets) {c : Option Charge}
    (opened : ∀ d w, c = some (d, w) → w ≤ p.2.window d) : Bookkeeping (ep', p.2.suspend s c) where
  listed s' := by
    rw [hs, park, isSome_modifySocket]
    exact b.listed s'
  parallel s' := by
    rw [waitingCount_congr hs, waitingCount_park connected]
    simp only [ConnectLedger.suspend, Function.update_apply]
    split
    · rw [List.length_append, b.parallel]
      rfl
    · exact b.parallel s'
  old s' d w charged := by
    simp only [ConnectLedger.suspend, Function.update_apply] at charged ⊢
    split at charged
    · rcases List.mem_append.1 charged with charged | charged
      · exact b.old s d w charged
      · exact opened d w (List.mem_singleton.1 charged).symm
    · exact b.old s' d w charged

theorem congr {ep' : Endpoint J} (hs : ep'.sockets = p.1.sockets) : Bookkeeping (ep', p.2) where
  listed s := by
    rw [hs]
    exact b.listed s
  parallel s := by rw [waitingCount_congr hs, b.parallel]
  old := b.old

theorem openWindow (d : DeviceId) : Bookkeeping (p.1, p.2.openWindow d) where
  listed := b.listed
  parallel := b.parallel
  old s d' w charged := by
    have before := b.old s d' w charged
    simp only [ConnectLedger.openWindow, Function.update_apply]
    split
    · rename_i same
      subst same
      omega
    · exact before

theorem charge (connected : (p.1.sockets s).isSome) {limiter : RateLimiter} {d : DeviceId} {now : Nat}
    {ep' : Endpoint J} {msg : ClientMessage J}
    (hs : ep'.sockets = if (limiter.check d now).1.allowed then (p.1.park s msg).sockets else p.1.sockets) :
    Bookkeeping (ep', p.2.charge limiter s d now) := by
  have opened : Bookkeeping (p.1, if limiter.windowOpen d now then p.2 else p.2.openWindow d) := by
    split
    · exact b
    · exact b.openWindow d
  unfold ConnectLedger.charge
  dsimp only
  split
  · rename_i allowed
    rw [if_pos allowed] at hs
    refine opened.suspend connected hs fun d' w same => ?_
    cases same
    exact Nat.le_refl _
  · rename_i refused
    rw [if_neg refused] at hs
    exact opened.congr hs

theorem carryOn {i : Nat} {ep' : Endpoint J}
    (hs : ep'.sockets = (p.1.unpark s i).sockets ∨ ∃ side, ep'.sockets = ((p.1.unpark s i).assign s side).sockets) :
    Bookkeeping (ep', p.2.carryOn s i) where
  listed s' := by
    refine (b.listed s').trans ?_
    rcases hs with hs | ⟨side, hs⟩ <;> simp [hs, assign, unpark, isSome_modifySocket]
  parallel s' := by
    have counted : ep'.waitingCount s' = (p.1.unpark s i).waitingCount s' := by
      rcases hs with hs | ⟨side, hs⟩
      · exact waitingCount_congr hs
      · rw [waitingCount_congr hs]
        apply waitingCount_modifySocket_same
        intro sock
        rfl
    rw [counted, waitingCount_unpark]
    simp only [ConnectLedger.carryOn, Function.update_apply]
    split
    · rw [List.length_eraseIdx, b.parallel]
    · exact b.parallel s'
  old s' d w charged := by
    simp only [ConnectLedger.carryOn, Function.update_apply] at charged
    split at charged
    · exact b.old s d w (List.mem_of_mem_eraseIdx charged)
    · exact b.old s' d w charged

theorem called (d : DeviceId) : Bookkeeping (p.1, p.2.called d) := ⟨b.listed, b.parallel, b.old⟩

/-- Every event keeps the books. -/
theorem step {e : Event J} (he : p.1.admits e) :
    Bookkeeping ((Endpoint.handle env p.1 e).1, p.2.record env p.1 e) := by
  cases e with
  | connection s wanIp =>
    have fresh : p.1.sockets s = none := he
    refine ⟨fun s' => ?_, fun s' => ?_, b.old⟩
    · simp only [ConnectLedger.record, handle, Finset.mem_insert, Function.update_apply, b.listed s']
      split <;> simp_all
    · simp only [ConnectLedger.record, handle, waitingCount, Function.update_apply]
      split
      · rename_i same
        rw [b.parallel, same, waitingCount, fresh]
        rfl
      · exact b.parallel s'
  | message s raw now =>
    have connected := connected_of_isOpen he
    rcases message_cases env p.1 p.2 s raw now with ⟨hs, -, hl⟩ | ⟨msg, hs, -, hl⟩ | ⟨d, msg, hs, -, hl⟩
    · rw [hl]
      exact b.congr hs
    · rw [hl]
      exact b.suspend connected hs fun _ _ h => by cases h
    · rw [hl]
      exact b.charge connected hs
  | resume s i device sid now =>
    have carried := b.carryOn (sockets_resume env p.1 s i device sid now)
    simp only [ConnectLedger.record]
    split
    · exact carried
    · exact carried.called _
  | close s =>
    refine ⟨fun s' => ?_, fun s' => ?_, b.old⟩
    · simp only [handle, onClose, isSome_modifySocket]
      exact b.listed s'
    · refine (b.parallel s').trans (Eq.symm ?_)
      apply waitingCount_modifySocket_same
      intro sock
      rfl

end Bookkeeping

/-! ## The limit -/

/-- A device that calls the registry while its window is open: the handler was
charged to it, in that window. -/
def Charged (env : Env J) (p : Endpoint J × ConnectLedger) : Event J → Prop
  | .resume s i device sid now => ∀ d ∈ ConnectLedger.calling env p.1 (.resume s i device sid now) now,
      (p.2.charges s)[i]? = some (some (d, p.2.window d))
  | _ => True

/-- No device made more calls in its window than the limit. -/
def WithinLimit (p : Endpoint J × ConnectLedger) : Prop := ∀ d, p.2.calls d ≤ 20

/-- Calls and charged handlers of a device together stay below its count. -/
structure InBudget (p : Endpoint J × ConnectLedger) : Prop where
  limit : p.1.limiter.limit = 20
  enabled : p.1.limiter.enabled = true
  books : Bookkeeping p
  spent : ∀ d, p.2.used d ≤ 20
  counted : ∀ d hit, p.1.limiter.hits.get d = some hit → p.2.used d ≤ hit.count

namespace InBudget

variable {p : Endpoint J × ConnectLedger} (b : InBudget p)
include b

theorem withinLimit : WithinLimit p := fun d => (Nat.le_add_right _ _).trans (b.spent d)

/-- An event that does not ask the limiter and uses no more of any window. -/
theorem of_used_le {p' : Endpoint J × ConnectLedger} (hlim : p'.1.limiter = p.1.limiter) (books : Bookkeeping p')
    (le : ∀ d, p'.2.used d ≤ p.2.used d) : InBudget p' where
  limit := by rw [hlim, b.limit]
  enabled := by rw [hlim, b.enabled]
  books := books
  spent d := (le d).trans (b.spent d)
  counted d hit stored := by
    rw [hlim] at stored
    exact (le d).trans (b.counted d hit stored)

/-- A charged request. -/
theorem charge (hs : s ∈ p.2.connected) {d : DeviceId} {now : Nat} {p' : Endpoint J × ConnectLedger}
    (hlim : p'.1.limiter = (p.1.limiter.check d now).2) (books : Bookkeeping p')
    (hl : p'.2 = p.2.charge p.1.limiter s d now) : InBudget p' := by
  have settings := p.1.limiter.check_settings d now
  have others {d' : DeviceId} (other : d' ≠ d) : p'.2.used d' = p.2.used d' := by
    rw [hl, ConnectLedger.used_charge_of_ne other hs]
  have own : p'.2.used d ≤ 20 ∧ ∀ hit, p'.1.limiter.hits.get d = some hit → p'.2.used d ≤ hit.count := by
    rw [hl, hlim]
    cases hw : p.1.limiter.windowOpen d now with
    | false =>
      have fresh := ConnectLedger.used_charge_closed hs b.books.old hw
      obtain ⟨-, stored⟩ := RateLimiter.check_closed b.enabled hw
      refine ⟨by omega, fun hit h => ?_⟩
      rw [stored] at h
      cases h
      exact fresh
    | true =>
      obtain ⟨hit, found, hopen⟩ := RateLimiter.windowOpen_eq_true.1 hw
      obtain ⟨allowed, stored⟩ := RateLimiter.check_open b.enabled found hopen
      have before := b.counted d hit found
      have spent := b.spent d
      rw [b.limit] at allowed
      rw [ConnectLedger.used_charge_open hs hw]
      constructor
      · split
        · rename_i passed
          have := allowed.1 passed
          omega
        · omega
      · intro hit' h
        rw [stored] at h
        cases h
        dsimp only
        split <;> omega
  refine ⟨by rw [hlim, settings.1, b.limit], by rw [hlim, settings.2, b.enabled], books, fun d' => ?_,
    fun d' hit h => ?_⟩
  · by_cases other : d' = d
    · subst other
      exact own.1
    · rw [others other]
      exact b.spent d'
  · by_cases other : d' = d
    · subst other
      exact own.2 hit h
    · rw [others other]
      rw [hlim] at h
      exact b.counted d' hit (RateLimiter.check_other (Ne.symm other) h)

theorem step {e : Event J} (he : p.1.admits e) (charged : Charged env p e) :
    InBudget ((handle env p.1 e).1, p.2.record env p.1 e) := by
  have books : Bookkeeping ((handle env p.1 e).1, p.2.record env p.1 e) := b.books.step he
  cases e with
  | connection s wanIp =>
    have fresh : p.1.sockets s = none := he
    refine b.of_used_le rfl books fun d => ?_
    -- the new socket has no handler yet
    have empty : p.2.charges s = [] := by
      apply List.eq_nil_of_length_eq_zero
      rw [b.books.parallel, waitingCount, fresh]
      rfl
    have same : ({ p.2 with connected := insert s p.2.connected } : ConnectLedger).outstanding d =
        p.2.outstanding d := by
      apply Finset.sum_insert_zero
      rw [empty]
      rfl
    exact Nat.add_le_add_left same.le _
  | message s raw now =>
    have connected := connected_of_isOpen he
    have listed := (b.books.listed s).2 connected
    rcases message_cases env p.1 p.2 s raw now with ⟨-, hlim, hl⟩ | ⟨msg, -, hlim, hl⟩ | ⟨d, msg, -, hlim, hl⟩
    · exact b.of_used_le hlim books fun d => by rw [hl]
    · refine b.of_used_le hlim books fun d => ?_
      rw [hl, ConnectLedger.used_suspend listed]
      simp
    · exact b.charge listed hlim books hl
  | resume s i device sid now =>
    have listed := (b.books.listed s).2 (connected_of_waitingAt he.1)
    have hlim := limiter_resume env p.1 s i device sid now
    refine b.of_used_le hlim books fun d => ?_
    have freed := ConnectLedger.used_carryOn (d := d) listed i
    simp only [ConnectLedger.record]
    cases hc : ConnectLedger.calling env p.1 (.resume s i device sid now) now with
    | none =>
      dsimp only
      omega
    | some d' =>
      rw [ConnectLedger.used_called]
      split
      · rename_i same
        subst same
        rw [if_pos (charged d hc)] at freed
        omega
      · omega
  | close s => exact b.of_used_le rfl books fun d => Nat.le_refl _

end InBudget

/-- In a run whose calls are all charged to their device, no device calls the
registry more often in a window than the limit. -/
theorem connectLimit_of_charged (env : Env J) (on : env.limiterEnabled = true) {es : List (Event J)}
    (hv : (connectRuns env).Valid (initial env, {}) es)
    (charged : (connectRuns env).AllSteps (Charged env) (initial env, {}) es) :
    (connectRuns env).AllStates WithinLimit (initial env, {}) es := by
  have start : InBudget (initial env, ({} : ConnectLedger)) := by
    refine ⟨rfl, on, ⟨fun s => ?_, fun s => rfl, fun s d w h => ?_⟩, fun d => ?_, fun d hit h => ?_⟩
    · simp [initial]
    · cases h
    · exact Nat.zero_le 20
    · cases h
  have reach : (connectRuns env).Reachable (initial env, {}) := .init ⟨(rfl : initial env = initial env), rfl⟩
  have budget : (connectRuns env).AllStates InBudget (initial env, {}) es := by
    refine System.allStates_of_allSteps ?_ reach start hv charged
    intro p e _ he b charged
    exact InBudget.step b he charged
  exact budget.mono fun p b => b.withinLimit

/-! ## Two identities on one socket -/

def asking (s : SocketId) (now : Nat) : Event Unit := .message s (some (.connectRequest "333333333" none none)) now

def asked (s : SocketId) (sid : SessionId) (now : Nat) : Event Unit := .resume s 0 (.found none) sid now

/-- Twenty requests of one device, the registration of another behind them, one
request of that one, and then all lookups are answered. -/
def twoIdentities : List (Event Unit) :=
  [.connection 0 none, registering 0 "111111111" .controller, registered 0] ++ List.replicate 20 (asking 0 0) ++
    [registering 0 "222222222" .controller, .resume 0 20 (.found (some sampleRow)) "" 0, asking 0 0] ++
    List.replicate 21 (asked 0 "s" 0)

instance (ep : Endpoint J) (s : SocketId) : Decidable (ep.isOpen s) :=
  decidable_of_iff ((ep.sockets s).any (!·.closed) = true) (by simp [isOpen, Option.any_eq_true])

instance (ep : Endpoint J) : (e : Event J) → Decidable (ep.admits e)
  | .connection s _ => inferInstanceAs (Decidable (ep.sockets s = none))
  | .message s _ _ => inferInstanceAs (Decidable (ep.isOpen s))
  | .resume s i _ sessionId _ => inferInstanceAs (Decidable ((ep.waitingAt s i).isSome ∧ sessionId ∉ ep.issued))
  | .close s => inferInstanceAs (Decidable (ep.isOpen s))

instance (p : Endpoint J × ConnectLedger) (e : Event J) : Decidable ((connectRuns env).enabled p e) :=
  inferInstanceAs (Decidable (p.1.admits e))

instance (p : Endpoint J × ConnectLedger) : (e : Event J) → Decidable (Charged env p e)
  | .resume s i device sid now => inferInstanceAs (Decidable (∀ d ∈ ConnectLedger.calling env p.1
      (.resume s i device sid now) now, (p.2.charges s)[i]? = some (some (d, p.2.window d))))
  | .connection .. => .isTrue trivial
  | .message .. => .isTrue trivial
  | .close .. => .isTrue trivial

/-- The second device gets twenty-one calls in one window. -/
theorem twentyOne_calls :
    ∃ es, (connectRuns sampleEnv).Valid (initial sampleEnv, {}) es ∧
      ¬ (connectRuns sampleEnv).AllStates WithinLimit (initial sampleEnv, {}) es := by
  refine ⟨twoIdentities, by decide +kernel, fun within => ?_⟩
  have calls : ((connectRuns sampleEnv).after (initial sampleEnv, {}) twoIdentities).2.calls "222222222" = 21 := by
    decide +kernel
  have := within.last "222222222"
  omega

/-- One device whose requests all wait for their lookups stays within the limit. -/
theorem one_identity_within_limit :
    (connectRuns sampleEnv).AllStates WithinLimit (initial sampleEnv, {})
      ([.connection 0 none, registering 0 "111111111" .controller, registered 0] ++ List.replicate 21 (asking 0 0) ++
        List.replicate 20 (asked 0 "s" 0)) :=
  connectLimit_of_charged sampleEnv rfl (by decide +kernel) (by decide +kernel)

end Endpoint

end ZortilWatch.Signaling
