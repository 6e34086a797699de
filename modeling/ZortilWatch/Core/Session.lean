import ZortilWatch.Core.Crypto

/-!
# The session handshake (`core/src/session.rs`)

One side of the handshake as a state machine: a PAKE message gives the key and
the binding tag to send, the peer's tag confirms the key.
-/

namespace ZortilWatch.Core

/-- Messages of the handshake. -/
inductive SessionMessage where
  | pake (msg : Bytes)
  /-- The binding of the key to the fingerprints. -/
  | binding (tag : Bytes32)
  deriving DecidableEq

inductive HandshakeState (prim : Primitives) where
  | awaitingPake (pake : prim.PakeState)
  | awaitingBinding (key myBinding : Bytes32)
  | confirmed (key : Bytes32)
  | failed

structure Handshake (prim : Primitives) where
  ownFp : String
  peerFp : String
  state : HandshakeState prim

/-- Comparison in constant time. -/
def ctEq (a b : Bytes32) : Bool := (a.toList.zip b.toList).foldl (fun acc p => acc ||| (p.1 ^^^ p.2)) 0 == 0

theorem foldl_xor_eq_zero (acc : UInt8) : ∀ l : List (UInt8 × UInt8),
    l.foldl (fun acc p => acc ||| (p.1 ^^^ p.2)) acc = 0 ↔ acc = 0 ∧ ∀ p ∈ l, p.1 = p.2
  | [] => by simp
  | p :: l => by
    have or_zero (x y : UInt8) : x ||| y = 0 ↔ x = 0 ∧ y = 0 := by
      simp [← UInt8.toBitVec_inj, BitVec.or_eq_zero_iff]
    rw [List.foldl_cons, foldl_xor_eq_zero, or_zero, UInt8.xor_eq_zero_iff]
    simp [and_assoc]

theorem zip_all_eq {a b : List UInt8} (h : a.length = b.length) (hp : ∀ p ∈ a.zip b, p.1 = p.2) : a = b := by
  induction a generalizing b with
  | nil => exact (List.length_eq_zero_iff.1 h.symm).symm
  | cons x a ih =>
    cases b with
    | nil => cases h
    | cons y b =>
      simp only [List.zip_cons_cons, List.mem_cons, forall_eq_or_imp] at hp
      rw [hp.1, ih (by simpa using h) hp.2]

theorem ctEq_iff {a b : Bytes32} : ctEq a b = true ↔ a = b := by
  unfold ctEq
  rw [beq_iff_eq, foldl_xor_eq_zero]
  constructor
  · rintro ⟨-, h⟩
    exact Vector.toList_inj.1 (zip_all_eq (by simp) h)
  · rintro rfl
    refine ⟨rfl, fun p hp => ?_⟩
    obtain ⟨i, hi, rfl⟩ := List.getElem_of_mem hp
    simp

namespace Handshake

variable {prim : Primitives}

/-- Both constructors end here. -/
def fromPake (pake : prim.PakeState) (msg : Bytes) (ownFp peerFp : String) : Handshake prim × SessionMessage :=
  ({ ownFp := ownFp, peerFp := peerFp, state := .awaitingPake pake }, .pake msg)

def start (password : Bytes) (ownFp peerFp : String) (rng : prim.Rng) : Handshake prim × SessionMessage :=
  let started := pakeStart prim password rng
  fromPake started.1 started.2 ownFp peerFp

/-- Take a message; some are answered. -/
def onMessage (h : Handshake prim) (msg : SessionMessage) : Handshake prim × Option SessionMessage :=
  match h.state, msg with
  | .awaitingPake pake, .pake inbound =>
    match pakeFinish prim pake inbound with
    | .ok key =>
      let myBinding := sessionBinding prim key h.ownFp h.peerFp
      ({ h with state := .awaitingBinding key myBinding }, some (.binding myBinding))
    | .error _ => ({ h with state := .failed }, none)
  | .awaitingBinding key myBinding, .binding peerBinding =>
    ({ h with state := if ctEq myBinding peerBinding then .confirmed key else .failed }, none)
  | _, _ => ({ h with state := .failed }, none)

/-- The session key once the handshake is confirmed. -/
def confirmedKey (h : Handshake prim) : Option Bytes32 :=
  match h.state with
  | .confirmed k => some k
  | _ => none

theorem confirmedKey_eq_some {h : Handshake prim} {k : Bytes32} :
    h.confirmedKey = some k ↔ h.state = .confirmed k := by
  unfold confirmedKey
  cases h.state <;> simp

@[simp] theorem onMessage_ownFp (h : Handshake prim) (msg : SessionMessage) : (h.onMessage msg).1.ownFp = h.ownFp := by
  unfold onMessage
  split
  · split <;> rfl
  · rfl
  · rfl

@[simp] theorem onMessage_peerFp (h : Handshake prim) (msg : SessionMessage) :
    (h.onMessage msg).1.peerFp = h.peerFp := by
  unfold onMessage
  split
  · split <;> rfl
  · rfl
  · rfl

/-- A message derives the key, confirms it, or ends the handshake. -/
theorem onMessage_cases (h : Handshake prim) (msg : SessionMessage) :
    (∃ pake inbound key, h.state = .awaitingPake pake ∧ msg = .pake inbound ∧
        pakeFinish prim pake inbound = .ok key ∧
        (h.onMessage msg).1.state = .awaitingBinding key (sessionBinding prim key h.ownFp h.peerFp)) ∨
      (∃ key myBinding, h.state = .awaitingBinding key myBinding ∧ msg = .binding myBinding ∧
        (h.onMessage msg).1.state = .confirmed key) ∨
      ((h.onMessage msg).1.state = .failed ∧
        ∀ key myBinding, h.state = .awaitingBinding key myBinding → msg ≠ .binding myBinding) := by
  unfold onMessage
  split
  · rename_i pake inbound hs
    split
    · rename_i key hf
      exact .inl ⟨pake, inbound, key, hs, rfl, hf, rfl⟩
    · exact .inr (.inr ⟨rfl, nofun⟩)
  · rename_i key myBinding peerBinding hs
    by_cases heq : myBinding = peerBinding
    · subst heq
      exact .inr (.inl ⟨key, myBinding, hs, rfl, if_pos (ctEq_iff.2 rfl)⟩)
    · refine .inr (.inr ⟨if_neg fun h => heq (ctEq_iff.1 h), fun key' mine hs' => ?_⟩)
      cases hs.symm.trans hs'
      exact fun h => heq (by injection h with h; exact h.symm)
  · rename_i hno
    exact .inr (.inr ⟨rfl, fun key mine hs hm => hno key mine mine hs hm⟩)

end Handshake

end ZortilWatch.Core
