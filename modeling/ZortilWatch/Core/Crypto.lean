import Mathlib.Data.List.Basic
import Mathlib.Order.Basic
import Mathlib.Data.String.Basic

/-!
# End-to-end crypto of a session (`core/src/crypto.rs`)

The algorithms come from third-party crates and are the fields of `Primitives`;
what the code does with them (labels, byte layouts, nonces, the canonical order
of the fingerprints) is defined here.
-/

namespace ZortilWatch.Core

abbrev Bytes := List UInt8

/-- `[u8; 32]`. -/
abbrev Bytes32 := Vector UInt8 32

/-- The bytes of a Rust string. -/
def utf8 (s : String) : Bytes := s.toUTF8.data.toList

/-- SPAKE2, HKDF-SHA256, HMAC-SHA256 and ChaCha20-Poly1305. -/
structure Primitives where
  /-- Draws of the random generator. -/
  Rng : Type
  PakeState : Type
  /-- `Spake2::start_symmetric_with_rng`: password, identity and a draw. -/
  startSymmetric : Bytes → Bytes → Rng → PakeState × Bytes
  /-- `Spake2::finish`. -/
  finish : PakeState → Bytes → Option Bytes
  /-- `Hkdf::new(None, ikm).expand(label)` to 32 bytes. -/
  hkdf : Bytes → Bytes → Option Bytes32
  hmac : Bytes32 → Bytes → Bytes32
  /-- Key, nonce, plaintext. -/
  encrypt : Bytes32 → Bytes → Bytes → Bytes
  /-- Key, nonce, ciphertext. -/
  decrypt : Bytes32 → Bytes → Bytes → Option Bytes

inductive CryptoError where
  | handshake
  | kdf
  | aead
  deriving DecidableEq, Repr

def APP_ID : Bytes := utf8 "zortilwatch-session-v1"

/-- Video, host to controller. -/
def STREAM_LABEL_MEDIA_H2C : Bytes := utf8 "zortilwatch media h2c v1"

/-- Input, controller to host. -/
def STREAM_LABEL_INPUT_C2H : Bytes := utf8 "zortilwatch ctrl c2h v1"

variable (prim : Primitives)

def pakeStart (password : Bytes) (rng : prim.Rng) : prim.PakeState × Bytes := prim.startSymmetric password APP_ID rng

/-- The session key. A wrong password is no error here, it gives another key. -/
def pakeFinish (state : prim.PakeState) (inbound : Bytes) : Except CryptoError Bytes32 :=
  match prim.finish state inbound with
  | none => .error .handshake
  | some shared =>
    match prim.hkdf shared (utf8 "zortilwatch session key v1") with
    | none => .error .kdf
    | some key => .ok key

/-- What the MAC of the binding is fed. -/
def bindingFrame (lo hi : String) : Bytes := utf8 "dtls-binding-v1\x00" ++ utf8 lo ++ utf8 "\x00" ++ utf8 hi

/-- Both fingerprints in canonical order. -/
def bindingText (fpA fpB : String) : Bytes := if fpA ≤ fpB then bindingFrame fpA fpB else bindingFrame fpB fpA

/-- The tag that binds a session key to both DTLS fingerprints. -/
def sessionBinding (sessionKey : Bytes32) (fpA fpB : String) : Bytes32 := prim.hmac sessionKey (bindingText fpA fpB)

/-- The key of one direction. -/
def deriveStreamKey (sessionKey : Bytes32) (label : Bytes) : Option Bytes32 := prim.hkdf sessionKey.toList label

/-! ## Streams -/

/-- The sender of one direction. -/
structure StreamSealer where
  key : Bytes32
  counter : UInt64 := 0
  deriving DecidableEq

/-- The receiver of one direction. -/
structure StreamOpener where
  key : Bytes32
  deriving DecidableEq

/-- `u64::to_be_bytes`. -/
def beBytes64 (n : UInt64) : Bytes := ([56, 48, 40, 32, 24, 16, 8, 0] : List UInt64).map fun s => (n >>> s).toUInt8

/-- Twelve bytes of nonce: four zeros and the counter. -/
def streamNonce (counter : UInt64) : Bytes := List.replicate 4 0 ++ beBytes64 counter

/-- `expect` stops the program if the expansion fails. -/
def StreamSealer.new (sessionKey : Bytes32) (label : Bytes) : Option StreamSealer :=
  (deriveStreamKey prim sessionKey label).map ({ key := · })

/-- `[nonce:12][ciphertext+tag]`. -/
def StreamSealer.seal (s : StreamSealer) (plaintext : Bytes) : StreamSealer × Bytes :=
  let nonce := streamNonce s.counter
  ({ s with counter := s.counter + 1 }, nonce ++ prim.encrypt s.key nonce plaintext)

def StreamOpener.new (sessionKey : Bytes32) (label : Bytes) : Option StreamOpener :=
  (deriveStreamKey prim sessionKey label).map ({ key := · })

/-- The opener takes no note of what it has opened. -/
def StreamOpener.open (o : StreamOpener) (msg : Bytes) : Except CryptoError Bytes :=
  if msg.length < 12 then .error .aead
  else
    match prim.decrypt o.key (msg.take 12) (msg.drop 12) with
    | none => .error .aead
    | some plaintext => .ok plaintext

/-! ## The binding text -/

/-- No byte of the fingerprint reads as the separator. -/
def NulFree (fp : String) : Prop := '\x00' ∉ fp.toList

instance (fp : String) : Decidable (NulFree fp) := inferInstanceAs (Decidable (_ ∉ _))

theorem bindingText_comm (fpA fpB : String) : bindingText fpA fpB = bindingText fpB fpA := by
  unfold bindingText
  rcases le_total fpA fpB with h | h
  · rcases eq_or_ne fpA fpB with rfl | hne
    · rfl
    · rw [if_pos h, if_neg fun h' => hne (le_antisymm h h')]
  · rcases eq_or_ne fpA fpB with rfl | hne
    · rfl
    · rw [if_pos h, if_neg fun h' => hne (le_antisymm h' h)]

theorem sessionBinding_comm (key : Bytes32) (fpA fpB : String) :
    sessionBinding prim key fpA fpB = sessionBinding prim key fpB fpA := by
  rw [sessionBinding, bindingText_comm, sessionBinding]

theorem utf8_append (s t : String) : utf8 (s ++ t) = utf8 s ++ utf8 t := by
  simp [utf8]

theorem utf8_injective {s t : String} (h : utf8 s = utf8 t) : s = t := by
  unfold utf8 at h
  exact String.toByteArray_inj.1 (ByteArray.ext (Array.toList_inj.1 h))

/-- A frame with no other separator is split at the one in the middle. -/
theorem bindingFrame_inj {a b c d : String} (ha : NulFree a) (hb : NulFree b)
    (h : bindingFrame a b = bindingFrame c d) : a = c ∧ b = d := by
  simp only [bindingFrame, ← utf8_append] at h
  have lists := congrArg String.toList (utf8_injective h)
  have nul : "\x00".toList = ['\x00'] := by decide
  simp only [String.toList_append, List.append_assoc, List.append_cancel_left_eq, nul, List.cons_append,
    List.nil_append] at lists
  obtain ⟨hac, -, hbd⟩ := (List.append_cons_inj_of_notMem ha hb).1 lists
  exact ⟨String.toList_injective hac, String.toList_injective hbd⟩

/-- The text of two fingerprints without separators is no other pair's text. -/
theorem bindingText_inj {a b c d : String} (ha : NulFree a) (hb : NulFree b)
    (h : bindingText a b = bindingText c d) : (a = c ∧ b = d) ∨ (a = d ∧ b = c) := by
  unfold bindingText at h
  split at h <;> split at h
  · exact .inl (bindingFrame_inj ha hb h)
  · exact .inr (bindingFrame_inj ha hb h)
  · exact .inr (bindingFrame_inj hb ha h).symm
  · exact .inl (bindingFrame_inj hb ha h).symm

/-- Primitives to run examples with: a key is the password and both draws, and a
ciphertext ends in the key and nonce it was made with. -/
def samplePrimitives : Primitives where
  Rng := UInt8
  PakeState := Bytes × UInt8
  startSymmetric password _ draw := ((password, draw), [draw])
  finish
    | (password, draw), [peer] => some (password ++ [min draw peer, max draw peer])
    | _, _ => none
  hkdf ikm label := some (Vector.ofFn fun i => (ikm ++ label).getD i 0)
  hmac key text := Vector.ofFn fun i => key.get i + text.foldl (· + ·) 0
  encrypt key nonce plaintext := plaintext ++ (key.toList.take 4 ++ nonce)
  decrypt key nonce msg :=
    let n := msg.length - 16
    if msg.drop n = key.toList.take 4 ++ nonce then some (msg.take n) else none

theorem samplePrimitives_correct (key : Bytes32) {nonce : Bytes} (h : nonce.length = 12) (plaintext : Bytes) :
    samplePrimitives.decrypt key nonce (samplePrimitives.encrypt key nonce plaintext) = some plaintext := by
  have len : (plaintext ++ (key.toList.take 4 ++ nonce)).length - 16 = plaintext.length := by
    simp only [List.length_append, List.length_take, Vector.length_toList, h]
    omega
  simp only [samplePrimitives, len, List.drop_left, List.take_left, if_true]

end ZortilWatch.Core
