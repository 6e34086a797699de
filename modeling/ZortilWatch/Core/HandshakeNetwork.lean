import Mathlib.Logic.Function.Basic
import ZortilWatch.Core.Session
import ZortilWatch.Lib.Runs

/-!
# Handshakes against an active network

Any number of handshakes, and a network that hands any of them any message at
any time. Delivered messages are arbitrary: every tag an instance waits for is
one it has itself sent before, so unforgeability keeps no matching tag from the
network and its other tags are worth nothing. What the ideal primitives exclude
is coincidence, `Ideal`: nobody without the password derives the same key, and
equal tags are tags of one key over one text.
-/

namespace ZortilWatch.Core

variable {prim : Primitives}

/-- A handshake with its password and, once there is one, the key it derived. -/
structure Instance (prim : Primitives) where
  password : Bytes
  hs : Handshake prim
  derived : Option Bytes32 := none

namespace Instance

/-- The binding text of the instance. -/
def text (a : Instance prim) : Bytes := bindingText a.hs.ownFp a.hs.peerFp

def deliver (a : Instance prim) (msg : SessionMessage) : Instance prim :=
  let hs := (a.hs.onMessage msg).1
  { a with
    hs := hs
    derived := match hs.state with
      | .awaitingBinding key _ => some key
      | _ => a.derived }

@[simp] theorem deliver_ownFp (a : Instance prim) (msg : SessionMessage) :
    (a.deliver msg).hs.ownFp = a.hs.ownFp := a.hs.onMessage_ownFp msg

@[simp] theorem deliver_peerFp (a : Instance prim) (msg : SessionMessage) :
    (a.deliver msg).hs.peerFp = a.hs.peerFp := a.hs.onMessage_peerFp msg

/-- Its state agrees with the key it derived. -/
structure Sound (a : Instance prim) : Prop where
  pake : ∀ p, a.hs.state = .awaitingPake p → a.derived = none
  binding : ∀ key mine, a.hs.state = .awaitingBinding key mine →
    a.derived = some key ∧ mine = sessionBinding prim key a.hs.ownFp a.hs.peerFp
  confirmed : ∀ key, a.hs.state = .confirmed key → a.derived = some key

theorem Sound.start (password : Bytes) (ownFp peerFp : String) (rng : prim.Rng) :
    ({ password := password, hs := (Handshake.start password ownFp peerFp rng).1 } : Instance prim).Sound where
  pake _ _ := rfl
  binding _ _ h := by cases h
  confirmed _ h := by cases h

/-- What a delivery does: it derives a key, confirms the derived key, or fails. -/
theorem deliver_cases (a : Instance prim) (msg : SessionMessage) :
    (∃ p inbound key, a.hs.state = .awaitingPake p ∧ msg = .pake inbound ∧
        (a.deliver msg).hs.state = .awaitingBinding key (sessionBinding prim key a.hs.ownFp a.hs.peerFp) ∧
        (a.deliver msg).derived = some key) ∨
      (∃ key mine, a.hs.state = .awaitingBinding key mine ∧ msg = .binding mine ∧
        (a.deliver msg).hs.state = .confirmed key ∧ (a.deliver msg).derived = a.derived) ∨
      ((a.deliver msg).hs.state = .failed ∧ (a.deliver msg).derived = a.derived ∧
        ∀ key mine, a.hs.state = .awaitingBinding key mine → msg ≠ .binding mine) := by
  rcases a.hs.onMessage_cases msg with ⟨p, inbound, key, hs, hm, -, h⟩ | ⟨key, mine, hs, hm, h⟩ | ⟨h, hno⟩
  · exact .inl ⟨p, inbound, key, hs, hm, h, by simp [deliver, h]⟩
  · exact .inr (.inl ⟨key, mine, hs, hm, h, by simp [deliver, h]⟩)
  · exact .inr (.inr ⟨h, by simp [deliver, h], hno⟩)

theorem Sound.deliver {a : Instance prim} (ha : a.Sound) (msg : SessionMessage) : (a.deliver msg).Sound := by
  rcases a.deliver_cases msg with ⟨p, inbound, key, -, -, h, hd⟩ | ⟨key, mine, hs, -, h, hd⟩ | ⟨h, -, -⟩
  · refine ⟨fun p' h' => ?_, fun key' mine h' => ?_, fun key' h' => ?_⟩ <;> cases h.symm.trans h'
    exact ⟨hd, by simp⟩
  · refine ⟨fun p' h' => ?_, fun key' mine h' => ?_, fun key' h' => ?_⟩ <;> cases h.symm.trans h'
    exact hd.trans (ha.binding key mine hs).1
  · refine ⟨fun p' h' => ?_, fun key' mine h' => ?_, fun key' h' => ?_⟩ <;> cases h.symm.trans h'

/-- A derived key stays. -/
theorem Sound.derived_deliver {a : Instance prim} (ha : a.Sound) {key : Bytes32} (hk : a.derived = some key)
    (msg : SessionMessage) : (a.deliver msg).derived = some key := by
  rcases a.deliver_cases msg with ⟨p, inbound, key', hs, -, -, -⟩ | ⟨key', mine, -, -, -, hd⟩ | ⟨-, hd, -⟩
  · cases (ha.pake p hs).symm.trans hk
  · exact hd.trans hk
  · exact hd.trans hk

end Instance

/-! ## The network -/

abbrev InstanceId := Nat

/-- The handshakes started so far. -/
structure Network (prim : Primitives) where
  inst : InstanceId → Option (Instance prim) := fun _ => none

namespace Network

inductive Event (prim : Primitives) where
  /-- A handshake starts; the network chose the peer's fingerprint it sees. -/
  | start (i : InstanceId) (password : Bytes) (ownFp peerFp : String) (rng : prim.Rng)
  /-- The network hands a handshake a message. -/
  | deliver (i : InstanceId) (msg : SessionMessage)

def step (net : Network prim) : Event prim → Network prim
  | .start i password ownFp peerFp rng =>
    { inst := Function.update net.inst i
        (some { password := password, hs := (Handshake.start password ownFp peerFp rng).1 }) }
  | .deliver i msg => { inst := Function.update net.inst i ((net.inst i).map (·.deliver msg)) }

/-- No coincidence of keys or tags. -/
structure Ideal (net : Network prim) : Prop where
  keys : ∀ i j a b key, net.inst i = some a → net.inst j = some b → a.derived = some key →
    b.derived = some key → a.password = b.password
  macs : ∀ i j a b keyA keyB, net.inst i = some a → net.inst j = some b → a.derived = some keyA →
    b.derived = some keyB → prim.hmac keyA a.text = prim.hmac keyB b.text → keyA = keyB ∧ a.text = b.text

def admits (net : Network prim) (e : Event prim) : Prop :=
  (match e with
    | .start i .. => net.inst i = none
    | .deliver i _ => (net.inst i).isSome) ∧ (net.step e).Ideal

end Network

/-- All runs of handshakes over an adversarial network with ideal primitives. -/
def handshakes (prim : Primitives) : System (Network prim) (Network.Event prim) where
  init net := net = {}
  enabled := Network.admits
  step := Network.step

namespace Network

/-- Whoever confirms a key has a partner: another instance with the password,
the key and the fingerprints the other way round. -/
def Authenticated (net : Network prim) : Prop :=
  ∀ i a key, net.inst i = some a → a.hs.state = .confirmed key →
    ∃ j b, j ≠ i ∧ net.inst j = some b ∧ b.password = a.password ∧ b.derived = some key ∧
      b.hs.ownFp = a.hs.peerFp ∧ b.hs.peerFp = a.hs.ownFp

/-- Handshakes start with fingerprints that do not contain the separator. -/
def nulFreeStart : Network prim → Event prim → Prop
  | _, .start _ _ ownFp peerFp _ => NulFree ownFp ∧ NulFree peerFp
  | _, .deliver .. => True

/-- A handshake that is handed the tag it waits for is handed one that another
handshake, with a fingerprint of its own, has sent as well. -/
def notReflected (net : Network prim) : Event prim → Prop
  | .start .. => True
  | .deliver i msg => ∀ a key mine, net.inst i = some a → a.hs.state = .awaitingBinding key mine →
      msg = .binding mine → ∃ j b keyB, j ≠ i ∧ net.inst j = some b ∧ b.derived = some keyB ∧
        sessionBinding prim keyB b.hs.ownFp b.hs.peerFp = mine ∧
        (b.hs.ownFp = a.hs.ownFp → a.hs.peerFp = a.hs.ownFp)

/-- What every run with fingerprints without separators keeps. -/
structure Sound (net : Network prim) : Prop where
  insts : ∀ i a, net.inst i = some a → a.Sound
  nulFree : ∀ i a, net.inst i = some a → NulFree a.hs.ownFp ∧ NulFree a.hs.peerFp

theorem inst_start (net : Network prim) (i j : InstanceId) (password : Bytes) (ownFp peerFp : String)
    (rng : prim.Rng) : (net.step (.start i password ownFp peerFp rng)).inst j =
      if j = i then some { password := password, hs := (Handshake.start password ownFp peerFp rng).1 }
      else net.inst j := by
  simp [step, Function.update_apply]

theorem inst_deliver (net : Network prim) (i j : InstanceId) (msg : SessionMessage) :
    (net.step (.deliver i msg)).inst j = if j = i then (net.inst i).map (·.deliver msg) else net.inst j := by
  simp [step, Function.update_apply]

theorem Sound.step {net : Network prim} (h : net.Sound) {e : Event prim} (hf : nulFreeStart net e) :
    (net.step e).Sound := by
  cases e with
  | start i password ownFp peerFp rng =>
    refine ⟨fun j a ha => ?_, fun j a ha => ?_⟩ <;> rw [inst_start] at ha <;> split at ha
    · cases ha
      exact .start password ownFp peerFp rng
    · exact h.insts j a ha
    · cases ha
      exact hf
    · exact h.nulFree j a ha
  | deliver i msg =>
    refine ⟨fun j a ha => ?_, fun j a ha => ?_⟩ <;> rw [inst_deliver] at ha <;> split at ha
    · obtain ⟨a0, ha0, rfl⟩ := Option.map_eq_some_iff.1 ha
      exact (h.insts i a0 ha0).deliver msg
    · exact h.insts j a ha
    · obtain ⟨a0, ha0, rfl⟩ := Option.map_eq_some_iff.1 ha
      simpa using h.nulFree i a0 ha0
    · exact h.nulFree j a ha

/-- Runs whose handshakes start with fingerprints without separators. -/
abbrev NulFreeReachable (net : Network prim) : Prop := ((handshakes prim).restrict nulFreeStart).Reachable net

theorem sound_of_reachable {net : Network prim} (h : net.NulFreeReachable) : net.Sound ∧ net.Ideal := by
  refine System.Reachable.invariant (M := (handshakes prim).restrict nulFreeStart)
    (P := fun net => net.Sound ∧ net.Ideal) (fun net0 h0 => ?_)
    (fun net0 e _ hs he => ⟨hs.1.step he.2, he.1.2⟩) h
  cases h0
  exact ⟨⟨nofun, nofun⟩, nofun, nofun⟩

/-- The partner of a confirmed key is found among the instances before or after
a delivery: a delivery keeps passwords, fingerprints and derived keys. -/
theorem Sound.kept {net : Network prim} (h : net.Sound) (i : InstanceId) (msg : SessionMessage) {j : InstanceId}
    {b : Instance prim} (hb : net.inst j = some b) :
    ∃ b', (net.step (.deliver i msg)).inst j = some b' ∧ b'.password = b.password ∧
      (∀ key, b.derived = some key → b'.derived = some key) ∧ b'.hs.ownFp = b.hs.ownFp ∧
      b'.hs.peerFp = b.hs.peerFp := by
  rw [inst_deliver]
  by_cases hji : j = i
  · subst hji
    rw [if_pos rfl, hb]
    exact ⟨_, rfl, rfl, fun key hk => (h.insts j b hb).derived_deliver hk msg, by simp, by simp⟩
  · rw [if_neg hji]
    exact ⟨b, hb, rfl, fun _ hk => hk, rfl, rfl⟩

/-- Two instances with one tag have one key and one password, and the same
fingerprints up to order. -/
theorem Ideal.same_tag {net : Network prim} (hi : net.Ideal) {i j : InstanceId} {a b : Instance prim}
    {keyA keyB : Bytes32} (ha : net.inst i = some a) (hb : net.inst j = some b) (hka : a.derived = some keyA)
    (hkb : b.derived = some keyB) (hn : NulFree a.hs.ownFp ∧ NulFree a.hs.peerFp)
    (tag : sessionBinding prim keyB b.hs.ownFp b.hs.peerFp = sessionBinding prim keyA a.hs.ownFp a.hs.peerFp) :
    keyB = keyA ∧ b.password = a.password ∧
      ((a.hs.ownFp = b.hs.ownFp ∧ a.hs.peerFp = b.hs.peerFp) ∨
        (a.hs.ownFp = b.hs.peerFp ∧ a.hs.peerFp = b.hs.ownFp)) := by
  obtain ⟨hkey, htext⟩ := hi.macs i j a b keyA keyB ha hb hka hkb tag.symm
  subst hkey
  exact ⟨rfl, (hi.keys i j a b keyA ha hb hka hkb).symm, bindingText_inj hn.1 hn.2 htext⟩

theorem authenticated_start {net : Network prim} {i : InstanceId} (free : net.inst i = none) (password : Bytes)
    (ownFp peerFp : String) (rng : prim.Rng) (hp : net.Authenticated) :
    (net.step (.start i password ownFp peerFp rng)).Authenticated := by
  intro k a key ha hc
  rw [inst_start] at ha
  split at ha
  · cases ha
    cases hc
  · obtain ⟨j, b, hjk, hb, rest⟩ := hp k a key ha hc
    refine ⟨j, b, hjk, ?_, rest⟩
    rw [inst_start, if_neg, hb]
    rintro rfl
    cases free.symm.trans hb

/-- One delivery leaves everyone authenticated exactly if it reflects no tag. -/
theorem authenticated_deliver {net : Network prim} (hs : net.Sound) (hi : net.Ideal) (i : InstanceId)
    (msg : SessionMessage) (hp : net.Authenticated) :
    (net.step (.deliver i msg)).Authenticated ↔ notReflected net (.deliver i msg) := by
  have others {j : InstanceId} (h : j ≠ i) : (net.step (.deliver i msg)).inst j = net.inst j := by
    rw [inst_deliver, if_neg h]
  constructor
  · intro hp' a key mine ha hstate hm
    have self : (net.step (.deliver i msg)).inst i = some (a.deliver msg) := by
      rw [inst_deliver, if_pos rfl, ha]
      rfl
    have confirmed : (a.deliver msg).hs.state = .confirmed key := by
      rcases a.deliver_cases msg with ⟨p, inbound, key', hst, -⟩ | ⟨key', mine', hst, -, h, -⟩ | ⟨-, -, hno⟩
      · cases hst.symm.trans hstate
      · cases hst.symm.trans hstate
        exact h
      · exact absurd hm (hno key mine hstate)
    obtain ⟨j, b, hji, hb, -, hd, hown, hpeer⟩ := hp' i _ key self confirmed
    rw [Instance.deliver_peerFp] at hown
    rw [Instance.deliver_ownFp] at hpeer
    refine ⟨j, b, key, hji, (others hji) ▸ hb, hd, ?_, fun h => hown.symm.trans h⟩
    rw [hown, hpeer, sessionBinding_comm, ((hs.insts i a ha).binding key mine hstate).2]
  · intro hn k a' key ha' hc
    by_cases hki : k = i
    · subst hki
      rw [inst_deliver, if_pos rfl] at ha'
      obtain ⟨a, ha, rfl⟩ := Option.map_eq_some_iff.1 ha'
      rcases a.deliver_cases msg with ⟨p, inbound, key', -, -, h, -⟩ | ⟨key', mine, hst, hm, h, -⟩ | ⟨h, -, -⟩
      · cases h.symm.trans hc
      · cases h.symm.trans hc
        obtain ⟨hd, hmine⟩ := (hs.insts k a ha).binding key mine hst
        obtain ⟨j, b, keyB, hjk, hb, hdb, htag, hown⟩ := hn a key mine ha hst hm
        obtain ⟨rfl, hpw, hfp⟩ := hi.same_tag ha hb hd hdb (hs.nulFree k a ha) (htag.trans hmine)
        refine ⟨j, b, hjk, (others hjk).trans hb, hpw, hdb, ?_⟩
        rw [Instance.deliver_ownFp, Instance.deliver_peerFp]
        rcases hfp with ⟨ho, hpr⟩ | ⟨ho, hpr⟩
        · exact ⟨ho.symm.trans (hown ho.symm).symm, hpr.symm.trans (hown ho.symm)⟩
        · exact ⟨hpr.symm, ho.symm⟩
      · cases h.symm.trans hc
    · rw [others hki] at ha'
      obtain ⟨j, b, hjk, hb, hpw, hd, hown, hpeer⟩ := hp k a' key ha' hc
      obtain ⟨b', hb', hpw', hd', hown', hpeer'⟩ := hs.kept i msg hb
      exact ⟨j, b', hjk, hb', hpw'.trans hpw, hd' key hd, hown'.trans hown, hpeer'.trans hpeer⟩

/-- In a run whose fingerprints contain no separator, everyone who confirms is
authenticated throughout exactly if no delivery reflects a tag. -/
theorem authenticated_iff (prim : Primitives) {es : List (Event prim)} (hv : (handshakes prim).Valid {} es)
    (hf : (handshakes prim).AllSteps nulFreeStart {} es) :
    (handshakes prim).AllStates Authenticated {} es ↔ (handshakes prim).AllSteps notReflected {} es := by
  have step : ∀ (net : Network prim) (e : Event prim), NulFreeReachable net → net.admits e ∧ nulFreeStart net e →
      net.Authenticated → ((net.step e).Authenticated ↔ notReflected net e) := by
    intro net e hr he hp
    obtain ⟨hs, hi⟩ := sound_of_reachable hr
    cases e with
    | start i password ownFp peerFp rng =>
      exact ⟨fun _ => trivial, fun _ => authenticated_start he.1.1 password ownFp peerFp rng hp⟩
    | deliver i msg => exact authenticated_deliver hs hi i msg hp
  have run := System.allStates_iff_allSteps (M := (handshakes prim).restrict nulFreeStart) step (.init rfl)
    (show Authenticated {} from nofun) (System.valid_restrict.2 ⟨hv, hf⟩)
  rwa [System.allStates_restrict, System.allSteps_restrict] at run

/-! ## A reflected tag -/

/-- Instances that all derive one key from one password over one text are no
coincidence. -/
theorem Ideal.of_common {net : Network prim} (n : Nat) (password text : Bytes) (key : Bytes32)
    (none_beyond : ∀ j, net.inst (j + n) = none)
    (common : ∀ j < n, ∀ a ∈ net.inst j, a.password = password ∧ a.text = text ∧ ∀ k ∈ a.derived, k = key) :
    net.Ideal := by
  have all {j : InstanceId} {a : Instance prim} (h : net.inst j = some a) :
      a.password = password ∧ a.text = text ∧ ∀ k ∈ a.derived, k = key := by
    rcases Nat.lt_or_ge j n with hj | hj
    · exact common j hj a h
    · obtain ⟨m, rfl⟩ := Nat.exists_eq_add_of_le' hj
      cases (none_beyond m).symm.trans h
  constructor
  · intro i j a b k ha hb _ _
    exact (all ha).1.trans (all hb).1.symm
  · intro i j a b keyA keyB ha hb hka hkb _
    exact ⟨((all ha).2.2 keyA hka).trans ((all hb).2.2 keyB hkb).symm, (all ha).2.1.trans (all hb).2.1.symm⟩

/-- The key of the draws 1 and `peer` under the password `pw`. -/
def sampleKey (peer : UInt8) : Bytes32 :=
  Vector.ofFn fun i => (utf8 "pw" ++ [1, peer] ++ utf8 "zortilwatch session key v1").getD i 0

/-- Two handshakes of the sample exchange their messages; each is then handed the
other's tag. -/
theorem exchange_authenticates :
    let tag := sessionBinding samplePrimitives (sampleKey 2) "AA:AA" "BB:BB"
    (handshakes samplePrimitives).AllStates Authenticated {}
      [.start 0 (utf8 "pw") "AA:AA" "BB:BB" (1 : UInt8), .start 1 (utf8 "pw") "BB:BB" "AA:AA" (2 : UInt8),
        .deliver 0 (.pake [2]), .deliver 1 (.pake [1]), .deliver 0 (.binding tag), .deliver 1 (.binding tag)] := by
  intro tag
  let es : List (Event samplePrimitives) :=
    [.start 0 (utf8 "pw") "AA:AA" "BB:BB" (1 : UInt8), .start 1 (utf8 "pw") "BB:BB" "AA:AA" (2 : UInt8),
      .deliver 0 (.pake [2]), .deliver 1 (.pake [1]), .deliver 0 (.binding tag), .deliver 1 (.binding tag)]
  have ideal (net : Network samplePrimitives) (h2 : ∀ j, net.inst (j + 2) = none)
      (h : ∀ j < 2, ∀ a ∈ net.inst j, a.password = utf8 "pw" ∧ a.text = bindingText "AA:AA" "BB:BB" ∧
        ∀ k ∈ a.derived, k = sampleKey 2) : net.Ideal :=
    .of_common 2 _ _ _ h2 h
  have hv : (handshakes samplePrimitives).Valid {} es :=
    ⟨⟨rfl, ideal _ (fun _ => rfl) (by decide +kernel)⟩, ⟨rfl, ideal _ (fun _ => rfl) (by decide +kernel)⟩,
      ⟨rfl, ideal _ (fun _ => rfl) (by decide +kernel)⟩, ⟨rfl, ideal _ (fun _ => rfl) (by decide +kernel)⟩,
      ⟨rfl, ideal _ (fun _ => rfl) (by decide +kernel)⟩, ⟨rfl, ideal _ (fun _ => rfl) (by decide +kernel)⟩, trivial⟩
  have free : NulFree "AA:AA" ∧ NulFree "BB:BB" := by decide
  have hf : (handshakes samplePrimitives).AllSteps nulFreeStart {} es :=
    ⟨free, free.symm, trivial, trivial, trivial, trivial, trivial⟩
  -- the tag handed to `i` is the tag of the other one
  have sentBy (net : Network samplePrimitives) (i j : InstanceId) (own peer : String) (hij : j ≠ i)
      (hb : (net.inst j).map (fun b => (b.derived, b.hs.ownFp, b.hs.peerFp)) = some (some (sampleKey 2), own, peer))
      (ha : (net.inst i).map (·.hs.ownFp) = some peer) (hne : own ≠ peer)
      (htag : sessionBinding samplePrimitives (sampleKey 2) own peer = tag) :
      notReflected net (.deliver i (.binding tag)) := by
    intro a key mine hget _ hm
    obtain ⟨b, hbget, hbval⟩ := Option.map_eq_some_iff.1 hb
    simp only [Prod.mk.injEq] at hbval
    obtain ⟨hd, ho, hp⟩ := hbval
    rw [hget] at ha
    cases hm
    exact ⟨j, b, _, hij, hbget, hd, by rw [ho, hp, htag], fun h => absurd (ho ▸ (h.trans (by injection ha))) hne⟩
  refine (authenticated_iff samplePrimitives hv hf).2 ⟨trivial, trivial, nofun, nofun, ?_, ?_, trivial⟩
  · exact sentBy _ 0 1 "BB:BB" "AA:AA" (by decide) (by decide +kernel) (by decide +kernel) (by decide)
      (by decide +kernel)
  · exact sentBy _ 1 0 "AA:AA" "BB:BB" (by decide) (by decide +kernel) (by decide +kernel) (by decide) rfl

/-- A handshake that is handed its own messages confirms, alone. -/
theorem reflection_confirms :
    ¬ ∀ net, (handshakes samplePrimitives).Reachable net → net.Authenticated := by
  intro all
  let tag := sessionBinding samplePrimitives (sampleKey 1) "AA:AA" "BB:BB"
  let es : List (Event samplePrimitives) :=
    [.start 0 (utf8 "pw") "AA:AA" "BB:BB" (1 : UInt8), .deliver 0 (.pake [1]), .deliver 0 (.binding tag)]
  have ideal (net : Network samplePrimitives) (h1 : ∀ j, net.inst (j + 1) = none)
      (h : ∀ j < 1, ∀ a ∈ net.inst j, a.password = utf8 "pw" ∧ a.text = bindingText "AA:AA" "BB:BB" ∧
        ∀ k ∈ a.derived, k = sampleKey 1) : net.Ideal :=
    .of_common 1 _ _ _ h1 h
  have hv : (handshakes samplePrimitives).Valid {} es :=
    ⟨⟨rfl, ideal _ (fun _ => rfl) (by decide +kernel)⟩, ⟨rfl, ideal _ (fun _ => rfl) (by decide +kernel)⟩,
      ⟨rfl, ideal _ (fun _ => rfl) (by decide +kernel)⟩, trivial⟩
  have confirmed : (((handshakes samplePrimitives).after {} es).inst 0).bind (·.hs.confirmedKey) =
      some (sampleKey 1) := by decide +kernel
  obtain ⟨a, ha, hk⟩ := Option.bind_eq_some_iff.1 confirmed
  have partner := all _ ((System.Reachable.init rfl : (handshakes samplePrimitives).Reachable {}).after hv) 0 a _ ha
    (Handshake.confirmedKey_eq_some.1 hk)
  obtain ⟨j, b, hj, hb, -⟩ := partner
  obtain ⟨m, rfl⟩ := Nat.exists_eq_succ_of_ne_zero hj
  cases hb

end Network

end ZortilWatch.Core
