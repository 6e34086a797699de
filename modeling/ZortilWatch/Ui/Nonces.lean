import ZortilWatch.Core.Sealing
import ZortilWatch.Ui.WebConnect

/-!
# No nonce twice

All peers of all sessions, native and web, with the log of every encryption. The
native ones get one sealer each; a web client starts a handshake whenever its
channel opens and makes a sealer when one is confirmed. If the session keys are
fresh and HKDF keeps the directions apart, no key and nonce are ever used twice
(`nonces_used_once`).
-/

namespace ZortilWatch.Ui

open ZortilWatch.Core NumberedLog

/-! ## The sealer of a web client -/

section Web

variable {prim : Primitives} (parse : Bytes → Option SessionMessage)

/-- `startPake` gets past its guard. -/
def Connect.startsPake (s : Connect prim) : Event prim → Bool
  | .channelOpen .. => s.pc && s.channel
  | _ => false

/-- The sealer `onChannelMessage` makes, with its session key. -/
def Connect.inputSealer (s : Connect prim) : Event prim → Option (Bytes32 × StreamSealer)
  | .channelMessage data sendFails =>
    match s.confirming parse data sendFails with
    | none => none
    | some key =>
      match StreamOpener.new prim key STREAM_LABEL_MEDIA_H2C with
      | none => none
      | some _ => (StreamSealer.new prim key STREAM_LABEL_INPUT_C2H).map (key, ·)
  | _ => none

/-- A `connect()` with the sealer its handle sends through. -/
structure WebClient (prim : Primitives) where
  attempt : Attempt prim := ({}, [])
  sealer : Option StreamSealer := none
  /-- Handshakes started so far; `hs` is the last of them. -/
  handshakes : Nat := 0

inductive WebEvent (prim : Primitives) where
  | callback (e : Event prim)
  /-- `handle.sendInput`, with the event in JSON and whether the channel is open. -/
  | sendInput (plain : Bytes) (isOpen : Bool)

namespace WebClient

def step (opts : ConnectOpts) (w : WebClient prim) : WebEvent prim → WebClient prim × Sealing
  | .callback e =>
    let w' := { w with
      attempt := (webConnect prim parse opts).step w.attempt e
      handshakes := if w.attempt.1.startsPake e then w.handshakes + 1 else w.handshakes }
    match w.attempt.1.inputSealer parse e with
    | none => (w', {})
    | some (key, sealer) => ({ w' with sealer := some sealer },
        { made := some { handshake := w.handshakes, direction := .input, sessionKey := key } })
  | .sendInput plain isOpen =>
    match w.sealer with
    | none => (w, {})
    | some sealer =>
      if w.attempt.1.channel && isOpen then
        ({ w with sealer := some (sealer.seal prim plain).1 }, { calls := [sealer.call] })
      else (w, {})

/-- The handle is what the promise resolves to. -/
def admits (w : WebClient prim) : WebEvent prim → Prop
  | .callback e => Ui.admits w.attempt e
  | .sendInput .. => .resolved ∈ w.attempt.2

/-- The handshake may yet get a sealer: it has not begun, or it is the last and not
confirmed. -/
def Unspent (w : WebClient prim) (n : Nat) : Prop :=
  w.handshakes < n ∨ n = w.handshakes ∧ w.attempt.1.phase ≠ .media

end WebClient

end Web

/-! ## The phase of a web client -/

namespace Connect

variable {prim : Primitives} {s : Connect prim} {parse : Bytes → Option SessionMessage}

theorem phase_closeWs : s.closeWs.phase = s.phase := by
  unfold closeWs
  split <;> rfl

@[simp] theorem phase_fail (s : Connect prim) (msg : String) : (s.fail msg).1.phase = s.phase := phase_closeWs

theorem phase_onMedia (s : Connect prim) (bytes : Bytes) : (s.onMedia bytes).1.phase = s.phase := by
  unfold onMedia
  split
  · exact phase_fail s _
  · rfl

theorem phase_onMediaAll (ms : List Bytes) (s : Connect prim) : (s.onMediaAll ms).1.phase = s.phase := by
  induction ms generalizing s with
  | nil => rfl
  | cons m ms ih => exact (ih (s.onMedia m).1).trans (phase_onMedia s m)

/-- A confirmation makes a sealer exactly if it begins the media phase. -/
theorem phase_onConfirmed (s : Connect prim) (key : Bytes32) : (s.onConfirmed key).1.phase =
    if ciphers prim key then .media else s.phase := by
  unfold onConfirmed ciphers
  cases StreamOpener.new prim key STREAM_LABEL_MEDIA_H2C with
  | none => exact phase_fail s _
  | some opener =>
    cases StreamSealer.new prim key STREAM_LABEL_INPUT_C2H with
    | none => exact phase_fail _ _
    | some sealer => exact phase_closeWs.trans (phase_onMediaAll _ _)

theorem inputSealer_message (s : Connect prim) (bytes : Bytes) (sendFails : Bool) :
    (s.inputSealer parse (.channelMessage bytes sendFails)).isSome =
      ((s.confirming parse bytes sendFails).any fun key => ciphers prim key) := by
  simp only [inputSealer, ciphers]
  cases s.confirming parse bytes sendFails with
  | none => rfl
  | some key =>
    dsimp only [Option.any_some]
    cases StreamOpener.new prim key STREAM_LABEL_MEDIA_H2C with
    | none => rfl
    | some opener => exact Option.isSome_map

theorem phase_onChannelMessage (s : Connect prim) (bytes : Bytes) (sendFails : Bool) :
    (s.onChannelMessage parse bytes sendFails).1.phase =
      if (s.inputSealer parse (.channelMessage bytes sendFails)).isSome then .media else s.phase := by
  rw [inputSealer_message]
  by_cases media : s.phase = .media
  · have none_confirmed : s.confirming parse bytes sendFails = none := by simp only [confirming, media]
    simp only [onChannelMessage, if_pos media, none_confirmed]
    exact phase_onMedia s bytes
  cases hhs : s.hs with
  | none =>
    have none_confirmed : s.confirming parse bytes sendFails = none := by
      unfold confirming
      cases s.phase <;> simp [hhs]
    simp only [onChannelMessage, if_neg media, hhs, none_confirmed]
    rfl
  | some hs =>
    cases parsed : parse bytes with
    | none =>
      have none_confirmed : s.confirming parse bytes sendFails = none := by
        unfold confirming
        cases s.phase <;> simp [hhs, parsed]
      simp only [onChannelMessage, if_neg media, hhs, parsed, none_confirmed]
      rfl
    | some msg =>
      rw [confirming_eq media hhs parsed sendFails]
      simp only [onChannelMessage, if_neg media, hhs, parsed]
      split
      · rfl
      · cases (hs.onMessage msg).1.confirmedKey with
        | none => rfl
        | some key => exact phase_onConfirmed _ key

/-- A handshake starts the pake phase, a new sealer the media phase; nothing else
changes the phase. -/
theorem phase_handle (parse : Bytes → Option SessionMessage) (opts : ConnectOpts) (s : Connect prim)
    (e : Event prim) : (s.handle parse opts e).1.phase =
    if s.startsPake e then .pake else if (s.inputSealer parse e).isSome then .media else s.phase := by
  cases e with
  | channelMessage data sendFails => exact phase_onChannelMessage s data sendFails
  | channelOpen ownFp peerFp seed =>
    simp only [handle, startPake, startsPake, inputSealer]
    split
    · rename_i shut
      have stopped : (s.pc && s.channel) = false := by rcases shut with h | h <;> simp [h]
      simp [stopped]
    · rename_i ready
      rw [not_or, Bool.not_eq_false, Bool.not_eq_false] at ready
      simp [ready]
  | wsClose =>
    simp only [handle, startsPake, inputSealer]
    cases s.settled
    · exact phase_fail _ _
    · rfl
  | wsMessage m =>
    cases m with
    | endSession sessionId =>
      simp only [handle, onWsMessage]
      split
      · rfl
      · exact phase_fail s _
    | sessionClose =>
      simp only [handle, onWsMessage]
      split
      · rfl
      · exact phase_fail s _
    | registerErr reason code => exact phase_fail s _
    | connectErr code => exact phase_fail s _
    | _ => rfl
  | wsError => exact phase_fail s _
  | connectionState failed =>
    cases failed
    · rfl
    · exact phase_fail s _
  | channelClose =>
    simp only [handle, startsPake, inputSealer]
    cases s.settled
    · exact phase_fail _ _
    · rfl
  | timeout => exact phase_fail _ _
  | disconnect => exact phase_closeWs
  | _ => rfl

/-- A sealer is made in the pake phase, for the input of the session. -/
theorem inputSealer_eq_some {e : Event prim} {key : Bytes32} {sealer : StreamSealer}
    (made : s.inputSealer parse e = some (key, sealer)) :
    s.phase ≠ .media ∧ s.startsPake e = false ∧ StreamSealer.new prim key STREAM_LABEL_INPUT_C2H = some sealer := by
  cases e with
  | channelMessage data sendFails =>
    simp only [inputSealer] at made
    split at made
    · cases made
    · rename_i key' confirmed
      split at made
      · cases made
      · obtain ⟨sealer', new, same⟩ := Option.map_eq_some_iff.1 made
        cases same
        refine ⟨fun media => ?_, rfl, new⟩
        simp only [confirming, media] at confirmed
        cases confirmed
  | _ => cases made

end Connect

namespace WebClient

variable {prim : Primitives} {parse : Bytes → Option SessionMessage} {opts : ConnectOpts}

/-- Each handshake of a web client gets one sealer at most, and `sendInput` seals
through the last one made. -/
theorem sealsOnce (w : WebClient prim) (e : WebEvent prim) :
    SealsOnce prim w.sealer (w.step parse opts e).1.sealer w.Unspent (w.step parse opts e).1.Unspent
      (w.step parse opts e).2 := by
  cases e with
  | callback e =>
    have phase := w.attempt.1.phase_handle parse opts e
    simp only [step]
    split
    · rename_i none_made
      simp only [none_made, Option.isSome_none, Bool.false_eq_true, if_false] at phase
      refine .idle (.inr rfl) fun n later => ?_
      unfold Unspent at later ⊢
      cases started : w.attempt.1.startsPake e with
      | true =>
        simp only [started, if_true] at later
        exact .inl (by omega)
      | false =>
        simp only [started, Bool.false_eq_true, if_false] at later phase
        refine later.imp_right fun last => ⟨last.1, ?_⟩
        rw [← phase]
        exact last.2
    · rename_i key sealer made
      obtain ⟨early, calm, new⟩ := Connect.inputSealer_eq_some made
      simp only [made, calm, Option.isSome_some, Bool.false_eq_true, if_false, if_true] at phase ⊢
      refine ⟨.made ⟨w.handshakes, .input, key⟩ sealer [] new (.inr rfl), ?_, fun n later => ?_⟩
      · rintro m ⟨⟩
        refine ⟨.inr ⟨rfl, early⟩, ?_⟩
        rintro (later | ⟨-, pending⟩)
        · exact absurd later (Nat.lt_irrefl _)
        · exact pending phase
      · rcases later with later | ⟨-, pending⟩
        · exact .inl later
        · exact absurd phase pending
  | sendInput plain isOpen =>
    simp only [step]
    cases held : w.sealer with
    | none => exact .idle (.inr held) fun _ h => h
    | some sealer =>
      dsimp only
      split
      · exact ⟨.held sealer [plain] rfl (.inr rfl), nofun, fun _ h => h⟩
      · exact .idle (.inr held) fun _ h => h

end WebClient

/-! ## All sessions -/

/-- A peer of either kind. -/
inductive Station (prim : Primitives) where
  | native (p : Peer prim)
  | web (opts : ConnectOpts) (w : WebClient prim)

inductive StationEvent (prim : Primitives) where
  | native (e : PeerEvent prim)
  | web (e : WebEvent prim)

namespace Station

variable {prim : Primitives}

def step (parse : Bytes → Option SessionMessage) : Station prim → StationEvent prim → Station prim × Sealing
  | .native p, .native e =>
    let r := p.step prim parse e
    (.native r.1, r.2)
  | .web opts w, .web e =>
    let r := w.step parse opts e
    (.web opts r.1, r.2)
  | s, _ => (s, {})

def admits : Station prim → StationEvent prim → Prop
  | .native p, .native e => p.admits e
  | .web _ w, .web e => w.admits e
  | _, _ => False

/-- Nothing has happened to it yet. -/
def Fresh : Station prim → Prop
  | .native p => p.state = .driving {}
  | .web _ w => w = {}

def sealer : Station prim → Option StreamSealer
  | .native p => p.sealer
  | .web _ w => w.sealer

def Unspent : Station prim → Nat → Prop
  | .native p => p.Unspent
  | .web _ w => w.Unspent

theorem sealer_of_fresh {s : Station prim} (fresh : s.Fresh) : s.sealer = none := by
  cases s with
  | native p =>
    have start : p.state = .driving {} := fresh
    simp only [sealer, Peer.sealer, start]
  | web opts w =>
    have start : w = {} := fresh
    rw [start]
    rfl

theorem sealsOnce (parse : Bytes → Option SessionMessage) (s : Station prim) (e : StationEvent prim) :
    SealsOnce prim s.sealer (s.step parse e).1.sealer s.Unspent (s.step parse e).1.Unspent (s.step parse e).2 := by
  cases s with
  | native p =>
    cases e with
    | native e => exact p.sealsOnce e
    | web e => exact .idle (.inr rfl) fun _ h => h
  | web opts w =>
    cases e with
    | native e => exact .idle (.inr rfl) fun _ h => h
    | web e => exact w.sealsOnce e

end Station

/-- All peers, the sealers made and the encryptions done, oldest first. -/
structure Sessions (prim : Primitives) where
  stations : Nat → Option (Station prim) := fun _ => none
  /-- The sealers, each with its peer. -/
  made : List (Nat × SealerMade) := []
  calls : List SealCall := []

inductive SessionsEvent (prim : Primitives) where
  | start (i : Nat) (s : Station prim)
  | act (i : Nat) (e : StationEvent prim)

namespace Sessions

variable {prim : Primitives}

def step (parse : Bytes → Option SessionMessage) (net : Sessions prim) : SessionsEvent prim → Sessions prim
  | .start i s => { net with stations := Function.update net.stations i (some s) }
  | .act i e =>
    match net.stations i with
    | none => net
    | some s =>
      let r := s.step parse e
      { stations := Function.update net.stations i (some r.1)
        made := net.made ++ r.2.made.toList.map (i, ·)
        calls := net.calls ++ r.2.calls }

def admits (net : Sessions prim) : SessionsEvent prim → Prop
  | .start i s => net.stations i = none ∧ s.Fresh
  | .act i e => ∃ s, net.stations i = some s ∧ s.admits e

end Sessions

def sessions (prim : Primitives) (parse : Bytes → Option SessionMessage) :
    System (Sessions prim) (SessionsEvent prim) where
  init net := net = {}
  enabled := Sessions.admits
  step := Sessions.step parse

/-! ## What is taken for granted -/

/-- The key a sealer encrypts under. -/
def streamKey (prim : Primitives) (m : SealerMade) : Option Bytes32 :=
  deriveStreamKey prim m.sessionKey m.direction.label

/-- The two ends of a handshake share its session key and no other handshake has
it; HKDF gives no two session keys or labels in use the same key. -/
structure Ideal {prim : Primitives} (net : Sessions prim) : Prop where
  fresh : ∀ a ∈ net.made, ∀ b ∈ net.made, a.2.direction = b.2.direction → a.2.sessionKey = b.2.sessionKey →
    a.1 = b.1 ∧ a.2.handshake = b.2.handshake
  hkdf : ∀ a ∈ net.made, ∀ b ∈ net.made, ∀ key, streamKey prim a.2 = some key → streamKey prim b.2 = some key →
    a.2.sessionKey = b.2.sessionKey ∧ a.2.direction.label = b.2.direction.label

theorem label_injective {d d' : Direction} (h : d.label = d'.label) : d = d' := by
  have differ : STREAM_LABEL_MEDIA_H2C ≠ STREAM_LABEL_INPUT_C2H := by decide +kernel
  cases d <;> cases d'
  · rfl
  · exact absurd h differ
  · exact absurd h.symm differ
  · rfl

section Runs

variable {prim : Primitives} {net net' : Sessions prim}

theorem Ideal.mono (h : Ideal net') (fewer : net.made ⊆ net'.made) : Ideal net where
  fresh a ha b hb := h.fresh a (fewer ha) b (fewer hb)
  hkdf a ha b hb := h.hkdf a (fewer ha) b (fewer hb)

/-- Sealers of one key are made for one handshake. -/
theorem Ideal.same_handshake (h : Ideal net) {a b : Nat × SealerMade} (ha : a ∈ net.made) (hb : b ∈ net.made)
    {key : Bytes32} (ka : streamKey prim a.2 = some key) (kb : streamKey prim b.2 = some key) :
    a.1 = b.1 ∧ a.2.handshake = b.2.handshake := by
  obtain ⟨session, label⟩ := h.hkdf a ha b hb key ka kb
  exact h.fresh a ha b hb (label_injective label) session

/-! ## Every call is accounted for -/

/-- The calls under each key are numbered, a key in use belongs to a sealer made for
a handshake that gets no other, and a sealer still held counts the calls under its key. -/
structure Accounted (net : Sessions prim) : Prop where
  numbered : Numbered numberNonce net.calls
  called : ∀ c ∈ net.calls, ∃ a ∈ net.made, streamKey prim a.2 = some c.1
  spent : ∀ a ∈ net.made, ∃ s, net.stations a.1 = some s ∧ ¬ s.Unspent a.2.handshake
  held : ∀ i s sealer, net.stations i = some s → s.sealer = some sealer →
    (∃ a ∈ net.made, a.1 = i ∧ streamKey prim a.2 = some sealer.key) ∧
      sealer.counter = UInt64.ofNat (under net.calls sealer.key).length

theorem Accounted.empty : Accounted ({} : Sessions prim) where
  numbered := .nil
  called _ mem := absurd mem List.not_mem_nil
  spent _ mem := absurd mem List.not_mem_nil
  held _ _ _ there := by cases there

theorem update_eq_some {α : Type*} {f : Nat → Option α} {i j : Nat} {s t : α} :
    Function.update f i (some s) j = some t ↔ j = i ∧ t = s ∨ j ≠ i ∧ f j = some t := by
  by_cases same : j = i
  · subst same
    simp [eq_comm]
  · simp [same]

theorem Accounted.start (h : Accounted net) {i : Nat} {s : Station prim} (free : net.stations i = none)
    (fresh : s.Fresh) : Accounted { net with stations := Function.update net.stations i (some s) } where
  numbered := h.numbered
  called := h.called
  spent a ha := by
    obtain ⟨s', there, spent⟩ := h.spent a ha
    have other : a.1 ≠ i := by
      rintro same
      rw [same, free] at there
      cases there
    exact ⟨s', update_eq_some.2 (.inr ⟨other, there⟩), spent⟩
  held j s' sealer there held := by
    rcases update_eq_some.1 there with ⟨-, rfl⟩ | ⟨-, there⟩
    · rw [Station.sealer_of_fresh fresh] at held
      cases held
    · exact h.held j s' sealer there held

/-- A peer that does without a new sealer has nothing more to spend. -/
theorem Accounted.spent_update (h : Accounted net) {i : Nat} {s s' : Station prim} (there : net.stations i = some s)
    (kept : ∀ n, s'.Unspent n → s.Unspent n) {a : Nat × SealerMade} (ha : a ∈ net.made) :
    ∃ t, Function.update net.stations i (some s') a.1 = some t ∧ ¬ t.Unspent a.2.handshake := by
  obtain ⟨t, at_a, spent⟩ := h.spent a ha
  by_cases same : a.1 = i
  · rw [same, there] at at_a
    cases at_a
    exact ⟨s', update_eq_some.2 (.inl ⟨same, rfl⟩), fun later => spent (kept _ later)⟩
  · exact ⟨t, update_eq_some.2 (.inr ⟨same, at_a⟩), spent⟩

/-- A peer that seals nothing. -/
theorem Accounted.idle (h : Accounted net) {i : Nat} {s s' : Station prim} (there : net.stations i = some s)
    (held : s'.sealer = none ∨ s'.sealer = s.sealer) (kept : ∀ n, s'.Unspent n → s.Unspent n) :
    Accounted { net with stations := Function.update net.stations i (some s') } where
  numbered := h.numbered
  called := h.called
  spent a ha := h.spent_update there kept ha
  held j t sealer at_j held_j := by
    rcases update_eq_some.1 at_j with ⟨rfl, rfl⟩ | ⟨-, at_j⟩
    · rcases held with gone | as_before
      · rw [gone] at held_j
        cases held_j
      · exact h.held j s sealer there (as_before ▸ held_j)
    · exact h.held j t sealer at_j held_j

/-- A peer that seals with its own sealer, be it an old one or one of `extra`. -/
theorem Accounted.seals (h : Accounted net) {i : Nat} {s s' : Station prim} (there : net.stations i = some s)
    {extra : List (Nat × SealerMade)} {σ : StreamSealer} {ps : List Bytes}
    (ideal : Ideal { net with made := net.made ++ extra })
    (owner : ∃ a ∈ net.made ++ extra, a.1 = i ∧ streamKey prim a.2 = some σ.key)
    (counts : σ.counter = UInt64.ofNat (under net.calls σ.key).length)
    (held : s'.sealer = none ∨ s'.sealer = some (sealerAfter prim σ ps))
    (kept : ∀ n, s'.Unspent n → s.Unspent n) (spends : ∀ a ∈ extra, a.1 = i ∧ ¬ s'.Unspent a.2.handshake) :
    Accounted
      { stations := Function.update net.stations i (some s')
        made := net.made ++ extra
        calls := net.calls ++ sealCalls prim σ ps } := by
  have numbers := @numbered_sealCalls prim σ ps net.calls h.numbered counts
  have more : net.made ⊆ net.made ++ extra := List.subset_append_left _ _
  refine ⟨numbers.1, ?_, ?_, ?_⟩
  · intro c mem
    rcases List.mem_append.1 mem with mem | mem
    · obtain ⟨a, ha, key⟩ := h.called c mem
      exact ⟨a, more ha, key⟩
    · obtain ⟨a, ha, -, key⟩ := owner
      exact ⟨a, ha, (key_of_mem_sealCalls mem).symm ▸ key⟩
  · intro a ha
    rcases List.mem_append.1 ha with ha | ha
    · exact h.spent_update there kept ha
    · exact ⟨s', update_eq_some.2 (.inl ⟨(spends a ha).1, rfl⟩), (spends a ha).2⟩
  · intro j t τ at_j held_j
    rcases update_eq_some.1 at_j with ⟨rfl, rfl⟩ | ⟨other, at_j⟩
    · rcases held with gone | after
      · rw [gone] at held_j
        cases held_j
      · rw [after] at held_j
        cases held_j
        rw [sealerAfter_key]
        exact ⟨owner, numbers.2⟩
    · obtain ⟨⟨a, ha, at_a, key⟩, count⟩ := h.held j t τ at_j held_j
      -- another peer's sealer has another key
      have others : ∀ c ∈ sealCalls prim σ ps, c.1 ≠ τ.key := by
        intro c mem shared
        obtain ⟨b, hb, at_b, key'⟩ := owner
        rw [← key_of_mem_sealCalls mem, shared] at key'
        exact other (at_a.symm.trans ((ideal.same_handshake (more ha) hb key key').1.trans at_b))
      refine ⟨⟨a, more ha, at_a, key⟩, ?_⟩
      rw [under_append_other others]
      exact count

theorem Accounted.step (h : Accounted net) {parse : Bytes → Option SessionMessage} {e : SessionsEvent prim}
    (he : net.admits e) (ideal : Ideal (net.step parse e)) : Accounted (net.step parse e) := by
  cases e with
  | start i s => exact h.start he.1 he.2
  | act i e =>
    obtain ⟨s, there, -⟩ := he
    have once := s.sealsOnce parse e
    simp only [Sessions.step, there] at ideal ⊢
    generalize s.step parse e = r at once ideal
    obtain ⟨s', r⟩ := r
    obtain ⟨sealing, spends, kept⟩ := once
    cases sealing with
    | idle kept' =>
      simp only [Option.toList_none, List.map_nil, List.append_nil]
      exact h.idle there kept' kept
    | held σ ps mine kept' =>
      obtain ⟨owner, counts⟩ := h.held i s σ there mine
      simp only [Option.toList_none, List.map_nil] at ideal ⊢
      refine h.seals there ⟨ideal.fresh, ideal.hkdf⟩ ?_ counts kept' kept nofun
      rw [List.append_nil]
      exact owner
    | made m σ ps new kept' =>
      obtain ⟨before, after⟩ := spends m rfl
      obtain ⟨key, derived, rfl⟩ := Option.map_eq_some_iff.1 new
      simp only [Option.toList_some, List.map_cons, List.map_nil] at ideal ⊢
      have last : (i, m) ∈ net.made ++ [(i, m)] := List.mem_append_right _ (List.mem_singleton_self _)
      -- a key in use would make this the second sealer of the handshake
      have unused : ∀ c ∈ net.calls, c.1 ≠ key := by
        intro c mem shared
        obtain ⟨a, ha, key'⟩ := h.called c mem
        obtain ⟨at_a, handshake⟩ := ideal.same_handshake (List.mem_append_left _ ha) last (shared ▸ key') derived
        obtain ⟨t, there', spent⟩ := h.spent a ha
        rw [at_a, there] at there'
        cases there'
        rw [handshake] at spent
        exact spent before
      refine h.seals there ⟨ideal.fresh, ideal.hkdf⟩ ⟨(i, m), last, rfl, derived⟩ ?_ kept' kept ?_
      · rw [under_eq_nil unused]
        rfl
      · intro a ha
        rw [List.mem_singleton.1 ha]
        exact ⟨rfl, after⟩

theorem made_step (net : Sessions prim) (parse : Bytes → Option SessionMessage) (e : SessionsEvent prim) :
    net.made ⊆ (net.step parse e).made := by
  cases e with
  | start i s => exact fun _ h => h
  | act i e =>
    simp only [Sessions.step]
    split
    · exact fun _ h => h
    · exact List.subset_append_left _ _

end Runs

/-- In every run of any number of sessions no key and nonce are used twice. Under
each stream key the `n`-th message carries nonce `n`, and a key is used by a sealer
of its direction only. -/
theorem nonces_used_once (prim : Primitives) (parse : Bytes → Option SessionMessage) {net : Sessions prim}
    (reach : (sessions prim parse).Reachable net) (ideal : Ideal net)
    (few : ∀ key, (under net.calls key).length < 2 ^ 64) :
    net.calls.Nodup ∧
      (∀ key, under net.calls key = (List.range (under net.calls key).length).map numberNonce) ∧
      ∀ c ∈ net.calls, ∃ a ∈ net.made, streamKey prim a.2 = some c.1 := by
  have accounted : Ideal net → Accounted net := by
    refine @System.Reachable.invariant _ _ _ (fun net => Ideal net → Accounted net) (fun net start _ => ?_)
      (fun net e _ before he ideal => ?_) net reach
    · obtain rfl : net = {} := start
      exact .empty
    · exact (before (ideal.mono (made_step net parse e))).step he ideal
  obtain ⟨numbered, called, -, -⟩ := accounted ideal
  refine ⟨numbered.nodup fun key m n hm hn same => ?_, numbered, called⟩
  have bound := few key
  exact numberNonce_inj (by omega) (by omega) same

/-! ## Two peers of one session -/

/-- Primitives to run an example with, whose keys depend on the label. -/
def labelledPrimitives : Primitives :=
  { samplePrimitives with hkdf := fun ikm label => some (Vector.ofFn fun i => ikm.getD i 0 + label.getD i 0) }

/-- The session key of the password 7 and the draws 1 and 2. -/
def labelledKey : Bytes32 :=
  Vector.ofFn fun i => ([7, 1, 2] : Bytes).getD i 0 + (utf8 "zortilwatch session key v1").getD i 0

def labelledBinding : SessionMessage := .binding (sessionBinding labelledPrimitives labelledKey "c" "h")

/-- The parser on the messages of the sample session. -/
def labelledParse (raw : Bytes) : Option SessionMessage :=
  [.pake [1], .pake [2], labelledBinding].find? fun m => m.toJson == raw

/-- The handshake of peer `i`, with its draw and its partner's. -/
def handshakePasses (i : Nat) (draw partner : UInt8) : List (SessionsEvent labelledPrimitives) :=
  let passes : List (Pass labelledPrimitives) :=
    [{ rng := draw, packet := [.channelOpen 0, .channelData (SessionMessage.pake [partner]).toJson] },
      { rng := draw, packet := [.channelData labelledBinding.toJson] }, { rng := draw }]
  passes.map fun x => .act i (.native (.pass x))

/-- A controller and a host confirm each other's key, and both send two messages. -/
def sampleRun : List (SessionsEvent labelledPrimitives) :=
  [.start 0 (.native { side := .controller, password := [7], ownFp := "c", peerFp := "h" }),
    .start 1 (.native { side := .managed, password := [7], ownFp := "h", peerFp := "c" })] ++
  handshakePasses 0 1 2 ++ handshakePasses 1 2 1 ++
  [.act 1 (.native (.launch { monitors := some (.control [1]) })), .act 0 (.native (.launch {})),
    .act 0 (.native (.turn .controller ({} : ControllerTurn) [] [OutMsg.raw [5], OutMsg.raw [6]])),
    .act 1 (.native (.turn .managed ({} : ManagedTurn Bytes) [] ({ frame := some (.video [9]) } : ManagedWork)))]

def sampleNet : Sessions labelledPrimitives := (sessions labelledPrimitives labelledParse).after {} sampleRun

set_option maxRecDepth 8000 in
theorem sampleRun_valid : (sessions labelledPrimitives labelledParse).Valid {} sampleRun :=
  ⟨⟨rfl, rfl⟩, ⟨rfl, rfl⟩, ⟨_, rfl, trivial⟩, ⟨_, rfl, trivial⟩, ⟨_, rfl, trivial⟩, ⟨_, rfl, trivial⟩,
    ⟨_, rfl, trivial⟩, ⟨_, rfl, trivial⟩, ⟨_, rfl, trivial⟩, ⟨_, rfl, trivial⟩, ⟨_, rfl, rfl⟩, ⟨_, rfl, rfl⟩, trivial⟩

theorem sampleNet_made : sampleNet.made = [(1, ⟨0, .media, labelledKey⟩), (0, ⟨0, .input, labelledKey⟩)] := by
  decide +kernel

theorem sampleNet_ideal : Ideal sampleNet where
  fresh := by
    rw [sampleNet_made]
    decide +kernel
  hkdf := by
    have apart : ∀ a ∈ sampleNet.made, ∀ b ∈ sampleNet.made,
        streamKey labelledPrimitives a.2 = streamKey labelledPrimitives b.2 →
          a.2.sessionKey = b.2.sessionKey ∧ a.2.direction.label = b.2.direction.label := by
      rw [sampleNet_made]
      decide +kernel
    exact fun a ha b hb key ka kb => apart a ha b hb (ka.trans kb.symm)

/-- The four messages of the two peers are numbered, each peer its own. -/
theorem nonces_used_once_sample : sampleNet.calls.length = 4 ∧ sampleNet.calls.Nodup ∧
    ∀ key, under sampleNet.calls key = (List.range (under sampleNet.calls key).length).map numberNonce := by
  have four : sampleNet.calls.length = 4 := by decide +kernel
  have few (key) : (under sampleNet.calls key).length < 2 ^ 64 := by
    have le := length_under_le sampleNet.calls key
    omega
  have reached : (sessions labelledPrimitives labelledParse).Reachable sampleNet := .after (.init rfl) sampleRun_valid
  obtain ⟨differ, numbered, -⟩ := nonces_used_once labelledPrimitives labelledParse reached sampleNet_ideal few
  exact ⟨four, differ, numbered⟩

end ZortilWatch.Ui
