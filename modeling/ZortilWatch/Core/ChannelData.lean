import ZortilWatch.Core.Files

/-!
# TURN ChannelData (`core/src/relay.rs`)

Packets of one socket are told apart by their first byte, and ChannelData is wrapped
as `[channel:u16][length:u16][data]` with zeros up to a multiple of four. The three
functions state the format each for itself: `unwrap_channel_data` takes channels up to
0x7FFF of which `classify` knows those below 0x5000, and `wrap_channel_data` cuts the
length to 16 bits. They agree exactly below both bounds (`channel_data_agrees_iff`).
-/

namespace ZortilWatch.Core

inductive PacketKind where
  | stun
  | dtls
  | turnChannel
  | rtp
  | unknown
  deriving DecidableEq, Repr

def classify (packet : Bytes) : PacketKind :=
  match packet.head? with
  | none => .unknown
  | some b =>
    if b ≤ 3 then .stun
    else if 20 ≤ b ∧ b ≤ 63 then .dtls
    else if 64 ≤ b ∧ b ≤ 79 then .turnChannel
    else if 128 ≤ b ∧ b ≤ 191 then .rtp
    else .unknown

/-- The loop `while out.len() % 4 != 0`. -/
def padTo4 (out : Bytes) : Bytes :=
  if out.length % 4 ≠ 0 then padTo4 (out ++ [0]) else out
termination_by 4 - (out.length + 3) % 4
decreasing_by rw [List.length_append, List.length_singleton]; omega

def wrapChannelData (channel : UInt16) (data : Bytes) : Bytes :=
  padTo4 (beBytes16 channel ++ beBytes16 (UInt16.ofNat data.length) ++ data)

def unwrapChannelData (packet : Bytes) : Option (UInt16 × Bytes) :=
  match packet with
  | c0 :: c1 :: l0 :: l1 :: rest =>
    let channel := fromBeBytes16 c0 c1
    if ¬ (0x4000 ≤ channel ∧ channel ≤ 0x7FFF) then none
    else
      let len := (fromBeBytes16 l0 l1).toNat
      if len ≤ rest.length then some (channel, rest.take len) else none
  | _ => none

/-- `unwrap_channel_data` takes the channel in some packet. -/
def AcceptedChannel (channel : UInt16) : Prop := ∃ packet data, unwrapChannelData packet = some (channel, data)

/-- What is wrapped is aligned, known as ChannelData and unwrapped as it was. -/
structure Agrees (channel : UInt16) (data : Bytes) : Prop where
  aligned : (wrapChannelData channel data).length % 4 = 0
  classified : classify (wrapChannelData channel data) = .turnChannel
  unwrapped : unwrapChannelData (wrapChannelData channel data) = some (channel, data)

/-! ## The header -/

theorem fromBeBytes16_toNat (b0 b1 : UInt8) : (fromBeBytes16 b0 b1).toNat = b0.toNat * 2 ^ 8 + b1.toNat := by
  have h0 := b0.toNat_lt
  have h1 := b1.toNat_lt
  rw [fromBeBytes16]
  simp only [UInt16.toNat_or, UInt16.toNat_shiftLeft, UInt8.toNat_toUInt16, UInt16.reduceToNat, Nat.reduceMod,
    Nat.shiftLeft_eq]
  rw [Nat.mod_eq_of_lt (by omega), lor_low _ 8 (by omega)]

/-- A packet is ChannelData to `classify` by its first byte. -/
theorem classify_cons (b : UInt8) (rest : Bytes) :
    classify (b :: rest) = .turnChannel ↔ 64 ≤ b.toNat ∧ b.toNat ≤ 79 := by
  have range (m n : UInt8) : (m ≤ b ∧ b ≤ n) ↔ m.toNat ≤ b.toNat ∧ b.toNat ≤ n.toNat := Iff.rfl
  have low : b ≤ 3 ↔ b.toNat ≤ 3 := Iff.rfl
  simp only [classify, List.head?_cons, range, low, UInt8.reduceToNat]
  split_ifs <;> simp <;> omega

/-! ## Padding -/

/-- The padding is aligned and only adds to the packet. -/
theorem padTo4_spec (out : Bytes) : (padTo4 out).length % 4 = 0 ∧ ∃ zeros, padTo4 out = out ++ zeros := by
  fun_induction padTo4 out with
  | case1 out _ ih =>
    obtain ⟨aligned, zeros, padded⟩ := ih
    exact ⟨aligned, 0 :: zeros, by rw [padded, List.append_assoc, List.singleton_append]⟩
  | case2 out done => exact ⟨by omega, [], (List.append_nil out).symm⟩

/-- A wrapped payload with what pads it. -/
theorem wrapChannelData_eq (channel : UInt16) (data : Bytes) : ∃ zeros, wrapChannelData channel data =
    (channel >>> 8).toUInt8 :: channel.toUInt8 :: (UInt16.ofNat data.length >>> 8).toUInt8 ::
      (UInt16.ofNat data.length).toUInt8 :: (data ++ zeros) := by
  obtain ⟨-, zeros, padded⟩ := padTo4_spec (beBytes16 channel ++ beBytes16 (UInt16.ofNat data.length) ++ data)
  exact ⟨zeros, padded.trans (by simp [beBytes16])⟩

/-! ## Unwrapping -/

theorem unwrap_cons (c0 c1 l0 l1 : UInt8) (rest : Bytes) {channel : UInt16} {data : Bytes} :
    unwrapChannelData (c0 :: c1 :: l0 :: l1 :: rest) = some (channel, data) ↔
      fromBeBytes16 c0 c1 = channel ∧ 0x4000 ≤ channel.toNat ∧ channel.toNat ≤ 0x7FFF ∧
        (fromBeBytes16 l0 l1).toNat ≤ rest.length ∧ rest.take (fromBeBytes16 l0 l1).toNat = data := by
  unfold unwrapChannelData
  dsimp only
  constructor
  · intro h
    split at h
    · cases h
    · rename_i inside
      split at h
      · rename_i whole
        cases h
        exact ⟨rfl, (not_not.1 inside).1, (not_not.1 inside).2, whole, rfl⟩
      · cases h
  · rintro ⟨rfl, low, high, whole, rfl⟩
    rw [if_neg (not_not.2 ⟨low, high⟩), if_pos whole]

/-- A packet that unwraps is ChannelData to `classify` exactly below channel 0x5000. -/
theorem classify_of_unwrap {packet : Bytes} {channel : UInt16} {data : Bytes}
    (h : unwrapChannelData packet = some (channel, data)) :
    (0x4000 ≤ channel.toNat ∧ channel.toNat ≤ 0x7FFF) ∧ (classify packet = .turnChannel ↔ channel.toNat < 0x5000) := by
  match packet, h with
  | c0 :: c1 :: l0 :: l1 :: rest, h =>
    obtain ⟨rfl, low, high, -⟩ := (unwrap_cons c0 c1 l0 l1 rest).1 h
    have second := c1.toNat_lt
    refine ⟨⟨low, high⟩, ?_⟩
    rw [classify_cons]
    rw [fromBeBytes16_toNat] at low high ⊢
    omega

/-- A wrapped payload unwraps to its channel and what the 16-bit length leaves of it. -/
theorem unwrap_wrap {channel : UInt16} (low : 0x4000 ≤ channel.toNat) (high : channel.toNat ≤ 0x7FFF) (data : Bytes) :
    unwrapChannelData (wrapChannelData channel data) = some (channel, data.take (data.length % 2 ^ 16)) := by
  obtain ⟨zeros, wrapped⟩ := wrapChannelData_eq channel data
  have short : data.length % 2 ^ 16 ≤ data.length := Nat.mod_le _ _
  have length : (fromBeBytes16 (UInt16.ofNat data.length >>> 8).toUInt8 (UInt16.ofNat data.length).toUInt8).toNat =
      data.length % 2 ^ 16 := by
    rw [ofBeBytes16, UInt16.toNat_ofNat']
  rw [wrapped, unwrap_cons, length]
  refine ⟨ofBeBytes16 channel, low, high, ?_, ?_⟩
  · rw [List.length_append]
    omega
  · exact List.take_append_of_le_length short

/-- Channels that are accepted are those between 0x4000 and 0x7FFF. -/
theorem acceptedChannel_iff {channel : UInt16} :
    AcceptedChannel channel ↔ 0x4000 ≤ channel.toNat ∧ channel.toNat ≤ 0x7FFF := by
  constructor
  · rintro ⟨packet, data, h⟩
    exact (classify_of_unwrap h).1
  · rintro ⟨low, high⟩
    exact ⟨wrapChannelData channel [], _, unwrap_wrap low high []⟩

/-! ## Agreement -/

theorem agrees_iff {channel : UInt16} (accepted : AcceptedChannel channel) (data : Bytes) :
    Agrees channel data ↔ channel.toNat < 0x5000 ∧ data.length < 2 ^ 16 := by
  obtain ⟨low, high⟩ := acceptedChannel_iff.1 accepted
  have unwrapped := unwrap_wrap low high data
  have classified := (classify_of_unwrap unwrapped).2
  constructor
  · intro agrees
    refine ⟨classified.1 agrees.classified, ?_⟩
    have whole : data.take (data.length % 2 ^ 16) = data := by
      have same := unwrapped.symm.trans agrees.unwrapped
      rw [Option.some.injEq, Prod.mk.injEq] at same
      exact same.2
    have lengths := congrArg List.length whole
    rw [List.length_take] at lengths
    omega
  · rintro ⟨known, short⟩
    refine ⟨(padTo4_spec _).1, classified.2 known, ?_⟩
    rw [unwrapped, Nat.mod_eq_of_lt short, List.take_length]

/-- Wrapping, unwrapping and classifying agree about a payload exactly if the
channel is below 0x5000 and the payload fits the length; and what unwraps is
classified as ChannelData exactly below that channel. -/
theorem channel_data_agrees_iff (channel : UInt16) (data : Bytes) :
    (AcceptedChannel channel → (Agrees channel data ↔ channel.toNat < 0x5000 ∧ data.length < 2 ^ 16)) ∧
      ∀ packet, unwrapChannelData packet = some (channel, data) →
        (classify packet = .turnChannel ↔ channel.toNat < 0x5000) :=
  ⟨fun accepted => agrees_iff accepted data, fun _ h => (classify_of_unwrap h).2⟩

/-- An empty payload on channel 0x4001, and the packet it is wrapped in. -/
theorem channel_data_agrees_4001 :
    Agrees 0x4001 [] ∧ classify (wrapChannelData 0x4001 []) = .turnChannel := by
  obtain ⟨wraps, unwraps⟩ := channel_data_agrees_iff 0x4001 []
  have agrees := (wraps (acceptedChannel_iff.2 (by decide))).2 (by decide)
  exact ⟨agrees, (unwraps _ agrees.unwrapped).2 (by decide)⟩

/-- Channel 0x5000 is accepted, and its packets are not classified as ChannelData. -/
theorem channel_data_disagrees :
    ¬ ((∀ channel data, AcceptedChannel channel → Agrees channel data) ∧
      ∀ packet channel data, unwrapChannelData packet = some (channel, data) → classify packet = .turnChannel) := by
  rintro ⟨agree, -⟩
  have accepted : AcceptedChannel 0x5000 := acceptedChannel_iff.2 (by decide)
  exact absurd ((agrees_iff accepted []).1 (agree 0x5000 [] accepted)).1 (by decide)

end ZortilWatch.Core
