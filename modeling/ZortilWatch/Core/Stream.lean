import Mathlib.Data.List.Nodup
import Mathlib.Data.List.Range
import ZortilWatch.Core.Media

/-!
# Sealed streams through the session loops

What the receiving ends of both directions accept: `managed_loop` opens inbound
messages as they come, `controller_loop` opens what the reassembler puts
together. An opener keeps no counter, so order and number of the accepted
messages are those of their delivery (`accepted_follow_delivery`).
-/

namespace ZortilWatch.Core

def SESSION_BYE : Bytes := utf8 "ZW-BYE-1"

variable (prim : Primitives)

/-! ## Sending -/

/-- The plaintexts of a sealer with the messages it makes of them. -/
def sealAll (s : StreamSealer) : List Bytes → List (Bytes × Bytes)
  | [] => []
  | p :: ps => (p, (s.seal prim p).2) :: sealAll (s.seal prim p).1 ps

/-! ## Receiving -/

/-- What a message opens to. -/
def opened (o : StreamOpener) (msg : Bytes) : List Bytes :=
  match o.open prim msg with
  | .ok plaintext => [plaintext]
  | .error _ => []

/-- One inbox of `managed_loop`. -/
def managedBatch (o : StreamOpener) : List Bytes → List Bytes
  | [] => []
  | raw :: inbox => if raw = SESSION_BYE then managedBatch o inbox else opened prim o raw ++ managedBatch o inbox

/-- The inboxes of `managed_loop` until a BYE. -/
def managedInbound (o : StreamOpener) : List (List Bytes) → List Bytes
  | [] => []
  | inbox :: rest =>
    managedBatch prim o inbox ++ if SESSION_BYE ∈ inbox then [] else managedInbound o rest

/-- One inbox of `controller_loop`. -/
def controllerBatch (o : StreamOpener) (re : Reassembler) : List Bytes → Reassembler × List Bytes
  | [] => (re, [])
  | raw :: inbox =>
    if raw = SESSION_BYE then controllerBatch o re inbox
    else
      let pushed := re.push raw
      let frames := match pushed.2 with
        | none => []
        | some msg => opened prim o msg
      let rest := controllerBatch o pushed.1 inbox
      (rest.1, frames ++ rest.2)

/-- The inboxes of `controller_loop` until a BYE. -/
def controllerInbound (o : StreamOpener) (re : Reassembler) : List (List Bytes) → List Bytes
  | [] => []
  | inbox :: rest =>
    let batch := controllerBatch prim o re inbox
    batch.2 ++ if SESSION_BYE ∈ inbox then [] else controllerInbound o batch.1 rest

/-! ## The messages that reach the opener -/

/-- The inboxes up to the first one with a BYE. -/
def untilBye : List (List Bytes) → List (List Bytes)
  | [] => []
  | inbox :: rest => inbox :: if SESSION_BYE ∈ inbox then [] else untilBye rest

/-- What the reassembler puts together of a list of chunks. -/
def reassembled (re : Reassembler) : List Bytes → Reassembler × List Bytes
  | [] => (re, [])
  | raw :: chunks =>
    let pushed := re.push raw
    let rest := reassembled pushed.1 chunks
    (rest.1, pushed.2.toList ++ rest.2)

/-- The messages `managed_loop` opens. -/
def managedMessages (inboxes : List (List Bytes)) : List Bytes :=
  (untilBye inboxes).flatten.filter (· ≠ SESSION_BYE)

/-- The messages `controller_loop` opens. -/
def controllerMessages (inboxes : List (List Bytes)) : List Bytes :=
  (reassembled {} ((untilBye inboxes).flatten.filter (· ≠ SESSION_BYE))).2

section Loops

variable (o : StreamOpener)

theorem managedBatch_eq (inbox : List Bytes) :
    managedBatch prim o inbox = (inbox.filter (· ≠ SESSION_BYE)).flatMap (opened prim o) := by
  induction inbox with
  | nil => rfl
  | cons raw inbox ih =>
    by_cases h : raw = SESSION_BYE <;> simp [managedBatch, h, ih]

theorem managedInbound_eq (inboxes : List (List Bytes)) :
    managedInbound prim o inboxes = (managedMessages inboxes).flatMap (opened prim o) := by
  induction inboxes with
  | nil => rfl
  | cons inbox rest ih =>
    simp only [managedInbound, managedMessages, untilBye, managedBatch_eq]
    split
    · simp
    · simp only [managedMessages] at ih
      simp [ih]

theorem reassembled_append (re : Reassembler) (chunks chunks' : List Bytes) :
    reassembled re (chunks ++ chunks') =
      ((reassembled (reassembled re chunks).1 chunks').1,
        (reassembled re chunks).2 ++ (reassembled (reassembled re chunks).1 chunks').2) := by
  induction chunks generalizing re with
  | nil => rfl
  | cons raw chunks ih => simp [reassembled, ih]

theorem controllerBatch_eq (re : Reassembler) (inbox : List Bytes) :
    controllerBatch prim o re inbox =
      ((reassembled re (inbox.filter (· ≠ SESSION_BYE))).1,
        (reassembled re (inbox.filter (· ≠ SESSION_BYE))).2.flatMap (opened prim o)) := by
  induction inbox generalizing re with
  | nil => rfl
  | cons raw inbox ih =>
    by_cases h : raw = SESSION_BYE
    · simp [controllerBatch, h, ih]
    · simp only [controllerBatch, h, if_false, ih]
      cases hp : (re.push raw).2 <;> simp [h, reassembled, hp]

theorem controllerInbound_eq (re : Reassembler) (inboxes : List (List Bytes)) :
    controllerInbound prim o re inboxes =
      (reassembled re ((untilBye inboxes).flatten.filter (· ≠ SESSION_BYE))).2.flatMap (opened prim o) := by
  induction inboxes generalizing re with
  | nil => rfl
  | cons inbox rest ih =>
    simp only [controllerInbound, untilBye, controllerBatch_eq]
    split
    · simp
    · simp [ih, reassembled_append]

end Loops

/-! ## Sealed messages carry their number -/

/-- A number is the sum of its bytes. -/
theorem sum_bytes {n : Nat} (h : n < 2 ^ 64) :
    n / 2 ^ 56 % 2 ^ 8 * 2 ^ 56 + (n / 2 ^ 48 % 2 ^ 8 * 2 ^ 48 + (n / 2 ^ 40 % 2 ^ 8 * 2 ^ 40 +
      (n / 2 ^ 32 % 2 ^ 8 * 2 ^ 32 + (n / 2 ^ 24 % 2 ^ 8 * 2 ^ 24 + (n / 2 ^ 16 % 2 ^ 8 * 2 ^ 16 +
        (n / 2 ^ 8 % 2 ^ 8 * 2 ^ 8 + n / 2 ^ 0 % 2 ^ 8)))))) = n := by
  have digit (k : Nat) : n / 2 ^ k % 2 ^ 8 * 2 ^ k + n % 2 ^ k = n % 2 ^ (k + 8) := by
    rw [Nat.pow_add, Nat.mod_mul, Nat.mul_comm, Nat.add_comm]
  rw [show n / 2 ^ 0 % 2 ^ 8 = n % 2 ^ 8 by rw [Nat.pow_zero, Nat.div_one], digit 8, digit 16, digit 24, digit 32,
    digit 40, digit 48, digit 56]
  exact Nat.mod_eq_of_lt h

theorem toNat_byte (n s : UInt64) : ((n >>> s).toUInt8).toNat = n.toNat / 2 ^ (s.toNat % 64) % 2 ^ 8 := by
  simp [Nat.shiftRight_eq_div_pow]

theorem beBytes64_injective {m n : UInt64} (h : beBytes64 m = beBytes64 n) : m = n := by
  have byte (s : UInt64) (hs : s ∈ ([56, 48, 40, 32, 24, 16, 8, 0] : List UInt64)) :
      m.toNat / 2 ^ (s.toNat % 64) % 2 ^ 8 = n.toNat / 2 ^ (s.toNat % 64) % 2 ^ 8 := by
    rw [← toNat_byte, ← toNat_byte, List.map_inj_left.1 h s hs]
  have b7 : m.toNat / 2 ^ 56 % 2 ^ 8 = n.toNat / 2 ^ 56 % 2 ^ 8 := byte 56 (by simp)
  have b6 : m.toNat / 2 ^ 48 % 2 ^ 8 = n.toNat / 2 ^ 48 % 2 ^ 8 := byte 48 (by simp)
  have b5 : m.toNat / 2 ^ 40 % 2 ^ 8 = n.toNat / 2 ^ 40 % 2 ^ 8 := byte 40 (by simp)
  have b4 : m.toNat / 2 ^ 32 % 2 ^ 8 = n.toNat / 2 ^ 32 % 2 ^ 8 := byte 32 (by simp)
  have b3 : m.toNat / 2 ^ 24 % 2 ^ 8 = n.toNat / 2 ^ 24 % 2 ^ 8 := byte 24 (by simp)
  have b2 : m.toNat / 2 ^ 16 % 2 ^ 8 = n.toNat / 2 ^ 16 % 2 ^ 8 := byte 16 (by simp)
  have b1 : m.toNat / 2 ^ 8 % 2 ^ 8 = n.toNat / 2 ^ 8 % 2 ^ 8 := byte 8 (by simp)
  have b0 : m.toNat / 2 ^ 0 % 2 ^ 8 = n.toNat / 2 ^ 0 % 2 ^ 8 := byte 0 (by simp)
  rw [← UInt64.toNat_inj, ← sum_bytes m.toNat_lt, ← sum_bytes n.toNat_lt, b7, b6, b5, b4, b3, b2, b1, b0]

theorem streamNonce_length (c : UInt64) : (streamNonce c).length = 12 := by simp [streamNonce, beBytes64]

theorem streamNonce_injective {m n : UInt64} (h : streamNonce m = streamNonce n) : m = n :=
  beBytes64_injective (List.append_cancel_left h)

section Transcript

variable (s : StreamSealer) (ps : List Bytes)

theorem sealAll_plaintexts : (sealAll prim s ps).map Prod.fst = ps := by
  induction ps generalizing s with
  | nil => rfl
  | cons p ps ih => simp [sealAll, ih]

/-- Each message starts with its own number. -/
theorem sealAll_nonces : (sealAll prim s ps).map (fun m => m.2.take 12) =
    (List.range ps.length).map fun i => streamNonce (s.counter + UInt64.ofNat i) := by
  induction ps generalizing s with
  | nil => rfl
  | cons p ps ih =>
    have head : (s.seal prim p).2.take 12 = streamNonce (s.counter + UInt64.ofNat 0) := by
      rw [StreamSealer.seal, ← streamNonce_length s.counter, List.take_left]
      simp
    have tail (i : Nat) : (s.seal prim p).1.counter + UInt64.ofNat i = s.counter + UInt64.ofNat (i + 1) := by
      show s.counter + 1 + UInt64.ofNat i = s.counter + UInt64.ofNat (i + 1)
      rw [UInt64.add_assoc, UInt64.ofNat_add, UInt64.add_comm (UInt64.ofNat i)]
      rfl
    rw [sealAll, List.map_cons, ih, List.length_cons, List.range_succ_eq_map, List.map_cons, List.map_map, head]
    simp only [tail]
    rfl

/-- Fewer than 2^64 messages are all different. -/
theorem sealAll_nodup (h : ps.length ≤ 2 ^ 64) : ((sealAll prim s ps).map Prod.snd).Nodup := by
  refine List.Nodup.of_map (·.take 12) ?_
  rw [List.map_map]
  refine (sealAll_nonces prim s ps).symm ▸ List.Nodup.map_on (fun i hi j hj hij => ?_) List.nodup_range
  have same : UInt64.ofNat i = UInt64.ofNat j := by
    rw [← UInt64.add_sub_cancel (UInt64.ofNat i) s.counter, UInt64.add_comm, streamNonce_injective hij,
      UInt64.add_comm, UInt64.add_sub_cancel]
  rw [List.mem_range] at hi hj
  have := congrArg UInt64.toNat same
  rw [UInt64.toNat_ofNat', UInt64.toNat_ofNat', Nat.mod_eq_of_lt (by omega), Nat.mod_eq_of_lt (by omega)] at this
  exact this

/-- Opening a sealed message gives its plaintext, if decryption undoes encryption. -/
theorem opened_sealed {m : Bytes × Bytes} (hm : m ∈ sealAll prim s ps)
    (correct : ∀ nonce p, nonce.length = 12 → prim.decrypt s.key nonce (prim.encrypt s.key nonce p) = some p) :
    opened prim { key := s.key } m.2 = [m.1] := by
  induction ps generalizing s with
  | nil => cases hm
  | cons p ps ih =>
    rcases List.mem_cons.1 hm with rfl | hm
    · have len := streamNonce_length s.counter
      have long : ¬ (s.seal prim p).2.length < 12 := by simp [StreamSealer.seal, len]
      have nonce : (s.seal prim p).2.take 12 = streamNonce s.counter := by
        rw [StreamSealer.seal, ← len, List.take_left]
      have body : (s.seal prim p).2.drop 12 = prim.encrypt s.key (streamNonce s.counter) p := by
        rw [StreamSealer.seal, ← len, List.drop_left]
      simp only [opened, StreamOpener.open, if_neg long, nonce, body, correct _ p len]
    · exact ih (s.seal prim p).1 hm correct

end Transcript

/-! ## What a receiver accepts -/

/-- Every message that opens is one of the sealed ones. -/
def Unforged (o : StreamOpener) (sent : List (Bytes × Bytes)) (messages : List Bytes) : Prop :=
  ∀ msg ∈ messages, ∀ p, o.open prim msg = .ok p → msg ∈ sent.map Prod.snd

/-- The sealed messages among those that reach the opener. -/
def genuine (sent : List (Bytes × Bytes)) (messages : List Bytes) : List Bytes :=
  messages.filter (· ∈ sent.map Prod.snd)

/-- The receiver accepts the plaintexts of the sealed messages that reach its
opener, as often and in the order they reach it. If these come in the order of
sealing, none twice, so do the plaintexts; they do exactly if their numbers
increase, up to 2^64 messages. -/
structure FollowsDelivery (sent : List (Bytes × Bytes)) (messages accepted : List Bytes) : Prop where
  delivered : ∃ numbers : List (Fin sent.length),
    genuine sent messages = numbers.map (fun i => sent[i].2) ∧ accepted = numbers.map (fun i => sent[i].1) ∧
      (sent.length ≤ 2 ^ 64 → ((genuine sent messages).Sublist (sent.map Prod.snd) ↔ numbers.Pairwise (· < ·)))
  ordered : (genuine sent messages).Sublist (sent.map Prod.snd) → accepted.Sublist (sent.map Prod.fst)

variable {prim}

/-- Every listed element is listed somewhere. -/
theorem exists_numbers {α β : Type} {sent : List α} (f : α → β) {l : List β} (h : ∀ b ∈ l, b ∈ sent.map f) :
    ∃ numbers : List (Fin sent.length), l = numbers.map fun i => f sent[i] := by
  induction l with
  | nil => exact ⟨[], rfl⟩
  | cons b l ih =>
    obtain ⟨numbers, hl⟩ := ih fun b' hb' => h b' (List.mem_cons_of_mem _ hb')
    obtain ⟨a, ha, hab⟩ := List.mem_map.1 (h b List.mem_cons_self)
    obtain ⟨i, hi, rfl⟩ := List.getElem_of_mem ha
    exact ⟨⟨i, hi⟩ :: numbers, by simp [hl, hab]⟩

/-- Picking distinct elements is a sublist exactly if the picks increase. -/
theorem sublist_iff_increasing {α β : Type} {sent : List α} {f : α → β} (hn : (sent.map f).Nodup)
    (numbers : List (Fin sent.length)) :
    (numbers.map fun i => f sent[i]).Sublist (sent.map f) ↔ numbers.Pairwise (· < ·) := by
  have at_ne : Function.Injective fun i : Fin sent.length => f sent[i] := by
    intro i j hij
    have := @List.nodup_iff_injective_getElem _ (sent.map f) |>.1 hn
    have same := @this ⟨i, by simp⟩ ⟨j, by simp⟩ (by simpa using hij)
    exact Fin.ext (by simpa using same)
  constructor
  · intro h
    obtain ⟨picked, hp, heq⟩ := List.sublist_map_iff.1 h
    obtain ⟨increasing, hinc, hlt⟩ := List.sublist_eq_map_getElem hp
    subst hinc
    rw [List.map_map] at heq
    exact List.map_injective_iff.2 at_ne heq ▸ hlt
  · intro h
    have := (List.map_getElem_sublist h).map f
    rwa [List.map_map] at this

/-- A message nobody sealed opens to nothing. -/
theorem accepted_genuine {sent : List (Bytes × Bytes)} {o : StreamOpener} {messages : List Bytes}
    (unforged : Unforged prim o sent messages) :
    messages.flatMap (opened prim o) = (genuine sent messages).flatMap (opened prim o) := by
  unfold genuine
  induction messages with
  | nil => rfl
  | cons msg messages ih =>
    have rest := ih fun m hm => unforged m (List.mem_cons_of_mem _ hm)
    by_cases h : msg ∈ sent.map Prod.snd
    · simp only [List.flatMap_cons, List.filter_cons, h, decide_true, if_true, rest]
    · have nothing : opened prim o msg = [] := by
        unfold opened
        split
        · rename_i p hp
          exact absurd (unforged msg List.mem_cons_self p hp) h
        · rfl
      simp only [List.flatMap_cons, List.filter_cons, h, nothing, decide_false, rest]
      rfl

theorem opened_numbers {sent : List (Bytes × Bytes)} {o : StreamOpener}
    (honest : ∀ m ∈ sent, opened prim o m.2 = [m.1]) (numbers : List (Fin sent.length)) :
    (numbers.map fun i => sent[i].2).flatMap (opened prim o) = numbers.map fun i => sent[i].1 := by
  rw [List.flatMap_map, List.map_eq_flatMap]
  exact List.flatMap_congr fun i _ => honest _ (List.getElem_mem _)

theorem follows_delivery {sent : List (Bytes × Bytes)} {o : StreamOpener}
    (hn : sent.length ≤ 2 ^ 64 → (sent.map Prod.snd).Nodup) (honest : ∀ m ∈ sent, opened prim o m.2 = [m.1])
    {messages : List Bytes} (unforged : Unforged prim o sent messages) :
    FollowsDelivery sent messages (messages.flatMap (opened prim o)) where
  delivered := by
    obtain ⟨numbers, hnum⟩ := @exists_numbers _ _ sent Prod.snd (genuine sent messages) fun msg h => by
      simpa using (List.mem_filter.1 h).2
    refine ⟨numbers, hnum, ?_, fun hlen => ?_⟩
    · rw [accepted_genuine unforged, hnum, opened_numbers honest]
    · rw [hnum]
      exact sublist_iff_increasing (hn hlen) numbers
  ordered h := by
    obtain ⟨picked, hp, hmap⟩ := List.sublist_map_iff.1 h
    obtain ⟨numbers, rfl, hlt⟩ := List.sublist_eq_map_getElem hp
    rw [List.map_map] at hmap
    rw [accepted_genuine unforged, hmap]
    have picks := (List.map_getElem_sublist hlt).map Prod.fst
    rw [List.map_map] at picks
    exact (opened_numbers honest numbers).symm ▸ picks

/-- In either direction, what the receiver accepts follows the delivery of the
sealed messages. -/
theorem accepted_follow_delivery (prim : Primitives)
    (correct : ∀ key nonce p, nonce.length = 12 → prim.decrypt key nonce (prim.encrypt key nonce p) = some p)
    {sessionKey : Bytes32} {label : Bytes} {s : StreamSealer} {o : StreamOpener}
    (hs : StreamSealer.new prim sessionKey label = some s) (ho : StreamOpener.new prim sessionKey label = some o)
    (ps : List Bytes) (inboxes : List (List Bytes)) :
    (Unforged prim o (sealAll prim s ps) (managedMessages inboxes) →
        FollowsDelivery (sealAll prim s ps) (managedMessages inboxes) (managedInbound prim o inboxes)) ∧
      (Unforged prim o (sealAll prim s ps) (controllerMessages inboxes) →
        FollowsDelivery (sealAll prim s ps) (controllerMessages inboxes) (controllerInbound prim o {} inboxes)) := by
  have sameKey : o = { key := s.key } := by
    obtain ⟨k, hk, rfl⟩ := Option.map_eq_some_iff.1 hs
    obtain ⟨k', hk', rfl⟩ := Option.map_eq_some_iff.1 ho
    cases hk.symm.trans hk'
    rfl
  have distinct (hlen : (sealAll prim s ps).length ≤ 2 ^ 64) : ((sealAll prim s ps).map Prod.snd).Nodup := by
    refine sealAll_nodup prim s ps ?_
    rwa [← sealAll_plaintexts prim s ps, List.length_map]
  have honest (m : Bytes × Bytes) (hm : m ∈ sealAll prim s ps) : opened prim o m.2 = [m.1] :=
    sameKey ▸ opened_sealed prim s ps hm (correct s.key)
  constructor
  · intro unforged
    rw [managedInbound_eq]
    exact follows_delivery distinct honest unforged
  · intro unforged
    rw [controllerInbound_eq]
    exact follows_delivery distinct honest unforged

/-! ## A message delivered twice -/

/-- The input stream of the session key of zeros under the sample primitives. -/
def sampleSealer : StreamSealer :=
  { key := Vector.ofFn fun i => (List.replicate 32 0 ++ STREAM_LABEL_INPUT_C2H).getD i 0 }

theorem sampleSealer_new :
    StreamSealer.new samplePrimitives (Vector.replicate 32 0) STREAM_LABEL_INPUT_C2H = some sampleSealer := by
  decide +kernel

theorem sampleOpener_new : StreamOpener.new samplePrimitives (Vector.replicate 32 0) STREAM_LABEL_INPUT_C2H =
    some { key := sampleSealer.key } := by decide +kernel

/-- A key press the network delivers twice is accepted twice. -/
theorem replayed_message_accepted_twice :
    ¬ ∀ s o, StreamSealer.new samplePrimitives (Vector.replicate 32 0) STREAM_LABEL_INPUT_C2H = some s →
      StreamOpener.new samplePrimitives (Vector.replicate 32 0) STREAM_LABEL_INPUT_C2H = some o →
      ∀ ps inboxes, Unforged samplePrimitives o (sealAll samplePrimitives s ps) (managedMessages inboxes) →
        (managedInbound samplePrimitives o inboxes).Sublist ps := by
  intro all
  let press := (sampleSealer.seal samplePrimitives [1]).2
  have twice : managedInbound samplePrimitives { key := sampleSealer.key } [[press, press]] = [[1], [1]] := by
    decide +kernel
  have sublist := all _ _ sampleSealer_new sampleOpener_new [[1]] [[press, press]] fun msg hmsg _ _ => by
    have : msg = press := by
      have inside := (List.mem_filter.1 hmsg).1
      simpa [untilBye] using inside
    simp [sealAll, this, press]
  rw [twice] at sublist
  exact absurd sublist.length_le (by decide)

/-- Two key presses delivered in order are accepted in order. -/
theorem accepted_follow_delivery_in_order :
    (managedInbound samplePrimitives { key := sampleSealer.key }
      [(sealAll samplePrimitives sampleSealer [[1], [2]]).map Prod.snd]).Sublist [[1], [2]] := by
  let inboxes := [(sealAll samplePrimitives sampleSealer [[1], [2]]).map Prod.snd]
  have follow := (accepted_follow_delivery samplePrimitives (fun key _ p h => samplePrimitives_correct key h p)
    sampleSealer_new sampleOpener_new [[1], [2]] inboxes).1
  have unforged : Unforged samplePrimitives { key := sampleSealer.key }
      (sealAll samplePrimitives sampleSealer [[1], [2]]) (managedMessages inboxes) := fun msg hmsg _ _ => by
    have inside := (List.mem_filter.1 hmsg).1
    simpa [untilBye, inboxes] using inside
  have all_genuine : genuine (sealAll samplePrimitives sampleSealer [[1], [2]]) (managedMessages inboxes) =
      (sealAll samplePrimitives sampleSealer [[1], [2]]).map Prod.snd := by decide +kernel
  exact (follow unforged).ordered (all_genuine ▸ List.Sublist.refl _)

end ZortilWatch.Core
