import ZortilWatch.Lib.Runs
import ZortilWatch.Core.Files

/-!
# The media path as a queue

The host seals, cuts and queues what its three producers hand over, empties the
queue into the channel as far as the channel accepts, and the controller puts
the chunks together and opens them: `managed_loop` against `controller_loop`, or
against the browser (`ui/src/platform/web.ts`). Together they are one queue of
plaintexts (`media_path_is_queue`).
-/

namespace ZortilWatch.Core

/-! ## A prefix of the chunks -/

open Reassembler in
/-- A prefix of the chunks of a list of frames gives a prefix of the frames, and
all chunks give all frames, whatever the reassembler held before. -/
theorem reassembled_prefix {c : Chunker} (hc : 0 < c.maxPayload) {frames : List Bytes}
    (fit : ∀ frame ∈ frames, (c.parts frame).length ≤ 65535) (r : Reassembler) {chunks : List Bytes}
    (arrived : chunks <+: (c.chunkAll frames).flatMap Prod.snd) :
    (reassembled r chunks).2 <+: frames ∧
      (chunks = (c.chunkAll frames).flatMap Prod.snd → (reassembled r chunks).2 = frames) := by
  induction frames generalizing c r chunks with
  | nil =>
    rw [List.prefix_nil.1 arrived]
    exact ⟨List.prefix_rfl, fun _ => rfl⟩
  | cons frame frames ih =>
    have fitFrame := fit frame List.mem_cons_self
    obtain ⟨payload, parts, hparts⟩ := List.exists_cons_of_ne_nil (c.parts_ne_nil frame hc)
    rw [hparts, List.length_cons] at fitFrame
    have own : (c.chunk frame).2 = ((payload, 0) :: parts.zipIdx 1).map (chunkOf c.seq (parts.length + 1)) := by
      rw [Chunker.chunk_eq, hparts]
      rfl
    have whole (r : Reassembler) : (reassembled r (c.chunk frame).2).2 = [frame] := by
      have flat := c.parts_flatten frame hc
      rw [hparts, List.flatten_cons] at flat
      rw [own, reassembled_first r payload fitFrame (by simp) (later_zipIdx (by omega)), if_pos (by simp)]
      simp [flat]
    have next : (c.chunk frame).1 = { c with seq := c.seq + 1 } := by rw [Chunker.chunk_eq]
    rw [Chunker.chunkAll, List.flatMap_cons] at arrived ⊢
    by_cases begun : (c.chunk frame).2 <+: chunks
    · obtain ⟨rest, rfl⟩ := begun
      have later := (List.prefix_append_right_inj _).1 arrived
      have tail := ih (c := (c.chunk frame).1) (by rw [next]; exact hc)
        (fun f hf => by rw [next]; exact fit f (List.mem_cons_of_mem _ hf)) (reassembled r (c.chunk frame).2).1 later
      rw [reassembled_append, whole]
      refine ⟨(List.prefix_cons_inj frame).2 tail.1, fun all => ?_⟩
      rw [tail.2 (List.append_cancel_left all)]
      rfl
    · -- the first frame is not complete, so nothing has come out
      have short := (List.prefix_or_prefix_of_prefix arrived (List.prefix_append _ _)).resolve_right begun
      have nothing : (reassembled r chunks).2 = [] := by
        rw [own] at short begun
        obtain ⟨left, hleft, rfl⟩ := List.prefix_map_iff.1 short
        rcases List.prefix_cons_iff.1 hleft with rfl | ⟨rest, rfl, hrest⟩
        · rfl
        · have len := hrest.length_le
          rw [List.length_zipIdx] at len
          have later : Later rest := fun q hq => later_zipIdx (by omega) q (hrest.subset hq)
          rw [reassembled_first r payload fitFrame (by omega) later, if_neg]
          intro all
          refine begun ?_
          simp only [hrest.eq_of_length (by simpa using Nat.succ.inj all), List.prefix_rfl]
      rw [nothing]
      refine ⟨List.nil_prefix, fun all => absurd ?_ begun⟩
      rw [all]
      exact List.prefix_append _ _

variable (prim : Primitives)

/-! ## The host -/

/-- What the producers of `managed_loop` hand over. -/
inductive Product where
  | video (unit : Bytes)
  | control (json : Bytes)
  | file (id : UInt32) (offset : UInt64) (data : Bytes)

/-- The plaintext to seal; an empty unit of the encoder is dropped. -/
def Product.plaintext? : Product → Option Bytes
  | .video unit => if unit.isEmpty then none else some unit
  | .control json => some json
  | .file id offset data => some (encodeFileFrame id offset data)

structure MediaHost where
  sealer : StreamSealer
  chunker : Chunker := .new DEFAULT_MAX_PAYLOAD
  queue : List Bytes := []

/-- Seal, cut and queue. -/
def MediaHost.enqueue (h : MediaHost) (plaintext : Bytes) : MediaHost :=
  let sealed := h.sealer.seal prim plaintext
  let chunks := h.chunker.chunk sealed.2
  { sealer := sealed.1, chunker := chunks.1, queue := h.queue ++ chunks.2 }

/-- The loop that empties the queue: what it leaves and what it writes. `accepts`
says what the channel answers to the writes; no answer left is a refusal. -/
def drainQueue : List Bool → List Bytes → List Bytes × List Bytes
  | true :: accepts, c :: queue =>
    let rest := drainQueue accepts queue
    (rest.1, c :: rest.2)
  | _, queue => (queue, [])

/-! ## The controller -/

inductive Client where
  | native
  | web
  deriving DecidableEq

/-- `onMedia`: what one message of the channel hands to the application, and
whether it ends the session. -/
def onMedia (o : StreamOpener) (reasm : Reassembler) (bytes : Bytes) : Reassembler × List Bytes × Bool :=
  if bytes = SESSION_BYE then (reasm, [], true)
  else
    let pushed := reasm.push bytes
    let frames := match pushed.2 with
      | none => []
      | some sealed => opened prim o sealed
    (pushed.1, frames, false)

/-! ## Both together -/

structure MediaPath where
  host : MediaHost
  /-- The host has left its loop. -/
  ended : Bool := false
  /-- Accepted by the channel and not yet processed by the controller. -/
  channel : List Bytes := []
  opener : StreamOpener
  reassembler : Reassembler := {}
  /-- The controller has seen a BYE. -/
  closed : Bool := false
  /-- Plaintexts sealed on the host. -/
  sealed : List Bytes := []
  /-- Plaintexts handed to the application. -/
  handed : List Bytes := []

inductive MediaEvent where
  | produce (p : Product)
  | drain (accepts : List Bool)
  /-- The host leaves its loop; its BYE may be refused. -/
  | bye (accepted : Bool)
  /-- A turn of `controller_loop` with an inbox of `n` messages. -/
  | turn (n : Nat)
  /-- A message event of the browser's channel. -/
  | message

namespace MediaPath

def step (m : MediaPath) : MediaEvent → MediaPath
  | .produce p =>
    match p.plaintext? with
    | none => m
    | some plaintext => { m with host := m.host.enqueue prim plaintext, sealed := m.sealed ++ [plaintext] }
  | .drain accepts =>
    let drained := drainQueue accepts m.host.queue
    { m with host := { m.host with queue := drained.1 }, channel := m.channel ++ drained.2 }
  | .bye accepted => { m with ended := true, channel := if accepted then m.channel ++ [SESSION_BYE] else m.channel }
  | .turn n =>
    let inbox := m.channel.take n
    let batch := controllerBatch prim m.opener m.reassembler inbox
    { m with
      channel := m.channel.drop n
      reassembler := batch.1
      closed := inbox.contains SESSION_BYE
      handed := m.handed ++ batch.2 }
  | .message =>
    match m.channel with
    | [] => m
    | bytes :: channel =>
      let res := onMedia prim m.opener m.reassembler bytes
      { m with
        channel := channel
        reassembler := res.1
        closed := res.2.2
        handed := m.handed ++ res.2.1 }

/-- The sealed form of a plaintext fits the count of a chunk header. -/
def fits (m : MediaPath) (plaintext : Bytes) : Prop :=
  (m.host.chunker.chunk (m.host.sealer.seal prim plaintext).2).2.length ≤ 65535

/-- The host works until it ends, the controller until a BYE, each client in its
own way. -/
def admits (client : Client) (m : MediaPath) : MediaEvent → Prop
  | .produce p => m.ended = false ∧ ∀ plaintext, p.plaintext? = some plaintext → m.fits prim plaintext
  | .drain _ => m.ended = false
  | .bye _ => m.ended = false
  | .turn _ => client = .native ∧ m.closed = false
  | .message => client = .web ∧ m.closed = false

end MediaPath

/-- The media path of a session under its key. -/
def mediaPath (client : Client) (sessionKey : Bytes32) : System MediaPath MediaEvent where
  init m := ∃ s o, StreamSealer.new prim sessionKey STREAM_LABEL_MEDIA_H2C = some s ∧
    StreamOpener.new prim sessionKey STREAM_LABEL_MEDIA_H2C = some o ∧ m = { host := { sealer := s }, opener := o }
  enabled := MediaPath.admits prim client
  step := MediaPath.step prim

/-! ## Everything the host has made so far -/

section Transcript

variable (s : StreamSealer) (ps : List Bytes)

/-- The sealer after the plaintexts. -/
def sealerAfter : StreamSealer := ps.foldl (fun s p => (s.seal prim p).1) s

/-- The sealed messages. -/
def messages : List Bytes := (sealAll prim s ps).map Prod.snd

/-- The chunks of the sealed messages. -/
def mediaChunks : List Bytes := ((Chunker.new DEFAULT_MAX_PAYLOAD).chunkAll (messages prim s ps)).flatMap Prod.snd

/-- The chunker after a list of frames. -/
def chunkerAfter (c : Chunker) (frames : List Bytes) : Chunker := frames.foldl (fun c f => (c.chunk f).1) c

theorem messages_snoc (p : Bytes) :
    messages prim s (ps ++ [p]) = messages prim s ps ++ [((sealerAfter prim s ps).seal prim p).2] := by
  induction ps generalizing s with
  | nil => rfl
  | cons q ps ih =>
    have tail := ih (s.seal prim q).1
    simp only [messages] at tail
    simp only [messages, List.cons_append, sealAll, List.map_cons, tail]
    rfl

theorem chunkAll_snoc (c : Chunker) (frames : List Bytes) (f : Bytes) :
    c.chunkAll (frames ++ [f]) = c.chunkAll frames ++ [(f, ((chunkerAfter c frames).chunk f).2)] := by
  induction frames generalizing c with
  | nil => rfl
  | cons g frames ih =>
    simp only [List.cons_append, Chunker.chunkAll, ih]
    rfl

theorem maxPayload_chunkerAfter (c : Chunker) (frames : List Bytes) :
    (chunkerAfter c frames).maxPayload = c.maxPayload := by
  induction frames generalizing c with
  | nil => rfl
  | cons f frames ih =>
    exact (ih _).trans (by simp only [Chunker.chunk_eq])

theorem messages_ne_nil {m : Bytes} (hm : m ∈ messages prim s ps) : m ≠ [] := by
  induction ps generalizing s with
  | nil => cases hm
  | cons p ps ih =>
    rcases List.mem_cons.1 hm with rfl | hm
    · intro h
      have := congrArg List.length h
      simp [StreamSealer.seal, streamNonce_length] at this
    · exact ih _ hm

end Transcript

/-- No chunk of a message is a BYE: it is longer. -/
theorem chunk_ne_bye {c : Chunker} (hc : 0 < c.maxPayload) {frames : List Bytes} (full : ∀ f ∈ frames, f ≠ [])
    {chunk : Bytes} (h : chunk ∈ (c.chunkAll frames).flatMap Prod.snd) : chunk ≠ SESSION_BYE := by
  induction frames generalizing c with
  | nil => cases h
  | cons f frames ih =>
    rw [Chunker.chunkAll, List.flatMap_cons, List.mem_append, Chunker.chunk_eq] at h
    rcases h with h | h
    · obtain ⟨part, hp, rfl⟩ := List.mem_map.1 h
      have body := part_ne_nil hc (full f List.mem_cons_self) (List.fst_mem_of_mem_zipIdx hp)
      intro bye
      have len := congrArg List.length bye
      have bytes : SESSION_BYE.length = 8 := by decide +kernel
      simp only [chunkOf, beBytes32, beBytes16, List.length_append, List.length_map, List.length_cons,
        List.length_nil, bytes] at len
      exact body (List.length_eq_zero_iff.1 (by omega))
    · exact ih (c := { c with seq := c.seq + 1 }) hc (fun g hg => full g (List.mem_cons_of_mem _ hg)) h

/-! ## The queue -/

theorem drainQueue_append (accepts : List Bool) (queue : List Bytes) :
    (drainQueue accepts queue).2 ++ (drainQueue accepts queue).1 = queue := by
  induction accepts generalizing queue with
  | nil => rfl
  | cons a accepts ih =>
    cases a <;> cases queue
    · rfl
    · rfl
    · rfl
    · simp [drainQueue, ih]

/-- The browser does with a message what `controller_loop` does with an inbox of one. -/
theorem onMedia_eq (o : StreamOpener) (reasm : Reassembler) (bytes : Bytes) :
    ((onMedia prim o reasm bytes).1, (onMedia prim o reasm bytes).2.1) = controllerBatch prim o reasm [bytes] := by
  by_cases bye : bytes = SESSION_BYE
  · simp [onMedia, controllerBatch, bye]
  · cases h : (reasm.push bytes).2 <;> simp [onMedia, controllerBatch, bye, h]

/-- The channel without a BYE. -/
def MediaPath.inFlight (m : MediaPath) : List Bytes := m.channel.filter (· ≠ SESSION_BYE)

/-- The chunks made so far are those the controller has processed, those in the
channel and those in the queue, in this order. -/
structure MediaPath.Queued (s : StreamSealer) (m : MediaPath) (consumed : List Bytes) : Prop where
  sealer : m.host.sealer = sealerAfter prim s m.sealed
  chunker : m.host.chunker = chunkerAfter (.new DEFAULT_MAX_PAYLOAD) (messages prim s m.sealed)
  fit : ∀ msg ∈ messages prim s m.sealed, ((Chunker.new DEFAULT_MAX_PAYLOAD).parts msg).length ≤ 65535
  opener : m.opener = { key := s.key }
  flow : consumed ++ m.inFlight ++ m.host.queue = mediaChunks prim s m.sealed
  reassembler : m.reassembler = (reassembled {} consumed).1
  handed : m.handed = (reassembled {} consumed).2.flatMap (opened prim m.opener)

section Steps

variable {prim} {s : StreamSealer} {m : MediaPath} {consumed : List Bytes}

theorem positive_payload : 0 < (Chunker.new DEFAULT_MAX_PAYLOAD).maxPayload := by decide

theorem MediaPath.Queued.enqueue (h : m.Queued prim s consumed) {plaintext : Bytes} (fits : m.fits prim plaintext) :
    ({ m with host := m.host.enqueue prim plaintext, sealed := m.sealed ++ [plaintext] } : MediaPath).Queued prim s
      consumed := by
  have msgs : messages prim s (m.sealed ++ [plaintext]) =
      messages prim s m.sealed ++ [(m.host.sealer.seal prim plaintext).2] := by rw [messages_snoc, h.sealer]
  refine ⟨?_, ?_, fun msg hm => ?_, h.opener, ?_, h.reassembler, h.handed⟩
  · simp only [MediaHost.enqueue, sealerAfter, List.foldl_append, List.foldl_cons, List.foldl_nil]
    rw [h.sealer]
    rfl
  · simp only [msgs, chunkerAfter, List.foldl_append, List.foldl_cons, List.foldl_nil, MediaHost.enqueue]
    rw [h.chunker]
    rfl
  · simp only [msgs, List.mem_append, List.mem_singleton] at hm
    rcases hm with hm | rfl
    · exact h.fit msg hm
    · have := fits
      rw [MediaPath.fits, Chunker.length_chunk, Chunker.parts, h.chunker, maxPayload_chunkerAfter] at this
      exact this
  · simp only [mediaChunks, msgs, chunkAll_snoc, List.flatMap_append, List.flatMap_cons, List.flatMap_nil,
      List.append_nil, ← h.chunker, MediaHost.enqueue]
    rw [← List.append_assoc]
    exact congrArg (· ++ _) h.flow

theorem MediaPath.Queued.produce (h : m.Queued prim s consumed) {p : Product}
    (fits : ∀ plaintext, p.plaintext? = some plaintext → m.fits prim plaintext) :
    (m.step prim (.produce p)).Queued prim s consumed := by
  cases hp : p.plaintext? with
  | none => simpa only [MediaPath.step, hp] using h
  | some plaintext => simpa only [MediaPath.step, hp] using h.enqueue (fits plaintext hp)

theorem MediaPath.Queued.no_bye (h : m.Queued prim s consumed) {chunk : Bytes} (hc : chunk ∈ m.host.queue) :
    chunk ≠ SESSION_BYE := by
  refine chunk_ne_bye positive_payload (fun f hf => messages_ne_nil prim s m.sealed hf) ?_
  show chunk ∈ mediaChunks prim s m.sealed
  rw [← h.flow]
  exact List.mem_append_right _ hc

theorem MediaPath.Queued.drain (h : m.Queued prim s consumed) (accepts : List Bool) :
    (m.step prim (.drain accepts)).Queued prim s consumed := by
  have split := drainQueue_append accepts m.host.queue
  have kept : (drainQueue accepts m.host.queue).2.filter (· ≠ SESSION_BYE) = (drainQueue accepts m.host.queue).2 := by
    refine List.filter_eq_self.2 fun chunk hc => ?_
    simpa using h.no_bye (split ▸ List.mem_append_left _ hc)
  refine ⟨h.sealer, h.chunker, h.fit, h.opener, ?_, h.reassembler, h.handed⟩
  have flow := h.flow
  simp only [MediaPath.inFlight, MediaPath.step, List.filter_append, kept] at flow ⊢
  rw [← split] at flow
  simpa only [List.append_assoc] using flow

theorem MediaPath.Queued.bye (h : m.Queued prim s consumed) (accepted : Bool) :
    (m.step prim (.bye accepted)).Queued prim s consumed := by
  refine ⟨h.sealer, h.chunker, h.fit, h.opener, ?_, h.reassembler, h.handed⟩
  have flow := h.flow
  cases accepted
  · exact flow
  · simpa [MediaPath.inFlight, MediaPath.step] using flow

/-- The controller processes the front of the channel. -/
theorem MediaPath.Queued.turn (h : m.Queued prim s consumed) (n : Nat) :
    (m.step prim (.turn n)).Queued prim s (consumed ++ (m.channel.take n).filter (· ≠ SESSION_BYE)) := by
  refine ⟨h.sealer, h.chunker, h.fit, h.opener, ?_, ?_, ?_⟩
  · have flow := h.flow
    rw [MediaPath.inFlight, ← List.take_append_drop n m.channel, List.filter_append] at flow
    simpa only [MediaPath.inFlight, MediaPath.step, List.append_assoc] using flow
  · simp only [MediaPath.step, controllerBatch_eq, reassembled_append, h.reassembler]
  · simp only [MediaPath.step, controllerBatch_eq, reassembled_append, h.reassembler, h.handed, List.flatMap_append]

theorem MediaPath.Queued.message (h : m.Queued prim s consumed) :
    ∃ consumed', (m.step prim .message).Queued prim s consumed' := by
  cases channel : m.channel with
  | nil => exact ⟨consumed, by simpa only [MediaPath.step, channel] using h⟩
  | cons bytes rest =>
    have turn := h.turn 1
    have same := onMedia_eq prim m.opener m.reassembler bytes
    refine ⟨consumed ++ (m.channel.take 1).filter (· ≠ SESSION_BYE), ?_⟩
    simp only [MediaPath.step, channel, List.take_succ_cons, List.take_zero, List.drop_succ_cons, List.drop_zero,
      ← same] at turn ⊢
    exact ⟨turn.sealer, turn.chunker, turn.fit, turn.opener, turn.flow, turn.reassembler, turn.handed⟩

end Steps

theorem queued_of_reachable {prim : Primitives} {client : Client} {sessionKey : Bytes32} {m : MediaPath}
    (h : (mediaPath prim client sessionKey).Reachable m) : ∃ s consumed, m.Queued prim s consumed := by
  refine System.Reachable.invariant (P := fun m => ∃ s consumed, m.Queued prim s consumed) (fun m0 h0 => ?_)
    (fun m0 e _ ⟨s, consumed, h⟩ he => ?_) h
  · obtain ⟨s, o, hs, ho, rfl⟩ := h0
    obtain ⟨k, hk, rfl⟩ := Option.map_eq_some_iff.1 hs
    obtain ⟨k', hk', rfl⟩ := Option.map_eq_some_iff.1 ho
    cases hk.symm.trans hk'
    exact ⟨_, [], rfl, rfl, nofun, rfl, rfl, rfl, rfl⟩
  · cases e with
    | produce p => exact ⟨s, consumed, h.produce he.2⟩
    | drain accepts => exact ⟨s, consumed, h.drain accepts⟩
    | bye accepted => exact ⟨s, consumed, h.bye accepted⟩
    | turn n => exact ⟨s, _, h.turn n⟩
    | message => exact ⟨s, h.message⟩

/-- What the application gets is at all times a prefix of what the host sealed,
and all of it once the queue and the channel are empty. -/
theorem media_path_is_queue (prim : Primitives)
    (correct : ∀ key nonce p, nonce.length = 12 → prim.decrypt key nonce (prim.encrypt key nonce p) = some p)
    (client : Client) (sessionKey : Bytes32) {m : MediaPath} (h : (mediaPath prim client sessionKey).Reachable m) :
    m.handed <+: m.sealed ∧ (m.host.queue = [] → m.channel = [] → m.handed = m.sealed) := by
  obtain ⟨s, consumed, hq⟩ := queued_of_reachable h
  have honest : (messages prim s m.sealed).flatMap (opened prim m.opener) = m.sealed := by
    have each (sent) (hs : sent ∈ sealAll prim s m.sealed) : opened prim m.opener sent.2 = [sent.1] :=
      hq.opener ▸ opened_sealed prim s m.sealed hs (correct s.key)
    rw [messages, List.flatMap_map, List.flatMap_congr each, ← List.map_eq_flatMap, sealAll_plaintexts]
  have arrived : consumed <+: mediaChunks prim s m.sealed := by
    rw [← hq.flow, List.append_assoc]
    exact List.prefix_append _ _
  obtain ⟨part, all⟩ := reassembled_prefix positive_payload hq.fit {} arrived
  constructor
  · rw [hq.handed]
    obtain ⟨rest, hrest⟩ := part
    refine ⟨rest.flatMap (opened prim m.opener), ?_⟩
    rw [← List.flatMap_append, hrest, honest]
  · intro queue channel
    have flow := hq.flow
    rw [MediaPath.inFlight, channel, queue, List.filter_nil, List.append_nil, List.append_nil] at flow
    rw [hq.handed, all flow, honest]

/-! ## One unit -/

/-- A session of the sample primitives under the key of zeros. -/
def sampleMedia : MediaPath :=
  let key := Vector.ofFn fun i => (List.replicate 32 0 ++ STREAM_LABEL_MEDIA_H2C).getD i 0
  { host := { sealer := { key := key } }, opener := { key := key } }

/-- A unit is queued, the channel refuses it once, and the controller's second
turn finds it. -/
def sampleDelivery : List MediaEvent :=
  [.produce (.video [0, 0, 1]), .drain [], .turn 1, .drain [true], .turn 1]

theorem media_path_delivers_unit :
    ((mediaPath samplePrimitives .native (Vector.replicate 32 0)).after sampleMedia sampleDelivery).handed =
      [[0, 0, 1]] := by
  let M := mediaPath samplePrimitives .native (Vector.replicate 32 0)
  have start : M.init sampleMedia :=
    ⟨sampleMedia.host.sealer, sampleMedia.opener, by decide +kernel, by decide +kernel, rfl⟩
  have hv : M.Valid sampleMedia sampleDelivery := by
    refine ⟨⟨rfl, fun plaintext hp => ?_⟩, rfl, ⟨rfl, rfl⟩, rfl, ⟨rfl, rfl⟩, trivial⟩
    cases hp
    show (_ : Nat) ≤ _
    decide +kernel
  have all := (media_path_is_queue samplePrimitives (fun key _ p h => samplePrimitives_correct key h p) .native
    (Vector.replicate 32 0) ((System.Reachable.init start).after hv)).2
  exact (all (by decide +kernel) (by decide +kernel)).trans (by decide +kernel)

end ZortilWatch.Core
