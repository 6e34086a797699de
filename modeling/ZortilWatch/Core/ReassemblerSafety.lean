import ZortilWatch.Lib.Runs
import ZortilWatch.Core.Reassembly

/-!
# The reassembler on any input

A peer writes the headers of its chunks as it likes. With the chunks taken since the
last one of index 0 recorded beside it, the reassembler is determined by that record:
while a frame is open it counts and holds exactly these chunks, fewer than their first
one announces (`Gathered`). So its count never overflows, and a frame is returned with the
chunk that makes the record complete (`reassembler_safe`).

The sender counts chunks in 16 bits too, and independently. A frame of more chunks than
that is always returned cut short (`oversized_truncated`).
-/

namespace ZortilWatch.Core

/-- A message of the data channel, taken apart. -/
structure Chunk where
  seq : UInt32
  idx : UInt16
  count : UInt16
  payload : Bytes
  deriving DecidableEq

/-- The header of a message that has one. -/
def Chunk.parse (msg : Bytes) : Option Chunk :=
  match msg with
  | s0 :: s1 :: s2 :: s3 :: i0 :: i1 :: c0 :: c1 :: payload =>
    some {
      seq := fromBeBytes32 s0 s1 s2 s3
      idx := fromBeBytes16 i0 i1
      count := fromBeBytes16 c0 c1
      payload := payload }
  | _ => none

/-- The payloads of chunks, one after another. -/
def payloads (log : List Chunk) : Bytes := log.flatMap (·.payload)

namespace Reassembler

/-- `push` goes on to its buffer. -/
def Accepts (r : Reassembler) (c : Chunk) : Prop := c.idx = 0 ∨ r.seq = some c.seq

instance (r : Reassembler) (c : Chunk) : Decidable (r.Accepts c) :=
  inferInstanceAs (Decidable (c.idx = 0 ∨ r.seq = some c.seq))

/-- What of a record a chunk goes behind: nothing, if it starts a frame. -/
def restartLog (c : Chunk) (log : List Chunk) : List Chunk := if c.idx = 0 then [] else log

/-- The chunks accepted since the last one of index 0, that one included. -/
def record (r : Reassembler) (msg : Bytes) (log : List Chunk) : List Chunk :=
  match Chunk.parse msg with
  | none => log
  | some c => if r.Accepts c then restartLog c log ++ [c] else log

/-- A reassembler fed with any messages. -/
def reassembly : System Reassembler Bytes where
  init r := r = {}
  enabled _ _ := True
  step r msg := (r.push msg).1

/-- The same with its record. -/
def recorded : System (Reassembler × List Chunk) Bytes := reassembly.recording (fun _ => []) record

/-- While a frame is open, what is held of it is what was accepted since its start. -/
structure Gathered (r : Reassembler) (log : List Chunk) : Prop where
  starts : ∀ first ∈ log.head?, first.idx = 0 ∧ ∀ c ∈ log, c.seq = first.seq
  opened : ∀ seq, r.seq = some seq → r.got.toNat = log.length ∧ r.got < r.count ∧ r.buf = payloads log ∧
    ∃ first ∈ log.head?, first.seq = seq ∧ first.count = r.count
  /-- A frame that is returned takes the buffer with it. -/
  closed : r.seq = none → r.buf = []

/-- Counting an accepted chunk does not overflow, and a frame that is returned is
complete: as many chunks as the first one announces, at least one. -/
structure SafeStep (r : Reassembler) (log : List Chunk) (msg : Bytes) : Prop where
  counts : ∀ c, Chunk.parse msg = some c → r.Accepts c → (if c.idx = 0 then 0 else r.got.toNat) + 1 < 2 ^ 16
  completes : ∀ frame, (r.push msg).2 = some frame → frame = payloads (record r msg log) ∧
    ∃ first ∈ (record r msg log).head?, (record r msg log).length = max first.count.toNat 1

variable {r : Reassembler} {log : List Chunk} {c : Chunk} {msg : Bytes}

theorem push_eq (r : Reassembler) (msg : Bytes) : r.push msg =
    match Chunk.parse msg with
    | none => (r, none)
    | some c => r.accept c.seq c.idx c.count c.payload := by
  match msg with
  | s0 :: s1 :: s2 :: s3 :: i0 :: i1 :: c0 :: c1 :: payload => exact r.push_header s0 s1 s2 s3 i0 i1 c0 c1 payload
  | [] | [_] | [_, _] | [_, _, _] | [_, _, _, _] | [_, _, _, _, _] | [_, _, _, _, _, _] | [_, _, _, _, _, _, _] =>
    exact r.push_short (by simp [HEADER])

/-- The frame a chunk belongs to, begun anew by index 0. -/
def restart (r : Reassembler) (c : Chunk) : Reassembler :=
  if c.idx = 0 then { seq := some c.seq, count := c.count, got := 0, buf := [] } else r

/-- The last lines of `push`. -/
def take (r : Reassembler) (payload : Bytes) : Reassembler × Option Bytes :=
  if r.got + 1 ≥ r.count then ({ r with seq := none, got := r.got + 1, buf := [] }, some (r.buf ++ payload))
  else ({ r with got := r.got + 1, buf := r.buf ++ payload }, none)

theorem accept_eq (r : Reassembler) (c : Chunk) : r.accept c.seq c.idx c.count c.payload =
    if r.Accepts c then (r.restart c).take c.payload else (r, none) := by
  by_cases zero : c.idx = 0
  · rw [if_pos (.inl zero)]
    simp [accept, restart, take, zero]
  · by_cases same : r.seq = some c.seq
    · rw [if_pos (.inr same)]
      simp [accept, restart, take, zero, same]
    · rw [accept_other zero same, if_neg]
      exact fun h => h.elim zero same

/-- A frame that a chunk is about to be taken into. -/
structure Filling (r : Reassembler) (log : List Chunk) (c : Chunk) : Prop where
  seq : r.seq = some c.seq
  got : r.got.toNat = log.length
  buf : r.buf = payloads log
  few : log = [] ∨ r.got < r.count
  first : ∃ first ∈ (log ++ [c]).head?, first.idx = 0 ∧ first.seq = c.seq ∧ first.count = r.count
  own : ∀ c' ∈ log, c'.seq = c.seq

theorem Gathered.filling (h : Gathered r log) (accepted : r.Accepts c) :
    Filling (r.restart c) (restartLog c log) c := by
  by_cases zero : c.idx = 0
  · rw [restart, restartLog, if_pos zero, if_pos zero]
    exact ⟨rfl, rfl, rfl, .inl rfl, ⟨c, rfl, zero, rfl, rfl⟩, fun _ mem => absurd mem List.not_mem_nil⟩
  · rw [restart, restartLog, if_neg zero, if_neg zero]
    have same : r.seq = some c.seq := accepted.resolve_left zero
    obtain ⟨got, few, buf, first, head, seq, count⟩ := h.opened c.seq same
    obtain ⟨idx, own⟩ := h.starts first head
    refine ⟨same, got, buf, .inr few, ⟨first, ?_, idx, seq, count⟩, fun c' mem => (own c' mem).trans seq⟩
    rw [List.head?_append, Option.mem_def.1 head]
    rfl

/-- There is room for one more in the 16-bit count. -/
theorem Filling.room (h : Filling r log c) : log.length + 1 < 2 ^ 16 := by
  rcases h.few with rfl | few
  · decide
  · have count := r.count.toNat_lt
    have few : r.got.toNat < r.count.toNat := few
    rw [h.got] at few
    omega

/-- Taking a chunk keeps the record, and a frame comes out when the record is complete. -/
theorem Filling.take (h : Filling r log c) :
    Gathered (r.take c.payload).1 (log ++ [c]) ∧
      ∀ frame, (r.take c.payload).2 = some frame → frame = payloads (log ++ [c]) ∧
        ∃ first ∈ (log ++ [c]).head?, (log ++ [c]).length = max first.count.toNat 1 := by
  obtain ⟨first, head, idx, seq, count⟩ := h.first
  have room := h.room
  have next : (r.got + 1).toNat = log.length + 1 := by
    rw [UInt16.toNat_add, h.got]
    exact Nat.mod_eq_of_lt room
  have held : r.buf ++ c.payload = payloads (log ++ [c]) := by
    rw [h.buf, payloads, payloads, List.flatMap_append, List.flatMap_singleton]
  have starts : ∀ first' ∈ (log ++ [c]).head?, first'.idx = 0 ∧ ∀ c' ∈ log ++ [c], c'.seq = first'.seq := by
    intro first' head'
    cases Option.mem_unique head head'
    refine ⟨idx, fun c' mem => ?_⟩
    rw [seq]
    rcases List.mem_append.1 mem with mem | mem
    · exact h.own c' mem
    · rw [List.mem_singleton.1 mem]
  unfold Reassembler.take
  split
  · rename_i full
    have full : r.count.toNat ≤ log.length + 1 := next ▸ UInt16.le_iff_toNat_le.1 full
    refine ⟨⟨starts, nofun, fun _ => rfl⟩, fun frame returned => ?_⟩
    cases returned
    refine ⟨held, first, head, ?_⟩
    rw [List.length_append, List.length_singleton, count]
    rcases h.few with rfl | few
    · rw [List.length_nil] at full ⊢
      omega
    · have few : r.got.toNat < r.count.toNat := few
      rw [h.got] at few
      omega
  · rename_i more
    have more : log.length + 1 < r.count.toNat := by
      rw [← next]
      exact UInt16.lt_iff_toNat_lt.1 (UInt16.not_le.1 more)
    refine ⟨⟨starts, fun seq' same => ?_, fun none_ => ?_⟩, nofun⟩
    · rw [h.seq] at same
      cases same
      refine ⟨?_, ?_, held, first, head, seq, count⟩
      · rw [next, List.length_append, List.length_singleton]
      · rw [UInt16.lt_iff_toNat_lt, next]
        exact more
    · rw [h.seq] at none_
      cases none_

/-- One message, whatever it is. -/
theorem Gathered.push (h : Gathered r log) (msg : Bytes) :
    Gathered (r.push msg).1 (record r msg log) ∧ SafeStep r log msg := by
  cases parsed : Chunk.parse msg with
  | none =>
    have pushed : r.push msg = (r, none) := by rw [push_eq, parsed]
    have same : record r msg log = log := by rw [record, parsed]
    rw [pushed, same]
    refine ⟨h, fun c parsed' => ?_, fun frame returned => ?_⟩
    · rw [parsed] at parsed'
      cases parsed'
    · rw [pushed] at returned
      cases returned
  | some c =>
    by_cases accepted : r.Accepts c
    · have pushed : r.push msg = (r.restart c).take c.payload := by
        rw [push_eq, parsed]
        exact (accept_eq r c).trans (if_pos accepted)
      have grown : record r msg log = restartLog c log ++ [c] := by
        rw [record, parsed]
        exact if_pos accepted
      have filling := h.filling accepted
      obtain ⟨gathered, returns⟩ := filling.take
      rw [pushed, grown]
      refine ⟨gathered, fun c' parsed' _ => ?_, fun frame returned => ?_⟩
      · cases Option.some.inj (parsed.symm.trans parsed')
        have room := filling.room
        rw [← filling.got, restart] at room
        split
        · rename_i zero
          rw [if_pos zero] at room
          exact room
        · rename_i later
          rw [if_neg later] at room
          exact room
      · rw [pushed] at returned
        rw [grown]
        exact returns frame returned
    · have pushed : r.push msg = (r, none) := by
        rw [push_eq, parsed]
        exact (accept_eq r c).trans (if_neg accepted)
      have same : record r msg log = log := by
        rw [record, parsed]
        exact if_neg accepted
      rw [pushed, same]
      refine ⟨h, fun c' parsed' accepted' => ?_, fun frame returned => ?_⟩
      · cases Option.some.inj (parsed.symm.trans parsed')
        exact absurd accepted' accepted
      · rw [pushed] at returned
        cases returned

/-- From a fresh reassembler on, whatever is pushed: the state of every open frame is
that of its accepted chunks, the count never overflows, and no frame is returned before
it is complete. -/
theorem reassembler_safe (msgs : List Bytes) :
    recorded.AllStates (fun p => Gathered p.1 p.2) ({}, []) msgs ∧
      recorded.AllSteps (fun p msg => SafeStep p.1 p.2 msg) ({}, []) msgs := by
  have start : Gathered ({} : Reassembler) [] := ⟨nofun, nofun, fun _ => rfl⟩
  generalize ({} : Reassembler) = r at start
  generalize ([] : List Chunk) = log at start
  induction msgs generalizing r log with
  | nil => exact ⟨start, trivial⟩
  | cons msg msgs ih =>
    obtain ⟨next, safe⟩ := start.push msg
    obtain ⟨states, steps⟩ := ih _ _ next
    exact ⟨⟨start, states⟩, safe, steps⟩

/-- Behind a frame that was returned, the buffer is empty and not the payloads
accepted since its start. -/
theorem returned_frame_leaves_buffer :
    ¬ ∀ msgs, recorded.AllStates (fun p => p.1.buf = payloads p.2) ({}, []) msgs := by
  intro all
  let behind := recorded.step ({}, []) [0, 0, 0, 0, 0, 0, 0, 1, 42]
  have same : behind.1.buf = payloads behind.2 := (all [[0, 0, 0, 0, 0, 0, 0, 1, 42]]).2
  exact absurd same (by decide)

end Reassembler

/-! ## Frames of more chunks than 16 bits count -/

section Oversized

open Reassembler

/-- The count of a chunk is cut to 16 bits. -/
theorem chunkOf_mod (seq : UInt32) (n : Nat) : chunkOf seq (n % 2 ^ 16) = chunkOf seq n := by
  funext part
  rw [chunkOf, chunkOf, UInt16.ofNat_mod_size]

/-- As many parts as their count says are returned as they are complete. -/
theorem reassembled_counted (r : Reassembler) (seq : UInt32) {head : List Bytes} (some_ : head ≠ [])
    (fit : head.length ≤ 65535) :
    (reassembled r (head.zipIdx.map (chunkOf seq head.length))).2 = [head.flatten] := by
  obtain ⟨part, rest, rfl⟩ := List.exists_cons_of_ne_nil some_
  rw [List.length_cons] at fit ⊢
  rw [List.zipIdx_cons, Nat.zero_add, reassembled_first r part fit (by rw [List.length_zipIdx]) (later_zipIdx fit),
    List.length_zipIdx, if_pos rfl, List.zipIdx_map_fst, List.flatten_cons]

/-- Of parts past the 16-bit count, the reassembler returns the first few: as many as
there are more than a multiple of 2^16, at least one. -/
theorem oversized_returns (r : Reassembler) (seq : UInt32) {parts : List Bytes} (many : 65535 < parts.length) :
    (parts.take (max (parts.length % 2 ^ 16) 1)).flatten ∈
      (reassembled r (parts.zipIdx.map (chunkOf seq parts.length))).2 := by
  rw [← chunkOf_mod]
  generalize count_eq : parts.length % 2 ^ 16 = count
  have fit : count ≤ 65535 := by omega
  -- the first few and the others, of which nothing need be known
  have split : parts.take (max count 1) ++ parts.drop (max count 1) = parts := List.take_append_drop _ _
  generalize head_eq : parts.take (max count 1) = head at split
  have length : head.length = max count 1 := by
    rw [← head_eq, List.length_take]
    omega
  have some_ : head ≠ [] := List.ne_nil_of_length_pos (by omega)
  rw [← split, List.zipIdx_append, List.map_append, reassembled_append]
  refine List.mem_append_left _ ?_
  rcases Nat.eq_zero_or_pos count with rfl | positive
  · -- announced as a frame of no chunks, it ends with its first one
    obtain ⟨part, rest, rfl⟩ := List.exists_cons_of_ne_nil some_
    obtain rfl : rest = [] := List.length_eq_zero_iff.1 (by rw [List.length_cons] at length; omega)
    simp [reassembled, push_chunkOf, accept]
  · rw [show count = head.length by omega, reassembled_counted r seq some_ (by omega)]
    exact List.mem_singleton_self _

/-- Fewer parts make a shorter frame. -/
theorem take_parts_ne {c : Chunker} (hc : 0 < c.maxPayload) {frame : Bytes} {n : Nat}
    (few : n < (c.parts frame).length) (some_ : frame ≠ []) : ((c.parts frame).take n).flatten ≠ frame := by
  intro same
  have whole := c.parts_flatten frame hc
  rw [← List.take_append_drop n (c.parts frame), List.flatten_append, same] at whole
  have nothing : ((c.parts frame).drop n).flatten = [] := List.append_right_eq_self.1 whole
  obtain ⟨part, rest, behind⟩ := List.exists_cons_of_ne_nil (List.ne_nil_of_length_pos (l := (c.parts frame).drop n)
    (by rw [List.length_drop]; omega))
  rw [behind, List.flatten_cons, List.append_eq_nil_iff] at nothing
  have mem : part ∈ (c.parts frame).drop n := behind ▸ List.mem_cons_self
  exact part_ne_nil hc some_ (List.mem_of_mem_drop mem) nothing.1

theorem cut_short {c : Chunker} (hc : 0 < c.maxPayload) (r : Reassembler) {frame : Bytes}
    (many : 65535 < (c.chunk frame).2.length) : ∃ out ∈ (reassembled r (c.chunk frame).2).2, out ≠ frame := by
  have own : (c.chunk frame).2 = (c.parts frame).zipIdx.map (chunkOf c.seq (c.parts frame).length) := by
    rw [Chunker.chunk_eq]
  rw [Chunker.length_chunk] at many
  have some_ : frame ≠ [] := by
    rintro rfl
    rw [Chunker.parts, List.isEmpty_nil, if_pos rfl] at many
    exact absurd many (by decide)
  rw [own]
  exact ⟨_, oversized_returns r c.seq many, take_parts_ne hc (by omega) some_⟩

/-- Every frame of more than 65535 chunks is returned cut short, whatever the chunker
and the reassembler did before. -/
theorem oversized_truncated (maxPayload : Nat) (seq : UInt32) (r : Reassembler) (frame : Bytes)
    (many : 65535 < ({ Chunker.new maxPayload with seq := seq }.chunk frame).2.length) :
    ¬ ∀ out ∈ (reassembled r ({ Chunker.new maxPayload with seq := seq }.chunk frame).2).2, out = frame := by
  obtain ⟨out, mem, differs⟩ := cut_short (c := { Chunker.new maxPayload with seq := seq })
    (positive_new maxPayload) r many
  exact fun all => differs (all out mem)

/-- A frame of bytes cut into chunks of one. -/
theorem length_chunk_singles (n : Nat) : ((Chunker.new 1).chunk (List.replicate (n + 1) 0)).2.length = n + 1 := by
  rw [Chunker.length_chunk, Chunker.parts, List.replicate_succ, List.isEmpty_cons, if_neg Bool.false_ne_true,
    ← List.replicate_succ, chunksOf, List.length_map, List.length_range, List.length_replicate]
  exact Nat.div_one _

/-- 65537 bytes in chunks of one, behind which nothing was sent. -/
theorem oversized_truncated_65537 :
    ¬ ∀ out ∈ (reassembled {} ((Chunker.new 1).chunk (List.replicate 65537 0)).2).2,
      out = List.replicate 65537 0 :=
  oversized_truncated 1 0 {} (List.replicate 65537 0) (by
    have length := length_chunk_singles 65536
    exact length ▸ Nat.lt_succ_of_lt (Nat.lt_succ_self 65535))

/-- 65536 bytes in chunks of one announce a frame of no chunks. -/
theorem oversized_frame_cut :
    ¬ ∀ maxPayload frame, 65535 < ((Chunker.new maxPayload).chunk frame).2.length →
      ∀ out ∈ (reassembled {} ((Chunker.new maxPayload).chunk frame).2).2, out = frame := by
  intro never
  have many : 65535 < ((Chunker.new 1).chunk (List.replicate 65536 0)).2.length :=
    length_chunk_singles 65535 ▸ Nat.lt_succ_self 65535
  obtain ⟨out, mem, differs⟩ := cut_short (positive_new 1) {} many
  exact differs (never 1 _ many out mem)

end Oversized

end ZortilWatch.Core
