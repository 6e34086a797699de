import Mathlib.Data.List.Perm.Subperm
import ZortilWatch.Core.Stream

/-!
# Frames out of chunks

The reassembler counts the chunks of a frame and never looks at their index,
except that index 0 starts a frame. `reassembled_kept` says what it makes of any
sublist of the chunks of one frame: the frame if nothing is missing, nothing
otherwise. Frames are told apart by their number, so a loss in one is no loss in
another (`survivors_reassembled`).
-/

namespace ZortilWatch.Core

/-! ## Big-endian bytes read back -/

/-- Bits below a multiple of `2 ^ i` add to it. -/
theorem lor_low (a : Nat) {b : Nat} (i : Nat) (h : b < 2 ^ i) : a * 2 ^ i ||| b = a * 2 ^ i + b := by
  rw [← Nat.shiftLeft_eq, Nat.shiftLeft_add_eq_or_of_lt h]

theorem ofBeBytes16 (n : UInt16) : fromBeBytes16 (n >>> 8).toUInt8 n.toUInt8 = n := by
  have hn := n.toNat_lt
  rw [← UInt16.toNat_inj, fromBeBytes16]
  simp only [UInt16.toNat_or, UInt16.toNat_shiftLeft, UInt8.toNat_toUInt16, UInt16.toNat_toUInt8,
    UInt16.toNat_shiftRight, UInt16.reduceToNat, Nat.reduceMod, Nat.shiftRight_eq_div_pow, Nat.shiftLeft_eq]
  rw [Nat.mod_eq_of_lt (by omega), lor_low _ 8 (by omega)]
  omega

theorem ofBeBytes32 (n : UInt32) :
    fromBeBytes32 (n >>> 24).toUInt8 (n >>> 16).toUInt8 (n >>> 8).toUInt8 (n >>> 0).toUInt8 = n := by
  have hn := n.toNat_lt
  rw [← UInt32.toNat_inj, fromBeBytes32]
  simp only [UInt32.toNat_or, UInt32.toNat_shiftLeft, UInt8.toNat_toUInt32, UInt32.toNat_toUInt8,
    UInt32.toNat_shiftRight, UInt32.reduceToNat, Nat.reduceMod, Nat.shiftRight_eq_div_pow, Nat.shiftLeft_eq,
    Nat.or_assoc]
  rw [Nat.mod_eq_of_lt (a := _ * 2 ^ 24) (by omega), Nat.mod_eq_of_lt (a := _ * 2 ^ 16) (by omega),
    Nat.mod_eq_of_lt (a := _ * 2 ^ 8) (by omega)]
  rw [lor_low _ 8 (by omega), lor_low _ 16 (by omega), lor_low _ 24 (by omega)]
  omega

theorem beBytes32_injective {m n : UInt32} (h : beBytes32 m = beBytes32 n) : m = n := by
  simp only [beBytes32, List.map_cons, List.map_nil, List.cons.injEq, and_true] at h
  rw [← ofBeBytes32 m, ← ofBeBytes32 n, h.1, h.2.1, h.2.2.1, h.2.2.2]

theorem beBytes16_injective {m n : UInt16} (h : beBytes16 m = beBytes16 n) : m = n := by
  simp only [beBytes16, List.cons.injEq, and_true] at h
  rw [← ofBeBytes16 m, ← ofBeBytes16 n, h.1, h.2]

/-! ## The chunks of a frame -/

theorem chunksOf_cons {n : Nat} (hn : 0 < n) {frame : Bytes} (h : frame ≠ []) :
    chunksOf n frame = frame.take n :: chunksOf n (frame.drop n) := by
  have len : 0 < frame.length := List.length_pos_iff.2 h
  have count : (frame.length + n - 1) / n = ((frame.drop n).length + n - 1) / n + 1 := by
    rw [List.length_drop]
    rcases Nat.lt_or_ge frame.length n with less | more
    · rw [Nat.div_eq_of_lt (a := frame.length - n + n - 1) (by omega)]
      exact Nat.div_eq_of_lt_le (by omega) (by omega)
    · rw [← Nat.add_div_right _ hn]
      congr 1
      omega
  rw [chunksOf, count, List.range_succ_eq_map, List.map_cons, List.map_map]
  simp only [Nat.zero_mul, List.drop_zero, chunksOf, List.cons.injEq, true_and]
  refine List.map_congr_left fun i _ => ?_
  simp only [Function.comp_apply, List.drop_drop, Nat.succ_mul]
  rw [Nat.add_comm]

theorem chunksOf_nil {n : Nat} (hn : 0 < n) : chunksOf n [] = [] := by
  simp [chunksOf, Nat.div_eq_of_lt (show n - 1 < n by omega)]

theorem chunksOf_flatten {n : Nat} (hn : 0 < n) (frame : Bytes) : (chunksOf n frame).flatten = frame := by
  induction h : frame.length using Nat.strongRecOn generalizing frame with
  | _ len ih =>
    by_cases empty : frame = []
    · rw [empty, chunksOf_nil hn, List.flatten_nil]
    · have shorter : (frame.drop n).length < len := by
        have := List.length_pos_iff.2 empty
        rw [List.length_drop]
        omega
      rw [chunksOf_cons hn empty, List.flatten_cons, ih _ shorter _ rfl, List.take_append_drop]

/-- A chunk on the wire. -/
def chunkOf (seq : UInt32) (count : Nat) (part : Bytes × Nat) : Bytes :=
  beBytes32 seq ++ beBytes16 (UInt16.ofNat part.2) ++ beBytes16 (UInt16.ofNat count) ++ part.1

namespace Chunker

/-- The payloads a frame is cut into. -/
def parts (c : Chunker) (frame : Bytes) : List Bytes :=
  if frame.isEmpty then [[]] else chunksOf c.maxPayload frame

variable (c : Chunker) (frame : Bytes)

theorem chunk_eq :
    c.chunk frame = ({ c with seq := c.seq + 1 },
      (c.parts frame).zipIdx.map (chunkOf c.seq (c.parts frame).length)) := by
  unfold chunk parts
  simp only [List.mapIdx_eq_zipIdx_map]
  rfl

theorem length_chunk : (c.chunk frame).2.length = (c.parts frame).length := by simp [chunk_eq]

theorem parts_ne_nil (hc : 0 < c.maxPayload) : c.parts frame ≠ [] := by
  unfold parts
  split
  · exact List.cons_ne_nil _ _
  · rename_i h
    rw [chunksOf_cons hc (by simpa using h)]
    exact List.cons_ne_nil _ _

theorem parts_flatten (hc : 0 < c.maxPayload) : (c.parts frame).flatten = frame := by
  unfold parts
  split
  · rename_i h
    rw [List.isEmpty_iff.1 h]
    rfl
  · exact chunksOf_flatten hc frame

/-- The frames of a list with the chunks made of them, one after another. -/
def chunkAll (c : Chunker) : List Bytes → List (Bytes × List Bytes)
  | [] => []
  | frame :: frames => (frame, (c.chunk frame).2) :: (c.chunk frame).1.chunkAll frames

end Chunker

/-- A part of a frame that is not empty is not empty. -/
theorem part_ne_nil {c : Chunker} (hc : 0 < c.maxPayload) {frame : Bytes} (h : frame ≠ []) {part : Bytes}
    (hp : part ∈ c.parts frame) : part ≠ [] := by
  simp only [Chunker.parts, List.isEmpty_iff, h, if_false] at hp
  induction len : frame.length using Nat.strongRecOn generalizing frame with
  | _ n ih =>
    have positive : 0 < frame.length := List.length_pos_iff.2 h
    rw [chunksOf_cons hc h] at hp
    rcases List.mem_cons.1 hp with rfl | hp
    · rw [← List.length_pos_iff, List.length_take]
      omega
    · by_cases rest : frame.drop c.maxPayload = []
      · rw [rest, chunksOf_nil hc] at hp
        cases hp
      · exact ih _ (by rw [← len, List.length_drop]; omega) rest hp rfl

/-! ## One chunk -/

namespace Reassembler

/-- What `push` does with a chunk once its header is read. -/
def accept (r : Reassembler) (seq : UInt32) (idx count : UInt16) (payload : Bytes) : Reassembler × Option Bytes :=
  let r := if idx = 0 then { seq := some seq, count := count, got := 0, buf := [] } else r
  if r.seq ≠ some seq then (r, none)
  else
    let buf := r.buf ++ payload
    let got := r.got + 1
    if got ≥ r.count then ({ r with seq := none, got := got, buf := [] }, some buf)
    else ({ r with got := got, buf := buf }, none)

/-- A message without a whole header is ignored. -/
theorem push_short (r : Reassembler) {msg : Bytes} (short : msg.length < HEADER) : r.push msg = (r, none) :=
  if_pos short

theorem push_header (r : Reassembler) (s0 s1 s2 s3 i0 i1 c0 c1 : UInt8) (payload : Bytes) :
    r.push (s0 :: s1 :: s2 :: s3 :: i0 :: i1 :: c0 :: c1 :: payload) =
      r.accept (fromBeBytes32 s0 s1 s2 s3) (fromBeBytes16 i0 i1) (fromBeBytes16 c0 c1) payload := by
  have whole : ¬ (s0 :: s1 :: s2 :: s3 :: i0 :: i1 :: c0 :: c1 :: payload).length < HEADER := by
    simp only [List.length_cons, HEADER]
    omega
  exact if_neg whole

theorem push_chunkOf (r : Reassembler) (seq : UInt32) (count : Nat) (part : Bytes × Nat) :
    r.push (chunkOf seq count part) = r.accept seq (UInt16.ofNat part.2) (UInt16.ofNat count) part.1 := by
  simp only [chunkOf, beBytes32, beBytes16, List.map_cons, List.map_nil, List.cons_append, List.nil_append,
    push_header, ofBeBytes32, ofBeBytes16]

/-- The reassembler in the middle of a frame. -/
def gathering (seq : UInt32) (count got : Nat) (buf : Bytes) : Reassembler :=
  { seq := some seq, count := UInt16.ofNat count, got := UInt16.ofNat got, buf := buf }

/-- The reassembler behind a frame. -/
def idle (count : Nat) : Reassembler :=
  { seq := none, count := UInt16.ofNat count, got := UInt16.ofNat count, buf := [] }

variable {seq : UInt32} {count : Nat}

/-- A chunk that neither starts a frame nor belongs to the current one is ignored. -/
theorem accept_other {r : Reassembler} {idx count : UInt16} (hi : idx ≠ 0) (hr : r.seq ≠ some seq)
    (payload : Bytes) : r.accept seq idx count payload = (r, none) := by
  simp [accept, hi, hr]

theorem accept_first (r : Reassembler) (payload : Bytes) :
    r.accept seq 0 (UInt16.ofNat count) payload =
      (gathering seq count 0 []).accept seq 0 (UInt16.ofNat count) payload := by
  simp [accept]

/-- A chunk of the current frame is counted; the last one by count ends it. -/
theorem accept_gathering {got : Nat} (few : got < count) (fit : count ≤ 65535) (buf payload : Bytes) {idx : UInt16}
    (first : idx = 0 → got = 0 ∧ buf = []) :
    (gathering seq count got buf).accept seq idx (UInt16.ofNat count) payload =
      if got + 1 = count then (idle count, some (buf ++ payload))
      else (gathering seq count (got + 1) (buf ++ payload), none) := by
  have next : UInt16.ofNat got + 1 = UInt16.ofNat (got + 1) := by rw [UInt16.ofNat_add]; rfl
  have done : UInt16.ofNat (got + 1) ≥ UInt16.ofNat count ↔ got + 1 = count := by
    rw [ge_iff_le, UInt16.le_iff_toNat_le, UInt16.toNat_ofNat', UInt16.toNat_ofNat', Nat.mod_eq_of_lt (by omega),
      Nat.mod_eq_of_lt (by omega)]
    omega
  have start : (if idx = 0 then { seq := some seq, count := UInt16.ofNat count, got := 0, buf := [] }
      else gathering seq count got buf) = gathering seq count got buf := by
    split
    · rename_i h
      rw [(first h).1, (first h).2]
      rfl
    · rfl
  simp only [accept, start]
  simp only [gathering, ne_eq, not_true_eq_false, if_false, next, done]
  by_cases h : got + 1 = count
  · rw [if_pos h, if_pos h, h]
    rfl
  · rw [if_neg h, if_neg h]

/-! ## The chunks of one frame -/

/-- Indices that are no start. -/
def Later (parts : List (Bytes × Nat)) : Prop := ∀ p ∈ parts, UInt16.ofNat p.2 ≠ 0

theorem reassembled_other {r : Reassembler} (hr : r.seq ≠ some seq) {kept : List (Bytes × Nat)} (later : Later kept) :
    reassembled r (kept.map (chunkOf seq count)) = (r, []) := by
  induction kept with
  | nil => rfl
  | cons p kept ih =>
    have rest := ih fun q hq => later q (List.mem_cons_of_mem _ hq)
    simp only [List.map_cons, reassembled, push_chunkOf, accept_other (later p List.mem_cons_self) hr, rest]
    rfl

/-- Chunks of the current frame fill it up; the frame comes out if the count is
reached. -/
theorem reassembled_gathering {got : Nat} (buf : Bytes) {kept : List (Bytes × Nat)} (few : got < count)
    (fit : count ≤ 65535) (room : got + kept.length ≤ count) (later : Later kept) :
    reassembled (gathering seq count got buf) (kept.map (chunkOf seq count)) =
      if got + kept.length = count then (idle count, [buf ++ (kept.map Prod.fst).flatten])
      else (gathering seq count (got + kept.length) (buf ++ (kept.map Prod.fst).flatten), []) := by
  induction kept generalizing got buf with
  | nil => simp [reassembled, show got ≠ count by omega]
  | cons p kept ih =>
    have own : UInt16.ofNat p.2 = 0 → got = 0 ∧ buf = [] := fun h => absurd h (later p List.mem_cons_self)
    have later' : Later kept := fun q hq => later q (List.mem_cons_of_mem _ hq)
    rw [List.length_cons] at room ⊢
    simp only [List.map_cons, List.flatten_cons, reassembled, push_chunkOf, accept_gathering few fit _ _ own]
    by_cases full : got + 1 = count
    · have empty : kept = [] := List.length_eq_zero_iff.1 (by omega)
      subst empty
      simp [reassembled, full]
    · rw [if_neg full, ih (buf ++ p.1) (by omega) (by omega) later']
      simp only [List.append_assoc, Option.toList_none, List.nil_append]
      rw [show got + 1 + kept.length = got + (kept.length + 1) by omega]

/-- A first chunk with later ones of its frame. -/
theorem reassembled_first (r : Reassembler) (payload : Bytes) {kept : List (Bytes × Nat)} (fit : count ≤ 65535)
    (room : kept.length + 1 ≤ count) (later : Later kept) :
    reassembled r (((payload, 0) :: kept).map (chunkOf seq count)) =
      if kept.length + 1 = count then (idle count, [payload ++ (kept.map Prod.fst).flatten])
      else (gathering seq count (kept.length + 1) (payload ++ (kept.map Prod.fst).flatten), []) := by
  have zero : UInt16.ofNat 0 = 0 := rfl
  have one : (gathering seq count 0 []).accept seq 0 (UInt16.ofNat count) payload = _ :=
    accept_gathering (show 0 < count by omega) fit [] payload (fun _ => ⟨rfl, rfl⟩)
  simp only [List.map_cons, reassembled, push_chunkOf, zero, accept_first r, one, Nat.zero_add, List.nil_append]
  by_cases single : 1 = count
  · have empty : kept = [] := List.length_eq_zero_iff.1 (by omega)
    subst empty
    simp [reassembled, single]
  · rw [if_neg single, reassembled_gathering _ (by omega) fit (by omega) later]
    simp only [Option.toList_none, List.nil_append]
    rw [Nat.add_comm 1]

/-- The indices behind the first part of a frame are no start. -/
theorem later_zipIdx {parts : List Bytes} (fit : parts.length + 1 ≤ 65535) : Later (parts.zipIdx 1) := by
  intro p hp
  have bounds := List.mem_zipIdx hp
  rw [ne_eq, ← UInt16.toNat_inj, UInt16.toNat_ofNat', Nat.mod_eq_of_lt (by omega)]
  show p.2 ≠ 0
  omega

/-- What the reassembler makes of the chunks of one frame that are left. -/
theorem reassembled_kept {r : Reassembler} (hr : r.seq ≠ some seq) {parts : List Bytes} (ne : parts ≠ [])
    (fit : parts.length ≤ 65535) {kept : List Bytes}
    (hk : kept.Sublist (parts.zipIdx.map (chunkOf seq parts.length))) :
    (reassembled r kept).2 = (if kept = parts.zipIdx.map (chunkOf seq parts.length) then [parts.flatten] else []) ∧
      ((reassembled r kept).1.seq = none ∨ (reassembled r kept).1.seq = some seq ∨ (reassembled r kept).1 = r) := by
  obtain ⟨left, hleft, rfl⟩ := List.sublist_map_iff.1 hk
  cases parts with
  | nil => exact absurd rfl ne
  | cons payload parts =>
    rw [List.length_cons] at fit
    rw [List.zipIdx_cons, Nat.zero_add] at hleft hk ⊢
    have later : ∀ {l}, List.Sublist l (parts.zipIdx 1) → Later l := fun hl q hq =>
      later_zipIdx (by omega) q (hl.subset hq)
    have whole {l} (hl : List.Sublist l (parts.zipIdx 1)) : l.length = parts.length ↔ l = parts.zipIdx 1 :=
      ⟨fun h => hl.eq_of_length (by simpa using h), fun h => by simp [h]⟩
    rcases List.sublist_cons_iff.1 hleft with skipped | ⟨rest, rfl, hrest⟩
    · -- without its first chunk the frame is ignored
      rw [reassembled_other hr (later skipped), if_neg]
      · exact ⟨rfl, .inr (.inr rfl)⟩
      · intro all
        have lengths := congrArg List.length all
        have short := skipped.length_le
        simp at lengths short
        omega
    · have short := hrest.length_le
      rw [List.length_zipIdx] at short
      rw [List.length_cons, reassembled_first r payload (by omega) (by omega) (later hrest)]
      by_cases all : rest.length = parts.length
      · rw [(whole hrest).1 all, if_pos (by simp), if_pos rfl]
        simp [idle]
      · rw [if_neg (by omega), if_neg]
        · exact ⟨rfl, .inr (.inl rfl)⟩
        · intro same
          have := congrArg List.length same
          simp at this
          exact all this

end Reassembler

/-! ## Chunks are told apart -/

theorem take_chunkOf (seq : UInt32) (count : Nat) (part : Bytes × Nat) :
    (chunkOf seq count part).take 4 = beBytes32 seq := by
  simp [chunkOf, beBytes32]

theorem chunkOf_index {seq : UInt32} {count : Nat} {p q : Bytes × Nat}
    (h : chunkOf seq count p = chunkOf seq count q) : UInt16.ofNat p.2 = UInt16.ofNat q.2 := by
  have := congrArg (fun m => (m.drop 4).take 2) h
  exact beBytes16_injective (by simpa [chunkOf, beBytes32, beBytes16] using this)

theorem nodup_chunks (seq : UInt32) {parts : List Bytes} (fit : parts.length ≤ 65535) :
    (parts.zipIdx.map (chunkOf seq parts.length)).Nodup := by
  refine List.Nodup.map_on (fun p hp q hq h => ?_) (List.Nodup.of_map Prod.snd ?_)
  · have hi := List.mem_zipIdx' hp
    have hj := List.mem_zipIdx' hq
    have index := congrArg UInt16.toNat (chunkOf_index h)
    rw [UInt16.toNat_ofNat', UInt16.toNat_ofNat', Nat.mod_eq_of_lt (by omega), Nat.mod_eq_of_lt (by omega)] at index
    refine Prod.ext ?_ index
    rw [hi.2, hj.2]
    simp only [index]
  · rw [List.zipIdx_map_snd]
    exact List.nodup_range'

namespace Chunker

variable {c : Chunker}

/-- The chunks of a frame start with its number, and the numbers count up. -/
theorem number_of_mem {frames : List Bytes} {sent : Bytes × List Bytes} (hs : sent ∈ c.chunkAll frames)
    {chunk : Bytes} (hc : chunk ∈ sent.2) :
    ∃ i < frames.length, chunk.take 4 = beBytes32 (c.seq + UInt32.ofNat i) := by
  induction frames generalizing c with
  | nil => cases hs
  | cons frame frames ih =>
    rcases List.mem_cons.1 hs with rfl | hs
    · rw [chunk_eq] at hc
      obtain ⟨p, -, rfl⟩ := List.mem_map.1 hc
      exact ⟨0, Nat.zero_lt_succ _, by rw [take_chunkOf]; simp⟩
    · obtain ⟨i, hi, number⟩ := ih hs
      refine ⟨i + 1, Nat.succ_lt_succ hi, ?_⟩
      rw [number, chunk_eq, UInt32.ofNat_add, UInt32.add_assoc, UInt32.add_comm 1]
      rfl

/-- Fewer than 2^32 frames later the number is another one. -/
theorem number_ne (seq : UInt32) {i : Nat} (few : i + 1 < 2 ^ 32) : seq + 1 + UInt32.ofNat i ≠ seq := by
  intro h
  have := congrArg UInt32.toNat h
  have hs := seq.toNat_lt
  rw [UInt32.toNat_add, UInt32.toNat_add, UInt32.toNat_ofNat', Nat.mod_eq_of_lt (a := i) (by omega)] at this
  simp only [UInt32.reduceToNat] at this
  omega

/-- No chunk of a frame is a chunk of a later one. -/
theorem chunk_disjoint {frame : Bytes} {frames : List Bytes} (few : frames.length + 1 < 2 ^ 32) {m : Bytes}
    (hm : m ∈ (c.chunk frame).2) : m ∉ ((c.chunk frame).1.chunkAll frames).flatMap Prod.snd := by
  intro later
  obtain ⟨sent, hs, hin⟩ := List.mem_flatMap.1 later
  obtain ⟨i, hi, number⟩ := number_of_mem hs hin
  rw [chunk_eq] at hm number
  obtain ⟨p, -, rfl⟩ := List.mem_map.1 hm
  rw [take_chunkOf] at number
  exact number_ne c.seq (by omega) (beBytes32_injective number).symm

end Chunker

/-! ## Loss -/

open Reassembler in
/-- Of the frames of one chunker, fewer than 2^32 of at most 65535 chunks each, any
loss leaves exactly those that lost no chunk. -/
theorem survivors_of_chunker {c : Chunker} (hc : 0 < c.maxPayload) {frames : List Bytes}
    (few : frames.length < 2 ^ 32) (fit : ∀ frame ∈ frames, (c.parts frame).length ≤ 65535) {r : Reassembler}
    (fresh : ∀ i < frames.length, r.seq ≠ some (c.seq + UInt32.ofNat i)) {survivors : List Bytes}
    (lost : survivors.Sublist ((c.chunkAll frames).flatMap Prod.snd)) :
    (reassembled r survivors).2 =
      ((c.chunkAll frames).filter fun sent => ∀ chunk ∈ sent.2, chunk ∈ survivors).map Prod.fst := by
  induction frames generalizing c r survivors with
  | nil =>
    rw [List.sublist_nil.1 lost]
    rfl
  | cons frame frames ih =>
    rw [List.length_cons] at few fresh
    rw [Chunker.chunkAll, List.flatMap_cons] at lost
    obtain ⟨kept, rest, rfl, hkept, hrest⟩ := List.sublist_append_iff.1 lost
    have disjoint {m : Bytes} (hm : m ∈ (c.chunk frame).2) (hr : m ∈ rest) : False :=
      Chunker.chunk_disjoint few hm (hrest.subset hr)
    have own : (c.chunk frame).2 = (c.parts frame).zipIdx.map (chunkOf c.seq (c.parts frame).length) := by
      rw [Chunker.chunk_eq]
    have fitFrame := fit frame List.mem_cons_self
    have number : r.seq ≠ some c.seq := by simpa using fresh 0 (Nat.zero_lt_succ _)
    obtain ⟨out, after⟩ := reassembled_kept number (c.parts_ne_nil frame hc) fitFrame (own ▸ hkept)
    -- the frame is whole exactly if the survivors hold all its chunks
    have whole : kept = (c.chunk frame).2 ↔ ∀ m ∈ (c.chunk frame).2, m ∈ kept ++ rest := by
      refine ⟨fun h m hm => List.mem_append_left _ (h ▸ hm), fun all => hkept.eq_of_length_le ?_⟩
      have nodup : (c.chunk frame).2.Nodup := own ▸ nodup_chunks c.seq fitFrame
      refine (nodup.subperm fun m hm => ?_).length_le
      exact (List.mem_append.1 (all m hm)).resolve_right (disjoint hm)
    have others (sent) (hs : sent ∈ (c.chunk frame).1.chunkAll frames) :
        (∀ m ∈ sent.2, m ∈ kept ++ rest) ↔ ∀ m ∈ sent.2, m ∈ rest := by
      refine forall₂_congr fun m hm => ?_
      rw [List.mem_append]
      refine or_iff_right fun hk => ?_
      exact Chunker.chunk_disjoint few (hkept.subset hk) (List.mem_flatMap.2 ⟨sent, hs, hm⟩)
    have next : (c.chunk frame).1 = { c with seq := c.seq + 1 } := by rw [Chunker.chunk_eq]
    have tail := ih (c := (c.chunk frame).1) (by rw [next]; exact hc) (by omega)
      (fun f hf => by rw [next]; exact fit f (List.mem_cons_of_mem _ hf)) (r := (reassembled r kept).1)
      (fun i hi => ?_) hrest
    · rw [reassembled_append, tail, out, Chunker.chunkAll, List.filter_cons]
      rw [List.filter_congr fun sent hs => decide_eq_decide.2 (others sent hs)]
      simp only [← own, whole, decide_eq_true_eq]
      split
      · rw [c.parts_flatten frame hc]
        rfl
      · rfl
    · rw [next]
      rcases after with gone | current | same
      · rw [gone]
        exact nofun
      · rw [current]
        exact fun h => Chunker.number_ne c.seq (by omega) (Option.some.inj h).symm
      · rw [same]
        have := fresh (i + 1) (by omega)
        rwa [UInt32.ofNat_add, UInt32.add_comm (UInt32.ofNat i), ← UInt32.add_assoc] at this

theorem nodup_chunkAll {c : Chunker} {frames : List Bytes} (few : frames.length < 2 ^ 32)
    (fit : ∀ frame ∈ frames, (c.parts frame).length ≤ 65535) : ((c.chunkAll frames).flatMap Prod.snd).Nodup := by
  induction frames generalizing c with
  | nil => exact List.nodup_nil
  | cons frame frames ih =>
    rw [List.length_cons] at few
    rw [Chunker.chunkAll, List.flatMap_cons]
    refine List.Nodup.append ?_ ?_ fun m hm => Chunker.chunk_disjoint few hm
    · rw [Chunker.chunk_eq]
      exact nodup_chunks c.seq (fit frame List.mem_cons_self)
    · refine ih (by omega) fun f hf => ?_
      rw [Chunker.chunk_eq]
      exact fit f (List.mem_cons_of_mem _ hf)

theorem positive_new (maxPayload : Nat) : 0 < (Chunker.new maxPayload).maxPayload :=
  Nat.lt_of_lt_of_le Nat.zero_lt_one (Nat.le_max_right maxPayload 1)

/-- The chunks are all different, and whatever part of them arrives in order, a
fresh reassembler returns the frames that arrived whole, in order, and nothing
else. -/
theorem survivors_reassembled (maxPayload : Nat) {frames : List Bytes} (few : frames.length < 2 ^ 32)
    (fit : ∀ frame ∈ frames, ((Chunker.new maxPayload).chunk frame).2.length ≤ 65535) {survivors : List Bytes}
    (lost : survivors.Sublist (((Chunker.new maxPayload).chunkAll frames).flatMap Prod.snd)) :
    (((Chunker.new maxPayload).chunkAll frames).flatMap Prod.snd).Nodup ∧
      (reassembled {} survivors).2 = (((Chunker.new maxPayload).chunkAll frames).filter fun sent =>
        ∀ chunk ∈ sent.2, chunk ∈ survivors).map Prod.fst := by
  have fitParts (frame) (hf : frame ∈ frames) : ((Chunker.new maxPayload).parts frame).length ≤ 65535 := by
    rw [← Chunker.length_chunk]
    exact fit frame hf
  exact ⟨nodup_chunkAll few fitParts,
    survivors_of_chunker (positive_new maxPayload) few fitParts (fun _ _ h => Option.some_ne_none _ h.symm) lost⟩

/-- Two frames, of which the first loses its first chunk. -/
theorem survivors_reassembled_after_loss :
    (reassembled {} (((Chunker.new 1).chunkAll [[1, 2], [3]]).flatMap Prod.snd |>.drop 1)).2 = [[3]] := by
  have few : ([[1, 2], [3]] : List Bytes).length < 2 ^ 32 := by decide
  exact (survivors_reassembled 1 few (by decide) (List.drop_sublist 1 _)).2.trans (by decide)

end ZortilWatch.Core
