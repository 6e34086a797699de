import ZortilWatch.Core.Reassembly

/-!
# File frames (`core/src/files.rs`)

A file travels in frames `[0xF7][id:u32][offset:u64][data]`, big-endian, inside
sealed messages. The first byte tells a frame from JSON and from video.
-/

namespace ZortilWatch.Core

def FILE_FRAME_MAGIC : UInt8 := 0xF7

/-- Bytes of a file in one frame. -/
def FILE_CHUNK : Nat := 32 * 1024

def encodeFileFrame (id : UInt32) (offset : UInt64) (data : Bytes) : Bytes :=
  FILE_FRAME_MAGIC :: (beBytes32 id ++ beBytes64 offset ++ data)

/-- `u64::from_be_bytes`. -/
def fromBeBytes64 (b0 b1 b2 b3 b4 b5 b6 b7 : UInt8) : UInt64 :=
  (b0.toUInt64 <<< 56) ||| (b1.toUInt64 <<< 48) ||| (b2.toUInt64 <<< 40) ||| (b3.toUInt64 <<< 32) |||
    (b4.toUInt64 <<< 24) ||| (b5.toUInt64 <<< 16) ||| (b6.toUInt64 <<< 8) ||| b7.toUInt64

def parseFileFrame (buf : Bytes) : Option (UInt32 × UInt64 × Bytes) :=
  match buf with
  | magic :: i0 :: i1 :: i2 :: i3 :: o0 :: o1 :: o2 :: o3 :: o4 :: o5 :: o6 :: o7 :: data =>
    if magic ≠ FILE_FRAME_MAGIC then none
    else some (fromBeBytes32 i0 i1 i2 i3, fromBeBytes64 o0 o1 o2 o3 o4 o5 o6 o7, data)
  | _ => none

theorem fromBeBytes64_beBytes64 (n : UInt64) :
    fromBeBytes64 (n >>> 56).toUInt8 (n >>> 48).toUInt8 (n >>> 40).toUInt8 (n >>> 32).toUInt8 (n >>> 24).toUInt8
      (n >>> 16).toUInt8 (n >>> 8).toUInt8 (n >>> 0).toUInt8 = n := by
  have hn := n.toNat_lt
  rw [← UInt64.toNat_inj, fromBeBytes64]
  simp only [UInt64.toNat_or, UInt64.toNat_shiftLeft, UInt8.toNat_toUInt64, UInt64.toNat_toUInt8,
    UInt64.toNat_shiftRight, UInt64.reduceToNat, Nat.reduceMod, Nat.shiftRight_eq_div_pow, Nat.shiftLeft_eq,
    Nat.or_assoc]
  rw [Nat.mod_eq_of_lt (a := _ * 2 ^ 56) (by omega), Nat.mod_eq_of_lt (a := _ * 2 ^ 48) (by omega),
    Nat.mod_eq_of_lt (a := _ * 2 ^ 40) (by omega), Nat.mod_eq_of_lt (a := _ * 2 ^ 32) (by omega),
    Nat.mod_eq_of_lt (a := _ * 2 ^ 24) (by omega), Nat.mod_eq_of_lt (a := _ * 2 ^ 16) (by omega),
    Nat.mod_eq_of_lt (a := _ * 2 ^ 8) (by omega)]
  rw [lor_low _ 8 (by omega), lor_low _ 16 (by omega), lor_low _ 24 (by omega), lor_low _ 32 (by omega),
    lor_low _ 40 (by omega), lor_low _ 48 (by omega), lor_low _ 56 (by omega)]
  exact sum_bytes hn

/-- A frame is read as it was written. -/
theorem parse_encodeFileFrame (id : UInt32) (offset : UInt64) (data : Bytes) :
    parseFileFrame (encodeFileFrame id offset data) = some (id, offset, data) := by
  have hid := ofBeBytes32 id
  have hoffset := fromBeBytes64_beBytes64 offset
  simp only [encodeFileFrame, beBytes32, beBytes64, List.map_cons, List.map_nil, List.cons_append, List.nil_append,
    parseFileFrame, ne_eq, not_true_eq_false, if_false, hid, hoffset]

end ZortilWatch.Core
