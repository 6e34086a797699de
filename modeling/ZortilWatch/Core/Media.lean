import ZortilWatch.Core.Crypto

/-!
# Framing of messages on the data channel (`core/src/media.rs`)

A frame is cut into chunks `[seq:u32][idx:u16][count:u16][payload]`, big-endian,
and put together again by a reassembler that expects them in order.
-/

namespace ZortilWatch.Core

def DEFAULT_MAX_PAYLOAD : Nat := 16 * 1024

/-- seq(4) + idx(2) + count(2) -/
def HEADER : Nat := 8

structure Chunker where
  seq : UInt32 := 0
  maxPayload : Nat
  deriving DecidableEq

/-- `u32::to_be_bytes`. -/
def beBytes32 (n : UInt32) : Bytes := ([24, 16, 8, 0] : List UInt32).map fun s => (n >>> s).toUInt8

/-- `u16::to_be_bytes`. -/
def beBytes16 (n : UInt16) : Bytes := [(n >>> 8).toUInt8, n.toUInt8]

/-- `u32::from_be_bytes`. -/
def fromBeBytes32 (b0 b1 b2 b3 : UInt8) : UInt32 :=
  (b0.toUInt32 <<< 24) ||| (b1.toUInt32 <<< 16) ||| (b2.toUInt32 <<< 8) ||| b3.toUInt32

/-- `u16::from_be_bytes`. -/
def fromBeBytes16 (b0 b1 : UInt8) : UInt16 := (b0.toUInt16 <<< 8) ||| b1.toUInt16

/-- `slice::chunks`. -/
def chunksOf (n : Nat) (frame : Bytes) : List Bytes :=
  (List.range ((frame.length + n - 1) / n)).map fun i => (frame.drop (i * n)).take n

namespace Chunker

def new (maxPayload : Nat) : Chunker := { maxPayload := max maxPayload 1 }

/-- The chunks of a frame, at least one; the count is cut to 16 bits. -/
def chunk (c : Chunker) (frame : Bytes) : Chunker × List Bytes :=
  let parts := if frame.isEmpty then [[]] else chunksOf c.maxPayload frame
  let count := UInt16.ofNat parts.length
  ({ c with seq := c.seq + 1 },
    parts.mapIdx fun i p => beBytes32 c.seq ++ beBytes16 (UInt16.ofNat i) ++ beBytes16 count ++ p)

end Chunker

structure Reassembler where
  seq : Option UInt32 := none
  count : UInt16 := 0
  got : UInt16 := 0
  buf : Bytes := []
  deriving DecidableEq

namespace Reassembler

/-- Feed one chunk; the last one of a frame returns it. -/
def push (r : Reassembler) (msg : Bytes) : Reassembler × Option Bytes :=
  if msg.length < HEADER then (r, none)
  else
    let byte (i : Nat) := msg.getD i 0
    let seq := fromBeBytes32 (byte 0) (byte 1) (byte 2) (byte 3)
    let idx := fromBeBytes16 (byte 4) (byte 5)
    let count := fromBeBytes16 (byte 6) (byte 7)
    let payload := msg.drop HEADER
    let r := if idx = 0 then { seq := some seq, count := count, got := 0, buf := [] } else r
    if r.seq ≠ some seq then (r, none)
    else
      let buf := r.buf ++ payload
      let got := r.got + 1
      if got ≥ r.count then ({ r with seq := none, got := got, buf := [] }, some buf)
      else ({ r with got := got, buf := buf }, none)

end Reassembler

end ZortilWatch.Core
