import Mathlib.Algebra.Group.Int.Defs
import Mathlib.Algebra.Group.Nat.Defs
import Mathlib.Data.List.DropRight

/-!
# Time-based one-time codes (`server/src/auth/totp.ts`)

Base32, `hotp` and `verifyTotp` over an HMAC-SHA1 and JavaScript's `toUpperCase`. A
`none` is an exception: `writeBigUInt64BE` refuses a counter outside 64 bits.
-/

namespace ZortilWatch.Server

/-- What `totp.ts` takes from its platform. -/
structure TotpEnv where
  /-- Key, message, digest. -/
  hmacSha1 : List UInt8 → List UInt8 → List UInt8
  toUpperCase : String → String

/-- `const B32`. -/
def b32 : List Char := "ABCDEFGHIJKLMNOPQRSTUVWXYZ234567".toList

/-- The inner loop of `base32Encode`: a digit for every five bits in front, and how
many bits are left. -/
def base32Digits (value : Nat) : Nat → Nat × List Char
  | bits + 5 =>
    let rest := base32Digits value bits
    (rest.1, b32.getD (value / 2 ^ bits % 32) 'A' :: rest.2)
  | bits => (bits, [])

/-- The loop of `base32Encode`; `value` is a 32-bit word. -/
def base32EncodeLoop (bits value : Nat) : List UInt8 → List Char
  | [] => if bits > 0 then [b32.getD (value * 2 ^ (5 - bits) % 32) 'A'] else []
  | byte :: rest =>
    let value := (value * 2 ^ 8 + byte.toNat) % 2 ^ 32
    let digits := base32Digits value (bits + 8)
    digits.2 ++ base32EncodeLoop digits.1 value rest

def base32Encode (buf : List UInt8) : String := String.ofList (base32EncodeLoop 0 0 buf)

/-- `s.replace(/=+$/, "")`. -/
def dropPadding (s : List Char) : List Char := s.rdropWhile (· == '=')

/-- The loop of `base32Decode`; `value` is a 32-bit word. -/
def base32Loop (bits value : Nat) : List Char → List UInt8
  | [] => []
  | ch :: rest =>
    match b32.idxOf? ch with
    -- blanks and hyphens of a secret typed by hand
    | none => base32Loop bits value rest
    | some idx =>
      let value := (value * 32 + idx) % 2 ^ 32
      if bits + 5 ≥ 8 then UInt8.ofNat (value / 2 ^ (bits + 5 - 8)) :: base32Loop (bits + 5 - 8) value rest
      else base32Loop (bits + 5) value rest

def base32Decode (env : TotpEnv) (s : String) : List UInt8 := base32Loop 0 0 (dropPadding (env.toUpperCase s).toList)

/-- `msg.writeBigUInt64BE(counter)`. -/
def writeBigUInt64BE (counter : Int) : Option (List UInt8) :=
  if 0 ≤ counter ∧ counter < 2 ^ 64 then
    some ((List.range 8).map fun i => UInt8.ofNat (counter.toNat / 256 ^ (7 - i)))
  else none

/-- The code of a counter. -/
def hotp (env : TotpEnv) (secret : String) (counter : Int) : Option String :=
  (writeBigUInt64BE counter).map fun msg =>
    let h := env.hmacSha1 (base32Decode env secret) msg
    let byte := fun i => (h.getD i 0).toNat
    let off := byte (h.length - 1) % 16
    let code := (byte off % 128 * 2 ^ 24 + byte (off + 1) * 2 ^ 16 + byte (off + 2) * 2 ^ 8 + byte (off + 3)) % 1000000
    let digits := Nat.toDigits 10 code
    String.ofList (List.replicate (6 - digits.length) '0' ++ digits)

/-- The characters `\s` matches. -/
def isWhitespace (c : Char) : Bool :=
  [0x9, 0xa, 0xb, 0xc, 0xd, 0x20, 0xa0, 0x1680, 0x2028, 0x2029, 0x202f, 0x205f, 0x3000, 0xfeff].contains c.toNat ||
    (0x2000 ≤ c.toNat && c.toNat ≤ 0x200a)

/-- Compare with the codes of the counters `step + delta`, one after the other. -/
def matchesAny (env : TotpEnv) (secret : String) (clean : List Char) (step : Nat) : List Int → Option Bool
  | [] => some false
  | delta :: deltas =>
    match hotp env secret (step + delta) with
    | none => none
    | some expect => if expect.toList = clean then some true else matchesAny env secret clean step deltas

/-- Check a code against the step of `nowMs` and its two neighbours. -/
def verifyTotp (env : TotpEnv) (secret code : String) (nowMs : Nat) : Option Bool :=
  let clean := code.toList.filter (!isWhitespace ·)
  if clean.length = 6 ∧ clean.all fun c => '0' ≤ c ∧ c ≤ '9' then
    matchesAny env secret clean (nowMs / 30000) [0, -1, 1]
  else some false

end ZortilWatch.Server
