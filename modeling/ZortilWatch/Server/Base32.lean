import ZortilWatch.Lib.Bits
import ZortilWatch.Server.Totp

/-!
# Base32 secrets

Both loops of base32 shift into an accumulator that is never cleared and runs over
its 32 bits. They read no more of it than the `bits` low bits, so they regroup the
string of all bits: bytes and digits are two readings of it, up to the zeros that
fill the last digit (`words_encodeLoop`, `words_loop`). What a text decodes to
depends on its digits only, whatever stands between them.
-/

namespace ZortilWatch.Server

open Bits

/-- The digits of a text. -/
def digitsOf (cs : List Char) : List Nat := cs.filterMap b32.idxOf?

/-- The text with blanks and hyphens put in, letters in another case and padding
behind it, in any order. -/
inductive Spelling (s : List Char) : List Char → Prop where
  | written : Spelling s s
  | separated {a b : List Char} {c : Char} : Spelling s (a ++ b) → c = ' ' ∨ c = '-' → Spelling s (a ++ c :: b)
  | recased {a b : List Char} {c c' : Char} : Spelling s (a ++ c :: b) → c'.toUpper = c.toUpper →
      Spelling s (a ++ c' :: b)
  | padded {a : List Char} : Spelling s a → Spelling s (a ++ ['='])

/-- `toUpperCase` of an ASCII text. -/
def TotpEnv.UppercasesAscii (env : TotpEnv) : Prop :=
  ∀ s : String, (∀ c ∈ s.toList, c.toNat < 128) → env.toUpperCase s = String.ofList (s.toList.map Char.toUpper)

section Digits

variable {cs : List Char}

theorem digit_lt {i : Nat} (mem : i ∈ digitsOf cs) : i < 2 ^ 5 := by
  obtain ⟨c, -, digit⟩ := List.mem_filterMap.1 mem
  obtain ⟨short, -⟩ := List.idxOf?_eq_some_iff.1 digit
  exact short

/-- Every digit is read as what it stands for. -/
theorem idxOf_digit : ∀ i < 32, b32.idxOf? (b32.getD i 'A') = some i := by decide

theorem digitsOf_digit {i : Nat} (h : i < 32) (cs : List Char) :
    digitsOf (b32.getD i 'A' :: cs) = i :: digitsOf cs :=
  List.filterMap_cons_some (idxOf_digit i h)

theorem digitsOf_append (a b : List Char) : digitsOf (a ++ b) = digitsOf a ++ digitsOf b := List.filterMap_append

theorem digitsOf_skipped {c : Char} (h : b32.idxOf? c = none) (a b : List Char) :
    digitsOf (a ++ c :: b) = digitsOf (a ++ b) := by
  have skipped : digitsOf (c :: b) = digitsOf b := List.filterMap_cons_none h
  rw [digitsOf_append, digitsOf_append, skipped]

end Digits

/-! ## The two loops -/

/-- The digits of the inner loop are the bits in front, less than a digit is left. -/
theorem base32Digits_spec (value bits : Nat) :
    (base32Digits value bits).1 < 5 ∧
      words 5 (digitsOf (base32Digits value bits).2) ++ ofNat (base32Digits value bits).1 value = ofNat bits value := by
  fun_induction base32Digits value bits with
  | case1 bits rest ih =>
    refine ⟨ih.1, ?_⟩
    have front : ofNat 5 (value / 2 ^ bits % 2 ^ 5) ++ ofNat bits value = ofNat (bits + 5) value := by
      rw [ofNat_mod (Nat.le_refl 5), Nat.add_comm, ofNat_add]
    rw [digitsOf_digit (Nat.mod_lt _ (by omega)), words_cons, List.append_assoc, ih.2]
    exact front
  | case2 bits few =>
    refine ⟨?_, rfl⟩
    by_contra many
    exact few (bits - 5) (by omega)

/-- The digits are the bits of the accumulator and of the bytes, with zeros behind. -/
theorem words_encodeLoop {bits : Nat} (few : bits < 5) (value : Nat) (buf : List UInt8) :
    ∃ pad < 5, words 5 (digitsOf (base32EncodeLoop bits value buf)) =
      ofNat bits value ++ words 8 (buf.map UInt8.toNat) ++ List.replicate pad false := by
  induction buf generalizing bits value with
  | nil =>
    unfold base32EncodeLoop
    split
    · have last : ofNat 5 (value * 2 ^ (5 - bits) % 2 ^ 5) = ofNat bits value ++ List.replicate (5 - bits) false := by
        have whole := ofNat_concat bits value (Nat.two_pow_pos (5 - bits))
        rw [Nat.add_zero, Nat.add_sub_cancel' (Nat.le_of_lt few), ofNat_zero] at whole
        rw [ofNat_mod (Nat.le_refl 5), whole]
      refine ⟨5 - bits, by omega, ?_⟩
      rw [digitsOf_digit (Nat.mod_lt _ (by omega)), words_cons, show (32 : Nat) = 2 ^ 5 from rfl, last]
      simp [digitsOf]
    · have none_left : bits = 0 := by omega
      subst none_left
      exact ⟨0, by omega, rfl⟩
  | cons byte buf ih =>
    unfold base32EncodeLoop
    dsimp only
    generalize acc_eq : (value * 2 ^ 8 + byte.toNat) % 2 ^ 32 = acc
    obtain ⟨fewer, digits⟩ := base32Digits_spec acc (bits + 8)
    obtain ⟨pad, hpad, rest⟩ := ih fewer acc
    have shifted : ofNat (bits + 8) acc = ofNat bits value ++ ofNat 8 byte.toNat := by
      rw [← acc_eq, ofNat_mod (by omega), ofNat_concat bits value (UInt8.toNat_lt byte)]
    refine ⟨pad, hpad, ?_⟩
    rw [digitsOf_append, words_append, rest, ← List.append_assoc, ← List.append_assoc, digits, shifted,
      List.map_cons, words_cons, List.append_assoc (ofNat bits value)]

/-- The bytes are the bits of the accumulator and of the digits, with less than a
byte left over. -/
theorem words_loop {bits : Nat} (few : bits < 8) (value : Nat) (cs : List Char) :
    ∃ rest, rest.length < 8 ∧
      words 8 ((base32Loop bits value cs).map UInt8.toNat) ++ rest = ofNat bits value ++ words 5 (digitsOf cs) := by
  induction cs generalizing bits value with
  | nil => exact ⟨ofNat bits value, by rwa [length_ofNat], by simp [base32Loop, digitsOf]⟩
  | cons c cs ih =>
    unfold base32Loop
    cases digit : b32.idxOf? c with
    | none =>
      have skipped : digitsOf (c :: cs) = digitsOf cs := List.filterMap_cons_none digit
      rw [skipped]
      exact ih few value
    | some idx =>
      have read : digitsOf (c :: cs) = idx :: digitsOf cs := List.filterMap_cons_some digit
      have small : idx < 2 ^ 5 := digit_lt (read ▸ List.mem_cons_self)
      dsimp only
      generalize acc_eq : (value * 32 + idx) % 2 ^ 32 = acc
      have shifted : ofNat (bits + 5) acc = ofNat bits value ++ ofNat 5 idx := by
        rw [← acc_eq, ofNat_mod (by omega)]
        exact ofNat_concat bits value small
      split
      · rename_i full
        obtain ⟨rest, short, spec⟩ := @ih (bits + 5 - 8) (by omega) acc
        have byte : ofNat 8 (UInt8.ofNat (acc / 2 ^ (bits + 5 - 8))).toNat = ofNat 8 (acc / 2 ^ (bits + 5 - 8)) := by
          rw [UInt8.toNat_ofNat']
          exact ofNat_mod (Nat.le_refl 8) _
        have cut := ofNat_add 8 (bits + 5 - 8) acc
        rw [Nat.add_sub_cancel' full, shifted] at cut
        refine ⟨rest, short, ?_⟩
        rw [List.map_cons, words_cons, List.append_assoc, spec, byte, ← List.append_assoc, ← cut, read, words_cons,
          List.append_assoc]
      · obtain ⟨rest, short, spec⟩ := @ih (bits + 5) (by omega) acc
        refine ⟨rest, short, ?_⟩
        rw [spec, shifted, read, words_cons, List.append_assoc]

/-! ## Decoding -/

theorem byte_lt {bytes : List UInt8} : ∀ n ∈ bytes.map UInt8.toNat, n < 2 ^ 8 := by
  intro n mem
  obtain ⟨byte, -, rfl⟩ := List.mem_map.1 mem
  exact UInt8.toNat_lt byte

theorem toNat_map_injective {a b : List UInt8} (h : a.map UInt8.toNat = b.map UInt8.toNat) : a = b :=
  List.map_injective_iff.2 (fun _ _ => UInt8.toNat_inj.1) h

/-- A text whose digits are the bits of these bytes, with less than a byte behind,
decodes to them. -/
theorem base32Loop_eq {bytes : List UInt8} {cs : List Char} {behind : List Bool} (short : behind.length < 8)
    (h : words 5 (digitsOf cs) = words 8 (bytes.map UInt8.toNat) ++ behind) : base32Loop 0 0 cs = bytes := by
  obtain ⟨rest, shorter, spec⟩ := words_loop (Nat.zero_lt_succ 7) 0 cs
  rw [ofNat, List.nil_append, h] at spec
  exact toNat_map_injective (words_cancel byte_lt byte_lt shorter short spec).1

theorem base32Loop_encodeLoop {bytes : List UInt8} {cs : List Char}
    (same : digitsOf cs = digitsOf (base32EncodeLoop 0 0 bytes)) : base32Loop 0 0 cs = bytes := by
  obtain ⟨pad, few, spec⟩ := words_encodeLoop (Nat.zero_lt_succ 4) 0 bytes
  rw [ofNat, List.nil_append, ← same] at spec
  exact base32Loop_eq (by rw [List.length_replicate]; omega) spec

/-- Padding holds no digits. -/
theorem digitsOf_dropPadding (cs : List Char) : digitsOf (dropPadding cs) = digitsOf cs := by
  have padding : digitsOf (cs.rtakeWhile (· == '=')) = [] := by
    refine List.filterMap_eq_nil_iff.2 fun c mem => ?_
    have eq := List.mem_takeWhile_imp (List.mem_reverse.1 (by simpa [List.rtakeWhile] using mem))
    rw [beq_iff_eq.1 eq]
    rfl
  conv_rhs => rw [← List.rdropWhile_append_rtakeWhile (p := (· == '=')) (l := cs)]
  rw [digitsOf_append, padding, List.append_nil]
  rfl

/-! ## Spellings -/

namespace Spelling

variable {s t : List Char}

/-- Another spelling has the same digits once in upper case. -/
theorem digitsOf_toUpper (h : Spelling s t) : digitsOf (t.map Char.toUpper) = digitsOf (s.map Char.toUpper) := by
  induction h with
  | written => rfl
  | separated _ blank ih =>
    rw [← ih, List.map_append, List.map_append, List.map_cons, digitsOf_skipped]
    rcases blank with rfl | rfl <;> rfl
  | recased _ same ih => rw [← ih, List.map_append, List.map_append, List.map_cons, List.map_cons, same]
  | padded _ ih =>
    rw [← ih, List.map_append, List.map_singleton, digitsOf_skipped rfl, List.append_nil]

/-- Only the letters a to z have another upper case. -/
theorem toUpper_eq_self {c : Char} (h : 128 ≤ c.toNat) : c.toUpper = c := by
  have below : ¬ ('a'.val ≤ c.val ∧ c.val ≤ 'z'.val) := by
    rintro ⟨-, small⟩
    have small : c.toNat ≤ 122 := small
    omega
  exact dif_neg below

theorem ascii_toUpper {c : Char} (h : c.toNat < 128) : c.toUpper.toNat < 128 := by
  have all : ∀ n < 128, (Char.ofNat n).toUpper.toNat < 128 := by decide
  rw [← Char.ofNat_toNat c]
  exact all _ h

/-- Spellings of an ASCII text are ASCII texts. -/
theorem ascii (h : Spelling s t) (hs : ∀ c ∈ s, c.toNat < 128) : ∀ c ∈ t, c.toNat < 128 := by
  induction h with
  | written => exact hs
  | separated _ blank ih =>
    intro c mem
    rcases List.mem_append.1 mem with mem | mem
    · exact ih c (List.mem_append_left _ mem)
    · rcases List.mem_cons.1 mem with rfl | mem
      · rcases blank with rfl | rfl <;> decide
      · exact ih c (List.mem_append_right _ mem)
  | @recased a b old new _ same ih =>
    intro c mem
    rcases List.mem_append.1 mem with mem | mem
    · exact ih c (List.mem_append_left _ mem)
    · rcases List.mem_cons.1 mem with rfl | mem
      · have small := ascii_toUpper (ih old (List.mem_append_right _ List.mem_cons_self))
        by_contra high
        rw [← same, toUpper_eq_self (Nat.not_lt.1 high)] at small
        exact high small
      · exact ih c (List.mem_append_right _ (List.mem_cons_of_mem _ mem))
  | padded _ ih =>
    intro c mem
    rcases List.mem_append.1 mem with mem | mem
    · exact ih c mem
    · rw [List.mem_singleton.1 mem]
      decide

end Spelling

theorem mem_digit (i : Nat) : b32.getD i 'A' ∈ b32 := by
  rw [List.getD_eq_getElem?_getD]
  cases digit : b32[i]? with
  | none => decide
  | some c => exact List.mem_of_getElem? digit

theorem mem_base32Digits {value bits : Nat} {c : Char} (mem : c ∈ (base32Digits value bits).2) : c ∈ b32 := by
  fun_induction base32Digits value bits with
  | case1 bits rest ih =>
    rcases List.mem_cons.1 mem with rfl | mem
    · exact mem_digit _
    · exact ih mem
  | case2 => cases mem

theorem mem_encodeLoop {bits value : Nat} {buf : List UInt8} {c : Char} (mem : c ∈ base32EncodeLoop bits value buf) :
    c ∈ b32 := by
  induction buf generalizing bits value with
  | nil =>
    unfold base32EncodeLoop at mem
    split at mem
    · rw [List.mem_singleton.1 mem]
      exact mem_digit _
    · cases mem
  | cons byte buf ih =>
    rcases List.mem_append.1 mem with mem | mem
    · exact mem_base32Digits mem
    · exact ih mem

/-- An encoded secret is in upper case. -/
theorem encodeLoop_toUpper (buf : List UInt8) :
    (base32EncodeLoop 0 0 buf).map Char.toUpper = base32EncodeLoop 0 0 buf := by
  have upper : b32.all (fun c => c.toUpper = c) := by decide
  refine (List.map_congr_left fun c mem => ?_).trans (List.map_id _)
  exact of_decide_eq_true (List.all_eq_true.1 upper c (mem_encodeLoop mem))

section Secrets

variable {env : TotpEnv} {buf : List UInt8}

theorem base32Decode_spelling (ascii : env.UppercasesAscii) {t : String}
    (h : Spelling (base32Encode buf).toList t.toList) : base32Decode env t = buf := by
  rw [base32Encode, String.toList_ofList] at h
  have small : b32.all (fun c => c.toNat < 128) := by decide
  have small {c : Char} (mem : c ∈ base32EncodeLoop 0 0 buf) : c.toNat < 128 :=
    of_decide_eq_true (List.all_eq_true.1 small c (mem_encodeLoop mem))
  unfold base32Decode
  rw [ascii t (h.ascii fun c mem => small mem), String.toList_ofList]
  refine base32Loop_encodeLoop ?_
  rw [digitsOf_dropPadding, h.digitsOf_toUpper, encodeLoop_toUpper]

/-- Every spelling of an encoded secret decodes to the secret, and gives its codes. -/
theorem secret_survives (env : TotpEnv) (ascii : env.UppercasesAscii) (buf : List UInt8) :
    base32Decode env (base32Encode buf) = buf ∧
      ∀ t : String, Spelling (base32Encode buf).toList t.toList →
        base32Decode env t = buf ∧ ∀ counter, hotp env t counter = hotp env (base32Encode buf) counter := by
  have same : base32Decode env (base32Encode buf) = buf := base32Decode_spelling ascii .written
  refine ⟨same, fun t spelling => ?_⟩
  have decoded := base32Decode_spelling ascii spelling
  refine ⟨decoded, fun counter => ?_⟩
  unfold hotp
  rw [decoded, same]

end Secrets

/-! ## The secret of the test vectors -/

def rfcSecret : List UInt8 := "12345678901234567890".toList.map fun c => UInt8.ofNat c.toNat

/-- HMAC-SHA1 of the first counters under this secret, and ASCII texts in upper case. -/
def rfcEnv : TotpEnv where
  hmacSha1 key msg :=
    let digest : Nat := if key ≠ rfcSecret then 0 else
      [0xcc93cf18508d94934c64b65d8ba7667fb7cde4b0, 0x75a48a19d4cbe100644e8ac1397eea747a2d33ab,
        0x0bacb7fa082fef30782211938bc1c5e70416ff44, 0x66c28227d03a2d5529262ff016a1e6ef76557ece,
        0xa904c900a64b35909874b33e61c5938a8e15ed1c].getD (msg.getLastD 0).toNat 0
    (List.range 20).map fun i => UInt8.ofNat (digest / 256 ^ (19 - i))
  toUpperCase s := String.ofList (s.toList.map Char.toUpper)

example : ((List.range 4).map fun i => hotp rfcEnv (base32Encode rfcSecret) i) =
    [some "755224", some "287082", some "359152", some "969429"] := by decide

/-- The secret with a letter in lower case, a hyphen, a blank and padding. -/
theorem secret_survives_retyped : base32Decode rfcEnv "gEZDGNBV-GY3TQOJQ GEZDGNBVGY3TQOJQ=" = rfcSecret := by
  have upper : Spelling (base32Encode rfcSecret).toList ([] ++ 'G' :: "EZDGNBVGY3TQOJQGEZDGNBVGY3TQOJQ".toList) :=
    .written
  have lower : Spelling (base32Encode rfcSecret).toList ([] ++ 'g' :: "EZDGNBVGY3TQOJQGEZDGNBVGY3TQOJQ".toList) :=
    .recased upper rfl
  have hyphen : Spelling (base32Encode rfcSecret).toList
      ("gEZDGNBV".toList ++ '-' :: "GY3TQOJQGEZDGNBVGY3TQOJQ".toList) := .separated lower (.inr rfl)
  have blank : Spelling (base32Encode rfcSecret).toList
      ("gEZDGNBV-GY3TQOJQ".toList ++ ' ' :: "GEZDGNBVGY3TQOJQ".toList) := .separated hyphen (.inl rfl)
  exact ((secret_survives rfcEnv (fun _ _ => rfl) rfcSecret).2 "gEZDGNBV-GY3TQOJQ GEZDGNBVGY3TQOJQ="
    (.padded blank)).1

end ZortilWatch.Server
