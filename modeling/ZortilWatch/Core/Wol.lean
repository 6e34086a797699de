import Mathlib.Data.List.Basic
import ZortilWatch.Core.Crypto

/-!
# Magic packets (`core/src/wol.rs`)

A network card is woken by a frame that has the card's address in it sixteen times, behind
six bytes of ones (`Wakes`). An address is written as text on its way through the server,
and `parse_mac` takes any text with the right twelve hexadecimal digits in it, whatever
stands between them (`parse_mac_eq_some`). `wakes_of_sent` is the helper's end of a wake:
the packets it broadcasts for a text wake the card of that address and no other.
-/

namespace ZortilWatch.Core

abbrev Mac := Vector UInt8 6

/-- `char::to_digit(16)` -/
def toDigit (c : Char) : Option Nat :=
  if '0' ≤ c ∧ c ≤ '9' then some (c.toNat - '0'.toNat)
  else if 'a' ≤ c ∧ c ≤ 'f' then some (c.toNat - 'a'.toNat + 10)
  else if 'A' ≤ c ∧ c ≤ 'F' then some (c.toNat - 'A'.toNat + 10)
  else none

def isAsciiHexdigit (c : Char) : Bool := (toDigit c).isSome

/-- `u8::from_str_radix(.., 16)` of the text two characters at a time. -/
def bytesFromHex : List Char → Option (List UInt8)
  | a :: b :: rest =>
    match toDigit a, toDigit b with
    | some high, some low => (bytesFromHex rest).map (UInt8.ofNat (16 * high + low) :: ·)
    | _, _ => none
  | _ => some []

def parse_mac (s : String) : Option Mac :=
  let hex := s.toList.filter isAsciiHexdigit
  if hex.length ≠ 12 then none
  else (bytesFromHex hex).bind fun bytes =>
    if h : bytes.toArray.size = 6 then some ⟨bytes.toArray, h⟩ else none

/-- The upper case digit of a number below 16. -/
def upperHex (n : Nat) : Char := "0123456789ABCDEF".toList.getD n '0'

/-- `format!("{b:02X}")` -/
def formatByte (b : UInt8) : List Char := [upperHex (b.toNat / 16), upperHex (b.toNat % 16)]

def format_mac (mac : Mac) : String := String.ofList ([':'].intercalate (mac.toList.map formatByte))

def magic_packet (mac : Mac) : Bytes := List.replicate 6 0xFF ++ (List.replicate 16 mac.toList).flatten

/-- A UDP broadcast to `255.255.255.255`. -/
structure Broadcast where
  port : Nat
  packet : Bytes
  deriving DecidableEq, Repr

/-- What the socket of `send_wol` manages to do. -/
structure WolSocket where
  binds : Bool
  broadcasts : Bool
  sends : Nat → Bool

def send_wol (sock : WolSocket) (mac : Mac) : List Broadcast × Bool :=
  if sock.binds && sock.broadcasts && sock.sends 9 then
    (⟨9, magic_packet mac⟩ :: if sock.sends 7 then [⟨7, magic_packet mac⟩] else [], true)
  else ([], false)

def send_wol_str (sock : WolSocket) (mac : String) : List Broadcast × Bool :=
  match parse_mac mac with
  | some m => send_wol sock m
  | none => ([], false)

/-- The card with this address is woken by a frame with this payload. -/
def Wakes (card : Mac) (payload : Bytes) : Prop :=
  ∃ before behind,
    payload = before ++ (List.replicate 6 0xFF ++ (List.replicate 16 card.toList).flatten) ++ behind

/-! ## Digits -/

/-- The two digits of a byte. -/
def nibbles (b : UInt8) : List Nat := [b.toNat / 16, b.toNat % 16]

section Digits

variable {c : Char} {n : Nat} {cs : List Char} {bytes bytes' : List UInt8}

theorem toDigit_lt (h : toDigit c = some n) : n < 16 := by
  unfold toDigit at h
  split at h
  · rename_i digit
    cases h
    have top : c.toNat ≤ '9'.toNat := digit.2
    simp only [Char.reduceToNat] at top ⊢
    omega
  · split at h
    · rename_i lower
      cases h
      have top : c.toNat ≤ 'f'.toNat := lower.2
      simp only [Char.reduceToNat] at top ⊢
      omega
    · split at h
      · rename_i upper
        cases h
        have top : c.toNat ≤ 'F'.toNat := upper.2
        simp only [Char.reduceToNat] at top ⊢
        omega
      · cases h

theorem toDigit_upperHex (small : n < 16) : toDigit (upperHex n) = some n := by
  have all : ∀ i : Fin 16, toDigit (upperHex i) = some i.val := by decide
  exact all ⟨n, small⟩

theorem nibbles_concat {high low : Nat} (hh : high < 16) (hl : low < 16) :
    nibbles (UInt8.ofNat (16 * high + low)) = [high, low] := by
  have value : (UInt8.ofNat (16 * high + low)).toNat = 16 * high + low := by
    rw [UInt8.toNat_ofNat']
    omega
  rw [nibbles, value]
  congr 1
  · omega
  · congr 1
    omega

theorem nibbles_injective {b b' : UInt8} (same : nibbles b = nibbles b') : b = b' := by
  simp only [nibbles, List.cons.injEq, and_true] at same
  apply UInt8.toNat_inj.1
  omega

theorem length_flatMap_nibbles (bytes : List UInt8) : (bytes.flatMap nibbles).length = 2 * bytes.length := by
  induction bytes with
  | nil => rfl
  | cons b bytes ih =>
    rw [List.flatMap_cons, List.length_append, ih, List.length_cons]
    show 2 + 2 * bytes.length = _
    omega

/-- Bytes are told apart by their digits. -/
theorem bytes_of_nibbles (same : bytes.flatMap nibbles = bytes'.flatMap nibbles) : bytes = bytes' := by
  induction bytes generalizing bytes' with
  | nil =>
    cases bytes' with
    | nil => rfl
    | cons b' bytes' => cases same
  | cons b bytes ih =>
    cases bytes' with
    | nil => cases same
    | cons b' bytes' =>
      rw [List.flatMap_cons, List.flatMap_cons] at same
      obtain ⟨first, rest⟩ := List.append_inj same rfl
      rw [nibbles_injective first, ih rest]

/-- Text of digits, an even number of them, is read as the bytes with those digits. -/
theorem bytesFromHex_of_digits (digits : ∀ c ∈ cs, isAsciiHexdigit c) {k : Nat} (even : cs.length = 2 * k) :
    ∃ bytes, bytesFromHex cs = some bytes ∧ bytes.flatMap nibbles = cs.filterMap toDigit ∧ bytes.length = k := by
  induction k generalizing cs with
  | zero =>
    cases List.length_eq_zero_iff.1 even
    exact ⟨[], rfl, rfl, rfl⟩
  | succ k ih =>
    match cs, even with
    | a :: b :: rest, even =>
      obtain ⟨high, ha⟩ := Option.isSome_iff_exists.1 (digits a List.mem_cons_self)
      obtain ⟨low, hb⟩ := Option.isSome_iff_exists.1 (digits b (List.mem_cons_of_mem _ List.mem_cons_self))
      obtain ⟨bytes, read, written, counted⟩ := ih
        (fun c hc => digits c (List.mem_cons_of_mem _ (List.mem_cons_of_mem _ hc)))
        (by simp only [List.length_cons] at even; omega)
      refine ⟨UInt8.ofNat (16 * high + low) :: bytes, by simp only [bytesFromHex, ha, hb, read, Option.map_some], ?_,
        by rw [List.length_cons, counted]⟩
      rw [List.flatMap_cons, nibbles_concat (toDigit_lt ha) (toDigit_lt hb), written,
        List.filterMap_cons_some ha, List.filterMap_cons_some hb]
      rfl

/-- The digits in a text are the ones `parse_mac` keeps. -/
theorem filterMap_toDigit (cs : List Char) : (cs.filter isAsciiHexdigit).filterMap toDigit = cs.filterMap toDigit := by
  rw [List.filterMap_filter]
  apply List.filterMap_congr
  intro c _
  unfold isAsciiHexdigit
  cases toDigit c <;> rfl

end Digits

/-! ## Addresses as text -/

section Text

variable {s : String} {mac : Mac}

/-- A text is read as an address exactly if its hexadecimal digits are those of the address. -/
theorem parse_mac_eq_some : parse_mac s = some mac ↔ s.toList.filterMap toDigit = mac.toList.flatMap nibbles := by
  have digits : ∀ c ∈ s.toList.filter isAsciiHexdigit, isAsciiHexdigit c := fun c hc => (List.mem_filter.1 hc).2
  have counted : (s.toList.filter isAsciiHexdigit).length = (s.toList.filterMap toDigit).length := by
    rw [← filterMap_toDigit, List.length_filterMap_eq_countP, eq_comm, List.countP_eq_length]
    exact digits
  unfold parse_mac
  dsimp only
  split
  · rename_i short
    rw [counted] at short
    constructor
    · intro read
      cases read
    · intro written
      refine absurd ?_ short
      rw [written, length_flatMap_nibbles, Vector.length_toList]
  · rename_i twelve
    obtain ⟨bytes, read, written, length⟩ := bytesFromHex_of_digits digits (k := 6) (Decidable.not_not.1 twelve)
    rw [read, Option.bind_some, dif_pos (by rw [List.size_toArray, length]), ← filterMap_toDigit, ← written,
      Option.some.injEq]
    constructor
    · rintro rfl
      rfl
    · intro same
      apply Vector.toList_inj.1
      exact bytes_of_nibbles same

theorem filterMap_formatByte (b : UInt8) : (formatByte b).filterMap toDigit = nibbles b := by
  have high : b.toNat / 16 < 16 := by
    have := b.toNat_lt
    omega
  have low : b.toNat % 16 < 16 := Nat.mod_lt _ (by decide)
  rw [formatByte, List.filterMap_cons_some (toDigit_upperHex high), List.filterMap_cons_some (toDigit_upperHex low)]
  rfl

/-- The colons in a list of bytes are no digits. -/
theorem filterMap_intercalate (bytes : List UInt8) :
    ([':'].intercalate (bytes.map formatByte)).filterMap toDigit = bytes.flatMap nibbles := by
  induction bytes with
  | nil => rfl
  | cons b bytes ih =>
    cases bytes with
    | nil =>
      rw [List.map_cons, List.map_nil, List.intercalate_singleton, filterMap_formatByte, List.flatMap_cons,
        List.flatMap_nil, List.append_nil]
    | cons b' bytes =>
      rw [List.map_cons] at ih
      rw [List.map_cons, List.map_cons, List.intercalate_cons_cons, List.filterMap_append, List.filterMap_append,
        filterMap_formatByte, ih, List.flatMap_cons]
      rfl

theorem length_intercalate (b : UInt8) (bytes : List UInt8) :
    ([':'].intercalate ((b :: bytes).map formatByte)).length = 3 * bytes.length + 2 := by
  induction bytes generalizing b with
  | nil => rfl
  | cons b' bytes ih =>
    have rest := ih b'
    rw [List.map_cons] at rest
    rw [List.map_cons, List.map_cons, List.intercalate_cons_cons, List.length_append, List.length_append, rest]
    simp only [formatByte, List.length_cons, List.length_nil]
    omega

theorem length_format_mac (mac : Mac) : (format_mac mac).toList.length = 17 := by
  rw [format_mac, String.toList_ofList]
  have six : mac.toList.length = 6 := Vector.length_toList
  cases bytes : mac.toList with
  | nil =>
    rw [bytes] at six
    cases six
  | cons b rest =>
    rw [bytes, List.length_cons] at six
    rw [length_intercalate]
    omega

theorem ascii_upperHex (n : Nat) : (upperHex n).toNat < 128 := by
  rcases Nat.lt_or_ge n 16 with small | large
  · have all : ∀ i : Fin 16, (upperHex i).toNat < 128 := by decide
    exact all ⟨n, small⟩
  · rw [upperHex, List.getD_eq_getElem?_getD, List.getElem?_eq_none large]
    decide

theorem ascii_intercalate (bytes : List UInt8) :
    ∀ c ∈ [':'].intercalate (bytes.map formatByte), c.toNat < 128 := by
  have digits (b : UInt8) : ∀ c ∈ formatByte b, c.toNat < 128 :=
    List.forall_mem_cons.2 ⟨ascii_upperHex _, List.forall_mem_singleton.2 (ascii_upperHex _)⟩
  induction bytes with
  | nil =>
    intro c hc
    cases hc
  | cons b bytes ih =>
    cases bytes with
    | nil =>
      rw [List.map_cons, List.map_nil, List.intercalate_singleton]
      exact digits b
    | cons b' bytes =>
      intro c hc
      rw [List.map_cons, List.map_cons, List.intercalate_cons_cons, List.append_assoc] at hc
      rcases List.mem_append.1 hc with hc | hc
      · exact digits b c hc
      · rcases List.mem_append.1 hc with hc | hc
        · rw [List.mem_singleton.1 hc]
          decide
        · exact ih c hc

theorem ascii_format_mac (mac : Mac) : (format_mac mac).toList.all fun c => c.toNat < 128 := by
  rw [format_mac, String.toList_ofList, List.all_eq_true]
  exact fun c hc => decide_eq_true (ascii_intercalate mac.toList c hc)

/-- What an adapter reports is read as its address. -/
theorem parse_mac_format_mac (mac : Mac) : parse_mac (format_mac mac) = some mac := by
  rw [parse_mac_eq_some, format_mac, String.toList_ofList]
  exact filterMap_intercalate mac.toList

end Text

/-! ## Waking -/

section Waking

variable {card mac : Mac}

theorem length_magic_packet (mac : Mac) : (magic_packet mac).length = 102 := by
  simp [magic_packet]

/-- A magic packet wakes the one card whose address is in it. -/
theorem wakes_magic_packet : Wakes card (magic_packet mac) ↔ card = mac := by
  constructor
  · rintro ⟨before, behind, found⟩
    have lengths := congrArg List.length found
    change (magic_packet mac).length = (before ++ magic_packet card ++ behind).length at lengths
    rw [List.length_append, List.length_append, length_magic_packet, length_magic_packet] at lengths
    -- the frame has no room for anything else
    have first : before = [] := List.length_eq_zero_iff.1 (by omega)
    have last : behind = [] := List.length_eq_zero_iff.1 (by omega)
    subst first
    subst last
    rw [List.nil_append, List.append_nil, magic_packet, List.append_cancel_left_eq, List.replicate_succ,
      List.replicate_succ, List.flatten_cons, List.flatten_cons] at found
    apply Vector.toList_inj.1
    exact ((List.append_inj found (by rw [Vector.length_toList, Vector.length_toList])).1).symm
  · rintro rfl
    exact ⟨[], [], (List.append_nil _).symm⟩

/-- What a helper broadcasts for a text wakes the card whose address it reads there, and no
other. -/
theorem wakes_of_sent {sock : WolSocket} {s : String} {b : Broadcast} (sent : b ∈ (send_wol_str sock s).1) :
    Wakes card b.packet ↔ parse_mac s = some card := by
  unfold send_wol_str at sent
  cases read : parse_mac s with
  | none =>
    rw [read] at sent
    cases sent
  | some mac =>
    rw [read] at sent
    have packet : b.packet = magic_packet mac := by
      simp only [send_wol] at sent
      split at sent
      · rcases List.mem_cons.1 sent with rfl | sent
        · rfl
        · split at sent
          · rw [List.mem_singleton.1 sent]
          · cases sent
      · cases sent
    rw [packet, wakes_magic_packet, Option.some.injEq, eq_comm]

end Waking

end ZortilWatch.Core
