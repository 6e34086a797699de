import Mathlib.SetTheory.Cardinal.Finite
import ZortilWatch.Core.Fingerprint
import ZortilWatch.Core.Host
import ZortilWatch.Server.Base32

/-!
# A one-time code from one screen to another

`generate_one_time` of `core/src/password.rs`, `fmtCode` of `ui/src/screens/AddressBook.tsx`,
which shows the code, and `doConnect` of `ui/src/App.tsx`, which takes what a person makes of
it. Every code is as likely as any other, and the two ends of a session get the same bytes.
-/

namespace ZortilWatch.Ui

open ZortilWatch.Core

/-! ## The code -/

def CHARSET : List Char := "ABCDEFGHJKLMNPQRSTUVWXYZ23456789".toList

def oneTimeChar (b : UInt8) : Char := CHARSET.get ⟨b.toNat % CHARSET.length, Nat.mod_lt _ (by decide)⟩

/-- `generate_one_time`; the bytes come from the operating system. -/
def generateOneTime (bytes : Fin 8 → UInt8) : String := String.ofList ((List.ofFn bytes).map oneTimeChar)

/-- Each character comes from eight of the 256 bytes. -/
theorem card_oneTimeChar {c : Char} (known : c ∈ CHARSET) : Nat.card {b : UInt8 // oneTimeChar b = c} = 8 := by
  have fin : CHARSET.all fun c => Fintype.card {b : Fin 256 // oneTimeChar (UInt8.ofFin b) = c} = 8 := by decide +kernel
  let e : {b : Fin 256 // oneTimeChar (UInt8.ofFin b) = c} ≃ {b : UInt8 // oneTimeChar b = c} :=
    { toFun := fun b => ⟨UInt8.ofFin b, b.2⟩
      invFun := fun b => ⟨b.1.toFin, b.2⟩
      left_inv := fun b => rfl
      right_inv := fun b => rfl }
  rw [← Nat.card_congr e, Nat.card_eq_fintype_card]
  exact of_decide_eq_true (List.all_eq_true.1 fin c known)

theorem generateOneTime_eq {bytes : Fin 8 → UInt8} {w : Fin 8 → Char} :
    generateOneTime bytes = String.ofList (List.ofFn w) ↔ ∀ i, oneTimeChar (bytes i) = w i := by
  rw [generateOneTime, String.ofList_inj, List.map_ofFn, List.ofFn_inj]
  exact funext_iff

/-- Every code comes from equally many bytes. -/
theorem card_generateOneTime {w : Fin 8 → Char} (known : ∀ i, w i ∈ CHARSET) :
    Nat.card {bytes : Fin 8 → UInt8 // generateOneTime bytes = String.ofList (List.ofFn w)} = 8 ^ 8 := by
  have split : {bytes : Fin 8 → UInt8 // generateOneTime bytes = String.ofList (List.ofFn w)} ≃
      ((i : Fin 8) → {b : UInt8 // oneTimeChar b = w i}) :=
    (Equiv.subtypeEquivRight fun _ => generateOneTime_eq).trans
      (Equiv.subtypePiEquivPi (p := fun i b => oneTimeChar b = w i))
  rw [Nat.card_congr split, Nat.card_pi, Finset.prod_congr rfl fun i _ => card_oneTimeChar (known i)]
  rfl

/-! ## From the screen to the field -/

/-- `code.replace(/(.{4})(?=.)/g, "$1 ")`, characters outside the Basic Multilingual Plane apart. -/
def fmtCode : List Char → List Char
  | a :: b :: c :: d :: e :: rest =>
    if [a, b, c, d, e].all (! isLineTerminator ·) then a :: b :: c :: d :: ' ' :: fmtCode (e :: rest)
    else a :: fmtCode (b :: c :: d :: e :: rest)
  | rest => rest

/-- `[\s-]` -/
def isSpacer (c : Char) : Bool := isJsSpace c || c = '-'

/-- What a person may make of a text: blanks and hyphens come and go, letters change case. -/
inductive Typing (shown : List Char) : List Char → Prop where
  | copied : Typing shown shown
  | separated {a b : List Char} {c : Char} : Typing shown (a ++ b) → isSpacer c = true → Typing shown (a ++ c :: b)
  | joined {a b : List Char} {c : Char} : Typing shown (a ++ c :: b) → isSpacer c = true → Typing shown (a ++ b)
  | recased {a b : List Char} {c c' : Char} : Typing shown (a ++ c :: b) → c'.toUpper = c.toUpper →
      Typing shown (a ++ c' :: b)

/-- The password that `doConnect` passes on; `toUpperCase` is JavaScript's. -/
def connectPassword (toUpperCase : String → String) (password : String) (kind : String) : String :=
  if kind = "one_time" then toUpperCase (String.ofList (password.toList.filter (! isSpacer ·))) else password

/-- `toUpperCase` of an ASCII text. -/
def UppercasesAscii (toUpperCase : String → String) : Prop :=
  ∀ s : String, (∀ c ∈ s.toList, c.toNat < 128) → toUpperCase s = String.ofList (s.toList.map Char.toUpper)

/-- What is left of a text without its separators and its cases. -/
def essence (text : List Char) : List Char := (text.filter (! isSpacer ·)).map Char.toUpper

theorem essence_append (s t : List Char) : essence (s ++ t) = essence s ++ essence t := by
  rw [essence, List.filter_append, List.map_append]
  rfl

theorem essence_spacer {c : Char} (separates : isSpacer c = true) : essence [c] = [] := by
  simp [essence, separates]

theorem essence_cons_spacer {c : Char} (separates : isSpacer c = true) (text : List Char) :
    essence (c :: text) = essence text := by
  rw [← List.singleton_append, essence_append, essence_spacer separates, List.nil_append]

theorem essence_fmtCode (text : List Char) : essence (fmtCode text) = essence text := by
  fun_induction fmtCode text with
  | case1 a b c d e rest plain ih =>
    show essence ([a, b, c, d] ++ ' ' :: fmtCode (e :: rest)) = essence ([a, b, c, d] ++ e :: rest)
    rw [essence_append [a, b, c, d], essence_append [a, b, c, d], essence_cons_spacer (c := ' ') (by decide), ih]
  | case2 a b c d e rest broken ih =>
    rw [← List.singleton_append, essence_append, ih, ← essence_append, List.singleton_append]
  | case3 rest short => rfl

theorem isSpacer_toUpper (c : Char) : isSpacer c.toUpper = isSpacer c := by
  by_cases small : c.toNat < 128
  · have all : ∀ n < 128, isSpacer (Char.ofNat n).toUpper = isSpacer (Char.ofNat n) := by decide
    rw [← Char.ofNat_toNat c]
    exact all _ small
  · rw [Server.Spelling.toUpper_eq_self (Nat.not_lt.1 small)]

theorem essence_recased {c c' : Char} (same : c'.toUpper = c.toUpper) : essence [c'] = essence [c] := by
  have kept : isSpacer c' = isSpacer c := by
    rw [← isSpacer_toUpper c', same, isSpacer_toUpper]
  simp only [essence, List.filter_cons, List.filter_nil, kept]
  split
  · rw [List.map_singleton, List.map_singleton, same]
  · rfl

theorem Typing.essence_eq {shown typed : List Char} (h : Typing shown typed) : essence typed = essence shown := by
  induction h with
  | copied => rfl
  | separated _ separates ih => rw [← ih, essence_append, essence_append, essence_cons_spacer separates]
  | joined _ separates ih => rw [← ih, essence_append, essence_append, essence_cons_spacer separates]
  | @recased a b c c' _ same ih =>
    rw [← ih, essence_append, essence_append, ← List.singleton_append, essence_append, essence_recased same,
      ← essence_append, List.singleton_append]

/-- `doConnect` passes on what is left of a text of ASCII letters. -/
theorem connectPassword_eq {toUpperCase : String → String} (ascii : UppercasesAscii toUpperCase) {password : String}
    (small : ∀ c ∈ essence password.toList, c.toNat < 128) :
    connectPassword toUpperCase password "one_time" = String.ofList (essence password.toList) := by
  rw [connectPassword, if_pos rfl, ascii]
  · rw [String.toList_ofList]
    rfl
  · intro c mem
    rw [String.toList_ofList] at mem
    by_contra big
    have upper := small c.toUpper (List.mem_map_of_mem mem)
    rw [Server.Spelling.toUpper_eq_self (Nat.not_lt.1 big)] at upper
    exact big upper

theorem oneTimeChar_mem (b : UInt8) : oneTimeChar b ∈ CHARSET := List.get_mem ..

/-- The characters of a code stand for themselves. -/
theorem essence_charset {text : List Char} (known : ∀ c ∈ text, c ∈ CHARSET) : essence text = text := by
  have plain : CHARSET.all fun c => isSpacer c = false ∧ c.toUpper = c := by decide
  have own : ∀ c ∈ text, isSpacer c = false ∧ c.toUpper = c := by
    intro c mem
    exact of_decide_eq_true (List.all_eq_true.1 plain c (known c mem))
  have whole : text.filter (! isSpacer ·) = text := by
    apply List.filter_eq_self.2
    intro c mem
    rw [(own c mem).1]
    rfl
  rw [essence, whole]
  exact (List.map_congr_left fun c mem => (own c mem).2).trans (List.map_id _)

theorem mem_generateOneTime {bytes : Fin 8 → UInt8} {c : Char} (mem : c ∈ (generateOneTime bytes).toList) :
    c ∈ CHARSET := by
  rw [generateOneTime, String.toList_ofList] at mem
  obtain ⟨b, -, rfl⟩ := List.mem_map.1 mem
  exact oneTimeChar_mem b

theorem small_generateOneTime {bytes : Fin 8 → UInt8} {c : Char} (mem : c ∈ (generateOneTime bytes).toList) :
    c.toNat < 128 := by
  have small : CHARSET.all fun c => c.toNat < 128 := by decide
  exact of_decide_eq_true (List.all_eq_true.1 small c (mem_generateOneTime mem))

/-- Whatever a person makes of a code on a screen, the console gives the handshake the
bytes that the host gives it, and the 8^8 ways to every code leave no one code likelier. -/
theorem one_time_code_arrives {toUpperCase : String → String} (ascii : UppercasesAscii toUpperCase)
    (bytes : Fin 8 → UInt8) {password : String}
    (typed : Typing (fmtCode (generateOneTime bytes).toList) password.toList) :
    connectPassword toUpperCase password "one_time" = generateOneTime bytes ∧
      (∀ {J : Type} (env : HostEnv J) (sid : String),
        choosePassword env (generateOneTime bytes) ⟨sid, some "one_time"⟩ =
          .admitted ⟨sid, some "one_time", utf8 (connectPassword toUpperCase password "one_time")⟩) ∧
      Nat.card {b : Fin 8 → UInt8 // generateOneTime b = generateOneTime bytes} = 8 ^ 8 := by
  have left : essence password.toList = (generateOneTime bytes).toList := by
    rw [typed.essence_eq, essence_fmtCode]
    exact essence_charset fun c mem => mem_generateOneTime mem
  have arrives : connectPassword toUpperCase password "one_time" = generateOneTime bytes := by
    rw [connectPassword_eq ascii, left, String.ofList_toList]
    intro c mem
    exact small_generateOneTime (left ▸ mem)
  refine ⟨arrives, fun env sid => ?_, ?_⟩
  · rw [arrives, choosePassword, if_pos rfl]
  · have code : generateOneTime bytes = String.ofList (List.ofFn fun i => oneTimeChar (bytes i)) := by
      rw [generateOneTime, List.map_ofFn]
      rfl
    rw [code]
    exact card_generateOneTime fun i => oneTimeChar_mem (bytes i)

/-- The code of the bytes 0 to 7, retyped with a hyphen and a small letter. -/
theorem one_time_code_arrives_retyped :
    connectPassword (fun s => String.ofList (s.toList.map Char.toUpper)) "aBCD-EFGH" "one_time" = "ABCDEFGH" := by
  have shown : Typing (fmtCode (generateOneTime fun i => UInt8.ofNat i).toList) "ABCD EFGH".toList := by
    rw [show "ABCD EFGH".toList = fmtCode (generateOneTime fun i => UInt8.ofNat i).toList from by decide +kernel]
    exact .copied
  have joined : Typing _ "ABCDEFGH".toList :=
    shown.joined (a := "ABCD".toList) (b := "EFGH".toList) (c := ' ') (by decide)
  have parted : Typing _ "ABCD-EFGH".toList :=
    joined.separated (a := "ABCD".toList) (b := "EFGH".toList) (c := '-') (by decide)
  have letter : 'a'.toUpper = 'A'.toUpper := by decide
  have small : Typing _ "aBCD-EFGH".toList := parted.recased (a := []) (b := "BCD-EFGH".toList) letter
  exact (one_time_code_arrives (fun s _ => rfl) (fun i => UInt8.ofNat i) small).1.trans (by decide +kernel)

end ZortilWatch.Ui
