import Mathlib.Data.List.Infix
import ZortilWatch.Lib.Text

/-!
# Fingerprints of a session description

Both clients bind the DTLS fingerprints they read from the SDP texts, which come
through the server: `fingerprint` of `core/src/connection.rs` goes by lines,
`fingerprintFromSdp` of `ui/src/platform/web.ts` by a regular expression that is not
tied to the beginning of a line. They read the same exactly if what they find is at one
place and ends there alike, or the same stands at two places (`fingerprints_agree_iff`).
-/

namespace ZortilWatch.Core

open Text

/-- `a=fingerprint:` -/
def ATTRIBUTE : List Char := ['a', '=', 'f', 'i', 'n', 'g', 'e', 'r', 'p', 'r', 'i', 'n', 't', ':']

/-- `char::is_whitespace`: the property `White_Space` of Unicode. -/
def isWhitespace (c : Char) : Bool :=
  let n := c.toNat
  (0x9 ≤ n && n ≤ 0xd) || n = 0x20 || n = 0x85 || n = 0xa0 || n = 0x1680 || (0x2000 ≤ n && n ≤ 0x200a) ||
    n = 0x2028 || n = 0x2029 || n = 0x202f || n = 0x205f || n = 0x3000

/-- What `.` does not match. -/
def isLineTerminator (c : Char) : Bool :=
  let n := c.toNat
  n = 0xa || n = 0xd || n = 0x2028 || n = 0x2029

/-- What `trim` of JavaScript takes: white space, with the byte order mark and the
category `Zs`, and line terminators. -/
def isJsSpace (c : Char) : Bool :=
  let n := c.toNat
  n = 0x9 || n = 0xb || n = 0xc || n = 0xfeff || n = 0x20 || n = 0xa0 || n = 0x1680 || (0x2000 ≤ n && n ≤ 0x200a) ||
    n = 0x202f || n = 0x205f || n = 0x3000 || isLineTerminator c

/-! ## The parsers -/

/-- `l.trim().strip_prefix("a=fingerprint:")` -/
def stripAttribute (line : List Char) : Option (List Char) := (trim isWhitespace line).dropPrefix? ATTRIBUTE

/-- `core::connection::fingerprint`. The service has a copy of it. -/
def fingerprint (sdp : List Char) : List Char :=
  (((lines sdp).findSome? stripAttribute).map (trim isWhitespace)).getD []

/-- `(.+)` at the beginning of a text, empty where it does not match. -/
def group (text : List Char) : List Char := text.takeWhile (!isLineTerminator ·)

/-- `sdp.match(/a=fingerprint:(.+)/)`: the group of the leftmost match. -/
def matchFingerprint : List Char → Option (List Char)
  | [] => none
  | c :: cs =>
    match (c :: cs).dropPrefix? ATTRIBUTE with
    | some rest => if (group rest).isEmpty then matchFingerprint cs else some (group rest)
    | none => matchFingerprint cs

def fingerprintFromSdp (sdp : List Char) : List Char :=
  match matchFingerprint sdp with
  | some m => trim isJsSpace m
  | none => []

/-! ## Where they read -/

/-- What is behind the first `a=fingerprint:` that begins its line. `dark` says whether
something other than white space stands before the text in its line. -/
def nativePlace (dark : Bool) : List Char → Option (List Char)
  | [] => none
  | c :: cs =>
    match if dark then none else (c :: cs).dropPrefix? ATTRIBUTE with
    | some rest => some rest
    | none => nativePlace (c ≠ '\n' && (dark || !isWhitespace c)) cs

/-- What is behind the first `a=fingerprint:` with something behind it before a line
terminator. -/
def webPlace : List Char → Option (List Char)
  | [] => none
  | c :: cs =>
    match (c :: cs).dropPrefix? ATTRIBUTE with
    | some rest => if (group rest).isEmpty then webPlace cs else some rest
    | none => webPlace cs

/-- Both parsers find nothing; or they find the same place, where what comes behind a
line terminator within the line is white space and they agree about the ends of what
comes before; or one of them finds a place and only space there; or they find two
places and the same there. -/
def Unambiguous (sdp : List Char) : Prop :=
  match nativePlace false sdp, webPlace sdp with
  | none, none => True
  | some n, none => ∀ c ∈ lineRest n, isWhitespace c = true
  | none, some w => ∀ c ∈ group w, isJsSpace c = true
  | some n, some w =>
    if n = w then
      (∀ c ∈ (lineRest n).dropWhile (!isLineTerminator ·), isWhitespace c = true) ∧
        EndsAgree isWhitespace isJsSpace (group n)
    else ∃ t, Reads isWhitespace (lineRest n) t ∧ Reads isJsSpace (group w) t

section Native

variable {rest line text : List Char}

theorem trimmed_attribute : Trimmed isWhitespace ATTRIBUTE where
  head x mem := by
    rw [show ATTRIBUTE.head? = some 'a' from rfl, Option.mem_some_iff] at mem
    exact mem ▸ by decide
  last x mem := by
    rw [show ATTRIBUTE.getLast? = some ':' from rfl, Option.mem_some_iff] at mem
    exact mem ▸ by decide

theorem attribute_inLine : ∀ c ∈ ATTRIBUTE, c ≠ '\n' := by
  rintro c mem rfl
  exact absurd mem (by decide)

/-- A carriage return at the end of a line is trimmed anyway. -/
theorem stripAttribute_stripCr (line : List Char) : stripAttribute (stripCr line) = stripAttribute line := by
  rcases stripCr_cases line with same | split
  · rw [same]
  · unfold stripAttribute
    conv_rhs => rw [split]
    rw [trim_append_right (List.forall_mem_singleton.2 (by decide))]

/-- An attribute that begins its line is read to the end of the line. -/
theorem stripAttribute_begins (begins : ∀ c ∈ line, isWhitespace c = true) (text : List Char) :
    stripAttribute (line ++ (ATTRIBUTE ++ text)) = some (text.rdropWhile isWhitespace) := by
  unfold stripAttribute
  rw [trim_append_left begins, trim_append_trimmed trimmed_attribute (by simp [ATTRIBUTE])]
  exact dropPrefix?_eq_some.2 rfl

/-- A line whose dark part, with what follows, does not begin with the attribute is not read. -/
theorem stripAttribute_eq_none
    (other : line.dropWhile isWhitespace = [] ∨ ¬ ATTRIBUTE <+: line.dropWhile isWhitespace ++ text) :
    stripAttribute line = none := by
  rw [Option.eq_none_iff_forall_ne_some]
  intro rest found
  have front : ATTRIBUTE <+: line.dropWhile isWhitespace :=
    List.IsPrefix.trans ⟨rest, (dropPrefix?_eq_some.1 found).symm⟩ (List.rdropWhile_prefix isWhitespace _)
  rcases other with white | other
  · rw [white] at front
    exact absurd (List.prefix_nil.1 front) (by decide)
  · exact other (front.trans (List.prefix_append _ _))

/-- The line that begins with the attribute is read. -/
theorem findSome?_begins (begins : ∀ c ∈ line, isWhitespace c = true) (rest : List Char) :
    (linesFrom line (ATTRIBUTE ++ rest)).findSome? stripAttribute = some ((lineRest rest).rdropWhile isWhitespace) := by
  have some_ : line ++ ATTRIBUTE ≠ [] := by simp [ATTRIBUTE]
  obtain ⟨l, all, whole⟩ := linesFrom_cons some_ rest
  have same : stripAttribute l = some ((lineRest rest).rdropWhile isWhitespace) := by
    rw [← stripAttribute_begins begins]
    rw [List.append_assoc] at whole
    rcases whole with rfl | rfl
    · rfl
    · exact stripAttribute_stripCr _
  rw [linesFrom_append attribute_inLine, all, List.findSome?_cons, same]

theorem nativePlace_cons {dark : Bool} {c : Char} {cs : List Char}
    (other : dark = false → ¬ ATTRIBUTE <+: c :: cs) :
    nativePlace dark (c :: cs) = nativePlace (c ≠ '\n' && (dark || !isWhitespace c)) cs := by
  have none_ : (if dark then none else (c :: cs).dropPrefix? ATTRIBUTE) = none := by
    split_ifs with h
    · rfl
    · rw [Option.eq_none_iff_forall_ne_some]
      exact fun rest found => other (Bool.not_eq_true _ ▸ h) ⟨rest, (dropPrefix?_eq_some.1 found).symm⟩
  rw [nativePlace, none_]

theorem nativePlace_attribute (rest : List Char) : nativePlace false (ATTRIBUTE ++ rest) = some rest := by
  have here : ('a' :: (ATTRIBUTE.tail ++ rest)).dropPrefix? ATTRIBUTE = some rest := dropPrefix?_eq_some.2 rfl
  show nativePlace false ('a' :: (ATTRIBUTE.tail ++ rest)) = some rest
  rw [nativePlace, if_neg Bool.false_ne_true, here]

/-- What is read of a text behind the beginning of a line: if that is dark, it does not
begin with the attribute. -/
theorem findSome?_linesFrom
    (other : line.dropWhile isWhitespace = [] ∨ ¬ ATTRIBUTE <+: line.dropWhile isWhitespace ++ text) :
    (linesFrom line text).findSome? stripAttribute =
      (nativePlace (!(line.dropWhile isWhitespace).isEmpty) text).map fun rest =>
        (lineRest rest).rdropWhile isWhitespace := by
  induction text generalizing line with
  | nil =>
    unfold linesFrom
    split
    · rfl
    · rw [List.findSome?_cons, stripAttribute_eq_none other]
      rfl
  | cons c cs ih =>
    by_cases newline : c = '\n'
    · subst newline
      rw [linesFrom, if_pos rfl, List.findSome?_cons, stripAttribute_stripCr, stripAttribute_eq_none other,
        nativePlace_cons fun _ found => absurd (List.cons_prefix_cons.1 found).1 (by decide)]
      exact ih (.inl rfl)
    · cases lead : line.dropWhile isWhitespace with
      | nil =>
        have begins : ∀ x ∈ line, isWhitespace x = true := List.dropWhile_eq_nil_iff.1 lead
        by_cases found : ATTRIBUTE <+: c :: cs
        · obtain ⟨rest, whole⟩ := found
          rw [← whole, findSome?_begins begins, List.isEmpty_nil, Bool.not_true, nativePlace_attribute]
          rfl
        · have next : (line ++ [c]).dropWhile isWhitespace = if isWhitespace c then [] else [c] := by
            rw [List.dropWhile_append_of_pos begins]
            cases white : isWhitespace c <;> simp [white]
          rw [linesFrom, if_neg newline, ih, next, List.isEmpty_nil, Bool.not_true, nativePlace_cons fun _ => found]
          · cases white : isWhitespace c <;> simp [newline]
          · rw [next]
            split
            · exact .inl rfl
            · exact .inr found
      | cons x more =>
        have next : (line ++ [c]).dropWhile isWhitespace = x :: more ++ [c] := by
          rw [List.dropWhile_append, lead]
          rfl
        rw [linesFrom, if_neg newline, ih, next, nativePlace_cons (fun dark => by cases dark)]
        · simp [newline]
        · right
          rw [next, List.append_assoc]
          rw [lead] at other
          exact other.resolve_left (List.cons_ne_nil _ _)

end Native

/-! ## The rest of a line -/

section Rest

variable {g t rest : List Char}

/-- Within a line, the two ways to trim agree exactly if only white space comes
behind a line terminator and they agree about the ends before it. -/
theorem trim_line_iff (unbroken : ∀ c ∈ g, isLineTerminator c = false)
    (broken : ∀ c ∈ t.head?, isLineTerminator c = true) : trim isWhitespace (g ++ t) = trim isJsSpace g ↔
      (∀ c ∈ t, isWhitespace c = true) ∧ EndsAgree isWhitespace isJsSpace g := by
  by_cases white : ∀ c ∈ t, isWhitespace c = true
  · rw [trim_append_right white, trim_eq_trim_iff]
    exact ⟨fun h => ⟨white, h⟩, And.right⟩
  · refine ⟨fun same => ?_, fun h => absurd h.1 white⟩
    exfalso
    obtain ⟨a, b, whole, before, behind, trimmed⟩ := trim_spec isWhitespace (g ++ t)
    have kept : ∀ c ∈ trim isWhitespace (g ++ t), c ∈ g := by
      rw [same]
      exact fun c mem => (infix_trim isJsSpace g).subset mem
    rw [← List.append_assoc] at whole
    rcases List.append_eq_append_iff.1 whole.symm with ⟨d, -, tail⟩ | ⟨d, front, tail⟩
    · exact white fun c mem => behind c (by rw [tail]; exact List.mem_append_right _ mem)
    · -- `d` is not trimmed from the end: it has the terminator the rest begins with
      obtain ⟨c, d, rfl⟩ : ∃ c d', d = c :: d' := by
        cases d with
        | nil => exact (white fun c mem => behind c (by rwa [tail, List.nil_append] at mem)).elim
        | cons c d' => exact ⟨c, d', rfl⟩
      have terminator : isLineTerminator c = true := broken c (by rw [tail]; rfl)
      rcases List.append_eq_append_iff.1 front with ⟨e, -, inside⟩ | ⟨e, outside, inside⟩
      · have mem : c ∈ g := kept c (by rw [inside]; simp)
        rw [unbroken c mem] at terminator
        cases terminator
      · -- all before it is white space, and so is what is left of it
        cases left : trim isWhitespace (g ++ t) with
        | nil => exact white fun c mem => trim_eq_nil_iff.1 left c (List.mem_append_right _ mem)
        | cons x xs =>
          have dark := trimmed.head x (by rw [left]; rfl)
          have mem : x ∈ a := by
            rw [outside]
            exact List.mem_append_left _ (kept x (by rw [left]; exact List.mem_cons_self))
          rw [before x mem] at dark
          cases dark

/-- A line is its part before a line terminator, and the rest. -/
theorem lineRest_eq (rest : List Char) :
    lineRest rest = group rest ++ (lineRest rest).dropWhile (!isLineTerminator ·) := by
  have same : (lineRest rest).takeWhile (!isLineTerminator ·) = group rest := by
    unfold lineRest group
    rw [List.takeWhile_takeWhile]
    congr 1
    funext c
    by_cases newline : c = '\n'
    · subst newline
      decide
    · simp [newline]
  rw [← same, List.takeWhile_append_dropWhile]

theorem lineRest_iff (rest : List Char) : trim isWhitespace (lineRest rest) = trim isJsSpace (group rest) ↔
    (∀ c ∈ (lineRest rest).dropWhile (!isLineTerminator ·), isWhitespace c = true) ∧
      EndsAgree isWhitespace isJsSpace (group rest) := by
  have unbroken : ∀ c ∈ group rest, isLineTerminator c = false := fun c mem => by
    simpa using List.mem_takeWhile_imp mem
  have broken : ∀ c ∈ ((lineRest rest).dropWhile (!isLineTerminator ·)).head?, isLineTerminator c = true := by
    intro c first
    have dark := List.head?_dropWhile_not (!isLineTerminator ·) (lineRest rest)
    rw [first] at dark
    simpa using dark
  conv_lhs => rw [lineRest_eq rest]
  exact trim_line_iff unbroken broken

end Rest

/-! ## Agreement -/

section Agree

theorem trim_rdropWhile (p : Char → Bool) (l : List Char) : trim p (l.rdropWhile p) = trim p l := by
  conv_rhs => rw [← List.rdropWhile_append_rtakeWhile (p := p) (l := l)]
  rw [trim_append_right]
  intro c mem
  exact List.mem_takeWhile_imp (List.mem_reverse.1 (by simpa [List.rtakeWhile] using mem))

/-- `fingerprint` reads the rest of the line at its place. -/
theorem fingerprint_eq (sdp : List Char) :
    fingerprint sdp = ((nativePlace false sdp).map fun rest => trim isWhitespace (lineRest rest)).getD [] := by
  have read : (lines sdp).findSome? stripAttribute =
      (nativePlace false sdp).map fun rest => (lineRest rest).rdropWhile isWhitespace :=
    findSome?_linesFrom (.inl rfl)
  rw [fingerprint, read, Option.map_map]
  congr 2
  funext rest
  exact trim_rdropWhile isWhitespace (lineRest rest)

theorem matchFingerprint_eq (sdp : List Char) : matchFingerprint sdp = (webPlace sdp).map group := by
  induction sdp with
  | nil => rfl
  | cons c cs ih =>
    rw [matchFingerprint, webPlace]
    split
    · split
      · exact ih
      · rfl
    · exact ih

theorem fingerprintFromSdp_eq (sdp : List Char) :
    fingerprintFromSdp sdp = ((webPlace sdp).map fun rest => trim isJsSpace (group rest)).getD [] := by
  rw [fingerprintFromSdp, matchFingerprint_eq]
  cases webPlace sdp <;> rfl

end Agree

/-- The native parser reads the rest of the first line that begins with the attribute;
and the two read the same of exactly the unambiguous texts. -/
theorem fingerprints_agree_iff (sdp : List Char) :
    fingerprint sdp = ((nativePlace false sdp).map fun rest => trim isWhitespace (lineRest rest)).getD [] ∧
      (fingerprint sdp = fingerprintFromSdp sdp ↔ Unambiguous sdp) := by
  refine ⟨fingerprint_eq sdp, ?_⟩
  rw [fingerprint_eq, fingerprintFromSdp_eq]
  unfold Unambiguous
  cases nativePlace false sdp with
  | none =>
    cases webPlace sdp with
    | none => exact iff_of_true rfl trivial
    | some w => exact eq_comm.trans trim_eq_nil_iff
  | some n =>
    cases webPlace sdp with
    | none => exact trim_eq_nil_iff
    | some w =>
      dsimp only [Option.map_some, Option.getD_some]
      split_ifs with same
      · rw [← same]
        exact lineRest_iff n
      · constructor
        · intro equal
          exact ⟨_, trim_eq_iff.1 rfl, trim_eq_iff.1 equal.symm⟩
        · rintro ⟨t, native, web⟩
          rw [trim_eq_iff.2 native, trim_eq_iff.2 web]

/-- An attribute with nothing behind it stops neither parser. -/
example : nativePlace false "xa=fingerprint:\r\na=fingerprint:AB\r\n".toList =
    webPlace "xa=fingerprint:\r\na=fingerprint:AB\r\n".toList := by
  decide

/-- The server can give the two clients different fingerprints to bind. -/
theorem fingerprints_differ :
    fingerprint "a=x a=fingerprint:sha-256 CD\r\na=fingerprint:sha-256 AB\r\n".toList = "sha-256 AB".toList ∧
      fingerprintFromSdp "a=x a=fingerprint:sha-256 CD\r\na=fingerprint:sha-256 AB\r\n".toList =
        "sha-256 CD".toList := by
  decide

end ZortilWatch.Core
