import Mathlib.Data.List.DropRight
import Mathlib.Data.List.TakeWhile

/-!
# Texts

Trimming by a notion of white space, splitting at runs of separators, and the lines of
a text. Two notions of white space trim a text alike exactly if they agree about its ends
(`trim_eq_trim_iff`).
-/

namespace Text

universe u

variable {α : Type u}

/-! ## Trimming -/

/-- Take white space from both ends. -/
def trim (p : α → Bool) (l : List α) : List α := (l.dropWhile p).rdropWhile p

/-- No white space at either end. -/
structure Trimmed (p : α → Bool) (l : List α) : Prop where
  head : ∀ x ∈ l.head?, p x = false
  last : ∀ x ∈ l.getLast?, p x = false

/-- Two notions of white space agree about the ends of a text, less what is white
space to both. -/
structure EndsAgree (p q : α → Bool) (l : List α) : Prop where
  head : ∀ x ∈ (trim (fun x => p x && q x) l).head?, p x = q x
  last : ∀ x ∈ (trim (fun x => p x && q x) l).getLast?, p x = q x

/-- The text reads `m` between white space. -/
def Reads (p : α → Bool) (l m : List α) : Prop :=
  Trimmed p m ∧ ∃ a b, l = a ++ (m ++ b) ∧ (∀ x ∈ a, p x = true) ∧ ∀ x ∈ b, p x = true

section Trim

variable {p q : α → Bool} {l a b m : List α} {x : α}

instance : Decidable (EndsAgree p q l) :=
  decidable_of_iff
    ((∀ x ∈ (trim (fun x => p x && q x) l).head?, p x = q x) ∧
      ∀ x ∈ (trim (fun x => p x && q x) l).getLast?, p x = q x)
    ⟨fun h => ⟨h.1, h.2⟩, fun h => ⟨h.head, h.last⟩⟩

theorem rdropWhile_append_of_pos (white : ∀ x ∈ b, p x = true) : (a ++ b).rdropWhile p = a.rdropWhile p := by
  unfold List.rdropWhile
  rw [List.reverse_append, List.dropWhile_append_of_pos]
  intro x mem
  exact white x (List.mem_reverse.1 mem)

theorem last_rdropWhile (last : x ∈ (l.rdropWhile p).getLast?) : p x = false := by
  have some_ : l.rdropWhile p ≠ [] := fun empty => by rw [empty] at last; cases last
  have dark := List.rdropWhile_last_not p l some_
  rw [List.getLast?_eq_some_getLast some_] at last
  cases last
  exact Bool.eq_false_iff.2 dark

theorem Trimmed.dropWhile_append (h : Trimmed p m) (b : List α) (some_ : m ≠ []) :
    (m ++ b).dropWhile p = m ++ b := by
  cases m with
  | nil => exact absurd rfl some_
  | cons x m => exact List.dropWhile_cons_of_neg (by simp [h.head x rfl])

theorem Trimmed.rdropWhile (h : Trimmed p m) : m.rdropWhile p = m := by
  rw [List.rdropWhile_eq_self_iff]
  intro some_
  simp [h.last _ (List.getLast?_eq_some_getLast some_)]

/-- White space around a trimmed text. -/
theorem trim_eq_of_trimmed (h : Trimmed p m) (before : ∀ x ∈ a, p x = true) (behind : ∀ x ∈ b, p x = true) :
    trim p (a ++ (m ++ b)) = m := by
  unfold trim
  rw [List.dropWhile_append_of_pos before]
  by_cases empty : m = []
  · subst empty
    rw [List.nil_append, List.rdropWhile_eq_nil_iff]
    exact fun x mem => behind x ((List.dropWhile_suffix p).subset mem)
  · rw [h.dropWhile_append b empty, rdropWhile_append_of_pos behind, h.rdropWhile]

/-- What is trimmed is white space, and nothing of it is left. -/
theorem trim_spec (p : α → Bool) (l : List α) : ∃ a b, l = a ++ (trim p l ++ b) ∧
    (∀ x ∈ a, p x = true) ∧ (∀ x ∈ b, p x = true) ∧ Trimmed p (trim p l) := by
  refine ⟨l.takeWhile p, (l.dropWhile p).rtakeWhile p, ?_, fun x => List.mem_takeWhile_imp, ?_, ?_, ?_⟩
  · unfold trim
    rw [List.rdropWhile_append_rtakeWhile, List.takeWhile_append_dropWhile]
  · intro x mem
    exact List.mem_takeWhile_imp (List.mem_reverse.1 (by simpa [List.rtakeWhile] using mem))
  · intro x first
    obtain ⟨b, whole⟩ := List.rdropWhile_prefix p (l := l.dropWhile p)
    have first' : (l.dropWhile p).head? = some x := by
      rw [← whole, List.head?_append, show ((l.dropWhile p).rdropWhile p).head? = some x from first]
      rfl
    have dark := List.head?_dropWhile_not p l
    rwa [first'] at dark
  · exact fun x last => last_rdropWhile last

/-- What a text reads is what is left when it is trimmed. -/
theorem trim_eq_iff : trim p l = m ↔ Reads p l m := by
  constructor
  · rintro rfl
    obtain ⟨a, b, whole, before, behind, trimmed⟩ := trim_spec p l
    exact ⟨trimmed, a, b, whole, before, behind⟩
  · rintro ⟨trimmed, a, b, rfl, before, behind⟩
    exact trim_eq_of_trimmed trimmed before behind

theorem trim_self (h : Trimmed p m) : trim p m = m := by
  have same := trim_eq_of_trimmed (a := []) (b := []) h (by simp) (by simp)
  rwa [List.append_nil] at same

theorem trim_eq_nil (white : ∀ x ∈ l, p x = true) : trim p l = [] := by
  have same := trim_eq_of_trimmed (p := p) (a := l) (b := []) (m := []) ⟨nofun, nofun⟩ white (by simp)
  rwa [List.append_nil, List.append_nil] at same

theorem trim_eq_nil_iff : trim p l = [] ↔ ∀ x ∈ l, p x = true := by
  refine ⟨fun empty => ?_, trim_eq_nil⟩
  obtain ⟨a, b, whole, before, behind, -⟩ := trim_spec p l
  rw [empty, List.nil_append] at whole
  intro x mem
  rw [whole] at mem
  exact (List.mem_append.1 mem).elim (before x) (behind x)

theorem trim_append_left (white : ∀ x ∈ a, p x = true) (b : List α) : trim p (a ++ b) = trim p b := by
  unfold trim
  rw [List.dropWhile_append_of_pos white]

theorem trim_append_right (white : ∀ x ∈ b, p x = true) (a : List α) : trim p (a ++ b) = trim p a := by
  obtain ⟨c, d, whole, before, behind, trimmed⟩ := trim_spec p a
  have same := trim_eq_of_trimmed (b := d ++ b) trimmed before
    fun x mem => (List.mem_append.1 mem).elim (behind x) (white x)
  rw [← List.append_assoc, ← List.append_assoc, List.append_assoc c, ← whole] at same
  exact same

theorem infix_trim (p : α → Bool) (l : List α) : trim p l <:+: l := by
  obtain ⟨a, b, whole, -⟩ := trim_spec p l
  exact ⟨a, b, by rw [List.append_assoc]; exact whole.symm⟩

theorem Trimmed.reverse (h : Trimmed p m) : Trimmed p m.reverse where
  head x first := h.last x (by rwa [List.head?_reverse] at first)
  last x last := h.head x (by rwa [List.getLast?_reverse] at last)

theorem trim_reverse (p : α → Bool) (l : List α) : trim p l.reverse = (trim p l).reverse := by
  obtain ⟨a, b, whole, before, behind, trimmed⟩ := trim_spec p l
  have same := trim_eq_of_trimmed (a := b.reverse) (b := a.reverse) trimmed.reverse
    (fun x mem => behind x (List.mem_reverse.1 mem)) fun x mem => before x (List.mem_reverse.1 mem)
  have turned : l.reverse = b.reverse ++ ((trim p l).reverse ++ a.reverse) := by
    conv_lhs => rw [whole]
    simp only [List.reverse_append, List.append_assoc]
  rwa [← turned] at same

/-- Behind a dark text only the white space at the end goes. -/
theorem trim_append_trimmed (h : Trimmed p m) (some_ : m ≠ []) (b : List α) :
    trim p (m ++ b) = m ++ b.rdropWhile p := by
  unfold trim
  rw [h.dropWhile_append b some_]
  by_cases white : ∀ x ∈ b, p x = true
  · rw [rdropWhile_append_of_pos white, h.rdropWhile, List.rdropWhile_eq_nil_iff.2 white, List.append_nil]
  · have rest : (b.reverse.dropWhile p).isEmpty = false := by
      rw [List.isEmpty_eq_false_iff]
      exact fun empty => white fun x mem => List.dropWhile_eq_nil_iff.1 empty x (List.mem_reverse.2 mem)
    unfold List.rdropWhile
    rw [List.reverse_append, List.dropWhile_append, if_neg (by simp [rest])]
    simp

/-- A text that begins dark keeps its first character. -/
theorem head?_trim {x : α} (dark : p x = false) (l : List α) : (trim p (x :: l)).head? = some x := by
  unfold trim
  rw [List.dropWhile_cons_of_neg (by simp [dark])]
  obtain ⟨b, whole⟩ := List.rdropWhile_prefix p (l := x :: l)
  cases kept : (x :: l).rdropWhile p with
  | nil =>
    have white := List.rdropWhile_eq_nil_iff.1 kept x List.mem_cons_self
    rw [dark] at white
    cases white
  | cons y m =>
    rw [kept] at whole
    cases whole
    rfl

/-- If two trimmings of a text are the same, they agree about its first character. -/
theorem head_agrees (same : trim p (x :: l) = trim q (x :: l)) (dark : (p x && q x) = false) : p x = q x := by
  have one : ∀ p q : α → Bool, trim p (x :: l) = trim q (x :: l) → p x = false → q x = false := by
    intro p q same dark
    have first := head?_trim dark l
    rw [same] at first
    obtain ⟨-, -, -, -, -, trimmed⟩ := trim_spec q (x :: l)
    exact trimmed.head x first
  cases hp : p x with
  | false => exact (one p q same hp).symm
  | true =>
    rw [hp, Bool.true_and] at dark
    have := one q p same.symm dark
    rw [hp] at this
    cases this

/-- Two notions of white space trim a text alike exactly if they agree about its
ends. -/
theorem trim_eq_trim_iff : trim p l = trim q l ↔ EndsAgree p q l := by
  obtain ⟨a, b, whole, before, behind, trimmed⟩ := trim_spec (fun x => p x && q x) l
  have strip : ∀ r : α → Bool, (∀ x, (p x && q x) = true → r x = true) →
      trim r l = trim r (trim (fun x => p x && q x) l) := by
    intro r weaker
    conv_lhs => rw [whole]
    rw [trim_append_left fun x mem => weaker x (before x mem), trim_append_right fun x mem => weaker x (behind x mem)]
  have strip_p := strip p fun x both => (Bool.and_eq_true_iff.1 both).1
  have strip_q := strip q fun x both => (Bool.and_eq_true_iff.1 both).2
  rw [strip_p, strip_q]
  constructor
  · intro same
    refine ⟨fun x first => ?_, fun x last => ?_⟩
    · obtain ⟨rest, core⟩ := List.head?_eq_some_iff.1 first
      rw [core] at same
      exact head_agrees same (trimmed.head x first)
    · have first : (trim (fun x => p x && q x) l).reverse.head? = some x := by rwa [List.head?_reverse]
      obtain ⟨rest, core⟩ := List.head?_eq_some_iff.1 first
      have turned : trim p (x :: rest) = trim q (x :: rest) := by
        rw [← core, trim_reverse, trim_reverse, same]
      exact head_agrees turned (trimmed.last x last)
  · intro agree
    have dark : ∀ x : α, (p x && q x) = false → p x = q x → p x = false ∧ q x = false := by
      intro x both same
      rw [same, Bool.and_self] at both
      exact ⟨same.trans both, both⟩
    rw [trim_self ⟨fun x first => (dark x (trimmed.head x first) (agree.head x first)).1,
        fun x last => (dark x (trimmed.last x last) (agree.last x last)).1⟩,
      trim_self ⟨fun x first => (dark x (trimmed.head x first) (agree.head x first)).2,
        fun x last => (dark x (trimmed.last x last) (agree.last x last)).2⟩]

end Trim

/-! ## Lengths -/

/-- The length of a JavaScript string: characters from 0x10000 on take two units. -/
def utf16Length (text : List Char) : Nat := text.length + text.countP fun c => 0x10000 ≤ c.toNat

theorem length_le_utf16Length (text : List Char) : text.length ≤ utf16Length text := Nat.le_add_right _ _

/-! ## Splitting -/

/-- The pieces between the runs of separators, the empty ones at the ends included. -/
def splitRuns (sep : α → Bool) : List α → List (List α)
  | [] => [[]]
  | x :: l =>
    if sep x then if l.head?.any sep then splitRuns sep l else [] :: splitRuns sep l
    else (splitRuns sep l).modifyHead (x :: ·)

section Split

variable {sep : α → Bool} {l a m : List α}

theorem splitRuns_dark (dark : ∀ x ∈ a, sep x = false) (l : List α) :
    splitRuns sep (a ++ l) = (splitRuns sep l).modifyHead (a ++ ·) := by
  induction a with
  | nil =>
    rw [List.nil_append]
    cases splitRuns sep l <;> rfl
  | cons x a ih =>
    rw [List.forall_mem_cons] at dark
    rw [List.cons_append, splitRuns, dark.1, if_neg Bool.false_ne_true, ih dark.2, List.modifyHead_modifyHead]
    rfl

/-- One run of separators between a piece and the rest. -/
theorem splitRuns_append (dark : ∀ x ∈ a, sep x = false) (run : ∀ x ∈ m, sep x = true) (some_ : m ≠ [])
    (stops : l.head?.any sep = false) : splitRuns sep (a ++ (m ++ l)) = a :: splitRuns sep l := by
  have behind : splitRuns sep (m ++ l) = [] :: splitRuns sep l := by
    induction m with
    | nil => exact absurd rfl some_
    | cons x m ih =>
      rw [List.forall_mem_cons] at run
      rw [List.cons_append, splitRuns, if_pos run.1]
      cases m with
      | nil =>
        rw [List.nil_append, stops]
        rfl
      | cons y m =>
        have next := run.2 y List.mem_cons_self
        rw [if_pos (by simp [next])]
        exact ih run.2 (List.cons_ne_nil y m)
  rw [splitRuns_dark dark, behind, List.modifyHead_cons, List.append_nil]

end Split

/-! ## Prefixes -/

section Prefix

variable {pat l rest : List α}

variable [BEq α] [LawfulBEq α]

theorem dropPrefix?_eq_some : l.dropPrefix? pat = some rest ↔ l = pat ++ rest := by
  rw [List.dropPrefix?_eq_some_iff]
  constructor
  · rintro ⟨p, rfl, same⟩
    rw [eq_of_beq same]
  · rintro rfl
    exact ⟨pat, rfl, BEq.refl pat⟩

end Prefix

/-! ## Lines -/

/-- The end of a line that a newline closes. -/
def stripCr (line : List Char) : List Char := if line.getLast? = some '\r' then line.dropLast else line

/-- The lines of a text behind the beginning of its first line. -/
def linesFrom (line : List Char) : List Char → List (List Char)
  | [] => if line.isEmpty then [] else [line]
  | c :: cs => if c = '\n' then stripCr line :: linesFrom [] cs else linesFrom (line ++ [c]) cs

/-- `str::lines`: a newline ends a line, with a carriage return before it; the end of
the text ends the last line. -/
def lines (text : List Char) : List (List Char) := linesFrom [] text

/-- The rest of the line. -/
def lineRest (text : List Char) : List Char := text.takeWhile (· ≠ '\n')

/-- The text behind the line. -/
def behindLine (text : List Char) : List Char := (text.dropWhile (· ≠ '\n')).tail

section Lines

variable {line text : List Char}

theorem stripCr_cases (line : List Char) : stripCr line = line ∨ line = stripCr line ++ ['\r'] := by
  unfold stripCr
  split
  · rename_i last
    obtain ⟨front, rfl⟩ := List.getLast?_eq_some_iff.1 last
    right
    rw [List.dropLast_concat]
  · exact .inl rfl

/-- Characters of the line in hand. -/
theorem linesFrom_append {more : List Char} (inLine : ∀ c ∈ more, c ≠ '\n') (text : List Char) :
    linesFrom line (more ++ text) = linesFrom (line ++ more) text := by
  induction more generalizing line with
  | nil => rw [List.nil_append, List.append_nil]
  | cons c more ih =>
    rw [List.cons_append, linesFrom, if_neg (inLine c List.mem_cons_self),
      ih fun c' mem => inLine c' (List.mem_cons_of_mem _ mem), List.append_assoc, List.singleton_append]

/-- The line in hand goes to the next newline. -/
theorem linesFrom_cons (some_ : line ≠ []) (text : List Char) :
    ∃ l, linesFrom line text = l :: lines (behindLine text) ∧
      (l = line ++ lineRest text ∨ l = stripCr (line ++ lineRest text)) := by
  induction text generalizing line with
  | nil =>
    refine ⟨line, ?_, .inl (List.append_nil _).symm⟩
    rw [linesFrom, if_neg (by simp [some_])]
    rfl
  | cons c cs ih =>
    unfold linesFrom
    split
    · rename_i newline
      subst newline
      refine ⟨stripCr line, rfl, .inr ?_⟩
      simp [lineRest]
    · rename_i inLine
      have some_ : line ++ [c] ≠ [] := by simp
      obtain ⟨l, all, whole⟩ := ih some_
      refine ⟨l, ?_, ?_⟩
      · rw [all, behindLine, behindLine, List.dropWhile_cons_of_pos (by simpa using inLine)]
      · have rest : lineRest (c :: cs) = c :: lineRest cs := List.takeWhile_cons_of_pos (by simpa using inLine)
        rw [rest]
        simpa using whole

end Lines

end Text
