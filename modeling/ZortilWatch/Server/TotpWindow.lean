import ZortilWatch.Server.Base32

/-!
# The acceptance window of one-time codes

`verifyTotp` compares with three counters, one after the other, and a counter
outside 64 bits would end it with an exception. For the times a clock shows it does
not, and the answer is exact: a code is accepted for the steps next to the current one and
for no other (`totp_window`).
-/

namespace ZortilWatch.Server

/-- Six decimal digits. -/
def SixDigits (code : List Char) : Prop := code.length = 6 ∧ ∀ c ∈ code, '0' ≤ c ∧ c ≤ '9'

/-- `code.replace(/\s+/g, "")`. -/
def withoutWhitespace (code : String) : List Char := code.toList.filter (!isWhitespace ·)

/-- The time step of an instant. -/
def stepOf (ms : Nat) : Nat := ms / 30000

/-- From 30 s on, the counters next to an instant are 64-bit numbers until long after the
last instant of a clock (`checkable_of_date`). -/
structure Checkable (now : Nat) : Prop where
  late : 30000 ≤ now
  fits : stepOf now + 1 < 2 ^ 64

theorem checkable_of_date {now : Nat} (late : 30000 ≤ now) (date : now ≤ 8640000000000000) : Checkable now :=
  ⟨late, by unfold stepOf; omega⟩

/-- `s` is the step of an instant or next to it. -/
def InWindow (now : Nat) (s : Int) : Prop := (stepOf now : Int) - 1 ≤ s ∧ s ≤ stepOf now + 1

variable {env : TotpEnv} {secret : String}

/-! ## Codes -/

theorem hotp_eq_none {counter : Int} (h : ¬ (0 ≤ counter ∧ counter < 2 ^ 64)) : hotp env secret counter = none := by
  unfold hotp writeBigUInt64BE
  rw [if_neg h]
  rfl

/-- Whatever the digest, a code has six digits. -/
theorem hotp_digits (env : TotpEnv) (secret : String) {counter : Int} (low : 0 ≤ counter) (high : counter < 2 ^ 64) :
    ∃ code, hotp env secret counter = some code ∧ SixDigits code.toList := by
  unfold hotp writeBigUInt64BE
  rw [if_pos ⟨low, high⟩]
  refine ⟨_, rfl, ?_⟩
  dsimp only
  rw [String.toList_ofList]
  generalize small_eq : (_ % 1000000 : Nat) = code
  have small : code < 10 ^ 6 := small_eq ▸ Nat.mod_lt _ (by decide)
  have short : (Nat.toDigits 10 code).length ≤ 6 := (Nat.length_toDigits_le_iff (by decide) (by decide)).2 small
  refine ⟨?_, fun c mem => ?_⟩
  · rw [List.length_append, List.length_replicate]
    omega
  · rcases List.mem_append.1 mem with zero | digit
    · rw [List.eq_of_mem_replicate zero]
      decide
    · have digit := Nat.isDigit_of_mem_toDigits (by decide) (by decide) digit
      simpa [Char.isDigit, Char.le_def] using digit

theorem sixDigits_of_hotp {counter : Int} {code : String} (h : hotp env secret counter = some code) :
    SixDigits code.toList := by
  by_cases inside : 0 ≤ counter ∧ counter < 2 ^ 64
  · obtain ⟨code', same, digits⟩ := hotp_digits env secret inside.1 inside.2
    rw [same] at h
    cases h
    exact digits
  · rw [hotp_eq_none inside] at h
    cases h

/-! ## Checks -/

/-- Where all counters have codes, the comparison finds a code that is among them. -/
theorem matchesAny_eq (clean : List Char) {step : Nat} {deltas : List Int}
    (returns : ∀ δ ∈ deltas, ∃ code, hotp env secret (step + δ) = some code) :
    ∃ found, matchesAny env secret clean step deltas = some found ∧
      (found = true ↔ ∃ δ ∈ deltas, hotp env secret (step + δ) = some (String.ofList clean)) := by
  induction deltas with
  | nil => exact ⟨false, rfl, by simp⟩
  | cons δ deltas ih =>
    obtain ⟨code, same⟩ := returns δ List.mem_cons_self
    obtain ⟨found, rest, spec⟩ := ih fun δ' mem => returns δ' (List.mem_cons_of_mem _ mem)
    unfold matchesAny
    simp only [same]
    split
    · rename_i equal
      refine ⟨true, rfl, iff_of_true rfl ⟨δ, List.mem_cons_self, ?_⟩⟩
      rw [same, ← equal, String.ofList_toList]
    · rename_i differ
      refine ⟨found, rest, spec.trans ⟨?_, ?_⟩⟩
      · rintro ⟨δ', mem, shown⟩
        exact ⟨δ', List.mem_cons_of_mem _ mem, shown⟩
      · rintro ⟨δ', mem, shown⟩
        rcases List.mem_cons.1 mem with rfl | mem
        · rw [same, Option.some.injEq] at shown
          rw [shown, String.toList_ofList] at differ
          exact absurd rfl differ
        · exact ⟨δ', mem, shown⟩

theorem inWindow_iff {now : Nat} {s : Int} : InWindow now s ↔ ∃ δ ∈ [0, -1, 1], (stepOf now + δ : Int) = s := by
  unfold InWindow
  constructor
  · rintro ⟨low, high⟩
    refine ⟨s - stepOf now, ?_, by omega⟩
    simp only [List.mem_cons, List.not_mem_nil, or_false]
    omega
  · rintro ⟨δ, mem, rfl⟩
    simp only [List.mem_cons, List.not_mem_nil, or_false] at mem
    omega

/-- The counters of the window have codes. -/
theorem Checkable.hotp_isSome {now : Nat} (check : Checkable now) {s : Int} (near : InWindow now s) :
    ∃ code, hotp env secret s = some code := by
  have late : 1 ≤ stepOf now := (Nat.le_div_iff_mul_le (by decide)).2 check.late
  have fits := check.fits
  obtain ⟨low, high⟩ := near
  have inside : 0 ≤ s ∧ s < 2 ^ 64 := by omega
  obtain ⟨code, same, -⟩ := hotp_digits env secret inside.1 inside.2
  exact ⟨code, same⟩

/-- `verifyTotp` answers, and yes exactly for the codes of the window. -/
theorem verifyTotp_spec (env : TotpEnv) (secret : String) {now : Nat} (check : Checkable now) (code : String) :
    ∃ accepted, verifyTotp env secret code now = some accepted ∧
      (accepted = true ↔ ∃ s, InWindow now s ∧ hotp env secret s = some (String.ofList (withoutWhitespace code))) := by
  unfold verifyTotp
  dsimp only
  split
  · have returns : ∀ δ ∈ [0, -1, 1], ∃ code, hotp env secret (stepOf now + δ) = some code := fun δ mem =>
      check.hotp_isSome (inWindow_iff.2 ⟨δ, mem, rfl⟩)
    obtain ⟨found, same, spec⟩ := matchesAny_eq (withoutWhitespace code) returns
    refine ⟨found, same, spec.trans ⟨?_, ?_⟩⟩
    · rintro ⟨δ, mem, shown⟩
      exact ⟨_, inWindow_iff.2 ⟨δ, mem, rfl⟩, shown⟩
    · rintro ⟨s, near, shown⟩
      obtain ⟨δ, mem, rfl⟩ := inWindow_iff.1 near
      exact ⟨δ, mem, shown⟩
  · rename_i malformed
    refine ⟨false, rfl, iff_of_false Bool.false_ne_true ?_⟩
    rintro ⟨s, -, shown⟩
    have digits := sixDigits_of_hotp shown
    rw [String.toList_ofList] at digits
    refine malformed ⟨digits.1, List.all_eq_true.2 fun c mem => ?_⟩
    simpa using digits.2 c mem

/-- Steps of instants within 30 s are next to each other. -/
theorem inWindow_of_near {t now : Nat} (near : t ≤ now + 30000 ∧ now ≤ t + 30000) : InWindow now (stepOf t) := by
  unfold InWindow stepOf
  omega

/-- Steps of instants 60 s apart are not. -/
theorem not_inWindow_of_far {t now : Nat} (far : now + 60000 ≤ t ∨ t + 60000 ≤ now) : ¬ InWindow now (stepOf t) := by
  unfold InWindow stepOf
  omega

/-- A counter of 64 bits has a code of six digits. From 30 s on, a code is accepted
exactly if it is that of a step within one of the current one; so one displayed at `t` is
accepted within 30 s of it, and 60 s away only if another step there has the same code. -/
theorem totp_window (env : TotpEnv) (secret : String) :
    (∀ counter : Int, 0 ≤ counter → counter < 2 ^ 64 →
      ∃ code, hotp env secret counter = some code ∧ SixDigits code.toList) ∧
    ∀ now, Checkable now →
      (∀ code, verifyTotp env secret code now = some true ↔
        ∃ s, InWindow now s ∧ hotp env secret s = some (String.ofList (withoutWhitespace code))) ∧
      ∀ t code, hotp env secret (stepOf t) = some (String.ofList (withoutWhitespace code)) →
        (t ≤ now + 30000 ∧ now ≤ t + 30000 → verifyTotp env secret code now = some true) ∧
        (now + 60000 ≤ t ∨ t + 60000 ≤ now →
          (∀ s, InWindow now s → s ≠ stepOf t → hotp env secret s ≠ hotp env secret (stepOf t)) →
          verifyTotp env secret code now = some false) := by
  refine ⟨fun counter => hotp_digits env secret, fun now check => ?_⟩
  have exact_ (code : String) : verifyTotp env secret code now = some true ↔
      ∃ s, InWindow now s ∧ hotp env secret s = some (String.ofList (withoutWhitespace code)) := by
    obtain ⟨accepted, same, spec⟩ := verifyTotp_spec env secret check code
    rw [same, Option.some.injEq]
    exact spec
  refine ⟨exact_, fun t code shown => ⟨fun near => ?_, fun far differ => ?_⟩⟩
  · exact (exact_ code).2 ⟨stepOf t, inWindow_of_near near, shown⟩
  · obtain ⟨accepted, same, spec⟩ := verifyTotp_spec env secret check code
    cases accepted with
    | false => exact same
    | true =>
      obtain ⟨s, near, code_eq⟩ := spec.1 rfl
      have other : s ≠ stepOf t := by
        rintro rfl
        exact not_inWindow_of_far far near
      exact absurd (code_eq.trans shown.symm) (differ s near other)

/-- A code of step 1, typed with blanks, is accepted at step 2 and refused at step 3. -/
theorem totp_window_rfc :
    verifyTotp rfcEnv "GEZDGNBVGY3TQOJQGEZDGNBVGY3TQOJQ" "287 082" 60000 = some true ∧
      verifyTotp rfcEnv "GEZDGNBVGY3TQOJQGEZDGNBVGY3TQOJQ" "287 082" 90000 = some false := by
  have window := (totp_window rfcEnv "GEZDGNBVGY3TQOJQGEZDGNBVGY3TQOJQ").2
  have shown : hotp rfcEnv "GEZDGNBVGY3TQOJQGEZDGNBVGY3TQOJQ" (stepOf 30000) =
      some (String.ofList (withoutWhitespace "287 082")) := by decide
  have soon := (window 60000 ⟨by decide, by decide⟩).2 30000 "287 082" shown
  have late := (window 90000 ⟨by decide, by decide⟩).2 30000 "287 082" shown
  refine ⟨soon.1 (by decide), late.2 (by decide) fun s near _ => ?_⟩
  have step : s = 2 ∨ s = 3 ∨ s = 4 := by
    have bounds : (3 : Int) - 1 ≤ s ∧ s ≤ 3 + 1 := near
    omega
  rcases step with rfl | rfl | rfl <;> decide

end ZortilWatch.Server
