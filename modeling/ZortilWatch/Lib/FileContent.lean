import Mathlib.Data.List.Basic

/-!
# The content of a file

Files as lists: writing at a position, and the result of resuming a transfer behind
what is already there.
-/

variable {α : Type*}

section Write

variable [OfNat α 0]

/-- Write `data` at `offset`. A gap behind the end is filled with zeros. -/
def writeAt (content : List α) (offset : Nat) (data : List α) : List α :=
  content.take offset ++ List.replicate (offset - content.length) 0 ++ data ++ content.drop (offset + data.length)

theorem length_writeAt (content : List α) (offset : Nat) (data : List α) :
    (writeAt content offset data).length = max content.length (offset + data.length) := by
  simp only [writeAt, List.length_append, List.length_take, List.length_replicate, List.length_drop]
  omega

/-- At the end of a file writing is appending. -/
theorem writeAt_length (content data : List α) : writeAt content content.length data = content ++ data := by
  rw [writeAt, List.take_length, Nat.sub_self, List.replicate_zero, List.append_nil,
    List.drop_eq_nil_of_le (Nat.le_add_right _ _), List.append_nil]

/-- Writing what is there anyway only moves the end. -/
theorem writeAt_take {whole : List α} {offset upto : Nat} (n : Nat) (before : offset ≤ upto)
    (inside : upto ≤ whole.length) :
    writeAt (whole.take upto) offset ((whole.drop offset).take n) =
      whole.take (max upto (min (offset + n) whole.length)) := by
  have length : (whole.take upto).length = upto := List.length_take_of_le inside
  have data : ((whole.drop offset).take n).length = min n (whole.length - offset) := by
    rw [List.length_take, List.length_drop]
  have gap : offset - upto = 0 := by omega
  rw [writeAt, length, data, gap, List.replicate_zero, List.append_nil, List.take_take, Nat.min_eq_left before]
  have head : whole.take offset ++ (whole.drop offset).take n = whole.take (offset + n) := by
    rw [List.take_add]
  rw [head]
  rcases Nat.le_total (offset + n) upto with short | long
  · rw [show offset + min n (whole.length - offset) = offset + n by omega,
      show max upto (min (offset + n) whole.length) = upto by omega]
    have front : whole.take (offset + n) = (whole.take upto).take (offset + n) := by
      rw [List.take_take, Nat.min_eq_left short]
    rw [front, List.take_append_drop]
  · have nothing : (whole.take upto).drop (offset + min n (whole.length - offset)) = [] := by
      rw [List.drop_eq_nil_iff, length]
      omega
    rw [nothing, List.append_nil,
      show max upto (min (offset + n) whole.length) = min (offset + n) whole.length by omega,
      ← List.take_take, List.take_of_length_le (Nat.le_refl whole.length)]

/-- A beginning of a file stays one when the right bytes are written to it. -/
theorem writeAt_keeps_front {content whole : List α} (h : content <+: whole) {offset : Nat}
    (here : offset ≤ content.length) (n : Nat) : writeAt content offset ((whole.drop offset).take n) <+: whole := by
  have taken := List.prefix_iff_eq_take.1 h
  rw [taken, writeAt_take n here h.length_le]
  exact List.take_prefix _ _

end Write

/-! ## Reading -/

/-- A read of up to `n` bytes is one of just as many as it gives. -/
theorem take_length_take (content : List α) (n : Nat) : content.take (content.take n).length = content.take n := by
  rw [List.length_take, ← List.take_eq_take_min]

theorem read_le {content : List α} {offset : Nat} (inside : offset ≤ content.length) (n : Nat) :
    offset + ((content.drop offset).take n).length ≤ content.length := by
  rw [List.length_take, List.length_drop]
  omega

/-! ## Resuming -/

/-- What is at the path before the upload, and the rest of the file behind it. -/
def resumed (prior file : List α) : List α := prior ++ file.drop prior.length

theorem resumed_eq_iff (prior file : List α) : resumed prior file = file ↔ prior <+: file :=
  List.prefix_iff_eq_append.symm

theorem length_resumed {prior file : List α} (h : prior.length ≤ file.length) :
    (resumed prior file).length = file.length := by
  rw [resumed, List.length_append, List.length_drop]
  omega

/-- Behind the old content the result is the file. -/
theorem drop_resumed {prior file : List α} {offset : Nat} (h : prior.length ≤ offset) :
    (resumed prior file).drop offset = file.drop offset := by
  rw [resumed, List.drop_append, List.drop_eq_nil_of_le h, List.nil_append, List.drop_drop]
  congr 1
  omega

