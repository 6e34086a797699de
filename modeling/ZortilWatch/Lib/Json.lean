import Mathlib.Data.List.Basic

/-!
# JSON values between a writer and a reader

`Json N` is a JSON value over a type `N` of numbers; text is taken as the value
it spells. A `Codec` is what a writer and a reader do with the leaves: which
number the writer spells (`none` where it spells `null` instead), which number
the reader takes that for, and which strings the reader accepts. The reader also
bounds how deep arrays and objects nest.

`read_write_iff` is the round trip: a value comes back as itself exactly if it
is not too deep and every leaf of it comes back. `Json.text` is the text itself.
-/

universe u

/-- A JSON value. The members of an object are in the order of the object. -/
inductive Json (N : Type u) where
  | null
  | bool (b : Bool)
  | num (n : N)
  | str (s : String)
  | arr (items : List (Json N))
  | obj (members : List (String × Json N))

namespace Json

variable {N : Type u}

/-- A leaf that may fail to cross: a string or the name of a member, or a number. -/
inductive Atom (N : Type u) where
  | str (s : String)
  | num (n : N)

mutual

/-- How deep arrays and objects nest. -/
def depth : Json N → Nat
  | .arr items => depthItems items + 1
  | .obj members => depthMembers members + 1
  | _ => 0

def depthItems : List (Json N) → Nat
  | [] => 0
  | x :: xs => max (depth x) (depthItems xs)

def depthMembers : List (String × Json N) → Nat
  | [] => 0
  | (_, x) :: ms => max (depth x) (depthMembers ms)

end

mutual

def atoms : Json N → List (Atom N)
  | .num n => [.num n]
  | .str s => [.str s]
  | .arr items => atomsItems items
  | .obj members => atomsMembers members
  | _ => []

def atomsItems : List (Json N) → List (Atom N)
  | [] => []
  | x :: xs => atoms x ++ atomsItems xs

def atomsMembers : List (String × Json N) → List (Atom N)
  | [] => []
  | (k, x) :: ms => .str k :: (atoms x ++ atomsMembers ms)

end

mutual

/-- Put `f n` in the place of every number `n`. -/
def bindNum (f : N → Json N) : Json N → Json N
  | .null => .null
  | .bool b => .bool b
  | .num n => f n
  | .str s => .str s
  | .arr items => .arr (bindItems f items)
  | .obj members => .obj (bindMembers f members)

def bindItems (f : N → Json N) : List (Json N) → List (Json N)
  | [] => []
  | x :: xs => bindNum f x :: bindItems f xs

def bindMembers (f : N → Json N) : List (String × Json N) → List (String × Json N)
  | [] => []
  | (k, x) :: ms => (k, bindNum f x) :: bindMembers f ms

end

theorem bindItems_eq (f : N → Json N) (xs : List (Json N)) : bindItems f xs = xs.map (bindNum f) := by
  induction xs with
  | nil => rfl
  | cons x xs ih => rw [bindItems, ih, List.map_cons]

theorem bindMembers_eq (f : N → Json N) (ms : List (String × Json N)) :
    bindMembers f ms = ms.map fun m => (m.1, bindNum f m.2) := by
  induction ms with
  | nil => rfl
  | cons m ms ih => rw [bindMembers, ih, List.map_cons]

theorem depthItems_le {xs : List (Json N)} {n : Nat} : depthItems xs ≤ n ↔ ∀ x ∈ xs, depth x ≤ n := by
  induction xs with
  | nil => simp [depthItems]
  | cons x xs ih => rw [depthItems, Nat.max_le, ih, List.forall_mem_cons]

theorem depthMembers_le {ms : List (String × Json N)} {n : Nat} :
    depthMembers ms ≤ n ↔ ∀ m ∈ ms, depth m.2 ≤ n := by
  induction ms with
  | nil => simp [depthMembers]
  | cons m ms ih => rw [depthMembers, Nat.max_le, ih, List.forall_mem_cons]

theorem mem_atomsItems {xs : List (Json N)} {a : Atom N} : a ∈ atomsItems xs ↔ ∃ x ∈ xs, a ∈ atoms x := by
  induction xs with
  | nil => simp [atomsItems]
  | cons x xs ih => simp [atomsItems, ih]

theorem mem_atomsMembers {ms : List (String × Json N)} {a : Atom N} :
    a ∈ atomsMembers ms ↔ ∃ m ∈ ms, a = .str m.1 ∨ a ∈ atoms m.2 := by
  induction ms with
  | nil => simp [atomsMembers]
  | cons m ms ih => simp [atomsMembers, ih, or_assoc]

/-- Induction over a value, with what holds of every part at hand. -/
@[elab_as_elim]
theorem parts_induct {P : Json N → Prop} (null : P .null) (bool : ∀ b, P (.bool b)) (num : ∀ n, P (.num n))
    (str : ∀ s, P (.str s)) (arr : ∀ items, (∀ x ∈ items, P x) → P (.arr items))
    (obj : ∀ members, (∀ m ∈ members, P m.2) → P (.obj members)) (j : Json N) : P j :=
  Json.rec (motive_1 := P) (motive_2 := fun xs => ∀ x ∈ xs, P x) (motive_3 := fun ms => ∀ m ∈ ms, P m.2)
    (motive_4 := fun m => P m.2) null bool num str arr obj (by simp)
    (fun x xs hx hxs => List.forall_mem_cons.2 ⟨hx, hxs⟩) (by simp)
    (fun m ms hm hms => List.forall_mem_cons.2 ⟨hm, hms⟩) (fun _ _ h => h) j

theorem bindNum_bindNum (f g : N → Json N) (j : Json N) :
    bindNum g (bindNum f j) = bindNum (fun n => bindNum g (f n)) j := by
  induction j using parts_induct with
  | arr items ih =>
    simp only [bindNum, bindItems_eq, List.map_map, arr.injEq]
    exact List.map_congr_left ih
  | obj members ih =>
    simp only [bindNum, bindMembers_eq, List.map_map, obj.injEq]
    exact List.map_congr_left fun m hm => Prod.ext rfl (ih m hm)
  | _ => rfl

/-- A substitution of leaves for numbers keeps the depth. -/
theorem depth_bindNum {f : N → Json N} (leaf : ∀ n, (f n).depth = 0) {j : Json N} {k : Nat} :
    (bindNum f j).depth ≤ k ↔ j.depth ≤ k := by
  induction j using parts_induct generalizing k with
  | num n => simp [bindNum, leaf, depth]
  | arr items ih =>
    cases k with
    | zero => simp [bindNum, depth]
    | succ k =>
      simp only [bindNum, bindItems_eq, depth, Nat.add_le_add_iff_right, depthItems_le, List.forall_mem_map]
      exact forall₂_congr fun x hx => ih x hx
  | obj members ih =>
    cases k with
    | zero => simp [bindNum, depth]
    | succ k =>
      simp only [bindNum, bindMembers_eq, depth, Nat.add_le_add_iff_right, depthMembers_le, List.forall_mem_map]
      exact forall₂_congr fun m hm => ih m hm
  | _ => rfl

/-- The leaves after a substitution: the strings, and the leaves put in. -/
theorem mem_atoms_bindNum {f : N → Json N} {j : Json N} {a : Atom N} :
    a ∈ atoms (bindNum f j) ↔
      (∃ s, a = .str s ∧ .str s ∈ atoms j) ∨ ∃ n, .num n ∈ atoms j ∧ a ∈ atoms (f n) := by
  induction j using parts_induct with
  | arr items ih =>
    simp only [bindNum, bindItems_eq, atoms, mem_atomsItems, List.mem_map]
    constructor
    · rintro ⟨_, ⟨x, hx, rfl⟩, ha⟩
      rcases (ih x hx).1 ha with ⟨s, rfl, hs⟩ | ⟨n, hn, ha⟩
      · exact .inl ⟨s, rfl, x, hx, hs⟩
      · exact .inr ⟨n, ⟨x, hx, hn⟩, ha⟩
    · rintro (⟨s, rfl, x, hx, hs⟩ | ⟨n, ⟨x, hx, hn⟩, ha⟩)
      · exact ⟨_, ⟨x, hx, rfl⟩, (ih x hx).2 (.inl ⟨s, rfl, hs⟩)⟩
      · exact ⟨_, ⟨x, hx, rfl⟩, (ih x hx).2 (.inr ⟨n, hn, ha⟩)⟩
  | obj members ih =>
    simp only [bindNum, bindMembers_eq, atoms, mem_atomsMembers, List.mem_map]
    constructor
    · rintro ⟨_, ⟨m, hm, rfl⟩, rfl | ha⟩
      · exact .inl ⟨m.1, rfl, m, hm, .inl rfl⟩
      · rcases (ih m hm).1 ha with ⟨s, rfl, hs⟩ | ⟨n, hn, ha⟩
        · exact .inl ⟨s, rfl, m, hm, .inr hs⟩
        · exact .inr ⟨n, ⟨m, hm, .inr hn⟩, ha⟩
    · rintro (⟨s, rfl, m, hm, hs⟩ | ⟨n, ⟨m, hm, hn⟩, ha⟩)
      · refine ⟨_, ⟨m, hm, rfl⟩, ?_⟩
        rcases hs with hs | hs
        · exact .inl hs
        · exact .inr ((ih m hm).2 (.inl ⟨s, rfl, hs⟩))
      · have inside : Atom.num n ∈ atoms m.2 := hn.resolve_left (by simp)
        exact ⟨_, ⟨m, hm, rfl⟩, .inr ((ih m hm).2 (.inr ⟨n, inside, ha⟩))⟩
  | num n => simp [bindNum, atoms]
  | str s => simp [bindNum, atoms]
  | _ => simp [bindNum, atoms]

theorem map_eq_self {α : Type*} {f : α → α} {xs : List α} : xs.map f = xs ↔ ∀ x ∈ xs, f x = x := by
  induction xs with
  | nil => simp
  | cons x xs ih => rw [List.map_cons, List.cons.injEq, ih, List.forall_mem_cons]

/-- Only the numbers decide whether a substitution changes the value. -/
theorem bindNum_eq_self {f : N → Json N} {j : Json N} :
    bindNum f j = j ↔ ∀ n, Atom.num n ∈ atoms j → f n = .num n := by
  induction j using parts_induct with
  | arr items ih =>
    simp only [bindNum, bindItems_eq, arr.injEq, map_eq_self, atoms, mem_atomsItems]
    constructor
    · rintro same n ⟨x, hx, hn⟩
      exact (ih x hx).1 (same x hx) n hn
    · exact fun same x hx => (ih x hx).2 fun n hn => same n ⟨x, hx, hn⟩
  | obj members ih =>
    simp only [bindNum, bindMembers_eq, obj.injEq, map_eq_self, atoms, mem_atomsMembers, reduceCtorEq, false_or]
    constructor
    · rintro same n ⟨m, hm, hn⟩
      exact (ih m hm).1 (Prod.ext_iff.1 (same m hm)).2 n hn
    · exact fun same m hm => Prod.ext rfl ((ih m hm).2 fun n hn => same n ⟨m, hm, hn⟩)
  | num n => simp [bindNum, atoms]
  | _ => simp [bindNum, atoms]

end Json

/-- What a writer and a reader of JSON do with its leaves. -/
structure Codec (N : Type u) where
  /-- The number written for a number; `none` is written `null`. -/
  write : N → Option N
  /-- The number the reader takes a written number for. -/
  read : N → Option N
  /-- The strings the reader accepts. -/
  accepts : String → Bool

namespace Codec

open Json

variable {N : Type u} (c : Codec N) {k : Nat} {j : Json N}

/-- The value as it is written. -/
def written (j : Json N) : Json N := j.bindNum fun n => ((c.write n).map .num).getD .null

def AcceptsAtom : Atom N → Prop
  | .str s => c.accepts s
  | .num n => (c.read n).isSome

instance : DecidablePred c.AcceptsAtom
  | .str s => inferInstanceAs (Decidable (c.accepts s = true))
  | .num n => inferInstanceAs (Decidable ((c.read n).isSome = true))

/-- What the reader gets from a written value, allowing arrays and objects to
nest `k` deep. -/
def reading (k : Nat) (j : Json N) : Option (Json N) :=
  if j.depth ≤ k ∧ ∀ a ∈ j.atoms, c.AcceptsAtom a then some (j.bindNum fun n => .num ((c.read n).getD n)) else none

/-- The leaf comes back as itself. -/
def KeepsAtom : Atom N → Prop
  | .str s => c.accepts s
  | .num n => ∃ m, c.write n = some m ∧ c.read m = some n

/-- The value nests at most `k` deep and all of its leaves come back as themselves. -/
def Keeps (k : Nat) (j : Json N) : Prop := j.depth ≤ k ∧ ∀ a ∈ j.atoms, c.KeepsAtom a

section Parts

@[simp] theorem keeps_bool (b : Bool) : c.Keeps k (.bool b) := by simp [Keeps, depth, atoms]

theorem keeps_num (n : N) : c.Keeps k (.num n) ↔ ∃ m, c.write n = some m ∧ c.read m = some n := by
  simp [Keeps, depth, atoms, KeepsAtom]

@[simp] theorem keeps_str (s : String) : c.Keeps k (.str s) ↔ c.accepts s := by
  simp [Keeps, depth, atoms, KeepsAtom]

@[simp] theorem keeps_arr (items : List (Json N)) : c.Keeps (k + 1) (.arr items) ↔ ∀ x ∈ items, c.Keeps k x := by
  simp only [Keeps, depth, atoms, Nat.add_le_add_iff_right, depthItems_le, mem_atomsItems]
  constructor
  · rintro ⟨shallow, keeps⟩ x hx
    exact ⟨shallow x hx, fun a ha => keeps a ⟨x, hx, ha⟩⟩
  · intro each
    refine ⟨fun x hx => (each x hx).1, ?_⟩
    rintro a ⟨x, hx, ha⟩
    exact (each x hx).2 a ha

@[simp] theorem keeps_obj (members : List (String × Json N)) :
    c.Keeps (k + 1) (.obj members) ↔ ∀ m ∈ members, c.accepts m.1 ∧ c.Keeps k m.2 := by
  simp only [Keeps, depth, atoms, Nat.add_le_add_iff_right, depthMembers_le, mem_atomsMembers]
  constructor
  · rintro ⟨shallow, keeps⟩ m hm
    exact ⟨keeps _ ⟨m, hm, .inl rfl⟩, shallow m hm, fun a ha => keeps a ⟨m, hm, .inr ha⟩⟩
  · intro each
    refine ⟨fun m hm => (each m hm).2.1, ?_⟩
    rintro a ⟨m, hm, rfl | ha⟩
    · exact (each m hm).1
    · exact (each m hm).2.2 a ha

end Parts

/-! ## The round trip -/

/-- What the reader takes a written value for. -/
def back (j : Json N) : Json N := (c.written j).bindNum fun n => .num ((c.read n).getD n)

theorem back_eq_self : c.back j = j ↔
    ∀ n, Atom.num n ∈ j.atoms → ∃ m, c.write n = some m ∧ (c.read m).getD m = n := by
  rw [back, written, bindNum_bindNum, bindNum_eq_self]
  refine forall₂_congr fun n _ => ?_
  cases c.write n with
  | none => simp [bindNum]
  | some m => simp [bindNum]

theorem reading_written : c.reading k (c.written j) = some (c.back j) ↔
    j.depth ≤ k ∧ ∀ a ∈ (c.written j).atoms, c.AcceptsAtom a := by
  have leaf : ∀ n, (((c.write n).map Json.num).getD .null).depth = 0 := by
    intro n
    cases c.write n <;> rfl
  rw [← (depth_bindNum leaf : (c.written j).depth ≤ k ↔ j.depth ≤ k), reading]
  split
  · rename_i accepted
    exact ⟨fun _ => accepted, fun _ => rfl⟩
  · rename_i refused
    exact ⟨fun h => (nomatch h), fun h => absurd h refused⟩

theorem reading_written_cases : c.reading k (c.written j) = none ∨
    c.reading k (c.written j) = some (c.back j) := by
  unfold reading
  split
  · exact .inr rfl
  · exact .inl rfl

theorem mem_atoms_written {a : Atom N} : a ∈ (c.written j).atoms ↔
    (∃ s, a = .str s ∧ .str s ∈ j.atoms) ∨ ∃ n m, .num n ∈ j.atoms ∧ c.write n = some m ∧ a = .num m := by
  rw [written, mem_atoms_bindNum]
  refine or_congr_right (exists_congr fun n => ?_)
  cases c.write n with
  | none => simp [atoms]
  | some m => simp [atoms]

/-- A value comes back as itself exactly if it is not too deep and all of its
leaves come back. -/
theorem read_write_iff : c.reading k (c.written j) = some j ↔ c.Keeps k j := by
  constructor
  · intro h
    have same : c.back j = j := by
      rcases c.reading_written_cases (k := k) (j := j) with h' | h'
      · rw [h'] at h
        cases h
      · exact Option.some.inj (h'.symm.trans h)
    obtain ⟨shallow, accepted⟩ := c.reading_written.1 (h.trans (congrArg some same.symm))
    refine ⟨shallow, fun a ha => ?_⟩
    cases a with
    | str s => exact accepted _ (c.mem_atoms_written.2 (.inl ⟨s, rfl, ha⟩))
    | num n =>
      obtain ⟨m, hm, hback⟩ := c.back_eq_self.1 same n ha
      have isSome : (c.read m).isSome := accepted _ (c.mem_atoms_written.2 (.inr ⟨n, m, ha, hm, rfl⟩))
      obtain ⟨n', hn'⟩ := Option.isSome_iff_exists.1 isSome
      rw [hn', Option.getD_some] at hback
      exact ⟨m, hm, hback ▸ hn'⟩
  · rintro ⟨shallow, keeps⟩
    have same : c.back j = j := c.back_eq_self.2 fun n hn => by
      obtain ⟨m, hm, hn'⟩ := keeps _ hn
      exact ⟨m, hm, by rw [hn', Option.getD_some]⟩
    refine (c.reading_written.2 ⟨shallow, fun a ha => ?_⟩).trans (congrArg some same)
    rcases c.mem_atoms_written.1 ha with ⟨s, rfl, hs⟩ | ⟨n, m, hn, hm, rfl⟩
    · exact keeps _ hs
    · obtain ⟨m', hm', hn'⟩ := keeps _ hn
      obtain rfl := Option.some.inj (hm.symm.trans hm')
      exact Option.isSome_iff_exists.2 ⟨n, hn'⟩

/-- An object is read member by member. -/
theorem reading_written_obj {members : List (String × Json N)} {content : Json N}
    (h : c.reading (k + 1) (c.written (.obj members)) = some content) :
    content = .obj (members.map fun m => (m.1, c.back m.2)) ∧
      ∀ m ∈ members, c.accepts m.1 ∧ c.reading k (c.written m.2) = some (c.back m.2) := by
  have whole : c.reading (k + 1) (c.written (.obj members)) = some (c.back (.obj members)) := by
    rcases c.reading_written_cases (k := k + 1) (j := .obj members) with h' | h'
    · rw [h'] at h
      cases h
    · exact h'
  constructor
  · rw [Option.some.inj (h.symm.trans whole)]
    simp only [back, written, bindNum, bindMembers_eq, List.map_map]
    rfl
  · obtain ⟨shallow, accepted⟩ := c.reading_written.1 whole
    simp only [depth, Nat.add_le_add_iff_right, depthMembers_le] at shallow
    simp only [written, bindNum, atoms, bindMembers_eq, mem_atomsMembers, List.mem_map] at accepted
    intro m hm
    refine ⟨accepted (.str m.1) ⟨_, ⟨m, hm, rfl⟩, .inl rfl⟩, c.reading_written.2 ⟨shallow m hm, fun a ha => ?_⟩⟩
    exact accepted a ⟨_, ⟨m, hm, rfl⟩, .inr ha⟩

end Codec

/-! ## Compact text -/

namespace Json

/-- A character inside a string literal. -/
def escape (c : Char) : String :=
  match c.toNat with
  | 0x08 => "\\b"
  | 0x09 => "\\t"
  | 0x0A => "\\n"
  | 0x0C => "\\f"
  | 0x0D => "\\r"
  | 0x22 => "\\\""
  | 0x5C => "\\\\"
  | n => if n < 0x20 then "\\u00" ++ String.ofList [Nat.digitChar (n / 16), Nat.digitChar (n % 16)] else c.toString

def quote (s : String) : String := "\"" ++ String.join (s.toList.map escape) ++ "\""

variable {N : Type u} (spell : N → String)

mutual

/-- The text without spaces, as writers make it by default. -/
def text : Json N → String
  | .null => "null"
  | .bool b => if b then "true" else "false"
  | .num n => spell n
  | .str s => quote s
  | .arr items => "[" ++ ",".intercalate (textItems items) ++ "]"
  | .obj members => "\x7b" ++ (",".intercalate (textMembers members) ++ "\x7d")

def textItems : List (Json N) → List String
  | [] => []
  | x :: xs => text x :: textItems xs

def textMembers : List (String × Json N) → List String
  | [] => []
  | (k, x) :: ms => (quote k ++ ":" ++ text x) :: textMembers ms

end

end Json
