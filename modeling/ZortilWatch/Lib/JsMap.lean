import Mathlib.Data.List.Basic
import Mathlib.Data.List.Nodup

/-!
# Insertion-ordered maps and sets

`JsMap` and `JsSet` are the `Map` and `Set` of JavaScript: iteration follows
insertion, and writing to a key that is present keeps its place. Uniqueness of
keys is a field, so it is proved here once and no user of a map meets it again.
Programs see a map through `get`; `get_set` and `get_delete` decide every read
after a write, and `count_set` and `count_delete` say what a write does to the
number of values that satisfy a test.
-/

universe u v

/-- A map whose entries are listed in insertion order. -/
structure JsMap (α : Type u) (β : Type v) where
  entries : List (α × β)
  nodup : (entries.map Prod.fst).Nodup
  deriving DecidableEq

/-- A set whose elements are listed in insertion order. -/
@[ext] structure JsSet (α : Type u) where
  elems : List α
  nodup : elems.Nodup
  deriving DecidableEq

section Assoc

variable {α : Type u} {β : Type v} [DecidableEq α]

/-- The value listed under `k`. -/
def assocGet : List (α × β) → α → Option β
  | [], _ => none
  | e :: m, k => if e.1 = k then some e.2 else assocGet m k

/-- Write in place when `k` is listed, at the end otherwise. -/
def assocSet : List (α × β) → α → β → List (α × β)
  | [], k, v => [(k, v)]
  | e :: m, k, v => if e.1 = k then (k, v) :: m else e :: assocSet m k v

theorem keys_assocSet (m : List (α × β)) (k : α) (v : β) :
    (assocSet m k v).map Prod.fst =
      if k ∈ m.map Prod.fst then m.map Prod.fst else m.map Prod.fst ++ [k] := by
  induction m with
  | nil => simp [assocSet]
  | cons e m ih =>
    by_cases h : e.1 = k
    · simp [assocSet, h]
    · simp only [assocSet, h, if_false, List.map_cons, ih, List.mem_cons, Ne.symm h, false_or]
      split <;> simp

theorem assocSet_fresh {m : List (α × β)} {k : α} (fresh : k ∉ m.map Prod.fst) (v : β) :
    assocSet m k v = m ++ [(k, v)] := by
  induction m with
  | nil => rfl
  | cons e m ih =>
    rw [List.map_cons, List.mem_cons, not_or] at fresh
    rw [assocSet, if_neg (Ne.symm fresh.1), ih fresh.2, List.cons_append]

theorem assocGet_set (m : List (α × β)) (k k' : α) (v : β) :
    assocGet (assocSet m k v) k' = if k = k' then some v else assocGet m k' := by
  induction m with
  | nil => simp [assocSet, assocGet]
  | cons e m ih =>
    by_cases h : e.1 = k
    · by_cases h' : k = k' <;> simp [assocSet, assocGet, h, h']
    · by_cases h' : e.1 = k'
      · have : k ≠ k' := fun hk => h (h'.trans hk.symm)
        rw [assocSet, if_neg h]
        simp [assocGet, h', this]
      · rw [assocSet, if_neg h]
        simp [assocGet, h', ih]

theorem assocGet_filter (m : List (α × β)) (k k' : α) :
    assocGet (m.filter fun e => e.1 ≠ k) k' = if k = k' then none else assocGet m k' := by
  induction m with
  | nil => simp [assocGet]
  | cons e m ih =>
    by_cases h : e.1 = k
    · by_cases h' : k = k' <;> simp_all [assocGet]
    · by_cases h' : e.1 = k'
      · have : k ≠ k' := fun hk => h (h'.trans hk.symm)
        simp_all [assocGet]
      · simp_all [assocGet]

theorem assocGet_mem {m : List (α × β)} {k : α} {v : β} (h : assocGet m k = some v) : (k, v) ∈ m := by
  induction m with
  | nil => cases h
  | cons e m ih =>
    by_cases he : e.1 = k
    · simp only [assocGet, he, if_true, Option.some.injEq] at h
      exact List.mem_cons.2 (.inl (Prod.ext he.symm h.symm))
    · simp only [assocGet, he, if_false] at h
      exact List.mem_cons_of_mem _ (ih h)

theorem assocGet_of_mem {m : List (α × β)} (hn : (m.map Prod.fst).Nodup) {k : α} {v : β}
    (h : (k, v) ∈ m) : assocGet m k = some v := by
  induction m with
  | nil => cases h
  | cons e m ih =>
    rw [List.map_cons, List.nodup_cons] at hn
    rcases List.mem_cons.1 h with rfl | h
    · simp [assocGet]
    · have : e.1 ≠ k := fun he => hn.1 (List.mem_map.2 ⟨(k, v), h, he.symm⟩)
      simp [assocGet, this, ih hn.2 h]

/-- Values under other keys keep their number, so a write trades the old value
under the key for the new one. -/
theorem countP_assocSet (p : β → Bool) (m : List (α × β)) (k : α) (v : β) :
    ((assocSet m k v).map Prod.snd).countP p + ((assocGet m k).elim 0 fun w => if p w then 1 else 0) =
      (m.map Prod.snd).countP p + if p v then 1 else 0 := by
  induction m with
  | nil => simp [assocSet, assocGet, List.countP_cons]
  | cons e m ih =>
    by_cases h : e.1 = k
    · simp only [assocSet, assocGet, h, if_true, List.map_cons, List.countP_cons, Option.elim_some]
      omega
    · simp only [assocSet, assocGet, h, if_false, List.map_cons, List.countP_cons]
      omega

theorem countP_filter_key (p : β → Bool) (m : List (α × β)) (hn : (m.map Prod.fst).Nodup) (k : α) :
    ((m.filter fun e => e.1 ≠ k).map Prod.snd).countP p +
      ((assocGet m k).elim 0 fun w => if p w then 1 else 0) = (m.map Prod.snd).countP p := by
  induction m with
  | nil => simp [assocGet]
  | cons e m ih =>
    rw [List.map_cons, List.nodup_cons] at hn
    by_cases h : e.1 = k
    · have hk : k ∉ m.map Prod.fst := h ▸ hn.1
      have hf : (m.filter fun e => e.1 ≠ k) = m :=
        List.filter_eq_self.2 fun x hx => by
          simpa using fun hxk : x.1 = k => hk (List.mem_map.2 ⟨x, hx, hxk⟩)
      rw [List.filter_cons_of_neg (by simp [h]), hf]
      simp [assocGet, h, List.countP_cons]
    · have := ih hn.2
      rw [List.filter_cons_of_pos (by simp [h])]
      simp only [assocGet, h, if_false, List.map_cons, List.countP_cons]
      omega

end Assoc

namespace JsMap

variable {α : Type u} {β : Type v}

def empty : JsMap α β := ⟨[], List.nodup_nil⟩

instance : EmptyCollection (JsMap α β) := ⟨empty⟩

def values (m : JsMap α β) : List β := m.entries.map Prod.snd

def size (m : JsMap α β) : Nat := m.entries.length

/-- The keys whose values satisfy a test. -/
def keysWhere (p : β → Bool) (m : JsMap α β) : List α := (m.entries.filter fun e => p e.2).map Prod.fst

theorem nodup_keysWhere (p : β → Bool) (m : JsMap α β) : (m.keysWhere p).Nodup :=
  m.nodup.sublist (List.filter_sublist.map _)

theorem count_eq_length_keysWhere (p : β → Bool) (m : JsMap α β) : m.values.countP p = (m.keysWhere p).length := by
  rw [keysWhere, List.length_map, ← List.countP_eq_length_filter, values, List.countP_map]
  rfl

variable [DecidableEq α]

def get (m : JsMap α β) (k : α) : Option β := assocGet m.entries k

def set (m : JsMap α β) (k : α) (v : β) : JsMap α β where
  entries := assocSet m.entries k v
  nodup := by
    rw [keys_assocSet]
    split
    · exact m.nodup
    · rename_i h
      simpa using List.Nodup.concat h m.nodup

def delete (m : JsMap α β) (k : α) : JsMap α β where
  entries := m.entries.filter fun e => e.1 ≠ k
  nodup := m.nodup.sublist (List.filter_sublist.map _)

theorem mem_entries {m : JsMap α β} {k : α} {v : β} : (k, v) ∈ m.entries ↔ m.get k = some v :=
  ⟨assocGet_of_mem m.nodup, assocGet_mem⟩

theorem get_set (m : JsMap α β) (k k' : α) (v : β) :
    (m.set k v).get k' = if k = k' then some v else m.get k' := assocGet_set _ _ _ _

@[simp] theorem get_set_self (m : JsMap α β) (k : α) (v : β) : (m.set k v).get k = some v := by
  simp [get_set]

theorem get_set_ne (m : JsMap α β) {k k' : α} (v : β) (h : k ≠ k') : (m.set k v).get k' = m.get k' := by
  simp [get_set, h]

theorem get_delete (m : JsMap α β) (k k' : α) :
    (m.delete k).get k' = if k = k' then none else m.get k' := assocGet_filter _ _ _

@[simp] theorem get_delete_self (m : JsMap α β) (k : α) : (m.delete k).get k = none := by
  simp [get_delete]

/-- A write under a fresh key adds one value. -/
theorem count_set_fresh (p : β → Bool) (m : JsMap α β) {k : α} (v : β) (h : m.get k = none) :
    (m.set k v).values.countP p = m.values.countP p + if p v then 1 else 0 := by
  have := countP_assocSet p m.entries k v
  rw [show assocGet m.entries k = none from h] at this
  simpa [values, set] using this

/-- A write under a present key trades the old value for the new one. -/
theorem count_set_of_get (p : β → Bool) (m : JsMap α β) {k : α} {w : β} (v : β) (h : m.get k = some w) :
    (m.set k v).values.countP p + (if p w then 1 else 0) = m.values.countP p + if p v then 1 else 0 := by
  have := countP_assocSet p m.entries k v
  rw [show assocGet m.entries k = some w from h] at this
  simpa [values, set] using this

/-- Deleting a present key takes its value away. -/
theorem count_delete (p : β → Bool) (m : JsMap α β) {k : α} {w : β} (h : m.get k = some w) :
    (m.delete k).values.countP p + (if p w then 1 else 0) = m.values.countP p := by
  have := countP_filter_key p m.entries m.nodup k
  rw [show assocGet m.entries k = some w from h] at this
  simpa [values, delete] using this

theorem mem_keysWhere {p : β → Bool} {m : JsMap α β} {k : α} :
    k ∈ m.keysWhere p ↔ ∃ v, m.get k = some v ∧ p v = true := by
  constructor
  · intro hk
    obtain ⟨e, he, rfl⟩ := List.mem_map.1 hk
    obtain ⟨hin, hp⟩ := List.mem_filter.1 he
    exact ⟨e.2, mem_entries.1 hin, hp⟩
  · rintro ⟨v, hv, hp⟩
    exact List.mem_map.2 ⟨(k, v), List.mem_filter.2 ⟨mem_entries.2 hv, hp⟩, rfl⟩

/-- Keys listed without repetition count the values under them. -/
theorem count_eq_length (p : β → Bool) (m : JsMap α β) {l : List α} (hn : l.Nodup)
    (h : ∀ k, k ∈ l ↔ ∃ v, m.get k = some v ∧ p v = true) : m.values.countP p = l.length := by
  have perm : l.Perm (m.keysWhere p) := (List.perm_ext_iff_of_nodup hn (m.nodup_keysWhere p)).2 fun k => by
    rw [h, mem_keysWhere]
  rw [perm.length_eq, count_eq_length_keysWhere]

/-- Maps with the same values that satisfy a test count the same. -/
theorem count_congr (p : β → Bool) {m m' : JsMap α β}
    (same : ∀ k v, p v = true → (m.get k = some v ↔ m'.get k = some v)) :
    m.values.countP p = m'.values.countP p := by
  rw [count_eq_length_keysWhere p m']
  apply count_eq_length p m (m'.nodup_keysWhere p)
  intro k
  rw [mem_keysWhere]
  constructor
  · rintro ⟨v, hv, hp⟩
    exact ⟨v, (same k v hp).2 hv, hp⟩
  · rintro ⟨v, hv, hp⟩
    exact ⟨v, (same k v hp).1 hv, hp⟩

theorem size_set_le (m : JsMap α β) (k : α) (v : β) : (m.set k v).size ≤ m.size + 1 := by
  have keys := congrArg List.length (keys_assocSet m.entries k v)
  rw [List.length_map] at keys
  show (assocSet m.entries k v).length ≤ m.entries.length + 1
  rw [keys]
  split
  · rw [List.length_map]
    omega
  · rw [List.length_append, List.length_map]
    exact Nat.le_refl _

end JsMap

namespace JsSet

variable {α : Type u}

def empty : JsSet α := ⟨[], List.nodup_nil⟩

instance : EmptyCollection (JsSet α) := ⟨empty⟩

instance : Membership α (JsSet α) := ⟨fun s a => a ∈ s.elems⟩

def size (s : JsSet α) : Nat := s.elems.length

@[simp] theorem mem_elems {s : JsSet α} {a : α} : a ∈ s.elems ↔ a ∈ s := Iff.rfl

@[simp] theorem not_mem_empty (a : α) : a ∉ (∅ : JsSet α) := List.not_mem_nil

variable [DecidableEq α]

instance (a : α) (s : JsSet α) : Decidable (a ∈ s) := inferInstanceAs (Decidable (a ∈ s.elems))

def add (s : JsSet α) (a : α) : JsSet α :=
  if h : a ∈ s.elems then s
  else ⟨s.elems ++ [a], by simpa using List.Nodup.concat h s.nodup⟩

def delete (s : JsSet α) (a : α) : JsSet α where
  elems := s.elems.filter (· ≠ a)
  nodup := s.nodup.sublist List.filter_sublist

@[simp] theorem mem_add {s : JsSet α} {a b : α} : b ∈ s.add a ↔ b = a ∨ b ∈ s := by
  unfold add
  split
  · rename_i h
    exact ⟨.inr, fun hb => hb.elim (fun e => e ▸ h) id⟩
  · show b ∈ s.elems ++ [a] ↔ _
    simp [or_comm]

@[simp] theorem mem_delete {s : JsSet α} {a b : α} : b ∈ s.delete a ↔ b ≠ a ∧ b ∈ s := by
  show b ∈ s.elems.filter _ ↔ _
  simp [and_comm]

@[simp] theorem add_add (s : JsSet α) (a : α) : (s.add a).add a = s.add a := by
  have h : a ∈ (s.add a).elems := mem_add.2 (.inl rfl)
  exact dif_pos h

@[simp] theorem delete_delete (s : JsSet α) (a : α) : (s.delete a).delete a = s.delete a := by
  ext1
  simp [delete, List.filter_filter]

end JsSet
