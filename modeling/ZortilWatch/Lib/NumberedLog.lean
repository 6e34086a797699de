import Mathlib.Data.List.Nodup
import Mathlib.Data.List.Range

/-!
# Numbered logs

One log of the entries of many streams, each entry under the key of its stream.
The log is numbered if the entries of every stream carry the values of
0, 1, 2, ... in order. Where the values differ, so do all entries of such a log.
-/

namespace NumberedLog

variable {κ ν : Type*} [DecidableEq κ]

/-- The values logged under `k`, oldest first. -/
def under (log : List (κ × ν)) (k : κ) : List ν := (log.filter (·.1 = k)).map Prod.snd

theorem under_append (log log' : List (κ × ν)) (k : κ) : under (log ++ log') k = under log k ++ under log' k := by
  rw [under, List.filter_append, List.map_append]
  rfl

@[simp] theorem under_singleton_self (k : κ) (v : ν) : under [(k, v)] k = [v] := by simp [under]

theorem under_eq_nil {log : List (κ × ν)} {k : κ} (others : ∀ c ∈ log, c.1 ≠ k) : under log k = [] := by
  unfold under
  rw [List.map_eq_nil_iff, List.filter_eq_nil_iff]
  exact fun c mem same => others c mem (of_decide_eq_true same)

/-- Entries of one stream leave the others alone. -/
theorem under_append_other {log log' : List (κ × ν)} {k : κ} (others : ∀ c ∈ log', c.1 ≠ k) :
    under (log ++ log') k = under log k := by
  rw [under_append, under_eq_nil others, List.append_nil]

theorem length_under_le (log : List (κ × ν)) (k : κ) : (under log k).length ≤ log.length := by
  rw [under, List.length_map]
  exact List.length_filter_le _ _

theorem mem_under {log : List (κ × ν)} {c : κ × ν} (mem : c ∈ log) : c.2 ∈ under log c.1 :=
  List.mem_map_of_mem (List.mem_filter.2 ⟨mem, decide_eq_true rfl⟩)

/-- The `n`-th entry under each key carries `value n`. -/
def Numbered (value : Nat → ν) (log : List (κ × ν)) : Prop :=
  ∀ k, under log k = (List.range (under log k).length).map value

variable {value : Nat → ν} {log : List (κ × ν)}

theorem Numbered.nil : Numbered value ([] : List (κ × ν)) := fun _ => rfl

/-- A stream goes on with the number of entries it has. -/
theorem Numbered.snoc (h : Numbered value log) (k : κ) :
    Numbered value (log ++ [(k, value (under log k).length)]) := by
  intro k'
  by_cases same : k' = k
  · subst same
    rw [under_append, under_singleton_self, List.length_append, List.length_singleton, List.range_succ,
      List.map_append, ← h k']
    rfl
  · have others : ∀ c ∈ [(k, value (under log k).length)], c.1 ≠ k' := by
      intro c mem
      rw [List.mem_singleton.1 mem]
      exact fun h => same h.symm
    rw [under_append_other others]
    exact h k'

/-- A log repeats an entry only within a stream. -/
theorem nodup_of_under (each : ∀ k, (under log k).Nodup) : log.Nodup := by
  induction log with
  | nil => exact List.nodup_nil
  | cons c log ih =>
    have own : under (c :: log) c.1 = c.2 :: under log c.1 := by simp [under]
    have first := each c.1
    rw [own, List.nodup_cons] at first
    refine List.nodup_cons.2 ⟨fun mem => first.1 (mem_under mem), ih fun k => ?_⟩
    have part : (under log k).Sublist (under (c :: log) k) :=
      ((List.sublist_cons_self c log).filter _).map _
    exact (each k).sublist part

/-- Values that differ make the entries differ. -/
theorem Numbered.nodup (h : Numbered value log) (differ : ∀ k m n, m < (under log k).length →
    n < (under log k).length → value m = value n → m = n) : log.Nodup := by
  refine nodup_of_under fun k => ?_
  rw [h k]
  refine List.Nodup.map_on (fun m hm n hn same => ?_) List.nodup_range
  exact differ k m n (List.mem_range.1 hm) (List.mem_range.1 hn) same

end NumberedLog
