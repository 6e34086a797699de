import Mathlib.Data.List.DropRight
import Mathlib.Data.String.Basic
import ZortilWatch.Lib.Text

/-!
# The file panels (`ui/src/App.tsx`, `core/src/files.rs`)

A panel shows a listing of `list_dir`, opens a directory by `joinPath` of the listed path
and the entry's name, and goes up by `parentPath`. Drives are listed as `C:\`, and
`parentPath` takes every path whose last separator is that of its drive for a drive: from a
directory right below a drive it goes up to the list of drives, and only there it does not
undo going down (`up_undoes_down_iff`).
-/

namespace ZortilWatch.Ui

open Text (utf16Length length_le_utf16Length)

/-- A string of JavaScript. -/
abbrev Path := List Char

/-- `[\\/]`. -/
def isSeparator (c : Char) : Bool := c = '\\' || c = '/'

/-- `p.replace(/[\\/]+$/, "")`. -/
def trimSeparators (p : Path) : Path := p.rdropWhile isSeparator

def joinPath (dir name : Path) : Path := if dir = [] then name else trimSeparators dir ++ '\\' :: name

/-- `p.slice(0, p.lastIndexOf(c))`, where there is a `c`. -/
def beforeLast (c : Char) : Path → Option Path
  | [] => none
  | x :: p =>
    match beforeLast c p with
    | some before => some (x :: before)
    | none => if x = c then some [] else none

def parentPath (p : Path) : Path :=
  match beforeLast '\\' (trimSeparators p) with
  | none => []
  | some before => if utf16Length before ≤ 2 then [] else before

/-! ## Listings -/

structure DirEntry where
  name : Path
  dir : Bool
  size : Nat
  deriving DecidableEq

structure Listing where
  path : Path
  entries : List DirEntry
  err : Option String

/-- What an entry of a directory can be called. -/
structure IsName (name : Path) : Prop where
  some_ : name ≠ []
  plain : ∀ c ∈ name, isSeparator c = false

/-- The file system of a Windows host. -/
structure FileSystem where
  rootExists : Path → Bool
  /-- The entries whose names and metadata could be read. -/
  readDir : Path → Except String (List DirEntry)
  names : ∀ path entries, readDir path = .ok entries → ∀ e ∈ entries, IsName e.name

/-- `A:\` to `Z:\`. -/
def drives : List Path := (List.range 26).map fun i => [Char.ofNat ('A'.toNat + i), ':', '\\']

/-- Directories first, then by name. -/
def entryLe (a b : DirEntry) : Bool := (a.dir && !b.dir) || (a.dir == b.dir && decide (a.name ≤ b.name))

def listDir (fs : FileSystem) (path : Path) : Listing :=
  if path = [] then
    { path := [], entries := (drives.filter fs.rootExists).map (⟨·, true, 0⟩), err := none }
  else
    match fs.readDir path with
    | .ok entries => { path := path, entries := entries.mergeSort entryLe, err := none }
    | .error e => { path := path, entries := [], err := some e }

/-- The paths a panel comes to by opening directories, from the list of drives on. -/
inductive Opened (fs : FileSystem) : Path → Prop where
  | roots : Opened fs []
  | entry {d : Path} {e : DirEntry} : Opened fs d → e ∈ (listDir fs d).entries → e.dir = true →
      Opened fs (joinPath d e.name)

/-- Equal up to separators at the end. -/
def SameDir (p q : Path) : Prop := trimSeparators p = trimSeparators q

instance (p q : Path) : Decidable (SameDir p q) := inferInstanceAs (Decidable (trimSeparators p = trimSeparators q))

/-! ## Paths -/

section Paths

variable {p d name : Path}

/-- A path that ends in a name has no separators at its end. -/
theorem trimSeparators_name (h : IsName name) (p : Path) : trimSeparators (p ++ name) = p ++ name := by
  refine List.rdropWhile_eq_self_iff.2 fun some_ => ?_
  have last : (p ++ name).getLast some_ = name.getLast h.some_ := List.getLast_append_of_ne_nil some_ h.some_
  rw [last, h.plain _ (List.getLast_mem h.some_)]
  exact Bool.false_ne_true

theorem beforeLast_eq_none {c : Char} (absent : c ∉ p) : beforeLast c p = none := by
  induction p with
  | nil => rfl
  | cons x p ih =>
    rw [List.mem_cons, not_or] at absent
    rw [beforeLast, ih absent.2]
    exact if_neg (Ne.symm absent.1)

theorem beforeLast_append {c : Char} (p : Path) (absent : c ∉ name) : beforeLast c (p ++ c :: name) = some p := by
  induction p with
  | nil => rw [List.nil_append, beforeLast, beforeLast_eq_none absent, if_pos rfl]
  | cons x p ih => rw [List.cons_append, beforeLast, ih]

theorem IsName.no_backslash (h : IsName name) : '\\' ∉ name := fun mem => by
  have plain := h.plain _ mem
  simp [isSeparator] at plain

/-- Up from a name behind a path. -/
theorem parentPath_name (h : IsName name) (p : Path) :
    parentPath (p ++ '\\' :: name) = if utf16Length p ≤ 2 then [] else p := by
  have trimmed : trimSeparators (p ++ '\\' :: name) = p ++ '\\' :: name := by
    have whole := trimSeparators_name h (p ++ ['\\'])
    rwa [List.append_assoc, List.singleton_append] at whole
  rw [parentPath, trimmed, beforeLast_append p h.no_backslash]

end Paths

/-! ## Directories -/

section Directories

variable {fs : FileSystem} {d : Path} {e : DirEntry}

/-- A directory of a drive. -/
def Below (d : Path) : Prop := ∃ p name, d = p ++ '\\' :: name ∧ IsName name ∧ 2 ≤ p.length

theorem drive_eq {root : Path} (h : root ∈ drives) : ∃ letter, root = [letter, ':', '\\'] ∧
    trimSeparators root = [letter, ':'] ∧ parentPath root = [] ∧ utf16Length [letter, ':'] ≤ 2 := by
  have all : ∀ root ∈ drives, root = [root.headD ' ', ':', '\\'] ∧ trimSeparators root = [root.headD ' ', ':'] ∧
      parentPath root = [] ∧ utf16Length [root.headD ' ', ':'] ≤ 2 := by decide
  exact ⟨_, all root h⟩

theorem entry_of_roots (mem : e ∈ (listDir fs []).entries) : e.name ∈ drives := by
  obtain ⟨root, listed, rfl⟩ := List.mem_map.1 mem
  exact List.mem_of_mem_filter listed

theorem entry_of_dir (some_ : d ≠ []) (mem : e ∈ (listDir fs d).entries) : IsName e.name := by
  rw [listDir, if_neg some_] at mem
  split at mem
  · rename_i entries read
    exact fs.names d entries read e (List.mem_mergeSort.1 mem)
  · cases mem

theorem mem_listDir {entries : List DirEntry} (some_ : d ≠ []) (read : fs.readDir d = .ok entries) (mem : e ∈ entries) :
    e ∈ (listDir fs d).entries := by
  rw [listDir, if_neg some_, read]
  exact List.mem_mergeSort.2 mem

theorem Below.trimmed (h : Below d) : trimSeparators d = d := by
  obtain ⟨p, name, rfl, isName, -⟩ := h
  have whole := trimSeparators_name isName (p ++ ['\\'])
  rwa [List.append_assoc, List.singleton_append] at whole

theorem Below.long (h : Below d) : 4 ≤ d.length := by
  obtain ⟨p, name, rfl, isName, long⟩ := h
  have some_ := List.length_pos_iff.2 isName.some_
  rw [List.length_append, List.length_cons]
  omega

/-- A panel shows the list of drives, a drive or a directory of one. -/
theorem Opened.cases (h : Opened fs d) : d = [] ∨ d ∈ drives ∨ Below d := by
  induction h with
  | roots => exact .inl rfl
  | @entry d e _ mem _ ih =>
    rcases ih with rfl | drive | below
    · exact .inr (.inl (entry_of_roots mem))
    · obtain ⟨letter, rfl, trimmed, -⟩ := drive_eq drive
      have isName := entry_of_dir (List.cons_ne_nil _ _) mem
      rw [joinPath, if_neg (List.cons_ne_nil _ _), trimmed]
      exact .inr (.inr ⟨[letter, ':'], e.name, rfl, isName, Nat.le_refl 2⟩)
    · have long := below.long
      have some_ : d ≠ [] := List.ne_nil_of_length_pos (by omega)
      rw [joinPath, if_neg some_, below.trimmed]
      exact .inr (.inr ⟨d, e.name, rfl, entry_of_dir some_ mem, by omega⟩)

/-- Going up behind going down leads back, except out of a directory right below a
drive. -/
theorem up_undoes_down_iff (fs : FileSystem) (d : Path) (opened : Opened fs d) (e : DirEntry)
    (mem : e ∈ (listDir fs d).entries) : SameDir (parentPath (joinPath d e.name)) d ↔ d ∉ drives := by
  rcases opened.cases with rfl | drive | below
  · obtain ⟨letter, -, -, up, -⟩ := drive_eq (entry_of_roots mem)
    rw [joinPath, if_pos rfl, up]
    exact iff_of_true rfl (by decide)
  · obtain ⟨letter, rfl, trimmed, -, short⟩ := drive_eq drive
    have isName := entry_of_dir (List.cons_ne_nil _ _) mem
    refine iff_of_false ?_ (not_not.2 drive)
    rw [joinPath, if_neg (List.cons_ne_nil _ _), trimmed, parentPath_name isName, if_pos short, SameDir, trimmed]
    exact (List.cons_ne_nil _ _).symm
  · have long := below.long
    have some_ : d ≠ [] := List.ne_nil_of_length_pos (by omega)
    have far : ¬ utf16Length d ≤ 2 := by
      have units := length_le_utf16Length d
      omega
    rw [joinPath, if_neg some_, below.trimmed, parentPath_name (entry_of_dir some_ mem), if_neg far]
    refine iff_of_true rfl fun drive => ?_
    obtain ⟨letter, rfl, -⟩ := drive_eq drive
    exact absurd long (by simp)

end Directories

/-- A disk on which every directory holds the directory `Users`. -/
def sampleDisk : FileSystem where
  rootExists root := root == "C:\\".toList
  readDir _ := .ok [⟨"Users".toList, true, 0⟩]
  names := by
    rintro path entries read e mem
    cases read
    rw [List.mem_singleton.1 mem]
    refine ⟨by decide, fun c mem => ?_⟩
    have plain : "Users".toList.all (!isSeparator ·) := by decide
    simpa using List.all_eq_true.1 plain c mem

def usersDir : DirEntry := ⟨"Users".toList, true, 0⟩

theorem mem_sampleDisk {d : Path} (some_ : d ≠ []) : usersDir ∈ (listDir sampleDisk d).entries :=
  mem_listDir some_ rfl List.mem_cons_self

theorem opened_drive : Opened sampleDisk "C:\\".toList :=
  .entry (e := ⟨"C:\\".toList, true, 0⟩) .roots (by decide) rfl

theorem up_undoes_down_users :
    SameDir (parentPath (joinPath "C:\\Users".toList "Users".toList)) "C:\\Users".toList := by
  have opened : Opened sampleDisk "C:\\Users".toList := .entry opened_drive (mem_sampleDisk (by decide)) rfl
  exact (up_undoes_down_iff sampleDisk _ opened usersDir (mem_sampleDisk (by decide))).2 (by decide)

/-- Up from `C:\Users` is the list of drives. -/
theorem up_from_users_is_roots :
    ¬ ∀ fs d, Opened fs d → ∀ e ∈ (listDir fs d).entries, SameDir (parentPath (joinPath d e.name)) d := by
  intro all
  have up := all sampleDisk "C:\\".toList opened_drive usersDir (mem_sampleDisk (by decide))
  exact absurd up (by decide)

end ZortilWatch.Ui
