import Mathlib.Data.List.Nodup

/-!
# The tables of the address book (`server/prisma/schema.prisma`)

The rows of `Group` and `Device` with the constraints PostgreSQL enforces on
them, and the statements `db/groups.ts` and `db/devices.ts` issue. A statement
computes the rows it wants; `Database.commit` refuses them if a constraint
fails, and a refused statement changes nothing.
-/

namespace ZortilWatch.Server

abbrev AccountId := String
abbrev GroupId := String
abbrev PublicId := String

structure Group where
  id : GroupId
  accountId : AccountId
  name : String
  deriving DecidableEq, Repr

/-- The columns of a device that the address book writes. -/
structure Device where
  publicId : PublicId
  accountId : AccountId
  «alias» : Option String := none
  clientSecretHash : Option String := none
  groupId : Option GroupId := none
  blockedIds : List PublicId := []
  allowedIds : List PublicId := []
  deriving DecidableEq, Repr

/-- `groupId` references `Group.id`. -/
def References (groups : List Group) (d : Device) : Prop := ∀ g ∈ d.groupId, g ∈ groups.map (·.id)

instance (groups : List Group) (d : Device) : Decidable (References groups d) :=
  inferInstanceAs (Decidable (∀ g ∈ d.groupId, g ∈ groups.map (·.id)))

structure Database where
  groups : List Group
  devices : List Device
  groupIds : (groups.map (·.id)).Nodup
  /-- `@@unique([accountId, name])`. -/
  groupNames : (groups.map fun g => (g.accountId, g.name)).Nodup
  publicIds : (devices.map (·.publicId)).Nodup
  foreignKey : ∀ d ∈ devices, References groups d

inductive DbError where
  /-- P2002. -/
  | uniqueViolation
  /-- P2003. -/
  | foreignKeyViolation
  | unavailable
  deriving DecidableEq, Repr

/-- What becomes of a statement. -/
inductive Fate where
  | answered
  /-- It takes effect and its answer is lost. -/
  | unanswered
  | failed
  deriving DecidableEq, Repr

namespace Database

def empty : Database := ⟨[], [], List.nodup_nil, List.nodup_nil, List.nodup_nil, List.forall_mem_nil _⟩

/-- The database with these rows, if they meet its constraints. -/
def commit (groups : List Group) (devices : List Device) : Except DbError Database :=
  if unique : (groups.map (·.id)).Nodup ∧ (groups.map fun g => (g.accountId, g.name)).Nodup ∧
      (devices.map (·.publicId)).Nodup then
    if foreignKey : ∀ d ∈ devices, References groups d then
      .ok ⟨groups, devices, unique.1, unique.2.1, unique.2.2, foreignKey⟩
    else .error .foreignKeyViolation
  else .error .uniqueViolation

/-! ## Statements -/

variable (db : Database)

def insertGroup (g : Group) : Except DbError Database := commit (db.groups ++ [g]) db.devices

/-- The rows of `where: { id, accountId }`. -/
def groupAt (id : GroupId) (accountId : AccountId) (g : Group) : Bool := g.id == id && g.accountId == accountId

def findGroup (id : GroupId) (accountId : AccountId) : Option Group := db.groups.find? (groupAt id accountId)

/-- Set the name of the rows at `id` and `accountId`. -/
def renameGroups (id : GroupId) (accountId : AccountId) (name : String) : Except DbError Database :=
  commit (db.groups.map fun g => if groupAt id accountId g then { g with name := name } else g) db.devices

/-- Delete the rows at `id` and `accountId`; `ON DELETE SET NULL` clears every
reference to them, whose device it is. -/
def deleteGroups (id : GroupId) (accountId : AccountId) : Except DbError Database :=
  let deleted := db.groups.filter (groupAt id accountId)
  commit (db.groups.filter fun g => !groupAt id accountId g) (db.devices.map fun d =>
    if d.groupId.any fun g => deleted.any (·.id == g) then { d with groupId := none } else d)

def insertDevice (d : Device) : Except DbError Database := commit db.groups (db.devices ++ [d])

/-- The rows of `where: { publicId, accountId }`. -/
def deviceAt (publicId : PublicId) (accountId : AccountId) (d : Device) : Bool :=
  d.publicId == publicId && d.accountId == accountId

/-- Write `data` to the rows at `publicId` and `accountId`. -/
def updateDevices (publicId : PublicId) (accountId : AccountId) (data : Device → Device) : Except DbError Database :=
  commit db.groups (db.devices.map fun d => if deviceAt publicId accountId d then data d else d)

/-! ## Rows of one account -/

/-- Every device is in no group or in one of its account. -/
def GroupsOwned (db : Database) : Prop :=
  ∀ d ∈ db.devices, ∀ id ∈ d.groupId, ∃ g ∈ db.groups, g.id = id ∧ g.accountId = d.accountId

/-- The group and device rows of an account. -/
def rowsOf (db : Database) (a : AccountId) : List Group × List Device :=
  (db.groups.filter (·.accountId == a), db.devices.filter (·.accountId == a))

/-- The rows of all accounts but `a` are the same in both. -/
def SameOutside (a : AccountId) (db db' : Database) : Prop := ∀ b, b ≠ a → db'.rowsOf b = db.rowsOf b

section Spec

variable {db db' : Database} {a : AccountId}

theorem commit_ok {groups : List Group} {devices : List Device} (h : commit groups devices = .ok db') :
    db'.groups = groups ∧ db'.devices = devices := by
  unfold commit at h
  split at h
  · split at h
    · cases h
      exact ⟨rfl, rfl⟩
    · cases h
  · cases h

/-- A map that keeps other accounts' rows, and nobody's account, is not seen by
another account. -/
theorem filter_map_account {α : Type} {account : α → AccountId} {rows : List α} {f : α → α} {b : AccountId}
    (account_eq : ∀ x ∈ rows, account (f x) = account x) (fixed : ∀ x ∈ rows, account x = b → f x = x) :
    (rows.map f).filter (account · == b) = rows.filter (account · == b) := by
  induction rows with
  | nil => rfl
  | cons x rows ih =>
    have rest := ih (fun y hy => account_eq y (List.mem_cons_of_mem _ hy)) fun y hy =>
      fixed y (List.mem_cons_of_mem _ hy)
    have same := account_eq x List.mem_cons_self
    rw [List.map_cons, List.filter_cons, List.filter_cons, same, rest]
    split
    · rename_i own
      rw [fixed x List.mem_cons_self (beq_iff_eq.1 own)]
    · rfl

theorem groupAt_eq_true {id : GroupId} {g : Group} : groupAt id a g = true ↔ g.id = id ∧ g.accountId = a := by
  simp [groupAt]

theorem deviceAt_eq_true {publicId : PublicId} {d : Device} :
    deviceAt publicId a d = true ↔ d.publicId = publicId ∧ d.accountId = a := by
  simp [deviceAt]

/-- Group ids are unique. -/
theorem group_unique {g g' : Group} (hg : g ∈ db.groups) (hg' : g' ∈ db.groups) (same : g.id = g'.id) : g = g' :=
  List.inj_on_of_nodup_map db.groupIds hg hg' same

theorem insertGroup_sameOutside {g : Group} (h : db.insertGroup g = .ok db') : SameOutside g.accountId db db' := by
  intro b other
  obtain ⟨hg, hd⟩ := commit_ok h
  simp [rowsOf, hg, hd, Ne.symm other]

theorem insertGroup_owned (owned : db.GroupsOwned) {g : Group} (h : db.insertGroup g = .ok db') : db'.GroupsOwned := by
  obtain ⟨hg, hd⟩ := commit_ok h
  intro d mem id hid
  rw [hd] at mem
  obtain ⟨row, hrow, same⟩ := owned d mem id hid
  exact ⟨row, by rw [hg]; exact List.mem_append_left _ hrow, same⟩

theorem renameGroups_sameOutside {id : GroupId} {name : String} (h : db.renameGroups id a name = .ok db') :
    SameOutside a db db' := by
  intro b other
  obtain ⟨hg, hd⟩ := commit_ok h
  rw [rowsOf, rowsOf, hg, hd, filter_map_account]
  · intro g _
    split <;> rfl
  · intro g _ own
    rw [if_neg]
    rw [groupAt_eq_true]
    rintro ⟨-, rfl⟩
    exact other own.symm

theorem renameGroups_owned (owned : db.GroupsOwned) {id : GroupId} {name : String}
    (h : db.renameGroups id a name = .ok db') : db'.GroupsOwned := by
  obtain ⟨hg, hd⟩ := commit_ok h
  intro d mem gid hid
  rw [hd] at mem
  obtain ⟨row, hrow, same, account⟩ := owned d mem gid hid
  refine ⟨_, by rw [hg]; exact List.mem_map_of_mem hrow, ?_⟩
  split
  · exact ⟨same, account⟩
  · exact ⟨same, account⟩

/-- The cascade reaches devices of the group's account only, as nobody else's
device is in the group. -/
theorem deleteGroups_sameOutside (owned : db.GroupsOwned) {id : GroupId} (h : db.deleteGroups id a = .ok db') :
    SameOutside a db db' := by
  intro b other
  obtain ⟨hg, hd⟩ := commit_ok h
  have groups : db'.groups.filter (·.accountId == b) = db.groups.filter (·.accountId == b) := by
    rw [hg, List.filter_filter]
    apply List.filter_congr
    intro g _
    by_cases own : g.accountId = b
    · subst own
      simp [groupAt, other]
    · simp [own]
  have devices : db'.devices.filter (·.accountId == b) = db.devices.filter (·.accountId == b) := by
    rw [hd, filter_map_account]
    · intro d _
      split <;> rfl
    · intro d mem own
      rw [if_neg]
      intro cleared
      obtain ⟨gid, hgid, gone⟩ := (Option.any_eq_true _ _).1 cleared
      obtain ⟨deleted, hdel, same⟩ := List.any_eq_true.1 gone
      obtain ⟨hdel, hat⟩ := List.mem_filter.1 hdel
      -- the group of `d` is the deleted one, and belongs to the account of `d`
      obtain ⟨row, hrow, hid, account⟩ := owned d mem gid hgid
      have : row = deleted := group_unique hrow hdel (hid.trans (beq_iff_eq.1 same).symm)
      subst this
      rw [(groupAt_eq_true.1 hat).2, own] at account
      exact other account.symm
  rw [rowsOf, rowsOf, groups, devices]

theorem deleteGroups_owned (owned : db.GroupsOwned) {id : GroupId} (h : db.deleteGroups id a = .ok db') :
    db'.GroupsOwned := by
  obtain ⟨hg, hd⟩ := commit_ok h
  intro d' mem gid hgid
  rw [hd] at mem
  obtain ⟨d, hmem, rfl⟩ := List.mem_map.1 mem
  split at hgid
  · cases hgid
  · rename_i kept
    rw [if_neg kept]
    obtain ⟨row, hrow, hid, account⟩ := owned d hmem gid hgid
    refine ⟨row, ?_, hid, account⟩
    rw [hg, List.mem_filter]
    refine ⟨hrow, ?_⟩
    by_contra deleted
    refine kept ((Option.any_eq_true _ _).2 ⟨gid, hgid, List.any_eq_true.2 ⟨row, ?_, ?_⟩⟩)
    · exact List.mem_filter.2 ⟨hrow, by simpa using deleted⟩
    · simpa using hid

theorem insertDevice_sameOutside {d : Device} (h : db.insertDevice d = .ok db') : SameOutside d.accountId db db' := by
  intro b other
  obtain ⟨hg, hd⟩ := commit_ok h
  simp [rowsOf, hg, hd, Ne.symm other]

theorem insertDevice_owned (owned : db.GroupsOwned) {d : Device} (h : db.insertDevice d = .ok db')
    (ungrouped : d.groupId = none) : db'.GroupsOwned := by
  obtain ⟨hg, hd⟩ := commit_ok h
  intro d' mem gid hgid
  rw [hd] at mem
  rcases List.mem_append.1 mem with mem | mem
  · rw [hg]
    exact owned d' mem gid hgid
  · rw [List.mem_singleton.1 mem, ungrouped] at hgid
    cases hgid

section Update

variable {publicId : PublicId} {data : Device → Device} (h : db.updateDevices publicId a data = .ok db')
  (account_eq : ∀ d, (data d).accountId = d.accountId)
include h account_eq

theorem updateDevices_sameOutside : SameOutside a db db' := by
  intro b other
  obtain ⟨hg, hd⟩ := commit_ok h
  rw [rowsOf, rowsOf, hg, hd, filter_map_account]
  · intro d _
    split
    · exact account_eq d
    · rfl
  · intro d _ own
    rw [if_neg]
    rw [deviceAt_eq_true]
    rintro ⟨-, rfl⟩
    exact other own.symm

/-- Writing a group to a device keeps groups owned if that group, where it is
still there, is of the account written for. -/
theorem updateDevices_owned (owned : db.GroupsOwned)
    (checked : ∀ d ∈ db.devices, ∀ id ∈ (data d).groupId, d.groupId = some id ∨
      ∀ g ∈ db.groups, g.id = id → g.accountId = a) : db'.GroupsOwned := by
  obtain ⟨hg, hd⟩ := commit_ok h
  intro d' mem gid hgid
  have mem' := mem
  rw [hd] at mem
  obtain ⟨d, hmem, rfl⟩ := List.mem_map.1 mem
  split at hgid
  · rename_i hat
    rw [if_pos hat, hg, account_eq]
    rcases checked d hmem gid hgid with same | own
    · exact owned d hmem gid same
    · -- the foreign key held when the row was written
      have referenced := db'.foreignKey _ mem' gid (by rw [if_pos hat]; exact hgid)
      rw [hg] at referenced
      obtain ⟨row, hrow, hid⟩ := List.mem_map.1 referenced
      exact ⟨row, hrow, hid, (own row hrow hid).trans (deviceAt_eq_true.1 hat).2.symm⟩
  · rename_i hat
    rw [if_neg hat, hg]
    exact owned d hmem gid hgid

end Update

end Spec

end Database

end ZortilWatch.Server
