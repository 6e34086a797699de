import ZortilWatch.Lib.Runs
import ZortilWatch.Server.Database

/-!
# The address book (`server/src/db/groups.ts`, `server/src/db/devices.ts`)

Calls of these functions as a system that runs one database statement at a time:
a call runs to its first statement and waits in the list of tasks; an event
executes the statement of any task, and the function goes on to its next
statement or returns. A statement may also fail, or take effect while its answer
is lost; either way the function throws.

`assignDeviceGroup` checks the group in one statement and writes the device in
another. In between the group may go, but its id never comes back under another
account, so the tables stay separated (`tenants_isolated`).
-/

namespace ZortilWatch.Server

inductive RenameResult where
  | ok
  | notFound
  | duplicate
  deriving DecidableEq, Repr

inductive AssignResult where
  | ok
  | notFound
  | groupNotFound
  deriving DecidableEq, Repr

/-- What a call returns or throws. -/
inductive Reply where
  | created (group : Option Group)
  | renamed (result : RenameResult)
  | deleted (found : Bool)
  | assigned (result : AssignResult)
  | registered (device : Device)
  | updated (found : Bool)
  | threw (error : DbError)
  | threwError (message : String)
  deriving DecidableEq, Repr

/-- A function suspended at a statement. -/
inductive Task where
  | createGroup (accountId : AccountId) (name : String)
  | renameGroup (accountId : AccountId) (groupId : GroupId) (name : String)
  | deleteGroup (accountId : AccountId) (groupId : GroupId)
  /-- `assignDeviceGroup` before it looks for the group. -/
  | findGroup (accountId : AccountId) (publicId : PublicId) (groupId : GroupId)
  /-- `assignDeviceGroup` before it writes the device. -/
  | setGroup (accountId : AccountId) (publicId : PublicId) (groupId : Option GroupId)
  | registerDevice (accountId : AccountId) («alias» clientSecretHash : Option String) (attempt : Nat)
  | updateLists (accountId : AccountId) (publicId : PublicId) (blocked allowed : Option (List PublicId))
  deriving DecidableEq, Repr

/-- The account a task works for. -/
def Task.accountId : Task → AccountId
  | createGroup a _ => a
  | renameGroup a _ _ => a
  | deleteGroup a _ => a
  | findGroup a _ _ => a
  | setGroup a _ _ => a
  | registerDevice a _ _ _ => a
  | updateLists a _ _ _ => a

def Task.createsGroup : Task → Bool
  | createGroup .. => true
  | _ => false

/-! ## The functions up to their first statement -/

def createGroup (accountId : AccountId) (name : String) : Task ⊕ Reply := .inl (.createGroup accountId name)

def renameGroup (accountId : AccountId) (groupId : GroupId) (name : String) : Task ⊕ Reply :=
  .inl (.renameGroup accountId groupId name)

def deleteGroup (accountId : AccountId) (groupId : GroupId) : Task ⊕ Reply := .inl (.deleteGroup accountId groupId)

def assignDeviceGroup (accountId : AccountId) (publicId : PublicId) (groupId : Option GroupId) : Task ⊕ Reply :=
  match groupId with
  | some groupId => .inl (.findGroup accountId publicId groupId)
  | none => .inl (.setGroup accountId publicId none)

def maxIdRetries : Nat := 5

def registerDevice (accountId : AccountId) («alias» clientSecretHash : Option String) : Task ⊕ Reply :=
  .inl (.registerDevice accountId «alias» clientSecretHash 0)

def updateDeviceLists (accountId : AccountId) (publicId : PublicId) (blocked allowed : Option (List PublicId)) :
    Task ⊕ Reply :=
  if blocked.isNone && allowed.isNone then .inr (.updated true)
  else .inl (.updateLists accountId publicId blocked allowed)

/-! ## From one statement to the next -/

/-- Execute the statement of a task. `fresh` is the id a created row gets: what
`cuid()` or `generateDeviceId` returned. -/
def Task.execute (db : Database) (fresh : String) : Task → Database × (Task ⊕ Reply)
  | createGroup a name =>
    match db.insertGroup ⟨fresh, a, name⟩ with
    | .ok db' => (db', .inr (.created (some ⟨fresh, a, name⟩)))
    | .error .uniqueViolation => (db, .inr (.created none))
    | .error e => (db, .inr (.threw e))
  | renameGroup a id name =>
    match db.renameGroups id a name with
    | .ok db' => (db', .inr (.renamed (if db.groups.countP (Database.groupAt id a) = 0 then .notFound else .ok)))
    | .error .uniqueViolation => (db, .inr (.renamed .duplicate))
    | .error e => (db, .inr (.threw e))
  | deleteGroup a id =>
    match db.deleteGroups id a with
    | .ok db' => (db', .inr (.deleted (db.groups.countP (Database.groupAt id a) > 0)))
    | .error e => (db, .inr (.threw e))
  | findGroup a publicId id =>
    match db.findGroup id a with
    | none => (db, .inr (.assigned .groupNotFound))
    | some _ => (db, .inl (setGroup a publicId (some id)))
  | setGroup a publicId id =>
    match db.updateDevices publicId a fun d => { d with groupId := id } with
    | .ok db' =>
      (db', .inr (.assigned (if db.devices.countP (Database.deviceAt publicId a) = 0 then .notFound else .ok)))
    | .error e => (db, .inr (.threw e))
  | registerDevice a «alias» hash attempt =>
    let device : Device := { publicId := fresh, accountId := a, «alias» := «alias», clientSecretHash := hash }
    match db.insertDevice device with
    | .ok db' => (db', .inr (.registered device))
    | .error .uniqueViolation =>
      if attempt + 1 < maxIdRetries then (db, .inl (registerDevice a «alias» hash (attempt + 1)))
      else (db, .inr (.threwError "could not allocate a unique device id"))
    | .error e => (db, .inr (.threw e))
  | updateLists a publicId blocked allowed =>
    match db.updateDevices publicId a fun d =>
        { d with blockedIds := blocked.getD d.blockedIds, allowedIds := allowed.getD d.allowedIds } with
    | .ok db' => (db', .inr (.updated (db.devices.countP (Database.deviceAt publicId a) > 0)))
    | .error e => (db, .inr (.threw e))

structure AddressBook where
  db : Database
  tasks : List Task := []
  /-- Ids `cuid()` returned for groups. -/
  issued : List GroupId := []

namespace AddressBook

inductive Event where
  | createGroup (accountId : AccountId) (name : String)
  | renameGroup (accountId : AccountId) (groupId : GroupId) (name : String)
  | deleteGroup (accountId : AccountId) (groupId : GroupId)
  | assignDeviceGroup (accountId : AccountId) (publicId : PublicId) (groupId : Option GroupId)
  | registerDevice (accountId : AccountId) («alias» clientSecretHash : Option String)
  | updateDeviceLists (accountId : AccountId) (publicId : PublicId) (blocked allowed : Option (List PublicId))
  /-- The statement of the `i`-th task is executed. -/
  | statement (i : Nat) (fresh : String) (fate : Fate)

/-- A call runs to its first statement. -/
def begin (s : AddressBook) : Task ⊕ Reply → AddressBook × Option Reply
  | .inl t => ({ s with tasks := s.tasks ++ [t] }, none)
  | .inr reply => (s, some reply)

/-- The `i`-th task executes its statement. -/
def statement (s : AddressBook) (i : Nat) (fresh : String) (fate : Fate) : AddressBook × Option Reply :=
  match s.tasks[i]? with
  | none => (s, none)
  | some t =>
    let issued := if t.createsGroup then fresh :: s.issued else s.issued
    let res := t.execute s.db fresh
    match fate, res.2 with
    | .answered, .inl next => ({ db := res.1, tasks := s.tasks.set i next, issued := issued }, none)
    | .answered, .inr reply => ({ db := res.1, tasks := s.tasks.eraseIdx i, issued := issued }, some reply)
    | .unanswered, _ => ({ db := res.1, tasks := s.tasks.eraseIdx i, issued := issued }, some (.threw .unavailable))
    | .failed, _ => ({ db := s.db, tasks := s.tasks.eraseIdx i, issued := issued }, some (.threw .unavailable))

def handle (s : AddressBook) : Event → AddressBook × Option Reply
  | .createGroup a name => s.begin (Server.createGroup a name)
  | .renameGroup a id name => s.begin (Server.renameGroup a id name)
  | .deleteGroup a id => s.begin (Server.deleteGroup a id)
  | .assignDeviceGroup a publicId id => s.begin (Server.assignDeviceGroup a publicId id)
  | .registerDevice a «alias» hash => s.begin (Server.registerDevice a «alias» hash)
  | .updateDeviceLists a publicId blocked allowed => s.begin (Server.updateDeviceLists a publicId blocked allowed)
  | .statement i fresh fate => s.statement i fresh fate

/-- `cuid()` does not repeat itself. -/
def admits (s : AddressBook) : Event → Prop
  | .statement i fresh _ => ∀ t ∈ s.tasks[i]?, t.createsGroup = true → fresh ∉ s.issued
  | _ => True

end AddressBook

/-- The runs of the address book, from tables in which the groups are in order. -/
def addressBook : System AddressBook AddressBook.Event where
  init s := s.db.GroupsOwned ∧ s.tasks = [] ∧ ∀ g ∈ s.db.groups, g.id ∈ s.issued
  enabled := AddressBook.admits
  step s e := (s.handle e).1

/-! ## What a statement does -/

namespace Task

variable {db : Database} {fresh : String} {t : Task}

/-- The tables a task's statement wants. -/
def writes (db : Database) (fresh : String) : Task → Except DbError Database
  | createGroup a name => db.insertGroup ⟨fresh, a, name⟩
  | renameGroup a id name => db.renameGroups id a name
  | deleteGroup a id => db.deleteGroups id a
  | findGroup .. => .ok db
  | setGroup a publicId id => db.updateDevices publicId a fun d => { d with groupId := id }
  | registerDevice a «alias» hash _ =>
    db.insertDevice { publicId := fresh, accountId := a, «alias» := «alias», clientSecretHash := hash }
  | updateLists a publicId blocked allowed => db.updateDevices publicId a fun d =>
      { d with blockedIds := blocked.getD d.blockedIds, allowedIds := allowed.getD d.allowedIds }

/-- A statement takes effect or changes nothing. -/
theorem execute_db (db : Database) (fresh : String) (t : Task) :
    (t.execute db fresh).1 = db ∨ t.writes db fresh = .ok (t.execute db fresh).1 := by
  cases t with
  | findGroup a publicId id =>
    simp only [execute]
    split <;> exact .inl rfl
  | registerDevice =>
    simp only [execute, writes]
    split
    · rename_i h
      exact .inr h
    · split <;> exact .inl rfl
    · exact .inl rfl
  | _ =>
    simp only [execute, writes]
    split
    · rename_i h
      exact .inr h
    all_goals exact .inl rfl

/-- The only task that waits to write a group is the one that found it. -/
theorem execute_setGroup {a : AccountId} {publicId : PublicId} {id : GroupId}
    (next : (t.execute db fresh).2 = .inl (.setGroup a publicId (some id))) :
    (t.execute db fresh).1 = db ∧ ∃ g ∈ db.groups, g.id = id ∧ g.accountId = a := by
  cases t with
  | findGroup a' publicId' id' =>
    simp only [execute] at next ⊢
    cases hf : db.findGroup id' a' with
    | none => simp [hf] at next
    | some g =>
      rw [hf] at next
      cases next
      exact ⟨rfl, g, List.mem_of_find?_eq_some hf, Database.groupAt_eq_true.1 (List.find?_some hf)⟩
  | registerDevice =>
    simp only [execute] at next
    split at next
    · cases next
    · split at next <;> cases next
    · cases next
  | _ =>
    simp only [execute] at next
    split at next <;> cases next

/-- A statement issued for an account changes no row of another. -/
theorem execute_sameOutside (owned : db.GroupsOwned) (fresh : String) (t : Task) :
    Database.SameOutside t.accountId db (t.execute db fresh).1 := by
  rcases t.execute_db db fresh with same | written
  · rw [same]
    exact fun b _ => rfl
  generalize (t.execute db fresh).1 = db' at written
  cases t with
  | createGroup a name => exact Database.insertGroup_sameOutside written
  | renameGroup a id name => exact Database.renameGroups_sameOutside written
  | deleteGroup a id => exact Database.deleteGroups_sameOutside owned written
  | findGroup a publicId id =>
    cases written
    exact fun b _ => rfl
  | setGroup a publicId id => exact Database.updateDevices_sameOutside written fun d => rfl
  | registerDevice a «alias» hash attempt => exact Database.insertDevice_sameOutside written
  | updateLists a publicId blocked allowed => exact Database.updateDevices_sameOutside written fun d => rfl

/-- A statement keeps the groups in order, where a group about to be assigned is
of the account it is assigned for. -/
theorem execute_owned (owned : db.GroupsOwned) (checked : ∀ a publicId id, t = .setGroup a publicId (some id) →
    ∀ g ∈ db.groups, g.id = id → g.accountId = a) : (t.execute db fresh).1.GroupsOwned := by
  rcases t.execute_db db fresh with same | written
  · rw [same]
    exact owned
  generalize (t.execute db fresh).1 = db' at written
  cases t with
  | createGroup a name => exact Database.insertGroup_owned owned written
  | renameGroup a id name => exact Database.renameGroups_owned owned written
  | deleteGroup a id => exact Database.deleteGroups_owned owned written
  | findGroup a publicId id =>
    cases written
    exact owned
  | setGroup a publicId id =>
    refine Database.updateDevices_owned written (fun d => rfl) owned fun d _ id' hid => .inr ?_
    dsimp only at hid
    rw [Option.mem_def] at hid
    subst hid
    exact checked a publicId id' rfl
  | registerDevice a «alias» hash attempt => exact Database.insertDevice_owned owned written rfl
  | updateLists a publicId blocked allowed =>
    exact Database.updateDevices_owned written (fun d => rfl) owned fun d _ id hid => .inl hid

/-- A group row behind a statement is the one it created, or was there under the
same account. -/
theorem execute_groups {g : Group} (hg : g ∈ (t.execute db fresh).1.groups) :
    (t.createsGroup = true ∧ g.id = fresh) ∨ ∃ g0 ∈ db.groups, g0.id = g.id ∧ g0.accountId = g.accountId := by
  rcases t.execute_db db fresh with same | written
  · rw [same] at hg
    exact .inr ⟨g, hg, rfl, rfl⟩
  generalize (t.execute db fresh).1 = db' at written hg
  cases t with
  | createGroup a name =>
    rw [(Database.commit_ok written).1] at hg
    rcases List.mem_append.1 hg with hg | hg
    · exact .inr ⟨g, hg, rfl, rfl⟩
    · rw [List.mem_singleton.1 hg]
      exact .inl ⟨rfl, rfl⟩
  | renameGroup a id name =>
    rw [(Database.commit_ok written).1] at hg
    obtain ⟨g0, hg0, rfl⟩ := List.mem_map.1 hg
    refine .inr ⟨g0, hg0, ?_⟩
    split <;> exact ⟨rfl, rfl⟩
  | deleteGroup a id =>
    rw [(Database.commit_ok written).1] at hg
    exact .inr ⟨g, (List.mem_filter.1 hg).1, rfl, rfl⟩
  | findGroup a publicId id =>
    cases written
    exact .inr ⟨g, hg, rfl, rfl⟩
  | _ =>
    rw [(Database.commit_ok written).1] at hg
    exact .inr ⟨g, hg, rfl, rfl⟩

end Task

/-! ## Every run -/

namespace AddressBook

/-- The rows of all accounts but the one an event works for stay as they are. -/
def Isolated (s : AddressBook) : Event → Prop
  | .statement i fresh fate => ∀ t ∈ s.tasks[i]?, s.db.SameOutside t.accountId (s.statement i fresh fate).1.db
  | e => (s.handle e).1.db = s.db

/-- Groups are in order, also those about to be assigned: no other account has or
will have a group under such an id. -/
structure Owned (s : AddressBook) : Prop where
  groups : s.db.GroupsOwned
  issued : ∀ g ∈ s.db.groups, g.id ∈ s.issued
  checked : ∀ a publicId id, .setGroup a publicId (some id) ∈ s.tasks →
    id ∈ s.issued ∧ ∀ g ∈ s.db.groups, g.id = id → g.accountId = a

variable {s : AddressBook}

/-- After a statement, the tables are as they were or as the task's statement left
them. -/
theorem statement_db {i : Nat} {t : Task} (ht : s.tasks[i]? = some t) (fresh : String) (fate : Fate) :
    (s.statement i fresh fate).1.db = s.db ∨ (s.statement i fresh fate).1.db = (t.execute s.db fresh).1 := by
  simp only [statement, ht]
  split
  · exact .inr rfl
  · exact .inr rfl
  · exact .inr rfl
  · exact .inl rfl

theorem isolated (owned : s.Owned) (e : Event) : s.Isolated e := by
  cases e with
  | statement i fresh fate =>
    intro t ht
    rcases statement_db ht fresh fate with same | written
    · rw [same]
      exact fun b _ => rfl
    · rw [written]
      exact t.execute_sameOutside owned.groups fresh
  | updateDeviceLists a publicId blocked allowed =>
    simp only [Isolated, handle, updateDeviceLists]
    split <;> rfl
  | assignDeviceGroup a publicId id =>
    simp only [Isolated, handle, assignDeviceGroup]
    split <;> rfl
  | _ => exact rfl

theorem statement_issued {i : Nat} {fresh : String} {fate : Fate} {t : Task} (ht : s.tasks[i]? = some t) :
    (s.statement i fresh fate).1.issued = if t.createsGroup then fresh :: s.issued else s.issued := by
  simp only [statement, ht]
  split <;> rfl

/-- A waiting task waited before, or is what the statement goes on with. -/
theorem statement_tasks {i : Nat} {fresh : String} {fate : Fate} {t t' : Task} (ht : s.tasks[i]? = some t)
    (waits : t' ∈ (s.statement i fresh fate).1.tasks) :
    t' ∈ s.tasks ∨ (t.execute s.db fresh).2 = .inl t' := by
  simp only [statement, ht] at waits
  split at waits
  · rename_i next hnext
    rcases List.mem_or_eq_of_mem_set waits with waits | rfl
    · exact .inl waits
    · exact .inr hnext
  all_goals exact .inl (List.mem_of_mem_eraseIdx waits)

theorem Owned.begin (owned : s.Owned) {first : Task ⊕ Reply}
    (unassigned : ∀ a publicId id, first ≠ .inl (.setGroup a publicId (some id))) : (s.begin first).1.Owned := by
  cases first with
  | inr reply => exact owned
  | inl t =>
    refine ⟨owned.groups, owned.issued, fun a publicId id waits => ?_⟩
    rcases List.mem_append.1 waits with waits | waits
    · exact owned.checked a publicId id waits
    · rw [List.mem_singleton] at waits
      exact absurd (congrArg Sum.inl waits.symm) (unassigned a publicId id)

theorem Owned.statement (owned : s.Owned) {i : Nat} {fresh : String} {fate : Fate}
    (new : ∀ t ∈ s.tasks[i]?, t.createsGroup = true → fresh ∉ s.issued) : (s.statement i fresh fate).1.Owned := by
  cases ht : s.tasks[i]? with
  | none =>
    simp only [AddressBook.statement, ht]
    exact owned
  | some t =>
    have waiting : t ∈ s.tasks := List.mem_of_getElem? ht
    have issued : ∀ id ∈ s.issued, id ∈ (s.statement i fresh fate).1.issued := by
      intro id hid
      rw [statement_issued ht]
      split
      · exact List.mem_cons_of_mem _ hid
      · exact hid
    -- every group row was there under the same account, or has the new id
    have origin : ∀ g ∈ (s.statement i fresh fate).1.db.groups, (t.createsGroup = true ∧ g.id = fresh) ∨
        ∃ g0 ∈ s.db.groups, g0.id = g.id ∧ g0.accountId = g.accountId := by
      intro g hg
      rcases statement_db ht fresh fate with same | written
      · rw [same] at hg
        exact .inr ⟨g, hg, rfl, rfl⟩
      · rw [written] at hg
        exact Task.execute_groups hg
    have kept {a : AccountId} {id : GroupId} (known : id ∈ s.issued)
        (own : ∀ g ∈ s.db.groups, g.id = id → g.accountId = a) :
        ∀ g ∈ (s.statement i fresh fate).1.db.groups, g.id = id → g.accountId = a := by
      intro g hg hid
      rcases origin g hg with ⟨creates, hfresh⟩ | ⟨g0, hg0, same, account⟩
      · exact absurd (hfresh ▸ hid ▸ known) (new t ht creates)
      · rw [← account]
        exact own g0 hg0 (same.trans hid)
    refine ⟨?_, fun g hg => ?_, fun a publicId id waits => ?_⟩
    · rcases statement_db ht fresh fate with same | written
      · rw [same]
        exact owned.groups
      · rw [written]
        refine Task.execute_owned owned.groups fun a publicId id same => ?_
        exact (owned.checked a publicId id (same ▸ waiting)).2
    · rcases origin g hg with ⟨creates, hfresh⟩ | ⟨g0, hg0, same, -⟩
      · rw [statement_issued ht, if_pos creates, hfresh]
        exact List.mem_cons_self
      · rw [← same]
        exact issued _ (owned.issued g0 hg0)
    · rcases statement_tasks ht waits with waited | next
      · obtain ⟨known, own⟩ := owned.checked a publicId id waited
        exact ⟨issued id known, kept known own⟩
      · obtain ⟨-, g, hg, hid, account⟩ := Task.execute_setGroup next
        have known : id ∈ s.issued := hid ▸ owned.issued g hg
        refine ⟨issued id known, kept known fun g' hg' hid' => ?_⟩
        rw [Database.group_unique hg' hg (hid'.trans hid.symm), account]

theorem Owned.handle (owned : s.Owned) {e : Event} (he : s.admits e) : (s.handle e).1.Owned := by
  cases e with
  | statement i fresh fate => exact owned.statement he
  | updateDeviceLists a publicId blocked allowed =>
    refine owned.begin fun a' publicId' id => ?_
    unfold Server.updateDeviceLists
    split <;> simp
  | assignDeviceGroup a publicId id =>
    refine owned.begin fun a' publicId' id' => ?_
    cases id <;> simp [Server.assignDeviceGroup]
  | createGroup a name => exact owned.begin fun _ _ _ => by simp [Server.createGroup]
  | renameGroup a id name => exact owned.begin fun _ _ _ => by simp [Server.renameGroup]
  | deleteGroup a id => exact owned.begin fun _ _ _ => by simp [Server.deleteGroup]
  | registerDevice a «alias» hash => exact owned.begin fun _ _ _ => by simp [Server.registerDevice]

/-- In every run and at every statement of it, each device is in no group or in
one of its account, and a statement changes rows of its own account only. -/
theorem tenants_isolated {start : AddressBook} (hi : addressBook.init start) {es : List Event}
    (hv : addressBook.Valid start es) :
    addressBook.AllStates (fun s => s.db.GroupsOwned) start es ∧ addressBook.AllSteps Isolated start es := by
  have owned : start.Owned := ⟨hi.1, hi.2.2, fun a publicId id waits => by rw [hi.2.1] at waits; cases waits⟩
  clear hi
  induction es generalizing start with
  | nil => exact ⟨owned.groups, trivial⟩
  | cons e es ih =>
    obtain ⟨states, steps⟩ := ih hv.2 (owned.handle hv.1)
    exact ⟨⟨owned.groups, states⟩, isolated owned e, steps⟩

instance (s : AddressBook) : (e : Event) → Decidable (addressBook.enabled s e)
  | .statement i fresh _ => inferInstanceAs (Decidable (∀ t ∈ s.tasks[i]?, t.createsGroup = true → fresh ∉ s.issued))
  | .createGroup .. => .isTrue trivial
  | .renameGroup .. => .isTrue trivial
  | .deleteGroup .. => .isTrue trivial
  | .assignDeviceGroup .. => .isTrue trivial
  | .registerDevice .. => .isTrue trivial
  | .updateDeviceLists .. => .isTrue trivial

/-- A group goes between the check of an assignment and its write. -/
def groupGoes : List Event :=
  [.createGroup "a" "Home", .statement 0 "g1" .answered, .registerDevice "a" none none,
    .statement 0 "100000001" .answered, .assignDeviceGroup "a" "100000001" (some "g1"), .statement 0 "" .answered,
    .deleteGroup "a" "g1", .statement 1 "" .answered]

example : ((addressBook.after ⟨.empty, [], []⟩ groupGoes).handle (.statement 0 "" .answered)).2 =
    some (.threw .foreignKeyViolation) := by decide

theorem tenants_isolated_while_group_goes :
    addressBook.AllStates (fun s => s.db.GroupsOwned) ⟨.empty, [], []⟩ groupGoes ∧
      addressBook.AllSteps Isolated ⟨.empty, [], []⟩ groupGoes :=
  tenants_isolated ⟨fun _ h => (List.not_mem_nil h).elim, rfl, fun _ h => (List.not_mem_nil h).elim⟩ (by decide)

end AddressBook

end ZortilWatch.Server
