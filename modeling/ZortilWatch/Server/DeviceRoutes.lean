import ZortilWatch.Server.AddressBook
import ZortilWatch.Server.SecondFactor
import ZortilWatch.Signaling.Wire

/-!
# `PATCH /devices/:publicId` (`server/src/http/routes.ts`)

The handler parses the body with the schema `DevicePatch` and calls the functions
of the address book one after the other. A field the body does not have keeps its
column, whatever becomes of the request (`patchDevice_confined`); an empty list is a
list, and is written (`patchLists_ok`).

A handler runs through moments, one for each statement of the functions it calls.
The tables of a moment are any, as other handlers write between two statements.
-/

namespace ZortilWatch.Server

open ZortilWatch.Signaling (validDeviceId zOptional zString zStringArray)

/-! ## The schema -/

section Schema

variable {N : Type}

/-- `.nullable()`. -/
def zNullable {α : Type} (z : Signaling.Field N → Option α) : Signaling.Field N → Option (Option α)
  | some .null => some none
  | v => (z v).map some

/-- `z.string().min(1)`. -/
def zGroupId (v : Signaling.Field N) : Option GroupId := (zString v).filter (· != "")

/-- `z.array(z.string().regex(DEVICE_ID_RE)).max(200)`. -/
def zDeviceIds (v : Signaling.Field N) : Option (List PublicId) :=
  (zStringArray v).filter fun ids => ids.all validDeviceId && ids.length ≤ 200

/-- The fields of a patch; `none` is `undefined`. -/
structure DevicePatch where
  groupId : Option (Option GroupId) := none
  blockedIds : Option (List PublicId) := none
  allowedIds : Option (List PublicId) := none
  deriving DecidableEq

def DevicePatch.parse : Json N → Option DevicePatch
  | .obj members => do
    let groupId ← zOptional (zNullable zGroupId) (members.lookup "groupId")
    let blockedIds ← zOptional zDeviceIds (members.lookup "blockedIds")
    let allowedIds ← zOptional zDeviceIds (members.lookup "allowedIds")
    return ⟨groupId, blockedIds, allowedIds⟩
  | _ => none

end Schema

/-! ## The handler -/

/-- What is left of a handler: to answer, or to wait for a function and go on with
what it returns. -/
inductive Handler where
  | done (reply : HttpReply)
  | await (call : Task ⊕ Reply) (next : Reply → Handler)

/-- The lists of a patch. -/
def patchLists (a : AccountId) (publicId : PublicId) (patch : DevicePatch) : Handler :=
  -- `[]` is truthy
  if patch.blockedIds.isSome || patch.allowedIds.isSome then
    .await (updateDeviceLists a publicId patch.blockedIds patch.allowedIds) fun
      | .updated true => .done .ok
      | .updated false => .done (.error 404 "device_not_found")
      | _ => .done (.error 500 "internal")
  else .done .ok

/-- `token` is the account the bearer token is for, `none` without a valid one. -/
def patchDevice {N : Type} (token : Option AccountId) (publicId : PublicId) (body : Json N) : Handler :=
  match token, DevicePatch.parse body with
  | none, _ => .done (.error 401 "unauthorized")
  | some _, none => .done (.error 400 "bad_request")
  | some a, some patch =>
    match patch.groupId with
    | none => patchLists a publicId patch
    | some groupId => .await (assignDeviceGroup a publicId groupId) fun
        | .assigned .ok => patchLists a publicId patch
        | .assigned .notFound => .done (.error 404 "device_not_found")
        | .assigned .groupNotFound => .done (.error 404 "group_not_found")
        | _ => .done (.error 500 "internal")

/-! ## Through its statements -/

/-- The tables a statement runs on, the id a created row gets, and what becomes of
the statement. -/
structure Moment where
  db : Database
  fresh : String := ""
  fate : Fate

/-- The tables before and behind a statement. -/
structure Write where
  before : Database
  after : Database

/-- The statement of a task at a moment, and what the function does next. -/
def Task.step (t : Task) (m : Moment) : Database × (Task ⊕ Reply) :=
  match m.fate with
  | .answered => t.execute m.db m.fresh
  | .unanswered => ((t.execute m.db m.fresh).1, .inr (.threw .unavailable))
  | .failed => (m.db, .inr (.threw .unavailable))

/-- A statement of the address book is a step of its task. -/
theorem statement_step {s : AddressBook} {i : Nat} {t : Task} (ht : s.tasks[i]? = some t) (fresh : String)
    (fate : Fate) :
    (s.statement i fresh fate).1.db = (t.step ⟨s.db, fresh, fate⟩).1 ∧
      (s.statement i fresh fate).2 = (t.step ⟨s.db, fresh, fate⟩).2.getRight? := by
  simp only [AddressBook.statement, Task.step, ht]
  cases fate with
  | answered =>
    cases (t.execute s.db fresh).2 with
    | inl next => exact ⟨rfl, rfl⟩
    | inr reply => exact ⟨rfl, rfl⟩
  | unanswered => exact ⟨rfl, rfl⟩
  | failed => exact ⟨rfl, rfl⟩

/-- A function through its statements, until it returns; the moments behind its last
statement are left. -/
def Task.run (t : Task) : List Moment → Option (List Write × Reply × List Moment)
  | [] => none
  | m :: later =>
    match t.step m with
    | (after, .inl next) => (next.run later).map fun r => (⟨m.db, after⟩ :: r.1, r.2)
    | (after, .inr reply) => some ([⟨m.db, after⟩], reply, later)

theorem Task.run_cons {t : Task} {m : Moment} {reply : Reply} (returns : (t.step m).2 = .inr reply)
    (later : List Moment) : t.run (m :: later) = some ([⟨m.db, (t.step m).1⟩], reply, later) := by
  rw [Task.run]
  rcases hstep : t.step m with ⟨after, _ | _⟩ <;> rw [hstep] at returns <;> cases returns
  rfl

/-- A handler until it answers: what its statements wrote, and the reply. -/
def Handler.run : Handler → List Moment → Option (List Write × HttpReply)
  | .done reply, _ => some ([], reply)
  | .await (.inr returned) next, ms => (next returned).run ms
  | .await (.inl t) next, ms =>
    (t.run ms).bind fun r => ((next r.2.1).run r.2.2).map fun rest => (r.1 ++ rest.1, rest.2)

/-! ## What patching the lists does -/

def Database.findDeviceByPublicId (db : Database) (publicId : PublicId) : Option Device :=
  db.devices.find? (·.publicId == publicId)

/-- The columns of a patch's lists. -/
def DevicePatch.setLists (patch : DevicePatch) (d : Device) : Device :=
  { d with blockedIds := patch.blockedIds.getD d.blockedIds, allowedIds := patch.allowedIds.getD d.allowedIds }

namespace Database

variable {db db' : Database} {a : AccountId} {publicId : PublicId}

theorem eq_of_rows (groups : db.groups = db'.groups) (devices : db.devices = db'.devices) : db = db' := by
  cases db
  cases db'
  cases groups
  cases devices
  rfl

theorem findDeviceByPublicId_eq_some {d : Device} :
    db.findDeviceByPublicId publicId = some d ↔ d ∈ db.devices ∧ d.publicId = publicId := by
  unfold findDeviceByPublicId
  constructor
  · intro found
    exact ⟨List.mem_of_find?_eq_some found, by simpa using List.find?_some found⟩
  · rintro ⟨mem, rfl⟩
    cases found : db.devices.find? (·.publicId == d.publicId) with
    | none => exact absurd (List.find?_eq_none.1 found d mem) (by simp)
    | some d' =>
      have same : d'.publicId = d.publicId := by simpa using List.find?_some found
      rw [List.inj_on_of_nodup_map db.publicIds (List.mem_of_find?_eq_some found) mem same]

/-- Rows that keep their ids are found where they were. -/
theorem findDeviceByPublicId_map {f : Device → Device} (ids : ∀ d, (f d).publicId = d.publicId)
    (devices : db'.devices = db.devices.map f) :
    db'.findDeviceByPublicId publicId = (db.findDeviceByPublicId publicId).map f := by
  have same : (fun d => d.publicId == publicId) ∘ f = (·.publicId == publicId) := by
    funext d
    rw [Function.comp_apply, ids]
  rw [findDeviceByPublicId, devices, List.find?_map, same]
  rfl

/-- Where the device is of the account, `where: { publicId, accountId }` is the rows
with its id. -/
theorem deviceAt_eq {row d : Device} (found : db.findDeviceByPublicId publicId = some row) (own : row.accountId = a)
    (mem : d ∈ db.devices) : deviceAt publicId a d = true ↔ d.publicId = publicId := by
  rw [deviceAt_eq_true]
  refine ⟨And.left, fun same => ⟨same, ?_⟩⟩
  rw [findDeviceByPublicId_eq_some.2 ⟨mem, same⟩] at found
  cases found
  exact own

end Database

section Lists

variable {a : AccountId} {publicId : PublicId} {patch : DevicePatch}

/-- The lists of the device are written, and nothing else; the device is of the
account. -/
structure Patched (a : AccountId) (publicId : PublicId) (patch : DevicePatch) (row : Device) (w : Write) : Prop where
  found : w.before.findDeviceByPublicId publicId = some row
  own : row.accountId = a
  groups : w.after.groups = w.before.groups
  devices : w.after.devices = w.before.devices.map fun d => if d.publicId = publicId then patch.setLists d else d

theorem Patched.found_after {row : Device} {w : Write} (h : Patched a publicId patch row w) :
    w.after.findDeviceByPublicId publicId = some (patch.setLists row) := by
  have same := (Database.findDeviceByPublicId_eq_some.1 h.found).2
  rw [Database.findDeviceByPublicId_map (fun d => ?_) h.devices, h.found, Option.map_some, if_pos same]
  split <;> rfl

/-- What the statement of `updateDeviceLists` does, if its answer arrives. -/
theorem updateLists_cases {m : Moment} (answered : m.fate = .answered) {res : Database × (Task ⊕ Reply)}
    (h : (Task.updateLists a publicId patch.blockedIds patch.allowedIds).step m = res) :
    (res.2 = .inr (.updated true) ∧ ∃ row, Patched a publicId patch row ⟨m.db, res.1⟩) ∨
      (res.2 = .inr (.updated false) ∧ res.1 = m.db) ∨ ∃ e, res.2 = .inr (.threw e) ∧ res.1 = m.db := by
  subst h
  simp only [Task.step, answered, Task.execute]
  split
  · rename_i db' written
    obtain ⟨groups, devices⟩ := Database.commit_ok written
    by_cases found : ∃ row ∈ m.db.devices, Database.deviceAt publicId a row = true
    · left
      obtain ⟨row, mem, hat⟩ := found
      have hrow := Database.deviceAt_eq_true.1 hat
      have hfound := Database.findDeviceByPublicId_eq_some.2 ⟨mem, hrow.1⟩
      refine ⟨?_, row, hfound, hrow.2, groups, ?_⟩
      · have some_ := List.countP_pos_iff.2 ⟨row, mem, hat⟩
        simp [some_]
      · rw [devices]
        refine List.map_congr_left fun d hd => ?_
        simp only [Database.deviceAt_eq hfound hrow.2 hd]
        rfl
    · right
      left
      have none_ : ∀ d ∈ m.db.devices, ¬ Database.deviceAt publicId a d = true := fun d hd hat => found ⟨d, hd, hat⟩
      refine ⟨?_, Database.eq_of_rows groups ?_⟩
      · rw [List.countP_eq_zero.2 none_]
        rfl
      · rw [devices]
        conv_rhs => rw [← List.map_id m.db.devices]
        exact List.map_congr_left fun d hd => if_neg (none_ d hd)
  · exact .inr (.inr ⟨_, rfl, rfl⟩)

theorem updateDeviceLists_asked (asked : (patch.blockedIds.isSome || patch.allowedIds.isSome) = true) :
    updateDeviceLists a publicId patch.blockedIds patch.allowedIds =
      .inl (.updateLists a publicId patch.blockedIds patch.allowedIds) := by
  refine if_neg fun none_ => ?_
  simp only [Bool.and_eq_true, Option.isNone_iff_eq_none] at none_
  simp [none_.1, none_.2] at asked

/-- What becomes of a patch of lists: it writes them and answers `ok`, changes
nothing, or loses the answer of its statement. -/
theorem patchLists_cases (asked : (patch.blockedIds.isSome || patch.allowedIds.isSome) = true) {ms : List Moment}
    {writes : List Write} {reply : HttpReply} (h : (patchLists a publicId patch).run ms = some (writes, reply)) :
    ∃ w, writes = [w] ∧ ((reply = .ok ∧ ∃ row, Patched a publicId patch row w) ∨
      (reply = .error 404 "device_not_found" ∧ w.after = w.before) ∨ reply = .error 500 "internal") := by
  rw [patchLists, if_pos asked, updateDeviceLists_asked asked] at h
  cases ms with
  | nil => cases h
  | cons m later =>
    rw [Handler.run] at h
    cases hfate : m.fate with
    | answered =>
      rcases updateLists_cases hfate rfl with ⟨next, row, patched⟩ | ⟨next, same⟩ | ⟨e, next, same⟩ <;>
        rw [Task.run_cons next] at h <;> cases h
      · exact ⟨_, rfl, .inl ⟨rfl, row, patched⟩⟩
      · exact ⟨_, rfl, .inr (.inl ⟨rfl, same⟩)⟩
      · exact ⟨_, rfl, .inr (.inr rfl)⟩
    | _ =>
      have lost : ((Task.updateLists a publicId patch.blockedIds patch.allowedIds).step m).2 =
          .inr (.threw .unavailable) := by
        simp only [Task.step, hfate]
      rw [Task.run_cons lost] at h
      cases h
      exact ⟨_, rfl, .inr (.inr rfl)⟩

/-- A patch of lists that answers `ok` wrote them, in one statement. -/
theorem patchLists_ok (asked : (patch.blockedIds.isSome || patch.allowedIds.isSome) = true) {ms : List Moment}
    {writes : List Write} (h : (patchLists a publicId patch).run ms = some (writes, .ok)) :
    ∃ w row, writes = [w] ∧ Patched a publicId patch row w := by
  obtain ⟨w, rfl, ⟨-, row, patched⟩ | ⟨refused, -⟩ | lost⟩ := patchLists_cases asked h
  · exact ⟨w, row, rfl, patched⟩
  · cases refused
  · cases lost

end Lists

/-! ## What a patch leaves alone -/

section Frame

variable {a : AccountId} {publicId : PublicId}

/-- The columns a patch asks to write: the group, or the lists. -/
inductive DevicePatch.Sets (patch : DevicePatch) : (Device → Device) → Prop where
  | group {groupId : Option GroupId} : patch.groupId = some groupId →
      Sets patch fun d => { d with groupId := groupId }
  | lists : (patch.blockedIds.isSome || patch.allowedIds.isSome) = true → Sets patch patch.setLists

/-- A statement that changes nothing, or columns of the device the patch asks for. -/
def Confined (a : AccountId) (publicId : PublicId) (patch : DevicePatch) (w : Write) : Prop :=
  w.after = w.before ∨ w.after.groups = w.before.groups ∧ ∃ data, patch.Sets data ∧
    w.after.devices = w.before.devices.map fun d => if Database.deviceAt publicId a d then data d else d

/-- The functions a patch waits for. -/
inductive PatchTask (a : AccountId) (publicId : PublicId) (patch : DevicePatch) : Task → Prop where
  | findGroup {id : GroupId} : patch.groupId = some (some id) → PatchTask a publicId patch (.findGroup a publicId id)
  | setGroup {groupId : Option GroupId} : patch.groupId = some groupId →
      PatchTask a publicId patch (.setGroup a publicId groupId)
  | lists : (patch.blockedIds.isSome || patch.allowedIds.isSome) = true →
      PatchTask a publicId patch (.updateLists a publicId patch.blockedIds patch.allowedIds)

/-- A step changes nothing, or is what the task writes. -/
theorem step_db (t : Task) (m : Moment) : (t.step m).1 = m.db ∨ t.writes m.db m.fresh = .ok (t.step m).1 := by
  unfold Task.step
  split
  · exact t.execute_db m.db m.fresh
  · exact t.execute_db m.db m.fresh
  · exact .inl rfl

theorem PatchTask.confined {patch : DevicePatch} {t : Task} (h : PatchTask a publicId patch t) (m : Moment) :
    Confined a publicId patch ⟨m.db, (t.step m).1⟩ := by
  rcases step_db t m with same | written
  · exact .inl same
  generalize (t.step m).1 = db' at written
  cases h with
  | findGroup asked =>
    cases written
    exact .inl rfl
  | setGroup asked =>
    obtain ⟨groups, devices⟩ := Database.commit_ok written
    exact .inr ⟨groups, _, .group asked, devices⟩
  | lists asked =>
    obtain ⟨groups, devices⟩ := Database.commit_ok written
    exact .inr ⟨groups, _, .lists asked, devices⟩

theorem PatchTask.next {patch : DevicePatch} {t t' : Task} (h : PatchTask a publicId patch t) {m : Moment}
    (goesOn : (t.step m).2 = .inl t') : PatchTask a publicId patch t' := by
  unfold Task.step at goesOn
  split at goesOn
  · cases h with
    | findGroup asked =>
      simp only [Task.execute] at goesOn
      split at goesOn <;> cases goesOn
      exact .setGroup asked
    | _ =>
      simp only [Task.execute] at goesOn
      split at goesOn <;> cases goesOn
  · cases goesOn
  · cases goesOn

/-- Every statement of a function a patch waits for. -/
theorem PatchTask.run {patch : DevicePatch} {t : Task} (h : PatchTask a publicId patch t) {ms later : List Moment}
    {writes : List Write} {reply : Reply} (returns : t.run ms = some (writes, reply, later)) :
    ∀ w ∈ writes, Confined a publicId patch w := by
  induction ms generalizing t writes with
  | nil => cases returns
  | cons m ms ih =>
    have first := h.confined m
    rw [Task.run] at returns
    split at returns
    · rename_i after next hstep
      obtain ⟨⟨writes', reply', later'⟩, hrest, same⟩ := Option.map_eq_some_iff.1 returns
      cases same
      rw [hstep] at first
      exact List.forall_mem_cons.2 ⟨first, ih (h.next (by rw [hstep])) hrest⟩
    · rename_i after reply' hstep
      cases returns
      rw [hstep] at first
      exact List.forall_mem_singleton.2 first

/-- The handler waits for functions of the patch only. -/
inductive PatchHandler (a : AccountId) (publicId : PublicId) (patch : DevicePatch) : Handler → Prop where
  | done (reply : HttpReply) : PatchHandler a publicId patch (.done reply)
  | await {t : Task} {next : Reply → Handler} : PatchTask a publicId patch t →
      (∀ reply, PatchHandler a publicId patch (next reply)) → PatchHandler a publicId patch (.await (.inl t) next)

theorem PatchHandler.run {patch : DevicePatch} {handler : Handler} (h : PatchHandler a publicId patch handler)
    {ms : List Moment} {writes : List Write} {reply : HttpReply} (answers : handler.run ms = some (writes, reply)) :
    ∀ w ∈ writes, Confined a publicId patch w := by
  induction h generalizing ms writes with
  | done reply' =>
    cases answers
    exact nofun
  | await task _ ih =>
    rw [Handler.run] at answers
    obtain ⟨⟨written, returned, later⟩, hrun, rest⟩ := Option.bind_eq_some_iff.1 answers
    obtain ⟨⟨writes', reply'⟩, hrest, same⟩ := Option.map_eq_some_iff.1 rest
    cases same
    exact List.forall_mem_append.2 ⟨task.run hrun, ih returned hrest⟩

theorem assignDeviceGroup_task (a : AccountId) (publicId : PublicId) {patch : DevicePatch} {groupId : Option GroupId}
    (asked : patch.groupId = some groupId) :
    ∃ t, assignDeviceGroup a publicId groupId = .inl t ∧ PatchTask a publicId patch t := by
  cases groupId with
  | none => exact ⟨_, rfl, .setGroup asked⟩
  | some id => exact ⟨_, rfl, .findGroup asked⟩

theorem patchLists_handler (a : AccountId) (publicId : PublicId) (patch : DevicePatch) :
    PatchHandler a publicId patch (patchLists a publicId patch) := by
  unfold patchLists
  split
  · rename_i asked
    rw [updateDeviceLists_asked asked]
    refine .await (.lists asked) fun reply => ?_
    split <;> exact .done _
  · exact .done _

/-- Whatever becomes of a patch, each of its statements keeps every row but that of
the device and every column the body does not name. -/
theorem patchDevice_confined {N : Type} {token : Option AccountId} {body : Json N} {ms : List Moment}
    {writes : List Write} {reply : HttpReply}
    (answers : (patchDevice token publicId body).run ms = some (writes, reply)) :
    ∀ w ∈ writes, ∃ a patch, token = some a ∧ DevicePatch.parse body = some patch ∧
      Confined a publicId patch w := by
  intro w mem
  unfold patchDevice at answers
  split at answers
  · cases answers
    cases mem
  · cases answers
    cases mem
  · rename_i a patch hbody
    refine ⟨a, patch, rfl, hbody, ?_⟩
    split at answers
    · exact (patchLists_handler a publicId patch).run answers w mem
    · rename_i groupId asked
      obtain ⟨t, call, task⟩ := assignDeviceGroup_task a publicId asked
      rw [call] at answers
      refine PatchHandler.run (.await task fun reply => ?_) answers w mem
      split
      · exact patchLists_handler a publicId patch
      all_goals exact .done _

end Frame

end ZortilWatch.Server
