import Mathlib.Data.Set.Basic
import ZortilWatch.Lib.Text
import ZortilWatch.Server.DeviceRoutes
import ZortilWatch.Signaling.AccessList

/-!
# Editing the blacklist (`ui/src/screens/AddressBook.tsx`, `ui/src/api.ts`)

`saveBlocked` takes the ids from the text of a field and sends them as the blacklist of the
own device, and the empty list as its whitelist. The server writes both: after a save
everybody but the ids entered is admitted (`admitted_saved`). So the whitelist survives
only if it was empty (`blacklist_edit_iff`).
-/

namespace ZortilWatch.Ui

open ZortilWatch.Server (AccountId Database Device DevicePatch HttpReply Moment PublicId Write isWhitespace patchDevice)
open ZortilWatch.Signaling (DeviceId DeviceRow aclOk object validDeviceId)

/-! ## The field and the request -/

/-- `[\s,;]`. -/
def separatesIds (c : Char) : Bool := isWhitespace c || c = ',' || c = ';'

/-- The ids in the text of the field. -/
def blockedIdsOf (blockedText : String) : List PublicId :=
  ((Text.splitRuns separatesIds blockedText.toList).map fun s => String.ofList (Text.trim isWhitespace s)).filter
    validDeviceId

/-- The text `openSecurity` fills the field with. -/
def blockedTextOf (blockedIds : List PublicId) : String := ", ".intercalate blockedIds

/-- A `PATCH` of `/devices/` and an id. -/
structure PatchRequest (N : Type) where
  publicId : PublicId
  body : Json N

section Requests

variable {N : Type}

def idList (ids : List PublicId) : Signaling.Field N := some (.arr (ids.map .str))

def setDeviceLists (publicId : PublicId) (blockedIds allowedIds : List PublicId) : PatchRequest N where
  publicId := publicId
  body := object [("blockedIds", idList blockedIds), ("allowedIds", idList allowedIds)]

def setDeviceGroup (publicId : PublicId) (groupId : Option String) : PatchRequest N where
  publicId := publicId
  body := object [("groupId", some (groupId.elim .null .str))]

def saveBlocked (selfId : PublicId) (blockedText : String) : PatchRequest N :=
  setDeviceLists selfId (blockedIdsOf blockedText) []

/-- The patch a save is to the server: the ids entered, and no whitelist. -/
def savedPatch (blockedText : String) : DevicePatch where
  blockedIds := some (blockedIdsOf blockedText)
  allowedIds := some []

/-- What the server does with a request. -/
def PatchRequest.run (req : PatchRequest N) (token : Option AccountId) (ms : List Moment) :
    Option (List Write × HttpReply) :=
  (patchDevice token req.publicId req.body).run ms

end Requests

/-! ## The access list -/

/-- The row `connect_request` looks at. -/
def aclRow (d : Device) : DeviceRow where
  accountId := d.accountId
  clientSecretHash := d.clientSecretHash
  blockedIds := d.blockedIds
  allowedIds := d.allowedIds

/-- The controllers the access list of a device admits. -/
def admitted (db : Database) (publicId : PublicId) : Set DeviceId :=
  {c | aclOk c (.found ((db.findDeviceByPublicId publicId).map aclRow)) = true}

/-- The controllers the whitelist of a row lets through. -/
def whitelisted (row : Device) : Set DeviceId := {c | row.allowedIds = [] ∨ c ∈ row.allowedIds}

/-- Of all rows and columns only the blacklist of the device is changed, to `ids`; whom the
device admits changes with it, and a whitelist still restricts access. -/
structure EditsBlacklist (w : Write) (row : Device) (ids : List PublicId) : Prop where
  groups : w.after.groups = w.before.groups
  devices : w.after.devices =
    w.before.devices.map fun d => if d.publicId = row.publicId then { d with blockedIds := ids } else d
  admits : admitted w.after row.publicId =
    admitted w.before row.publicId \ {c | c ∈ ids} ∪ {c | c ∈ row.blockedIds ∧ c ∉ ids} ∩ whitelisted row
  restricts : row.allowedIds ≠ [] → ∀ c ∈ admitted w.after row.publicId, c ∈ row.allowedIds

/-! ## The ids of a text -/

section Ids

/-- An id is nine digits, so there is nothing to trim or to split. -/
theorem plain_of_valid {d : PublicId} (valid : validDeviceId d = true) :
    d.toList ≠ [] ∧ ∀ c ∈ d.toList, separatesIds c = false := by
  have digit {c : Char} (low : '0' ≤ c) (high : c ≤ '9') : separatesIds c = false := by
    have low : 48 ≤ c.toNat := low
    have high : c.toNat ≤ 57 := high
    have comma : c ≠ ',' := by rintro rfl; exact absurd low (by decide)
    have semicolon : c ≠ ';' := by rintro rfl; exact absurd high (by decide)
    simp [separatesIds, isWhitespace, comma, semicolon]
    omega
  unfold validDeviceId at valid
  split at valid
  · cases valid
  · rename_i c cs text
    simp only [Bool.and_eq_true, decide_eq_true_eq, List.all_eq_true] at valid
    obtain ⟨⟨⟨low, high⟩, -⟩, rest⟩ := valid
    rw [text]
    refine ⟨List.cons_ne_nil c cs, List.forall_mem_cons.2 ⟨?_, fun c' mem => ?_⟩⟩
    · exact digit (Char.le_trans (show '0' ≤ '1' by decide) low) high
    · exact digit (rest c' mem).1 (rest c' mem).2

theorem valid_of_mem_blockedIdsOf {text : String} {d : PublicId} (mem : d ∈ blockedIdsOf text) :
    validDeviceId d = true :=
  (List.mem_filter.1 mem).2

theorem trim_of_valid {d : PublicId} (valid : validDeviceId d = true) : Text.trim isWhitespace d.toList = d.toList := by
  have dark {c : Char} (mem : c ∈ d.toList) : isWhitespace c = false := by
    have := (plain_of_valid valid).2 c mem
    simp only [separatesIds, Bool.or_eq_false_iff] at this
    exact this.1.1
  exact Text.trim_self
    ⟨fun c first => dark (List.mem_of_mem_head? first), fun c last => dark (List.mem_of_getLast? last)⟩

theorem blockedTextOf_cons_cons (d d' : PublicId) (ids : List PublicId) :
    (blockedTextOf (d :: d' :: ids)).toList = d.toList ++ (", ".toList ++ (blockedTextOf (d' :: ids)).toList) := by
  rw [blockedTextOf, String.intercalate_cons_cons, String.toList_append, String.toList_append, List.append_assoc]
  rfl

/-- The text of a list begins with its first id. -/
theorem head_blockedTextOf {d : PublicId} {ids : List PublicId} (valid : validDeviceId d = true) :
    (blockedTextOf (d :: ids)).toList.head?.any separatesIds = false := by
  obtain ⟨some_, dark⟩ := plain_of_valid valid
  obtain ⟨c, cs, text⟩ := List.exists_cons_of_ne_nil some_
  have first : (blockedTextOf (d :: ids)).toList.head? = some c := by
    cases ids with
    | nil => rw [blockedTextOf, String.intercalate_singleton, text, List.head?_cons]
    | cons d' ids =>
      rw [blockedTextOf_cons_cons, text]
      rfl
  rw [first, Option.any_some]
  exact dark c (by rw [text]; exact List.mem_cons_self)

theorem splitRuns_blockedTextOf {d : PublicId} {ids : List PublicId}
    (valid : ∀ d' ∈ d :: ids, validDeviceId d' = true) :
    Text.splitRuns separatesIds (blockedTextOf (d :: ids)).toList = (d :: ids).map String.toList := by
  induction ids generalizing d with
  | nil =>
    have dark := (plain_of_valid (valid d List.mem_cons_self)).2
    rw [blockedTextOf, String.intercalate_singleton, ← List.append_nil d.toList, Text.splitRuns_dark dark]
    simp [Text.splitRuns]
  | cons d' ids ih =>
    have dark := (plain_of_valid (valid d List.mem_cons_self)).2
    have rest := fun d'' mem => valid d'' (List.mem_cons_of_mem d mem)
    have comma : ", ".toList.all separatesIds := by decide
    have stops := @head_blockedTextOf d' ids (rest d' List.mem_cons_self)
    rw [blockedTextOf_cons_cons, Text.splitRuns_append dark (List.all_eq_true.1 comma) (by decide) stops]
    exact congrArg _ (ih rest)

/-- The text the field is filled with is read back. -/
theorem blockedIdsOf_blockedTextOf {ids : List PublicId} (valid : ∀ d ∈ ids, validDeviceId d = true) :
    blockedIdsOf (blockedTextOf ids) = ids := by
  cases ids with
  | nil => decide
  | cons d ids =>
    rw [blockedIdsOf, splitRuns_blockedTextOf valid, List.map_map]
    have same : (d :: ids).map ((fun s => String.ofList (Text.trim isWhitespace s)) ∘ String.toList) = d :: ids := by
      conv_rhs => rw [← List.map_id (d :: ids)]
      refine List.map_congr_left fun d' mem => ?_
      rw [Function.comp_apply, trim_of_valid (valid d' mem), String.ofList_toList]
      rfl
    rw [same, List.filter_eq_self]
    exact valid

theorem blockedIdsOf_blockedTextOf_two :
    blockedIdsOf (blockedTextOf ["100000001", "222222222"]) = ["100000001", "222222222"] :=
  blockedIdsOf_blockedTextOf (by decide +kernel)

theorem zDeviceIds_idList {N : Type} {ids : List PublicId} (valid : ∀ d ∈ ids, validDeviceId d = true) :
    Server.zDeviceIds (idList ids : Signaling.Field N) = if ids.length ≤ 200 then some ids else none := by
  rw [idList, Server.zDeviceIds, Signaling.zStringArray_strings, Option.filter_some, List.all_eq_true.2 valid]
  simp

/-- Whatever is entered, the server takes the ids if they are not too many. -/
theorem parse_saveBlocked {N : Type} (selfId : PublicId) (blockedText : String) :
    DevicePatch.parse (saveBlocked selfId blockedText : PatchRequest N).body =
      if (blockedIdsOf blockedText).length ≤ 200 then some (savedPatch blockedText) else none := by
  have body : DevicePatch.parse (saveBlocked selfId blockedText : PatchRequest N).body =
      ((Server.zDeviceIds (idList (blockedIdsOf blockedText) : Signaling.Field N)).map some).bind fun blockedIds =>
        some { blockedIds := blockedIds, allowedIds := some [] } := rfl
  rw [body, zDeviceIds_idList fun d => valid_of_mem_blockedIdsOf]
  split <;> rfl

end Ids

/-! ## What a save does -/

section Save

variable {N : Type} {token : Option AccountId} {selfId : PublicId} {blockedText : String} {ms : List Moment}
  {writes : List Write}

theorem mem_admitted {db : Database} {d : Device} {c : DeviceId} (found : db.findDeviceByPublicId selfId = some d) :
    c ∈ admitted db selfId ↔ c ∉ d.blockedIds ∧ c ∈ whitelisted d := by
  rw [admitted, found, Set.mem_ofPred_eq, Option.map_some, Signaling.aclOk_found]
  rfl

/-- A save that succeeds is one statement, which writes both lists of the device. -/
theorem saved_patched
    (saved : (saveBlocked selfId blockedText : PatchRequest N).run token ms = some (writes, .ok)) :
    ∃ w row, writes = [w] ∧ token = some row.accountId ∧
      Server.Patched row.accountId selfId (savedPatch blockedText) row w := by
  unfold PatchRequest.run patchDevice at saved
  rw [parse_saveBlocked] at saved
  split at saved
  · cases saved
  · cases saved
  · rename_i a patch parsed
    split at parsed
    · cases parsed
      obtain ⟨w, row, rfl, patched⟩ := Server.patchLists_ok rfl saved
      cases patched.own
      exact ⟨w, row, rfl, rfl, patched⟩
    · cases parsed

/-- After a save everybody is admitted but the ids entered. -/
theorem admitted_saved {a : AccountId} {row : Device} {w : Write}
    (patched : Server.Patched a selfId (savedPatch blockedText) row w) :
    admitted w.after selfId = {c | c ∉ blockedIdsOf blockedText} := by
  ext c
  rw [mem_admitted patched.found_after, Set.mem_ofPred_eq]
  exact and_iff_left (.inl rfl)

/-- A save keeps to the blacklist exactly if the device had no whitelist. -/
theorem blacklist_edit_iff
    (saved : (saveBlocked selfId blockedText : PatchRequest N).run token ms = some (writes, .ok)) :
    ∃ w row, writes = [w] ∧ w.before.findDeviceByPublicId selfId = some row ∧ token = some row.accountId ∧
      (EditsBlacklist w row (blockedIdsOf blockedText) ↔ row.allowedIds = []) := by
  obtain ⟨w, row, rfl, own, patched⟩ := saved_patched saved
  obtain ⟨mem, same⟩ := Database.findDeviceByPublicId_eq_some.1 patched.found
  refine ⟨w, row, rfl, patched.found, own, fun edits => ?_, fun none_ => ?_⟩
  · -- the row as it should be and as it is
    have rows := edits.devices
    rw [patched.devices, List.map_inj_left] at rows
    have written := rows row mem
    rw [if_pos same, if_pos rfl] at written
    exact (congrArg Device.allowedIds written).symm
  · refine ⟨patched.groups, ?_, ?_, fun some_ => absurd none_ some_⟩
    · rw [patched.devices, same]
      refine List.map_congr_left fun d hd => ?_
      split
      · rename_i hid
        have again := Database.findDeviceByPublicId_eq_some.2 ⟨hd, hid⟩
        rw [patched.found] at again
        cases again
        simp only [DevicePatch.setLists, savedPatch, Option.getD_some, none_]
      · rfl
    · rw [same, admitted_saved patched]
      ext c
      have before := mem_admitted (c := c) patched.found
      have free : c ∈ whitelisted row := .inl none_
      simp only [Set.mem_union, Set.mem_sdiff, Set.mem_inter_iff, Set.mem_ofPred_eq, before, free, and_true]
      by_cases blocked : c ∈ row.blockedIds <;> simp [blocked]

/-- The tables with one device of one account. -/
def tableOf (blockedIds allowedIds : List PublicId) : Database where
  groups := []
  devices := [{ publicId := "100000001", accountId := "owner", blockedIds := blockedIds, allowedIds := allowedIds }]
  groupIds := by decide
  groupNames := by decide
  publicIds := List.nodup_singleton "100000001"
  foreignKey := by
    intro d mem g assigned
    rw [List.mem_singleton.1 mem] at assigned
    cases assigned

/-- A save on a device without lists. -/
theorem blacklist_edit_unguarded : ∃ w row, [⟨tableOf [] [], tableOf ["222222222"] []⟩] = [w] ∧
    w.before.findDeviceByPublicId "100000001" = some row ∧ some "owner" = some row.accountId ∧
    (EditsBlacklist w row (blockedIdsOf "222222222") ↔ row.allowedIds = []) :=
  have saved : (saveBlocked "100000001" "222222222" : PatchRequest Nat).run (some "owner")
      [{ db := tableOf [] [], fate := .answered }] = some ([⟨tableOf [] [], tableOf ["222222222"] []⟩], .ok) := rfl
  blacklist_edit_iff saved

/-- Blocking one controller lets a third one in that the whitelist kept out. -/
theorem save_drops_whitelist : ¬ ∀ token selfId blockedText ms writes,
    (saveBlocked selfId blockedText : PatchRequest Nat).run token ms = some (writes, .ok) →
    ∀ w ∈ writes, ∀ row, w.before.findDeviceByPublicId selfId = some row →
      EditsBlacklist w row (blockedIdsOf blockedText) := by
  intro all
  let before := tableOf [] ["111111111"]
  let after := tableOf ["222222222"] []
  have edits := all (some "owner") "100000001" "222222222" [{ db := before, fate := .answered }] [⟨before, after⟩] rfl
    ⟨before, after⟩ List.mem_cons_self _ rfl
  have admits : "333333333" ∈ admitted after "100000001" := (mem_admitted rfl).2 ⟨by decide, .inl rfl⟩
  exact absurd (edits.restricts (by decide) "333333333" admits) (by decide)

end Save

/-! ## A sibling that keeps the lists -/

section Group

variable {N : Type} {publicId : PublicId} {groupId : Option String}

/-- A request for a group names no list. -/
theorem parse_setDeviceGroup {patch : DevicePatch}
    (parsed : DevicePatch.parse (setDeviceGroup publicId groupId : PatchRequest N).body = some patch) :
    patch.blockedIds = none ∧ patch.allowedIds = none := by
  simp only [setDeviceGroup, object, DevicePatch.parse, Option.bind_eq_bind, Option.bind_eq_some_iff] at parsed
  obtain ⟨g, -, b, hb, a, ha, h⟩ := parsed
  cases hb
  cases ha
  cases h
  exact ⟨rfl, rfl⟩

/-- Whatever becomes of a request for a group, every device admits whom it admitted. -/
theorem setDeviceGroup_admits {token : Option AccountId} {ms : List Moment} {writes : List Write} {reply : HttpReply}
    (answers : (setDeviceGroup publicId groupId : PatchRequest N).run token ms = some (writes, reply)) :
    ∀ w ∈ writes, ∀ d, admitted w.after d = admitted w.before d := by
  intro w mem d
  obtain ⟨a, patch, -, parsed, same | ⟨-, data, sets, devices⟩⟩ := Server.patchDevice_confined answers w mem
  · rw [same]
  · have keeps : ∀ row, (data row).publicId = row.publicId ∧ aclRow (data row) = aclRow row := by
      intro row
      cases sets with
      | group asked => exact ⟨rfl, rfl⟩
      | lists asked =>
        obtain ⟨hb, ha⟩ := parse_setDeviceGroup parsed
        simp [hb, ha] at asked
    have rows : aclRow ∘ (fun row => if Database.deviceAt publicId a row then data row else row) = aclRow := by
      funext row
      rw [Function.comp_apply]
      split
      · exact (keeps row).2
      · rfl
    rw [admitted, admitted, Database.findDeviceByPublicId_map (fun row => ?_) devices, Option.map_map]
    · exact congrArg (fun f => {c | aclOk c (.found ((w.before.findDeviceByPublicId d).map f)) = true}) rows
    · split
      · exact (keeps row).1
      · rfl

/-- The tables with one device that blocks one controller, and the one group of its account. -/
def groupedTable (groupId : Option String) (assigned : ∀ g ∈ groupId, g = "home") : Database where
  groups := [⟨"home", "owner", "Home"⟩]
  devices := [{ publicId := "100000001", accountId := "owner", groupId, blockedIds := ["222222222"] }]
  groupIds := List.nodup_singleton "home"
  groupNames := List.nodup_singleton ("owner", "Home")
  publicIds := List.nodup_singleton "100000001"
  foreignKey := by
    intro d mem g there
    rw [List.mem_singleton.1 mem] at there
    rw [assigned g there]
    exact List.mem_singleton_self "home"

/-- The device is taken out of its group. -/
theorem setDeviceGroup_admits_ungrouped :
    admitted (groupedTable none nofun) = admitted (groupedTable (some "home") (by simp)) :=
  have answers : (setDeviceGroup "100000001" none : PatchRequest Nat).run (some "owner")
      [{ db := groupedTable (some "home") (by simp), fate := .answered }] =
        some ([⟨groupedTable (some "home") (by simp), groupedTable none nofun⟩], .ok) := rfl
  funext (setDeviceGroup_admits answers _ List.mem_cons_self)

end Group

end ZortilWatch.Ui
