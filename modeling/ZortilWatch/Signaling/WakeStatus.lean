import ZortilWatch.Signaling.Wake

/-!
# The advertised wake status (`server/src/http/routes.ts`)

`GET /devices` tells the owner whether a sleeping device can be woken, from a
count of helpers; `dispatchWake` wakes it, in a traversal of its own. Both look
for the same devices (`wake_as_advertised`). A device without a MAC address is
`unsupported` on both paths, and its helpers are not counted.
-/

namespace ZortilWatch.Signaling

/-- A device row with the columns the address book shows. -/
structure DeviceRecord extends DeviceRow where
  publicId : DeviceId
  «alias» : Option String := none
  groupId : Option String := none
  lastSeenAt : Option Nat := none
  deriving DecidableEq

/-- The `wake` field of a listed device. -/
inductive WakeStatus where
  | ready
  | noHelper
  | unsupported
  deriving DecidableEq, Repr

/-- A device as `GET /devices` lists it. -/
structure DeviceEntry where
  publicId : DeviceId
  «alias» : Option String
  groupId : Option String
  lastSeenAt : Option Nat
  online : Bool
  blockedIds : List DeviceId
  allowedIds : List DeviceId
  wake : WakeStatus
  deriving DecidableEq

/-- The status a wake comes back with, as the list names it. -/
def WakeOutcome.advertised : WakeOutcome → WakeStatus
  | .dispatched => .ready
  | .noHelper => .noHelper
  | .unsupported => .unsupported

namespace Registry

variable {C J : Type} (r : Registry C J)

def wakeStatus (d : DeviceRecord) : WakeStatus :=
  if d.macAddress.getD "" = "" then .unsupported
  else if r.helpersOnNetwork d.lastWanIp d.publicId (some d.accountId) > 0 then .ready
  else .noHelper

/-- One row of the answer. -/
def deviceEntry (d : DeviceRecord) : DeviceEntry where
  publicId := d.publicId
  «alias» := d.alias
  groupId := d.groupId
  lastSeenAt := d.lastSeenAt
  online := r.isOnline d.publicId
  blockedIds := d.blockedIds
  allowedIds := d.allowedIds
  wake := r.wakeStatus d

/-- `GET /devices` on the rows of the account, oldest first. -/
def getDevices (rows : List DeviceRecord) (accountId : String) : List DeviceEntry :=
  (rows.filter (·.accountId = accountId)).map r.deviceEntry

/-- `dispatchWake` for a row. -/
def wakeRow (d : DeviceRecord) : (WakeOutcome × Nat) × List (Effect C J) :=
  r.dispatchWake d.publicId d.macAddress d.lastWanIp (some d.accountId)

/-- The device can wake `d` through the connection: another device of the account,
online from the network `d` was last seen in. -/
def Helps (d : DeviceRecord) (id : DeviceId) (conn : C) : Prop :=
  id ≠ d.publicId ∧ d.lastWanIp.getD "" ≠ "" ∧ d.accountId ≠ "" ∧
    ∃ k e, r.slot id k = some e ∧ e.conn = conn ∧ e.canWake = true ∧ e.wanIp = d.lastWanIp ∧
      e.accountId = some d.accountId

/-- The devices a traversal for `d` stops at, each with the connection it uses. -/
def helpers (d : DeviceRecord) : List (DeviceId × C) :=
  r.devices.entries.filterMap fun x =>
    if x.1 = d.publicId ∨ d.lastWanIp.getD "" = "" then none
    else (helperConn x.2 (d.lastWanIp.getD "") (some d.accountId)).map (x.1, ·)

variable {r} {d : DeviceRecord}

theorem helperConn_isSome {slots : Slots C} {ip account : String} :
    (helperConn slots ip (some account)).isSome =
      [DeviceKind.host, .controller].any fun k => isHelperFor (slots.get k) ip (some account) := by
  rw [Bool.eq_iff_iff, Option.isSome_iff_ne_none, ne_eq, helperConn_eq_none, not_forall, List.any_eq_true]
  constructor
  · rintro ⟨k, helps⟩
    exact ⟨k, by cases k <;> simp, by simpa using helps⟩
  · rintro ⟨k, -, helps⟩
    exact ⟨k, by simp [helps]⟩

/-- What is found is the connection of a slot that helps. -/
theorem helperConn_eq_some {slots : Slots C} {ip account : String} {conn : C}
    (found : helperConn slots ip (some account) = some conn) : ∃ k e, slots.get k = some e ∧ e.conn = conn ∧
      e.canWake = true ∧ e.wanIp = some ip ∧ account ≠ "" ∧ e.accountId = some account := by
  obtain ⟨e, he, rfl⟩ := Option.map_eq_some_iff.1 found
  have first := Option.join_eq_some_iff.1 he
  obtain ⟨k, -, hk⟩ := List.mem_map.1 (List.mem_of_find?_eq_some first)
  have helps : isHelperFor (some e) ip (some account) = true := by simpa using List.find?_some first
  obtain ⟨_, same, helps⟩ := isHelperFor_eq_true.1 helps
  cases same
  exact ⟨k, e, hk, rfl, helps⟩

/-- Both traversals stop at the same devices. -/
theorem length_helpers : (r.helpers d).length = r.helpersOnNetwork d.lastWanIp d.publicId (some d.accountId) := by
  unfold helpers helpersOnNetwork
  cases hip : d.lastWanIp with
  | none => simp
  | some ip =>
    by_cases known : ip = ""
    · subst known
      simp
    · simp only [Option.getD_some, known, or_false]
      rw [List.length_filterMap_eq_countP, List.countP_eq_length_filter]
      congr 2
      funext x
      rw [← helperConn_isSome]
      by_cases target : x.1 = d.publicId <;> simp [target]

/-- A device is stopped at once. -/
theorem nodup_helpers : ((r.helpers d).map Prod.fst).Nodup := by
  have apart : r.devices.entries.Pairwise (·.1 ≠ ·.1) := List.pairwise_map.1 r.devices.nodup
  have key {x : DeviceId × Slots C} {y : DeviceId × C}
      (hy : y ∈ if x.1 = d.publicId ∨ d.lastWanIp.getD "" = "" then none
        else (helperConn x.2 (d.lastWanIp.getD "") (some d.accountId)).map (x.1, ·)) : y.1 = x.1 := by
    split at hy
    · cases hy
    · obtain ⟨conn, -, rfl⟩ := Option.map_eq_some_iff.1 hy
      rfl
  refine List.pairwise_map.2 (List.pairwise_filterMap.2 (apart.imp fun other y hy y' hy' => ?_))
  rw [key hy, key hy']
  exact other

theorem mem_helpers {id : DeviceId} {conn : C} (found : (id, conn) ∈ r.helpers d) : r.Helps d id conn := by
  obtain ⟨x, hx, hf⟩ := List.mem_filterMap.1 found
  split at hf
  · cases hf
  · rename_i candidate
    rw [not_or] at candidate
    obtain ⟨conn', hconn, same⟩ := Option.map_eq_some_iff.1 hf
    cases same
    obtain ⟨k, e, hk, hc, wakes, near, named, own⟩ := helperConn_eq_some hconn
    refine ⟨candidate.1, candidate.2, named, k, e, ?_, hc, wakes, ?_, own⟩
    · simp [slot, JsMap.mem_entries.1 hx, hk]
    · rw [near]
      cases hip : d.lastWanIp with
      | none => simp [hip] at candidate
      | some ip => rfl

/-- No device that can wake is passed over. -/
theorem listed_of_helps {id : DeviceId} {conn : C} (helps : r.Helps d id conn) :
    id ∈ (r.helpers d).map Prod.fst := by
  obtain ⟨other, known, named, k, e, hslot, -, wakes, near, own⟩ := helps
  obtain ⟨slots, hd, hk⟩ := Option.bind_eq_some_iff.1 hslot
  have ip : e.wanIp = some (d.lastWanIp.getD "") := by
    rw [near]
    cases hip : d.lastWanIp with
    | none => simp [hip] at known
    | some ip => rfl
  have used : helperConn slots (d.lastWanIp.getD "") (some d.accountId) ≠ none := by
    rw [ne_eq, helperConn_eq_none, not_forall]
    refine ⟨k, ?_⟩
    rw [hk, isHelperFor_eq_true.2 ⟨e, rfl, wakes, ip, named, own⟩]
    exact Bool.noConfusion
  obtain ⟨conn', hconn⟩ := Option.ne_none_iff_exists'.1 used
  refine List.mem_map.2 ⟨(id, conn'), List.mem_filterMap.2 ⟨(id, slots), JsMap.mem_entries.2 hd, ?_⟩, rfl⟩
  rw [if_neg (not_or.2 ⟨other, known⟩), hconn]
  rfl

/-- A wake of a row, as one packet for each helper. -/
theorem wakeRow_eq : r.wakeRow d =
    if d.macAddress.getD "" = "" then ((.unsupported, 0), [])
    else ((if (r.helpers d).length = 0 then .noHelper else .dispatched, (r.helpers d).length),
      (r.helpers d).map fun x => .send x.2 (.wakeDispatch (d.macAddress.getD ""))) := by
  have conns : (r.helpers d).map Prod.snd = r.devices.entries.filterMap fun x =>
      if x.1 = d.publicId ∨ d.lastWanIp.getD "" = "" then none
      else helperConn x.2 (d.lastWanIp.getD "") (some d.accountId) := by
    rw [helpers, List.map_filterMap]
    congr 1
    funext x
    split
    · rfl
    · cases helperConn x.2 (d.lastWanIp.getD "") (some d.accountId) <;> rfl
  have packets {mac : String} : (r.helpers d).map (fun x => Effect.send x.2 (.wakeDispatch mac) : _ → Effect C J) =
      ((r.helpers d).map Prod.snd).map fun conn => .send conn (.wakeDispatch mac) := by
    rw [List.map_map]
    rfl
  have counted : (r.helpers d).length = ((r.helpers d).map Prod.snd).length := (List.length_map _).symm
  rw [packets, counted, conns]
  unfold wakeRow dispatchWake
  cases d.macAddress with
  | none => rfl
  | some mac =>
    by_cases given : mac = ""
    · subst given
      rfl
    · rw [if_neg (by simpa using given)]
      split
      · contradiction
      · rename_i same
        cases same
        exact absurd rfl given
      · rename_i same
        cases same
        dsimp only
        split <;> rename_i none_found <;> simp [none_found]

/-- What `GET /devices` says of a device, against what a wake of it does. -/
structure WakeAsAdvertised (r : Registry C J) (d : DeviceRecord) : Prop where
  listed : ∀ rows, d ∈ rows → r.deviceEntry d ∈ r.getDevices rows d.accountId
  status : (r.deviceEntry d).wake = (r.wakeRow d).1.1.advertised
  count : (r.wakeRow d).1.2 =
    if d.macAddress.getD "" = "" then 0 else r.helpersOnNetwork d.lastWanIp d.publicId (some d.accountId)
  /-- One packet for each helper, and none for others. -/
  packets : ∃ told : List (DeviceId × C),
    (r.wakeRow d).2 = told.map (fun x => .send x.2 (.wakeDispatch (d.macAddress.getD ""))) ∧
      told.length = (r.wakeRow d).1.2 ∧ (told.map Prod.fst).Nodup ∧ (∀ x ∈ told, r.Helps d x.1 x.2) ∧
      (d.macAddress.getD "" ≠ "" → ∀ id conn, r.Helps d id conn → id ∈ told.map Prod.fst)

/-- In every state and for every row, the list says of a device what a wake of it
comes back with, and the wake reaches the helpers counted, if the device has a MAC
address. -/
theorem wake_as_advertised (r : Registry C J) (d : DeviceRecord) : r.WakeAsAdvertised d := by
  have listed (rows : List DeviceRecord) (row : d ∈ rows) : r.deviceEntry d ∈ r.getDevices rows d.accountId :=
    List.mem_map_of_mem (List.mem_filter.2 ⟨row, by simp⟩)
  by_cases given : d.macAddress.getD "" = ""
  · have unsupported : r.wakeRow d = ((.unsupported, 0), []) := by rw [wakeRow_eq, if_pos given]
    constructor
    case listed => exact listed
    case status => rw [unsupported, deviceEntry, wakeStatus, if_pos given]; rfl
    case count => rw [unsupported, if_pos given]
    case packets =>
      rw [unsupported]
      exact ⟨[], rfl, rfl, List.nodup_nil, fun x hx => (List.not_mem_nil hx).elim,
        fun some_mac => absurd given some_mac⟩
  · have dispatched := wakeRow_eq (r := r) (d := d)
    rw [if_neg given] at dispatched
    constructor
    case listed => exact listed
    case status =>
      rw [dispatched, deviceEntry, wakeStatus, if_neg given, ← length_helpers]
      dsimp only
      by_cases none_there : (r.helpers d).length = 0
      · rw [if_neg (by omega), if_pos none_there]
        rfl
      · rw [if_pos (by omega), if_neg none_there]
        rfl
    case count => rw [dispatched, if_neg given, length_helpers]
    case packets =>
      rw [dispatched]
      exact ⟨r.helpers d, rfl, rfl, nodup_helpers, fun x hx => mem_helpers hx, fun _ id conn => listed_of_helps⟩

/-- A device without a MAC address, beside one that could wake it. -/
def macless : DeviceRecord := { publicId := "222222222", accountId := "a", lastWanIp := some "1.2.3.4" }

/-- One helper is counted for the device and none is reported by its wake. -/
theorem unsupported_helpers_uncounted :
    ¬ ∀ (r : Registry Nat Unit) (d : DeviceRecord),
      (r.wakeRow d).1.2 = r.helpersOnNetwork d.lastWanIp d.publicId (some d.accountId) := by
  intro all
  let r : Registry Nat Unit := ({ opts := { iceServersFor := fun _ => () } } : Registry Nat Unit).online
    "111111111" .host 1 { wanIp := some "1.2.3.4", canWake := some true, accountId := some "a" } 0 |>.1
  exact absurd (all r macless) (by decide)

end Registry

end ZortilWatch.Signaling
