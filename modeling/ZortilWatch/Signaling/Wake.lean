import ZortilWatch.Signaling.Presence

/-!
# Waking a device of another account

The helpers that wake a target are devices of the target's account. The account
of the device that asks is not looked at anywhere on the way, so its request
wakes the target exactly if such a helper is online (`wake_isolated_iff`).
-/

namespace ZortilWatch.Signaling

namespace Registry

variable {C J : Type} {r : Registry C J}

/-- A target with a MAC address and a recorded network has no helper there: no
other device of its account that can wake is online from that network. -/
def NoHelper (r : Registry C J) (target : DeviceId) (row : DeviceRow) : Prop :=
  ∀ mac ip, row.macAddress = some mac → mac ≠ "" → row.lastWanIp = some ip → ip ≠ "" → row.accountId ≠ "" →
    ∀ d k e, r.slot d k = some e → d ≠ target → e.canWake = true → e.wanIp = some ip →
      e.accountId ≠ some row.accountId

theorem isHelperFor_eq_true {e : Option (SlotEntry C)} {ip account : String} :
    isHelperFor e ip (some account) = true ↔
      ∃ e', e = some e' ∧ e'.canWake = true ∧ e'.wanIp = some ip ∧ account ≠ "" ∧ e'.accountId = some account := by
  cases e with
  | none => simp [isHelperFor]
  | some e => simp [isHelperFor, and_assoc]

theorem helperConn_eq_none {slots : Slots C} {ip account : String} :
    helperConn slots ip (some account) = none ↔ ∀ k, isHelperFor (slots.get k) ip (some account) = false := by
  have listed (k : DeviceKind) : slots.get k ∈ [DeviceKind.host, .controller].map slots.get := by cases k <;> simp
  unfold helperConn
  cases h : ([DeviceKind.host, .controller].map slots.get).find? fun e => isHelperFor e ip (some account) with
  | none =>
    refine ⟨fun _ k => ?_, fun _ => rfl⟩
    simpa using List.find?_eq_none.1 h _ (listed k)
  | some e =>
    -- what was found is an entry, and one that helps
    have helps : isHelperFor e ip (some account) = true := by simpa using List.find?_some h
    obtain ⟨k, -, hk⟩ := List.mem_map.1 (List.mem_of_find?_eq_some h)
    obtain ⟨e', rfl, -⟩ := isHelperFor_eq_true.1 helps
    constructor
    · intro none_found
      cases none_found
    · intro none_helps
      rw [← hk, none_helps k] at helps
      cases helps

/-- The connections `dispatchWake` hands a packet to. -/
theorem dispatchWake_sends [DecidableEq C] {target : DeviceId} {mac account : String} {wanIp : Option String}
    (given : mac ≠ "") :
    (r.dispatchWake target (some mac) wanIp (some account)).2 =
      (r.devices.entries.filterMap fun d => if d.1 = target ∨ wanIp.getD "" = "" then none else
        helperConn d.2 (wanIp.getD "") (some account)).map fun conn => .send conn (.wakeDispatch mac) := by
  unfold dispatchWake
  split
  · contradiction
  · rename_i empty
    cases empty
    exact absurd rfl given
  · rename_i mac' _ same
    cases same
    dsimp only
    split <;> rfl

/-- Nobody is handed a magic packet exactly if there is no helper. -/
theorem dispatchWake_silent [DecidableEq C] {target : DeviceId} {row : DeviceRow} :
    (r.dispatchWake target row.macAddress row.lastWanIp (some row.accountId)).2 = [] ↔ r.NoHelper target row := by
  cases hmac : row.macAddress with
  | none => simp [dispatchWake, NoHelper, hmac]
  | some mac =>
    by_cases given : mac = ""
    · subst given
      simp only [dispatchWake, NoHelper, hmac, true_iff]
      rintro mac ip ⟨⟩ given
      exact absurd rfl given
    rw [dispatchWake_sends given, List.map_eq_nil_iff, List.filterMap_eq_nil_iff]
    constructor
    · intro silent mac' ip _ _ hip known named d k e hslot other wakes near same
      obtain ⟨slots, hd, hk⟩ := Option.bind_eq_some_iff.1 hslot
      have passed := silent (d, slots) (JsMap.mem_entries.2 hd)
      simp only [hip, Option.getD_some, other, known, or_self, if_false] at passed
      have idle := helperConn_eq_none.1 passed k
      rw [hk, isHelperFor_eq_true.2 ⟨e, rfl, wakes, near, named, same⟩] at idle
      cases idle
    · intro none_helps d hd
      split
      · rfl
      rename_i candidate
      rw [not_or] at candidate
      obtain ⟨other, known⟩ := candidate
      rw [helperConn_eq_none]
      intro k
      by_contra helps
      rw [Bool.not_eq_false] at helps
      obtain ⟨e, he, wakes, near, named, same⟩ := isHelperFor_eq_true.1 helps
      cases hip : row.lastWanIp with
      | none => simp [hip] at known
      | some ip =>
        simp only [hip, Option.getD_some] at known near
        have hslot : r.slot d.1 k = some e := by simp [slot, JsMap.mem_entries.1 hd, he]
        exact none_helps mac ip hmac given hip known named d.1 k e hslot other wakes near same

end Registry

namespace Endpoint

variable {J : Type} {env : Env J} {ep : Endpoint J} {s : SocketId} {i : Nat} {target : DeviceId} {rid : Option String}

/-- Some connection is handed a magic packet. -/
def Wakes (outs : List (Output J)) : Prop := ∃ s mac, .send s (.wakeDispatch mac) ∈ outs

/-- The device socket `s` is registered as and the target are of different
accounts. -/
def CrossTenant (table : DeviceId → Option DeviceRow) (ep : Endpoint J) (s : SocketId) (target : DeviceId) : Prop :=
  ∃ d k own row, ep.identity s = some (d, k) ∧ table d = some own ∧ table target = some row ∧
    own.accountId ≠ row.accountId

/-- All the handler of a `wake` of socket `s` does: at once, and when its lookup is
answered, after the events `between`. -/
def wakeOutputs (env : Env J) (ep : Endpoint J) (s : SocketId) (target : DeviceId) (rid : Option String) (now : Nat)
    (between : List (Event J)) (i : Nat) (device : Lookup) (sid : SessionId) (later : Nat) : List (Output J) :=
  let asked := handle env ep (.message s (some (.wake target rid)) now)
  asked.2 ++ (handle env ((signaling env).after asked.1 between) (.resume s i device sid later)).2

/-- The message itself wakes nobody. -/
theorem not_wakes_message (now : Nat) : ¬ Wakes (handle env ep (.message s (some (.wake target rid)) now)).2 := by
  have parsed : (some (ClientMessage.wake (J := J) target rid)).filter ClientMessage.wellFormed =
      some (.wake target rid) := rfl
  simp only [handle, onMessage, parsed, ClientMessage.isRegister, Bool.false_eq_true, if_false]
  rintro ⟨s', mac, sent⟩
  cases hid : ep.identity s with
  | none => simp [hid] at sent
  | some side => simp [hid, onRequest] at sent

/-- Magic packets among other messages. -/
theorem wakes_append {effs : List (Effect SocketId J)} (only : ∀ x ∈ effs, ∃ c mac, x = .send c (.wakeDispatch mac))
    {rest : List (Output J)} (others : ¬ Wakes rest) : Wakes (effs.map .ofEffect ++ rest) ↔ effs ≠ [] := by
  constructor
  · rintro ⟨s, mac, sent⟩ rfl
    exact others ⟨s, mac, sent⟩
  · intro some_sent
    obtain ⟨x, effs', rfl⟩ := List.exists_cons_of_ne_nil some_sent
    obtain ⟨c, mac, rfl⟩ := only x List.mem_cons_self
    exact ⟨c, mac, List.mem_append_left _ (List.mem_map.2 ⟨_, List.mem_cons_self, rfl⟩)⟩

/-- The handler wakes somebody exactly if the registry sends something. -/
theorem wakes_resumeWake (device : Lookup) {row : Option DeviceRow}
    (read : device = .failed ∧ row = none ∨ device = .found row) : Wakes (ep.resumeWake s target rid device).2 ↔
      (ep.registry.dispatchWake target (row.bind (·.macAddress)) (row.bind (·.lastWanIp))
        (row.map (·.accountId))).2 ≠ [] := by
  rcases read with ⟨rfl, rfl⟩ | rfl
  all_goals
    simp only [resumeWake, List.append_assoc]
    refine wakes_append (fun x => ep.registry.mem_dispatchWake_out) ?_
    rintro ⟨s', mac, sent⟩
    split at sent <;> simp at sent

/-- Its lookup's answer wakes somebody exactly if it is a row whose device has a
helper. -/
theorem wakes_resume (hw : ep.waitingAt s i = some (.wake target rid)) (device : Lookup) (sid : SessionId)
    (now : Nat) : Wakes (handle env ep (.resume s i device sid now)).2 ↔
      ∃ row, device = .found (some row) ∧ ¬ ep.registry.NoHelper target row := by
  simp only [handle, onResume, hw]
  cases device with
  | failed =>
    rw [wakes_resumeWake _ (.inl ⟨rfl, rfl⟩)]
    simp [Registry.dispatchWake]
  | found row =>
    rw [wakes_resumeWake _ (.inr rfl)]
    cases row with
    | none => simp [Registry.dispatchWake]
    | some row =>
      refine (not_congr (Registry.dispatchWake_silent (r := ep.registry))).trans ?_
      simp

/-- The handler wakes somebody when its lookup is answered, or never. -/
theorem wakes_wakeOutputs (now : Nat) (between : List (Event J)) (device : Lookup) (sid : SessionId) (later : Nat) :
    Wakes (wakeOutputs env ep s target rid now between i device sid later) ↔
      Wakes (handle env ((signaling env).after (handle env ep (.message s (some (.wake target rid)) now)).1 between)
        (.resume s i device sid later)).2 := by
  constructor
  · rintro ⟨s', mac, sent⟩
    rcases List.mem_append.1 sent with sent | sent
    · exact absurd ⟨s', mac, sent⟩ (not_wakes_message now)
    · exact ⟨s', mac, sent⟩
  · rintro ⟨s', mac, sent⟩
    exact ⟨s', mac, List.mem_append_right _ sent⟩

/-- A wake across accounts reaches nobody exactly if its lookup finds no row, or
finds one whose device has no helper at that moment. -/
theorem wake_isolated_iff (env : Env J) (ep : Endpoint J) (table : DeviceId → Option DeviceRow) {s : SocketId}
    {target : DeviceId} {rid : Option String} {now : Nat} {between : List (Event J)} {i : Nat}
    (hw : ((signaling env).after (handle env ep (.message s (some (.wake target rid)) now)).1 between).waitingAt s i =
      some (.wake target rid)) (device : Lookup) (sid : SessionId) (later : Nat) :
    (CrossTenant table ep s target → ¬ Wakes (wakeOutputs env ep s target rid now between i device sid later)) ↔
      (CrossTenant table ep s target → ∀ row, device = .found (some row) →
        ((signaling env).after (handle env ep (.message s (some (.wake target rid)) now)).1
          between).registry.NoHelper target row) := by
  refine imp_congr_right fun _ => ?_
  rw [wakes_wakeOutputs, wakes_resume hw]
  simp

/-! ## A foreign controller -/

/-- A controller of account `a` and a waking host of account `b` are online. -/
def tenants : List (Event Unit) :=
  let row (account : String) : Lookup := .found (some { sampleRow with accountId := account })
  [.connection 0 none, registering 0 "111111111" .controller, .resume 0 0 (row "a") "" 0,
    .connection 1 (some "1.2.3.4"), .message 1 (some (.register "222222222" "abc" .host none (some true) none)) 0,
    .resume 1 0 (row "b") "" 0]

def twoTenants : Endpoint Unit := (signaling sampleEnv).after (initial sampleEnv) tenants

theorem twoTenants_reachable : (signaling sampleEnv).Reachable twoTenants :=
  (System.Reachable.init rfl : (signaling sampleEnv).Reachable (initial sampleEnv)).after
    ⟨rfl, ⟨_, rfl, rfl⟩, ⟨rfl, List.not_mem_nil⟩, rfl, ⟨_, rfl, rfl⟩, ⟨rfl, List.not_mem_nil⟩, trivial⟩

/-- A sleeping device of account `b` beside the host, and one in another network. -/
def tenantTable : DeviceId → Option DeviceRow
  | "111111111" => some { accountId := "a" }
  | "333333333" => some { accountId := "b", macAddress := some "AA:BB", lastWanIp := some "1.2.3.4" }
  | "444444444" => some { accountId := "b", macAddress := some "AA:CC", lastWanIp := some "5.6.7.8" }
  | _ => none

/-- The controller of `a` wakes a device of `b` through the host of `b`. -/
theorem foreign_controller_wakes :
    ¬ ∀ ep, (signaling sampleEnv).Reachable ep → ∀ s target,
      (handle sampleEnv ep (.message s (some (.wake target none)) 0)).1.waitingAt s 0 = some (.wake target none) →
      CrossTenant tenantTable ep s target →
        ¬ Wakes (wakeOutputs sampleEnv ep s target none 0 [] 0 (.found (tenantTable target)) "" 0) := by
  intro all
  refine all twoTenants twoTenants_reachable 0 "333333333" (by decide)
    ⟨"111111111", .controller, _, _, by decide, rfl, rfl, by decide⟩ ⟨1, "AA:BB", ?_⟩
  decide

/-- Nobody of its account is in the other device's network. -/
theorem other_network_sleeps :
    ¬ Wakes (wakeOutputs sampleEnv twoTenants 0 "444444444" none 0 [] 0 (.found (tenantTable "444444444")) "" 0) :=
  (wake_isolated_iff sampleEnv twoTenants tenantTable (by decide) (.found (tenantTable "444444444")) "" 0).2
    (fun _ row found => by
      cases found
      exact Registry.dispatchWake_silent.1 (by decide))
    ⟨"111111111", .controller, _, _, by decide, rfl, rfl, by decide⟩

end Endpoint

end ZortilWatch.Signaling
