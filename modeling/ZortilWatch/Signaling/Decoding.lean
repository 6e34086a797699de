import ZortilWatch.Signaling.Wire

/-!
# Which of the server's messages the clients can read

`Arrives` says that a message, once read, is the variant of its type with every
field as the server sent it. A message is made of the server's own words
(`Own`: ids and codes it chose, its clock, its counts, the ICE servers) and of
words a client sent earlier (`Echoes`). `arrives_iff` is exact in the second:
given the first, the message arrives if and only if the echoed words can be
read.
-/

namespace ZortilWatch.Signaling

variable {N : Type} (p : Platform N)

/-- The `ServerMsg` with the fields of the message, if there is one. -/
@[simp] def ServerMessage.asRust : ServerMessage (Field N) → Option (ServerMsg N)
  | .registerOk deviceId serverTime rid => some (.registerOk deviceId serverTime rid)
  | .registerErr code reason rid => some (.registerErr code reason rid)
  | .presenceState entries rid => some (.presenceState (.arr (entries.map fun e => object (e.members p))) rid)
  | .connectErr code rid retryAfter => some (.connectErr code.name rid (retryAfter.map fun s => s))
  | .incomingRequest sessionId fromKind passwordKind iceServers =>
    some (.incomingRequest sessionId fromKind.name (passwordKind.map (·.name)) iceServers)
  | .connectReady sessionId role peerKind iceServers =>
    some (.connectReady sessionId role.name peerKind.name iceServers)
  | .signal sessionId kind payload => payload.map (.signal sessionId kind.name)
  | .sessionClose sessionId reason => some (.sessionClose sessionId (some reason))
  | .wakeDispatch mac => some (.wakeDispatch mac)
  | .wakeResult status helpers _ => some (.wakeResult status.name helpers)
  | .error code reason rid => some (.error code reason rid)

/-- Once a read of the socket hands it over, `try_recv` returns the message with
every field as it was sent. -/
def Arrives (msg : ServerMessage (Field N)) : Prop :=
  ∃ m, msg.asRust p = some m ∧ ∀ reads, tryRecv p (.text (msg.stringify p) :: reads) = (.ok (some m), reads)

theorem arrives_iff_fromStr {msg : ServerMessage (Field N)} :
    Arrives p msg ↔ ∃ m, msg.asRust p = some m ∧ ServerMsg.fromStr p (msg.stringify p) = .ok m := by
  refine exists_congr fun m => and_congr_right fun _ => ?_
  simp only [tryRecv, Prod.mk.injEq, and_true, forall_const]
  cases ServerMsg.fromStr p (msg.stringify p) with
  | error e => simp [Except.map, Except.mapError]
  | ok m' => simp [Except.map, Except.mapError]

/-- ICE servers a client reads as they are. -/
def IceReadable (iceServers : Field N) : Prop := ∀ v ∈ iceServers, v ≠ .null ∧ p.Keeps (maxNesting - 1) v

/-- What the server put into the message itself can be read. -/
def ServerMessage.Own : ServerMessage (Field N) → Prop
  | .registerOk deviceId serverTime _ => p.accepts deviceId ∧ serverTime ≤ 2 ^ 53
  | .registerErr code reason _ => p.accepts code ∧ p.accepts reason
  | .presenceState entries _ => ∀ e ∈ entries, ∀ t ∈ e.lastSeen, t ≤ 2 ^ 53
  | .connectErr _ _ retryAfter => ∀ s ∈ retryAfter, s ≤ 2 ^ 53
  | .incomingRequest sessionId _ _ iceServers => p.accepts sessionId ∧ IceReadable p iceServers
  | .connectReady sessionId _ _ iceServers => p.accepts sessionId ∧ IceReadable p iceServers
  | .signal sessionId _ _ => p.accepts sessionId
  | .sessionClose sessionId _ => p.accepts sessionId
  | .wakeDispatch mac => p.accepts mac
  | .wakeResult _ helpers _ => helpers < 2 ^ 32
  | .error code reason _ => p.accepts code ∧ p.accepts reason

/-- What the message repeats of a client's words can be read. -/
@[simp] def ServerMessage.Echoes : ServerMessage (Field N) → Prop
  | .registerOk _ _ rid => ∀ s ∈ rid, p.accepts s
  | .registerErr _ _ rid => ∀ s ∈ rid, p.accepts s
  | .presenceState entries rid => (∀ e ∈ entries, p.accepts e.id) ∧ ∀ s ∈ rid, p.accepts s
  | .connectErr _ rid _ => ∀ s ∈ rid, p.accepts s
  | .signal _ _ payload => ∃ v, payload = some v ∧ p.Keeps (maxNesting - 1) v
  | .sessionClose _ reason => p.accepts reason
  | .wakeResult _ _ rid => ∀ s ∈ rid, p.accepts s
  | .error _ _ rid => ∀ s ∈ rid, p.accepts s
  | _ => True

/-! ## Members -/

/-- The member is absent or kept. -/
def KeepsField (k : Nat) (v : Field N) : Prop := ∀ x ∈ v, p.Keeps k x

section Members

variable {k : Nat}

@[simp] theorem keepsField_none : KeepsField p k none := by simp [KeepsField]

@[simp] theorem keepsField_some (v : Json N) : KeepsField p k (some v) ↔ p.Keeps k v := by simp [KeepsField]

theorem keeps_ofNat {n : Nat} (small : n ≤ 2 ^ 53) : p.Keeps k (.num (p.ofNat n)) :=
  (p.keeps_num _).2 ⟨_, (p.safe n small).1, (p.safe n small).2.1⟩

@[simp] theorem keepsField_version : KeepsField p k (version p) :=
  (keepsField_some p _).2 (keeps_ofNat p (by decide))

@[simp] theorem keepsField_strField (s : String) : KeepsField p k (strField s) ↔ p.accepts s := by
  simp [strField]

@[simp] theorem keepsField_rid (rid : Option String) : KeepsField p k (rid.map .str) ↔ ∀ s ∈ rid, p.accepts s := by
  simp [KeepsField]

@[simp] theorem keepsField_bool (b : Option Bool) : KeepsField p k (b.map .bool) := by
  cases b <;> simp

theorem keepsField_ofNat {o : Option Nat} (small : ∀ n ∈ o, n ≤ 2 ^ 53) :
    KeepsField p k (o.map fun n => .num (p.ofNat n)) := by
  rintro _ h
  obtain ⟨n, hn, rfl⟩ := Option.map_eq_some_iff.1 h
  exact keeps_ofNat p (small n hn)

theorem keeps_object {members : List (String × Field N)} :
    p.Keeps (k + 1) (object members) ↔ ∀ m ∈ members, (m.2.isSome → p.accepts m.1) ∧ KeepsField p k m.2 := by
  simp only [object, Codec.keeps_obj, List.mem_filterMap, Option.map_eq_some_iff]
  constructor
  · rintro each ⟨key, v⟩ hm
    refine ⟨fun hs => ?_, fun x hx => (each (key, x) ⟨_, hm, x, hx, rfl⟩).2⟩
    obtain ⟨x, hx⟩ := Option.isSome_iff_exists.1 hs
    exact (each (key, x) ⟨_, hm, x, hx, rfl⟩).1
  · rintro each _ ⟨m, hm, v, hv, rfl⟩
    exact ⟨(each m hm).1 (Option.isSome_of_eq_some hv), (each m hm).2 v hv⟩

end Members

/-! ## Names -/

/-- The names of members are ASCII. -/
theorem accepts_member (msg : ServerMessage (Field N)) : ∀ m ∈ msg.members p, p.accepts m.1 := by
  cases msg <;> simp (disch := decide) [p.ascii]

@[simp] theorem DeviceKind.accepts_name (k : DeviceKind) : p.accepts k.name := by
  cases k <;> exact p.ascii _ rfl

@[simp] theorem PasswordKind.accepts_name (k : PasswordKind) : p.accepts k.name := by
  cases k <;> exact p.ascii _ rfl

@[simp] theorem SignalKind.accepts_name (k : SignalKind) : p.accepts k.name := by
  cases k <;> exact p.ascii _ rfl

@[simp] theorem ConnectErrCode.accepts_name (c : ConnectErrCode) : p.accepts c.name := by
  cases c <;> exact p.ascii _ rfl

@[simp] theorem WakeOutcome.accepts_name (o : WakeOutcome) : p.accepts o.name := by
  cases o <;> exact p.ascii _ rfl

@[simp] theorem Role.accepts_name (r : Role) : p.accepts r.name := by
  cases r <;> exact p.ascii _ rfl

/-! ## What of a message comes back -/

theorem keeps_members {msg : ServerMessage (Field N)} :
    p.Keeps maxNesting (object (msg.members p)) ↔ ∀ m ∈ msg.members p, KeepsField p (maxNesting - 1) m.2 := by
  refine (keeps_object p).trans (forall₂_congr fun m hm => ?_)
  exact and_iff_right fun _ => accepts_member p msg m hm

/-- An entry of a presence answer is kept if its id is. -/
theorem keeps_entry {e : PresenceEntry} (small : ∀ t ∈ e.lastSeen, t ≤ 2 ^ 53) {k : Nat} :
    p.Keeps (k + 1) (object (e.members p)) ↔ p.accepts e.id := by
  rw [keeps_object]
  simp (disch := decide) [PresenceEntry.members, p.ascii, keepsField_ofNat p small]

/-- Given the server's own words, the object is kept and has a reading exactly if
the echoed words can be read. -/
theorem keeps_members_iff {msg : ServerMessage (Field N)} (own : msg.Own p) :
    p.Keeps maxNesting (object (msg.members p)) ∧ (msg.asRust p).isSome ↔ msg.Echoes p := by
  rw [keeps_members]
  cases msg with
  | registerOk d t rid => simp (disch := decide) [p.ascii, own.1, keeps_ofNat p own.2]
  | registerErr code reason rid => simp (disch := decide) [p.ascii, own.1, own.2]
  | presenceState entries rid =>
    have each (k : Nat) : (∀ e ∈ entries, p.Keeps (k + 1) (object (e.members p))) ↔ ∀ e ∈ entries, p.accepts e.id :=
      forall₂_congr fun e he => keeps_entry p (own e he)
    rw [show maxNesting - 1 = 124 + 1 + 1 from rfl]
    simp (disch := decide) [p.ascii, each]
  | connectErr code rid retryAfter => simp (disch := decide) [p.ascii, keepsField_ofNat p own]
  | incomingRequest sid fromKind pk ice =>
    have iceKept : KeepsField p (maxNesting - 1) ice := fun v hv => (own.2 v hv).2
    have kindKept : KeepsField p (maxNesting - 1) (pk.map fun k => .str k.name) := by cases pk <;> simp
    simp (disch := decide) [p.ascii, own.1, iceKept, kindKept]
  | connectReady sid role peerKind ice =>
    have iceKept : KeepsField p (maxNesting - 1) ice := fun v hv => (own.2 v hv).2
    simp (disch := decide) [p.ascii, own.1, iceKept]
  | signal sid kind payload =>
    have sidKept : p.accepts sid := own
    cases payload <;> simp (disch := decide) [p.ascii, sidKept]
  | sessionClose sid reason =>
    have sidKept : p.accepts sid := own
    simp (disch := decide) [p.ascii, sidKept]
  | wakeDispatch mac =>
    have macKept : p.accepts mac := own
    simp (disch := decide) [p.ascii, macKept]
  | wakeResult status helpers rid =>
    have small : helpers ≤ 2 ^ 53 := Nat.le_of_lt (Nat.lt_of_lt_of_le own (by decide))
    simp (disch := decide) [p.ascii, keeps_ofNat p small]
  | error code reason rid => simp (disch := decide) [p.ascii, own.1, own.2]

/-! ## Reading it -/

theorem asInt_ofNat {lo hi : Int} {n : Nat} (small : n ≤ 2 ^ 53) (hlo : lo ≤ 0) (hhi : (n : Int) < hi) :
    asInt p lo hi (.num (p.ofNat n)) = some (n : Int) := by
  have hlo' : lo ≤ n := by omega
  simp [asInt, (p.safe n small).2.2, Option.filter, hlo', hhi]

/-- The object of a message is read as the variant of its type, field by field. -/
theorem ofContent_object {msg : ServerMessage (Field N)} (own : msg.Own p) {m : ServerMsg N}
    (hm : msg.asRust p = some m) : ServerMsg.ofContent p (object (msg.members p)) = .ok m := by
  cases msg with
  | registerOk d t rid =>
    cases hm
    have time : asI64 p (.num (p.ofNat t)) = some (t : Int) := asInt_ofNat p own.2 (by decide) (by have := own.2; omega)
    have read : ServerMsg.ofContent p (object ((ServerMessage.registerOk d t rid).members p)) =
        ((asI64 p (.num (p.ofNat t))).map Except.ok).getD (.error (.invalidType "serverTime")) >>= fun i =>
          Except.ok (ServerMsg.registerOk d i rid) := by
      cases rid <;> rfl
    rw [read, time]
    rfl
  | registerErr code reason rid =>
    cases hm
    cases rid <;> rfl
  | presenceState entries rid =>
    cases hm
    cases rid <;> rfl
  | connectErr code rid retryAfter =>
    cases hm
    cases retryAfter with
    | none => cases rid <;> rfl
    | some s =>
      have small : s ≤ 2 ^ 53 := own s rfl
      have wait : asU64 p (.num (p.ofNat s)) = some (s : Int) := asInt_ofNat p small (by decide) (by omega)
      have read : ServerMsg.ofContent p (object ((ServerMessage.connectErr code rid (some s)).members p)) =
          ((asU64 p (.num (p.ofNat s))).map fun i => Except.ok (some i)).getD (.error (.invalidType "retryAfter")) >>=
            fun i => Except.ok (ServerMsg.connectErr code.name rid i) := by
        cases rid <;> rfl
      rw [read, wait]
      rfl
  | incomingRequest sid fromKind pk ice =>
    cases hm
    cases ice with
    | none => cases pk <;> rfl
    | some v =>
      -- a null would be read as `None`
      have notNull : v ≠ .null := (own.2 v rfl).1
      cases v with
      | null => exact absurd rfl notNull
      | _ => cases pk <;> rfl
  | connectReady sid role peerKind ice =>
    cases hm
    cases ice with
    | none => rfl
    | some v =>
      have notNull : v ≠ .null := (own.2 v rfl).1
      cases v with
      | null => exact absurd rfl notNull
      | _ => rfl
  | signal sid kind payload =>
    obtain ⟨v, rfl, rfl⟩ := Option.map_eq_some_iff.1 hm
    rfl
  | sessionClose sid reason =>
    cases hm
    rfl
  | wakeDispatch mac =>
    cases hm
    rfl
  | wakeResult status helpers rid =>
    cases hm
    have bound : helpers < 2 ^ 32 := own
    have count : asU32 p (.num (p.ofNat helpers)) = some (helpers : Int) :=
      asInt_ofNat p (by omega) (by decide) (by omega)
    have read : ServerMsg.ofContent p (object ((ServerMessage.wakeResult status helpers rid).members p)) =
        ((asU32 p (.num (p.ofNat helpers))).map Except.ok).getD (.error (.invalidType "helpers")) >>= fun i =>
          Except.ok (ServerMsg.wakeResult status.name i) := by
      cases rid <;> rfl
    rw [read, count]
    rfl
  | error code reason rid =>
    cases hm
    cases rid <;> rfl

/-- A message that arrives repeats only words that can be read. -/
theorem echoes_of_arrives {msg : ServerMessage (Field N)} (h : Arrives p msg) : msg.Echoes p := by
  obtain ⟨m, hm, hdec⟩ := (arrives_iff_fromStr p).1 h
  unfold ServerMsg.fromStr ServerMessage.stringify at hdec
  cases hread : p.reading maxNesting (p.written (object (msg.members p))) with
  | none =>
    rw [hread] at hdec
    cases hdec
  | some content =>
    rw [hread] at hdec
    obtain ⟨rfl, each⟩ := p.reading_written_obj hread
    have kept (key : String) (v : Json N) (hv : (key, some v) ∈ msg.members p) (same : p.back v = v) :
        p.Keeps (maxNesting - 1) v := by
      have member := (each (key, v) (List.mem_filterMap.2 ⟨_, hv, rfl⟩)).2
      exact p.read_write_iff.1 (member.trans (congrArg some same))
    have string (key s : String) (hs : (key, some (.str s)) ∈ msg.members p) : p.accepts s :=
      (p.keeps_str s).1 (kept key _ hs rfl)
    cases msg with
    | registerOk d t rid => exact fun s hs => string "rid" s (by simp_all)
    | registerErr code reason rid => exact fun s hs => string "rid" s (by simp_all)
    | presenceState entries rid =>
      cases hm
      let list : Json N := .arr (entries.map fun e => object (e.members p))
      have same : p.back list = list := by
        have read : ServerMsg.ofContent p (.obj (((ServerMessage.presenceState entries rid).members p |>.filterMap
            fun m => m.2.map fun v => (m.1, v)).map fun m => (m.1, p.back m.2))) =
              .ok (.presenceState (p.back list) rid) := by
          cases rid <;> rfl
        injection read.symm.trans hdec with h
        injection h
      have listKept : p.Keeps (124 + 1 + 1) list := kept "entries" list (by simp [list]) same
      refine ⟨fun e he => ?_, fun s hs => string "rid" s (by simp_all)⟩
      have entryKept := (p.keeps_arr _).1 listKept _ (List.mem_map_of_mem he)
      have idKept := ((keeps_object p).1 entryKept ("id", some (.str e.id)) List.mem_cons_self).2
      simpa using idKept
    | connectErr code rid retryAfter => exact fun s hs => string "rid" s (by simp_all)
    | signal sid kind payload =>
      obtain ⟨v, rfl, rfl⟩ := Option.map_eq_some_iff.1 hm
      have same : p.back v = v := by
        injection (show Except.ok (ServerMsg.signal sid kind.name (p.back v)) = _ from hdec) with h
        injection h
      exact ⟨v, rfl, kept "payload" v (by simp) same⟩
    | sessionClose sid reason => exact string "reason" reason (by simp [strField])
    | wakeResult status helpers rid => exact fun s hs => string "rid" s (by simp_all)
    | error code reason rid => exact fun s hs => string "rid" s (by simp_all)
    | _ => trivial

theorem arrives_of {msg : ServerMessage (Field N)} (own : msg.Own p) (echo : msg.Echoes p) : Arrives p msg := by
  obtain ⟨kept, hm⟩ := (keeps_members_iff p own).2 echo
  obtain ⟨m, hm⟩ := Option.isSome_iff_exists.1 hm
  refine (arrives_iff_fromStr p).2 ⟨m, hm, ?_⟩
  unfold ServerMsg.fromStr ServerMessage.stringify
  rw [p.read_write_iff.2 kept]
  exact ofContent_object p own hm

/-- Given the server's own words, a message arrives exactly if the words it
repeats can be read. -/
theorem arrives_iff {msg : ServerMessage (Field N)} (own : msg.Own p) : Arrives p msg ↔ msg.Echoes p :=
  ⟨echoes_of_arrives p, arrives_of p own⟩

end ZortilWatch.Signaling
