import ZortilWatch.Lib.Refinement
import ZortilWatch.Core.UploadResult
import ZortilWatch.Core.UploadWindow

/-!
# One upload of a session

An upload whose path no other upload of the session has is an upload as in
`Core/Upload.lean`: what there is of it in a run of the session is a state of that system
(`upload_reachable`), so what is proved there of all runs holds of it here.
-/

namespace ZortilWatch.Core

/-- A request without its id and path. -/
def UploadRequest.message : UploadRequest → ControllerMessage
  | .fsUploadStart _ _ size => .fsUploadStart size
  | .raw frame => .raw frame
  | .fsCancel _ => .fsCancel

namespace UploadSession

/-- What there is of one upload. -/
def view (m : UploadSession) (id : UInt32) (c : UploadCall) : Upload where
  acked := m.acked id
  sender := c.sender
  toHost := (m.toHost.filter (·.id? = some id)).map UploadRequest.message
  host := { remote := m.host.disk c.path, upload := (m.host.uploads id).map (·.upload) }
  toController := (m.toController.filter (·.1 = id)).map (·.2)
  cancels := m.cancels.count id

/-- The path of a call. -/
def path (m : UploadSession) (id : UInt32) : Option String := (m.calls id).map (·.path)

/-- A call has a path that no call before it has, and `fs_cancel` is for one of them. -/
def Apart (m : UploadSession) : Event → Prop
  | .fsUpload _ _ path => ∀ fid, m.path fid ≠ some path
  | .cancel id => (m.path id).isSome
  | _ => True

/-- One of the calls has made the request. -/
def Made (m : UploadSession) : UploadRequest → Prop
  | .fsUploadStart id path _ => m.path id = some path
  | .raw frame => ∃ id offset data, frame = encodeFileFrame id offset data ∧ (m.path id).isSome
  | .fsCancel id => (m.path id).isSome

/-- Everything in the session belongs to one of the calls, and each path to one of them. -/
structure Owned (disk : String → Option Bytes) (m : UploadSession) : Prop where
  used : ∀ id, id ∈ m.used ↔ (m.path id).isSome
  paths : ∀ i j p, m.path i = some p → m.path j = some p → i = j
  entries : ∀ id o, m.host.uploads id = some o → m.path id = some o.path
  requests : ∀ req ∈ m.toHost, m.Made req
  answers : ∀ x ∈ m.toController, (m.path x.1).isSome
  cancels : ∀ id ∈ m.cancels, (m.path id).isSome
  untouched : ∀ p, (∀ id, m.path id ≠ some p) → m.host.disk p = disk p

end UploadSession

/-! ## The host -/

section Host

variable {h : UploadHost} {req : UploadRequest} {id : UInt32} {p : String}

/-- The host touches no file but the request's. -/
theorem disk_onRequest (start : ∀ id q size, req = .fsUploadStart id q size → p ≠ q)
    (entry : ∀ id o, req.id? = some id → h.uploads id = some o → p ≠ o.path) (disk : Disk) :
    (h.onRequest disk req).1.disk p = h.disk p := by
  cases req with
  | fsUploadStart fid q size => exact Function.update_of_ne (start fid q size rfl) _ _
  | fsCancel fid => rfl
  | raw frame =>
    simp only [UploadHost.onRequest]
    split
    · rfl
    · rename_i fid o offset data received
      obtain ⟨parsed, known, found⟩ := Option.bind_eq_some_iff.1 received
      obtain ⟨o', there, same⟩ := Option.map_eq_some_iff.1 found
      cases same
      exact Function.update_of_ne (entry parsed.1 o (by rw [UploadRequest.id?, known]; rfl) there) _ _

/-- To an upload of its own the host does what it does to one alone. -/
theorem onRequest_own (own : req.id? = some id) (start : ∀ id q size, req = .fsUploadStart id q size → q = p)
    (entry : ∀ o, h.uploads id = some o → o.path = p) (disk : Disk) :
    ({ remote := h.disk p, upload := (h.uploads id).map (·.upload) } : HostSide).onMessage id req.message disk =
        ({ remote := (h.onRequest disk req).1.disk p
           upload := ((h.onRequest disk req).1.uploads id).map (·.upload) }, (h.onRequest disk req).2.map (·.2)) ∧
      ∀ x ∈ (h.onRequest disk req).2, x.1 = id := by
  cases req with
  | fsUploadStart fid q size =>
    cases own
    cases start id q size rfl
    refine ⟨?_, fun x mem => ?_⟩
    · simp only [UploadHost.onRequest, UploadHost.fsUploadStart, UploadRequest.message, HostSide.onMessage,
        HostSide.fsUploadStart, Function.update_self, List.map_map]
      cases disk.openError with
      | some e => rfl
      | none =>
        dsimp only
        split_ifs with all
        · rfl
        · simp
    · obtain ⟨msg, -, rfl⟩ := List.mem_map.1 mem
      rfl
  | fsCancel fid =>
    cases own
    refine ⟨?_, fun x mem => absurd mem List.not_mem_nil⟩
    simp [UploadHost.onRequest, UploadRequest.message, HostSide.onMessage]
  | raw frame =>
    cases known : h.uploads id with
    | none =>
      have nobody := receiver_eq_none own known
      simp only [UploadHost.onRequest, nobody, UploadRequest.message, HostSide.onMessage, HostSide.fileFrame, known,
        Option.map_none]
      refine ⟨?_, fun x mem => absurd mem List.not_mem_nil⟩
      split <;> first | rfl | contradiction
    | some o =>
      obtain ⟨offset, data, parsed, received⟩ := receiver_eq_some own known
      cases entry o known
      simp only [UploadHost.onRequest, received, UploadRequest.message, HostSide.onMessage, HostSide.fileFrame, parsed,
        Option.map_some, if_true, UploadHost.write, Function.update_self, List.map_map, Option.map_map]
      refine ⟨?_, fun x mem => ?_⟩
      · simp [Function.comp_def]
      · obtain ⟨msg, -, rfl⟩ := List.mem_map.1 mem
        rfl

theorem path_onRequest (own : req.id? = some id) (start : ∀ id q size, req = .fsUploadStart id q size → q = p)
    (entry : ∀ o, h.uploads id = some o → o.path = p) (disk : Disk) {o : OpenUpload}
    (after : (h.onRequest disk req).1.uploads id = some o) : o.path = p := by
  cases req with
  | fsUploadStart fid q size =>
    cases own
    cases start id q size rfl
    simp only [UploadHost.onRequest, UploadHost.fsUploadStart] at after
    cases begun : (({ remote := h.disk p } : HostSide).fsUploadStart size disk).1.upload with
    | none =>
      rw [begun] at after
      exact entry o after
    | some u =>
      rw [begun] at after
      cases (Function.update_self _ _ _).symm.trans after
      rfl
  | fsCancel fid =>
    cases own
    simp [UploadHost.onRequest] at after
  | raw frame =>
    cases known : h.uploads id with
    | none =>
      simp only [UploadHost.onRequest, receiver_eq_none own known] at after
      exact entry o after
    | some o' =>
      obtain ⟨offset, data, parsed, received⟩ := receiver_eq_some own known
      simp only [UploadHost.onRequest, received, UploadHost.write, Function.update_self] at after
      obtain ⟨u, -, rfl⟩ := Option.map_eq_some_iff.1 after
      exact entry o' known

end Host

/-! ## The session -/

namespace UploadSession

section Owned

variable {disk : String → Option Bytes} {m m' : UploadSession} {id : UInt32}

theorem isSome_path (more : ∀ i p, m.path i = some p → m'.path i = some p) (called : (m.path id).isSome) :
    (m'.path id).isSome := by
  obtain ⟨p, hp⟩ := Option.isSome_iff_exists.1 called
  rw [more id p hp]
  rfl

theorem Made.mono (more : ∀ i p, m.path i = some p → m'.path i = some p) {req : UploadRequest} (made : m.Made req) :
    m'.Made req := by
  cases req with
  | fsUploadStart id path size => exact more id path made
  | raw frame =>
    obtain ⟨id, offset, data, whole, called⟩ := made
    exact ⟨id, offset, data, whole, isSome_path more called⟩
  | fsCancel id => exact isSome_path more made

theorem Made.called {req : UploadRequest} (made : m.Made req) (own : req.id? = some id) : (m.path id).isSome := by
  cases req with
  | fsUploadStart fid path size =>
    cases own
    rw [show m.path id = some path from made]
    rfl
  | raw frame =>
    obtain ⟨fid, offset, data, rfl, called⟩ := made
    rw [UploadRequest.id?, parse_encodeFileFrame] at own
    cases own
    exact called
  | fsCancel fid =>
    cases own
    exact made

theorem calls_fsUpload (file : DiskFile) (path : String) (i : UInt32) :
    (m.fsUpload id file path).calls i = if i = id then some { file := file, path := path } else m.calls i :=
  Function.update_apply ..

theorem calls_goOn (c : UploadCall) (v : Upload) (i : UInt32) :
    (m.goOn id c v).calls i = if i = id then some { c with sender := v.sender } else m.calls i :=
  Function.update_apply ..

theorem path_fsUpload (file : DiskFile) (path : String) (i : UInt32) :
    (m.fsUpload id file path).path i = if i = id then some path else m.path i := by
  rw [UploadSession.path, calls_fsUpload]
  split_ifs <;> rfl

theorem path_goOn {c : UploadCall} (call : m.calls id = some c) (v : Upload) : (m.goOn id c v).path = m.path := by
  funext i
  rw [UploadSession.path, calls_goOn]
  split_ifs with same
  · rw [same, UploadSession.path, call]
    rfl
  · rfl

theorem Owned.fsUpload (h : m.Owned disk) (given : id ∉ m.used) (file : DiskFile) {path : String}
    (apart : ∀ i, m.path i ≠ some path) : (m.fsUpload id file path).Owned disk := by
  have fresh : m.path id = none := by
    rw [← Option.not_isSome_iff_eq_none, ← h.used]
    exact given
  have more (i : UInt32) (p : String) (hp : m.path i = some p) : (m.fsUpload id file path).path i = some p := by
    rw [path_fsUpload, if_neg, hp]
    rintro rfl
    rw [fresh] at hp
    cases hp
  have own : (m.fsUpload id file path).path id = some path := by rw [path_fsUpload, if_pos rfl]
  refine ⟨fun i => ?_, fun i j p hi hj => ?_, fun i o entry => more i _ (h.entries i o entry), fun req mem => ?_,
    fun x mem => isSome_path more (h.answers x mem), fun i mem => isSome_path more (h.cancels i mem),
    fun p nobody => h.untouched p fun i hp => nobody i (more i p hp)⟩
  · rw [path_fsUpload]
    refine List.mem_cons.trans ?_
    rw [h.used]
    split_ifs with same <;> simp [same]
  · rw [path_fsUpload] at hi hj
    split_ifs at hi hj with same same' same'
    · rw [same, same']
    · cases hi
      exact absurd hj (apart j)
    · cases hj
      exact absurd hi (apart i)
    · exact h.paths i j p hi hj
  · rcases List.mem_append.1 mem with mem | mem
    · exact (h.requests req mem).mono more
    · cases List.mem_singleton.1 mem
      exact own

theorem Owned.goOn (h : m.Owned disk) {c : UploadCall} (call : m.calls id = some c) {v : Upload}
    (frames : ∀ req ∈ v.toHost, ∃ offset data, req = .raw (encodeFileFrame id offset data)) :
    (m.goOn id c v).Owned disk := by
  have same := path_goOn call v
  have called : (m.path id).isSome := by rw [UploadSession.path, call]; rfl
  refine ⟨same ▸ h.used, same ▸ h.paths, same ▸ h.entries, fun req mem => ?_, same ▸ h.answers, same ▸ h.cancels,
    same ▸ h.untouched⟩
  rcases List.mem_append.1 mem with mem | mem
  · exact (h.requests req mem).mono fun i p hp => (congrFun same i).trans hp
  · obtain ⟨msg, sent, rfl⟩ := List.mem_map.1 mem
    obtain ⟨offset, data, rfl⟩ := frames msg sent
    exact ⟨id, offset, data, rfl, by rw [same]; exact called⟩

/-- The file of an upload is touched for its own requests only. -/
theorem Owned.disk_onRequest (h : m.Owned disk) {req : UploadRequest} (made : m.Made req) {p : String}
    (other : ∀ i, req.id? = some i → m.path i ≠ some p) (dk : Disk) :
    (m.host.onRequest dk req).1.disk p = m.host.disk p := by
  refine Core.disk_onRequest (fun i q size eq => ?_) (fun i o own entry same => ?_) dk
  · rintro rfl
    cases eq
    exact other i rfl made
  · exact other i own (same ▸ h.entries i o entry)

/-- A request of an upload is about its path. -/
theorem Owned.own (h : m.Owned disk) {req : UploadRequest} (made : m.Made req) (own : req.id? = some id) {p : String}
    (called : m.path id = some p) :
    (∀ i q size, req = .fsUploadStart i q size → q = p) ∧ ∀ o, m.host.uploads id = some o → o.path = p := by
  refine ⟨?_, fun o entry => Option.some.inj ((h.entries id o entry).symm.trans called)⟩
  rintro i q size rfl
  cases own
  exact Option.some.inj (made.symm.trans called)

theorem Owned.entries_onRequest (h : m.Owned disk) {req : UploadRequest} (made : m.Made req) (dk : Disk)
    {o : OpenUpload} (entry : (m.host.onRequest dk req).1.uploads id = some o) : m.path id = some o.path := by
  by_cases own : req.id? = some id
  · obtain ⟨p, called⟩ := Option.isSome_iff_exists.1 (made.called own)
    obtain ⟨start, known⟩ := h.own made own called
    rw [called, path_onRequest own start known dk entry]
  · rw [(onRequest_other own m.host dk).1] at entry
    exact h.entries id o entry

theorem Owned.hostStep (h : m.Owned disk) (dk : Disk) : (m.hostStep dk).Owned disk := by
  unfold UploadSession.hostStep
  cases head : m.toHost with
  | nil => exact h
  | cons req rest =>
    have made := h.requests req (by rw [head]; exact List.mem_cons_self)
    refine ⟨h.used, h.paths, fun i o entry => h.entries_onRequest made dk entry,
      fun req mem => h.requests req (by rw [head]; exact List.mem_cons_of_mem _ mem), fun x mem => ?_, h.cancels,
      fun p nobody => (h.disk_onRequest made (fun i _ => nobody i) dk).trans (h.untouched p nobody)⟩
    rcases List.mem_append.1 mem with mem | mem
    · exact h.answers x mem
    · by_contra unknown
      refine (onRequest_other (fun own => unknown (made.called own)) m.host dk).2.1 x mem rfl

/-- What a thread that queues sends. -/
theorem frames_queue (c : UploadCall) (n : Nat) : ∀ req ∈ ((m.thread id c).queue id c.file n).toHost,
    ∃ offset data, req = .raw (encodeFileFrame id offset data) := by
  intro req mem
  rcases queue_cases id c.file (m.thread id c) n with ⟨silent, -⟩ | ⟨_, sent, _, data, -, -, sends, -⟩
  · rw [silent] at mem
    cases mem
  · rw [sends] at mem
    exact ⟨_, _, List.mem_singleton.1 mem⟩

theorem Owned.step (h : m.Owned disk) {e : Event} (admitted : m.admits e = true) (apart : m.Apart e) :
    (m.step e).Owned disk := by
  cases e with
  | fsUpload id file path => exact h.fsUpload (by simpa [admits] using admitted) file apart
  | poll id =>
    obtain ⟨c, call, -⟩ := (Option.any_eq_true ..).1 admitted
    simp only [UploadSession.step, call, Option.elim_some]
    refine h.goOn call fun req mem => ?_
    rw [toHost_poll] at mem
    cases mem
  | queue id n =>
    obtain ⟨c, call, -⟩ := (Option.any_eq_true ..).1 admitted
    simp only [UploadSession.step, call, Option.elim_some]
    exact h.goOn call (frames_queue c n)
  | giveUp id =>
    obtain ⟨c, call⟩ := Option.isSome_iff_exists.1 admitted
    simp only [UploadSession.step, call, Option.elim_some]
    exact h.goOn call fun req mem => absurd mem List.not_mem_nil
  | host dk => exact h.hostStep dk
  | reader =>
    cases head : m.toController with
    | nil =>
      simp only [UploadSession.step, UploadSession.reader, head]
      exact h
    | cons x rest =>
      have answers : ∀ y ∈ rest, (m.path y.1).isSome := fun y mem =>
        h.answers y (by rw [head]; exact List.mem_cons_of_mem _ mem)
      obtain ⟨i, msg⟩ := x
      simp only [UploadSession.step, UploadSession.reader, head]
      cases msg <;> exact { h with answers := answers }
  | cancel id =>
    refine { h with cancels := fun i mem => ?_ }
    rcases List.mem_cons.1 mem with rfl | mem
    · exact apart
    · exact h.cancels i mem
  | sendCancel id =>
    have called : (m.path id).isSome := h.cancels id (List.contains_iff_mem.1 admitted)
    refine { h with requests := fun req mem => ?_, cancels := fun i mem => h.cancels i (List.mem_of_mem_erase mem) }
    rcases List.mem_append.1 mem with mem | mem
    · exact h.requests req mem
    · cases List.mem_singleton.1 mem
      exact called

end Owned

/-! ## What one upload sees -/

/-- What an event is to one upload. -/
def look (id : UInt32) (m : UploadSession) : Event → Option Upload.Event
  | .fsUpload _ _ _ => none
  | .poll fid => if fid = id then some .poll else none
  | .queue fid n => if fid = id then some (.queue n) else none
  | .giveUp fid => if fid = id then some .giveUp else none
  | .host dk => if m.toHost.head?.bind (·.id?) = some id then some (.host dk) else none
  | .reader => if m.toController.head?.map (·.1) = some id then some .reader else none
  | .cancel fid => if fid = id then some .cancel else none
  | .sendCancel fid => if fid = id then some .sendCancel else none

/-- The upload alone takes the step `e`, or none. -/
def Sees (id : UInt32) (m m' : UploadSession) (c : UploadCall) (e : Option Upload.Event) : Prop :=
  (∀ e' ∈ e, (m.view id c).admits c.file e' = true) ∧
    ∃ c', m'.calls id = some c' ∧ c'.file = c.file ∧ c'.path = c.path ∧
      m'.view id c' = e.elim (m.view id c) ((m.view id c).step id c.file)

section View

variable {disk : String → Option Bytes} {m m' : UploadSession} {id : UInt32} {c : UploadCall}

/-- Nothing of the upload has changed. -/
theorem sees_none (call : m'.calls id = some c) (acked : m'.acked id = m.acked id)
    (toHost : m'.toHost.filter (·.id? = some id) = m.toHost.filter (·.id? = some id))
    (remote : m'.host.disk c.path = m.host.disk c.path) (entry : m'.host.uploads id = m.host.uploads id)
    (toController : m'.toController.filter (·.1 = id) = m.toController.filter (·.1 = id))
    (cancels : m'.cancels.count id = m.cancels.count id) : Sees id m m' c none := by
  refine ⟨nofun, c, call, rfl, rfl, ?_⟩
  unfold view
  rw [acked, toHost, remote, entry, toController, cancels]
  rfl

theorem view_goOn {v : Upload} (frames : ∀ req ∈ v.toHost, ∃ offset data, req = .raw (encodeFileFrame id offset data)) :
    (m.goOn id c v).view id { c with sender := v.sender } =
      { m.view id c with sender := v.sender, toHost := (m.view id c).toHost ++ v.toHost } := by
  have own : (v.toHost.map (·.request id c.path)).filter (·.id? = some id) = v.toHost.map (·.request id c.path) := by
    refine List.filter_eq_self.2 fun req mem => ?_
    obtain ⟨msg, sent, rfl⟩ := List.mem_map.1 mem
    obtain ⟨offset, data, rfl⟩ := frames msg sent
    simp [ControllerMessage.request, UploadRequest.id?, parse_encodeFileFrame]
  have back : (v.toHost.map (·.request id c.path)).map UploadRequest.message = v.toHost := by
    rw [List.map_map]
    refine List.map_id'' (fun msg => ?_) _
    cases msg <;> rfl
  simp only [view, UploadSession.goOn, List.filter_append, own, List.map_append, back]

theorem sees_goOn_other {fid : UInt32} {d : UploadCall} {v : Upload} (other : fid ≠ id) (call : m.calls id = some c)
    (frames : ∀ req ∈ v.toHost, ∃ offset data, req = .raw (encodeFileFrame fid offset data)) :
    Sees id m (m.goOn fid d v) c none := by
  refine sees_none ?_ rfl ?_ rfl rfl rfl rfl
  · rw [calls_goOn, if_neg other.symm, call]
  · have none_own : (v.toHost.map (·.request fid d.path)).filter (·.id? = some id) = [] := by
      refine List.filter_eq_nil_iff.2 fun req mem => ?_
      obtain ⟨msg, sent, rfl⟩ := List.mem_map.1 mem
      obtain ⟨offset, data, rfl⟩ := frames msg sent
      simp [ControllerMessage.request, UploadRequest.id?, parse_encodeFileFrame, other]
    show (m.toHost ++ _).filter _ = _
    rw [List.filter_append, none_own, List.append_nil]

/-- A thread that goes on does so in the upload alone. -/
theorem sees_goOn {v : Upload} {e : Upload.Event}
    (frames : ∀ req ∈ v.toHost, ∃ offset data, req = .raw (encodeFileFrame id offset data))
    (admitted : (m.view id c).admits c.file e = true)
    (same : (m.view id c).step id c.file e =
      { m.view id c with sender := v.sender, toHost := (m.view id c).toHost ++ v.toHost }) :
    Sees id m (m.goOn id c v) c (some e) := by
  refine ⟨fun e' mem => ?_, { c with sender := v.sender }, ?_, rfl, rfl, ?_⟩
  · cases mem
    exact admitted
  · rw [calls_goOn, if_pos rfl]
  · rw [view_goOn frames]
    exact same.symm

theorem sees_poll {fid : UInt32} (call : m.calls id = some c) (admitted : m.admits (.poll fid) = true) :
    Sees id m (m.step (.poll fid)) c (m.look id (.poll fid)) := by
  obtain ⟨d, known, may⟩ := (Option.any_eq_true ..).1 admitted
  have silent : ((m.thread fid d).poll d.file).toHost = [] := toHost_poll d.file (m.thread fid d)
  have frames : ∀ req ∈ ((m.thread fid d).poll d.file).toHost,
      ∃ offset data, req = .raw (encodeFileFrame fid offset data) := by
    rw [silent]
    exact nofun
  simp only [UploadSession.step, known, Option.elim_some, look]
  split_ifs with own
  · subst own
    cases known.symm.trans call
    refine sees_goOn frames may ?_
    rw [silent, List.append_nil]
    simp only [Upload.step, Upload.poll, view, thread]
    cases c.sender <;> cases m.acked fid <;> dsimp only <;> split_ifs <;> rfl
  · exact sees_goOn_other own call frames

theorem sees_queue {fid : UInt32} {n : Nat} (call : m.calls id = some c) (admitted : m.admits (.queue fid n) = true) :
    Sees id m (m.step (.queue fid n)) c (m.look id (.queue fid n)) := by
  obtain ⟨d, known, may⟩ := (Option.any_eq_true ..).1 admitted
  simp only [UploadSession.step, known, Option.elim_some, look]
  split_ifs with own
  · subst own
    cases known.symm.trans call
    refine sees_goOn (frames_queue c n) may ?_
    simp only [Upload.step, Upload.queue, view, thread]
    cases c.sender with
    | reading start sent seen =>
      dsimp only
      split_ifs <;> simp
    | _ => simp
  · exact sees_goOn_other own call (frames_queue d n)

theorem sees_giveUp {fid : UInt32} (call : m.calls id = some c) (admitted : m.admits (.giveUp fid) = true) :
    Sees id m (m.step (.giveUp fid)) c (m.look id (.giveUp fid)) := by
  obtain ⟨d, known⟩ := Option.isSome_iff_exists.1 admitted
  have silent : ∀ req ∈ ({ m.thread fid d with sender := .stopped } : Upload).toHost,
      ∃ offset data, req = .raw (encodeFileFrame fid offset data) := fun req mem => absurd mem List.not_mem_nil
  simp only [UploadSession.step, known, Option.elim_some, look]
  split_ifs with own
  · subst own
    cases known.symm.trans call
    refine sees_goOn silent rfl ?_
    simp [Upload.step, thread]
  · exact sees_goOn_other own call silent

theorem Owned.sees_host (h : m.Owned disk) (call : m.calls id = some c) (dk : Disk) :
    Sees id m (m.hostStep dk) c (m.look id (.host dk)) := by
  have called : m.path id = some c.path := by rw [UploadSession.path, call]; rfl
  cases head : m.toHost with
  | nil =>
    simp only [look, UploadSession.hostStep, head]
    exact sees_none call rfl (by rw [head]) rfl rfl rfl rfl
  | cons req rest =>
    have made := h.requests req (by rw [head]; exact List.mem_cons_self)
    simp only [look, UploadSession.hostStep, head, List.head?_cons, Option.bind_some]
    split_ifs with own
    · obtain ⟨start, entry⟩ := h.own made own called
      obtain ⟨same, told⟩ := onRequest_own own start entry dk
      have first : (m.view id c).toHost = req.message :: (rest.filter (·.id? = some id)).map UploadRequest.message := by
        rw [view, head, List.filter_cons_of_pos (by simpa using own), List.map_cons]
      refine ⟨fun e' mem => ?_, c, call, rfl, rfl, ?_⟩
      · cases mem
        simp [Upload.admits, first]
      · have all_own : (m.host.onRequest dk req).2.filter (·.1 = id) = (m.host.onRequest dk req).2 :=
          List.filter_eq_self.2 fun x mem => by simpa using told x mem
        simp only [Option.elim_some, Upload.step, Upload.hostStep, first]
        simp only [view, same, List.filter_append, all_own, List.map_append]
    · obtain ⟨entry, silent, -⟩ := onRequest_other own m.host dk
      refine sees_none call rfl ?_ ?_ entry ?_ rfl
      · rw [head, List.filter_cons_of_neg (by simpa using own)]
      · exact h.disk_onRequest made (fun i of_i same => own (h.paths i id _ same called ▸ of_i)) dk
      · have none_own : (m.host.onRequest dk req).2.filter (·.1 = id) = [] :=
          List.filter_eq_nil_iff.2 fun x mem => by simpa using silent x mem
        rw [List.filter_append, none_own, List.append_nil]

theorem sees_reader (call : m.calls id = some c) : Sees id m m.reader c (m.look id .reader) := by
  cases head : m.toController with
  | nil =>
    simp only [look, UploadSession.reader, head]
    exact sees_none call rfl rfl rfl rfl (by rw [head]) rfl
  | cons x rest =>
    obtain ⟨fid, msg⟩ := x
    simp only [look, UploadSession.reader, head, List.head?_cons, Option.map_some, Option.some.injEq]
    split_ifs with own
    · subst own
      have first : (m.view fid c).toController = msg :: (rest.filter (·.1 = fid)).map (·.2) := by
        rw [view, head, List.filter_cons_of_pos (by simp), List.map_cons]
      refine ⟨fun e' mem => ?_, c, ?_⟩
      · cases mem
        simp [Upload.admits, first]
      · cases msg with
        | fsProgress offset size done =>
          refine ⟨call, rfl, rfl, ?_⟩
          simp only [Option.elim_some, Upload.step, Upload.reader, first]
          simp [view]
        | fsDone ok err =>
          refine ⟨call, rfl, rfl, ?_⟩
          simp only [Option.elim_some, Upload.step, Upload.reader, first]
          simp [view]
    · have later : ((fid, msg) :: rest).filter (·.1 = id) = rest.filter (·.1 = id) :=
        List.filter_cons_of_neg (by simpa using own)
      cases msg with
      | fsProgress offset size done =>
        exact sees_none call (Function.update_of_ne (Ne.symm own) _ _) rfl rfl rfl (by rw [head, later]) rfl
      | fsDone ok err => exact sees_none call rfl rfl rfl rfl (by rw [head, later]) rfl

theorem sees_cancel (call : m.calls id = some c) (fid : UInt32) :
    Sees id m (m.step (.cancel fid)) c (m.look id (.cancel fid)) := by
  simp only [look, UploadSession.step]
  split_ifs with own
  · subst own
    refine ⟨fun e' mem => ?_, c, call, rfl, rfl, ?_⟩
    · cases mem
      rfl
    · simp [Upload.step, view]
  · exact sees_none call (Function.update_of_ne (Ne.symm own) _ _) rfl rfl rfl rfl (List.count_cons_of_ne own)

theorem sees_sendCancel {fid : UInt32} (call : m.calls id = some c) (admitted : m.admits (.sendCancel fid) = true) :
    Sees id m (m.step (.sendCancel fid)) c (m.look id (.sendCancel fid)) := by
  simp only [look, UploadSession.step]
  split_ifs with own
  · subst own
    refine ⟨fun e' mem => ?_, c, call, rfl, rfl, ?_⟩
    · cases mem
      exact decide_eq_true (List.count_pos_iff.2 (List.contains_iff_mem.1 admitted))
    · simp [Upload.step, view, UploadRequest.id?, UploadRequest.message]
  · refine sees_none call rfl ?_ rfl rfl rfl (List.count_erase_of_ne (Ne.symm own))
    rw [List.filter_append, List.filter_cons_of_neg (by simpa [UploadRequest.id?] using own), List.filter_nil,
      List.append_nil]

/-- An event of the session is one of the upload alone, or leaves what there is of it. -/
theorem Owned.sees (h : m.Owned disk) (call : m.calls id = some c) {e : Event} (admitted : m.admits e = true) :
    Sees id m (m.step e) c (m.look id e) := by
  cases e with
  | fsUpload fid file path =>
    have other : id ≠ fid := by
      rintro rfl
      have fresh : id ∉ m.used := by simpa [admits] using admitted
      exact fresh ((h.used id).2 (by rw [UploadSession.path, call]; rfl))
    refine sees_none ?_ (Function.update_of_ne other _ _) ?_ rfl rfl rfl rfl
    · rw [UploadSession.step, calls_fsUpload, if_neg other, call]
    · have none_own : [UploadRequest.fsUploadStart fid path file.bytes.length].filter (·.id? = some id) = [] :=
        List.filter_cons_of_neg (by simpa [UploadRequest.id?] using other.symm)
      exact (List.filter_append _ _).trans (by rw [none_own, List.append_nil])
  | poll fid => exact sees_poll call admitted
  | queue fid n => exact sees_queue call admitted
  | giveUp fid => exact sees_giveUp call admitted
  | host dk => exact h.sees_host call dk
  | reader => exact sees_reader call
  | cancel fid => exact sees_cancel call fid
  | sendCancel fid => exact sees_sendCancel call admitted

end View

variable {disk : String → Option Bytes} {m : UploadSession} {id : UInt32} {c : UploadCall}

/-- The events of the session that are the upload's meet `C`. -/
def Meets (id : UInt32) (C : Upload → Upload.Event → Prop) (m : UploadSession) (e : Event) : Prop :=
  m.Apart e ∧ ∀ c e', m.calls id = some c → m.look id e = some e' → C (m.view id c) e'

variable {C : Upload → Upload.Event → Prop}

/-- A session takes the steps of each of its uploads. -/
theorem upload_simulates (disk : String → Option Bytes) (id : UInt32) (C : Upload → Upload.Event → Prop)
    (file : DiskFile) (path : String) (remote : Option Bytes) :
    ((uploading disk).restrict (Meets id C)).Simulates ((uploads id file remote).restrict C)
      (fun m e => (m.look id e).toList)
      fun m v => m.Owned disk ∧ ∃ c, m.calls id = some c ∧ c.file = file ∧ c.path = path ∧ m.view id c = v where
  admitted := by
    rintro m _ e ⟨h, c, call, rfl, rfl, rfl⟩ ⟨admitted, -, meets⟩
    obtain ⟨may, -⟩ := h.sees call admitted
    cases seen : m.look id e with
    | none => trivial
    | some e' => exact ⟨⟨may e' seen, meets c e' call seen⟩, trivial⟩
  state := by
    rintro m _ e ⟨h, c, call, rfl, rfl, rfl⟩ ⟨admitted, apart, -⟩
    obtain ⟨-, c', call', file, path, same⟩ := h.sees call admitted
    refine ⟨h.step admitted apart, c', call', file, path, same.trans ?_⟩
    cases m.look id e <;> rfl

/-- What there is of an upload when it is called. -/
theorem Owned.view_fsUpload (h : m.Owned disk) (given : id ∉ m.used) (file : DiskFile) {path : String}
    (apart : ∀ i, m.path i ≠ some path) :
    (m.fsUpload id file path).view id { file := file, path := path } = .initial file (disk path) := by
  have fresh : m.path id = none := by
    rw [← Option.not_isSome_iff_eq_none, ← h.used]
    exact given
  have no_entry : m.host.uploads id = none := by
    cases entry : m.host.uploads id with
    | none => rfl
    | some o => cases (h.entries id o entry).symm.trans fresh
  have no_request : m.toHost.filter (·.id? = some id) = [] := List.filter_eq_nil_iff.2 fun req mem own => by
    simpa [fresh] using (h.requests req mem).called (of_decide_eq_true own)
  have asked : [UploadRequest.fsUploadStart id path file.bytes.length].filter (·.id? = some id) =
      [.fsUploadStart id path file.bytes.length] := List.filter_cons_of_pos (by simp [UploadRequest.id?])
  have no_answer : m.toController.filter (·.1 = id) = [] := List.filter_eq_nil_iff.2 fun x mem own => by
    simpa [of_decide_eq_true own, fresh] using h.answers x mem
  have no_cancel : m.cancels.count id = 0 := List.count_eq_zero.2 fun mem => by
    simpa [fresh] using h.cancels id mem
  simp only [view, UploadSession.fsUpload, Function.update_self, List.filter_append, no_request, asked, no_entry,
    no_answer, no_cancel, h.untouched path apart]
  rfl

theorem calls_step (uncalled : m.calls id = none) {e : Event} (other : ∀ file path, e ≠ .fsUpload id file path) :
    (m.step e).calls id = none := by
  have goes (fid : UInt32) (f : UploadCall → Upload) :
      ((m.calls fid).elim m fun c => m.goOn fid c (f c)).calls id = none := by
    cases known : m.calls fid with
    | none => exact uncalled
    | some c =>
      rw [Option.elim_some, calls_goOn, if_neg, uncalled]
      rintro rfl
      cases uncalled.symm.trans known
  cases e with
  | fsUpload fid file path =>
    rw [UploadSession.step, calls_fsUpload, if_neg, uncalled]
    rintro rfl
    exact other file path rfl
  | poll fid => exact goes fid _
  | queue fid n => exact goes fid _
  | giveUp fid => exact goes fid _
  | host dk =>
    simp only [UploadSession.step, UploadSession.hostStep]
    split <;> exact uncalled
  | reader =>
    simp only [UploadSession.step, UploadSession.reader]
    split <;> exact uncalled
  | cancel | sendCancel => exact uncalled

/-- In every run of a session, what there is of an upload is a state of one alone: of one
under a condition that the session keeps to. -/
theorem upload_reachable (hr : ((uploading disk).restrict (Meets id C)).Reachable m) (call : m.calls id = some c) :
    ((uploads id c.file (disk c.path)).restrict C).Reachable (m.view id c) := by
  suffices both : m.Owned disk ∧ ∀ c, m.calls id = some c →
      ((uploads id c.file (disk c.path)).restrict C).Reachable (m.view id c) from both.2 c call
  refine hr.invariant (P := fun m => m.Owned disk ∧ ∀ c, m.calls id = some c →
    ((uploads id c.file (disk c.path)).restrict C).Reachable (m.view id c)) ?_ ?_
  · rintro _ rfl
    exact ⟨⟨by simp [path], nofun, nofun, nofun, nofun, nofun, fun _ _ => rfl⟩, nofun⟩
  · rintro m e - ⟨h, alone⟩ ⟨admitted, meets⟩
    refine ⟨h.step admitted meets.1, fun c' call' => ?_⟩
    cases call : m.calls id with
    | some c =>
      have sim := upload_simulates disk id C c.file c.path (disk c.path)
      have steps := sim.admitted m _ e ⟨h, c, call, rfl, rfl, rfl⟩ ⟨admitted, meets⟩
      obtain ⟨-, c₁, call₁, file, path, same⟩ := sim.state m _ e ⟨h, c, call, rfl, rfl, rfl⟩ ⟨admitted, meets⟩
      cases call₁.symm.trans call'
      rw [file, path, same]
      exact (alone c call).after steps
    | none =>
      by_cases begins : ∃ file path, e = .fsUpload id file path
      · obtain ⟨file, path, rfl⟩ := begins
        have given : id ∉ m.used := by simpa [uploading, admits] using admitted
        cases (if_pos rfl).symm.trans ((calls_fsUpload file path id).symm.trans call')
        exact .init (h.view_fsUpload given file meets.1)
      · cases (calls_step call fun file path same => begins ⟨file, path, same⟩).symm.trans call'

/-- The window of an upload in a session, where the host's disk works for it and nobody
cancels it. -/
theorem window_in_session (hr : ((uploading disk).restrict (Meets id fun _ e => e.Smooth)).Reachable m)
    (call : m.calls id = some c) {sent seen : Nat} (sending : Sending (m.view id c) sent seen) :
    sent - seen ≤ WINDOW + FILE_CHUNK :=
  (Upload.Flows.of_reachable (upload_reachable hr call)).window sending

end UploadSession

end ZortilWatch.Core
