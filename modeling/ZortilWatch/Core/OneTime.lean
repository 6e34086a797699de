import ZortilWatch.Core.HostSpec

/-!
# One-time codes

When a code that established a session is used again. A `Ledger` is kept beside
a run of the host loop: the codes generated so far, the passwords that
established a session with a one-time code, and whether such a session broke
and no code was generated since. Only a clean end of the session generates a
new code; a broken WebSocket and a thread that does not start leave the old one.
-/

namespace ZortilWatch.Core

variable {J : Type} (env : HostEnv J)

/-- The request whose handshake a step confirms. -/
def Host.establishes (h : Host J) (r : Reading J) : Option Attempt :=
  match h.control with
  | .confirming a _ => if r.ok then some a else none
  | _ => none

/-- Whether a step leaves a session established with a one-time code because
its thread did not start or the WebSocket broke. -/
def Host.breaks (h : Host J) (r : Reading J) : Bool :=
  match h.control with
  | .spawning a => !r.ok && a.oneTimeUsed
  | .ending a _ wsOk => !wsOk && a.oneTimeUsed
  | _ => false

structure Ledger where
  codes : List String
  burned : List Bytes
  broken : Bool
  deriving DecidableEq, Repr

def Ledger.record (h : Host J) (r : Reading J) (l : Ledger) : Ledger where
  codes := if h.generates r then r.code :: l.codes else l.codes
  burned := ((h.establishes r).filter (·.oneTimeUsed)).toList.map (·.password) ++ l.burned
  broken := if h.generates r then false else l.broken || h.breaks r

/-- The host loop with its ledger, `generate_one_time` never repeating a code. -/
def codeRuns : System (Host J × Ledger) (Reading J) :=
  ((hostLoop env).recording (fun h => ⟨[h.oneTime], [], false⟩) Ledger.record).restrict
    fun p r => p.1.generates r = true → r.code ∉ p.2.codes

/-- No password handed to `serve_session` is a code that established a session before. -/
def SingleUse (p : Host J × Ledger) : Prop :=
  ∀ a, p.1.control = .accepting a → a.password ∉ p.2.burned

/-- A one-time request is let through only if no one-time session broke since
the last code was generated, and the permanent password is no burned code. -/
def Renewed (p : Host J × Ledger) (r : Reading J) : Prop :=
  ∀ a ∈ p.1.letsThrough r, if a.oneTimeUsed then p.2.broken = false else a.password ∉ p.2.burned

instance (p : Host J × Ledger) (r : Reading J) : Decidable ((codeRuns env).enabled p r) :=
  inferInstanceAs (Decidable (True ∧ (p.1.generates r = true → r.code ∉ p.2.codes)))

instance (p : Host J × Ledger) (r : Reading J) : Decidable (Renewed p r) :=
  inferInstanceAs (Decidable (∀ a ∈ p.1.letsThrough r,
    if a.oneTimeUsed then p.2.broken = false else a.password ∉ p.2.burned))

/-- What the ledger says about the code the host shows. -/
structure Accounted (p : Host J × Ledger) : Prop where
  shown : p.1.oneTime ∈ p.2.codes
  burned : ∀ password ∈ p.2.burned, ∃ code ∈ p.2.codes, password = utf8 code
  password : ∀ a, p.1.control.attempt = some a → a.oneTimeUsed = true → a.password = utf8 p.1.oneTime
  established : ∀ a, p.1.control.established = some a → a.oneTimeUsed = true → utf8 p.1.oneTime ∈ p.2.burned
  broken : (∀ a, p.1.control.established = some a → a.oneTimeUsed = false) →
    (utf8 p.1.oneTime ∈ p.2.burned ↔ p.2.broken = true)

section Steps

variable {h : Host J} {r : Reading J} {l : Ledger} {a : Attempt}

theorem attempt_of_established {c : Control J} (up : c.established = some a) : c.attempt = some a := by
  cases c <;> cases up <;> rfl

theorem attempt_of_letsThrough (through : h.letsThrough r = some a) : h.control.attempt = some a := by
  unfold Host.letsThrough at through
  cases hc : h.control with
  | admitted b =>
    simp only [hc, Option.ite_none_left_eq_some] at through
    exact through.2
  | deciding b id =>
    simp only [hc, Option.ite_none_right_eq_some] at through
    exact through.2
  | _ => rw [hc] at through; cases through

/-- A request is let through, and a code generated, where no handshake confirms. -/
theorem establishes_of_letsThrough (through : h.letsThrough r = some a) : h.establishes r = none := by
  unfold Host.letsThrough at through
  unfold Host.establishes
  cases hc : h.control <;> rw [hc] at through
  all_goals cases through

theorem establishes_of_generates (made : h.generates r = true) : h.establishes r = none := by
  unfold Host.generates at made
  unfold Host.establishes
  cases hc : h.control <;> rw [hc] at made
  all_goals cases made

theorem not_established_of_letsThrough (through : h.letsThrough r = some a) : h.control.established = none := by
  unfold Host.letsThrough at through
  cases hc : h.control <;> (rw [hc] at through; first | rfl | cases through)

theorem established_of_establishes (confirms : h.establishes r = some a) :
    h.control.attempt = some a ∧ (h.serve env r).1.control.established = some a := by
  unfold Host.establishes at confirms
  cases hc : h.control with
  | confirming b n =>
    simp only [hc, Option.ite_none_right_eq_some, Option.some.injEq] at confirms
    obtain ⟨ok, rfl⟩ := confirms
    exact ⟨rfl, by simp [Host.serve, hc, ok, Host.goto, Control.established]⟩
  | _ => rw [hc] at confirms; cases confirms

/-- A session established with a one-time code goes on, or a new code is
generated, or it breaks. -/
theorem established_ends (up : h.control.established = some a) (used : a.oneTimeUsed = true) :
    (h.serve env r).1.control.established = some a ∨ h.generates r = true ∨ h.breaks r = true := by
  have moves := serve_moves env h r
  unfold Host.generates Host.breaks
  cases hc : h.control with
  | spawning b =>
    rw [hc] at up
    cases up
    cases ho : r.ok
    · exact .inr (.inr (by simp [used]))
    · exact .inl (by simp [Host.serve, hc, ho, Host.goto, Control.established])
  | inSession b =>
    rw [hc] at up moves
    cases up
    generalize (h.serve env r).1.control = c at moves ⊢
    cases moves with
    | idle none_ _ => cases none_
    | dropped _ stays => exact absurd rfl (stays _)
    | _ => exact .inl rfl
  | ending b tail wsOk =>
    rw [hc] at up
    cases up
    cases wsOk
    · exact .inr (.inr (by simp [used]))
    · exact .inr (.inl (by simp [used]))
  | _ => rw [hc] at up; cases up

/-- Only a session established with a one-time code breaks. -/
theorem established_of_breaks (breaks : h.breaks r = true) :
    ∃ a, h.control.established = some a ∧ a.oneTimeUsed = true := by
  unfold Host.breaks at breaks
  cases hc : h.control with
  | spawning a =>
    simp only [hc, Bool.and_eq_true] at breaks
    exact ⟨a, rfl, breaks.2⟩
  | ending a tail wsOk =>
    simp only [hc, Bool.and_eq_true] at breaks
    exact ⟨a, rfl, breaks.2⟩
  | _ => rw [hc] at breaks; cases breaks

theorem codes_record {code : String} (known : code ∈ l.codes) : code ∈ (l.record h r).codes := by
  simp only [Ledger.record]
  split
  · exact List.mem_cons_of_mem _ known
  · exact known

theorem mem_burned_record {password : Bytes} :
    password ∈ (l.record h r).burned ↔
      (∃ a, h.establishes r = some a ∧ a.oneTimeUsed = true ∧ a.password = password) ∨ password ∈ l.burned := by
  simp [Ledger.record, Option.filter_eq_some_iff, and_assoc]

theorem burned_record_of_none (quiet : h.establishes r = none) : (l.record h r).burned = l.burned := by
  simp [Ledger.record, quiet]

theorem broken_record :
    (l.record h r).broken = if h.generates r then false else l.broken || h.breaks r := rfl

end Steps

namespace Accounted

variable {env} {p : Host J × Ledger} {r : Reading J} (acc : Accounted p)
include acc

/-- A new code is not burned. -/
theorem broken_of_generates (made : p.1.generates r = true) (fresh : r.code ∉ p.2.codes) :
    utf8 r.code ∈ (p.2.record p.1 r).burned ↔ (p.2.record p.1 r).broken = true := by
  have new : utf8 r.code ∉ p.2.burned := by
    intro mem
    obtain ⟨code, known, same⟩ := acc.burned _ mem
    exact fresh (utf8_injective same ▸ known)
  simp [burned_record_of_none (establishes_of_generates made), broken_record, made, new]

/-- With the code kept and no one-time session going on behind the step, the
code is burned exactly if such a session broke. -/
theorem broken_of_kept (kept : p.1.generates r = false)
    (other : ∀ a, (p.1.serve env r).1.control.established = some a → a.oneTimeUsed = false) :
    utf8 p.1.oneTime ∈ (p.2.record p.1 r).burned ↔ (p.2.record p.1 r).broken = true := by
  have burned : utf8 p.1.oneTime ∈ (p.2.record p.1 r).burned ↔ utf8 p.1.oneTime ∈ p.2.burned := by
    rw [mem_burned_record]
    refine ⟨fun h => h.resolve_left ?_, .inr⟩
    rintro ⟨a, confirms, used, -⟩
    exact absurd used (by simp [other a (established_of_establishes env confirms).2])
  rw [burned, broken_record, kept, if_neg Bool.false_ne_true, Bool.or_eq_true]
  by_cases old : ∃ a, p.1.control.established = some a ∧ a.oneTimeUsed = true
  · obtain ⟨a, up, used⟩ := old
    refine iff_of_true (acc.established a up used) (.inr ?_)
    obtain still | renewed | breaks := established_ends env (r := r) up used
    · exact absurd used (by simp [other a still])
    · exact absurd renewed (by simp [kept])
    · exact breaks
  · have calm : p.1.breaks r ≠ true := fun breaks => old (established_of_breaks breaks)
    rw [or_iff_left calm]
    exact acc.broken fun a up => Bool.eq_false_of_not_eq_true fun used => old ⟨a, up, used⟩

theorem step (fresh : p.1.generates r = true → r.code ∉ p.2.codes) :
    Accounted ((p.1.serve env r).1, p.2.record p.1 r) := by
  -- with a request in hand behind the step, the code is the one before
  have kept {a : Attempt} (inHand : (p.1.serve env r).1.control.attempt = some a) :
      (p.1.serve env r).1.oneTime = p.1.oneTime := by
    have quiet : ¬ p.1.generates r = true := fun made => by
      rw [attempt_of_generates env p.1 r made] at inHand
      cases inHand
    rw [oneTime_serve, if_neg quiet]
  constructor
  case shown =>
    rw [oneTime_serve]
    simp only [Ledger.record]
    split
    · exact List.mem_cons_self
    · exact acc.shown
  case burned =>
    intro password mem
    obtain ⟨a, confirms, used, rfl⟩ | mem := mem_burned_record.1 mem
    · have inHand := (established_of_establishes env confirms).1
      exact ⟨p.1.oneTime, codes_record acc.shown, acc.password a inHand used⟩
    · obtain ⟨code, known, rfl⟩ := acc.burned password mem
      exact ⟨code, codes_record known, rfl⟩
  case password =>
    intro a inHand used
    rw [kept inHand]
    obtain before | chosen := attempt_serve env p.1 r inHand
    · exact acc.password a before used
    · exact chosen used
  case established =>
    intro a up used
    rw [kept (attempt_of_established up), mem_burned_record]
    obtain before | ⟨⟨n, hc⟩, ok⟩ := established_serve env p.1 r up
    · exact .inr (acc.established a before used)
    · have confirms : p.1.establishes r = some a := by simp [Host.establishes, hc, ok]
      exact .inl ⟨a, confirms, used, acc.password a (by rw [hc]; rfl) used⟩
  case broken =>
    intro other
    rw [oneTime_serve]
    cases made : p.1.generates r with
    | true => exact acc.broken_of_generates made (fresh made)
    | false => exact acc.broken_of_kept made other

omit acc in
theorem reachable (hr : (codeRuns env).Reachable p) : Accounted p := by
  refine hr.invariant ?_ fun q r _ acc admitted => acc.step admitted.2
  rintro ⟨h, l⟩ ⟨⟨start, -⟩, empty⟩
  obtain rfl : l = ⟨[h.oneTime], [], false⟩ := empty
  have idle : h.control.attempt = none := by rw [start]; rfl
  have fallow : h.control.established = none := by rw [start]; rfl
  constructor <;> simp [idle, fallow]

/-- The password of a request let through is burned exactly if the condition fails. -/
theorem handed {a : Attempt} (through : p.1.letsThrough r = some a) :
    a.password ∉ p.2.burned ↔ if a.oneTimeUsed then p.2.broken = false else a.password ∉ p.2.burned := by
  cases used : a.oneTimeUsed with
  | false => simp
  | true =>
    have same := acc.password a (attempt_of_letsThrough through) used
    have known := acc.broken (by simp [not_established_of_letsThrough through])
    simp [same, known]

end Accounted

/-- In the runs whose steps all meet `Renewed`, and in no others, every code
that established a session stays unused. -/
theorem single_use_iff {start : Host J × Ledger} (hi : (codeRuns env).init start) {rs : List (Reading J)}
    (hv : (codeRuns env).Valid start rs) :
    (codeRuns env).AllStates SingleUse start rs ↔ (codeRuns env).AllSteps Renewed start rs := by
  refine System.allStates_iff_allSteps ?_ (.init hi) ?_ hv
  · intro p r hr _ _
    have acc := Accounted.reachable hr
    constructor
    · intro single a through
      refine (acc.handed through).1 ?_
      have called := single a ((accepting_serve env p.1 r).2 through)
      rwa [show ((codeRuns env).step p r).2.burned = p.2.burned from
        burned_record_of_none (establishes_of_letsThrough through)] at called
    · intro renewed a called
      have through := (accepting_serve env p.1 r).1 called
      rw [show ((codeRuns env).step p r).2.burned = p.2.burned from
        burned_record_of_none (establishes_of_letsThrough through)]
      exact (acc.handed through).2 (renewed a through)
  · intro a called
    rw [hi.1.1] at called
    cases called

/-! ## Runs of a sample host -/

/-- The host right after the code "AAAAAAAA" was shown. -/
def sampleStart : Host String × Ledger := (⟨.connecting, "AAAAAAAA", 0⟩, ⟨["AAAAAAAA"], [], false⟩)

/-- What the host reads from its start to the media thread of a session asked
for with the one-time code. -/
def oneTimeSession : List (Reading String) :=
  [{}, {}, { recv := .ok (some (.incomingRequest "s1" (some "one_time"))) }, {}, {},
    { recv := .ok (some (.connectReady "s1" none)) }, { prepared := some ("offer", "candidates") },
    { recv := .ok (some (.signal "s1" "answer" "sdp")) },
    { recv := .ok (some (.signal "s1" "ice" "candidate")) }, {}, {}]

/-- The next request, up to the call of `serve_session`. -/
def nextOneTime : List (Reading String) :=
  [{}, { recv := .ok (some (.incomingRequest "s2" (some "one_time"))) }, {}]

/-- The WebSocket breaks during the session; after the reconnect the next
request is served with the same code. -/
theorem code_survives_broken_session :
    ∃ rs, (codeRuns sampleHostEnv).Valid sampleStart rs ∧
      ¬ (codeRuns sampleHostEnv).AllStates SingleUse sampleStart rs := by
  refine ⟨oneTimeSession ++ { recv := .error () } :: {} :: {} :: nextOneTime, by decide, fun single => ?_⟩
  exact single.last ⟨"s2", some "one_time", utf8 "AAAAAAAA"⟩ rfl (List.mem_cons_self : _ ∈ [utf8 "AAAAAAAA"])

/-- After a clean end the next request is served with the new code. -/
theorem single_use_after_clean_end :
    (codeRuns sampleHostEnv).AllStates SingleUse sampleStart
      (oneTimeSession ++ { done := true } :: { code := "BBBBBBBB" } :: nextOneTime) :=
  (single_use_iff sampleHostEnv ⟨⟨rfl, rfl⟩, rfl⟩ (by decide)).2 (by decide)

end ZortilWatch.Core
