import MentorsMind.SessionRegistry.Contract
import MentorsMind.Lib.Table

/-! When the sessions of a mentor stay apart: as long as the bucket index still shows a booking the
sessions that it looks at, and no session comes back from its cancellation into the buffer of
another. -/
namespace SessionRegistry
open Outcome Soroban Shared

section Law

variable {Addr : Type} {home : Addr}

/-- One of two spans ends, with the buffer, before the other begins. -/
def Separate (start stop start' stop' : ℕ) : Prop :=
  stop + schedulingBufferSecs ≤ start' ∨ stop' + schedulingBufferSecs ≤ start

def SessionRecord.sessionEnd (r : SessionRecord Addr) : ℕ := r.scheduledAt + r.durationMins * 60

def Booking.sessionEnd (b : Booking Addr) : ℕ := b.scheduledAt + b.durationMins * 60

def SessionRecord.Apart (r o : SessionRecord Addr) : Prop :=
  Separate r.scheduledAt r.sessionEnd o.scheduledAt o.sessionEnd

/-- The session is stored under the id, and not cancelled. -/
def State.Live (s : State Addr) (sessionId : String) (r : SessionRecord Addr) : Prop :=
  s.session sessionId = some r ∧ r.status ≠ .cancelled

/-- Any two sessions of a mentor that are not cancelled are apart. -/
def NoDoubleBooking (s : State Addr) : Prop :=
  ∀ id id' r r', id ≠ id' → s.Live id r → s.Live id' r' → r.mentor = r'.mentor → r.Apart r'

/-- Each live session of the mentor that the booking comes too close to stands in one of the
buckets that the booking looks through. -/
def Indexed (s : State Addr) (b : Booking Addr) : Prop :=
  ∀ id r, s.Live id r → r.mentor = b.mentor →
    ¬ Separate r.scheduledAt r.sessionEnd b.scheduledAt b.sessionEnd →
    ∃ bucket ∈ scannedBuckets b.scheduledAt b.sessionEnd,
      s.mentorScheduleSlot (b.mentor, bucket) = some id

/-- The span of a stored session is apart from those of the other live ones of its mentor. -/
def Clear (s : State Addr) (sessionId : String) : Prop :=
  ∀ r, s.session sessionId = some r → ∀ other o, other ≠ sessionId → s.Live other o →
    o.mentor = r.mentor → r.Apart o

/-- The session whose status a call sets, and the status. -/
def Call.setsStatus : Call Addr → Option (String × SessionStatus)
  | .updateStatus sessionId status => some (sessionId, status)
  | .updateStatusFromOracle _ sessionId status => some (sessionId, status)
  | .cancelSession sessionId => some (sessionId, .cancelled)
  | .emergencySchedulingOverride sessionId => some (sessionId, .confirmed)
  | _ => none

/-- The call takes the session out of `Cancelled`. -/
def Revives (s : State Addr) (call : Call Addr) (sessionId : String) : Prop :=
  ∃ r status, call.setsStatus = some (sessionId, status) ∧ s.session sessionId = some r ∧
    r.status = .cancelled ∧ status ≠ .cancelled

/-- The buckets of the half hours that a session runs through. -/
def SessionRecord.buckets (r : SessionRecord Addr) : List ℕ :=
  bucketsBetween r.scheduledAt r.sessionEnd

def Booking.buckets (b : Booking Addr) : List ℕ := bucketsBetween b.scheduledAt b.sessionEnd

/-- The call books the session over the bucket of the mentor. -/
def Books (mentor : Addr) (bucket : ℕ) (sessionId : String) (call : Call Addr) : Prop :=
  ∃ b, call = .registerSession b ∧ b.sessionId = sessionId ∧ b.mentor = mentor ∧
    bucket ∈ b.buckets

/-- The call books some session over the bucket of the mentor, or cancels one that runs through
it. -/
def WritesBucket (mentor : Addr) (bucket : ℕ) (s : State Addr) (call : Call Addr) : Prop :=
  (∃ sessionId, Books mentor bucket sessionId call) ∨
    ∃ sessionId r, call.setsStatus = some (sessionId, .cancelled) ∧
      s.session sessionId = some r ∧ r.status ≠ .cancelled ∧ r.mentor = mentor ∧
      bucket ∈ r.buckets

end Law

section Buckets

variable {Addr : Type} {s : State Addr} {id : String} {r : SessionRecord Addr}
  {b : Booking Addr}

theorem mem_bucketsBetween {start stop bucket : ℕ} :
    bucket ∈ bucketsBetween start stop ↔
      start / slotSizeSecs ≤ bucket ∧ bucket < (stop + slotSizeSecs - 1) / slotSizeSecs := by
  unfold bucketsBetween
  rw [List.mem_range'_1]
  omega

/-- A moment lies in one of the buckets of each span that holds it. -/
theorem bucket_of_mem {start stop moment : ℕ} (hstart : start ≤ moment) (hstop : moment < stop) :
    moment / slotSizeSecs ∈ bucketsBetween start stop := by
  rw [mem_bucketsBetween]
  constructor
  · exact Nat.div_le_div_right hstart
  · unfold slotSizeSecs
    omega

/-- The widened scan goes far enough: a booking looks through a bucket of each session that it
comes too close to, and sees the session if the index shows it there. -/
theorem indexed_of_reserved
    (hproper : ∀ id r, s.session id = some r → 0 < r.durationMins)
    (hb : 0 < b.durationMins)
    (hreserved : ∀ id r, s.Live id r → r.mentor = b.mentor →
      (∃ bucket ∈ scannedBuckets b.scheduledAt b.sessionEnd, bucket ∈ r.buckets) →
      ∃ bucket ∈ scannedBuckets b.scheduledAt b.sessionEnd,
        s.mentorScheduleSlot (b.mentor, bucket) = some id) : Indexed s b := by
  intro id r hlive hmentor hclose
  have hr := hproper id r hlive.1
  have hends : r.scheduledAt < r.sessionEnd := by
    unfold SessionRecord.sessionEnd
    omega
  have hends' : b.scheduledAt < b.sessionEnd := by
    unfold Booking.sessionEnd
    omega
  unfold Separate at hclose
  push Not at hclose
  -- the first moment of the session that the scan reaches
  let moment := max r.scheduledAt (b.scheduledAt - schedulingBufferSecs)
  refine hreserved id r hlive hmentor ⟨moment / slotSizeSecs, ?_, ?_⟩
  · exact bucket_of_mem (le_max_right _ _) (by omega)
  · exact bucket_of_mem (le_max_left _ _) (by omega)

/-- The test of a bucket is the one of the spans, where no sum saturates. -/
theorem separate_of_not_conflicts {bucket : ℕ} (hfound : s.session id = some r)
    (hslot : s.mentorScheduleSlot (b.mentor, bucket) = some id)
    (hr : r.sessionEnd + schedulingBufferSecs < 2 ^ 64)
    (hb : b.sessionEnd + schedulingBufferSecs < 2 ^ 64)
    (h : conflictsInBucket s b.mentor b.scheduledAt b.sessionEnd bucket = false) :
    Separate r.scheduledAt r.sessionEnd b.scheduledAt b.sessionEnd := by
  unfold conflictsInBucket at h
  rw [hslot, Option.bind_some, hfound] at h
  have hnot := of_decide_eq_false h
  unfold saturatingAddU64 at hnot
  unfold SessionRecord.sessionEnd at hr ⊢
  unfold Separate
  omega

/-- The loops over the buckets write one value into each of them, and nothing elsewhere. -/
theorem writeBuckets_apply [DecidableEq Addr] (buckets : List ℕ)
    (slot : Addr × ℕ → Option String) (mentor : Addr) (value : Option String) (key : Addr × ℕ) :
    buckets.foldl (fun slot bucket => Function.update slot (mentor, bucket) value) slot key =
      if key.1 = mentor ∧ key.2 ∈ buckets then value else slot key := by
  induction buckets generalizing slot with
  | nil => simp
  | cons bucket buckets ih =>
    rw [List.foldl_cons, ih, Function.update_apply]
    simp only [List.mem_cons, Prod.ext_iff]
    split_ifs <;> tauto

end Buckets

section Steps

variable {Addr : Type} [DecidableEq Addr] {home : Addr} {inv : Invocation Addr home}
  {s t : State Addr} {call : Call Addr}

/-- What a call does to the stored sessions and to the bucket index. -/
inductive Turn (s t : State Addr) (call : Call Addr) : Prop where
  | kept (session : t.session = s.session) (slot : t.mentorScheduleSlot = s.mentorScheduleSlot)
      (none : call.setsStatus = none) (noBooking : ∀ b, call ≠ .registerSession b)
  | booked (b : Booking Addr) (now : ℕ) (isCall : call = .registerSession b)
      (fresh : s.session b.sessionId = none)
      (proper : 0 < b.durationMins)
      (fits : b.sessionEnd + schedulingBufferSecs < 2 ^ 64)
      (noConflict : ∀ bucket ∈ scannedBuckets b.scheduledAt b.sessionEnd,
        conflictsInBucket s b.mentor b.scheduledAt b.sessionEnd bucket = false)
      (session : t.session = Function.update s.session b.sessionId (some (b.record now)))
      (slot : t.mentorScheduleSlot = reserveTimeBuckets s.mentorScheduleSlot b.mentor
        b.scheduledAt b.sessionEnd b.sessionId)
  | changed (id : String) (status : SessionStatus) (r : SessionRecord Addr)
      (sets : call.setsStatus = some (id, status)) (found : s.session id = some r)
      (session : t.session =
        Function.update s.session id (some { r with status := status }))
      (slot : t.mentorScheduleSlot = if status = .cancelled ∧ r.status ≠ .cancelled then
        releaseTimeBuckets s.mentorScheduleSlot r.mentor r.scheduledAt r.sessionEnd
        else s.mentorScheduleSlot)

omit [DecidableEq Addr] in
theorem checkSchedulingConflicts_spec {b : Booking Addr} {u : Unit}
    (h : checkSchedulingConflicts s b.mentor b.scheduledAt b.durationMins = .ok u) :
    0 < b.durationMins ∧ b.sessionEnd + schedulingBufferSecs < 2 ^ 64 ∧
      ∀ bucket ∈ scannedBuckets b.scheduledAt b.sessionEnd,
        conflictsInBucket s b.mentor b.scheduledAt b.sessionEnd bucket = false := by
  simp only [checkSchedulingConflicts, validateTimeSlot, bind_eq_ok, require_eq_ok,
    checkedU64_eq_ok] at h
  obtain ⟨-, ⟨-, hproper, -, rfl⟩, -, ⟨hfits, rfl⟩, -, -, hnone⟩ := h
  exact ⟨Nat.pos_of_ne_zero hproper, hfits, hnone⟩

theorem validateTimeSlot_eq_ok {scheduledAt durationMins stop : ℕ}
    (h : validateTimeSlot scheduledAt durationMins = .ok stop) :
    stop = scheduledAt + durationMins * 60 := by
  simp only [validateTimeSlot, bind_eq_ok, checkedU64_eq_ok] at h
  obtain ⟨-, -, -, rfl⟩ := h
  rfl

theorem manageResources_kept {b : Booking Addr} (h : manageResources inv s b = .ok t) :
    t.session = s.session ∧ t.mentorScheduleSlot = s.mentorScheduleSlot := by
  simp only [manageResources, bind_eq_ok, pure_eq_ok] at h
  obtain ⟨-, -, -, -, -, -, -, -, -, -, -, -, rfl⟩ := h
  exact ⟨rfl, rfl⟩

theorem monitorBooking_kept {b : Booking Addr} (h : monitorBooking inv s b = .ok t) :
    t.session = s.session ∧ t.mentorScheduleSlot = s.mentorScheduleSlot := by
  simp only [monitorBooking, bind_eq_ok, pure_eq_ok] at h
  obtain ⟨-, -, -, -, -, -, rfl⟩ := h
  exact ⟨rfl, rfl⟩

theorem countActive_kept (s : State Addr) (r : SessionRecord Addr) (status : SessionStatus) :
    (countActive s r status).session = s.session ∧
      (countActive s r status).mentorScheduleSlot = s.mentorScheduleSlot := by
  unfold countActive
  split_ifs
  · exact ⟨rfl, rfl⟩
  · exact ⟨rfl, rfl⟩

theorem releaseCancelled_spec {r : SessionRecord Addr} {status : SessionStatus}
    (h : releaseCancelled s r status = .ok t) : t.session = s.session ∧
      t.mentorScheduleSlot = if status = .cancelled ∧ r.status ≠ .cancelled then
        releaseTimeBuckets s.mentorScheduleSlot r.mentor r.scheduledAt r.sessionEnd
        else s.mentorScheduleSlot := by
  unfold releaseCancelled at h
  split_ifs at h ⊢
  · simp only [bind_eq_ok, pure_eq_ok] at h
    obtain ⟨-, -, stop, hstop, rfl⟩ := h
    rw [validateTimeSlot_eq_ok hstop]
    exact ⟨rfl, rfl⟩
  · rw [pure_eq_ok.mp h]
    exact ⟨rfl, rfl⟩

theorem changeStatus_turn {id : String} {status : SessionStatus}
    (h : changeStatus s id status = .ok t) (hsets : call.setsStatus = some (id, status)) :
    Turn s t call := by
  simp only [changeStatus, bind_eq_ok, expect_eq_ok, pure_eq_ok] at h
  obtain ⟨r, hfound, counted, hcounted, -, -, rfl⟩ := h
  obtain ⟨hsession, hslot⟩ := releaseCancelled_spec hcounted
  obtain ⟨hsession', hslot'⟩ := countActive_kept s r status
  rw [hsession'] at hsession
  rw [hslot'] at hslot
  refine .changed id status r hsets hfound ?_ hslot
  rw [hsession]

theorem exec_turn (hx : exec inv call s = .ok t) : Turn s t call := by
  cases call with
  | initializeRegistry backend =>
    simp only [exec, initializeRegistry, bind_eq_ok, pure_eq_ok] at hx
    obtain ⟨-, -, rfl⟩ := hx
    exact .kept rfl rfl rfl (by simp)
  | setSessionOracle oracle =>
    simp only [exec, setSessionOracle, bind_eq_ok, pure_eq_ok] at hx
    obtain ⟨-, -, rfl⟩ := hx
    exact .kept rfl rfl rfl (by simp)
  | registerSession b =>
    simp only [exec, registerSession, bind_eq_ok, require_eq_ok, pure_eq_ok] at hx
    obtain ⟨-, -, -, hfresh, u, hcheck, managed, hmanaged, monitored, hmonitored, stop, hstop,
      rfl⟩ := hx
    obtain ⟨hproper, hfits, hnone⟩ := checkSchedulingConflicts_spec hcheck
    obtain ⟨hsession, hslot⟩ := manageResources_kept hmanaged
    obtain ⟨hsession', hslot'⟩ := monitorBooking_kept hmonitored
    refine .booked b inv.timestamp rfl hfresh hproper hfits hnone ?_ ?_
    · rw [hsession', hsession]
    · rw [hslot', hslot, validateTimeSlot_eq_ok hstop]
      rfl
  | updateStatus id status =>
    obtain ⟨-, -, hchange⟩ := bind_eq_ok.mp hx
    exact changeStatus_turn hchange rfl
  | updateStatusFromOracle oracle id status =>
    simp only [exec, updateStatusFromOracle, bind_eq_ok] at hx
    obtain ⟨-, -, -, -, -, -, hchange⟩ := hx
    exact changeStatus_turn hchange rfl
  | cancelSession id =>
    obtain ⟨-, -, hchange⟩ := bind_eq_ok.mp hx
    exact changeStatus_turn hchange rfl
  | emergencySchedulingOverride id =>
    obtain ⟨-, -, hchange⟩ := bind_eq_ok.mp hx
    exact changeStatus_turn hchange rfl

/-- Every stored session takes some time, and its buffered end fits into the type of a time. -/
def Bounded (s : State Addr) : Prop :=
  ∀ id r, s.session id = some r →
    0 < r.durationMins ∧ r.sessionEnd + schedulingBufferSecs < 2 ^ 64

theorem Turn.bounded (h : Turn s t call) (hs : Bounded s) : Bounded t := by
  unfold Bounded
  cases h with
  | kept session slot none noBooking =>
    rw [session]
    exact hs
  | booked b now isCall fresh proper fits noConflict session slot =>
    rw [session]
    exact Table.forall_update hs ⟨proper, fits⟩
  | changed id status r sets found session slot =>
    rw [session]
    exact Table.forall_update hs (hs id r found)

/-- What a booking finds and writes. -/
theorem Turn.of_registerSession {b : Booking Addr} (h : Turn s t (.registerSession b)) :
    s.session b.sessionId = none ∧ 0 < b.durationMins ∧
      (∃ now, t.session = Function.update s.session b.sessionId (some (b.record now))) ∧
      t.mentorScheduleSlot = reserveTimeBuckets s.mentorScheduleSlot b.mentor b.scheduledAt
        b.sessionEnd b.sessionId := by
  cases h with
  | kept session slot none noBooking => exact absurd rfl (noBooking b)
  | booked b' now isCall fresh proper fits noConflict session slot =>
    obtain rfl := Call.registerSession.inj isCall
    exact ⟨fresh, proper, ⟨now, session⟩, slot⟩
  | changed id status r sets found session slot => cases sets

/-- A booking shows in its buckets. -/
theorem Turn.slot_of_books {mentor : Addr} {bucket : ℕ} {id : String} (h : Turn s t call)
    (hbooks : Books mentor bucket id call) : t.mentorScheduleSlot (mentor, bucket) = some id := by
  obtain ⟨b, rfl, rfl, rfl, hbucket⟩ := hbooks
  obtain ⟨-, -, -, hslot⟩ := h.of_registerSession
  rw [hslot, reserveTimeBuckets, writeBuckets_apply, if_pos ⟨rfl, hbucket⟩]

/-- A bucket changes when it is written only. -/
theorem Turn.slot_eq {mentor : Addr} {bucket : ℕ} (h : Turn s t call)
    (hnot : ¬ WritesBucket mentor bucket s call) :
    t.mentorScheduleSlot (mentor, bucket) = s.mentorScheduleSlot (mentor, bucket) := by
  cases h with
  | kept session slot none noBooking => rw [slot]
  | booked b now isCall fresh proper fits noConflict session slot =>
    rw [slot, reserveTimeBuckets, writeBuckets_apply, if_neg]
    rintro ⟨hmentor, hbucket⟩
    exact hnot (.inl ⟨b.sessionId, b, isCall, rfl, hmentor.symm, hbucket⟩)
  | changed id status r sets found session slot =>
    rw [slot]
    split_ifs with hcancels
    · rw [releaseTimeBuckets, writeBuckets_apply, if_neg]
      rintro ⟨hmentor, hbucket⟩
      obtain ⟨rfl, hactive⟩ := hcancels
      exact hnot (.inr ⟨id, r, sets, found, hactive, hmentor.symm, hbucket⟩)
    · rfl

omit [DecidableEq Addr] in
/-- One record is written: its session has to be apart from the others, if it is live. -/
theorem noDoubleBooking_update {id : String} {r : SessionRecord Addr} (hs : NoDoubleBooking s)
    (hsession : t.session = Function.update s.session id (some r))
    (hnew : r.status ≠ .cancelled → ∀ other o, other ≠ id → s.Live other o →
      o.mentor = r.mentor → r.Apart o) : NoDoubleBooking t := by
  have hlive : ∀ other o, t.Live other o → other = id ∧ o = r ∨ other ≠ id ∧ s.Live other o := by
    rintro other o ⟨hfound, hstatus⟩
    rw [hsession] at hfound
    rcases Table.update_eq_some_iff.mp hfound with ⟨rfl, rfl⟩ | ⟨hother, hold⟩
    · exact .inl ⟨rfl, rfl⟩
    · exact .inr ⟨hother, hold, hstatus⟩
  intro a a' x x' hne hx hx' hmentor
  rcases hlive a x hx with ⟨rfl, rfl⟩ | ⟨ha, hold⟩
  · rcases hlive a' x' hx' with ⟨rfl, -⟩ | ⟨ha', hold'⟩
    · exact absurd rfl hne
    · exact hnew hx.2 a' x' ha' hold' hmentor.symm
  · rcases hlive a' x' hx' with ⟨rfl, rfl⟩ | ⟨ha', hold'⟩
    · exact Or.symm (hnew hx'.2 a x ha hold hmentor)
    · exact hs a a' x x' hne hold hold' hmentor

/-- A booking keeps the sessions apart where the index shows what it comes too close to, and a
change of status where a session that it revives is apart from the others. -/
theorem Turn.noDoubleBooking (h : Turn s t call) (hbounded : Bounded s) (hs : NoDoubleBooking s)
    (hindexed : ∀ b, call = .registerSession b → Indexed s b)
    (hclear : ∀ id, Revives s call id → Clear s id) : NoDoubleBooking t := by
  cases h with
  | kept session slot none noBooking =>
    unfold NoDoubleBooking State.Live
    rw [session]
    exact hs
  | booked b now isCall fresh proper fits noConflict session slot =>
    refine noDoubleBooking_update hs session ?_
    intro _ other o hother hlive hmentor
    by_contra hclose
    have hclose' : ¬ Separate o.scheduledAt o.sessionEnd b.scheduledAt b.sessionEnd :=
      fun hseparate => hclose (Or.symm hseparate)
    obtain ⟨bucket, hbucket, hslot⟩ := hindexed b isCall other o hlive hmentor hclose'
    exact hclose' (separate_of_not_conflicts hlive.1 hslot (hbounded other o hlive.1).2 fits
      (noConflict bucket hbucket))
  | changed id status r sets found session slot =>
    refine noDoubleBooking_update hs session ?_
    intro hstatus other o hother hlive hmentor
    by_cases hcancelled : r.status = .cancelled
    · exact hclear id ⟨r, status, sets, found, hcancelled, hstatus⟩ r found other o hother hlive
        hmentor
    · exact hs id other r o (Ne.symm hother) ⟨found, hcancelled⟩ hlive hmentor.symm

/-- Where the sessions are apart after a booking, it came too close to none. -/
theorem Turn.indexed {b : Booking Addr} (h : Turn s t (.registerSession b))
    (ht : NoDoubleBooking t) : Indexed s b := by
  obtain ⟨hfresh, -, ⟨now, hsession⟩, -⟩ := h.of_registerSession
  intro id r hlive hmentor hclose
  have hother : id ≠ b.sessionId := by
    rintro rfl
    have hfound := hlive.1
    rw [hfresh] at hfound
    cases hfound
  have hold : t.Live id r := by
    refine ⟨?_, hlive.2⟩
    rw [hsession, Function.update_of_ne hother]
    exact hlive.1
  have hnew : t.Live b.sessionId (b.record now) := by
    refine ⟨?_, by simp [Booking.record]⟩
    rw [hsession, Function.update_self]
  exact absurd (ht id b.sessionId r (b.record now) hother hold hnew hmentor) hclose

/-- Where the sessions are apart after one is revived, it was apart from the others. -/
theorem Turn.clear (h : Turn s t call) (ht : NoDoubleBooking t) {id : String}
    (hrevives : Revives s call id) : Clear s id := by
  obtain ⟨r, status, hsets, hfound, -, hstatus⟩ := hrevives
  cases h with
  | kept session slot none noBooking =>
    rw [none] at hsets
    cases hsets
  | booked b now isCall fresh proper fits noConflict session slot =>
    rw [isCall] at hsets
    cases hsets
  | changed id' status' r' sets found session slot =>
    obtain ⟨rfl, rfl⟩ := Prod.mk.inj (Option.some.inj (hsets.symm.trans sets))
    obtain rfl := Option.some.inj (hfound.symm.trans found)
    intro r' hr' other o hother hlive hmentor
    obtain rfl := Option.some.inj (hfound.symm.trans hr')
    have hrevived : t.Live id { r with status := status } := by
      refine ⟨?_, hstatus⟩
      rw [session, Function.update_self]
    have hold : t.Live other o := by
      refine ⟨?_, hlive.2⟩
      rw [session, Function.update_of_ne hother]
      exact hlive.1
    exact ht id other { r with status := status } o (Ne.symm hother) hrevived hold hmentor.symm

end Steps

section Runs

variable {Addr : Type} [DecidableEq Addr] {home : Addr} {steps : List (Step Addr home)}

theorem run_bounded (steps : List (Step Addr home)) : Bounded (reached steps) := by
  refine Machine.run_invariant ?_ ?_ steps
  · intro id r hfound
    cases hfound
  · intro step s t hs hx
    exact (exec_turn hx).bounded hs

omit [DecidableEq Addr] in
theorem deployed_noDoubleBooking : NoDoubleBooking (deployed Addr) := by
  intro id id' r r' hne hlive
  cases hlive.1

/-- A run never books a mentor twice if and only if the index shows each booking what it comes too
close to, and each session that is revived is apart from the others. -/
theorem noDoubleBooking_iff :
    (∀ pre, pre <+: steps → NoDoubleBooking (reached pre)) ↔
      (∀ pre inv b t,
        (machine home).Executes (deployed Addr) steps pre (inv, .registerSession b) t →
        Indexed (reached pre) b) ∧
      ∀ pre step t id, (machine home).Executes (deployed Addr) steps pre step t →
        Revives (reached pre) step.2 id → Clear (reached pre) id := by
  constructor
  · intro h
    have hafter : ∀ {pre step t}, (machine home).Executes (deployed Addr) steps pre step t →
        NoDoubleBooking t := by
      intro pre step t hx
      rw [← hx.run_eq]
      exact h _ hx.snoc_prefix
    constructor
    · intro pre inv b t hx
      have hexec : exec inv (.registerSession b) (reached pre) = .ok t := hx.exec_eq
      exact (exec_turn hexec).indexed (hafter hx)
    · intro pre step t id hx hrevives
      exact (exec_turn hx.exec_eq).clear (hafter hx) hrevives
  · rintro ⟨hindexed, hclear⟩
    refine Machine.run_invariant_of_executes (M := machine home) deployed_noDoubleBooking ?_
    rintro pre ⟨inv, call⟩ t hx hs
    refine (exec_turn hx.exec_eq).noDoubleBooking (run_bounded pre) hs ?_ ?_
    · rintro b rfl
      exact hindexed pre inv b t hx
    · intro id hrevives
      exact hclear pre (inv, call) t id hx hrevives

/-- A call has booked the session over the bucket, and none has written the bucket since. -/
def Shows (steps : List (Step Addr home)) (mentor : Addr) (bucket : ℕ) (id : String) : Prop :=
  (machine home).SwitchedOnIn (fun _ step => Books mentor bucket id step.2)
    (fun s step => WritesBucket mentor bucket s step.2) (deployed Addr) steps

theorem Shows.slot_eq {mentor : Addr} {bucket : ℕ} {id : String}
    (h : Shows steps mentor bucket id) :
    (reached steps).mentorScheduleSlot (mentor, bucket) = some id := by
  refine Machine.of_switchedOnIn (M := machine home)
    (P := fun s => s.mentorScheduleSlot (mentor, bucket) = some id) ?_ ?_ h
  · intro step s t hx hbooks
    exact (exec_turn hx).slot_of_books hbooks
  · intro step s t hx hnot hs
    rw [(exec_turn hx).slot_eq hnot]
    exact hs

/-- Of each live session of the mentor whose buckets the booking looks through, at least one of
these buckets was not written since the session was booked. -/
def Seen (steps : List (Step Addr home)) (b : Booking Addr) : Prop :=
  ∀ id r, (reached steps).Live id r → r.mentor = b.mentor →
    (∃ bucket ∈ scannedBuckets b.scheduledAt b.sessionEnd, bucket ∈ r.buckets) →
    ∃ bucket ∈ scannedBuckets b.scheduledAt b.sessionEnd, Shows steps b.mentor bucket id

/-- In a run whose bookings see the sessions in the buckets that they look through, a mentor is
never booked twice if and only if each session that comes back from its cancellation is apart from
the others. -/
theorem noDoubleBooking_iff_clear
    (hseen : ∀ pre inv b t,
      (machine home).Executes (deployed Addr) steps pre (inv, .registerSession b) t →
      Seen pre b) :
    (∀ pre, pre <+: steps → NoDoubleBooking (reached pre)) ↔
      ∀ pre step t id, (machine home).Executes (deployed Addr) steps pre step t →
        Revives (reached pre) step.2 id → Clear (reached pre) id := by
  rw [noDoubleBooking_iff]
  refine ⟨And.right, fun hclear => ⟨?_, hclear⟩⟩
  intro pre inv b t hx
  have hturn : Turn (reached pre) t (.registerSession b) := exec_turn hx.exec_eq
  obtain ⟨-, hproper, -, -⟩ := hturn.of_registerSession
  refine indexed_of_reserved (fun id r hfound => (run_bounded pre id r hfound).1) hproper ?_
  intro id r hlive hmentor hpasses
  obtain ⟨bucket, hbucket, hshows⟩ := hseen pre inv b t hx id r hlive hmentor hpasses
  exact ⟨bucket, hbucket, hshows.slot_eq⟩

end Runs

section Bookings

/-- Everyone signs, and no mentor is suspended. -/
def signedAt (now : ℕ) : Invocation ℕ 0 where
  toEnv := signedByAll now
  mentorSuspended _ := false

/-- The mentor 5 is booked under the given id, by a learner of its own for each booking. -/
def booking (id : String) (learner start mins : ℕ) : Booking ℕ :=
  ⟨id, 5, learner, start, mins, 200000, 9⟩

/-- A session from 10:00 to 10:50 and one from 11:05 on, which looks through the half hour in
which the first one ends; the first one is cancelled and then forced back by an override. -/
def returnRun : List (Step ℕ 0) :=
  [(signedAt 1, .initializeRegistry 1),
    (signedAt 2, .registerSession (booking "first" 6 36000 50)),
    (signedAt 3, .registerSession (booking "second" 7 39900 60)),
    (signedAt 4, .cancelSession "first"),
    (signedAt 5, .emergencySchedulingOverride "first")]

def firstRecord (status : SessionStatus) : SessionRecord ℕ :=
  ⟨"first", 5, 6, 36000, 50, 200000, 9, status, 2⟩

/-- Two sessions share a bucket, which shows the later one only, and the first is booked over. -/
def hiddenRun : List (Step ℕ 0) :=
  [(signedAt 1, .initializeRegistry 1),
    (signedAt 2, .registerSession (booking "first" 6 0 10)),
    (signedAt 3, .registerSession (booking "second" 7 1500 1)),
    (signedAt 4, .registerSession (booking "third" 8 0 10))]

theorem returnRun_first (n : ℕ) (hn : n = 1 ∨ n = 2) (id : String) (r : SessionRecord ℕ)
    (h : (reached (returnRun.take n)).Live id r) : n = 2 ∧ id = "first" := by
  rcases hn with rfl | rfl
  · cases h.1
  · have hsession : (reached (returnRun.take 2)).session =
        Function.update (fun _ => none) "first" (some (firstRecord .pending)) := rfl
    have hfound := h.1
    rw [hsession] at hfound
    rcases Table.update_eq_some_iff.mp hfound with ⟨rfl, -⟩ | ⟨-, hold⟩
    · exact ⟨rfl, rfl⟩
    · cases hold

/-- Nothing was written over the half hour in which the first session ends. -/
theorem returnRun_shows : Shows (returnRun.take 2) 5 21 "first" := by
  refine ⟨returnRun.take 1, _, _, ⟨[], rfl, rfl⟩, ⟨_, rfl, rfl, rfl, by decide⟩, ?_⟩
  intro later step t hx hlater
  have hlt : later.length < 2 := hx.length_lt
  have hone : 1 < later.length := hlater
  omega

theorem returnRun_seen (pre : List (Step ℕ 0)) (inv : Invocation ℕ 0) (b : Booking ℕ)
    (t : State ℕ)
    (hx : (machine 0).Executes (deployed ℕ) returnRun pre (inv, .registerSession b) t) :
    Seen pre b := by
  obtain ⟨hpre, hstep⟩ := hx.eq_take
  have hlt : pre.length < 5 := hx.length_lt
  intro id r hlive hmentor hpasses
  rw [hpre] at hlive ⊢
  generalize pre.length = n at hstep hlt hlive ⊢
  interval_cases n
  · cases hstep
  · exact absurd (returnRun_first 1 (.inl rfl) id r hlive).1 (by decide)
  · obtain ⟨-, rfl⟩ := returnRun_first 2 (.inr rfl) id r hlive
    obtain ⟨-, hcall⟩ := Prod.mk.inj (Option.some.inj hstep)
    obtain rfl := Call.registerSession.inj hcall
    exact ⟨21, by decide, returnRun_shows⟩
  · cases hstep
  · cases hstep

/-- The session that comes back ends a quarter of an hour before the other one begins. -/
theorem returnRun_clear : Clear (reached (returnRun.take 4)) "first" := by
  have hsession : (reached (returnRun.take 4)).session =
      Function.update (Function.update (reached (returnRun.take 2)).session "second"
        (some ((booking "second" 7 39900 60).record 3))) "first"
        (some (firstRecord .cancelled)) := rfl
  intro r hfound other o hother hlive hmentor
  obtain rfl : firstRecord .cancelled = r := Option.some.inj hfound
  have hlive' := hlive.1
  rw [hsession, Function.update_of_ne hother] at hlive'
  rcases Table.update_eq_some_iff.mp hlive' with ⟨-, rfl⟩ | ⟨-, hold⟩
  · exact .inl (by decide)
  · exact absurd (returnRun_first 2 (.inr rfl) other o ⟨hold, hlive.2⟩).2 hother

theorem noDoubleBooking_returnRun : NoDoubleBooking (reached returnRun) := by
  refine (noDoubleBooking_iff_clear returnRun_seen).mpr ?_ _ List.prefix_rfl
  rintro pre step t id hx ⟨r, status, hsets, hfound, hcancelled, hstatus⟩
  obtain ⟨hpre, hstep⟩ := hx.eq_take
  have hlt : pre.length < 5 := hx.length_lt
  rw [hpre]
  generalize pre.length = n at hstep hlt ⊢
  interval_cases n
  · obtain rfl := Option.some.inj hstep
    cases hsets
  · obtain rfl := Option.some.inj hstep
    cases hsets
  · obtain rfl := Option.some.inj hstep
    cases hsets
  · obtain rfl := Option.some.inj hstep
    obtain ⟨-, rfl⟩ := Prod.mk.inj (Option.some.inj hsets)
    exact absurd rfl hstatus
  · obtain rfl := Option.some.inj hstep
    obtain ⟨rfl, -⟩ := Prod.mk.inj (Option.some.inj hsets)
    exact returnRun_clear

theorem hiddenRun_doubleBooked :
    ¬ (∀ pre, pre <+: hiddenRun → NoDoubleBooking (reached pre)) := by
  intro h
  have hapart := h _ List.prefix_rfl "first" "third"
    ⟨"first", 5, 6, 0, 10, 200000, 9, .pending, 2⟩
    ⟨"third", 5, 8, 0, 10, 200000, 9, .pending, 4⟩ (by decide) ⟨by decide, by decide⟩
    ⟨by decide, by decide⟩ rfl
  revert hapart
  simp [SessionRecord.Apart, Separate, SessionRecord.sessionEnd, schedulingBufferSecs]

end Bookings

end SessionRegistry
