import MentorsMind.KeyManagement.Effects

/-! Rotations against their proposals, records against what registers over them, and recovery
sessions against what opens over them. The version of a proposal may have been taken when it is
executed, and the id of a session is made without its account. -/
namespace KeyManagement
open Outcome Soroban Shared

variable {Addr : Type} [DecidableEq Addr] {sha256 : List UInt8 → Hash} {now : ℕ}
  {s t : State Addr} {account : Addr} {key : NewKey} {call : Call Addr}
  {steps : List (Step Addr)}

section Rotations

/-- A rotation that is executed makes the announced key the current one, as the announced
version. -/
def RotationsExact (sha256 : List UInt8 → Hash) (steps : List (Step Addr)) : Prop :=
  ∀ pre now account t p,
    (machine sha256).Executes (deployed Addr) steps pre (now, .executeKeyRotation account) t →
    (reached sha256 pre).rotationProposal account = some p →
    t.currentVersion account = p.newVersion ∧ ∃ record,
      t.keyRecord (account, p.newVersion) = some record ∧ record.version = p.newVersion ∧
        record.scheme = p.newScheme ∧ record.pubkeyCommitment = p.newPubkeyCommitment ∧
        record.derivationPathHash = p.newDerivationPathHash

/-- No version was registered since the rotation was proposed. -/
def MeetsProposal (s : State Addr) (call : Call Addr) : Prop :=
  ∀ account p, call = .executeKeyRotation account → s.rotationProposal account = some p →
    s.nextVersion account = p.newVersion

theorem rotationsExact_iff : RotationsExact sha256 steps ↔
    ∀ pre step t, (machine sha256).Executes (deployed Addr) steps pre step t →
      MeetsProposal (reached sha256 pre) step.2 := by
  have hinstalled : ∀ {pre now account t p},
      (machine sha256).Executes (deployed Addr) steps pre (now, .executeKeyRotation account) t →
      (reached sha256 pre).rotationProposal account = some p →
      t = { (reached sha256 pre).install now account p.key with
        rotationProposal := t.rotationProposal } := by
    intro pre now account t p hx hp
    have hexec : exec sha256 now (.executeKeyRotation account) (reached sha256 pre) = .ok t :=
      hx.exec_eq
    cases exec_effect hexec with
    | rotated q found pending eq =>
      obtain rfl := Option.some.inj (hp.symm.trans found)
      rw [eq]
  constructor
  · rintro hexact pre ⟨now, call⟩ t hx account p rfl hp
    obtain ⟨hversion, -⟩ := hexact pre now account t p hx hp
    rw [hinstalled hx hp] at hversion
    exact (Function.update_self account _ _).symm.trans hversion
  · intro hmeets pre now account t p hx hp
    have hnext := hmeets pre _ t hx account p rfl hp
    rw [hinstalled hx hp, ← hnext]
    exact ⟨Function.update_self .., _, Function.update_self .., rfl, rfl, rfl, rfl⟩

end Rotations

section Records

omit [DecidableEq Addr] in
/-- The same key, which may have been revoked. -/
def KeyRecord.SameKey (record after : KeyRecord Addr) : Prop :=
  after = { record with revoked := after.revoked, revokedAt := after.revokedAt }

/-- Records change only in their revocation fields. -/
def RecordsKept (sha256 : List UInt8 → Hash) (steps : List (Step Addr)) : Prop :=
  ∀ pre step t key record, (machine sha256).Executes (deployed Addr) steps pre step t →
    (reached sha256 pre).keyRecord key = some record →
    ∃ after, t.keyRecord key = some after ∧ record.SameKey after

/-- If the call registers over the last of all versions, then the same key. -/
def RegistersAnew (now : ℕ) (s : State Addr) (call : Call Addr) : Prop :=
  ∀ account key record, call.installs s = some (account, key) →
    s.currentVersion account = maxU32 → s.keyRecord (account, maxU32) = some record →
    record.SameKey (key.record account maxU32 now)

theorem KeyTurn.recordsKept_iff (h : KeyTurn now s t call) (hs : Versioned s) :
    (∀ key record, s.keyRecord key = some record →
        ∃ after, t.keyRecord key = some after ∧ record.SameKey after) ↔
      RegistersAnew now s call := by
  cases h with
  | installed account new installs records versions revocations =>
    rw [records, install_keyRecord]
    constructor
    · intro hkept other key record hinstalls hcurrent hfound
      obtain ⟨rfl, rfl⟩ := Prod.mk.inj (Option.some.inj (installs.symm.trans hinstalls))
      have hnext : s.nextVersion account = maxU32 := by
        rw [nextVersion_eq, hcurrent]
        rfl
      obtain ⟨after, hafter, hsame⟩ := hkept _ record hfound
      rw [hnext, Function.update_self] at hafter
      obtain rfl := Option.some.inj hafter
      exact hsame
    · intro hanew key record hfound
      by_cases hkey : key = (account, s.nextVersion account)
      · subst hkey
        obtain ⟨hcurrent, hnext⟩ := nextVersion_stored hs hfound
        rw [Function.update_self]
        rw [hnext] at hfound ⊢
        exact ⟨_, rfl, hanew account new record installs hcurrent hfound⟩
      · rw [Function.update_of_ne hkey]
        exact ⟨record, hfound, rfl⟩
  | revoked account version reason record isCall found standing records versions revocations =>
    subst isCall
    constructor
    · intro _ other key _ hinstalls
      cases hinstalls
    · intro _ key other hother
      rw [records]
      by_cases hkey : key = (account, version)
      · subst hkey
        obtain rfl := Option.some.inj (found.symm.trans hother)
        exact ⟨_, Function.update_self .., rfl⟩
      · rw [Function.update_of_ne hkey]
        exact ⟨other, hother, rfl⟩
  | kept installs noRevocation records versions revocations =>
    constructor
    · intro _ other key _ hinstalls
      rw [installs] at hinstalls
      cases hinstalls
    · intro _ key record hfound
      rw [records]
      exact ⟨record, hfound, rfl⟩

theorem recordsKept_iff : RecordsKept sha256 steps ↔
    ∀ pre step t, (machine sha256).Executes (deployed Addr) steps pre step t →
      RegistersAnew step.1 (reached sha256 pre) step.2 := by
  have hstep : ∀ {pre step t}, (machine sha256).Executes (deployed Addr) steps pre step t →
      ((∀ key record, (reached sha256 pre).keyRecord key = some record →
          ∃ after, t.keyRecord key = some after ∧ record.SameKey after) ↔
        RegistersAnew step.1 (reached sha256 pre) step.2) := by
    intro pre step t hx
    exact (exec_effect hx.exec_eq).keyTurn.recordsKept_iff (run_versioned sha256 pre)
  constructor
  · intro hkept pre step t hx
    exact (hstep hx).mp fun key record => hkept pre step t key record hx
  · intro hanew pre step t key record hx
    exact (hstep hx).mpr (hanew pre step t hx) key record

end Records

section Sessions

omit [DecidableEq Addr] in
/-- Who approves the session with the call. -/
def Call.approverOf (sessionId : Hash) : Call Addr → Option Addr
  | .approveSocialRecovery guardian approved => if approved = sessionId then some guardian else none
  | _ => none

omit [DecidableEq Addr] in
/-- With which derivation path the call executes the session. -/
def Call.executionOf (sessionId : Hash) : Call Addr → Option Hash
  | .executeSocialRecovery executed path => if executed = sessionId then some path else none
  | _ => none

/-- The guardians whose approvals of the session are accepted in a run from a state. -/
def approvers (sha256 : List UInt8 → Hash) (sessionId : Hash) (s : State Addr)
    (steps : List (Step Addr)) : List Addr :=
  (machine sha256).collect (fun _ step _ => step.2.approverOf sessionId) s steps

/-- The executions of the session that succeed in a run from a state. -/
def executions (sha256 : List UInt8 → Hash) (sessionId : Hash) (s : State Addr)
    (steps : List (Step Addr)) : List Hash :=
  (machine sha256).collect (fun _ step _ => step.2.executionOf sessionId) s steps

omit [DecidableEq Addr] in
/-- The session after some approvals and perhaps its execution. -/
def SocialRecoverySession.after (opened : SocialRecoverySession Addr) (approvers : List Addr)
    (executions : List Hash) : SocialRecoverySession Addr :=
  { opened with approvalsCollected := approvers.length, executed := !executions.isEmpty }

/-- What holds of a session after a run from the state in which it was opened: it is that of its
account, with the approvals of registered guardians, each of whom can approve once; it can be
executed once, in time and with the quorum, and gives its key to the account. -/
structure SessionLaw (sha256 : List UInt8 → Hash) (sessionId : Hash)
    (opened : SocialRecoverySession Addr) (s : State Addr) (steps : List (Step Addr)) : Prop where
  stands : ((machine sha256).run s steps).session sessionId = some
    (opened.after (approvers sha256 sessionId s steps) (executions sha256 sessionId s steps))
  distinct : (approvers sha256 sessionId s steps).Nodup
  registered : ∀ guardian ∈ approvers sha256 sessionId s steps,
    guardian ∈ ((machine sha256).run s steps).guardians opened.account
  once : (executions sha256 sessionId s steps).length ≤ 1
  approves : ∀ now guardian, (∃ v, exec sha256 now (.approveSocialRecovery guardian sessionId)
      ((machine sha256).run s steps) = .ok v) ↔
    executions sha256 sessionId s steps = [] ∧ now ≤ opened.expiresAt ∧
      guardian ∈ ((machine sha256).run s steps).guardians opened.account ∧
      guardian ∉ approvers sha256 sessionId s steps
  completes : ∀ now path, (∃ v, exec sha256 now (.executeSocialRecovery sessionId path)
      ((machine sha256).run s steps) = .ok v) ↔
    executions sha256 sessionId s steps = [] ∧ now ≤ opened.expiresAt ∧
      socialRecoveryQuorum ≤ (approvers sha256 sessionId s steps).length
  installs : ∀ now path v, exec sha256 now (.executeSocialRecovery sessionId path)
      ((machine sha256).run s steps) = .ok v → ∃ record,
    v.keyRecord (opened.account, v.currentVersion opened.account) = some record ∧
      record.account = opened.account ∧ record.pubkeyCommitment = opened.newKeyCommitment ∧
      record.revoked = false

/-- Every session of the run keeps its law from its opening on. -/
def SessionsKept (sha256 : List UInt8 → Hash) (steps : List (Step Addr)) : Prop :=
  ∀ pre mid account newKeyCommitment now t,
    (machine sha256).Executes (deployed Addr) steps pre
      (now, .initiateSocialRecovery account newKeyCommitment) t →
    pre ++ (now, .initiateSocialRecovery account newKeyCommitment) :: mid <+: steps →
    SessionLaw sha256 (sessionIdOf sha256 newKeyCommitment now)
      (.opened account newKeyCommitment now) t mid

/-- If the call opens a session, then under an id that no other session has. -/
def OpensFresh (sha256 : List UInt8 → Hash) (now : ℕ) (s : State Addr) (call : Call Addr) :
    Prop :=
  ∀ account newKeyCommitment session,
    call = .initiateSocialRecovery account newKeyCommitment →
    s.session (sessionIdOf sha256 newKeyCommitment now) = some session →
    session = .opened account newKeyCommitment now

section Spec

variable {sessionId derivationPathHash : Hash} {guardian : Addr}

theorem approve_isOk_iff :
    (∃ v, exec sha256 now (.approveSocialRecovery guardian sessionId) s = .ok v) ↔
      ∃ session, s.session sessionId = some session ∧ session.Open now ∧
        guardian ∈ s.guardians session.account ∧ s.approved (sessionId, guardian) = false := by
  constructor
  · rintro ⟨v, hv⟩
    cases exec_effect hv with
    | approved session found isOpen registered first eq =>
      exact ⟨session, found, isOpen, registered, first⟩
  · rintro ⟨session, hfound, hopen, hregistered, hfirst⟩
    simp only [exec, map_eq_ok, approveSocialRecovery, bind_eq_ok, getOpenSession_eq_ok,
      require_eq_ok, pure_eq_ok, isRegisteredGuardian, decide_eq_true_eq]
    exact ⟨_, _, ⟨session, ⟨hfound, hopen⟩, ⟨⟩, hregistered, ⟨⟩, hfirst, rfl⟩, rfl⟩

theorem execute_isOk_iff :
    (∃ v, exec sha256 now (.executeSocialRecovery sessionId derivationPathHash) s = .ok v) ↔
      ∃ session, s.session sessionId = some session ∧ session.Open now ∧
        session.quorum ≤ session.approvalsCollected := by
  constructor
  · rintro ⟨v, hv⟩
    cases exec_effect hv with
    | recovered session found isOpen quorum eq => exact ⟨session, found, isOpen, quorum⟩
  · rintro ⟨session, hfound, hopen, hquorum⟩
    simp only [exec, executeSocialRecovery, bind_eq_ok, getOpenSession_eq_ok, require_eq_ok,
      registerKey_eq_ok, pure_eq_ok]
    exact ⟨_, session, ⟨hfound, hopen⟩, ⟨⟩, hquorum, _, ⟨rfl, rfl⟩, rfl⟩

end Spec

/-- The part of the law of a session that a run keeps step by step. -/
structure Books (sessionId : Hash)
    (opened : SocialRecoverySession Addr) (approvers : List Addr) (executions : List Hash)
    (s : State Addr) : Prop where
  stands : s.session sessionId = some (opened.after approvers executions)
  distinct : approvers.Nodup
  counted : ∀ guardian, guardian ∈ approvers ↔ s.approved (sessionId, guardian) = true
  registered : ∀ guardian ∈ approvers, guardian ∈ s.guardians opened.account
  once : executions.length ≤ 1

/-- What holds of the tables around the sessions. -/
structure Tables (s : State Addr) : Prop where
  room : ∀ account, (s.guardians account).length ≤ maxGuardians
  approved : ∀ sessionId guardian, s.approved (sessionId, guardian) = true →
    ∃ session, s.session sessionId = some session ∧ 0 < session.approvalsCollected

omit [DecidableEq Addr] in
theorem tables_deployed : Tables (deployed Addr) where
  room _ := Nat.zero_le _
  approved _ _ h := absurd h Bool.false_ne_true

omit [DecidableEq Addr] in
theorem Tables.keep (h : Tables s) (hguardians : t.guardians = s.guardians)
    (hsession : t.session = s.session) (happroved : t.approved = s.approved) : Tables t := by
  constructor
  · rw [hguardians]
    exact h.room
  · rw [hsession, happroved]
    exact h.approved

theorem Effect.tables (h : Effect sha256 now s t call) (hs : Tables s)
    (hfresh : OpensFresh sha256 now s call) : Tables t := by
  cases h with
  | registered account key eq =>
    rw [eq]
    exact hs.keep rfl rfl rfl
  | proposed eq =>
    rw [eq]
    exact hs.keep rfl rfl rfl
  | rotated p found pending eq =>
    rw [eq]
    exact hs.keep rfl rfl rfl
  | revoked record found standing eq =>
    rw [eq]
    exact hs.keep rfl rfl rfl
  | @initiated account newKeyCommitment eq =>
    rw [eq]
    constructor
    · exact hs.room
    · intro sessionId guardian happroved
      obtain ⟨session, hfound, hpos⟩ := hs.approved sessionId guardian happroved
      by_cases hid : sessionId = sessionIdOf sha256 newKeyCommitment now
      · subst hid
        have hzero : session.approvalsCollected = 0 := by
          rw [hfresh account newKeyCommitment session rfl hfound]
          rfl
        omega
      · exact ⟨session, (Function.update_of_ne hid ..).trans hfound, hpos⟩
  | @approved guardian sessionId session found isOpen registered first eq =>
    rw [eq]
    constructor
    · exact hs.room
    · intro other approver happroved
      by_cases hid : other = sessionId
      · subst hid
        refine ⟨_, Function.update_self .., ?_⟩
        show 0 < min (session.approvalsCollected + 1) (2 ^ 32 - 1)
        omega
      · have hne : (other, approver) ≠ (sessionId, guardian) := by simp [hid]
        obtain ⟨stored, hfound, hpos⟩ := hs.approved other approver
          ((Function.update_of_ne hne ..).symm.trans happroved)
        exact ⟨stored, (Function.update_of_ne hid ..).trans hfound, hpos⟩
  | @recovered sessionId path session found isOpen quorum eq =>
    rw [eq]
    constructor
    · exact hs.room
    · intro other approver happroved
      obtain ⟨stored, hfound, hpos⟩ := hs.approved other approver happroved
      by_cases hid : other = sessionId
      · subst hid
        obtain rfl := Option.some.inj (found.symm.trans hfound)
        exact ⟨_, Function.update_self .., hpos⟩
      · exact ⟨stored, (Function.update_of_ne hid ..).trans hfound, hpos⟩
  | @guardianAdded account guardian room fresh eq =>
    rw [eq]
    constructor
    · intro other
      show (Function.update s.guardians account _ other).length ≤ maxGuardians
      by_cases hother : other = account
      · rw [hother, Function.update_self, List.length_append, List.length_singleton]
        exact room
      · rw [Function.update_of_ne hother]
        exact hs.room other
    · exact hs.approved

section Step

variable {sessionId : Hash} {opened : SocialRecoverySession Addr} {approvers : List Addr}
  {executions : List Hash}

omit [DecidableEq Addr] in
/-- A call that neither approves nor executes the session. -/
theorem Books.other (h : Books sessionId opened approvers executions s)
    (happrover : call.approverOf sessionId = none) (hexecution : call.executionOf sessionId = none)
    (hsession : t.session sessionId = s.session sessionId)
    (happroved : ∀ guardian, t.approved (sessionId, guardian) = s.approved (sessionId, guardian))
    (hguardians : ∀ guardian, guardian ∈ s.guardians opened.account →
      guardian ∈ t.guardians opened.account) :
    Books sessionId opened (approvers ++ (call.approverOf sessionId).toList)
      (executions ++ (call.executionOf sessionId).toList) t := by
  simp only [happrover, hexecution, Option.toList_none, List.append_nil]
  exact ⟨hsession.trans h.stands, h.distinct, fun guardian => by rw [happroved, h.counted],
    fun guardian hmem => hguardians guardian (h.registered guardian hmem), h.once⟩

omit [DecidableEq Addr] in
/-- The session is executed after none of the earlier calls did so. -/
theorem Books.unexecuted (h : Books sessionId opened approvers executions s)
    {session : SocialRecoverySession Addr} (hfound : s.session sessionId = some session)
    (hopen : session.executed = false) :
    session = opened.after approvers executions ∧ executions = [] := by
  obtain rfl := Option.some.inj (h.stands.symm.trans hfound)
  refine ⟨rfl, ?_⟩
  have hempty : executions.isEmpty = true := by
    rw [← Bool.not_eq_false']
    exact hopen
  exact List.isEmpty_iff.mp hempty

/-- The books after one more call. -/
theorem Effect.books (hx : Effect sha256 now s t call) (hs : Tables s)
    (hfresh : OpensFresh sha256 now s call)
    (h : Books sessionId opened approvers executions s) :
    Books sessionId opened (approvers ++ (call.approverOf sessionId).toList)
      (executions ++ (call.executionOf sessionId).toList) t := by
  cases hx with
  | registered account key eq =>
    rw [eq]
    exact h.other rfl rfl rfl (fun _ => rfl) fun _ hmem => hmem
  | proposed eq =>
    rw [eq]
    exact h.other rfl rfl rfl (fun _ => rfl) fun _ hmem => hmem
  | rotated p found pending eq =>
    rw [eq]
    exact h.other rfl rfl rfl (fun _ => rfl) fun _ hmem => hmem
  | revoked record found standing eq =>
    rw [eq]
    exact h.other rfl rfl rfl (fun _ => rfl) fun _ hmem => hmem
  | @initiated account newKeyCommitment eq =>
    rw [eq]
    refine h.other rfl rfl ?_ (fun _ => rfl) fun _ hmem => hmem
    by_cases hid : sessionId = sessionIdOf sha256 newKeyCommitment now
    · subst hid
      rw [h.stands, hfresh account newKeyCommitment _ rfl h.stands]
      exact Function.update_self ..
    · exact Function.update_of_ne hid ..
  | @approved guardian approved session found isOpen registered first eq =>
    rw [eq]
    by_cases hid : approved = sessionId
    · subst hid
      obtain ⟨rfl, hnone⟩ := h.unexecuted found isOpen.1
      have happrover : (Call.approveSocialRecovery guardian approved).approverOf approved =
          some guardian := if_pos rfl
      have hexecution : (Call.approveSocialRecovery guardian approved).executionOf approved =
          none := rfl
      rw [happrover, hexecution, Option.toList_some, Option.toList_none, List.append_nil]
      have hnew : guardian ∉ approvers := by
        rw [h.counted, first]
        exact Bool.false_ne_true
      have hdistinct : (approvers ++ [guardian]).Nodup := by
        apply List.Nodup.append h.distinct (List.nodup_singleton _)
        rw [List.disjoint_singleton]
        exact hnew
      have hregistered : ∀ other ∈ approvers ++ [guardian], other ∈ s.guardians opened.account := by
        intro other hmem
        rcases List.mem_append.mp hmem with hbefore | hnow
        · exact h.registered other hbefore
        · rw [List.mem_singleton.mp hnow]
          exact registered
      have hlength : (approvers ++ [guardian]).length ≤ maxGuardians :=
        ((hdistinct.subperm hregistered).length_le).trans (hs.room opened.account)
      constructor
      · show Function.update s.session approved _ approved = _
        rw [Function.update_self]
        rw [List.length_append, List.length_singleton, maxGuardians] at hlength
        have hcount : saturatingAddU32 approvers.length 1 = (approvers ++ [guardian]).length := by
          rw [List.length_append, List.length_singleton]
          exact min_eq_left (by omega)
        unfold SocialRecoverySession.after
        rw [hcount]
      · exact hdistinct
      · intro other
        show _ ↔ Function.update s.approved (approved, guardian) true (approved, other) = true
        rw [List.mem_append, List.mem_singleton, h.counted]
        by_cases hother : other = guardian
        · rw [hother, Function.update_self]
          simp
        · rw [Function.update_of_ne (by simp [hother])]
          simp [hother]
      · exact hregistered
      · exact h.once
    · refine h.other (if_neg hid) rfl (Function.update_of_ne (Ne.symm hid) ..) ?_
        fun _ hmem => hmem
      intro other
      exact Function.update_of_ne (by simp [Ne.symm hid]) ..
  | @recovered executed path session found isOpen quorum eq =>
    rw [eq]
    by_cases hid : executed = sessionId
    · subst hid
      obtain ⟨rfl, rfl⟩ := h.unexecuted found isOpen.1
      have happrover : (Call.executeSocialRecovery executed path : Call Addr).approverOf executed =
          none := rfl
      have hexecution : (Call.executeSocialRecovery executed path : Call Addr).executionOf
          executed = some path := if_pos rfl
      rw [happrover, hexecution, Option.toList_some, Option.toList_none, List.append_nil]
      exact ⟨Function.update_self .., h.distinct, h.counted, h.registered, le_rfl⟩
    · exact h.other rfl (if_neg hid) (Function.update_of_ne (Ne.symm hid) ..) (fun _ => rfl)
        fun _ hmem => hmem
  | @guardianAdded account guardian room fresh eq =>
    rw [eq]
    refine h.other rfl rfl rfl (fun _ => rfl) ?_
    intro other hmem
    show other ∈ Function.update s.guardians account _ opened.account
    by_cases haccount : opened.account = account
    · rw [haccount] at hmem ⊢
      rw [Function.update_self]
      exact List.mem_append_left _ hmem
    · rw [Function.update_of_ne haccount]
      exact hmem

end Step

section Run

variable {pre mid : List (Step Addr)} {newKeyCommitment : Hash}

/-- Every call of the run that opens a session does so under an id that is free. -/
def OpensApart (sha256 : List UInt8 → Hash) (steps : List (Step Addr)) : Prop :=
  ∀ pre step t, (machine sha256).Executes (deployed Addr) steps pre step t →
    OpensFresh sha256 step.1 (reached sha256 pre) step.2

theorem run_tables (hfresh : OpensApart sha256 steps) :
    ∀ pre, pre <+: steps → Tables (reached sha256 pre) :=
  Machine.run_invariant_of_executes tables_deployed fun pre step t hx hs =>
    (exec_effect hx.exec_eq).tables hs (hfresh pre step t hx)

theorem initiate_books
    (hx : (machine sha256).Executes (deployed Addr) steps pre
      (now, .initiateSocialRecovery account newKeyCommitment) t)
    (hfresh : OpensApart sha256 steps) :
    Books (sessionIdOf sha256 newKeyCommitment now) (.opened account newKeyCommitment now) [] []
      t := by
  have hs := run_tables hfresh pre ((List.prefix_append pre _).trans hx.snoc_prefix)
  have hexec : exec sha256 now (.initiateSocialRecovery account newKeyCommitment)
      (reached sha256 pre) = .ok t := hx.exec_eq
  cases exec_effect hexec with
  | initiated eq =>
    rw [eq]
    refine ⟨Function.update_self .., List.nodup_nil, ?_, ?_, Nat.zero_le _⟩
    · intro guardian
      refine iff_of_false List.not_mem_nil ?_
      intro happroved
      obtain ⟨session, hfound, hpos⟩ := hs.approved _ guardian happroved
      rw [hfresh pre _ t hx account newKeyCommitment session rfl hfound] at hpos
      exact lt_irrefl 0 hpos
    · intro guardian hmem
      cases hmem

/-- The calls of the run are books of the session from its opening on. -/
theorem run_books
    (hx : (machine sha256).Executes (deployed Addr) steps pre
      (now, .initiateSocialRecovery account newKeyCommitment) t)
    (hfresh : OpensApart sha256 steps)
    (hmid : pre ++ (now, .initiateSocialRecovery account newKeyCommitment) :: mid <+: steps) :
    Books (sessionIdOf sha256 newKeyCommitment now) (.opened account newKeyCommitment now)
      (approvers sha256 (sessionIdOf sha256 newKeyCommitment now) t mid)
      (executions sha256 (sessionIdOf sha256 newKeyCommitment now) t mid)
      ((machine sha256).run t mid) := by
  induction mid using List.reverseRecOn with
  | nil => exact initiate_books hx hfresh
  | append_singleton mid step ih =>
    have hsplit : pre ++ (now, .initiateSocialRecovery account newKeyCommitment) ::
          (mid ++ [step]) =
        (pre ++ (now, .initiateSocialRecovery account newKeyCommitment) :: mid) ++ [step] := by
      simp
    rw [hsplit] at hmid
    have hbefore := (List.prefix_append _ [step]).trans hmid
    have hrun : reached sha256
          (pre ++ (now, .initiateSocialRecovery account newKeyCommitment) :: mid) =
        (machine sha256).run t mid := by
      rw [reached, List.append_cons, Machine.run_append, hx.run_eq]
    have hbooks := ih hbefore
    unfold approvers executions at hbooks ⊢
    cases hstep : (machine sha256).exec step ((machine sha256).run t mid) with
    | error e =>
      rw [Machine.collect_snoc_error hstep, Machine.collect_snoc_error hstep, Machine.run_snoc,
        Machine.apply_error hstep]
      exact hbooks
    | ok v =>
      rw [Machine.collect_snoc_ok hstep, Machine.collect_snoc_ok hstep, Machine.run_snoc,
        Machine.apply_ok hstep]
      have hlater := hstep
      rw [← hrun] at hlater
      have hopens := hfresh _ step v ((Machine.executes_snoc hlater).mono hmid)
      have htables := run_tables hfresh _ hbefore
      rw [hrun] at hopens htables
      exact (exec_effect hstep).books htables hopens hbooks

theorem Books.law {sessionId : Hash}
    (h : Books sessionId (.opened account newKeyCommitment now) (approvers sha256 sessionId s mid)
      (executions sha256 sessionId s mid) ((machine sha256).run s mid)) :
    SessionLaw sha256 sessionId (.opened account newKeyCommitment now) s mid where
  stands := h.stands
  distinct := h.distinct
  registered := h.registered
  once := h.once
  approves time guardian := by
    rw [approve_isOk_iff]
    constructor
    · rintro ⟨session, hfound, hopen, hregistered, hfirst⟩
      obtain ⟨rfl, hnone⟩ := h.unexecuted hfound hopen.1
      refine ⟨hnone, hopen.2, hregistered, ?_⟩
      rw [h.counted, hfirst]
      exact Bool.false_ne_true
    · rintro ⟨hnone, htime, hregistered, hnew⟩
      rw [h.counted, Bool.not_eq_true] at hnew
      refine ⟨_, h.stands, ⟨?_, htime⟩, hregistered, hnew⟩
      rw [hnone]
      rfl
  completes time path := by
    rw [execute_isOk_iff]
    constructor
    · rintro ⟨session, hfound, hopen, hquorum⟩
      obtain ⟨rfl, hnone⟩ := h.unexecuted hfound hopen.1
      exact ⟨hnone, hopen.2, hquorum⟩
    · rintro ⟨hnone, htime, hquorum⟩
      refine ⟨_, h.stands, ⟨?_, htime⟩, hquorum⟩
      rw [hnone]
      rfl
  installs time path v hv := by
    cases exec_effect hv with
    | recovered session found isOpen quorum eq =>
      obtain rfl := Option.some.inj (h.stands.symm.trans found)
      rw [eq]
      exact ⟨_, install_current, rfl, rfl, rfl⟩

/-- A session that is stored was stored before, or the call has opened it. -/
theorem Effect.session_cases (h : Effect sha256 now s t call) {sessionId : Hash}
    {session : SocialRecoverySession Addr} (hfound : t.session sessionId = some session) :
    (∃ before, s.session sessionId = some before) ∨ ∃ account newKeyCommitment,
      call = .initiateSocialRecovery account newKeyCommitment ∧
        sessionId = sessionIdOf sha256 newKeyCommitment now := by
  cases h with
  | registered account key eq =>
    rw [eq] at hfound
    exact .inl ⟨session, hfound⟩
  | proposed eq =>
    rw [eq] at hfound
    exact .inl ⟨session, hfound⟩
  | rotated p found pending eq =>
    rw [eq] at hfound
    exact .inl ⟨session, hfound⟩
  | revoked record found standing eq =>
    rw [eq] at hfound
    exact .inl ⟨session, hfound⟩
  | @initiated account newKeyCommitment eq =>
    rw [eq] at hfound
    obtain ⟨rfl, -⟩ | ⟨-, hbefore⟩ := Table.update_eq_some_iff.mp hfound
    · exact .inr ⟨account, newKeyCommitment, rfl, rfl⟩
    · exact .inl ⟨session, hbefore⟩
  | approved before found isOpen registered first eq =>
    rw [eq] at hfound
    obtain ⟨rfl, -⟩ | ⟨-, hbefore⟩ := Table.update_eq_some_iff.mp hfound
    · exact .inl ⟨before, found⟩
    · exact .inl ⟨session, hbefore⟩
  | recovered before found isOpen quorum eq =>
    rw [eq] at hfound
    obtain ⟨rfl, -⟩ | ⟨-, hbefore⟩ := Table.update_eq_some_iff.mp hfound
    · exact .inl ⟨before, found⟩
    · exact .inl ⟨session, hbefore⟩
  | guardianAdded room fresh eq =>
    rw [eq] at hfound
    exact .inl ⟨session, hfound⟩

/-- What is stored as a session was opened by a call of the run. -/
def Opened (sha256 : List UInt8 → Hash) (steps : List (Step Addr)) (s : State Addr) : Prop :=
  ∀ sessionId session, s.session sessionId = some session →
    ∃ pre now account newKeyCommitment t, sessionId = sessionIdOf sha256 newKeyCommitment now ∧
      (machine sha256).Executes (deployed Addr) steps pre
        (now, .initiateSocialRecovery account newKeyCommitment) t

theorem run_opened (sha256 : List UInt8 → Hash) (steps : List (Step Addr)) :
    Opened sha256 steps (reached sha256 steps) := by
  refine Machine.run_history (P := Opened sha256) ?_ ?_ ?_ steps
  · intro sessionId session hfound
    cases hfound
  · intro pre step t hpre hx sessionId session hfound
    rcases (exec_effect hx).session_cases hfound with ⟨before, hbefore⟩ | ⟨account, newKeyCommitment,
      hcall, hid⟩
    · obtain ⟨early, now, account, newKeyCommitment, u, hid, hearly⟩ :=
        hpre sessionId before hbefore
      exact ⟨early, now, account, newKeyCommitment, u, hid, hearly.append [step]⟩
    · refine ⟨pre, step.1, account, newKeyCommitment, t, hid, ?_⟩
      rw [← hcall]
      exact Machine.executes_snoc hx
  · intro pre step e hpre herror sessionId session hfound
    obtain ⟨early, now, account, newKeyCommitment, t, hid, hearly⟩ :=
      hpre sessionId session hfound
    exact ⟨early, now, account, newKeyCommitment, t, hid, hearly.append [step]⟩

/-- Opening over another session breaks the law of that session. -/
theorem sessionsKept_iff : SessionsKept sha256 steps ↔ OpensApart sha256 steps := by
  constructor
  · rintro hkept pre ⟨now, call⟩ t hx account newKeyCommitment session rfl hfound
    obtain ⟨early, since, other, commitment, u, hid, hearly⟩ :=
      run_opened sha256 pre _ session hfound
    have hbefore : pre <+: steps := (List.prefix_append pre _).trans hx.snoc_prefix
    have hopening := hearly.mono hbefore
    obtain ⟨mid, rfl, -⟩ := hearly
    have hrun : reached sha256
          (early ++ (since, .initiateSocialRecovery other commitment) :: mid) =
        (machine sha256).run u mid := by
      rw [reached, List.append_cons, Machine.run_append, hopening.run_eq]
    have hstep : (machine sha256).exec (now, .initiateSocialRecovery account newKeyCommitment)
        ((machine sha256).run u mid) = .ok t := by
      rw [← hrun]
      exact hx.exec_eq
    have hagain : t.session (sessionIdOf sha256 newKeyCommitment now) =
        some (.opened account newKeyCommitment now) := by
      have hexec : exec sha256 now (.initiateSocialRecovery account newKeyCommitment)
          ((machine sha256).run u mid) = .ok t := hstep
      cases exec_effect hexec with
      | initiated eq =>
        rw [eq]
        exact Function.update_self ..
    have hstands := (hkept early mid other commitment since u hopening hbefore).stands
    have hlater := (hkept early (mid ++ [(now, .initiateSocialRecovery account newKeyCommitment)])
      other commitment since u hopening (by simpa using hx.snoc_prefix)).stands
    -- opening again is neither an approval nor an execution
    have happrovers : approvers sha256 (sessionIdOf sha256 commitment since) u
          (mid ++ [(now, .initiateSocialRecovery account newKeyCommitment)]) =
        approvers sha256 (sessionIdOf sha256 commitment since) u mid := by
      rw [approvers, Machine.collect_snoc_ok hstep]
      exact List.append_nil _
    have hexecutions : executions sha256 (sessionIdOf sha256 commitment since) u
          (mid ++ [(now, .initiateSocialRecovery account newKeyCommitment)]) =
        executions sha256 (sessionIdOf sha256 commitment since) u mid := by
      rw [executions, Machine.collect_snoc_ok hstep]
      exact List.append_nil _
    rw [happrovers, hexecutions, ← hstands, Machine.run_snoc, Machine.apply_ok hstep, ← hid,
      hagain, ← hrun, hfound] at hlater
    exact (Option.some.inj hlater).symm
  · intro hapart pre mid account newKeyCommitment now t hx hmid
    exact (run_books hx hapart hmid).law

end Run

end Sessions

/-- In every run, rotations install what was proposed, records keep their keys and sessions keep
their law, if and only if no rotation is executed after another registration, none registers
another key over the last version, and no session is opened over a different one. -/
theorem keyIntegrity_iff (sha256 : List UInt8 → Hash) (steps : List (Step Addr)) :
    RotationsExact sha256 steps ∧ RecordsKept sha256 steps ∧ SessionsKept sha256 steps ↔
      ∀ pre step t, (machine sha256).Executes (deployed Addr) steps pre step t →
        MeetsProposal (reached sha256 pre) step.2 ∧
          RegistersAnew step.1 (reached sha256 pre) step.2 ∧
          OpensFresh sha256 step.1 (reached sha256 pre) step.2 := by
  rw [rotationsExact_iff, recordsKept_iff, sessionsKept_iff]
  constructor
  · rintro ⟨hmeets, hanew, hapart⟩ pre step t hx
    exact ⟨hmeets pre step t hx, hanew pre step t hx, hapart pre step t hx⟩
  · intro hall
    exact ⟨fun pre step t hx => (hall pre step t hx).1,
      fun pre step t hx => (hall pre step t hx).2.1,
      fun pre step t hx => (hall pre step t hx).2.2⟩

/-- A rotation is proposed, another key registered, and then the rotation executed. -/
def overtakenRun : List (Step ℕ) :=
  [(1, .proposeKeyRotation 4 .ed25519 10 0), (2, .registerKey 4 ⟨.ed25519, 11, 0, false⟩),
    (3, .executeKeyRotation 4)]

/-- Sessions for two accounts are opened with one key in one ledger. -/
def twoOwnersRun : List (Step ℕ) :=
  [(1, .initiateSocialRecovery 4 10), (1, .initiateSocialRecovery 5 10)]

/-- The rotation that announced version 1 installs version 2, and the first session is gone. -/
theorem overtaken_and_overwritten : ¬ RotationsExact (fun _ => 0) overtakenRun ∧
    ∀ sha256, ¬ SessionsKept sha256 twoOwnersRun := by
  constructor
  · intro hexact
    have hx : (machine fun _ => 0).Executes (deployed ℕ) overtakenRun (overtakenRun.take 2)
        (3, .executeKeyRotation 4) (reached (fun _ => 0) overtakenRun) := ⟨_, rfl, rfl⟩
    exact absurd (hexact _ 3 4 _ _ hx rfl).1 (by decide)
  · intro sha256 hkept
    have hx : (machine sha256).Executes (deployed ℕ) twoOwnersRun (twoOwnersRun.take 1)
        (1, .initiateSocialRecovery 5 10) (reached sha256 twoOwnersRun) := ⟨_, rfl, rfl⟩
    have hsame := sessionsKept_iff.mp hkept _ _ _ hx 5 10 (.opened 4 10 1) rfl
      (Function.update_self ..)
    exact absurd (congrArg SocialRecoverySession.account hsame) (by decide)

end KeyManagement
