import Dfci.Manager.Settled

/-! # The records that results are written from

A result carries the session and the status code of a packet's record. Here is what a run does to the session and to
the state of a record, and to the results of settings packets, which are written when the packet is applied. -/

namespace Dfci

/-! ## The record that a result is written from -/

theorem PacketState.reported_of_isSettled {state : PacketState} (settled : state.isSettled = true) :
    state ≠ .uninitialized ∧ state ≠ .dataDelayedProcessing := by
  refine ⟨?_, (PacketState.ne_of_isSettled settled).2⟩
  rintro rfl
  cases settled

structure Packet.Reports (before : Packet) (status : EfiStatus) (after : Packet) : Prop where
  session : after.sessionId = before.sessionId
  state : after.state = before.state ∨ after.state.isSettled = true ∨
    status = .success ∧ after.state = .dataDelayedProcessing

section

variable {before after : Packet} {status : EfiStatus}

theorem Packet.Reports.refl (data : Packet) (status : EfiStatus) : data.Reports status data :=
  ⟨rfl, .inl rfl⟩

theorem Packet.Reports.settled (session : after.sessionId = before.sessionId)
    (settled : after.state.isSettled = true) : before.Reports status after :=
  ⟨session, .inr (.inl settled)⟩

/-- What comes after a step and changes neither. -/
theorem Packet.Reports.congr {later : Packet} (reports : before.Reports status after)
    (session : later.sessionId = after.sessionId) (state : later.state = after.state) : before.Reports status later :=
  ⟨session.trans reports.session, by rw [state]; exact reports.state⟩

end

section

variable (p : Platform)

theorem validateAndAuthenticatePendingProvisionData_reports (m : Machine) (data : Packet) :
    let answer := validateAndAuthenticatePendingProvisionData p m data
    answer.2.2.sessionId = data.sessionId ∧ answer.2.2.state.isSettled = true := by
  have byUser : ∀ auth record permMask, record.sessionId = data.sessionId →
      (localMayProvision auth record permMask).2.2.sessionId = data.sessionId ∧
        (localMayProvision auth record permMask).2.2.state.isSettled = true := by
    intro auth record permMask session
    rw [localMayProvision]
    split <;> exact ⟨session, rfl⟩
  simp only [validateAndAuthenticatePendingProvisionData]
  split
  · exact ⟨rfl, rfl⟩
  · split
    · rename_i failure _
      exact ⟨rfl, failure.isSettled⟩
    · split
      · exact byUser _ _ _ rfl
      · split
        · exact ⟨rfl, rfl⟩
        · split
          · exact ⟨rfl, rfl⟩
          · exact byUser _ _ _ rfl

theorem approve_reports (ui : UserInterface) (auth : AuthState) (data : Packet) :
    let answer := approve p ui auth data
    answer.2.2.sessionId = data.sessionId ∧ answer.2.2.state.isSettled = true := by
  simp only [approve]
  split
  · exact ⟨rfl, rfl⟩
  · split
    · exact ⟨rfl, rfl⟩
    · simp only
      split <;> exact ⟨rfl, rfl⟩

theorem applyApproved_reports (m : Machine) (identity : Identity) (data : Packet) :
    let applied := applyApproved p m identity data
    applied.data.sessionId = data.sessionId ∧ applied.data.state.isSettled = true := by
  simp only [applyApproved, applyProvisionData]
  repeat' split
  all_goals exact ⟨rfl, rfl⟩

theorem applyNewIdentityPacket_reports (ui : UserInterface) (m : Machine) (data : Packet) :
    let applied := applyNewIdentityPacket p ui m data
    data.Reports applied.status applied.data := by
  have steps : data.Reports (applyIdentitySteps p ui m data).status
      (applyIdentitySteps p ui m data).data := by
    have validated := validateAndAuthenticatePendingProvisionData_reports p m data
    simp only [applyIdentitySteps]
    split
    · exact .refl data _
    · split
      · exact .settled rfl rfl
      · generalize validateAndAuthenticatePendingProvisionData p m data = answer at validated ⊢
        obtain ⟨status, auth, record⟩ := answer
        cases status with
        | error code => exact .settled validated.1 validated.2
        | success =>
          simp only
          split
          · exact ⟨validated.1, .inr (.inr ⟨rfl, rfl⟩)⟩
          · have approved := approve_reports p ui auth record
            generalize approve p ui auth record = answer at approved ⊢
            obtain ⟨status, auth, approval⟩ := answer
            have session := approved.1.trans validated.1
            cases status with
            | error code => exact .settled session approved.2
            | success =>
              cases isIdentity : approval.dfciIdentity with
              | none =>
                simp only [isIdentity]
                exact .settled session rfl
              | some identity =>
                simp only [isIdentity]
                have applied := applyApproved_reports p { m with auth := auth } identity approval
                exact .settled (applied.1.trans session) applied.2
  simp only [applyNewIdentityPacket, IdentityApplied.cleanup]
  split
  · exact steps
  · exact steps.congr rfl rfl

theorem cleanupToken_reports (auth : AuthState) (data : Packet) :
    (cleanupToken auth data).2.sessionId = data.sessionId ∧ (cleanupToken auth data).2.state = data.state := by
  rw [cleanupToken]
  split <;> exact ⟨rfl, rfl⟩

theorem applyNewPermissionsPacket_reports (certs : CertStore) (auth : AuthState) (perms : PermissionState)
    (data : Packet) :
    let applied := applyNewPermissionsPacket p certs auth perms data
    data.Reports applied.status applied.data := by
  have inXml : ∀ properties (record : Packet),
      let applied := applyPermissionsInXml p properties perms record
      applied.2.2.sessionId = record.sessionId ∧ applied.2.2.state.isSettled = true := by
    intro properties record
    simp only [applyPermissionsInXml]
    split
    · exact ⟨rfl, rfl⟩
    · split
      · exact ⟨rfl, rfl⟩
      · exact ⟨rfl, rfl⟩
      · split
        · rename_i failure _
          exact ⟨rfl, failure.isSettled⟩
        · exact ⟨rfl, rfl⟩
  have steps : data.Reports (applyPermissionsSteps p certs auth perms data).status
      (applyPermissionsSteps p certs auth perms data).data := by
    simp only [applyPermissionsSteps]
    split
    · exact .refl data _
    · split
      · exact .settled rfl rfl
      · rcases validateAndAuthenticatePermissions_cases p certs auth data with
          ⟨code, after, state, status, fails, settled, _⟩ | ⟨after, token, identity, works, _⟩
        · simp only [fails]
          exact .settled rfl settled
        · simp only [works]
          have applied := inXml (after.getIdentityProperties token)
            { data with state := .dataAuthenticated, authToken := token }
          generalize applyPermissionsInXml p _ perms _ = answer at applied ⊢
          obtain ⟨status, perms, record⟩ := answer
          cases status with
          | error code | success => exact .settled applied.1 applied.2
  have cleaned := cleanupToken_reports (applyPermissionsSteps p certs auth perms data).auth
    (applyPermissionsSteps p certs auth perms data).data
  exact steps.congr cleaned.1 cleaned.2

/-- A settings packet that is processed is settled, and its result is written unless it failed the first checks. -/
theorem applyNewSettingsPacket_reports (box : MailBox) (certs : CertStore) (store : Option PermissionStore)
    (auth : AuthState) (settings : SettingsState) (data : Packet)
    (writes : ∀ status, p.setResultVariable box status = .success) :
    let applied := SettingsState.applyNewSettingsPacket p box certs store auth settings data
    applied.data.sessionId = data.sessionId ∧
      if data.state = .dataPresent then
        applied.data.state.isSettled = true ∧ (applied.result.isSome = true ↔ validateSettingsPacket data = .success)
      else
        applied.status = .aborted ∧ applied.data.state = data.state ∧ applied.result = none := by
  have result : ∀ internal settings (record : Packet), record.state.isSettled = true →
      (SettingsState.updateSettingsResult p box internal settings record).2.isSome = true := by
    intro internal settings record settled
    have initialized := (PacketState.reported_of_isSettled settled).1
    simp only [SettingsState.updateSettingsResult, initialized, if_false, writes, EfiStatus.isError, Bool.false_eq_true]
    split <;> rfl
  have loaded : ∀ internal, let applied := SettingsState.applyLoaded p box certs store auth settings internal data
      applied.data.sessionId = data.sessionId ∧ applied.data.state.isSettled = true ∧ applied.result.isSome = true := by
    intro internal
    have validated : (validateAndAuthenticateSettings p certs auth data).2.2.sessionId = data.sessionId ∧
        (validateAndAuthenticateSettings p certs auth data).2.2.state.isSettled = true := by
      rw [validateAndAuthenticateSettings]
      split <;> exact ⟨rfl, rfl⟩
    simp only [SettingsState.applyLoaded]
    generalize validateAndAuthenticateSettings p certs auth data = answer at validated ⊢
    obtain ⟨status, auth, record⟩ := answer
    cases status with
    | error code => exact ⟨validated.1, validated.2, result _ _ _ validated.2⟩
    | success =>
      simp only
      split
      · rename_i failure _
        exact ⟨validated.1, failure.isSettled, result _ _ _ failure.isSettled⟩
      · exact ⟨validated.1, rfl, result _ _ _ rfl⟩
  simp only [SettingsState.applyNewSettingsPacket, SettingsState.PacketApplied.cleanup, ne_eq]
  by_cases present : data.state = .dataPresent
  · simp only [present, not_true, if_false, if_true]
    cases valid : validateSettingsPacket data with
    | error code =>
      have cleaned := cleanupToken_reports auth (data.fail .dataSystemError .aborted)
      refine ⟨cleaned.1, ?_, (by simp), (by simp)⟩
      rw [cleaned.2]
      rfl
    | success =>
      obtain ⟨session, settled, written⟩ := loaded (InternalData.loadOrInit p settings.flash)
      have cleaned := cleanupToken_reports
        (SettingsState.applyLoaded p box certs store auth settings
          (InternalData.loadOrInit p settings.flash) data).auth
        (SettingsState.applyLoaded p box certs store auth settings
          (InternalData.loadOrInit p settings.flash) data).data
      refine ⟨cleaned.1.trans session, ?_, fun _ => rfl, fun _ => written⟩
      rw [cleaned.2]
      exact settled
  · simp only [present, not_false_eq_true, if_true, if_false]
    have cleaned := cleanupToken_reports auth data
    exact ⟨cleaned.1, trivial, cleaned.2, trivial⟩

theorem lkg_reports (op : LkgOperation) (box : MailBox) (m : Machine) (data : Packet) :
    let done := lkg p op box m data
    done.data.sessionId = data.sessionId ∧ (done.data.state = data.state ∨ done.data.state.isSettled = true) := by
  have record := lkg_record p op box m data
  simp only
  generalize (lkg p op box m data).data = after at record
  cases record with
  | kept | clean => exact ⟨rfl, .inl rfl⟩
  | failed status => exact ⟨rfl, .inr rfl⟩

end

namespace Manager

section

variable {p : Platform} {mgr : Manager} {box other : MailBox}

theorem processApplyPacket_results_other (ui : UserInterface) (differs : other ≠ box) :
    (processApplyPacket p ui box mgr).2.results other = mgr.results other := by
  rw [processApplyPacket_results, Function.update_of_ne differs]

theorem completePacket_results_other (applyStatus : EfiStatus) (differs : other ≠ box) :
    (completePacket p applyStatus box mgr).results other = mgr.results other := by
  rw [completePacket_eq]
  split
  · rfl
  · simp only
    split
    · rfl
    · simp [setResult, differs]

end

/-! ## What a result is written from -/

def Reportable (mgr : Manager) (box : MailBox) : Prop :=
  (mgr.data box).packet.isSome = true →
    (mgr.data box).state ≠ .uninitialized ∧ (mgr.data box).state ≠ .dataDelayedProcessing

section

variable {p : Platform} {mgr : Manager} {box : MailBox}

theorem Reportable.processApplyPacket (atomic : box ∈ atomicBoxes) (reportable : mgr.Reportable box)
    (ui : UserInterface) (other : MailBox) : (processApplyPacket p ui other mgr).2.Reportable box := by
  by_cases same : box = other
  · subst same
    have packet := (applyPacket_follows p ui box atomic mgr.machine (mgr.data box)).packet
    have reports : (mgr.data box).Reports (applyPacket p ui box mgr.machine (mgr.data box)).status
        (applyPacket p ui box mgr.machine (mgr.data box)).data := by
      cases box with
      | identity | identity2 => exact applyNewIdentityPacket_reports p ui _ _
      | permissions | permissions2 => exact applyNewPermissionsPacket_reports p _ _ _ _
      | settings | settings2 => exact absurd atomic (by decide)
    rw [Reportable, processApplyPacket_data_self]
    generalize applyPacket p ui box mgr.machine (mgr.data box) = applied at packet reports
    simp only
    split
    · exact fun _ => ⟨(by simp), (by simp)⟩
    · rename_i queued
      intro present
      rw [packet] at present
      rcases reports.state with kept | settled | ⟨succeeds, waits⟩
      · rw [kept]
        exact reportable present
      · exact PacketState.reported_of_isSettled settled
      · exact absurd ⟨by rw [succeeds]; rfl, waits⟩ queued
  · rw [Reportable, processApplyPacket_data_other p ui other mgr same]
    exact reportable

/-- What `CompletePacket` leaves of a packet that can be reported on. -/
theorem completePacket_self (p : Platform) (reportable : mgr.Reportable box) (present : (mgr.data box).packet.isSome = true)
    (applyStatus : EfiStatus) :
    let done := lkg p (completedOperation applyStatus) box mgr.machine (mgr.data box)
    completedData applyStatus (mgr.data box) = mgr.data box ∧
      (completePacket p applyStatus box mgr).data box = done.data ∧
      (completePacket p applyStatus box mgr).results box =
        if done.status.isError then mgr.results box
        else applyResult p box done.data <|> mgr.results box := by
  have same : completedData applyStatus (mgr.data box) = mgr.data box := by
    rw [completedData]
    simp [(reportable present).1]
  have isSome : (mgr.data box).packet.isNone = false := Option.isNone_eq_false_iff.mpr present
  refine ⟨same, ?_⟩
  rw [completePacket_eq, isSome, same]
  simp only [Bool.false_eq_true, if_false]
  split
  · exact ⟨setData_data_self .., rfl⟩
  · refine ⟨(setResult_data ..).trans (setData_data_self ..), ?_⟩
    simp [setResult]

theorem Reportable.completePacket (reportable : mgr.Reportable box) (applyStatus : EfiStatus) (other : MailBox) :
    (completePacket p applyStatus other mgr).Reportable box := by
  by_cases same : box = other
  · subst same
    cases isPacket : (mgr.data box).packet.isSome with
    | false =>
      rw [completePacket_absent isPacket]
      exact reportable
    | true =>
      obtain ⟨_, data, _⟩ := completePacket_self p reportable isPacket applyStatus
      intro _
      rw [data]
      rcases (lkg_reports p (completedOperation applyStatus) box mgr.machine (mgr.data box)).2 with
        kept | settled
      · rw [kept]
        exact reportable isPacket
      · exact PacketState.reported_of_isSettled settled
  · have kept : (Manager.completePacket p applyStatus other mgr).data box = mgr.data box :=
      congrArg ManagerData.data (completePacket_boxes_other applyStatus same)
    rw [Reportable, kept]
    exact reportable

end

/-! ## Settings packets -/

/-- A settings packet that the decoder and `ValidateSettingsPacket` accept. -/
def Answerable (start : ManagerData) : Prop :=
  start.decodeStatus = .success ∧ validateSettingsPacket start.data = .success

structure Waiting (start : ManagerData) (box : MailBox) (mgr : Manager) : Prop where
  data : mgr.data box = start.data
  decodeStatus : (mgr.boxes box).decodeStatus = start.decodeStatus
  decoded : start.decodeStatus = .success
  packet : start.data.packet.isSome = true
  enroll : start.data.unenroll = false
  present : start.data.state = .dataPresent
  unanswered : mgr.results box = none

structure Processed (start : ManagerData) (box : MailBox) (mgr : Manager) : Prop where
  old : (mgr.data box).state ≠ .dataPresent
  answers : (mgr.results box).isSome = true ↔ Answerable start

def Tracked (start : ManagerData) (box : MailBox) (mgr : Manager) : Prop :=
  Waiting start box mgr ∨ Processed start box mgr

section

variable {p : Platform} (writes : ∀ box status, p.setResultVariable box status = .success)
  {start : ManagerData} {box : MailBox} {mgr : Manager}

theorem completePacket_settings (p : Platform) (mgr : Manager)
    (isSettings : box = .settings ∨ box = .settings2) (applyStatus : EfiStatus) :
    (completePacket p applyStatus box mgr).results box = mgr.results box ∧
      ((completePacket p applyStatus box mgr).data box = mgr.data box ∨
        (completePacket p applyStatus box mgr).data box = completedData applyStatus (mgr.data box)) := by
  have lkg_eq : ∀ data, lkg p (completedOperation applyStatus) box mgr.machine data =
      ⟨.success, mgr.machine, data, none⟩ := by
    intro data
    rcases isSettings with rfl | rfl <;> rfl
  have unwritten : ∀ data, applyResult p box data = none := by
    intro data
    rcases isSettings with rfl | rfl <;> rfl
  rw [completePacket_eq]
  split
  · exact ⟨rfl, .inl rfl⟩
  · simp only [lkg_eq, unwritten, EfiStatus.isError, Bool.false_eq_true, if_false]
    refine ⟨by simp [setResult], .inr ?_⟩
    exact (setResult_data ..).trans (setData_data_self ..)

theorem completePacket_decodeStatus (applyStatus : EfiStatus) (box other : MailBox) :
    ((completePacket p applyStatus box mgr).boxes other).decodeStatus = (mgr.boxes other).decodeStatus := by
  rw [completePacket_eq]
  split
  · rfl
  · simp only
    split
    · exact setData_decodeStatus ..
    · exact setData_decodeStatus ..

theorem Waiting.completePacket (isSettings : box = .settings ∨ box = .settings2) (waiting : Waiting start box mgr)
    (applyStatus : EfiStatus) (other : MailBox) : Waiting start box (completePacket p applyStatus other mgr) := by
  refine ⟨?_, (completePacket_decodeStatus applyStatus other box).trans waiting.decodeStatus, waiting.decoded,
    waiting.packet, waiting.enroll, waiting.present, ?_⟩
  · by_cases same : box = other
    · subst same
      have kept : completedData applyStatus (mgr.data box) = mgr.data box := by
        simp [completedData, waiting.data, waiting.present]
      rcases (completePacket_settings p mgr isSettings applyStatus).2 with data | data
      · exact data.trans waiting.data
      · exact (data.trans kept).trans waiting.data
    · exact (congrArg ManagerData.data (completePacket_boxes_other applyStatus same)).trans waiting.data
  · by_cases same : box = other
    · subst same
      exact (completePacket_settings p mgr isSettings applyStatus).1.trans waiting.unanswered
    · exact (completePacket_results_other applyStatus same).trans waiting.unanswered

theorem Processed.completePacket (isSettings : box = .settings ∨ box = .settings2)
    (processed : Processed start box mgr) (applyStatus : EfiStatus) (other : MailBox) :
    Processed start box (completePacket p applyStatus other mgr) := by
  by_cases same : box = other
  · subst same
    obtain ⟨results, data⟩ := completePacket_settings p mgr isSettings applyStatus
    refine ⟨?_, by rw [results]; exact processed.answers⟩
    rcases data with data | data
    · rw [data]
      exact processed.old
    · rw [data]
      exact (completedData_follows applyStatus (mgr.data box)).processed processed.old
  · have data : (Manager.completePacket p applyStatus other mgr).data box = mgr.data box :=
      congrArg ManagerData.data (completePacket_boxes_other applyStatus same)
    refine ⟨by rw [data]; exact processed.old, ?_⟩
    rw [completePacket_results_other applyStatus same]
    exact processed.answers

theorem Tracked.completePacket (isSettings : box = .settings ∨ box = .settings2) (tracked : Tracked start box mgr)
    (applyStatus : EfiStatus) (other : MailBox) : Tracked start box (completePacket p applyStatus other mgr) :=
  tracked.imp (fun waiting => waiting.completePacket isSettings applyStatus other)
    (fun processed => processed.completePacket isSettings applyStatus other)

include writes

section

variable (isSettings : box = .settings ∨ box = .settings2)
include isSettings

theorem applyPacket_settings (ui : UserInterface) (m : Machine) (data : Packet) :
    let applied := applyPacket p ui box m data
    applied.data.sessionId = data.sessionId ∧
      if data.state = .dataPresent then
        applied.data.state.isSettled = true ∧ (applied.result.isSome = true ↔ validateSettingsPacket data = .success)
      else
        applied.status = .aborted ∧ applied.data.state = data.state ∧ applied.result = none := by
  rcases isSettings with rfl | rfl
  · exact applyNewSettingsPacket_reports p _ _ _ _ _ _ (writes _)
  · exact applyNewSettingsPacket_reports p _ _ _ _ _ _ (writes _)

theorem Processed.processApplyPacket (processed : Processed start box mgr) (ui : UserInterface) (other : MailBox) :
    Processed start box (processApplyPacket p ui other mgr).2 := by
  by_cases same : box = other
  · subst same
    obtain ⟨_, reports⟩ := applyPacket_settings writes isSettings ui mgr.machine (mgr.data box)
    rw [if_neg processed.old] at reports
    obtain ⟨status, state, result⟩ := reports
    constructor
    · rw [processApplyPacket_data_self]
      simp only [status]
      rw [if_neg (by simp [EfiStatus.isError]), state]
      exact processed.old
    · rw [processApplyPacket_results, result]
      simpa using processed.answers
  · refine ⟨?_, ?_⟩
    · rw [processApplyPacket_data_other p ui other mgr same]
      exact processed.old
    · rw [processApplyPacket_results_other ui same]
      exact processed.answers

/-- A settings packet that is applied is processed. -/
theorem Waiting.applied (waiting : Waiting start box mgr) (ui : UserInterface) :
    Processed start box (processApplyPacket p ui box mgr).2 := by
  obtain ⟨_, reports⟩ := applyPacket_settings writes isSettings ui mgr.machine (mgr.data box)
  rw [waiting.data, if_pos waiting.present] at reports
  obtain ⟨settled, result⟩ := reports
  constructor
  · rw [processApplyPacket_data_self, waiting.data]
    have reported := PacketState.reported_of_isSettled settled
    simp only
    rw [if_neg fun waits => reported.2 waits.2]
    exact (PacketState.ne_of_isSettled settled).1
  · rw [processApplyPacket_results, waiting.unanswered, waiting.data]
    simp [result, Answerable, waiting.decoded]

theorem Tracked.processApplyPacket (tracked : Tracked start box mgr) (ui : UserInterface) (other : MailBox) :
    Tracked start box (processApplyPacket p ui other mgr).2 := by
  rcases tracked with waiting | processed
  · by_cases same : box = other
    · subst same
      exact .inr (waiting.applied writes isSettings ui)
    · refine .inl ⟨?_, ?_, waiting.decoded, waiting.packet, waiting.enroll, waiting.present, ?_⟩
      · exact (processApplyPacket_data_other p ui other mgr same).trans waiting.data
      · exact (processApplyPacket_decodeStatus p ui other mgr box).trans waiting.decodeStatus
      · exact (processApplyPacket_results_other ui same).trans waiting.unanswered
  · exact .inr (processed.processApplyPacket writes isSettings ui other)

theorem Tracked.processSettings (tracked : Tracked start box mgr) (ui : UserInterface) :
    Processed start box (processSettings p ui box mgr) := by
  apply Processed.completePacket isSettings
  rcases tracked with waiting | processed
  · have isSome : ¬ (mgr.data box).packet.isNone = true := by
      rw [waiting.data, Bool.not_eq_true, Option.isNone_eq_false_iff]
      exact waiting.packet
    rw [processPacket, if_neg isSome, waiting.decodeStatus, waiting.decoded]
    simp only [waiting.data, waiting.enroll, Bool.false_eq_true, if_false]
    exact waiting.applied writes isSettings ui
  · exact processPacket_invariant (Processed start box)
      (fun ui other _ held => held.processApplyPacket writes isSettings ui other) ui box processed

/-- The tail of a run leaves every settings packet processed. -/
theorem Tracked.processCompletions (tracked : Tracked start box mgr) (ui : UserInterface) (lkgStatus : EfiStatus) :
    Processed start box (processCompletions p ui lkgStatus mgr).2 := by
  have applies : ∀ ui other mgr, Processed start box mgr →
      Processed start box (Manager.processApplyPacket p ui other mgr).2 :=
    fun ui other _ held => held.processApplyPacket writes isSettings ui other
  have completes : ∀ applyStatus other mgr, Processed start box mgr →
      Processed start box (Manager.completePacket p applyStatus other mgr) :=
    fun applyStatus other _ held => held.completePacket isSettings applyStatus other
  have atomic : Tracked start box (completeAtomic p lkgStatus mgr) :=
    completeAtomic_invariant (Tracked start box) (fun applyStatus other _ held => held.completePacket isSettings
      applyStatus other) lkgStatus tracked
  apply processUnEnrolls_invariant (Processed start box) applies completes fun _ held => ⟨held.old, held.answers⟩
  rcases isSettings with rfl | rfl
  · have first := atomic.processSettings writes (.inl rfl) ui
    exact completes _ _ _ (processPacket_invariant (Processed start .settings) applies ui .settings2 first)
  · -- the first settings packet leaves the second as it is
    have second : Tracked start .settings2 (Manager.processSettings p ui .settings
        (completeAtomic p lkgStatus mgr)) :=
      (processPacket_invariant (Tracked start .settings2)
        (fun ui other _ held => held.processApplyPacket writes (.inr rfl) ui other) ui .settings atomic).completePacket
        (.inr rfl) .success .settings
    exact second.processSettings writes (.inr rfl) ui

end

end

/-! ## Sessions -/

def InSession (session : MailBox → Nat) (mgr : Manager) : Prop :=
  ∀ box, (mgr.data box).sessionId = session box

section

variable {p : Platform} {session : MailBox → Nat} {mgr : Manager}

theorem InSession.processApplyPacket (writes : ∀ box status, p.setResultVariable box status = .success)
    (inSession : mgr.InSession session) (ui : UserInterface) (box : MailBox) :
    (processApplyPacket p ui box mgr).2.InSession session := by
  intro other
  by_cases same : other = box
  · subst same
    have kept : (applyPacket p ui other mgr.machine (mgr.data other)).data.sessionId =
        (mgr.data other).sessionId := by
      cases other with
      | identity | identity2 => exact (applyNewIdentityPacket_reports p ui _ _).session
      | permissions | permissions2 => exact (applyNewPermissionsPacket_reports p _ _ _ _).session
      | settings => exact (applyPacket_settings writes (.inl rfl) ui _ _).1
      | settings2 => exact (applyPacket_settings writes (.inr rfl) ui _ _).1
    rw [processApplyPacket_data_self]
    simp only
    split <;> exact kept.trans (inSession other)
  · rw [processApplyPacket_data_other p ui box mgr same]
    exact inSession other

theorem InSession.completePacket (inSession : mgr.InSession session) (applyStatus : EfiStatus) (box : MailBox) :
    (completePacket p applyStatus box mgr).InSession session := by
  have completed : ∀ data, (completedData applyStatus data).sessionId = data.sessionId := by
    intro data
    rw [completedData]
    split <;> rfl
  have done := (lkg_reports p (completedOperation applyStatus) box mgr.machine
    (completedData applyStatus (mgr.data box))).1
  intro other
  by_cases same : other = box
  · subst same
    rw [completePacket_eq]
    split
    · exact inSession other
    · simp only
      split
      · rw [setData_data_self, done, completed]
        exact inSession other
      · rw [setResult_data, setData_data_self, done, completed]
        exact inSession other
  · have kept : (Manager.completePacket p applyStatus box mgr).data other = mgr.data other :=
      congrArg ManagerData.data (completePacket_boxes_other applyStatus same)
    rw [kept]
    exact inSession other

end

/-! ## As the mailboxes are read -/

/-- The checks of `DecodePacket` on the header pass, so that it takes the session id from it. -/
def HeaderDecodes (box : MailBox) (bytes : List Byte) : Prop :=
  checkHeader { Packet.allocated box.hdrSignature 2 with packet := some bytes } = .ok ()

section

variable (p : Platform) (box : MailBox)

theorem decodePacket_session {data : Packet} (decodes : checkHeader data = .ok ()) :
    (decodePacket p data).2.sessionId = PacketHeader.sessionId data.bytes := by
  rw [decodePacket, decodes]
  simp only
  split
  · rfl
  · rename_i located locates
    have session : located.sessionId = PacketHeader.sessionId data.bytes := by
      simp only [locateSignature] at locates
      repeat' split at locates
      all_goals cases locates
      all_goals rfl
    cases checks : checkTargets p located with
    | error failure => exact session
    | ok checked =>
      obtain ⟨wildcard, rfl⟩ := checkTargets_ok checks
      exact session

theorem initializePacket_session {bytes : List Byte} (decodes : HeaderDecodes box bytes) :
    (initializePacket p box (.ok bytes)).data.sessionId = PacketHeader.sessionId bytes := by
  have session := decodePacket_session p decodes
  simp only [initializePacket]
  split
  · rw [decodeIdentityPacket]
    generalize decodePacket p { Packet.allocated box.hdrSignature 2 with packet := some bytes } =
      answer at session ⊢
    obtain ⟨status, record⟩ := answer
    cases status with
    | error code | success => exact session
  · exact session

theorem reportable_allocateManagerData (m : Machine) (read : MailBox → Except Nat (List Byte)) :
    (allocateManagerData p m read).Reportable box := by
  have fresh := fresh_allocateManagerData p m read box
  intro present
  by_cases decoded : ((allocateManagerData p m read).boxes box).decodeStatus = .success
  · have state : ((allocateManagerData p m read).data box).state = .dataPresent := (fresh.decoded decoded).1
    rw [state]
    exact ⟨(by simp), (by simp)⟩
  · exact PacketState.reported_of_isSettled (fresh.refused decoded present).1

/-- A settings packet waits as it was decoded, or there is none that could be answered. -/
theorem tracked_allocateManagerData {box : MailBox} (isSettings : box = .settings ∨ box = .settings2) (m : Machine)
    (read : MailBox → Except Nat (List Byte)) :
    Tracked (initializePacket p box (read box)) box (allocateManagerData p m read) := by
  have fresh := fresh_initializePacket p box (read box)
  have packet : (∃ bytes, read box = .ok bytes) → (initializePacket p box (read box)).data.packet.isSome = true := by
    rintro ⟨bytes, isRead⟩
    obtain ⟨status, record, decodes, isPacket, _⟩ := decodePacket_cases p
      { Packet.allocated box.hdrSignature 2 with packet := some bytes } rfl rfl rfl rfl rfl
    have others : box.isIdentity = false := by
      rcases isSettings with rfl | rfl <;> rfl
    simp only [isRead, initializePacket, others, Bool.false_eq_true, if_false, decodes]
    exact isPacket
  cases isRead : read box with
  | error code =>
    refine .inr ⟨?_, ?_⟩
    · simp [Manager.data, allocateManagerData, isRead, initializePacket, Packet.allocated]
    · simp [allocateManagerData, Answerable, initializePacket]
  | ok bytes =>
    rw [← isRead]
    have present := packet ⟨bytes, isRead⟩
    by_cases decoded : (initializePacket p box (read box)).decodeStatus = .success
    · refine .inl ⟨rfl, rfl, decoded, present, ?_, (fresh.decoded decoded).1, rfl⟩
      rw [← Bool.not_eq_true, fresh.unenroll]
      rintro ⟨isIdentity, _⟩
      rcases isSettings with rfl | rfl <;> cases isIdentity
    · refine .inr ⟨(PacketState.ne_of_isSettled (fresh.refused decoded present).1).1, ?_⟩
      exact iff_of_false (by rintro ⟨⟩) fun answerable => decoded answerable.1

end

end Manager

end Dfci
