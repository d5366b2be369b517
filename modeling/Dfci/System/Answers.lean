import Dfci.Identity.CertInvariant
import Dfci.Manager.Reports
import Dfci.System.Steps

/-! # Every mailbox is answered

The result of an identity or permission packet is written when the packet is completed, and only if the commit or
restore that comes first went well. The result of a settings packet is written when it is applied, and only if the
manager came as far as loading its versions. -/

namespace Dfci

/-! ## Commits and restores that work -/

/-- The status of what the `LKG_Handler` of a mailbox does with its store when the packet is dirty: `SaveProvisionedData`
or `LoadProvisionedData` for an identity packet, `SaveToFlash` or `LoadFromFlash` for a permission packet. -/
def Machine.lkgStoreStatus (p : Platform) (m : Machine) (box : MailBox) (op : LkgOperation) :
    EfiStatus :=
  match box with
  | .identity | .identity2 =>
    match op with
    | .commit => (CertStore.saveProvisionedData p m.certFlash m.certs).1
    | .restore => (CertStore.loadProvisionedData m.certFlash m.certs).1
  | .permissions | .permissions2 =>
    match op with
    | .commit => (m.permissions.save p).1
    | .restore => (m.permissions.reload p).1
  | .settings | .settings2 => .success

/-- The step completes the packet of this mailbox, and there is nothing to commit or restore, or its store allows it. -/
def Machine.Completes (p : Platform) (box : MailBox) (m : Machine) : PacketStep → Prop
  | .apply .. => False
  | .complete op completed data =>
    completed = box ∧ (data.lkgDirty = true → m.lkgStoreStatus p box op = .success)

instance (p : Platform) (box : MailBox) (m : Machine) :
    (step : PacketStep) → Decidable (m.Completes p box step)
  | .apply .. => .isFalse id
  | .complete .. => inferInstanceAs (Decidable (_ ∧ _))

theorem lkg_success_iff (p : Platform) (op : LkgOperation) (box : MailBox) (m : Machine) (data : Packet) :
    (lkg p op box m data).status = .success ↔ (data.lkgDirty = true → m.lkgStoreStatus p box op = .success) := by
  have identity : (identityLkgHandler p op m data).status = .success ↔
      (data.lkgDirty = true → m.lkgStoreStatus p .identity op = .success) := by
    cases dirty : data.lkgDirty with
    | false => simp [identityLkgHandler, dirty]
    | true =>
      simp only [identityLkgHandler, dirty, Bool.not_true, Bool.false_eq_true, if_false, forall_const]
      cases op with
      | restore => exact Iff.rfl
      | commit =>
        simp only
        split <;> exact Iff.rfl
  have perms : (permissionsLkgHandler p op m.permissions data).1 = .success ↔
      (data.lkgDirty = true → m.lkgStoreStatus p .permissions op = .success) := by
    cases dirty : data.lkgDirty with
    | false => simp [permissionsLkgHandler, dirty]
    | true =>
      simp only [permissionsLkgHandler, dirty, Bool.not_true, Bool.false_eq_true, if_false, forall_const]
      cases op with
      | restore => exact Iff.rfl
      | commit =>
        simp only
        split <;> exact Iff.rfl
  cases box with
  | identity | identity2 => exact identity
  | permissions | permissions2 => exact perms
  | settings | settings2 => exact iff_of_true rfl fun _ => rfl

namespace Manager

/-! ## Identity and permission packets -/

structure Answering (p : Platform) (box : MailBox) (before : Manager) (steps : List PacketStep)
    (after : Manager) : Prop where
  spells : Spells p before steps after
  reportable : before.Reportable box → after.Reportable box
  answers : before.Reportable box → ((after.results box).isSome = true ↔ (before.results box).isSome = true ∨
    Runs.Sometime (Machine.take p) (Machine.Completes p box) before.machine steps)

section

variable {p : Platform} {box : MailBox}

section

variable (writes : ∀ box status, p.setResultVariable box status = .success) (atomic : box ∈ atomicBoxes)
include writes atomic

theorem applyResult_isSome {data : Packet} (initialized : data.state ≠ .uninitialized)
    (ready : data.state ≠ .dataDelayedProcessing) : (applyResult p box data).isSome = true := by
  cases box with
  | identity | identity2 => simp [applyResult, writes, initialized, ready, EfiStatus.isError]
  | permissions | permissions2 => simp [applyResult, writes, initialized, EfiStatus.isError]
  | settings | settings2 => exact absurd atomic (by decide)

theorem completePacket_answers {mgr : Manager} (reportable : mgr.Reportable box) (applyStatus : EfiStatus)
    (present : (mgr.data box).packet.isSome = true) :
    ((completePacket p applyStatus box mgr).results box).isSome = true ↔
      (mgr.results box).isSome = true ∨ ((completedData applyStatus (mgr.data box)).lkgDirty = true →
        mgr.machine.lkgStoreStatus p box (completedOperation applyStatus) = .success) := by
  obtain ⟨same, _, results⟩ := completePacket_self p reportable present applyStatus
  have left := lkg_reports p (completedOperation applyStatus) box mgr.machine (mgr.data box)
  rw [same, results, ← lkg_success_iff]
  generalize lkg p (completedOperation applyStatus) box mgr.machine (mgr.data box) = done at left ⊢
  cases status : done.status with
  | error code => simp [EfiStatus.isError]
  | success =>
    have state : done.data.state ≠ .uninitialized ∧ done.data.state ≠ .dataDelayedProcessing := by
      rcases left.2 with kept | settled
      · rw [kept]
        exact reportable present
      · exact PacketState.reported_of_isSettled settled
    have written := applyResult_isSome writes atomic state.1 state.2
    obtain ⟨reported, isResult⟩ := Option.isSome_iff_exists.mp written
    simp [EfiStatus.isError, isResult]

theorem Answering.traces : Traces p (Answering p box) where
  refl mgr := ⟨rfl, id, fun _ => by simp [Runs.Sometime]⟩
  trans := by
    intro before between after first second answering continues
    refine ⟨(Spells.traces p).trans answering.spells continues.spells,
      fun reportable => continues.reportable (answering.reportable reportable), fun reportable => ?_⟩
    rw [continues.answers (answering.reportable reportable), answering.answers reportable, Runs.sometime_append,
      answering.spells, or_assoc]
  applies ui other mgr := by
    refine ⟨(Spells.traces p).applies ui other mgr, fun reportable => reportable.processApplyPacket atomic ui other,
      fun _ => ?_⟩
    -- only a settings packet has its result written when it is applied
    have kept : (processApplyPacket p ui other mgr).2.results box = mgr.results box := by
      by_cases same : box = other
      · subst same
        rw [processApplyPacket_results]
        cases box with
        | identity | identity2 | permissions | permissions2 => simp [applyPacket]
        | settings | settings2 => exact absurd atomic (by decide)
      · exact processApplyPacket_results_other ui same
    simp [kept, Runs.Sometime, Machine.Completes]
  completes applyStatus other mgr present := by
    refine ⟨(Spells.traces p).completes applyStatus other mgr present,
      fun reportable => reportable.completePacket applyStatus other, fun reportable => ?_⟩
    by_cases same : box = other
    · subst same
      rw [completePacket_answers writes atomic reportable applyStatus present]
      simp [Runs.Sometime, Machine.Completes]
    · have kept : (completePacket p applyStatus other mgr).results box = mgr.results box :=
        completePacket_results_other applyStatus same
      simp [kept, Runs.Sometime, Machine.Completes, Ne.symm same]
  reboots answering := ⟨answering.spells, answering.reportable, answering.answers⟩
  atEndOfDxe answering := ⟨answering.spells, answering.reportable, answering.answers⟩

end

end

/-! ## The mailbox variables -/

/-- `gMailBoxPolicies` -/
def mailBoxPolicies : List MailBox := [.identity, .identity2, .permissions, .permissions2, .settings, .settings2]

/-- The loop of `DeleteAllMailboxes` over the mailbox variables that are there. -/
def deleteMailboxes (p : Platform) : List MailBox → EfiStatus → (MailBox → Bool) → EfiStatus × (MailBox → Bool)
  | [], returnStatus, present => (returnStatus, present)
  | box :: boxes, returnStatus, present =>
    let status := if present box then p.deleteMailbox box else .notFound
    deleteMailboxes p boxes (if status.isError && status ≠ .notFound then status else returnStatus)
      (if status.isError then present else Function.update present box false)

def deleteAllMailboxes (p : Platform) (present : MailBox → Bool) : EfiStatus × (MailBox → Bool) :=
  deleteMailboxes p mailBoxPolicies .success present

theorem deleteMailboxes_present (p : Platform) (boxes : List MailBox) (returnStatus : EfiStatus)
    (present : MailBox → Bool) (box : MailBox) : (deleteMailboxes p boxes returnStatus present).2 box = true ↔
      present box = true ∧ (box ∈ boxes → p.deleteMailbox box ≠ .success) := by
  induction boxes generalizing returnStatus present with
  | nil => simp [deleteMailboxes]
  | cons first boxes ih =>
    rw [deleteMailboxes]
    simp only [ih]
    by_cases same : box = first
    · subst same
      cases held : present box with
      | false => simp [held, EfiStatus.isError]
      | true => cases p.deleteMailbox box <;> simp [held, EfiStatus.isError]
    · have kept : ∀ status : EfiStatus,
          (if status.isError = true then present else Function.update present first false) box = present box := by
        intro status
        split
        · rfl
        · exact Function.update_of_ne same _ _
      rw [kept]
      simp [same]

end Manager

/-! ## The final exit -/

namespace Machine

/-- The state of `DfciManager` when `ProcessMailBoxes` reaches its final exit, at once or at EndOfDxe. -/
def finalExit (p : Platform) (early late : UserInterface) (read : MailBox → Except Nat (List Byte))
    (m : Machine) : Option Manager :=
  match Manager.processMailBoxes p early (.allocateManagerData p m read) with
  | (.delayed, waiting) =>
    if late.available then
      match Manager.processMailBoxes p late { waiting with processingAtEndOfDxe := true } with
      | (.delayed, _) => none
      | (_, done) => some done
    else
      none
  | (_, done) => some done

end Machine

namespace Manager

theorem processMailBoxes_exits {p : Platform} {ui : UserInterface} {mgr : Manager} {ending : PhaseEnd}
    {done : Manager} (exits : processMailBoxes p ui mgr = (ending, done)) (ends : ending ≠ .delayed) :
    ∃ lkgStatus, (processCompletions p ui lkgStatus (processInOrder p ui atomicBoxes mgr).2).2 = done := by
  rw [processMailBoxes] at exits
  generalize processInOrder p ui atomicBoxes mgr = answer at exits
  obtain ⟨ended, after⟩ := answer
  cases ended with
  | delayed =>
    cases exits
    exact absurd rfl ends
  | completed => exact ⟨.success, congrArg Prod.snd exits⟩
  | failed code => exact ⟨.error code, congrArg Prod.snd exits⟩

section

variable {p : Platform} {early late : UserInterface} {read : MailBox → Except Nat (List Byte)} {m : Machine}
  {done : Manager}

/-- The final exit is reached behind the completions of one of the two visits. -/
theorem finalExit_completions (exits : m.finalExit p early late read = some done) (holds : Manager → Prop)
    (applies : ∀ ui box mgr, holds mgr → holds (processApplyPacket p ui box mgr).2)
    (completes : ∀ applyStatus box mgr, holds mgr → holds (completePacket p applyStatus box mgr))
    (flags : ∀ mgr rebootRequired processingAtEndOfDxe, holds mgr →
      holds { mgr with rebootRequired := rebootRequired, processingAtEndOfDxe := processingAtEndOfDxe })
    (initially : holds (allocateManagerData p m read)) :
    ∃ ui lkgStatus mgr, holds mgr ∧ (processCompletions p ui lkgStatus mgr).2 = done := by
  have first := processMailBoxes_invariant holds applies completes (fun mgr held => flags mgr true _ held) early
    initially
  rw [Machine.finalExit] at exits
  cases answer : processMailBoxes p early (allocateManagerData p m read) with
  | mk ending after =>
    have exit : ending ≠ .delayed → after = done →
        ∃ ui lkgStatus mgr, holds mgr ∧ (processCompletions p ui lkgStatus mgr).2 = done := by
      rintro ends rfl
      obtain ⟨lkgStatus, completed⟩ := processMailBoxes_exits answer ends
      exact ⟨early, lkgStatus, _, processInOrder_invariant holds applies early atomicBoxes initially, completed⟩
    rw [answer] at exits first
    cases ending with
    | completed | failed code => exact exit (by simp) (Option.some_inj.mp exits)
    | delayed =>
      simp only at exits
      split at exits
      · have waiting := flags after after.rebootRequired true first
        cases second : processMailBoxes p late { after with processingAtEndOfDxe := true } with
        | mk ending last =>
          rw [second] at exits
          have ends : ending ≠ .delayed ∧ last = done := by
            cases ending with
            | completed | failed code => exact ⟨(by simp), Option.some_inj.mp exits⟩
            | delayed => cases exits
          obtain ⟨lkgStatus, completed⟩ := processMailBoxes_exits second ends.1
          exact ⟨late, lkgStatus, _, processInOrder_invariant holds applies late atomicBoxes waiting,
            completed.trans ends.2⟩
      · cases exits

theorem Traces.finalExit {relates : Manager → List PacketStep → Manager → Prop} (traces : Traces p relates)
    (exits : m.finalExit p early late read = some done) :
    relates (allocateManagerData p m read) (m.mailboxesSteps p early late read) done := by
  have first := traces.mailBoxes early (allocateManagerData p m read)
  rw [Machine.finalExit] at exits
  rw [Machine.mailboxesSteps]
  generalize processMailBoxes p early (allocateManagerData p m read) = answer at exits first ⊢
  obtain ⟨ending, after⟩ := answer
  cases ending with
  | completed | failed code =>
    cases exits
    exact traces.trans first (traces.refl _)
  | delayed =>
    simp only at exits ⊢
    split at exits
    · rename_i available
      have second := traces.mailBoxes late { after with processingAtEndOfDxe := true }
      rw [if_pos available]
      refine traces.trans (traces.atEndOfDxe first) ?_
      generalize processMailBoxes p late { after with processingAtEndOfDxe := true } = answer at exits second
      obtain ⟨ending, last⟩ := answer
      cases ending with
      | completed | failed code =>
        cases exits
        exact second
      | delayed => cases exits
    · cases exits

end

/-! ## The answers -/

/-- The session id and the status code of a result variable. Both are the record's when the result is written, and no
step changes the session id of a record. -/
structure ResultVariable where
  sessionId : Nat
  statusCode : EfiStatus
  deriving DecidableEq

def resultVariable (mgr : Manager) (box : MailBox) : Option ResultVariable :=
  (mgr.results box).map fun statusCode => ⟨(mgr.data box).sessionId, statusCode⟩

/-- Every mailbox that held a packet has its result, in the packet's session if the header could be decoded, and all
mailbox variables are gone. -/
structure AllAnswered (p : Platform) (read : MailBox → Except Nat (List Byte)) (present : MailBox → Bool)
    (done : Manager) : Prop where
  answered : ∀ box bytes, read box = .ok bytes → ∃ result, done.resultVariable box = some result ∧
    (HeaderDecodes box bytes → result.sessionId = PacketHeader.sessionId bytes)
  deleted : ∀ box, (deleteAllMailboxes p present).2 box = false

/-- Settings packets are decoded and pass `ValidateSettingsPacket`, one completion of every other packet finds a store
that can be committed or restored if that is needed, and no deletion of a mailbox is refused. -/
structure CanAnswer (p : Platform) (early late : UserInterface) (read : MailBox → Except Nat (List Byte))
    (present : MailBox → Bool) (m : Machine) : Prop where
  settings : ∀ box bytes, box = .settings ∨ box = .settings2 → read box = .ok bytes →
    Answerable (initializePacket p box (read box))
  completes : ∀ box ∈ atomicBoxes, ∀ bytes, read box = .ok bytes →
    Runs.Sometime (Machine.take p) (Machine.Completes p box) m
      (m.mailboxesSteps p early late read)
  deletes : ∀ box, present box = true → p.deleteMailbox box = .success

section

variable {p : Platform} {early late : UserInterface} {read : MailBox → Except Nat (List Byte)} {m : Machine}
  {done : Manager} (writes : ∀ box status, p.setResultVariable box status = .success)
  (exits : m.finalExit p early late read = some done)
include writes exits

theorem results_settings {box : MailBox} (isSettings : box = .settings ∨ box = .settings2) :
    (done.results box).isSome = true ↔ Answerable (initializePacket p box (read box)) := by
  obtain ⟨ui, lkgStatus, mgr, tracked, rfl⟩ := finalExit_completions exits
    (Tracked (initializePacket p box (read box)) box)
    (fun ui other _ held => held.processApplyPacket writes isSettings ui other)
    (fun applyStatus other _ held => held.completePacket isSettings applyStatus other)
    (fun _ _ _ held => held.imp (fun waiting => { waiting with }) fun processed => { processed with })
    (tracked_allocateManagerData p isSettings m read)
  exact (tracked.processCompletions writes isSettings ui lkgStatus).answers

theorem results_atomic {box : MailBox} (atomic : box ∈ atomicBoxes) :
    (done.results box).isSome = true ↔ Runs.Sometime (Machine.take p) (Machine.Completes p box) m
      (m.mailboxesSteps p early late read) := by
  have answers := ((Answering.traces writes atomic).finalExit exits).answers
    (reportable_allocateManagerData p box m read)
  simpa [allocateManagerData] using answers

theorem data_session (box : MailBox) :
    (done.data box).sessionId = (initializePacket p box (read box)).data.sessionId := by
  have initially : (allocateManagerData p m read).InSession
      fun box => (initializePacket p box (read box)).data.sessionId := fun _ => rfl
  suffices kept : ∀ session, (allocateManagerData p m read).InSession session → done.InSession session from
    kept _ initially box
  intro session initially
  have applies : ∀ ui box (mgr : Manager), mgr.InSession session →
      (processApplyPacket p ui box mgr).2.InSession session :=
    fun ui box _ held => held.processApplyPacket writes ui box
  have completes : ∀ applyStatus box (mgr : Manager), mgr.InSession session →
      (completePacket p applyStatus box mgr).InSession session :=
    fun applyStatus box _ held => held.completePacket applyStatus box
  obtain ⟨ui, lkgStatus, mgr, held, rfl⟩ := finalExit_completions exits (InSession session) applies completes
    (fun _ _ _ held => held) initially
  exact processCompletions_invariant (InSession session) applies completes (fun _ held => held) ui lkgStatus held

end

/-- At the final exit every mailbox is answered and gone exactly if the settings packets pass the first checks, no
packet's store fails it, and the mailboxes can be deleted. -/
theorem mailboxes_answered_iff {p : Platform} {early late : UserInterface}
    {read : MailBox → Except Nat (List Byte)} {m : Machine} {done : Manager}
    (writes : ∀ box status, p.setResultVariable box status = .success)
    (exits : m.finalExit p early late read = some done) (present : MailBox → Bool) :
    AllAnswered p read present done ↔ CanAnswer p early late read present m := by
  have deletes : (∀ box, (deleteAllMailboxes p present).2 box = false) ↔
      ∀ box, present box = true → p.deleteMailbox box = .success := by
    have all : ∀ box, box ∈ mailBoxPolicies := by
      intro box
      cases box <;> decide
    simp [deleteAllMailboxes, ← Bool.not_eq_true, deleteMailboxes_present, all]
  have written : ∀ box bytes, read box = .ok bytes →
      ((done.results box).isSome = true ↔ ∃ result, done.resultVariable box = some result ∧
        (HeaderDecodes box bytes → result.sessionId = PacketHeader.sessionId bytes)) := by
    intro box bytes held
    constructor
    · intro isSome
      obtain ⟨statusCode, isResult⟩ := Option.isSome_iff_exists.mp isSome
      refine ⟨⟨(done.data box).sessionId, statusCode⟩, by simp [resultVariable, isResult], fun decodes => ?_⟩
      rw [data_session writes exits box, held]
      exact initializePacket_session p box decodes
    · rintro ⟨result, isResult, _⟩
      obtain ⟨statusCode, isStatus, _⟩ := Option.map_eq_some_iff.mp isResult
      rw [isStatus]
      rfl
  constructor
  · intro answered
    have results : ∀ box bytes, read box = .ok bytes → (done.results box).isSome = true :=
      fun box bytes held => (written box bytes held).mpr (answered.answered box bytes held)
    exact ⟨fun box bytes isSettings held => (results_settings writes exits isSettings).mp (results box bytes held),
      fun box atomic bytes held => (results_atomic writes exits atomic).mp (results box bytes held),
      deletes.mp answered.deleted⟩
  · intro can
    refine ⟨fun box bytes held => (written box bytes held).mp ?_, deletes.mpr can.deletes⟩
    cases box with
    | settings => exact (results_settings writes exits (.inl rfl)).mpr (can.settings _ bytes (.inl rfl) held)
    | settings2 => exact (results_settings writes exits (.inr rfl)).mpr (can.settings _ bytes (.inr rfl) held)
    | identity | identity2 | permissions | permissions2 =>
      exact (results_atomic writes exits (by decide)).mpr (can.completes _ (by decide) bytes held)

def ownerAndSettings (payload : List Byte) : MailBox → Except Nat (List Byte)
  | .identity => .ok (enrollPacket 1 1 1)
  | .settings => .ok (packetBytes securedSettingsApplyVarSignature 0 payload [])
  | _ => .error 14

def ownerAndSettingsPresent : MailBox → Bool
  | .identity | .settings => true
  | _ => false

theorem mailboxes_answered_iff_owner :
    ∃ done, Machine.bootedMachine.finalExit keyedPlatform confirmingUser confirmingUser (ownerAndSettings [1]) =
      some done ∧ AllAnswered keyedPlatform (ownerAndSettings [1]) ownerAndSettingsPresent done := by
  have reaches : (Machine.bootedMachine.finalExit keyedPlatform confirmingUser confirmingUser
      (ownerAndSettings [1])).isSome = true := by
    decide +kernel
  obtain ⟨done, exits⟩ := Option.isSome_iff_exists.mp reaches
  refine ⟨done, exits, (mailboxes_answered_iff (fun _ _ => rfl) exits ownerAndSettingsPresent).mpr ⟨?_, ?_, ?_⟩⟩
  · rintro box bytes (rfl | rfl) held
    · exact ⟨by decide +kernel, by decide +kernel⟩
    · cases held
  · intro box atomic bytes held
    cases box with
    | identity => decide +kernel
    | identity2 | permissions | permissions2 => cases held
    | settings | settings2 => exact absurd atomic (by decide)
  · exact fun _ _ => rfl

def fullPlatform : Platform :=
  { keyedPlatform with
    setVariable := fun name _ => if name = .certificateStore then .outOfResources else .success }

/-- Settings without a payload are decoded, but no result is written for them. Nor is one for an Owner's certificate
that the user confirmed and that cannot be committed. -/
theorem mailboxes_not_answered :
    (∃ done, Machine.bootedMachine.finalExit keyedPlatform confirmingUser confirmingUser (ownerAndSettings []) =
      some done ∧ ¬ AllAnswered keyedPlatform (ownerAndSettings []) ownerAndSettingsPresent done) ∧
    ∃ done, Machine.bootedMachine.finalExit fullPlatform confirmingUser confirmingUser (ownerAndSettings [1]) =
      some done ∧ ¬ AllAnswered fullPlatform (ownerAndSettings [1]) ownerAndSettingsPresent done := by
  have unanswered : ∀ (p : Platform) (payload : List Byte) (box : MailBox) (bytes : List Byte),
      ownerAndSettings payload box = .ok bytes →
      ((Machine.bootedMachine.finalExit p confirmingUser confirmingUser (ownerAndSettings payload)).map
        fun done => done.results box) = some none →
      ∃ done, Machine.bootedMachine.finalExit p confirmingUser confirmingUser (ownerAndSettings payload) =
        some done ∧ ¬ AllAnswered p (ownerAndSettings payload) ownerAndSettingsPresent done := by
    intro p payload box bytes held none
    obtain ⟨done, exits, missing⟩ := Option.map_eq_some_iff.mp none
    refine ⟨done, exits, fun answered => ?_⟩
    obtain ⟨result, isResult, _⟩ := answered.answered box bytes held
    rw [resultVariable, missing] at isResult
    cases isResult
  exact ⟨unanswered keyedPlatform [] .settings _ rfl (by decide +kernel),
    unanswered fullPlatform [1] .identity _ rfl (by decide +kernel)⟩

end Manager

end Dfci
