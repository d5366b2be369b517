import Dfci.Identity.Enroll
import Dfci.Manager.Process

/-! # The first four packets, one after another -/

namespace Dfci

namespace Manager

/-! ## Frames -/

section

variable (mgr : Manager) (box : MailBox) (data : Packet) (result : Option EfiStatus)

@[simp] theorem setData_machine : (mgr.setData box data).machine = mgr.machine := rfl

@[simp] theorem setData_results : (mgr.setData box data).results = mgr.results := rfl

@[simp] theorem setData_processingAtEndOfDxe :
    (mgr.setData box data).processingAtEndOfDxe = mgr.processingAtEndOfDxe := rfl

@[simp] theorem setData_data_self : (mgr.setData box data).data box = data := by
  simp [Manager.data, setData]

@[simp] theorem setData_data_other {other : MailBox} (differs : other ≠ box) :
    (mgr.setData box data).data other = mgr.data other := by
  simp [Manager.data, setData, differs]

@[simp] theorem setData_decodeStatus (other : MailBox) :
    ((mgr.setData box data).boxes other).decodeStatus = (mgr.boxes other).decodeStatus := by
  by_cases same : other = box
  · subst same
    simp [setData]
  · simp [setData, same]

@[simp] theorem setResult_machine : (mgr.setResult box result).machine = mgr.machine := rfl

@[simp] theorem setResult_data (other : MailBox) : (mgr.setResult box result).data other = mgr.data other := rfl

@[simp] theorem setResult_boxes : (mgr.setResult box result).boxes = mgr.boxes := rfl

@[simp] theorem setResult_processingAtEndOfDxe :
    (mgr.setResult box result).processingAtEndOfDxe = mgr.processingAtEndOfDxe := rfl

end

/-! ## Packets that were not processed yet -/

/-- A mailbox as `InitializePacket` leaves it. -/
structure Fresh (box : MailBox) (managed : ManagerData) : Prop where
  clean : managed.data.lkgDirty = false
  token : managed.data.authToken = authTokenInvalid
  decoded : managed.decodeStatus = .success → managed.data.state = .dataPresent ∧ managed.data.statusCode = .success
  refused : managed.decodeStatus ≠ .success → managed.data.packet.isSome = true →
    managed.data.state.isSettled = true ∧ managed.data.statusCode.isError = true
  unenroll : managed.data.unenroll = true ↔
    box.isIdentity = true ∧ managed.decodeStatus = .success ∧ managed.data.payloadSize = 0

end Manager

theorem checkTarget_ok {id : Except EfiStatus (List Byte)} {name : List Byte} {data checked : Packet}
    (checks : checkTarget id name data = .ok checked) :
    ∃ wildcard, checked = { data with dfciWildcard := wildcard } := by
  simp only [checkTarget] at checks
  split at checks
  · cases checks
    exact ⟨true, rfl⟩
  · split at checks
    · cases checks
    · split at checks
      · cases checks
        exact ⟨data.dfciWildcard, rfl⟩
      · cases checks

theorem checkTargets_ok {p : Platform} {data checked : Packet} (checks : checkTargets p data = .ok checked) :
    ∃ wildcard, checked = { data with dfciWildcard := wildcard } := by
  simp only [checkTargets, Fallible.bind_eq_ok] at checks
  obtain ⟨first, manufacturer, second, product, serial⟩ := checks
  obtain ⟨_, rfl⟩ := checkTarget_ok manufacturer
  obtain ⟨_, rfl⟩ := checkTarget_ok product
  obtain ⟨wildcard, rfl⟩ := checkTarget_ok serial
  exact ⟨wildcard, rfl⟩

/-- What decoding leaves of a record: an error in it, or a packet that is ready to be processed. -/
theorem decodePacket_cases (p : Platform) (data : Packet) (isPacket : data.packet.isSome = true)
    (clean : data.lkgDirty = false) (token : data.authToken = authTokenInvalid) (enroll : data.unenroll = false)
    (unreported : data.statusCode = .success) :
    ∃ status record, decodePacket p data = (status, record) ∧ record.packet.isSome = true ∧
      record.lkgDirty = false ∧ record.authToken = authTokenInvalid ∧ record.unenroll = false ∧
      (status = .success → record.state = .dataPresent ∧ record.statusCode = .success) ∧
      (status ≠ .success → record.state.isSettled = true ∧ record.statusCode.isError = true) := by
  have fails : ∀ (failure : PacketError) (record : Packet), failure.status ≠ .success →
      (record.fail failure.state failure.status).state.isSettled = true ∧
      (record.fail failure.state failure.status).statusCode.isError = true :=
    fun failure _ _ => ⟨failure.isSettled, failure.isError⟩
  rw [decodePacket]
  split
  · rename_i failure _
    exact ⟨_, _, rfl, isPacket, clean, token, enroll, fun succeeds => absurd succeeds failure.status_ne_success, fails failure _⟩
  · split
    · rename_i failure _
      exact ⟨_, _, rfl, rfl, clean, token, enroll, fun succeeds => absurd succeeds failure.status_ne_success, fails failure _⟩
    · rename_i located locates
      have fields : located.packet.isSome = true ∧ located.lkgDirty = false ∧ located.authToken = authTokenInvalid ∧
          located.unenroll = false ∧ located.state = .dataPresent ∧ located.statusCode = .success := by
        simp only [locateSignature] at locates
        repeat' split at locates
        all_goals cases locates
        all_goals exact ⟨rfl, clean, token, enroll, rfl, unreported⟩
      cases checks : checkTargets p located with
      | error failure =>
        exact ⟨_, _, rfl, fields.1, fields.2.1, fields.2.2.1, fields.2.2.2.1,
          fun succeeds => absurd succeeds failure.status_ne_success, fails failure _⟩
      | ok checked =>
        obtain ⟨wildcard, rfl⟩ := checkTargets_ok checks
        exact ⟨_, _, rfl, fields.1, fields.2.1, fields.2.2.1, fields.2.2.2.1, fun _ => fields.2.2.2.2,
          fun failed => absurd rfl failed⟩

namespace Manager

theorem fresh_initializePacket (p : Platform) (box : MailBox) (read : Except Nat (List Byte)) :
    Fresh box (initializePacket p box read) := by
  cases read with
  | error code =>
    refine ⟨rfl, rfl, (by rintro ⟨⟩), (fun _ => by rintro ⟨⟩), (by rintro ⟨⟩), ?_⟩
    rintro ⟨_, decoded, _⟩
    cases decoded
  | ok bytes =>
    obtain ⟨status, record, decodes, isPacket, clean, token, enroll, works, fails⟩ :=
      decodePacket_cases p { Packet.allocated box.hdrSignature 2 with packet := some bytes }
        rfl rfl rfl rfl rfl
    cases isIdentity : box.isIdentity with
    | false =>
      simp only [initializePacket, isIdentity, Bool.false_eq_true, if_false, decodes]
      exact ⟨clean, token, works, fun failed _ => fails failed, by simp [enroll, isIdentity]⟩
    | true =>
      simp only [initializePacket, isIdentity, if_true, decodeIdentityPacket, decodes]
      cases status with
      | error code => exact ⟨clean, token, (by simp), fun failed _ => fails failed, by simp [enroll]⟩
      | success =>
        exact ⟨clean, token, works, fun failed => absurd rfl failed, by simp [isIdentity]⟩

theorem fresh_allocateManagerData (p : Platform) (m : Machine) (read : MailBox → Except Nat (List Byte))
    (box : MailBox) : Fresh box ((allocateManagerData p m read).boxes box) :=
  fresh_initializePacket p box (read box)

/-! ## What processing a packet leaves -/

section

variable (p : Platform) (ui : UserInterface) (box : MailBox) (mgr : Manager)

@[simp] theorem processApplyPacket_machine : (processApplyPacket p ui box mgr).2.machine =
      (applyPacket p ui box mgr.machine (mgr.data box)).machine := by
  simp only [processApplyPacket]
  split <;> rfl

@[simp] theorem processApplyPacket_data_other {other : MailBox} (differs : other ≠ box) :
    (processApplyPacket p ui box mgr).2.data other = mgr.data other := by
  simp only [processApplyPacket]
  split
  · simp [Manager.data, setData, setResult, differs]
  · simp [Manager.data, setData, setResult, differs]

theorem processApplyPacket_boxes_other {other : MailBox} (differs : other ≠ box) :
    (processApplyPacket p ui box mgr).2.boxes other = mgr.boxes other := by
  simp only [processApplyPacket]
  split
  · simp [setData, setResult, differs]
  · simp [setData, setResult, differs]

/-- The record of the packet: as it was applied, or back in line. -/
theorem processApplyPacket_data_self : (processApplyPacket p ui box mgr).2.data box =
      let applied := applyPacket p ui box mgr.machine (mgr.data box)
      if applied.status.isError = false ∧ applied.data.state = .dataDelayedProcessing then
        { applied.data with state := .dataPresent }
      else
        applied.data := by
  simp only [processApplyPacket]
  generalize applyPacket p ui box mgr.machine (mgr.data box) = applied
  cases failed : applied.status.isError with
  | true => simp [Manager.data, setData, setResult]
  | false =>
    by_cases waits : applied.data.state = .dataDelayedProcessing
    · simp [Manager.data, setData, setResult, waits]
    · simp [Manager.data, setData, setResult, waits]

theorem processApplyPacket_status : (processApplyPacket p ui box mgr).1 =
      let applied := applyPacket p ui box mgr.machine (mgr.data box)
      if applied.status.isError = false ∧ applied.data.state = .dataDelayedProcessing ∧
          mgr.processingAtEndOfDxe = false then
        .mediaChanged
      else
        applied.status := by
  simp only [processApplyPacket]
  generalize applyPacket p ui box mgr.machine (mgr.data box) = applied
  cases status : applied.status with
  | error code => simp
  | success =>
    by_cases waits : applied.data.state = .dataDelayedProcessing <;>
      cases mgr.processingAtEndOfDxe <;> simp [waits, setData, setResult]

theorem processApplyPacket_results : (processApplyPacket p ui box mgr).2.results = Function.update mgr.results box
        ((applyPacket p ui box mgr.machine (mgr.data box)).result <|> mgr.results box) := by
  simp only [processApplyPacket]
  split <;> rfl

end

end Manager

end Dfci
