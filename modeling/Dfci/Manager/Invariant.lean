import Dfci.Manager.Progress

/-! # Invariants of a mailbox run

What applying a packet and completing one keep, `ProcessMailBoxes` keeps. -/

namespace Dfci

namespace Manager

section

variable {p : Platform} (holds : Manager → Prop)
  (applies : ∀ ui box mgr, holds mgr → holds (processApplyPacket p ui box mgr).2)
  (completes : ∀ applyStatus box mgr, holds mgr → holds (completePacket p applyStatus box mgr))
  (reboots : ∀ mgr, holds mgr → holds { mgr with rebootRequired := true })

include applies

theorem processPacket_invariant (ui : UserInterface) (box : MailBox) {mgr : Manager} (initially : holds mgr) :
    holds (processPacket p ui box mgr).2 := by
  rw [processPacket]
  split
  · exact initially
  · split
    · exact initially
    · split
      · exact initially
      · exact applies ui box mgr initially

theorem processInOrder_invariant (ui : UserInterface) (boxes : List MailBox) {mgr : Manager}
    (initially : holds mgr) : holds (processInOrder p ui boxes mgr).2 := by
  induction boxes generalizing mgr with
  | nil => exact initially
  | cons box boxes ih =>
    have processed := processPacket_invariant holds applies ui box initially
    rw [processInOrder]
    generalize processPacket p ui box mgr = answer at processed
    obtain ⟨status, after⟩ := answer
    cases status with
    | success => exact ih processed
    | error code =>
      simp only
      split <;> exact processed

include reboots in
theorem processUnEnrollPacket_invariant (ui : UserInterface) (box : MailBox) {mgr : Manager}
    (initially : holds mgr) : holds (processUnEnrollPacket p ui box mgr).2 := by
  have processed := processPacket_invariant holds applies ui box initially
  rw [processUnEnrollPacket]
  generalize processPacket p ui box mgr = answer at processed
  obtain ⟨status, after⟩ := answer
  cases status with
  | error code => exact processed
  | success =>
    simp only
    split
    · have applied := applies ui box after processed
      generalize processApplyPacket p ui box after = result at applied
      simp only
      split
      · exact applied
      · exact reboots _ applied
    · exact processed

omit applies
include completes

theorem completeAtomic_invariant (lkgStatus : EfiStatus) {mgr : Manager} (initially : holds mgr) :
    holds (completeAtomic p lkgStatus mgr) := by
  have enroll : ∀ box {mgr}, holds mgr → holds (completeEnroll p lkgStatus box mgr) := by
    intro box mgr held
    rw [completeEnroll]
    split
    · exact held
    · exact completes lkgStatus box mgr held
  have perms := completes lkgStatus .permissions _ (completes lkgStatus .permissions2 mgr initially)
  exact enroll .identity2 (enroll .identity perms)

include applies reboots

theorem processUnEnrolls_invariant (ui : UserInterface) (boxes : List MailBox) {mgr : Manager}
    (initially : holds mgr) : holds (processUnEnrolls p ui boxes mgr).2 := by
  induction boxes generalizing mgr with
  | nil => exact initially
  | cons box boxes ih =>
    rw [processUnEnrolls]
    split
    · have processed := processUnEnrollPacket_invariant holds applies reboots ui box initially
      generalize processUnEnrollPacket p ui box mgr = answer at processed
      obtain ⟨status, after⟩ := answer
      simp only
      split
      · exact processed
      · exact ih (completes status box after processed)
    · exact ih initially

theorem processCompletions_invariant (ui : UserInterface) (lkgStatus : EfiStatus) {mgr : Manager}
    (initially : holds mgr) : holds (processCompletions p ui lkgStatus mgr).2 := by
  apply processUnEnrolls_invariant holds applies completes reboots
  apply completes
  apply processPacket_invariant holds applies
  apply completes
  apply processPacket_invariant holds applies
  exact completeAtomic_invariant holds completes lkgStatus initially

theorem processMailBoxes_invariant (ui : UserInterface) {mgr : Manager} (initially : holds mgr) :
    holds (processMailBoxes p ui mgr).2 := by
  have processed := processInOrder_invariant holds applies ui atomicBoxes initially
  rw [processMailBoxes]
  generalize processInOrder p ui atomicBoxes mgr = answer at processed
  obtain ⟨ending, after⟩ := answer
  cases ending with
  | delayed => exact processed
  | completed => exact processCompletions_invariant holds applies completes reboots ui .success processed
  | failed code => exact processCompletions_invariant holds applies completes reboots ui (.error code) processed

end

/-! ## Invariants of the machine -/

/-- The record that `CompletePacket` passes on. A packet that was never processed is aborted with the others. -/
def completedData (applyStatus : EfiStatus) (data : Packet) : Packet :=
  if applyStatus.isError && data.state = .uninitialized then data.fail .aborted applyStatus else data

def completedOperation (applyStatus : EfiStatus) : LkgOperation :=
  if applyStatus.isError then .restore else .commit

theorem completePacket_eq (p : Platform) (applyStatus : EfiStatus) (box : MailBox) (mgr : Manager) :
    completePacket p applyStatus box mgr =
      if (mgr.data box).packet.isNone then mgr
      else
        let done := lkg p (completedOperation applyStatus) box mgr.machine
          (completedData applyStatus (mgr.data box))
        let mgr := { mgr with machine := done.machine }.setData box done.data
        if done.status.isError then mgr else mgr.setResult box (applyResult p box done.data) := rfl

theorem completePacket_absent {p : Platform} {applyStatus : EfiStatus} {box : MailBox} {mgr : Manager}
    (absent : (mgr.data box).packet.isSome = false) : completePacket p applyStatus box mgr = mgr := by
  rw [completePacket_eq, if_pos (by rw [← Option.not_isSome, absent]; rfl)]

theorem completePacket_machine {p : Platform} {applyStatus : EfiStatus} {box : MailBox} {mgr : Manager}
    (present : (mgr.data box).packet.isSome = true) : (completePacket p applyStatus box mgr).machine =
      (lkg p (completedOperation applyStatus) box mgr.machine
        (completedData applyStatus (mgr.data box))).machine := by
  have isSome : (mgr.data box).packet.isNone = false := by
    rw [Option.isNone_eq_false_iff]
    exact present
  rw [completePacket_eq, isSome]
  simp only [Bool.false_eq_true, if_false]
  split <;> rfl

theorem completePacket_boxes_other {p : Platform} {mgr : Manager} (applyStatus : EfiStatus)
    {box other : MailBox} (differs : other ≠ box) :
    (completePacket p applyStatus box mgr).boxes other = mgr.boxes other := by
  rw [completePacket_eq]
  split
  · rfl
  · simp only
    split <;> simp [setData, setResult, differs]

section

variable {p : Platform} (holds : Machine → Prop)
  (applies : ∀ ui box m data, holds m → holds (applyPacket p ui box m data).machine)
  (completes : ∀ op box m data, holds m → holds (lkg p op box m data).machine)

include applies in
theorem processApplyPacket_machine_invariant (ui : UserInterface) (box : MailBox) (mgr : Manager)
    (initially : holds mgr.machine) : holds (processApplyPacket p ui box mgr).2.machine := by
  rw [processApplyPacket_machine]
  exact applies ui box _ _ initially

include completes in
theorem completePacket_machine_invariant (applyStatus : EfiStatus) (box : MailBox) (mgr : Manager)
    (initially : holds mgr.machine) : holds (completePacket p applyStatus box mgr).machine := by
  cases present : (mgr.data box).packet.isSome with
  | false =>
    rw [completePacket_absent present]
    exact initially
  | true =>
    rw [completePacket_machine present]
    exact completes _ box _ _ initially

include applies completes in
theorem processMailBoxes_machine_invariant (ui : UserInterface) {mgr : Manager} (initially : holds mgr.machine) :
    holds (processMailBoxes p ui mgr).2.machine :=
  processMailBoxes_invariant (fun mgr => holds mgr.machine)
    (processApplyPacket_machine_invariant holds applies) (completePacket_machine_invariant holds completes)
    (fun _ held => held) ui initially

end

end Manager

end Dfci
