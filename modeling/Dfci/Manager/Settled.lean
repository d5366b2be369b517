import Dfci.Identity.Approval
import Dfci.Manager.Invariant

/-! # Packets that were processed before

A delayed run goes through all packets once more. A packet that was processed the first time is turned away then, and
with it all that come after it. -/

namespace Dfci

/-! ## The record of a packet -/

theorem PacketState.ne_of_isSettled {state : PacketState} (settled : state.isSettled = true) :
    state ≠ .dataPresent ∧ state ≠ .dataDelayedProcessing := by
  refine ⟨?_, ?_⟩
  · rintro rfl
    cases settled
  · rintro rfl
    cases settled

structure Packet.Follows (later earlier : Packet) : Prop where
  packet : later.packet = earlier.packet
  payloadSize : later.payloadSize = earlier.payloadSize
  unenroll : later.unenroll = earlier.unenroll
  processed : earlier.state ≠ .dataPresent → later.state ≠ .dataPresent

theorem Packet.Follows.refl (data : Packet) : data.Follows data := ⟨rfl, rfl, rfl, id⟩

theorem Packet.Follows.trans {first second third : Packet} (later : third.Follows second)
    (earlier : second.Follows first) : third.Follows first :=
  ⟨later.packet.trans earlier.packet, later.payloadSize.trans earlier.payloadSize,
    later.unenroll.trans earlier.unenroll, fun processed => later.processed (earlier.processed processed)⟩

theorem cleanupToken_follows (auth : AuthState) (data : Packet) : (cleanupToken auth data).2.Follows data := by
  rw [cleanupToken]
  split
  · exact .refl data
  · exact ⟨rfl, rfl, rfl, id⟩

theorem applyApproved_sameRequest (p : Platform) (m : Machine) (identity : Identity) (record : Packet) :
    let after := (applyApproved p m identity record).data
    after.packet = record.packet ∧ after.payloadSize = record.payloadSize ∧ after.unenroll = record.unenroll := by
  simp only [applyApproved, applyProvisionData]
  repeat' split
  all_goals exact ⟨rfl, rfl, rfl⟩

section

variable (p : Platform) (ui : UserInterface) (m : Machine) (data : Packet)

theorem applyNewIdentityPacket_processed (processed : data.state ≠ .dataPresent) :
    let applied := applyNewIdentityPacket p ui m data
    applied.status = .aborted ∧ (∃ auth, applied.machine = { m with auth := auth }) ∧ applied.data.Follows data ∧
      applied.data.lkgDirty = data.lkgDirty := by
  simp only [applyNewIdentityPacket, applyIdentitySteps, if_pos processed, IdentityApplied.cleanup]
  split
  · exact ⟨rfl, ⟨m.auth, rfl⟩, .refl data, rfl⟩
  · exact ⟨rfl, ⟨_, rfl⟩, ⟨rfl, rfl, rfl, id⟩, rfl⟩

theorem applyNewIdentityPacket_follows : (applyNewIdentityPacket p ui m data).data.Follows data := by
  by_cases present : data.state = .dataPresent
  · obtain ⟨minted, outcome⟩ := applyIdentitySteps_outcome p ui m data
    have steps : (applyIdentitySteps p ui m data).data.Follows data := by
      generalize applyIdentitySteps p ui m data = applied at outcome
      cases outcome with
      | stopped _ _ record _ _ _ _ _ same =>
        exact ⟨same.packet, same.payloadSize, same.unenroll, fun processed => absurd present processed⟩
      | approved identity _ auth record _ _ _ _ _ _ _ _ same =>
        obtain ⟨packet, payloadSize, unenroll⟩ :=
          applyApproved_sameRequest p { m with auth := auth } identity record
        exact ⟨packet.trans same.packet, payloadSize.trans same.payloadSize, unenroll.trans same.unenroll,
          fun processed => absurd present processed⟩
    rw [applyNewIdentityPacket, IdentityApplied.cleanup]
    split
    · exact steps
    · exact ⟨steps.packet, steps.payloadSize, steps.unenroll, steps.processed⟩
  · exact (applyNewIdentityPacket_processed p ui m data present).2.2.1

end

section

variable (p : Platform) (certs : CertStore) (auth : AuthState) (perms : PermissionState)
  (data : Packet)

theorem applyNewPermissionsPacket_processed (processed : data.state ≠ .dataPresent) :
    let applied := applyNewPermissionsPacket p certs auth perms data
    applied.status = .aborted ∧ applied.permissions = perms ∧ applied.data.lkgDirty = data.lkgDirty := by
  simp only [applyNewPermissionsPacket, applyPermissionsSteps, if_pos processed]
  exact ⟨rfl, rfl, cleanupToken_lkgDirty auth data⟩

/-- A permission packet is processed at once: its record is not new any more, and it never waits. -/
theorem applyNewPermissionsPacket_follows :
    let applied := applyNewPermissionsPacket p certs auth perms data
    applied.data.Follows data ∧ applied.data.state ≠ .dataPresent ∧
      (applied.status = .success → applied.data.state ≠ .dataDelayedProcessing) := by
  by_cases present : data.state = .dataPresent
  · have effect := applyNewPermissionsPacket_effect p certs auth perms present
    simp only
    generalize applyNewPermissionsPacket p certs auth perms data = applied at effect ⊢
    suffices ends : (applied.data.packet = data.packet ∧ applied.data.payloadSize = data.payloadSize ∧
        applied.data.unenroll = data.unenroll) ∧ applied.data.state.isSettled = true by
      obtain ⟨⟨packet, payloadSize, unenroll⟩, settled⟩ := ends
      obtain ⟨notPresent, notDelayed⟩ := PacketState.ne_of_isSettled settled
      exact ⟨⟨packet, payloadSize, unenroll, fun processed => absurd present processed⟩, notPresent, fun _ => notDelayed⟩
    cases effect with
    | rejected _ _ _ same settled | reloaded _ _ _ same settled | applied _ _ _ _ _ _ _ same settled =>
      exact ⟨⟨same.packet, same.payloadSize, same.unenroll⟩, settled⟩
  · have steps : applyPermissionsSteps p certs auth perms data = ⟨.aborted, auth, perms, data⟩ := by
      rw [applyPermissionsSteps, if_pos present]
    have follows := cleanupToken_follows auth data
    simp only [applyNewPermissionsPacket, steps, PermissionsApplied.cleanup]
    exact ⟨follows, follows.processed present, (by simp)⟩

end

inductive LkgRecord (data : Packet) : Packet → Prop
  | kept : LkgRecord data data
  | clean : LkgRecord data { data with lkgDirty := false }
  | failed (status : EfiStatus) :
      LkgRecord data (Packet.fail { data with lkgDirty := false } .dataSystemError status)

theorem LkgRecord.ended (data : Packet) (status : EfiStatus) :
    LkgRecord data (if status.isError then Packet.fail { data with lkgDirty := false } .dataSystemError status
      else { data with lkgDirty := false }) := by
  split
  · exact .failed status
  · exact .clean

theorem lkg_record (p : Platform) (op : LkgOperation) (box : MailBox) (m : Machine)
    (data : Packet) : LkgRecord data (lkg p op box m data).data := by
  cases box with
  | identity | identity2 =>
    simp only [lkg, identityLkgHandler]
    split
    · exact .kept
    · exact .ended data _
  | permissions | permissions2 =>
    simp only [lkg, permissionsLkgHandler]
    split
    · exact .kept
    · exact .ended data _
  | settings | settings2 => exact .kept

theorem lkg_follows (p : Platform) (op : LkgOperation) (box : MailBox) (m : Machine)
    (data : Packet) : (lkg p op box m data).data.Follows data := by
  have record := lkg_record p op box m data
  generalize (lkg p op box m data).data = after at record
  cases record with
  | kept => exact .refl data
  | clean => exact ⟨rfl, rfl, rfl, id⟩
  | failed status => exact ⟨rfl, rfl, rfl, fun _ => (by rintro ⟨⟩)⟩

namespace Manager

theorem completedData_follows (applyStatus : EfiStatus) (data : Packet) :
    (completedData applyStatus data).Follows data := by
  rw [completedData]
  split
  · exact ⟨rfl, rfl, rfl, fun _ => (by rintro ⟨⟩)⟩
  · exact .refl data

/-! ## The mailboxes over a run -/

def Follows (later earlier : Manager) : Prop :=
  ∀ box ∈ atomicBoxes, (later.data box).Follows (earlier.data box) ∧
    (later.boxes box).decodeStatus = (earlier.boxes box).decodeStatus

theorem Follows.refl (mgr : Manager) : mgr.Follows mgr := fun _ _ => ⟨.refl _, rfl⟩

theorem Follows.trans {first second third : Manager} (later : third.Follows second) (earlier : second.Follows first) :
    third.Follows first := fun box atomic =>
  ⟨(later box atomic).1.trans (earlier box atomic).1, (later box atomic).2.trans (earlier box atomic).2⟩

section

variable (p : Platform) (ui : UserInterface) (box : MailBox) (mgr : Manager)

theorem processApplyPacket_decodeStatus (other : MailBox) :
    ((processApplyPacket p ui box mgr).2.boxes other).decodeStatus = (mgr.boxes other).decodeStatus := by
  simp only [processApplyPacket]
  split
  · simp
  · simp

theorem processApplyPacket_processingAtEndOfDxe :
    (processApplyPacket p ui box mgr).2.processingAtEndOfDxe = mgr.processingAtEndOfDxe := by
  simp only [processApplyPacket]
  split <;> rfl

theorem applyPacket_follows (atomic : box ∈ atomicBoxes) (m : Machine) (data : Packet) :
    (applyPacket p ui box m data).data.Follows data := by
  have identity := applyNewIdentityPacket_follows p ui m data
  have perms := (applyNewPermissionsPacket_follows p m.certs m.auth m.permissions data).1
  cases box with
  | identity | identity2 => exact identity
  | permissions | permissions2 => exact perms
  | settings | settings2 => exact absurd atomic (by decide)

/-- A packet that was processed before is turned away, and leaves nothing but tokens. -/
theorem applyPacket_processed (atomic : box ∈ atomicBoxes) (m : Machine) {data : Packet}
    (processed : data.state ≠ .dataPresent) :
    let applied := applyPacket p ui box m data
    applied.status = .aborted ∧ (∃ auth, applied.machine = { m with auth := auth }) ∧
      applied.data.lkgDirty = data.lkgDirty := by
  have identity := applyNewIdentityPacket_processed p ui m data processed
  have perms := applyNewPermissionsPacket_processed p m.certs m.auth m.permissions data
    processed
  cases box with
  | identity | identity2 => exact ⟨identity.1, identity.2.1, identity.2.2.2⟩
  | permissions | permissions2 =>
    refine ⟨perms.1, ⟨(applyNewPermissionsPacket p m.certs m.auth m.permissions data).auth, ?_⟩, perms.2.2⟩
    simp only [applyPacket, perms.2.1]
  | settings | settings2 => exact absurd atomic (by decide)

theorem processApplyPacket_follows : (processApplyPacket p ui box mgr).2.Follows mgr := by
  intro other atomic
  refine ⟨?_, processApplyPacket_decodeStatus p ui box mgr other⟩
  by_cases same : other = box
  · subst same
    have follows := applyPacket_follows p ui other atomic mgr.machine (mgr.data other)
    rw [processApplyPacket_data_self]
    simp only
    split
    · -- only a packet that was new is put back in line
      rename_i waits
      refine ⟨follows.packet, follows.payloadSize, follows.unenroll, fun processed => ?_⟩
      rw [(applyPacket_processed p ui other atomic mgr.machine processed).1] at waits
      cases waits.1
    · exact follows
  · rw [processApplyPacket_data_other p ui box mgr same]
    exact .refl _

theorem completePacket_follows (applyStatus : EfiStatus) : (completePacket p applyStatus box mgr).Follows mgr := by
  rw [completePacket_eq]
  split
  · exact .refl mgr
  · have done := (lkg_follows p (completedOperation applyStatus) box mgr.machine
      (completedData applyStatus (mgr.data box))).trans (completedData_follows applyStatus (mgr.data box))
    generalize lkg p (completedOperation applyStatus) box mgr.machine
      (completedData applyStatus (mgr.data box)) = after at done ⊢
    have stored : ({ mgr with machine := after.machine }.setData box after.data).Follows mgr := by
      intro other _
      refine ⟨?_, setData_decodeStatus _ _ _ _⟩
      by_cases same : other = box
      · subst same
        rw [setData_data_self]
        exact done
      · rw [setData_data_other _ _ _ same]
        exact .refl _
    simp only
    split
    · exact stored
    · exact stored

end

section

variable {p : Platform} {start mgr : Manager}

section

variable (follows : mgr.Follows start) (ui : UserInterface)
include follows

theorem Follows.processPacket (box : MailBox) : (processPacket p ui box mgr).2.Follows start :=
  processPacket_invariant (fun later => later.Follows start)
    (fun ui box later held => (processApplyPacket_follows p ui box later).trans held) ui box follows

theorem Follows.processInOrder (boxes : List MailBox) : (processInOrder p ui boxes mgr).2.Follows start :=
  processInOrder_invariant (fun later => later.Follows start)
    (fun ui box later held => (processApplyPacket_follows p ui box later).trans held) ui boxes follows

theorem Follows.processCompletions (lkgStatus : EfiStatus) :
    (processCompletions p ui lkgStatus mgr).2.Follows start :=
  processCompletions_invariant (fun later => later.Follows start)
    (fun ui box later held => (processApplyPacket_follows p ui box later).trans held)
    (fun applyStatus box later held => (completePacket_follows p box later applyStatus).trans held)
    (fun _ held => held) ui lkgStatus follows

theorem Follows.processMailBoxes : (processMailBoxes p ui mgr).2.Follows start :=
  processMailBoxes_invariant (fun later => later.Follows start)
    (fun ui box later held => (processApplyPacket_follows p ui box later).trans held)
    (fun applyStatus box later held => (completePacket_follows p box later applyStatus).trans held)
    (fun _ held => held) ui follows

end

end

/-! ## Packets that cannot be applied any more -/

def Passed (managed : ManagerData) : Prop :=
  managed.data.packet = none ∨ managed.decodeStatus = .success ∧ managed.data.unenroll = true

def Spent (managed : ManagerData) : Prop :=
  managed.data.packet.isSome = true ∧
    (managed.decodeStatus ≠ .success ∨ managed.data.unenroll = false ∧ managed.data.state ≠ .dataPresent)

def Exhausted (mgr : Manager) : List MailBox → Prop
  | [] => True
  | box :: boxes => Spent (mgr.boxes box) ∨ Passed (mgr.boxes box) ∧ Exhausted mgr boxes

theorem Exhausted.follows {later earlier : Manager} {boxes : List MailBox} (follows : later.Follows earlier)
    (atomic : ∀ box ∈ boxes, box ∈ atomicBoxes) (exhausted : earlier.Exhausted boxes) : later.Exhausted boxes := by
  induction boxes with
  | nil => trivial
  | cons box boxes ih =>
    obtain ⟨isAtomic, atomic⟩ := List.forall_mem_cons.mp atomic
    obtain ⟨data, decodeStatus⟩ := follows box isAtomic
    rcases exhausted with ⟨present, spent⟩ | ⟨passed, rest⟩
    · refine .inl ⟨?_, ?_⟩
      · exact (congrArg Option.isSome data.packet).trans present
      · rw [decodeStatus]
        exact spent.imp id fun enroll => ⟨data.unenroll.trans enroll.1, data.processed enroll.2⟩
    · refine .inr ⟨?_, ih atomic rest⟩
      rw [Passed, decodeStatus]
      exact passed.imp data.packet.trans fun unenroll => ⟨unenroll.1, data.unenroll.trans unenroll.2⟩

/-- A new packet is processed, or waits for the user. -/
theorem applyPacket_turn (p : Platform) (ui : UserInterface) (m : Machine) {box : MailBox}
    {data : Packet} (atomic : box ∈ atomicBoxes) (isNew : data.state = .dataPresent)
    (enrolls : box.isIdentity = true → data.payloadSize ≠ 0) :
    let applied := applyPacket p ui box m data
    applied.status = .success ∧ applied.data.state = .dataDelayedProcessing ∧ box.isIdentity = true ∨
      applied.data.state ≠ .dataPresent ∧ (applied.status = .success → applied.data.state ≠ .dataDelayedProcessing) := by
  have identity : data.payloadSize ≠ 0 → let applied := applyNewIdentityPacket p ui m data
      applied.status = .success ∧ applied.data.state = .dataDelayedProcessing ∨
        applied.data.state ≠ .dataPresent ∧
          (applied.status = .success → applied.data.state ≠ .dataDelayedProcessing) := by
    intro enroll
    have effect := applyNewIdentityPacket_enroll p ui m isNew enroll
    generalize applyNewIdentityPacket p ui m data = applied at effect
    cases effect with
    | rejected _ _ record _ settled => exact .inr ⟨(PacketState.ne_of_isSettled settled).1, (by simp)⟩
    | delayed _ record _ waits => exact .inl ⟨rfl, waits⟩
    | installed _ _ _ _ _ record _ _ _ _ _ settled =>
      obtain ⟨isOld, ends⟩ := PacketState.ne_of_isSettled settled
      exact .inr ⟨isOld, fun _ => ends⟩
  have perms := (applyNewPermissionsPacket_follows p m.certs m.auth m.permissions data).2
  cases box with
  | identity | identity2 =>
    exact (identity (enrolls rfl)).imp (fun waits => ⟨waits.1, waits.2, rfl⟩) id
  | permissions | permissions2 => exact .inr perms
  | settings | settings2 => exact absurd atomic (by decide)

section

variable {p : Platform} (ui : UserInterface) {mgr : Manager}

theorem processPacket_passed {box : MailBox} (passed : Passed (mgr.boxes box)) :
    processPacket p ui box mgr = (.success, mgr) := by
  rcases passed with empty | ⟨decoded, unenroll⟩
  · have isNone : (mgr.data box).packet.isNone = true := Option.isNone_iff_eq_none.mpr empty
    rw [processPacket, if_pos isNone]
  · have isUnenroll : (mgr.data box).unenroll = true := unenroll
    rw [processPacket]
    split
    · rfl
    · rw [decoded]

theorem processPacket_spent {box : MailBox} (atomic : box ∈ atomicBoxes) (spent : Spent (mgr.boxes box)) :
    ∃ code after auth, processPacket p ui box mgr = (.error code, after) ∧
      after.machine = { mgr.machine with auth := auth } := by
  obtain ⟨present, reason⟩ := spent
  have notNone : ¬ (mgr.data box).packet.isNone = true := by
    rw [Option.isNone_iff_eq_none]
    exact Option.isSome_iff_ne_none.mp present
  rw [processPacket, if_neg notNone]
  cases decoded : (mgr.boxes box).decodeStatus with
  | error code => exact ⟨code, mgr, mgr.machine.auth, rfl, rfl⟩
  | success =>
    obtain ⟨enroll, processed⟩ := reason.resolve_left fun failed => failed decoded
    have isEnroll : (mgr.data box).unenroll = false := enroll
    have isProcessed : (mgr.data box).state ≠ .dataPresent := processed
    simp only [isEnroll, Bool.false_eq_true, if_false]
    obtain ⟨aborts, ⟨auth, kept⟩, _⟩ := applyPacket_processed p ui box atomic mgr.machine isProcessed
    have status : (processApplyPacket p ui box mgr).1 = .aborted := by
      rw [processApplyPacket_status]
      simp [aborts]
    rw [← processApplyPacket_machine] at kept
    generalize processApplyPacket p ui box mgr = answer at status kept
    obtain ⟨_, after⟩ := answer
    cases status
    exact ⟨_, after, auth, rfl, kept⟩

/-- Packets that have had their turn do nothing but to the token list. -/
theorem Exhausted.processInOrder {boxes : List MailBox} (atomic : ∀ box ∈ boxes, box ∈ atomicBoxes)
    (exhausted : mgr.Exhausted boxes) :
    ∃ auth, (processInOrder p ui boxes mgr).2.machine = { mgr.machine with auth := auth } := by
  induction boxes with
  | nil => exact ⟨mgr.machine.auth, rfl⟩
  | cons box boxes ih =>
    obtain ⟨isAtomic, atomic⟩ := List.forall_mem_cons.mp atomic
    rw [Manager.processInOrder]
    rcases exhausted with spent | ⟨passed, rest⟩
    · have turned : ∃ code after auth, processPacket p ui box mgr = (.error code, after) ∧
          after.machine = { mgr.machine with auth := auth } := processPacket_spent ui isAtomic spent
      obtain ⟨code, after, auth, fails, kept⟩ := turned
      rw [fails]
      simp only
      split <;> exact ⟨auth, kept⟩
    · rw [processPacket_passed ui passed]
      exact ih atomic rest

/-- A packet that had its turn, and does not wait for the user, was passed over or is spent. -/
theorem processPacket_turn {box : MailBox} (atomic : box ∈ atomicBoxes) (early : mgr.processingAtEndOfDxe = false)
    (enrolls : box.isIdentity = true → (mgr.boxes box).decodeStatus = .success →
      (mgr.data box).unenroll = false → (mgr.data box).payloadSize ≠ 0) :
    let answer := processPacket p ui box mgr
    answer.1 = .mediaChanged ∧ box.isIdentity = true ∨ answer.1 = .success ∧ Passed (answer.2.boxes box) ∨
      Spent (answer.2.boxes box) := by
  cases isPacket : (mgr.data box).packet with
  | none =>
    have passed : Passed (mgr.boxes box) := .inl isPacket
    rw [processPacket_passed ui passed]
    exact .inr (.inl ⟨rfl, passed⟩)
  | some bytes =>
    have present : (mgr.boxes box).data.packet.isSome = true := by
      change (mgr.data box).packet.isSome = true
      rw [isPacket]
      rfl
    have notNone : ¬ (mgr.data box).packet.isNone = true := by
      rw [isPacket]
      simp
    cases decoded : (mgr.boxes box).decodeStatus with
    | error code =>
      have spent : Spent (mgr.boxes box) := ⟨present, .inl (by rw [decoded]; exact (by simp))⟩
      rw [processPacket, if_neg notNone, decoded]
      exact .inr (.inr spent)
    | success =>
      cases unenroll : (mgr.data box).unenroll with
      | true =>
        have passed : Passed (mgr.boxes box) := .inr ⟨decoded, unenroll⟩
        rw [processPacket_passed ui passed]
        exact .inr (.inl ⟨rfl, passed⟩)
      | false =>
        have applied : processPacket p ui box mgr = processApplyPacket p ui box mgr := by
          rw [processPacket, if_neg notNone, decoded]
          simp only [unenroll, Bool.false_eq_true, if_false]
        have follows := (processApplyPacket_follows p ui box mgr box atomic).1
        rw [applied]
        -- what is left to see is that the record is not new any more, unless the packet waits
        have turned : (processApplyPacket p ui box mgr).1 = .mediaChanged ∧ box.isIdentity = true ∨
            ((processApplyPacket p ui box mgr).2.data box).state ≠ .dataPresent := by
          by_cases isNew : (mgr.data box).state = .dataPresent
          · rw [processApplyPacket_status, processApplyPacket_data_self]
            rcases applyPacket_turn p ui mgr.machine atomic isNew (enrolls · decoded unenroll) with
              ⟨succeeds, waits, isIdentity⟩ | ⟨isOld, ends⟩
            · exact .inl ⟨by simp [succeeds, waits, early], isIdentity⟩
            · refine .inr ?_
              simp only
              split
              · rename_i waits
                exact absurd waits.2 (ends (EfiStatus.isError_eq_false.mp waits.1))
              · exact isOld
          · exact .inr (follows.processed isNew)
        rcases turned with waits | processed
        · exact .inl waits
        · refine .inr (.inr ⟨?_, .inr ⟨follows.unenroll.trans unenroll, processed⟩⟩)
          exact (congrArg Option.isSome follows.packet).trans present

theorem processPacket_boxes_other {box other : MailBox} (differs : other ≠ box) :
    (processPacket p ui box mgr).2.boxes other = mgr.boxes other := by
  rw [processPacket]
  split
  · rfl
  · split
    · rfl
    · split
      · rfl
      · exact processApplyPacket_boxes_other p ui box mgr differs

theorem processInOrder_boxes_other {boxes : List MailBox} {other : MailBox} (notIn : other ∉ boxes) :
    (processInOrder p ui boxes mgr).2.boxes other = mgr.boxes other := by
  induction boxes generalizing mgr with
  | nil => rfl
  | cons box boxes ih =>
    rw [List.mem_cons, not_or] at notIn
    have kept : (processPacket p ui box mgr).2.boxes other = mgr.boxes other :=
      processPacket_boxes_other ui notIn.1
    rw [processInOrder]
    generalize processPacket p ui box mgr = answer at kept
    obtain ⟨status, after⟩ := answer
    cases status with
    | success => exact (ih notIn.2).trans kept
    | error code =>
      simp only
      split <;> exact kept

def Sorted (mgr : Manager) : Prop :=
  ∀ box, box.isIdentity = true → (mgr.boxes box).decodeStatus = .success →
    ((mgr.data box).unenroll = true ↔ (mgr.data box).payloadSize = 0)

theorem atomic_of_isIdentity {box : MailBox} (isIdentity : box.isIdentity = true) : box ∈ atomicBoxes := by
  cases box <;> first | decide | cases isIdentity

theorem Sorted.follows {later earlier : Manager} (follows : later.Follows earlier) (sorted : earlier.Sorted) :
    later.Sorted := by
  intro box isIdentity decoded
  obtain ⟨data, decodeStatus⟩ := follows box (atomic_of_isIdentity isIdentity)
  rw [data.unenroll, data.payloadSize]
  exact sorted box isIdentity (decodeStatus ▸ decoded)

theorem sorted_allocateManagerData (p : Platform) (m : Machine) (read : MailBox → Except Nat (List Byte)) :
    (allocateManagerData p m read).Sorted := by
  intro box isIdentity decoded
  have fresh := fresh_allocateManagerData p m read box
  rw [Manager.data, fresh.unenroll]
  simp only [isIdentity, decoded, true_and]

/-- After a first phase that was not delayed, all packets have had their turn, up to the first that fails. -/
theorem processInOrder_exhausts {boxes : List MailBox} (distinct : boxes.Nodup)
    (atomic : ∀ box ∈ boxes, box ∈ atomicBoxes) (early : mgr.processingAtEndOfDxe = false) (sorted : mgr.Sorted)
    (ends : (processInOrder p ui boxes mgr).1 ≠ .delayed) : (processInOrder p ui boxes mgr).2.Exhausted boxes := by
  induction boxes generalizing mgr with
  | nil => trivial
  | cons box boxes ih =>
    rw [List.nodup_cons] at distinct
    obtain ⟨isAtomic, atomic⟩ := List.forall_mem_cons.mp atomic
    have enrolls : box.isIdentity = true → (mgr.boxes box).decodeStatus = .success →
        (mgr.data box).unenroll = false → (mgr.data box).payloadSize ≠ 0 := by
      intro isIdentity decoded enroll empty
      rw [(sorted box isIdentity decoded).mpr empty] at enroll
      cases enroll
    have turn : let answer := processPacket p ui box mgr
        answer.1 = .mediaChanged ∧ box.isIdentity = true ∨ answer.1 = .success ∧ Passed (answer.2.boxes box) ∨
          Spent (answer.2.boxes box) := processPacket_turn ui isAtomic early enrolls
    have stillEarly : (processPacket p ui box mgr).2.processingAtEndOfDxe = false :=
      processPacket_invariant (fun later => later.processingAtEndOfDxe = false)
        (fun ui box later held => (processApplyPacket_processingAtEndOfDxe p ui box later).trans held) ui box early
    have stillSorted : (processPacket p ui box mgr).2.Sorted :=
      sorted.follows ((Follows.refl mgr).processPacket ui box)
    rw [processInOrder] at ends ⊢
    generalize processPacket p ui box mgr = answer at turn ends stillEarly stillSorted ⊢
    obtain ⟨status, after⟩ := answer
    cases status with
    | success =>
      have kept : (processInOrder p ui boxes after).2.boxes box = after.boxes box :=
        processInOrder_boxes_other ui distinct.1
      simp only at ends ⊢
      rw [Exhausted, kept]
      rcases turn with ⟨waits, _⟩ | ⟨_, passed⟩ | spent
      · cases waits
      · exact .inr ⟨passed, ih distinct.2 atomic stillEarly stillSorted ends⟩
      · exact .inl spent
    | error code =>
      simp only at ends ⊢
      split at ends
      · exact absurd rfl ends
      · rename_i fails
        rw [if_neg fails]
        rcases turn with waits | ⟨succeeds, _⟩ | spent
        · exact absurd waits fails
        · cases succeeds
        · exact .inl spent

/-- A run is delayed in its first phase, or after all its packets have had their turn. -/
theorem processMailBoxes_delayed {waiting : Manager} (early : mgr.processingAtEndOfDxe = false)
    (sorted : mgr.Sorted) (delayed : processMailBoxes p ui mgr = (.delayed, waiting)) :
    processInOrder p ui atomicBoxes mgr = (.delayed, waiting) ∨ waiting.Exhausted atomicBoxes := by
  have exhausts : (processInOrder p ui atomicBoxes mgr).1 ≠ .delayed →
      (processInOrder p ui atomicBoxes mgr).2.Exhausted atomicBoxes :=
    processInOrder_exhausts ui (by decide) (fun _ mem => mem) early sorted
  have completions : ∀ (after : Manager) lkgStatus, after.Exhausted atomicBoxes →
      processCompletions p ui lkgStatus after = (.delayed, waiting) → waiting.Exhausted atomicBoxes := by
    intro after lkgStatus exhausted completes
    have follows : (processCompletions p ui lkgStatus after).2.Follows after :=
      (Follows.refl after).processCompletions ui lkgStatus
    rw [completes] at follows
    exact exhausted.follows follows fun _ mem => mem
  rw [processMailBoxes] at delayed
  generalize processInOrder p ui atomicBoxes mgr = answer at delayed exhausts
  obtain ⟨ending, after⟩ := answer
  cases ending with
  | delayed => exact .inl delayed
  | completed => exact .inr (completions after .success (exhausts (by simp)) delayed)
  | failed code => exact .inr (completions after (.error code) (exhausts (by simp)) delayed)

end

/-! ## What comes after the first four packets -/

structure TailInvariant (p : Platform) (holds : Machine → Prop) : Prop where
  settings : ∀ m auth settings, holds m → holds { m with auth := auth, settings := settings }
  unenrolls : ∀ ui m (data : Packet), data.payloadSize = 0 → holds m →
    holds (applyNewIdentityPacket p ui m data).machine
  completes : ∀ op m data, holds m → holds (identityLkgHandler p op m data).machine

section

variable {p : Platform} {holds : Machine → Prop} (tail : TailInvariant p holds) {mgr : Manager}
include tail

theorem TailInvariant.completeIdentity {box : MailBox} (isIdentity : box.isIdentity = true) (applyStatus : EfiStatus)
    (held : holds mgr.machine) : holds (completePacket p applyStatus box mgr).machine := by
  cases isPacket : (mgr.data box).packet.isSome with
  | false =>
    rw [completePacket_absent isPacket]
    exact held
  | true =>
    rw [completePacket_machine isPacket]
    have completed := tail.completes (completedOperation applyStatus) mgr.machine
      (completedData applyStatus (mgr.data box)) held
    cases box with
    | identity | identity2 => exact completed
    | permissions | permissions2 | settings | settings2 => cases isIdentity

theorem TailInvariant.processSettings {box : MailBox} (isSettings : box = .settings ∨ box = .settings2)
    (ui : UserInterface) (held : holds mgr.machine) : holds (processSettings p ui box mgr).machine := by
  -- completing a settings packet does nothing to the machine
  have completed : ∀ mgr : Manager, (completePacket p .success box mgr).machine = mgr.machine := by
    intro mgr
    rw [completePacket_eq]
    split
    · rfl
    · rcases isSettings with rfl | rfl
      · rfl
      · rfl
  have applied : holds (processApplyPacket p ui box mgr).2.machine := by
    rw [processApplyPacket_machine]
    rcases isSettings with rfl | rfl
    · exact tail.settings _ _ _ held
    · exact tail.settings _ _ _ held
  rw [Manager.processSettings, completed, processPacket]
  split
  · exact held
  · split
    · exact held
    · split
      · exact held
      · exact applied

theorem TailInvariant.processUnEnrollPacket (sorted : mgr.Sorted) {box : MailBox} (isIdentity : box.isIdentity = true)
    (unenroll : (mgr.data box).unenroll = true) (ui : UserInterface) (held : holds mgr.machine) :
    holds (processUnEnrollPacket p ui box mgr).2.machine := by
  cases isPacket : (mgr.data box).packet with
  | none =>
    rw [Manager.processUnEnrollPacket, processPacket_passed ui (.inl isPacket)]
    simp only [isPacket, Option.isSome_none, Bool.false_and, Bool.false_eq_true, if_false]
    exact held
  | some bytes =>
    cases decoded : (mgr.boxes box).decodeStatus with
    | error code =>
      -- a packet that could not be decoded is left alone
      have turned : processPacket p ui box mgr = (.error code, mgr) := by
        rw [processPacket, if_neg (by rw [isPacket]; exact (by simp)), decoded]
      rw [Manager.processUnEnrollPacket, turned]
      exact held
    | success =>
      have applied : holds (processApplyPacket p ui box mgr).2.machine := by
        have removed := tail.unenrolls ui mgr.machine (mgr.data box)
          ((sorted box isIdentity decoded).mp unenroll) held
        rw [processApplyPacket_machine]
        cases box with
        | identity | identity2 => exact removed
        | permissions | permissions2 | settings | settings2 => cases isIdentity
      rw [Manager.processUnEnrollPacket, processPacket_passed ui (.inr ⟨decoded, unenroll⟩)]
      simp only
      split
      · generalize processApplyPacket p ui box mgr = answer at applied
        simp only
        split <;> exact applied
      · exact held

theorem TailInvariant.processUnEnrolls {boxes : List MailBox} (identities : ∀ box ∈ boxes, box.isIdentity = true)
    (sorted : mgr.Sorted) (ui : UserInterface) (held : holds mgr.machine) :
    holds (processUnEnrolls p ui boxes mgr).2.machine := by
  induction boxes generalizing mgr with
  | nil => exact held
  | cons box boxes ih =>
    obtain ⟨isIdentity, identities⟩ := List.forall_mem_cons.mp identities
    rw [Manager.processUnEnrolls]
    split
    · rename_i unenroll
      have processed := tail.processUnEnrollPacket sorted isIdentity unenroll ui held
      have stillSorted : (Manager.processUnEnrollPacket p ui box mgr).2.Sorted :=
        processUnEnrollPacket_invariant Sorted
          (fun ui box later held => held.follows (processApplyPacket_follows p ui box later)) (fun _ held => held)
          ui box sorted
      generalize Manager.processUnEnrollPacket p ui box mgr = answer at processed stillSorted
      obtain ⟨status, after⟩ := answer
      simp only
      split
      · exact processed
      · exact ih identities (stillSorted.follows (completePacket_follows p box after status))
          (tail.completeIdentity isIdentity status processed)
    · exact ih identities sorted held

/-- What holds when the first four packets are completed, and through the tail of a run, holds when the run ends. -/
theorem TailInvariant.processCompletions (sorted : mgr.Sorted) (ui : UserInterface) (lkgStatus : EfiStatus)
    (atomic : holds (completeAtomic p lkgStatus mgr).machine) :
    holds (processCompletions p ui lkgStatus mgr).2.machine := by
  have completes : ∀ applyStatus box (later : Manager), later.Follows mgr →
      (completePacket p applyStatus box later).Follows mgr :=
    fun applyStatus box later held => (completePacket_follows p box later applyStatus).trans held
  have inSettings : ∀ box (later : Manager), later.Follows mgr →
      (Manager.processSettings p ui box later).Follows mgr :=
    fun box later held => completes .success box _ (held.processPacket ui box)
  have first : (completeAtomic p lkgStatus mgr).Follows mgr :=
    completeAtomic_invariant (fun later => later.Follows mgr) completes lkgStatus (.refl mgr)
  have settings := tail.processSettings (.inl rfl) ui atomic
  have settings2 := tail.processSettings (.inr rfl) ui settings
  have follows := inSettings .settings2 _ (inSettings .settings _ first)
  exact tail.processUnEnrolls (by decide) (sorted.follows follows) ui settings2

end

end Manager

end Dfci
