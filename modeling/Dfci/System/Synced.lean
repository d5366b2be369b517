import Dfci.Manager.Settled
import Dfci.Permission.Synced
import Dfci.System.Steps
import Dfci.System.Unenroll

/-! # The permission store over whole runs

`IdentityChange` rewrites entries in memory and leaves the saving to others. A permission packet in the same run saves
them, or takes them back. Without one they are in memory until the next reset. -/

namespace Dfci

open PermissionState

namespace MailBox

def isPermissions : MailBox → Bool
  | .permissions | .permissions2 => true
  | _ => false

theorem isIdentity_of_isPermissions {box : MailBox} (isPermissions : box.isPermissions = true) :
    box.isIdentity = false := by
  cases box <;> first | rfl | exact isPermissions.symm

end MailBox

namespace Machine

/-- For whoever may approve the certificate in a packet, `IdentityChange` finds the entries as it would set them. -/
def EditsNothing (p : Platform) (m : Machine) (data : Packet) : Prop :=
  ∀ identity approver store, data.payloadSize ≠ 0 → data.namedIdentity = some identity →
    Approval p m data identity approver → m.permissions.store = some store →
    (store.identityChange p (.ok approver) identity (identityChangeType m.certs identity data)).2.Agrees store

/-- Where no list of the platform is to be removed, that is where an earlier enrolment was approved alike. -/
theorem editsNothing_iff {p : Platform} {m : Machine} {data : Packet}
    (noList : identityChangeType m.certs .signerOwner data = .firstEnroll →
      ∀ permXml, p.unsignedPermissionsFile ≠ .ok permXml) : m.EditsNothing p data ↔
      ∀ identity approver store, data.payloadSize ≠ 0 → data.namedIdentity = some identity →
        Approval p m data identity approver → m.permissions.store = some store →
        store.EnrolledBy identity approver := by
  refine forall_congr' fun identity => forall_congr' fun approver => forall_congr' fun store => forall_congr' fun enrolls =>
    forall_congr' fun _ => forall_congr' fun _ => forall_congr' fun _ => ?_
  refine PermissionStore.agrees_identityChange_iff (identityChangeType_ne_unenroll m.certs identity enrolls) ?_
  rintro rfl isFirst
  exact noList isFirst

/-- Nobody has signed the packet who may change the key, and the local user does not agree. -/
def Declined (p : Platform) (ui : UserInterface) (m : Machine) (data : Packet) : Prop :=
  (∃ identity signedLength permMask, AsksUser p m data identity signedLength permMask) ∧
    ∀ token auth, (localGetAnswerFromUser p ui data.payloadBytes data.payloadSize token auth).1 ≠ .success

def KeepsEntries (p : Platform) (m : Machine) : PacketStep → Prop
  | .apply ui box data => box.isIdentity = true → m.EditsNothing p data ∨ m.Declined p ui data
  | .complete .. => True

def Unauthenticated (p : Platform) (m : Machine) : PacketStep → Prop
  | .apply _ box data => box.isPermissions = true → permissionsSigner p m.certs m.auth data = none
  | .complete .. => True

end Machine

namespace Manager

/-! ## The first four packets -/

def Dirty (mgr : Manager) : Prop :=
  ∃ box, box.isPermissions = true ∧ (mgr.data box).packet.isSome = true ∧ (mgr.data box).lkgDirty = true

structure Phase (p : Platform) (mgr : Manager) : Prop where
  backed : Backed p mgr.machine.permissions
  modified : mgr.Dirty → Modified mgr.machine.permissions

structure Turn (p : Platform) (box : MailBox) (steps : List PacketStep) (before : Manager)
    (answer : EfiStatus × Manager) : Prop where
  backed : Backed p answer.2.machine.permissions
  phase : box.isIdentity = true ∨ answer.1 = .success → Phase p answer.2
  dirty : before.Dirty → answer.2.Dirty
  keeps : Synced p before.machine.permissions →
    Runs.Guarded (Machine.take p) (Machine.KeepsEntries p) before.machine steps →
    Synced p answer.2.machine.permissions ∨ answer.2.Dirty
  signed : ¬ Runs.Guarded (Machine.take p) (Machine.Unauthenticated p) before.machine steps →
    answer.2.Dirty ∨ box.isIdentity = false ∧ answer.1 ≠ .success ∧ Synced p answer.2.machine.permissions

section

variable {p : Platform} {mgr : Manager}

theorem Turn.passed (phase : Phase p mgr) (box : MailBox) (status : EfiStatus) : Turn p box [] mgr (status, mgr) where
  backed := phase.backed
  phase := fun _ => phase
  dirty := id
  keeps := fun synced _ => .inl synced
  signed := fun signed => absurd trivial signed

theorem dirty_congr {before after : Manager}
    (kept : ∀ box, box.isPermissions = true → (after.data box).packet.isSome = (before.data box).packet.isSome ∧
      (after.data box).lkgDirty = (before.data box).lkgDirty) : after.Dirty ↔ before.Dirty := by
  refine exists_congr fun box => and_congr_right fun isPermissions => ?_
  rw [(kept box isPermissions).1, (kept box isPermissions).2]

/-- An identity packet has no part in the records of the permission packets. -/
theorem dirty_processApplyPacket_identity (ui : UserInterface) {box : MailBox} (isIdentity : box.isIdentity = true) :
    (processApplyPacket p ui box mgr).2.Dirty ↔ mgr.Dirty := by
  refine dirty_congr fun other isPermissions => ?_
  have differs : other ≠ box := by
    rintro rfl
    rw [MailBox.isIdentity_of_isPermissions isPermissions] at isIdentity
    cases isIdentity
  rw [processApplyPacket_data_other p ui box mgr differs]
  exact ⟨rfl, rfl⟩

/-- The certificate of an identity, with what `IdentityChange` does to the entries. -/
theorem Turn.identity (phase : Phase p mgr) (ui : UserInterface) {box : MailBox}
    (isIdentity : box.isIdentity = true) (enrolls : (mgr.data box).payloadSize ≠ 0) :
    Turn p box [.apply ui box (mgr.data box)] mgr (processApplyPacket p ui box mgr) := by
  have dirty : (processApplyPacket p ui box mgr).2.Dirty ↔ mgr.Dirty :=
    dirty_processApplyPacket_identity ui isIdentity
  have isPacket : (processApplyPacket p ui box mgr).2.machine =
      (applyNewIdentityPacket p ui mgr.machine (mgr.data box)).machine := by
    rw [processApplyPacket_machine]
    cases box <;> first | rfl | cases isIdentity
  have effect := applyNewIdentityPacket_effect p ui mgr.machine (mgr.data box)
  rw [← isPacket] at effect
  have unsigned : Runs.Guarded (Machine.take p) (Machine.Unauthenticated p) mgr.machine
      [.apply ui box (mgr.data box)] := by
    refine ⟨fun isPermissions => ?_, trivial⟩
    rw [MailBox.isIdentity_of_isPermissions isPermissions] at isIdentity
    cases isIdentity
  suffices enrolled : Backed p (processApplyPacket p ui box mgr).2.machine.permissions ∧
      (Modified mgr.machine.permissions → Modified (processApplyPacket p ui box mgr).2.machine.permissions) ∧
      (Synced p mgr.machine.permissions →
        mgr.machine.EditsNothing p (mgr.data box) ∨ mgr.machine.Declined p ui (mgr.data box) →
        Synced p (processApplyPacket p ui box mgr).2.machine.permissions) by
    obtain ⟨backed, modified, keeps⟩ := enrolled
    exact ⟨backed, fun _ => ⟨backed, fun isDirty => modified (phase.modified (dirty.mp isDirty))⟩, dirty.mpr,
      fun synced guarded => .inl (keeps synced (guarded.1 isIdentity)), fun signed => absurd unsigned signed⟩
  have declined : mgr.machine.Declined p ui (mgr.data box) →
      (processApplyPacket p ui box mgr).2.machine.permissions = mgr.machine.permissions := by
    rintro ⟨⟨_, _, _, asks⟩, declines⟩
    obtain ⟨auth, kept⟩ := asks.declined declines
    rw [isPacket, kept]
  generalize (processApplyPacket p ui box mgr).2.machine = after at effect declined
  cases effect with
  | kept => exact ⟨phase.backed, id, fun synced _ => synced⟩
  | provisioned identity approver i auth _ _ names approval _ _ =>
    refine ⟨phase.backed.identityChange _ _ _, fun modified => modified.identityChange _ _ _, fun synced keeps => ?_⟩
    rcases keeps with edits | refused
    · exact synced.identityChange fun store isStore => edits identity approver store enrolls names approval isStore
    · rw [declined refused]
      exact synced
  | clears _ _ _ _ unenroll => exact absurd unenroll enrolls

/-- A permission packet is never put back in line: what its manager answers is what is left. -/
theorem processApplyPacket_permissions (p : Platform) (ui : UserInterface) {box : MailBox}
    (isPermissions : box.isPermissions = true) (mgr : Manager) :
    let applied := applyNewPermissionsPacket p mgr.machine.certs mgr.machine.auth
      mgr.machine.permissions (mgr.data box)
    let answer := processApplyPacket p ui box mgr
    answer.1 = applied.status ∧ answer.2.machine.permissions = applied.permissions ∧ answer.2.data box = applied.data := by
  intro applied answer
  have isApplied : applyPacket p ui box mgr.machine (mgr.data box) = ⟨applied.status,
      { mgr.machine with auth := applied.auth, permissions := applied.permissions }, applied.data, none⟩ := by
    cases box <;> first | rfl | cases isPermissions
  have follows := applyNewPermissionsPacket_follows p mgr.machine.certs mgr.machine.auth
    mgr.machine.permissions (mgr.data box)
  refine ⟨?_, ?_, ?_⟩
  · rw [processApplyPacket_status, isApplied]
    exact if_neg fun waits => follows.2.2 (EfiStatus.isError_eq_false.mp waits.1) waits.2.1
  · rw [processApplyPacket_machine, isApplied]
  · rw [processApplyPacket_data_self, isApplied]
    exact if_neg fun waits => follows.2.2 (EfiStatus.isError_eq_false.mp waits.1) waits.2

/-- A permission packet that leaves its own record as dirty as it was leaves all of them so. -/
theorem dirty_processApplyPacket_permissions (ui : UserInterface) {box : MailBox}
    (isPermissions : box.isPermissions = true)
    (kept : (applyNewPermissionsPacket p mgr.machine.certs mgr.machine.auth mgr.machine.permissions
      (mgr.data box)).data.lkgDirty = (mgr.data box).lkgDirty) :
    (processApplyPacket p ui box mgr).2.Dirty ↔ mgr.Dirty := by
  have follows := applyNewPermissionsPacket_follows p mgr.machine.certs mgr.machine.auth
    mgr.machine.permissions (mgr.data box)
  refine dirty_congr fun other _ => ?_
  by_cases same : other = box
  · subst same
    rw [(processApplyPacket_permissions p ui isPermissions mgr).2.2, follows.1.packet]
    exact ⟨rfl, kept⟩
  · rw [processApplyPacket_data_other p ui box mgr same]
    exact ⟨rfl, rfl⟩

/-- A permission packet with a valid signature is applied, or its document fails and takes all changes back. -/
theorem Turn.permissions (phase : Phase p mgr) (ui : UserInterface) {box : MailBox}
    (isPermissions : box.isPermissions = true) (isPacket : (mgr.data box).packet.isSome = true) :
    Turn p box [.apply ui box (mgr.data box)] mgr (processApplyPacket p ui box mgr) := by
  have notIdentity := MailBox.isIdentity_of_isPermissions isPermissions
  obtain ⟨status, after, record⟩ := processApplyPacket_permissions p ui isPermissions mgr
  cases signs : permissionsSigner p mgr.machine.certs mgr.machine.auth (mgr.data box) with
  | none =>
    obtain ⟨code, leaves⟩ := applyNewPermissionsPacket_rejected mgr.machine.permissions signs
    have dirty := dirty_processApplyPacket_permissions ui isPermissions leaves.lkgDirty
    have kept : (processApplyPacket p ui box mgr).2.machine.permissions = mgr.machine.permissions :=
      after.trans leaves.permissions
    refine ⟨kept ▸ phase.backed, fun _ => ⟨kept ▸ phase.backed, fun isDirty => ?_⟩, dirty.mpr,
      fun synced _ => .inl (kept ▸ synced), fun signed => absurd ⟨fun _ => signs, trivial⟩ signed⟩
    rw [kept]
    exact phase.modified (dirty.mp isDirty)
  | some identity =>
    obtain ⟨store, isStore⟩ := phase.backed.present
    have signed := applyNewPermissionsPacket_signed signs isStore
    cases applies : store.applyPermissions p (mgr.data box).v1Mode identity (mgr.data box).payloadText with
    | error failure =>
      rw [applies] at signed
      have dirty := dirty_processApplyPacket_permissions ui isPermissions signed.lkgDirty
      have reloaded : Synced p (processApplyPacket p ui box mgr).2.machine.permissions := by
        rw [after, signed.permissions]
        exact phase.backed.reload
      have fails : (processApplyPacket p ui box mgr).1 ≠ .success := by
        rw [status, signed.status]
        exact failure.status_ne_success
      exact ⟨reloaded.backed, fun ends => absurd (ends.resolve_left (by simp [notIdentity])) fails, dirty.mpr,
        fun _ _ => .inl reloaded, fun _ => .inr ⟨notIdentity, fails, reloaded⟩⟩
    | ok result =>
      rw [applies] at signed
      have dirty : (processApplyPacket p ui box mgr).2.Dirty := by
        refine ⟨box, isPermissions, ?_⟩
        rw [record, (applyNewPermissionsPacket_follows ..).1.packet]
        exact ⟨isPacket, signed.lkgDirty⟩
      have isAfter : (processApplyPacket p ui box mgr).2.machine.permissions =
          { mgr.machine.permissions with store := some { result.store with modified := true } } :=
        after.trans signed.permissions
      have sound : Sound (mgr.machine.permissions.step p
          (.packet mgr.machine.certs mgr.machine.auth (mgr.data box))) := phase.backed.sound.step _
      have backed : Backed p (processApplyPacket p ui box mgr).2.machine.permissions := by
        rw [isAfter]
        refine ⟨⟨_, rfl⟩, phase.backed.flash, ?_⟩
        rw [← signed.permissions]
        exact sound
      have modified : Modified (processApplyPacket p ui box mgr).2.machine.permissions := by
        rw [isAfter]
        exact ⟨_, rfl, rfl⟩
      exact ⟨backed, fun _ => ⟨backed, fun _ => modified⟩, fun _ => dirty, fun _ _ => .inr dirty, fun _ => .inl dirty⟩

theorem Turn.processPacket (phase : Phase p mgr) (sorted : mgr.Sorted) (ui : UserInterface) {box : MailBox}
    (atomic : box ∈ atomicBoxes) : Turn p box (packetSteps ui box mgr) mgr (processPacket p ui box mgr) := by
  rw [packetSteps, Manager.processPacket]
  cases isPacket : (mgr.data box).packet with
  | none => exact .passed phase box .success
  | some bytes =>
    cases decoded : (mgr.boxes box).decodeStatus with
    | error code => exact .passed phase box (.error code)
    | success =>
      cases unenroll : (mgr.data box).unenroll with
      | true => exact .passed phase box .success
      | false =>
        cases isIdentity : box.isIdentity with
        | true =>
          apply Turn.identity phase ui isIdentity
          intro empty
          rw [(sorted box isIdentity decoded).mpr empty] at unenroll
          cases unenroll
        | false =>
          have others : ∀ box ∈ atomicBoxes, box.isIdentity = false → box.isPermissions = true := by decide
          exact Turn.permissions phase ui (others box atomic isIdentity) (by rw [isPacket]; rfl)

end

structure PhaseRun (p : Platform) (steps : List PacketStep) (before : Manager) (answer : PhaseEnd × Manager) :
    Prop where
  backed : Backed p answer.2.machine.permissions
  phase : (∀ code, answer.1 ≠ .failed code) → Phase p answer.2
  dirty : before.Dirty → answer.2.Dirty
  keeps : Synced p before.machine.permissions ∨ before.Dirty →
    Runs.Guarded (Machine.take p) (Machine.KeepsEntries p) before.machine steps →
    Synced p answer.2.machine.permissions ∨ answer.2.Dirty
  signed : ¬ Runs.Guarded (Machine.take p) (Machine.Unauthenticated p) before.machine steps →
    Synced p answer.2.machine.permissions ∨ answer.2.Dirty
  waits : answer.1 = .delayed →
    ¬ Runs.Guarded (Machine.take p) (Machine.Unauthenticated p) before.machine steps → answer.2.Dirty

section

variable {p : Platform} {mgr : Manager}

theorem Turn.last {box : MailBox} {steps : List PacketStep} {code : Nat} {after : Manager}
    (turn : Turn p box steps mgr (.error code, after)) {ending : PhaseEnd}
    (ends : ending = .delayed ∧ box.isIdentity = true ∨ ending = .failed code) :
    PhaseRun p (steps ++ []) mgr (ending, after) := by
  rw [List.append_nil]
  refine ⟨turn.backed, fun notFailed => turn.phase (.inl ?_), turn.dirty, ?_, ?_, ?_⟩
  · exact (ends.resolve_right (notFailed code)).2
  · rintro (synced | dirty) guarded
    · exact turn.keeps synced guarded
    · exact .inr (turn.dirty dirty)
  · intro signed
    exact (turn.signed signed).elim .inr fun reloaded => .inl reloaded.2.2
  · rintro waits signed
    rcases turn.signed signed with dirty | ⟨notIdentity, _⟩
    · exact dirty
    · rcases ends with ⟨_, isIdentity⟩ | failed
      · rw [notIdentity] at isIdentity
        cases isIdentity
      · cases waits.symm.trans failed

theorem Turn.next {box : MailBox} {steps rest : List PacketStep} {after : Manager} {answer : PhaseEnd × Manager}
    (turn : Turn p box steps mgr (.success, after)) (spells : Spells p mgr steps after)
    (run : PhaseRun p rest after answer) : PhaseRun p (steps ++ rest) mgr answer := by
  have reached : Runs.run (Machine.take p) mgr.machine steps = after.machine := spells
  refine ⟨run.backed, run.phase, fun dirty => run.dirty (turn.dirty dirty), ?_, ?_, ?_⟩
  · intro owes guarded
    rw [Runs.guarded_append, reached] at guarded
    refine run.keeps ?_ guarded.2
    rcases owes with synced | dirty
    · exact turn.keeps synced guarded.1
    · exact .inr (turn.dirty dirty)
  · intro signed
    rw [Runs.guarded_append, reached, not_and_or] at signed
    rcases signed with first | later
    · -- this packet went through, so it was applied
      rcases turn.signed first with dirty | ⟨_, fails, _⟩
      · exact .inr (run.dirty dirty)
      · exact absurd rfl fails
    · exact run.signed later
  · intro waits signed
    rw [Runs.guarded_append, reached, not_and_or] at signed
    rcases signed with first | later
    · rcases turn.signed first with dirty | ⟨_, fails, _⟩
      · exact run.dirty dirty
      · exact absurd rfl fails
    · exact run.waits waits later

theorem PhaseRun.processInOrder (ui : UserInterface) {boxes : List MailBox} (atomic : ∀ box ∈ boxes, box ∈ atomicBoxes)
    (phase : Phase p mgr) (sorted : mgr.Sorted) :
    PhaseRun p (inOrderSteps p ui boxes mgr) mgr (processInOrder p ui boxes mgr) := by
  induction boxes generalizing mgr with
  | nil =>
    exact ⟨phase.backed, fun _ => phase, id, fun owes _ => owes, fun signed => absurd trivial signed, (by rintro ⟨⟩)⟩
  | cons box boxes ih =>
    obtain ⟨isAtomic, atomic⟩ := List.forall_mem_cons.mp atomic
    have turn := Turn.processPacket phase sorted ui isAtomic
    have spells := (Spells.traces p).packet ui box mgr
    have stillSorted : (Manager.processPacket p ui box mgr).2.Sorted :=
      sorted.follows ((Follows.refl mgr).processPacket ui box)
    rw [inOrderSteps, Manager.processInOrder]
    generalize Manager.processPacket p ui box mgr = answer at turn spells stillSorted ⊢
    obtain ⟨status, after⟩ := answer
    cases status with
    | success => exact turn.next spells (ih atomic (turn.phase (.inr rfl)) stillSorted)
    | error code =>
      simp only
      split
      · rename_i waits
        exact turn.last (.inl ⟨rfl, waits.2⟩)
      · exact turn.last (.inr rfl)

/-! ## Completing them -/

theorem completedData_lkgDirty (applyStatus : EfiStatus) (data : Packet) :
    (completedData applyStatus data).lkgDirty = data.lkgDirty := by
  rw [completedData]
  split <;> rfl

/-- Completing a packet does to the permission store what its manager's handler does. -/
theorem completePacket_permissions (applyStatus : EfiStatus) {box : MailBox} (isPermissions : box.isPermissions = true)
    (isPacket : (mgr.data box).packet.isSome = true) : (completePacket p applyStatus box mgr).machine.permissions =
      (permissionsLkgHandler p (completedOperation applyStatus) mgr.machine.permissions
        (completedData applyStatus (mgr.data box))).2.1 := by
  rw [completePacket_machine isPacket]
  cases box <;> first | rfl | cases isPermissions

theorem synced_completePacket (applyStatus : EfiStatus) (box : MailBox) (synced : Synced p mgr.machine.permissions) :
    Synced p (completePacket p applyStatus box mgr).machine.permissions := by
  refine completePacket_machine_invariant (fun m => Synced p m.permissions) ?_ applyStatus box mgr
    synced
  intro op box m data synced
  have identity : (identityLkgHandler p op m data).machine.permissions = m.permissions :=
    (identityLkgHandler_frame p op m data).2.1
  cases box with
  | identity | identity2 =>
    change Synced p (identityLkgHandler p op m data).machine.permissions
    rw [identity]
    exact synced
  | permissions | permissions2 => exact synced.lkg op data
  | settings | settings2 => exact synced

theorem synced_completeEnroll (lkgStatus : EfiStatus) (box : MailBox) (synced : Synced p mgr.machine.permissions) :
    Synced p (completeEnroll p lkgStatus box mgr).machine.permissions := by
  rw [completeEnroll]
  split
  · exact synced
  · exact synced_completePacket lkgStatus box synced

/-- A dirty packet that is completed leaves memory and variable in agreement; one that is not leaves all as it is. -/
theorem completePacket_owes (applyStatus : EfiStatus) {box : MailBox} (isPermissions : box.isPermissions = true)
    (backed : Backed p mgr.machine.permissions) (phase : applyStatus = .success → Phase p mgr) :
    Synced p (completePacket p applyStatus box mgr).machine.permissions ∨
      (completePacket p applyStatus box mgr).machine.permissions = mgr.machine.permissions ∧
        ¬ ((mgr.data box).packet.isSome = true ∧ (mgr.data box).lkgDirty = true) := by
  cases isPacket : (mgr.data box).packet.isSome with
  | false =>
    rw [completePacket_absent isPacket]
    exact .inr ⟨rfl, (by simp)⟩
  | true =>
    rw [completePacket_permissions applyStatus isPermissions isPacket]
    have dirtyData := completedData_lkgDirty applyStatus (mgr.data box)
    cases dirty : (mgr.data box).lkgDirty with
    | false =>
      rw [dirty] at dirtyData
      refine .inr ⟨?_, (by simp)⟩
      simp [permissionsLkgHandler, dirtyData]
    | true =>
      rw [dirty] at dirtyData
      refine .inl (backed.lkg dirtyData fun commits => ?_)
      have succeeds : applyStatus = .success := by
        cases applyStatus with
        | success => rfl
        | error code => cases commits
      exact (phase succeeds).modified ⟨box, isPermissions, isPacket, dirty⟩

theorem synced_completeAtomic (lkgStatus : EfiStatus) (synced : Synced p mgr.machine.permissions) :
    Synced p (completeAtomic p lkgStatus mgr).machine.permissions :=
  synced_completeEnroll lkgStatus .identity2 (synced_completeEnroll lkgStatus .identity
    (synced_completePacket lkgStatus .permissions (synced_completePacket lkgStatus .permissions2 synced)))

/-- The completion of the first four packets saves or takes back what they left in memory. -/
theorem owes_completeAtomic {lkgStatus : EfiStatus} (backed : Backed p mgr.machine.permissions)
    (phase : lkgStatus = .success → Phase p mgr) (owes : Synced p mgr.machine.permissions ∨ mgr.Dirty) :
    Synced p (completeAtomic p lkgStatus mgr).machine.permissions := by
  rcases owes with synced | dirty
  · exact synced_completeAtomic lkgStatus synced
  · suffices perms : Synced p (completePacket p lkgStatus .permissions
        (completePacket p lkgStatus .permissions2 mgr)).machine.permissions from
      synced_completeEnroll lkgStatus .identity2 (synced_completeEnroll lkgStatus .identity perms)
    -- the second packet is completed first, and if it is not the dirty one the first is
    have isSecond : MailBox.permissions2.isPermissions = true := rfl
    have isFirst : MailBox.permissions.isPermissions = true := rfl
    rcases completePacket_owes lkgStatus isSecond backed phase with synced | ⟨kept, notSecond⟩
    · exact synced_completePacket lkgStatus .permissions synced
    · have record : (completePacket p lkgStatus .permissions2 mgr).data .permissions =
          mgr.data .permissions :=
        congrArg ManagerData.data (completePacket_boxes_other lkgStatus (by decide))
      have isDirty : (mgr.data .permissions).packet.isSome = true ∧ (mgr.data .permissions).lkgDirty = true := by
        obtain ⟨box, isPermissions, isPacket, isDirty⟩ := dirty
        cases box with
        | permissions => exact ⟨isPacket, isDirty⟩
        | permissions2 => exact absurd ⟨isPacket, isDirty⟩ notSecond
        | identity | identity2 | settings | settings2 => cases isPermissions
      have backedStill : Backed p (completePacket p lkgStatus .permissions2 mgr).machine.permissions := by
        rw [kept]
        exact backed
      have phaseStill : lkgStatus = .success →
          Phase p (completePacket p lkgStatus .permissions2 mgr) := by
        intro succeeds
        refine ⟨backedStill, fun _ => ?_⟩
        rw [kept]
        exact (phase succeeds).modified ⟨.permissions, rfl, isDirty⟩
      rcases completePacket_owes lkgStatus isFirst backedStill phaseStill with synced | ⟨_, notFirst⟩
      · exact synced
      · rw [record] at notFirst
        exact absurd isDirty notFirst

end

/-! ## The whole run -/

section

variable {p : Platform} (saves : ∀ flash, (initAndSave p flash).1 = .success)
include saves

theorem synced_clearDfci {m : Machine} (synced : Synced p m.permissions) (token : AuthToken) :
    Synced p (m.clearDfci p token).2.permissions := by
  have effect := m.clearDfci_effect p token
  have initialized := synced_initAndSave synced.backed.sound.own (saves m.permissions.flash)
  generalize m.clearDfci p token = result at effect
  cases effect with
  | refused => exact synced
  | permissionsFailed code perms _ fails =>
    have succeeds := saves m.permissions.flash
    rw [fails] at succeeds
    cases succeeds
  | certsFailed code perms certs certFlash _ resets | cleared perms certs certFlash _ resets =>
    rw [resets] at initialized
    exact initialized

/-- Without a certificate a packet changes no entry, or starts all over. -/
theorem synced_tail : TailInvariant p fun m => Synced p m.permissions where
  settings := fun _ _ _ synced => synced
  unenrolls := by
    intro ui m data unenroll synced
    have effect := applyNewIdentityPacket_effect p ui m data
    generalize (applyNewIdentityPacket p ui m data).machine = after at effect
    cases effect with
    | kept => exact synced
    | provisioned identity approver =>
      have type : identityChangeType m.certs identity data = .unenroll := if_pos unenroll
      simp only [type, PermissionState.identityChange_unenroll]
      exact synced
    | clears approver token before =>
      have same : Synced p ({ m with auth := before } : Machine).permissions := synced
      exact synced_clearDfci saves same token
  completes := by
    intro op m data synced
    rw [(identityLkgHandler_frame p op m data).2.1]
    exact synced

theorem synced_processMailBoxes {mgr : Manager} (sorted : mgr.Sorted) (ui : UserInterface)
    (atomic : ∀ ending after, processInOrder p ui atomicBoxes mgr = (ending, after) →
      ending ≠ .delayed ∧ ∀ lkgStatus, (lkgStatus = .success → ending = .completed) →
        Synced p (completeAtomic p lkgStatus after).machine.permissions) :
    Synced p (processMailBoxes p ui mgr).2.machine.permissions := by
  have stillSorted : (processInOrder p ui atomicBoxes mgr).2.Sorted :=
    sorted.follows ((Follows.refl mgr).processInOrder ui atomicBoxes)
  rw [processMailBoxes]
  generalize processInOrder p ui atomicBoxes mgr = answer at atomic stillSorted
  obtain ⟨ending, after⟩ := answer
  obtain ⟨notDelayed, completes⟩ := atomic ending after rfl
  cases ending with
  | delayed => exact absurd rfl notDelayed
  | completed => exact (synced_tail saves).processCompletions stillSorted ui .success (completes .success fun _ => rfl)
  | failed code => exact (synced_tail saves).processCompletions stillSorted ui (.error code) (completes (.error code) (by simp))

/-- A pass that is not delayed in its first phase, and that has a packet to save the entries or none to change them. -/
theorem synced_of_phaseRun {mgr : Manager} (sorted : mgr.Sorted) {ui : UserInterface} {steps : List PacketStep}
    (run : PhaseRun p steps mgr (processInOrder p ui atomicBoxes mgr))
    (ends : (processInOrder p ui atomicBoxes mgr).1 ≠ .delayed)
    (owes : Synced p (processInOrder p ui atomicBoxes mgr).2.machine.permissions ∨
      (processInOrder p ui atomicBoxes mgr).2.Dirty) :
    Synced p (processMailBoxes p ui mgr).2.machine.permissions := by
  apply synced_processMailBoxes saves sorted
  intro ending after isAnswer
  rw [isAnswer] at run ends owes
  refine ⟨ends, fun lkgStatus completes => owes_completeAtomic run.backed (fun succeeds => run.phase ?_) owes⟩
  intro code failed
  cases (completes succeeds).symm.trans failed

end

def Ends (p : Platform) (early late : UserInterface) (mgr : Manager) : Prop :=
  ∀ waiting, processMailBoxes p early mgr = (.delayed, waiting) →
    late.available = true ∧ (processMailBoxes p late { waiting with processingAtEndOfDxe := true }).1 ≠ .delayed

theorem processMailBoxes_notDelayed {p : Platform} {ui : UserInterface} {mgr : Manager}
    (ends : (processMailBoxes p ui mgr).1 ≠ .delayed) : (processInOrder p ui atomicBoxes mgr).1 ≠ .delayed := by
  intro delayed
  rw [processMailBoxes] at ends
  generalize processInOrder p ui atomicBoxes mgr = answer at ends delayed
  obtain ⟨ending, after⟩ := answer
  cases delayed
  exact ends rfl

end Manager

/-! ## Where permission packets are applied -/

def PacketStep.appliesPermissions : PacketStep → Bool
  | .apply _ box _ => box.isPermissions
  | .complete .. => false

theorem PacketStep.appliesPermissions_of_box (step : PacketStep) (other : step.box.isPermissions = false) :
    step.appliesPermissions = false := by
  cases step with
  | apply => exact other
  | complete => rfl

namespace Manager

section

variable {p : Platform} {mgr : Manager}

theorem unauthenticated_of_mem {steps : List PacketStep} (others : ∀ step ∈ steps, step.appliesPermissions = false)
    (m : Machine) : Runs.Guarded (Machine.take p) (Machine.Unauthenticated p) m steps := by
  apply Runs.guarded_of_forall
  intro step mem m
  have other := others step mem
  cases step with
  | apply ui box data =>
    intro isPermissions
    cases other.symm.trans isPermissions
  | complete => trivial

theorem mem_completeSteps {applyStatus : EfiStatus} {box : MailBox} {step : PacketStep}
    (mem : step ∈ completeSteps applyStatus box mgr) : step.appliesPermissions = false := by
  rw [completeSteps] at mem
  split at mem
  · cases mem
  · rw [List.mem_singleton.mp mem]
    rfl

/-- Behind the first phase no permission packet is applied. -/
theorem mem_completionsSteps {ui : UserInterface} {lkgStatus : EfiStatus} {step : PacketStep}
    (mem : step ∈ completionsSteps p ui lkgStatus mgr) : step.appliesPermissions = false := by
  simp only [completionsSteps, completeAtomicSteps, List.mem_append] at mem
  rcases mem with (((((permissions2 | permissions) | identity) | identity2) | first) | second) | unenrolls
  · exact mem_completeSteps permissions2
  · exact mem_completeSteps permissions
  -- all others are steps of other packets
  · exact step.appliesPermissions_of_box (by rw [box_completeEnrollSteps step identity]; rfl)
  · exact step.appliesPermissions_of_box (by rw [box_completeEnrollSteps step identity2]; rfl)
  · exact step.appliesPermissions_of_box (by rw [box_settingsSteps step first]; rfl)
  · exact step.appliesPermissions_of_box (by rw [box_settingsSteps step second]; rfl)
  · have others : ∀ box ∈ [MailBox.identity2, .identity], box.isPermissions = false := by decide
    exact step.appliesPermissions_of_box (others _ (box_unEnrollsSteps step unenrolls))

theorem mailBoxesSteps_signed {ui : UserInterface}
    (signed : ¬ Runs.Guarded (Machine.take p) (Machine.Unauthenticated p) mgr.machine (mailBoxesSteps p ui mgr)) :
    ¬ Runs.Guarded (Machine.take p) (Machine.Unauthenticated p) mgr.machine (inOrderSteps p ui atomicBoxes mgr) := by
  intro unsigned
  refine signed (Runs.guarded_append _ |>.mpr ⟨unsigned, unauthenticated_of_mem ?_ _⟩)
  intro step mem
  split at mem
  · cases mem
  · exact mem_completionsSteps mem
  · exact mem_completionsSteps mem

/-- Packets that have had their turn are not authenticated again. -/
theorem Exhausted.unauthenticated_inOrder (ui : UserInterface) {boxes : List MailBox} (exhausted : mgr.Exhausted boxes)
    (atomic : ∀ box ∈ boxes, box ∈ atomicBoxes) :
    Runs.Guarded (Machine.take p) (Machine.Unauthenticated p) mgr.machine (inOrderSteps p ui boxes mgr) := by
  induction boxes with
  | nil => trivial
  | cons box boxes ih =>
    obtain ⟨isAtomic, atomic⟩ := List.forall_mem_cons.mp atomic
    rw [inOrderSteps]
    rcases exhausted with spent | ⟨passed, rest⟩
    · have turned : ∃ code after auth, processPacket p ui box mgr = (.error code, after) ∧
          after.machine = { mgr.machine with auth := auth } := processPacket_spent ui isAtomic spent
      obtain ⟨code, after, _, fails, _⟩ := turned
      rw [fails, List.append_nil, packetSteps]
      split
      · trivial
      · split
        · trivial
        · rename_i decoded
          split
          · trivial
          · have processed := (spent.2.resolve_left fun failed => failed decoded).2
            refine ⟨fun _ => ?_, trivial⟩
            rw [permissionsSigner, if_neg]
            exact fun checks => processed checks.1
    · have nothing : packetSteps ui box mgr = [] := by
        rw [packetSteps]
        rcases passed with empty | ⟨decoded, unenroll⟩
        · have isNone : (mgr.data box).packet.isNone = true := Option.isNone_iff_eq_none.mpr empty
          rw [if_pos isNone]
        · split
          · rfl
          · simp only [decoded]
            exact if_pos unenroll
      rw [nothing, processPacket_passed ui passed]
      exact ih rest atomic

theorem Exhausted.unauthenticated (ui : UserInterface) (exhausted : mgr.Exhausted atomicBoxes) :
    Runs.Guarded (Machine.take p) (Machine.Unauthenticated p) mgr.machine (mailBoxesSteps p ui mgr) := by
  by_contra signed
  exact mailBoxesSteps_signed signed (exhausted.unauthenticated_inOrder ui fun _ mem => mem)

end

/-! ## The mailboxes of a boot -/

section

variable {p : Platform} (saves : ∀ flash, (initAndSave p flash).1 = .success)
include saves

/-- Once all packets have had their turn, a second pass has nothing to save. -/
theorem synced_exhausted {mgr : Manager} (exhausted : mgr.Exhausted atomicBoxes)
    (sorted : mgr.Sorted) {ui : UserInterface} (ends : (processMailBoxes p ui mgr).1 ≠ .delayed)
    (synced : Synced p mgr.machine.permissions) : Synced p (processMailBoxes p ui mgr).2.machine.permissions := by
  apply synced_processMailBoxes saves sorted
  intro ending after isAnswer
  have notDelayed := processMailBoxes_notDelayed ends
  obtain ⟨auth, kept⟩ : ∃ auth, (processInOrder p ui atomicBoxes mgr).2.machine =
      { mgr.machine with auth := auth } := Exhausted.processInOrder ui (fun _ mem => mem) exhausted
  rw [isAnswer] at notDelayed kept
  have afterSynced : Synced p after.machine.permissions := by
    rw [kept]
    exact synced
  exact ⟨notDelayed, fun lkgStatus _ => synced_completeAtomic lkgStatus afterSynced⟩

omit saves in
/-- What the first phase of a run leaves to save, when no packet behind it has a valid signature. -/
theorem owes_processInOrder {mgr : Manager} (phase : Phase p mgr) (sorted : mgr.Sorted)
    (synced : Synced p mgr.machine.permissions) {early : UserInterface} {later : List PacketStep}
    (unsigned : Runs.Guarded (Machine.take p) (Machine.Unauthenticated p)
      (processMailBoxes p early mgr).2.machine later)
    (guarded : Runs.Guarded (Machine.take p) (Machine.KeepsEntries p) mgr.machine
        (mailBoxesSteps p early mgr ++ later) ∨
      ¬ Runs.Guarded (Machine.take p) (Machine.Unauthenticated p) mgr.machine (mailBoxesSteps p early mgr ++ later)) :
    Synced p (processInOrder p early atomicBoxes mgr).2.machine.permissions ∨
      (processInOrder p early atomicBoxes mgr).2.Dirty := by
  have first := PhaseRun.processInOrder early (fun _ mem => mem) phase sorted
  have reached : Runs.run (Machine.take p) mgr.machine (mailBoxesSteps p early mgr) =
      (processMailBoxes p early mgr).2.machine := (Spells.traces p).mailBoxes early mgr
  rw [Runs.guarded_append, Runs.guarded_append, reached] at guarded
  rcases guarded with ⟨keeps, _⟩ | signed
  · rw [mailBoxesSteps, Runs.guarded_append] at keeps
    exact first.keeps (.inl synced) keeps.1
  · exact first.signed (mailBoxesSteps_signed fun early => signed ⟨early, unsigned⟩)

/-- A run that waits for the user in its first phase: what the first pass left to save the second one finds. -/
theorem synced_waiting {mgr waiting : Manager} (phase : Phase p mgr) (sorted : mgr.Sorted)
    (synced : Synced p mgr.machine.permissions) {early late : UserInterface}
    (waits : processInOrder p early atomicBoxes mgr = (.delayed, waiting))
    (ends : (processMailBoxes p late { waiting with processingAtEndOfDxe := true }).1 ≠ .delayed)
    (guarded : Runs.Guarded (Machine.take p) (Machine.KeepsEntries p) mgr.machine (mailBoxesSteps p early mgr ++
          mailBoxesSteps p late { waiting with processingAtEndOfDxe := true }) ∨
      ¬ Runs.Guarded (Machine.take p) (Machine.Unauthenticated p) mgr.machine
        (mailBoxesSteps p early mgr ++
          mailBoxesSteps p late { waiting with processingAtEndOfDxe := true })) :
    Synced p (processMailBoxes p late { waiting with processingAtEndOfDxe := true }).2.machine.permissions := by
  have first := PhaseRun.processInOrder early (fun _ mem => mem) phase sorted
  have waitingSorted : (processInOrder p early atomicBoxes mgr).2.Sorted :=
    sorted.follows ((Follows.refl mgr).processInOrder early atomicBoxes)
  have reached : Runs.run (Machine.take p) mgr.machine (mailBoxesSteps p early mgr) =
      waiting.machine := by
    have spells : Runs.run (Machine.take p) mgr.machine (mailBoxesSteps p early mgr) = _ :=
      (Spells.traces p).mailBoxes early mgr
    rw [spells, processMailBoxes, waits]
  rw [waits] at first waitingSorted
  have waitingPhase : Phase p waiting := first.phase (by simp)
  have latePhase : Phase p { waiting with processingAtEndOfDxe := true } :=
    ⟨waitingPhase.backed, waitingPhase.modified⟩
  have lateSorted : ({ waiting with processingAtEndOfDxe := true } : Manager).Sorted := waitingSorted
  have again := PhaseRun.processInOrder late (fun _ mem => mem) latePhase lateSorted
  refine synced_of_phaseRun saves lateSorted again (processMailBoxes_notDelayed ends) ?_
  rw [Runs.guarded_append, Runs.guarded_append, reached] at guarded
  rcases guarded with ⟨keepsFirst, keepsAgain⟩ | signed
  · rw [mailBoxesSteps, Runs.guarded_append] at keepsFirst keepsAgain
    exact again.keeps (first.keeps (.inl synced) keepsFirst.1) keepsAgain.1
  · rcases not_and_or.mp signed with signed | signed
    · exact .inr (again.dirty (first.waits rfl (mailBoxesSteps_signed signed)))
    · exact again.signed (mailBoxesSteps_signed signed)

end

/-- The state in which `ProcessMailBoxes` is called for the first time. -/
structure Starts (p : Platform) (m : Machine) (mgr : Manager) : Prop where
  machine : mgr.machine = m
  early : mgr.processingAtEndOfDxe = false
  sorted : mgr.Sorted
  phase : Phase p mgr

theorem starts_allocateManagerData {p : Platform} {m : Machine}
    (synced : Synced p m.permissions) (read : MailBox → Except Nat (List Byte)) :
    Starts p m (allocateManagerData p m read) := by
  have fresh := fresh_allocateManagerData p m read
  refine ⟨rfl, rfl, sorted_allocateManagerData p m read, synced.backed, ?_⟩
  intro dirty
  obtain ⟨box, _, _, isDirty⟩ := dirty
  cases (fresh box).clean.symm.trans isDirty

section

variable {p : Platform} {m : Machine} {mgr : Manager} (starts : Starts p m mgr)
  {early : UserInterface} (waits : (processInOrder p early atomicBoxes mgr).1 ≠ .delayed)
include starts waits

/-- A run whose first phase ended waits when all packets of that had their turn. -/
theorem Starts.exhausts_delayed {waiting : Manager} (delayed : processMailBoxes p early mgr = (.delayed, waiting)) :
    ({ waiting with processingAtEndOfDxe := true } : Manager).Exhausted atomicBoxes := by
  refine (processMailBoxes_delayed early starts.early starts.sorted delayed).resolve_left fun isWaiting => waits ?_
  rw [isWaiting]

end

end Manager

namespace Machine

/-- The mailbox runs that are meant to leave no trace in memory alone: no enrolment has an entry to rewrite, or a
permission packet with a valid signature comes with it. -/
def SavesEntries (p : Platform) (m : Machine) : MachineEvent → Prop
  | .mailboxes early late read =>
    (Manager.allocateManagerData p m read).Ends p early late ∧
      (Runs.Guarded (take p) (KeepsEntries p) m (m.mailboxesSteps p early late read) ∨
        ¬ Runs.Guarded (take p) (Unauthenticated p) m
          (m.mailboxesSteps p early late read))
  | _ => True

section

variable {p : Platform} (saves : ∀ flash, (initAndSave p flash).1 = .success)
include saves

section

variable {m : Machine} (synced : Synced p m.permissions) {early late : UserInterface}
  {read : MailBox → Except Nat (List Byte)}
include synced

/-- A run whose first phase ends leaves memory and variable in agreement, also where it waits for the user. -/
theorem synced_firstPass {mgr : Manager} {steps : List PacketStep}
    (allocates : Manager.allocateManagerData p m read = mgr) (isSteps : m.mailboxesSteps p early late read = steps)
    (guarded : Runs.Guarded (take p) (KeepsEntries p) m steps ∨ ¬ Runs.Guarded (take p) (Unauthenticated p) m steps)
    (waits : (Manager.processInOrder p early Manager.atomicBoxes mgr).1 ≠ .delayed) :
    Synced p (Manager.processMailBoxes p early mgr).2.machine.permissions := by
  have starts := Manager.starts_allocateManagerData synced read
  rw [← isSteps, mailboxesSteps, allocates] at guarded
  rw [allocates] at starts
  obtain rfl := starts.machine
  have exhausts : ∀ waiting, Manager.processMailBoxes p early mgr = (.delayed, waiting) →
      ({ waiting with processingAtEndOfDxe := true } : Manager).Exhausted Manager.atomicBoxes :=
    fun _ delayed => starts.exhausts_delayed waits delayed
  have owes := Manager.owes_processInOrder starts.phase starts.sorted synced ?_ guarded
  · exact Manager.synced_of_phaseRun saves starts.sorted
      (Manager.PhaseRun.processInOrder early (fun _ mem => mem) starts.phase starts.sorted) waits owes
  · generalize Manager.processMailBoxes p early mgr = answer at exhausts
    obtain ⟨ending, waiting⟩ := answer
    cases ending with
    | delayed =>
      simp only
      split
      · exact (exhausts waiting rfl).unauthenticated late
      · trivial
    | completed | failed code => trivial

theorem synced_mailboxes (guarded : m.SavesEntries p (.mailboxes early late read)) :
    Synced p (m.mailboxes p early late read).permissions := by
  obtain ⟨ends, guarded⟩ := guarded
  have starts := Manager.starts_allocateManagerData synced read
  have firstPass := fun waits => synced_firstPass saves synced rfl rfl guarded waits
  rw [mailboxesSteps] at guarded
  rw [mailboxes]
  generalize Manager.allocateManagerData p m read = mgr at *
  obtain rfl := starts.machine
  by_cases waits : (Manager.processInOrder p early Manager.atomicBoxes mgr).1 = .delayed
  · -- the first phase waits for the user
    obtain ⟨waiting, isWaiting⟩ : ∃ waiting, Manager.processInOrder p early Manager.atomicBoxes mgr =
        (.delayed, waiting) := ⟨_, Prod.ext waits rfl⟩
    have delayed : Manager.processMailBoxes p early mgr = (.delayed, waiting) := by
      rw [Manager.processMailBoxes, isWaiting]
    obtain ⟨available, endsLate⟩ := ends waiting delayed
    simp only [delayed, available, if_true] at guarded ⊢
    exact Manager.synced_waiting saves starts.phase starts.sorted synced isWaiting endsLate guarded
  · -- the first phase ends, and only what comes behind it can wait
    have settled := firstPass waits
    have lateSorted : (Manager.processMailBoxes p early mgr).2.Sorted :=
      starts.sorted.follows (Manager.Follows.processMailBoxes (.refl mgr) early)
    have exhausts : ∀ waiting, Manager.processMailBoxes p early mgr = (.delayed, waiting) →
        ({ waiting with processingAtEndOfDxe := true } : Manager).Exhausted Manager.atomicBoxes :=
      fun _ delayed => starts.exhausts_delayed waits delayed
    rw [Manager.Ends] at ends
    generalize Manager.processMailBoxes p early mgr = answer at *
    obtain ⟨ending, waiting⟩ := answer
    cases ending with
    | delayed =>
      obtain ⟨available, endsLate⟩ := ends waiting rfl
      simp only [available, if_true]
      exact Manager.synced_exhausted saves (exhausts waiting rfl) lateSorted endsLate settled
    | completed | failed code => exact settled

end

theorem synced_step {m : Machine} {event : MachineEvent} (synced : Synced p m.permissions)
    (guarded : m.SavesEntries p event) : Synced p (m.step p event).permissions := by
  cases event with
  | boot zeroTouch => exact synced_boot saves synced.backed.sound.own _
  | mailboxes early late read => exact synced_mailboxes saves synced guarded
  | recovery recoveryId =>
    let started := m.auth.createAuthTokenWithMapping p recoveryId
    have same : Synced p ({ m with auth := started.2 } : Machine).permissions := synced
    exact Manager.synced_clearDfci saves same started.1
  | authWithPW | authWithSignedData | disposeAuthToken | setSetting => exact synced
  | resetSettings token =>
    simp only [step, systemSettingsAccessReset]
    split <;> exact synced
  | resetPermissions token =>
    simp only [step, resetPermissionsToDefault]
    split
    · exact synced
    · exact synced
    · exact synced_initAndSave synced.backed.sound.own (saves _)

end

/-- A reset does not change who may write what. -/
theorem reboot_keeps_permissions {p : Platform} (writes : ∀ name data, p.setVariable name data = .success)
    (fits : (PermissionStore.initPermStore p).varSize ≤ PermissionStore.maxSizeForVar) (m : Machine)
    (own : PermissionStore.OwnAttributes m.permissions.flash) (zeroTouch : ZeroTouch) (events : List MachineEvent)
    (guarded : Runs.Guarded (step p) (SavesEntries p) (m.boot p zeroTouch) events) :
    let perms := (Runs.run (step p) (m.boot p zeroTouch) events).permissions
    ∃ store loaded flash, perms.store = some store ∧
      PermissionStore.loadFromFlash p perms.flash = (.success, some loaded, flash) ∧ loaded.Agrees store := by
  have saves : ∀ flash, (initAndSave p flash).1 = .success :=
    fun flash => (initAndSave_success_iff writes flash).mpr fits
  have start : Synced p (m.boot p zeroTouch).permissions := synced_boot saves own _
  have preserved : ∀ (m : Machine) event, Synced p m.permissions → m.SavesEntries p event →
      Synced p (m.step p event).permissions :=
    fun _ _ synced guarded => synced_step saves synced guarded
  have reached := Runs.Guarded.invariant _ preserved start guarded
  exact reached.loads

instance (p : Platform) (m : Machine) (step : PacketStep) : Decidable (m.Unauthenticated p step) :=
  match step with
  | .apply _ box _ => inferInstanceAs (Decidable (box.isPermissions = true → _))
  | .complete .. => inferInstanceAs (Decidable True)

/-- The enrolment of an Owner with a permission packet of that Owner, and a reset. -/
theorem reboot_keeps_permissions_signed :
    let booted := (blank ⟨[], [], nofun⟩ 0).boot ownerOnlyPlatform {}
    let events := [MachineEvent.mailboxes confirmingUser confirmingUser ownerMailboxes]
    let reached := Runs.run (step ownerOnlyPlatform) booted events
    reached.certs.provisionedCert .signerOwner = some [1] ∧
      ∃ store loaded flash, reached.permissions.store = some store ∧
        PermissionStore.loadFromFlash ownerOnlyPlatform reached.permissions.flash = (.success, some loaded, flash) ∧
        loaded.Agrees store := by
  have ends : (Manager.allocateManagerData ownerOnlyPlatform ((blank ⟨[], [], nofun⟩ 0).boot ownerOnlyPlatform {})
      ownerMailboxes).Ends ownerOnlyPlatform confirmingUser confirmingUser := by
    intro waiting delayed
    have ending : (Manager.processMailBoxes ownerOnlyPlatform confirmingUser (Manager.allocateManagerData
      ownerOnlyPlatform ((blank ⟨[], [], nofun⟩ 0).boot ownerOnlyPlatform {}) ownerMailboxes)).1 ≠ .delayed := by
      decide +kernel
    rw [delayed] at ending
    exact absurd rfl ending
  exact ⟨by decide +kernel, reboot_keeps_permissions (fun _ _ => rfl) (by decide +kernel) (blank ⟨[], [], nofun⟩ 0)
    (by rintro _ ⟨⟩) {} _ ⟨⟨ends, .inr (by decide +kernel)⟩, trivial⟩⟩

/-- The enrolment of an Owner and nothing else. The entry of the ZTD key is closed in memory only, and a reset brings
back the one that lets the local user enroll Zero Touch. -/
theorem reboot_reopens_ztdKey :
    let booted := (blank ⟨[], [], nofun⟩ 0).boot keyedPlatform {}
    let enrolled := booted.mailboxes keyedPlatform confirmingUser confirmingUser (identityMailbox (enrollPacket 1 1 1))
    let rebooted := enrolled.boot keyedPlatform {}
    enrolled.certs.provisionedCert .signerOwner = some [1] ∧
      (¬ ∃ store loaded flash, enrolled.permissions.store = some store ∧
        PermissionStore.loadFromFlash keyedPlatform enrolled.permissions.flash = (.success, some loaded, flash) ∧
        loaded.Agrees store) ∧
      (enrolled.permissions.store.map fun store => store.queryPermission ztdKeyId) = some Mask.none ∧
      (rebooted.permissions.store.map fun store => store.queryPermission ztdKeyId) = some Mask.default := by
  intro booted enrolled rebooted
  refine ⟨by decide +kernel, ?_, by decide +kernel, by decide +kernel⟩
  rintro ⟨store, loaded, flash, isStore, loads, agrees⟩
  have differ : ((PermissionStore.loadFromFlash keyedPlatform enrolled.permissions.flash).2.1.map
      PermissionStore.rights) ≠ enrolled.permissions.store.map PermissionStore.rights := by decide +kernel
  rw [loads, isStore] at differ
  exact differ (congrArg some agrees.rights)

end Machine

end Dfci
