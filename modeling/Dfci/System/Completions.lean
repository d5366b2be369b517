import Dfci.Manager.Settled
import Dfci.System.Steps

/-! # The completions of a run

`CompletePacket` is called for every mailbox with a packet in it, in an order that depends on which of the two identity
packets are unenrolls. A run that waits stops before the unenroll that waits. -/

namespace Dfci

open Manager

def PacketStep.completed : PacketStep → Option MailBox
  | .apply .. => none
  | .complete _ box _ => some box

def completedBoxes (steps : List PacketStep) : List MailBox :=
  steps.filterMap PacketStep.completed

namespace Manager

def isPresent (mgr : Manager) (box : MailBox) : Bool := (mgr.data box).packet.isSome

def isUnenroll (mgr : Manager) (box : MailBox) : Bool := (mgr.data box).unenroll

def enrollOrder (mgr : Manager) : List MailBox :=
  List.filter mgr.isPresent (MailBox.permissions2 :: .permissions ::
    (List.filter (fun box => !mgr.isUnenroll box) [.identity, .identity2] ++ [.settings, .settings2]))

def unenrollOrder (mgr : Manager) (boxes : List MailBox) : List MailBox :=
  (boxes.filter mgr.isUnenroll).filter mgr.isPresent

structure SameMail (later earlier : Manager) : Prop where
  packet : ∀ box, (later.data box).packet = (earlier.data box).packet
  unenroll : ∀ box, (later.data box).unenroll = (earlier.data box).unenroll

theorem SameMail.refl (mgr : Manager) : mgr.SameMail mgr := ⟨fun _ => rfl, fun _ => rfl⟩

theorem SameMail.trans {first second third : Manager} (later : third.SameMail second) (earlier : second.SameMail first) :
    third.SameMail first :=
  ⟨fun box => (later.packet box).trans (earlier.packet box), fun box => (later.unenroll box).trans (earlier.unenroll box)⟩

theorem SameMail.isPresent {later earlier : Manager} (same : later.SameMail earlier) :
    later.isPresent = earlier.isPresent := by
  funext box
  simp only [Manager.isPresent, same.packet box]

theorem SameMail.isUnenroll {later earlier : Manager} (same : later.SameMail earlier) :
    later.isUnenroll = earlier.isUnenroll :=
  funext same.unenroll

section

variable (p : Platform)

theorem applyNewSettingsPacket_mail (box : MailBox) (certs : CertStore) (store : Option PermissionStore)
    (auth : AuthState) (settings : SettingsState) (data : Packet) :
    let applied := SettingsState.applyNewSettingsPacket p box certs store auth settings data
    applied.data.packet = data.packet ∧ applied.data.unenroll = data.unenroll := by
  have cleaned : ∀ applied : SettingsState.PacketApplied,
      applied.data.packet = data.packet ∧ applied.data.unenroll = data.unenroll →
      applied.cleanup.data.packet = data.packet ∧ applied.cleanup.data.unenroll = data.unenroll := by
    intro applied kept
    have follows := cleanupToken_follows applied.auth applied.data
    exact ⟨follows.packet.trans kept.1, follows.unenroll.trans kept.2⟩
  have loaded : ∀ internal, let applied := SettingsState.applyLoaded p box certs store auth settings internal data
      applied.data.packet = data.packet ∧ applied.data.unenroll = data.unenroll := by
    intro internal
    have validated : (validateAndAuthenticateSettings p certs auth data).2.2.packet = data.packet ∧
        (validateAndAuthenticateSettings p certs auth data).2.2.unenroll = data.unenroll := by
      rw [validateAndAuthenticateSettings]
      split <;> exact ⟨rfl, rfl⟩
    simp only [SettingsState.applyLoaded]
    generalize validateAndAuthenticateSettings p certs auth data = answer at validated ⊢
    obtain ⟨status, auth, record⟩ := answer
    cases status with
    | error code => exact validated
    | success =>
      simp only
      split <;> exact validated
  apply cleaned
  split
  · exact ⟨rfl, rfl⟩
  · split
    · exact ⟨rfl, rfl⟩
    · exact loaded _

theorem applyPacket_mail (ui : UserInterface) (box : MailBox) (m : Machine) (data : Packet) :
    let applied := applyPacket p ui box m data
    applied.data.packet = data.packet ∧ applied.data.unenroll = data.unenroll := by
  have atomic : box ∈ atomicBoxes → (applyPacket p ui box m data).data.Follows data :=
    fun isAtomic => applyPacket_follows p ui box isAtomic m data
  have settings := applyNewSettingsPacket_mail p box m.certs m.permissions.store m.auth
    m.settings data
  cases box with
  | settings | settings2 => exact settings
  | identity | identity2 | permissions | permissions2 =>
    exact ⟨(atomic (by decide)).packet, (atomic (by decide)).unenroll⟩

variable {p} {mgr : Manager}

/-- A change to the record of one mailbox that keeps the packet. -/
theorem SameMail.setData {box : MailBox} {data : Packet} {later : Manager}
    (isData : later.data box = data) (others : ∀ other, other ≠ box → later.data other = mgr.data other)
    (packet : data.packet = (mgr.data box).packet) (unenroll : data.unenroll = (mgr.data box).unenroll) :
    later.SameMail mgr := by
  constructor
  · intro other
    by_cases same : other = box
    · rw [same, isData, packet]
    · rw [others other same]
  · intro other
    by_cases same : other = box
    · rw [same, isData, unenroll]
    · rw [others other same]

theorem SameMail.applies (ui : UserInterface) (box : MailBox) (mgr : Manager) :
    (processApplyPacket p ui box mgr).2.SameMail mgr := by
  have mail := applyPacket_mail p ui box mgr.machine (mgr.data box)
  refine .setData rfl (fun other differs => processApplyPacket_data_other p ui box mgr differs) ?_ ?_
  · rw [processApplyPacket_data_self]
    simp only
    split
    · exact mail.1
    · exact mail.1
  · rw [processApplyPacket_data_self]
    simp only
    split
    · exact mail.2
    · exact mail.2

theorem SameMail.completes (applyStatus : EfiStatus) (box : MailBox) (mgr : Manager) :
    (completePacket p applyStatus box mgr).SameMail mgr := by
  have done := (lkg_follows p (completedOperation applyStatus) box mgr.machine
    (completedData applyStatus (mgr.data box))).trans (completedData_follows applyStatus (mgr.data box))
  have others : ∀ other, other ≠ box →
      (completePacket p applyStatus box mgr).data other = mgr.data other :=
    fun other differs => congrArg ManagerData.data (completePacket_boxes_other applyStatus differs)
  have self : (completePacket p applyStatus box mgr).data box = mgr.data box ∨
      (completePacket p applyStatus box mgr).data box =
        (lkg p (completedOperation applyStatus) box mgr.machine
          (completedData applyStatus (mgr.data box))).data := by
    rw [completePacket_eq]
    split
    · exact .inl rfl
    · simp only
      split <;> simp
  rcases self with kept | changed
  · exact .setData kept others rfl rfl
  · exact .setData changed others done.packet done.unenroll

variable {start : Manager} (same : mgr.SameMail start)
include same

theorem SameMail.processPacket (ui : UserInterface) (box : MailBox) : (processPacket p ui box mgr).2.SameMail start :=
  processPacket_invariant (fun later => later.SameMail start)
    (fun ui box later held => (applies ui box later).trans held) ui box same

theorem SameMail.processInOrder (ui : UserInterface) (boxes : List MailBox) :
    (processInOrder p ui boxes mgr).2.SameMail start :=
  processInOrder_invariant (fun later => later.SameMail start)
    (fun ui box later held => (applies ui box later).trans held) ui boxes same

theorem SameMail.processUnEnrollPacket (ui : UserInterface) (box : MailBox) :
    (processUnEnrollPacket p ui box mgr).2.SameMail start :=
  processUnEnrollPacket_invariant (fun later => later.SameMail start)
    (fun ui box later held => (applies ui box later).trans held) (fun _ held => ⟨held.packet, held.unenroll⟩) ui box same

theorem SameMail.completePacket (applyStatus : EfiStatus) (box : MailBox) :
    (completePacket p applyStatus box mgr).SameMail start :=
  (completes applyStatus box mgr).trans same

theorem SameMail.completeEnroll (lkgStatus : EfiStatus) (box : MailBox) :
    (completeEnroll p lkgStatus box mgr).SameMail start := by
  rw [Manager.completeEnroll]
  split
  · exact same
  · exact same.completePacket lkgStatus box

theorem SameMail.processSettings (ui : UserInterface) (box : MailBox) :
    (processSettings p ui box mgr).SameMail start :=
  (same.processPacket ui box).completePacket .success box

end

/-! ## The completions of one run -/

@[simp] theorem completedBoxes_nil : completedBoxes [] = [] := rfl

@[simp] theorem completedBoxes_append (first second : List PacketStep) :
    completedBoxes (first ++ second) = completedBoxes first ++ completedBoxes second := by
  simp [completedBoxes]

section

variable {p : Platform} (ui : UserInterface) (box : MailBox) {start mgr : Manager}

@[simp] theorem completedBoxes_packetSteps : completedBoxes (packetSteps ui box mgr) = [] := by
  rw [packetSteps]
  repeat' split
  all_goals rfl

@[simp] theorem completedBoxes_inOrderSteps (boxes : List MailBox) :
    completedBoxes (inOrderSteps p ui boxes mgr) = [] := by
  induction boxes generalizing mgr with
  | nil => rfl
  | cons box boxes ih =>
    rw [inOrderSteps, completedBoxes_append, completedBoxes_packetSteps, List.nil_append]
    split
    · exact ih
    · rfl

@[simp] theorem completedBoxes_unEnrollPacketSteps : completedBoxes (unEnrollPacketSteps p ui box mgr) = [] := by
  rw [unEnrollPacketSteps, completedBoxes_append, completedBoxes_packetSteps, List.nil_append]
  repeat' split
  all_goals rfl

section

variable (same : mgr.SameMail start)
include same

theorem completedBoxes_completeSteps (applyStatus : EfiStatus) :
    completedBoxes (completeSteps applyStatus box mgr) = [box].filter start.isPresent := by
  rw [← same.isPresent, completeSteps]
  split
  · rename_i isNone
    have absent : mgr.isPresent box = false := by
      rw [isPresent, Option.isSome_eq_false_iff]
      exact isNone
    simp [absent]
  · rename_i isSome
    have present : mgr.isPresent box = true :=
      Option.isNone_eq_false_iff.mp (Bool.eq_false_of_not_eq_true isSome)
    simp [present, completedBoxes, PacketStep.completed]

theorem completedBoxes_completeEnrollSteps (lkgStatus : EfiStatus) :
    completedBoxes (completeEnrollSteps lkgStatus box mgr) =
      ([box].filter fun box => !start.isUnenroll box).filter start.isPresent := by
  have flag : start.isUnenroll box = (mgr.data box).unenroll := (same.unenroll box).symm
  rw [completeEnrollSteps]
  split
  · rename_i unenroll
    simp [flag, unenroll]
  · rename_i enroll
    rw [completedBoxes_completeSteps box same]
    simp [flag, enroll]

theorem completedBoxes_settingsSteps :
    completedBoxes (settingsSteps p ui box mgr) = [box].filter start.isPresent := by
  rw [settingsSteps, completedBoxes_append, completedBoxes_packetSteps, List.nil_append]
  exact completedBoxes_completeSteps box (same.processPacket ui box) .success

/-- The unenrolls that are completed, up to one that waits. -/
theorem completedBoxes_unEnrollsSteps (boxes : List MailBox) :
    (completedBoxes (unEnrollsSteps p ui boxes mgr)).Sublist (start.unenrollOrder boxes) := by
  induction boxes generalizing mgr with
  | nil => exact .refl []
  | cons box boxes ih =>
    have flag : start.isUnenroll box = (mgr.data box).unenroll := (same.unenroll box).symm
    have unenrolled : (processUnEnrollPacket p ui box mgr).2.SameMail start :=
      same.processUnEnrollPacket ui box
    rw [unEnrollsSteps]
    split
    · rename_i unenroll
      have order : start.unenrollOrder (box :: boxes) = [box].filter start.isPresent ++ start.unenrollOrder boxes := by
        rw [unenrollOrder, List.filter_cons_of_pos (flag.trans unenroll)]
        exact List.filter_append [box] _
      generalize processUnEnrollPacket p ui box mgr = answer at unenrolled ⊢
      obtain ⟨status, after⟩ := answer
      simp only [completedBoxes_append, completedBoxes_unEnrollPacketSteps, List.nil_append, order]
      split
      · exact List.nil_sublist _
      · rw [completedBoxes_append, completedBoxes_completeSteps box unenrolled]
        exact (List.Sublist.refl _).append (ih (unenrolled.completePacket status box))
    · rename_i enroll
      have order : start.unenrollOrder (box :: boxes) = start.unenrollOrder boxes := by
        rw [unenrollOrder, List.filter_cons_of_neg (flag.symm ▸ enroll), unenrollOrder]
      rw [order]
      exact ih same

/-- The steps behind the label `COMPLETE_AS_FAILED` complete the packets in their order, and the unenrolls last. -/
theorem completedBoxes_completionsSteps (lkgStatus : EfiStatus) : ∃ last : Manager, last.SameMail start ∧
      (processCompletions p ui lkgStatus mgr) = processUnEnrolls p ui [.identity2, .identity] last ∧
      completedBoxes (completionsSteps p ui lkgStatus mgr) =
        start.enrollOrder ++ completedBoxes (unEnrollsSteps p ui [.identity2, .identity] last) := by
  have permissions2 : (completePacket p lkgStatus .permissions2 mgr).SameMail start :=
    same.completePacket lkgStatus .permissions2
  have perms : (completePacket p lkgStatus .permissions
      (completePacket p lkgStatus .permissions2 mgr)).SameMail start :=
    permissions2.completePacket lkgStatus .permissions
  have identity : (completeEnroll p lkgStatus .identity (completePacket p lkgStatus .permissions
      (completePacket p lkgStatus .permissions2 mgr))).SameMail start :=
    perms.completeEnroll lkgStatus .identity
  have atomic : (completeAtomic p lkgStatus mgr).SameMail start :=
    identity.completeEnroll lkgStatus .identity2
  have settings : (processSettings p ui .settings (completeAtomic p lkgStatus mgr)).SameMail start :=
    atomic.processSettings ui .settings
  refine ⟨_, settings.processSettings ui .settings2, rfl, ?_⟩
  simp only [completionsSteps, completeAtomicSteps, completedBoxes_append]
  rw [completedBoxes_completeSteps _ same, completedBoxes_completeSteps _ permissions2,
    completedBoxes_completeEnrollSteps _ perms, completedBoxes_completeEnrollSteps _ identity,
    completedBoxes_settingsSteps ui _ atomic, completedBoxes_settingsSteps ui _ settings]
  have enrolls : List.filter (fun box => !start.isUnenroll box) [.identity, .identity2] =
      [MailBox.identity].filter (fun box => !start.isUnenroll box) ++
        [MailBox.identity2].filter (fun box => !start.isUnenroll box) :=
    List.filter_append [MailBox.identity] [.identity2]
  rw [enrollOrder, enrolls]
  simp only [← List.filter_append, List.append_assoc, List.cons_append, List.nil_append]

end

theorem nodup_completionOrder (mgr : Manager) :
    (mgr.enrollOrder ++ mgr.unenrollOrder [.identity2, .identity]).Nodup := by
  rw [enrollOrder, unenrollOrder, ← List.filter_append]
  apply List.Nodup.filter
  cases first : mgr.isUnenroll .identity <;> cases second : mgr.isUnenroll .identity2 <;> simp [first, second]

theorem not_mem_enrollOrder {mgr : Manager} {box : MailBox} (isIdentity : box.isIdentity = true)
    (isUnenroll : mgr.isUnenroll box = true) : box ∉ mgr.enrollOrder := by
  intro mem
  have listed := List.mem_of_mem_filter mem
  cases box with
  | identity | identity2 => simp [isUnenroll] at listed
  | permissions | permissions2 | settings | settings2 => cases isIdentity

/-- A run completes no packet twice. -/
theorem nodup_mailBoxesSteps (mgr : Manager) : (completedBoxes (mailBoxesSteps p ui mgr)).Nodup := by
  have completions : ∀ lkgStatus after, Manager.SameMail after mgr →
      (completedBoxes (completionsSteps p ui lkgStatus after)).Nodup := by
    intro lkgStatus after same
    obtain ⟨last, sameLast, _, order⟩ := completedBoxes_completionsSteps ui same lkgStatus
    rw [order]
    have unenrolls : (completedBoxes (unEnrollsSteps p ui [.identity2, .identity] last)).Sublist
        (mgr.unenrollOrder [.identity2, .identity]) := completedBoxes_unEnrollsSteps ui sameLast _
    exact (nodup_completionOrder mgr).sublist ((List.Sublist.refl _).append unenrolls)
  have inOrder : (processInOrder p ui atomicBoxes mgr).2.SameMail mgr :=
    (SameMail.refl mgr).processInOrder ui atomicBoxes
  rw [mailBoxesSteps, completedBoxes_append, completedBoxes_inOrderSteps, List.nil_append]
  generalize processInOrder p ui atomicBoxes mgr = answer at inOrder ⊢
  obtain ⟨ending, after⟩ := answer
  cases ending with
  | delayed => exact List.nodup_nil
  | completed => exact completions .success after inOrder
  | failed code => exact completions (.error code) after inOrder

/-! ## Runs that wait -/

/-- The unenroll that waits is one that is not completed. -/
theorem processUnEnrolls_waits (same : mgr.SameMail start) {boxes : List MailBox} (distinct : boxes.Nodup)
    (delayed : (processUnEnrolls p ui boxes mgr).1 = .delayed) :
    ∃ waiting ∈ boxes, start.isUnenroll waiting = true ∧ start.isPresent waiting = true ∧
      waiting ∉ completedBoxes (unEnrollsSteps p ui boxes mgr) := by
  induction boxes generalizing mgr with
  | nil => cases delayed
  | cons box boxes ih =>
    obtain ⟨notIn, distinct⟩ := List.nodup_cons.mp distinct
    have unenrolled : (processUnEnrollPacket p ui box mgr).2.SameMail start :=
      same.processUnEnrollPacket ui box
    have present : (processUnEnrollPacket p ui box mgr).1 = .mediaChanged → start.isPresent box = true := by
      intro waits
      rw [← same.isPresent]
      by_contra absent
      have isNone : (mgr.data box).packet.isNone = true := by
        rw [Option.isNone_iff_eq_none]
        simpa [isPresent] using absent
      have passes : processPacket p ui box mgr = (.success, mgr) := by
        rw [processPacket, if_pos isNone]
      rw [processUnEnrollPacket, passes] at waits
      have notSome : (mgr.data box).packet.isSome = false := by simpa [isPresent] using absent
      simp [notSome] at waits
    rw [processUnEnrolls] at delayed
    rw [unEnrollsSteps]
    split at delayed
    · rename_i unenroll
      rw [if_pos unenroll]
      generalize processUnEnrollPacket p ui box mgr = answer at delayed unenrolled present ⊢
      obtain ⟨status, after⟩ := answer
      simp only [completedBoxes_append, completedBoxes_unEnrollPacketSteps, List.nil_append] at delayed present ⊢
      split at delayed
      · rename_i waits
        refine ⟨box, List.mem_cons_self, (same.unenroll box).symm.trans unenroll, present waits, ?_⟩
        rw [if_pos waits]
        exact List.not_mem_nil
      · rename_i goesOn
        rw [if_neg goesOn]
        obtain ⟨waiting, mem, isUnenroll, isPresent, uncompleted⟩ :=
          ih (unenrolled.completePacket status box) distinct delayed
        refine ⟨waiting, List.mem_cons_of_mem _ mem, isUnenroll, isPresent, ?_⟩
        rw [completedBoxes_append, completedBoxes_completeSteps box unenrolled, List.mem_append, not_or]
        refine ⟨fun completed => ?_, uncompleted⟩
        rw [List.mem_singleton.mp (List.mem_of_mem_filter completed)] at mem
        exact notIn mem
    · rename_i enroll
      rw [if_neg enroll]
      obtain ⟨waiting, mem, rest⟩ := ih same distinct delayed
      exact ⟨waiting, List.mem_cons_of_mem _ mem, rest⟩

/-- A run that waits completes nothing, if there is no unenroll among its packets or no other packet. -/
theorem completedBoxes_delayed (mgr : Manager) (simple : (∀ box, box.isIdentity = true → mgr.isUnenroll box = false) ∨
      ∀ box other, mgr.isPresent box = true → mgr.isPresent other = true → box = other)
    (delayed : (processMailBoxes p ui mgr).1 = .delayed) : completedBoxes (mailBoxesSteps p ui mgr) = [] := by
  have completions : ∀ lkgStatus after, Manager.SameMail after mgr →
      (processCompletions p ui lkgStatus after).1 = .delayed →
      completedBoxes (completionsSteps p ui lkgStatus after) = [] := by
    intro lkgStatus after same delayed
    obtain ⟨last, sameLast, continues, order⟩ := completedBoxes_completionsSteps ui same lkgStatus
    rw [continues] at delayed
    obtain ⟨waiting, mem, isUnenroll, isPresent, uncompleted⟩ :=
      processUnEnrolls_waits ui sameLast (by decide) delayed
    have isIdentity : waiting.isIdentity = true := by
      have both : ∀ box ∈ [MailBox.identity2, .identity], box.isIdentity = true := by decide
      exact both waiting mem
    rcases simple with enrolls | alone
    · rw [enrolls waiting isIdentity] at isUnenroll
      cases isUnenroll
    · -- whatever is completed is the packet that waits
      rw [order, List.append_eq_nil_iff]
      have unenrolls : (completedBoxes (unEnrollsSteps p ui [.identity2, .identity] last)).Sublist
          (mgr.unenrollOrder [.identity2, .identity]) := completedBoxes_unEnrollsSteps ui sameLast _
      constructor
      · rw [List.eq_nil_iff_forall_not_mem]
        intro box completed
        have there : mgr.isPresent box = true := List.of_mem_filter completed
        rw [alone box waiting there isPresent] at completed
        exact not_mem_enrollOrder isIdentity isUnenroll completed
      · rw [List.eq_nil_iff_forall_not_mem]
        intro box completed
        have there := List.of_mem_filter (unenrolls.subset completed)
        rw [alone box waiting there isPresent] at completed
        exact uncompleted completed
  have inOrder : (processInOrder p ui atomicBoxes mgr).2.SameMail mgr :=
    (SameMail.refl mgr).processInOrder ui atomicBoxes
  rw [mailBoxesSteps, completedBoxes_append, completedBoxes_inOrderSteps, List.nil_append]
  rw [processMailBoxes] at delayed
  generalize processInOrder p ui atomicBoxes mgr = answer at inOrder delayed ⊢
  obtain ⟨ending, after⟩ := answer
  cases ending with
  | delayed => rfl
  | completed => exact completions .success after inOrder delayed
  | failed code => exact completions (.error code) after inOrder delayed

end

end Manager

end Dfci
