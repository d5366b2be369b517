import Dfci.System

/-! # The steps of a mailbox run

`ProcessMailBoxes` applies packets and completes them. Here a run is spelled out as the list of these steps, so that a
condition can be put on the machine before each of them. -/

namespace Dfci

inductive PacketStep where
  | apply (ui : UserInterface) (box : MailBox) (data : Packet)
  | complete (op : LkgOperation) (box : MailBox) (data : Packet)

def PacketStep.box : PacketStep → MailBox
  | .apply _ box _ => box
  | .complete _ box _ => box

def Machine.take (p : Platform) (m : Machine) : PacketStep → Machine
  | .apply ui box data => (applyPacket p ui box m data).machine
  | .complete op box data => (lkg p op box m data).machine

namespace Manager

section

variable (p : Platform) (ui : UserInterface)

/-- The step of `ProcessPacket`, if it applies the packet. -/
def packetSteps (box : MailBox) (mgr : Manager) : List PacketStep :=
  if (mgr.data box).packet.isNone then
    []
  else
    match (mgr.boxes box).decodeStatus with
    | .error _ => []
    | .success => if (mgr.data box).unenroll then [] else [.apply ui box (mgr.data box)]

/-- The steps of `processInOrder`, up to the packet that fails or waits. -/
def inOrderSteps : List MailBox → Manager → List PacketStep
  | [], _ => []
  | box :: boxes, mgr =>
    packetSteps ui box mgr ++
      match processPacket p ui box mgr with
      | (.success, mgr) => inOrderSteps boxes mgr
      | (.error _, _) => []

def unEnrollPacketSteps (box : MailBox) (mgr : Manager) : List PacketStep :=
  packetSteps ui box mgr ++
    match processPacket p ui box mgr with
    | (.error _, _) => []
    | (.success, mgr) =>
      if (mgr.data box).packet.isSome && (mgr.data box).unenroll then [.apply ui box (mgr.data box)] else []

def completeSteps (applyStatus : EfiStatus) (box : MailBox) (mgr : Manager) : List PacketStep :=
  if (mgr.data box).packet.isNone then
    []
  else
    [.complete (completedOperation applyStatus) box (completedData applyStatus (mgr.data box))]

def completeEnrollSteps (lkgStatus : EfiStatus) (box : MailBox) (mgr : Manager) : List PacketStep :=
  if (mgr.data box).unenroll then [] else completeSteps lkgStatus box mgr

def completeAtomicSteps (lkgStatus : EfiStatus) (mgr : Manager) : List PacketStep :=
  let permissions2 := completePacket p lkgStatus .permissions2 mgr
  let perms := completePacket p lkgStatus .permissions permissions2
  let identity := completeEnroll p lkgStatus .identity perms
  completeSteps lkgStatus .permissions2 mgr ++ completeSteps lkgStatus .permissions permissions2 ++
    completeEnrollSteps lkgStatus .identity perms ++ completeEnrollSteps lkgStatus .identity2 identity

def settingsSteps (box : MailBox) (mgr : Manager) : List PacketStep :=
  packetSteps ui box mgr ++ completeSteps .success box (processPacket p ui box mgr).2

def unEnrollsSteps : List MailBox → Manager → List PacketStep
  | [], _ => []
  | box :: boxes, mgr =>
    if (mgr.data box).unenroll then
      let (status, unenrolled) := processUnEnrollPacket p ui box mgr
      unEnrollPacketSteps p ui box mgr ++
        if status = .mediaChanged then []
        else
          completeSteps status box unenrolled ++ unEnrollsSteps boxes (completePacket p status box unenrolled)
    else
      unEnrollsSteps boxes mgr

def completionsSteps (lkgStatus : EfiStatus) (mgr : Manager) : List PacketStep :=
  let atomic := completeAtomic p lkgStatus mgr
  let settings := processSettings p ui .settings atomic
  let settings2 := processSettings p ui .settings2 settings
  completeAtomicSteps p lkgStatus mgr ++ settingsSteps p ui .settings atomic ++
    settingsSteps p ui .settings2 settings ++ unEnrollsSteps p ui [.identity2, .identity] settings2

def mailBoxesSteps (mgr : Manager) : List PacketStep :=
  inOrderSteps p ui atomicBoxes mgr ++
    match processInOrder p ui atomicBoxes mgr with
    | (.delayed, _) => []
    | (.completed, mgr) => completionsSteps p ui .success mgr
    | (.failed code, mgr) => completionsSteps p ui (.error code) mgr

end

/-! ## Whose steps they are -/

section

variable {p : Platform} {ui : UserInterface} {mgr : Manager}

theorem box_packetSteps {box : MailBox} : ∀ step ∈ packetSteps ui box mgr, step.box = box := by
  rw [packetSteps]
  split
  · exact List.forall_mem_nil _
  · split
    · exact List.forall_mem_nil _
    · split
      · exact List.forall_mem_nil _
      · exact List.forall_mem_singleton.mpr rfl

theorem box_completeSteps {applyStatus : EfiStatus} {box : MailBox} :
    ∀ step ∈ completeSteps applyStatus box mgr, step.box = box := by
  rw [completeSteps]
  split
  · exact List.forall_mem_nil _
  · exact List.forall_mem_singleton.mpr rfl

theorem box_completeEnrollSteps {lkgStatus : EfiStatus} {box : MailBox} :
    ∀ step ∈ completeEnrollSteps lkgStatus box mgr, step.box = box := by
  rw [completeEnrollSteps]
  split
  · exact List.forall_mem_nil _
  · exact box_completeSteps

theorem box_settingsSteps {box : MailBox} : ∀ step ∈ settingsSteps p ui box mgr, step.box = box := by
  rw [settingsSteps, List.forall_mem_append]
  exact ⟨box_packetSteps, box_completeSteps⟩

theorem box_unEnrollPacketSteps {box : MailBox} : ∀ step ∈ unEnrollPacketSteps p ui box mgr, step.box = box := by
  rw [unEnrollPacketSteps, List.forall_mem_append]
  refine ⟨box_packetSteps, ?_⟩
  split
  · exact List.forall_mem_nil _
  · split
    · exact List.forall_mem_singleton.mpr rfl
    · exact List.forall_mem_nil _

theorem box_unEnrollsSteps {boxes : List MailBox} : ∀ step ∈ unEnrollsSteps p ui boxes mgr, step.box ∈ boxes := by
  induction boxes generalizing mgr with
  | nil => exact List.forall_mem_nil _
  | cons box boxes ih =>
    have first : ∀ step : PacketStep, step.box = box → step.box ∈ box :: boxes := by
      intro step isBox
      rw [isBox]
      exact List.mem_cons_self
    have later : ∀ mgr, ∀ step ∈ unEnrollsSteps p ui boxes mgr, step.box ∈ box :: boxes :=
      fun _ step mem => List.mem_cons_of_mem _ (ih step mem)
    rw [unEnrollsSteps]
    split
    · simp only
      rw [List.forall_mem_append]
      refine ⟨fun step mem => first step (box_unEnrollPacketSteps step mem), ?_⟩
      split
      · exact List.forall_mem_nil _
      · rw [List.forall_mem_append]
        exact ⟨fun step mem => first step (box_completeSteps step mem), later _⟩
    · exact later _

end

/-! ## Following a run along its steps -/

/-- A relation between two states of `DfciManager` and the steps that lead from one to the other, which holds for a
packet that is applied and for one that is completed. -/
structure Traces (p : Platform) (relates : Manager → List PacketStep → Manager → Prop) : Prop where
  refl : ∀ mgr, relates mgr [] mgr
  trans : ∀ {before between after first second}, relates before first between → relates between second after →
    relates before (first ++ second) after
  applies : ∀ ui box mgr,
    relates mgr [.apply ui box (mgr.data box)] (processApplyPacket p ui box mgr).2
  completes : ∀ applyStatus box mgr, (mgr.data box).packet.isSome = true →
    relates mgr [.complete (completedOperation applyStatus) box (completedData applyStatus (mgr.data box))]
      (completePacket p applyStatus box mgr)
  reboots : ∀ {before steps after}, relates before steps after → relates before steps { after with rebootRequired := true }
  atEndOfDxe : ∀ {before steps after}, relates before steps after →
    relates before steps { after with processingAtEndOfDxe := true }

section

variable {p : Platform} {relates : Manager → List PacketStep → Manager → Prop}
  (traces : Traces p relates) (ui : UserInterface)
include traces

theorem Traces.packet (box : MailBox) (mgr : Manager) :
    relates mgr (packetSteps ui box mgr) (processPacket p ui box mgr).2 := by
  rw [packetSteps, processPacket]
  split
  · exact traces.refl mgr
  · cases (mgr.boxes box).decodeStatus with
    | error code => exact traces.refl mgr
    | success =>
      simp only
      split
      · exact traces.refl mgr
      · exact traces.applies ui box mgr

theorem Traces.inOrder (boxes : List MailBox) (mgr : Manager) :
    relates mgr (inOrderSteps p ui boxes mgr) (processInOrder p ui boxes mgr).2 := by
  induction boxes generalizing mgr with
  | nil => exact traces.refl mgr
  | cons box boxes ih =>
    have packet := traces.packet ui box mgr
    rw [inOrderSteps, processInOrder]
    generalize processPacket p ui box mgr = answer at packet ⊢
    obtain ⟨status, after⟩ := answer
    refine traces.trans packet ?_
    cases status with
    | success => exact ih after
    | error code =>
      simp only
      split <;> exact traces.refl after

theorem Traces.unEnrollPacket (box : MailBox) (mgr : Manager) :
    relates mgr (unEnrollPacketSteps p ui box mgr) (processUnEnrollPacket p ui box mgr).2 := by
  have packet := traces.packet ui box mgr
  rw [unEnrollPacketSteps, processUnEnrollPacket]
  generalize processPacket p ui box mgr = answer at packet ⊢
  obtain ⟨status, after⟩ := answer
  refine traces.trans packet ?_
  cases status with
  | error code => exact traces.refl after
  | success =>
    simp only
    split
    · -- asking for a reboot is not a step of the machine
      have applied := traces.applies ui box after
      generalize processApplyPacket p ui box after = answer at applied ⊢
      simp only
      split
      · exact applied
      · exact traces.reboots applied
    · exact traces.refl after

theorem Traces.complete (applyStatus : EfiStatus) (box : MailBox) (mgr : Manager) :
    relates mgr (completeSteps applyStatus box mgr) (completePacket p applyStatus box mgr) := by
  rw [completeSteps]
  split
  · rename_i isNone
    rw [completePacket_eq, if_pos isNone]
    exact traces.refl mgr
  · rename_i isSome
    exact traces.completes applyStatus box mgr (Option.isNone_eq_false_iff.mp (Bool.eq_false_of_not_eq_true isSome))

theorem Traces.completeEnroll (lkgStatus : EfiStatus) (box : MailBox) (mgr : Manager) :
    relates mgr (completeEnrollSteps lkgStatus box mgr) (completeEnroll p lkgStatus box mgr) := by
  rw [completeEnrollSteps, Manager.completeEnroll]
  split
  · exact traces.refl mgr
  · exact traces.complete lkgStatus box mgr

theorem Traces.completeAtomic (lkgStatus : EfiStatus) (mgr : Manager) :
    relates mgr (completeAtomicSteps p lkgStatus mgr) (completeAtomic p lkgStatus mgr) := by
  have perms := traces.trans (traces.complete lkgStatus .permissions2 mgr)
    (traces.complete lkgStatus .permissions _)
  have identity := traces.trans perms (traces.completeEnroll lkgStatus .identity _)
  exact traces.trans identity (traces.completeEnroll lkgStatus .identity2 _)

theorem Traces.settings (box : MailBox) (mgr : Manager) :
    relates mgr (settingsSteps p ui box mgr) (processSettings p ui box mgr) :=
  traces.trans (traces.packet ui box mgr) (traces.complete .success box _)

theorem Traces.unEnrolls (boxes : List MailBox) (mgr : Manager) :
    relates mgr (unEnrollsSteps p ui boxes mgr) (processUnEnrolls p ui boxes mgr).2 := by
  induction boxes generalizing mgr with
  | nil => exact traces.refl mgr
  | cons box boxes ih =>
    rw [unEnrollsSteps, processUnEnrolls]
    split
    · have unenroll := traces.unEnrollPacket ui box mgr
      generalize processUnEnrollPacket p ui box mgr = answer at unenroll ⊢
      obtain ⟨status, unenrolled⟩ := answer
      refine traces.trans unenroll ?_
      simp only
      split
      · exact traces.refl unenrolled
      · exact traces.trans (traces.complete status box unenrolled) (ih _)
    · exact ih mgr

theorem Traces.completions (lkgStatus : EfiStatus) (mgr : Manager) :
    relates mgr (completionsSteps p ui lkgStatus mgr) (processCompletions p ui lkgStatus mgr).2 := by
  have settings := traces.trans (traces.completeAtomic lkgStatus mgr) (traces.settings ui .settings _)
  have settings2 := traces.trans settings (traces.settings ui .settings2 _)
  exact traces.trans settings2 (traces.unEnrolls ui [.identity2, .identity] _)

theorem Traces.mailBoxes (mgr : Manager) : relates mgr (mailBoxesSteps p ui mgr) (processMailBoxes p ui mgr).2 := by
  have inOrder := traces.inOrder ui atomicBoxes mgr
  rw [mailBoxesSteps, processMailBoxes]
  generalize processInOrder p ui atomicBoxes mgr = answer at inOrder ⊢
  obtain ⟨ending, after⟩ := answer
  refine traces.trans inOrder ?_
  cases ending with
  | delayed => exact traces.refl after
  | completed => exact traces.completions ui .success after
  | failed code => exact traces.completions ui (.error code) after

end

/-! ## The steps lead where the run leads -/

/-- The steps take the machine from one state of `DfciManager` to another. -/
def Spells (p : Platform) (before : Manager) (steps : List PacketStep) (after : Manager) : Prop :=
  Runs.run (Machine.take p) before.machine steps = after.machine

theorem Spells.traces (p : Platform) : Traces p (Spells p) where
  refl _ := rfl
  trans := by
    intro before between after first second spells continues
    rw [Spells, Runs.run_append, spells]
    exact continues
  applies ui box mgr := (processApplyPacket_machine p ui box mgr).symm
  completes _ _ _ present := (completePacket_machine present).symm
  reboots spells := spells
  atEndOfDxe spells := spells

end Manager

namespace Machine

section

variable (p : Platform)

def mailboxesSteps (early late : UserInterface) (read : MailBox → Except Nat (List Byte)) (m : Machine) :
    List PacketStep :=
  let mgr := Manager.allocateManagerData p m read
  mgr.mailBoxesSteps p early ++
    match mgr.processMailBoxes p early with
    | (.delayed, waiting) =>
      if late.available then ({ waiting with processingAtEndOfDxe := true } : Manager).mailBoxesSteps p late else []
    | (_, _) => []

variable {p}

/-- The mailboxes of a boot do what their steps do. -/
theorem run_mailboxesSteps (early late : UserInterface) (read : MailBox → Except Nat (List Byte)) (m : Machine) :
    Runs.run (take p) m (m.mailboxesSteps p early late read) = m.mailboxes p early late read := by
  have first := (Manager.Spells.traces p).mailBoxes early (.allocateManagerData p m read)
  rw [mailboxesSteps, mailboxes]
  generalize Manager.processMailBoxes p early (.allocateManagerData p m read) = answer at first ⊢
  obtain ⟨ending, waiting⟩ := answer
  rw [Runs.run_append]
  have reached : Runs.run (take p) m (Manager.mailBoxesSteps p early
    (.allocateManagerData p m read)) = waiting.machine := first
  rw [reached]
  cases ending with
  | delayed =>
    simp only
    split
    · exact (Manager.Spells.traces p).mailBoxes late { waiting with processingAtEndOfDxe := true }
    · rfl
  | completed | failed code => rfl

end

end Machine

end Dfci
