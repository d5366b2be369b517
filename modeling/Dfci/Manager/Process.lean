import Dfci.Manager.Decode

/-! # Processing the mailboxes -/

namespace Dfci

/-- The state of `DfciManager`, over the three managers it drives. -/
structure Manager where
  machine : Machine
  /-- `mManagerData` -/
  boxes : MailBox → ManagerData
  /-- `mProcessingAtEndOfDxe` and `mRebootRequired` -/
  processingAtEndOfDxe : Bool
  rebootRequired : Bool
  /-- The status codes in the result variables that were written since the mailboxes were read. -/
  results : MailBox → Option EfiStatus

namespace Manager

/-- `AllocateManagerData`, with what `GetVariable2` answers for each mailbox. -/
def allocateManagerData (p : Platform) (m : Machine) (read : MailBox → Except Nat (List Byte)) :
    Manager where
  machine := m
  boxes := fun box => initializePacket p box (read box)
  processingAtEndOfDxe := false
  rebootRequired := false
  results := fun _ => none

def data (mgr : Manager) (box : MailBox) : Packet :=
  (mgr.boxes box).data

def setData (mgr : Manager) (box : MailBox) (data : Packet) : Manager :=
  { mgr with boxes := Function.update mgr.boxes box ⟨data, (mgr.boxes box).decodeStatus⟩ }

def setResult (mgr : Manager) (box : MailBox) (result : Option EfiStatus) : Manager :=
  { mgr with results := Function.update mgr.results box (result <|> mgr.results box) }

end Manager

/-- What a function of `DFCI_APPLY_PACKET_PROTOCOL` leaves, with the result it wrote. -/
structure PacketDone where
  status : EfiStatus
  machine : Machine
  data : Packet
  result : Option EfiStatus

/-- `ApplyPacket` of the manager a mailbox belongs to. -/
def applyPacket (p : Platform) (ui : UserInterface) (box : MailBox) (m : Machine) (data : Packet) :
    PacketDone :=
  match box with
  | .identity | .identity2 =>
    let applied := applyNewIdentityPacket p ui m data
    ⟨applied.status, applied.machine, applied.data, none⟩
  | .permissions | .permissions2 =>
    let applied := applyNewPermissionsPacket p m.certs m.auth m.permissions data
    ⟨applied.status, { m with auth := applied.auth, permissions := applied.permissions }, applied.data, none⟩
  | .settings | .settings2 =>
    let applied := SettingsState.applyNewSettingsPacket p box m.certs m.permissions.store m.auth
      m.settings data
    ⟨applied.status, { m with auth := applied.auth, settings := applied.settings }, applied.data, applied.result⟩

/-- `Lkg` of the manager a mailbox belongs to. The settings manager does nothing. -/
def lkg (p : Platform) (op : LkgOperation) (box : MailBox) (m : Machine) (data : Packet) :
    PacketDone :=
  match box with
  | .identity | .identity2 =>
    let applied := identityLkgHandler p op m data
    ⟨applied.status, applied.machine, applied.data, none⟩
  | .permissions | .permissions2 =>
    let (status, perms, data) := permissionsLkgHandler p op m.permissions data
    ⟨status, { m with permissions := perms }, data, none⟩
  | .settings | .settings2 => ⟨.success, m, data, none⟩

/-- `ApplyResult` of the manager a mailbox belongs to: the status code in the result variable, if it is written. The
result of a settings packet was written when it was applied. -/
def applyResult (p : Platform) (box : MailBox) (data : Packet) : Option EfiStatus :=
  let written := if (p.setResultVariable box data.statusCode).isError then none else some data.statusCode
  match box with
  | .identity | .identity2 =>
    if data.state = .uninitialized ∨ data.state = .dataDelayedProcessing then none else written
  | .permissions | .permissions2 => if data.state = .uninitialized then none else written
  | .settings | .settings2 => none

namespace Manager

section

variable (p : Platform) (ui : UserInterface)

/-- `ProcessApplyPacket`. A packet that has to wait for the user is queued for EndOfDxe. -/
def processApplyPacket (box : MailBox) (mgr : Manager) : EfiStatus × Manager :=
  let applied := applyPacket p ui box mgr.machine (mgr.data box)
  let mgr := ({ mgr with machine := applied.machine }.setData box applied.data).setResult box applied.result
  if applied.status.isError then
    (applied.status, mgr)
  else
    let delayed := decide (applied.data.state = .dataDelayedProcessing)
    let data := if delayed then { applied.data with state := .dataPresent } else applied.data
    let mgr := { mgr.setData box data with rebootRequired := mgr.rebootRequired || data.resetRequired }
    (if delayed && !mgr.processingAtEndOfDxe then .mediaChanged else .success, mgr)

/-- `ProcessPacket`, which leaves an unenroll packet for later. -/
def processPacket (box : MailBox) (mgr : Manager) : EfiStatus × Manager :=
  if (mgr.data box).packet.isNone then
    (.success, mgr)
  else
    match (mgr.boxes box).decodeStatus with
    | .error code => (.error code, mgr)
    | .success => if (mgr.data box).unenroll then (.success, mgr) else processApplyPacket p ui box mgr

/-- `ProcessUnEnrollPacket` -/
def processUnEnrollPacket (box : MailBox) (mgr : Manager) : EfiStatus × Manager :=
  match processPacket p ui box mgr with
  | (.error code, mgr) => (.error code, mgr)
  | (.success, mgr) =>
    if (mgr.data box).packet.isSome && (mgr.data box).unenroll then
      let (status, mgr) := processApplyPacket p ui box mgr
      (status, if status = .mediaChanged then mgr else { mgr with rebootRequired := true })
    else
      (.success, mgr)

/-- `CompletePacket`. A packet whose commit or restore fails gets no result. -/
def completePacket (applyStatus : EfiStatus) (box : MailBox) (mgr : Manager) : Manager :=
  let data := mgr.data box
  if data.packet.isNone then
    mgr
  else
    let op := if applyStatus.isError then LkgOperation.restore else .commit
    let data :=
      if applyStatus.isError && data.state = .uninitialized then data.fail .aborted applyStatus else data
    let done := lkg p op box mgr.machine data
    let mgr := { mgr with machine := done.machine }.setData box done.data
    if done.status.isError then mgr else mgr.setResult box (applyResult p box done.data)

/-- How a phase of `ProcessMailBoxes` ended: it went through, it has to wait for EndOfDxe, or a packet failed with an
error code. -/
inductive PhaseEnd where
  | completed
  | delayed
  | failed (code : Nat)
  deriving DecidableEq, Repr

/-- The packets of a list, one after another, up to the first that fails. Only an identity packet can be delayed. -/
def processInOrder : List MailBox → Manager → PhaseEnd × Manager
  | [], mgr => (.completed, mgr)
  | box :: boxes, mgr =>
    match processPacket p ui box mgr with
    | (.success, mgr) => processInOrder boxes mgr
    | (.error code, mgr) =>
      if EfiStatus.error code = .mediaChanged ∧ box.isIdentity then (.delayed, mgr) else (.failed code, mgr)

def atomicBoxes : List MailBox := [.identity, .permissions, .identity2, .permissions2]

/-- `CompletePacket` for an identity packet that is not an unenroll. -/
def completeEnroll (lkgStatus : EfiStatus) (box : MailBox) (mgr : Manager) : Manager :=
  if (mgr.data box).unenroll then mgr else completePacket p lkgStatus box mgr

def completeAtomic (lkgStatus : EfiStatus) (mgr : Manager) : Manager :=
  completeEnroll p lkgStatus .identity2 <| completeEnroll p lkgStatus .identity <|
    completePacket p lkgStatus .permissions <| completePacket p lkgStatus .permissions2 mgr

def processSettings (box : MailBox) (mgr : Manager) : Manager :=
  completePacket p .success box (processPacket p ui box mgr).2

/-- The unenroll packets, the second mailbox first. -/
def processUnEnrolls : List MailBox → Manager → PhaseEnd × Manager
  | [], mgr => (.completed, mgr)
  | box :: boxes, mgr =>
    if (mgr.data box).unenroll then
      let (status, mgr) := processUnEnrollPacket p ui box mgr
      if status = .mediaChanged then (.delayed, mgr)
      else processUnEnrolls boxes (completePacket p status box mgr)
    else
      processUnEnrolls boxes mgr

/-- The part of `ProcessMailBoxes` after the label `COMPLETE_AS_FAILED`. -/
def processCompletions (lkgStatus : EfiStatus) (mgr : Manager) : PhaseEnd × Manager :=
  let mgr := completeAtomic p lkgStatus mgr
  let mgr := processSettings p ui .settings mgr
  let mgr := processSettings p ui .settings2 mgr
  processUnEnrolls p ui [.identity2, .identity] mgr

/-- `ProcessMailBoxes`. A run that was not delayed has reached the final exit. -/
def processMailBoxes (mgr : Manager) : PhaseEnd × Manager :=
  match processInOrder p ui atomicBoxes mgr with
  | (.delayed, mgr) => (.delayed, mgr)
  | (.completed, mgr) => processCompletions p ui .success mgr
  | (.failed code, mgr) => processCompletions p ui (.error code) mgr

end

end Manager

end Dfci
