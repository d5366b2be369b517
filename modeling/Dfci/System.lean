import Dfci.Manager.Invariant

/-! # The machine over boots, mailbox runs and recoveries -/

namespace Dfci

/-- `ZERO_TOUCH_STATE` -/
inductive ZeroTouchState where
  | inactive
  | optIn
  | optOut
  deriving DecidableEq, Repr

/-- What `Init` of the identity manager finds: `GetZeroTouchState`, `DfciUiIsManufacturingMode`, `PcdDfciEnabled` and
the certificate in the firmware. -/
structure ZeroTouch where
  state : ZeroTouchState := .inactive
  manufacturingMode : Bool := false
  dfciEnabled : Bool := true
  certificate : Except EfiStatus (List Byte) := .error .notFound

namespace CertStore

/-- The Zero Touch certificate as `Init` installs or removes it, and the variable if it was saved. -/
def zeroTouch (p : Platform) (zeroTouch : ZeroTouch) (flash : Option Variable) (certs : CertStore) :
    CertStore × Option Variable :=
  let state := if zeroTouch.state = .inactive ∧ zeroTouch.manufacturingMode then .optIn else zeroTouch.state
  match state with
  | .inactive => (certs, flash)
  | .optIn =>
    if (certs.certs certZtdIndex).cert.isNone && (certs.certs certOwnerIndex).cert.isNone && zeroTouch.dfciEnabled then
      match zeroTouch.certificate with
      | .error _ => (certs, flash)
      | .ok cert =>
        let certs := { certs.setCert certZtdIndex ⟨some cert, cert.length⟩ with
          populatedIdentities := certs.populatedIdentities ||| Identity.signerZtd.bit }
        (certs, (saveProvisionedData p flash certs).2)
    else
      (certs, flash)
  | .optOut =>
    if (certs.certs certZtdIndex).cert.isSome then
      let certs := { certs.setCert certZtdIndex .empty with
        populatedIdentities := certs.populatedIdentities &&& ~~~Identity.signerZtd.bit }
      (certs, (saveProvisionedData p flash certs).2)
    else
      (certs, flash)

end CertStore

namespace Machine

section

variable (p : Platform)

/-- The drivers' entry points, on what the variables and the providers keep. -/
def boot (zeroTouch : ZeroTouch) (m : Machine) : Machine :=
  let populated := CertStore.populateInternalCertStore p m.certFlash .initial
  let (certs, certFlash) := populated.2.1.zeroTouch p zeroTouch populated.2.2
  { certs := certs
    certFlash := certFlash
    auth := .loaded m.auth.draws
    permissions :=
      PermissionState.boot p (certs.populatedIdentities.has .signerOwner) m.permissions.flash
    settings := m.settings }

/-- The mailboxes of one boot: `ProcessMailBoxes`, and once more at EndOfDxe if it was delayed. `EndOfDxeCallback` gives
up when there is still no user interface. -/
def mailboxes (early late : UserInterface) (read : MailBox → Except Nat (List Byte)) (m : Machine) : Machine :=
  match Manager.processMailBoxes p early (.allocateManagerData p m read) with
  | (.delayed, waiting) =>
    if late.available then
      (Manager.processMailBoxes p late { waiting with processingAtEndOfDxe := true }).2.machine
    else
      waiting.machine
  | (_, done) => done.machine

end

end Machine

/-- What happens to a machine. Behind a boot and its mailboxes are the calls other drivers make: to recover, to
authenticate, to set a setting and to reset. -/
inductive MachineEvent where
  | boot (zeroTouch : ZeroTouch)
  | mailboxes (early late : UserInterface) (read : MailBox → Except Nat (List Byte))
  | recovery (recoveryId : Identity)
  | authWithPW (password : PasswordArgument) (passwordLength : Nat)
  | authWithSignedData (signedData signature : List Byte)
  | disposeAuthToken (token : AuthToken)
  | setSetting (token : AuthToken) (id : SettingId) (type : SettingType) (value : List Byte) (flags : SettingFlags)
  | resetSettings (token : AuthToken)
  | resetPermissions (token : AuthToken)

namespace Machine

section

variable (p : Platform)

def step (m : Machine) : MachineEvent → Machine
  | .boot zeroTouch => m.boot p zeroTouch
  | .mailboxes early late read => m.mailboxes p early late read
  | .recovery recoveryId => (m.doDfciRecovery p recoveryId).2
  | .authWithPW password passwordLength =>
    { m with auth := (m.auth.authWithPW p password passwordLength).2.2 }
  | .authWithSignedData signedData signature =>
    { m with auth :=
      (Dfci.authWithSignedData p m.certs m.auth signedData signature authTokenInvalid).2.2 }
  | .disposeAuthToken token => { m with auth := (m.auth.disposeAuthToken token).2.2 }
  | .setSetting token id type value flags =>
    let req : WriteRequest := ⟨m.permissions.store, m.auth.getIdentityProperties token⟩
    { m with settings := { m.settings with
      providers := (Providers.internalSystemSettingAccessSet p req m.settings.providers id type value
        flags).providers } }
  | .resetSettings token => (m.systemSettingsAccessReset p token).2
  | .resetPermissions token => (m.resetPermissionsToDefault p token).2

def blank (providers : Providers) (draws : Nat) : Machine where
  certs := .initial
  certFlash := none
  auth := .loaded draws
  permissions := ⟨none, none⟩
  settings := ⟨providers, none⟩

end

end Machine

/-! ## Invariants of a mailbox run -/

/-- What applying a packet and completing one preserve, the mailboxes of a boot preserve. -/
theorem Manager.mailboxes_invariant {p : Platform} (holds : Machine → Prop)
    (applies : ∀ ui box m data, holds m → holds (applyPacket p ui box m data).machine)
    (completes : ∀ op box m data, holds m → holds (lkg p op box m data).machine)
    (early late : UserInterface) (read : MailBox → Except Nat (List Byte)) {m : Machine}
    (initially : holds m) : holds (m.mailboxes p early late read) := by
  have first : holds (processMailBoxes p early (.allocateManagerData p m read)).2.machine :=
    processMailBoxes_machine_invariant holds applies completes early initially
  rw [Machine.mailboxes]
  generalize processMailBoxes p early (.allocateManagerData p m read) = answer at first
  obtain ⟨ending, waiting⟩ := answer
  cases ending with
  | delayed =>
    simp only
    split
    · exact processMailBoxes_machine_invariant holds applies completes late first
    · exact first
  | completed | failed code => exact first

end Dfci
