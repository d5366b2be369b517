import Dfci.Identity.CertSlots
import Dfci.Manager.Settled

/-! # No user key without the Owner's

The Owner's bit is looked at when a user key is enrolled, and the Owner's certificate can be taken away later. Within
the mailboxes of one boot all enrolments come before the first restore, so the bit can be trusted when it matters. -/

namespace Dfci

namespace CertStore

def UsersNeedOwner (holds : Fin 7 → Prop) : Prop :=
  ∀ i < certOwnerIndex, holds i → holds certOwnerIndex

def HoldsCert (certs : CertStore) (i : Fin 7) : Prop :=
  (certs.certs i).cert.isSome = true

/-- `LoadProvisionedData` finds a certificate for the slot in the variable. -/
def PersistsCert (flash : Option Variable) (i : Fin 7) : Prop :=
  ∃ details, slotIn flash i = some details ∧ details.cert.isSome = true

structure UsersOwned (certs : CertStore) (flash : Option Variable) : Prop where
  keyed : Keyed certs flash
  memory : UsersNeedOwner certs.HoldsCert
  persisted : UsersNeedOwner (PersistsCert flash)

def OwnerHeld (certs : CertStore) : Prop :=
  certs.populatedIdentities.has .signerOwner = true → certs.HoldsCert certOwnerIndex

section

variable {certs : CertStore} {flash : Option Variable}

theorem UsersOwned.load (users : UsersOwned certs flash) : UsersOwned (loadProvisionedData flash certs).2 flash := by
  have slots := load_certs users.keyed.loadOwned
  refine ⟨users.keyed.load, ?_, users.persisted⟩
  intro i isUser holds
  rw [HoldsCert, slots] at holds ⊢
  rcases users.keyed.readable with empty | whole
  · have nothing : ∀ place, slotIn flash place = none := fun place => by rw [slotIn, empty]; rfl
    rw [nothing] at holds ⊢
    exact users.memory i isUser holds
  · -- the variable has a slot for the user's key and one for the Owner's
    obtain ⟨user, isSlot, _⟩ := whole i isUser.le
    rw [isSlot] at holds
    obtain ⟨owner, isOwner, present⟩ := users.persisted i isUser ⟨user, isSlot, holds⟩
    rw [isOwner]
    exact present

theorem Keyed.usersOwned (keyed : Keyed certs flash) (memory : UsersNeedOwner certs.HoldsCert) :
    UsersOwned certs (some ⟨internalVarAttributes, certs.encode⟩) := by
  refine ⟨keyed.encode, memory, ?_⟩
  rintro i isUser ⟨details, found, present⟩
  rw [slotIn_encode keyed.storable isUser.le, Option.some.injEq] at found
  refine ⟨certs.certs certOwnerIndex, slotIn_encode keyed.storable (le_refl _), memory i isUser ?_⟩
  rw [HoldsCert, found]
  exact present

theorem provision_other {identity : Identity} {i other : Fin 7} {data : Packet} (differs : other ≠ i) :
    (certs.provision identity i data).certs other = certs.certs other := by
  simp only [provision]
  split <;> split
  all_goals simp [setCert, differs]

/-- An approved certificate, with an Owner's bit that can be trusted, leaves the Owner's certificate in place. -/
theorem OwnerHeld.provision (held : certs.OwnerHeld) {identity : Identity} {i : Fin 7} {data : Packet}
    (isIndex : identity.toCertIndex = some i) (valid : validateIdentityPacket data = .success)
    (owned : identity = .signerOwner ∨ certs.populatedIdentities.has .signerOwner = true)
    (notCleared : ¬ (data.payloadSize = 0 ∧ identity = .signerOwner)) :
    (certs.provision identity i data).HoldsCert certOwnerIndex := by
  by_cases isOwner : identity = .signerOwner
  · subst isOwner
    cases isIndex
    have enroll : data.payloadSize ≠ 0 := fun empty => notCleared ⟨empty, rfl⟩
    have carries := carriesCert_of_validateIdentityPacket valid enroll
    rw [provision_eq certs .signerOwner certOwnerIndex carries]
    rfl
  · have differs : certOwnerIndex ≠ i := by
      rintro rfl
      cases identity <;> first | exact isOwner rfl | cases isIndex
    rw [HoldsCert, provision_other differs]
    exact held (owned.resolve_left isOwner)

/-- A packet without a certificate empties a slot. -/
theorem provision_unenroll_holds {identity : Identity} {i other : Fin 7} {data : Packet}
    (unenroll : data.payloadSize = 0) (holds : (certs.provision identity i data).HoldsCert other) :
    certs.HoldsCert other := by
  by_cases same : other = i
  · subst same
    simp only [HoldsCert, provision, unenroll, Nat.lt_irrefl, if_false] at holds
    split at holds <;> split at holds
    all_goals simp_all [setCert, CertDetails.empty]
  · rw [HoldsCert, provision_other same] at holds
    exact holds

theorem UsersOwned.provision (users : UsersOwned certs flash) {identity : Identity} {i : Fin 7} {data : Packet}
    (isIndex : identity.toCertIndex = some i) (valid : validateIdentityPacket data = .success)
    (owned : identity = .signerOwner ∨ certs.populatedIdentities.has .signerOwner = true)
    (notCleared : ¬ (data.payloadSize = 0 ∧ identity = .signerOwner))
    (trusted : certs.OwnerHeld ∨ data.payloadSize = 0) : UsersOwned (certs.provision identity i data) flash := by
  refine ⟨users.keyed.provision valid owned notCleared, ?_, users.persisted⟩
  intro other isUser holds
  rcases trusted with held | unenroll
  · exact held.provision isIndex valid owned notCleared
  · have isOwner : certs.HoldsCert certOwnerIndex :=
      users.memory other isUser (provision_unenroll_holds unenroll holds)
    have differs : certOwnerIndex ≠ i := by
      rintro rfl
      have owner : identity = .signerOwner := by
        cases identity <;> first | rfl | cases isIndex
      exact notCleared ⟨unenroll, owner⟩
    rw [HoldsCert, provision_other differs]
    exact isOwner

/-! ## Starting over, and booting -/

theorem UsersOwned.cleared (certs : CertStore) :
    UsersOwned certs.cleared (some ⟨internalVarAttributes, certs.cleared.encode⟩) := by
  apply (Keyed.cleared certs).usersOwned
  intro i isUser holds
  rw [HoldsCert, cleared_certs isUser.le] at holds
  cases holds

theorem cleared_hasOwner (certs : CertStore) : certs.cleared.populatedIdentities.has .signerOwner = false := by
  rw [CertStore.cleared]
  simp only
  split <;> rfl

theorem Persisted.usersOwned {stored : CertStore} (persisted : Persisted flash stored) :
    UsersOwned stored flash ∧ stored.OwnerHeld := by
  have coherent := persisted.coherent
  have keyed := persisted.keyed
  have isOwner : Identity.toCertIndex .signerOwner = some certOwnerIndex := rfl
  have held : stored.OwnerHeld := by
    intro has
    rw [HoldsCert, ← coherent.has_iff isOwner]
    exact has
  refine ⟨⟨keyed, fun i isUser holds => held (keyed.held i isUser.le holds), ?_⟩, held⟩
  rintro i isUser ⟨details, found, present⟩
  -- a slot of the variable is the one that was loaded
  have owner := held (keyed.recorded i isUser.le details found present)
  have slots : (loadProvisionedData flash .initial).2.certs certOwnerIndex =
      (slotIn flash certOwnerIndex).getD (CertStore.initial.certs certOwnerIndex) := by
    apply load_certs
    rw [← load_populatedIdentities, persisted]
    exact coherent.owned
  rw [persisted] at slots
  cases isSlot : slotIn flash certOwnerIndex with
  | none =>
    rw [isSlot] at slots
    rw [HoldsCert, slots] at owner
    cases owner
  | some stored =>
    rw [isSlot] at slots
    refine ⟨stored, isSlot, ?_⟩
    rw [HoldsCert, slots] at owner
    exact owner

end

section

variable {p : Platform} (writes : ∀ data, p.setVariable .certificateStore data = .success)
include writes

theorem usersOwned_populateInternalCertStore (flash : Option Variable) :
    let populated := populateInternalCertStore p flash .initial
    UsersOwned populated.2.1 populated.2.2 ∧ populated.2.1.OwnerHeld := by
  have keyed := keyed_populateInternalCertStore writes flash
  have effect := populateInternalCertStore_effect writes flash
  simp only at effect keyed ⊢
  generalize (populateInternalCertStore p flash .initial).2.1 = certs at effect keyed ⊢
  generalize (populateInternalCertStore p flash .initial).2.2 = after at effect keyed ⊢
  cases effect with
  | loaded persisted => exact persisted.usersOwned
  | inert inert =>
    have empty : ∀ i, CertStore.initial.freeCertStore.certs i = .empty := fun i => ite_self _
    refine ⟨⟨keyed, ?_, ?_⟩, (by rintro ⟨⟩)⟩
    · intro i _ holds
      rw [HoldsCert, empty] at holds
      cases holds
    · rintro i _ ⟨details, isSlot, _⟩
      rw [slotIn, inert.slotsIn] at isSlot
      cases isSlot
  | cleared loaded =>
    have cleared := UsersOwned.cleared loaded
    refine ⟨cleared.load, fun has => ?_⟩
    rw [cleared.keyed.load_hasOwner, cleared_hasOwner] at has
    cases has

theorem UsersOwned.zeroTouch {certs : CertStore} {flash : Option Variable} (users : UsersOwned certs flash)
    (held : certs.OwnerHeld) (zeroTouch : ZeroTouch) :
    let after := certs.zeroTouch p zeroTouch flash
    UsersOwned after.1 after.2 ∧ after.1.OwnerHeld := by
  -- the slots of the users and the Owner stay, and so does the Owner's bit
  have changed : ∀ after : CertStore, Keyed after flash →
      (∀ i ≤ certOwnerIndex, after.certs i = certs.certs i) →
      after.populatedIdentities.has .signerOwner = certs.populatedIdentities.has .signerOwner →
      UsersOwned after (some ⟨internalVarAttributes, after.encode⟩) ∧ after.OwnerHeld := by
    intro after keyed slots owner
    refine ⟨keyed.usersOwned ?_, ?_⟩
    · intro i isUser holds
      rw [HoldsCert, slots i isUser.le] at holds
      rw [HoldsCert, slots _ (le_refl _)]
      exact users.memory i isUser holds
    · rw [OwnerHeld, owner, HoldsCert, slots _ (le_refl _)]
      exact held
  have effect := zeroTouch_effect writes zeroTouch flash certs
  generalize certs.zeroTouch p zeroTouch flash = after at effect
  cases effect with
  | kept => exact ⟨users, held⟩
  | installed cert =>
    exact changed _ (users.keyed.withZtd cert) (fun _ isKey => withZtd_certs certs cert isKey) (has_orZtd _)
  | removed =>
    exact changed _ users.keyed.withoutZtd (fun _ isKey => withoutZtd_certs certs isKey) (has_clearZtd _)

end

end CertStore

/-! ## The machine -/

namespace Machine

def UsersOwned (m : Machine) : Prop :=
  CertStore.UsersOwned m.certs m.certFlash

section

variable {p : Platform} (writes : ∀ data, p.setVariable .certificateStore data = .success)
include writes

theorem boot_usersOwned (m : Machine) (zeroTouch : ZeroTouch) :
    (m.boot p zeroTouch).UsersOwned ∧ (m.boot p zeroTouch).certs.OwnerHeld := by
  obtain ⟨users, held⟩ := CertStore.usersOwned_populateInternalCertStore writes m.certFlash
  exact users.zeroTouch writes held zeroTouch

theorem UsersOwned.clearDfci {m : Machine} (users : m.UsersOwned) (token : AuthToken) :
    (m.clearDfci p token).2.UsersOwned ∧ (m.certs.OwnerHeld → (m.clearDfci p token).2.certs.OwnerHeld) := by
  have effect := m.clearDfci_effect p token
  have initialized := CertStore.initializeProvisionedData_eq m.certFlash m.certs (writes _)
  generalize m.clearDfci p token = result at effect
  cases effect with
  | refused | permissionsFailed => exact ⟨users, id⟩
  | certsFailed code perms certs certFlash may resets fails =>
    rw [initialized] at fails
    cases fails
  | cleared perms certs certFlash may resets clears =>
    rw [initialized] at clears
    cases clears
    refine ⟨CertStore.UsersOwned.cleared m.certs, fun _ has => ?_⟩
    change m.certs.cleared.populatedIdentities.has .signerOwner = true at has
    rw [CertStore.cleared_hasOwner] at has
    cases has

theorem UsersOwned.identityPacket {m : Machine} (users : m.UsersOwned) (ui : UserInterface)
    {data : Packet} (trusted : m.certs.OwnerHeld ∨ data.payloadSize = 0) :
    let after := (applyNewIdentityPacket p ui m data).machine
    after.UsersOwned ∧ (m.certs.OwnerHeld → after.certs.OwnerHeld) := by
  have effect := applyNewIdentityPacket_effect p ui m data
  generalize (applyNewIdentityPacket p ui m data).machine = after at effect
  cases effect with
  | kept => exact ⟨users, id⟩
  | provisioned identity approver i auth present valid names approval isIndex notCleared =>
    obtain ⟨_, passed⟩ := approval.passed
    have owned := passed.owned
    exact ⟨CertStore.UsersOwned.provision users isIndex valid owned notCleared trusted,
      fun held _ => held.provision isIndex valid owned notCleared⟩
  | clears approver token before =>
    have same : ({ m with auth := before } : Machine).UsersOwned := users
    exact same.clearDfci writes token

theorem UsersOwned.lkg {m : Machine} (users : m.UsersOwned) (op : LkgOperation) (box : MailBox)
    (data : Packet) : (Dfci.lkg p op box m data).machine.UsersOwned := by
  have identity : (identityLkgHandler p op m data).machine.UsersOwned := by
    have effect := identityLkgHandler_effect p op m data
    generalize (identityLkgHandler p op m data).machine = after at effect
    cases effect with
    | kept => exact users
    | reloaded => exact CertStore.UsersOwned.load users
    | saved =>
      simp only [CertStore.saveProvisionedData, writes]
      exact users.keyed.usersOwned users.memory
  cases box with
  | identity | identity2 => exact identity
  | permissions | permissions2 => exact users
  | settings | settings2 => exact users

end

end Machine

/-! ## The mailboxes of a boot -/

namespace Manager

section

variable {p : Platform} (writes : ∀ data, p.setVariable .certificateStore data = .success)
include writes

/-- While the Owner's bit can be trusted, any packet may come. -/
theorem applyPacket_trusted (ui : UserInterface) (box : MailBox) (m : Machine) (data : Packet)
    (trusted : m.UsersOwned ∧ m.certs.OwnerHeld) :
    let after := (applyPacket p ui box m data).machine
    after.UsersOwned ∧ after.certs.OwnerHeld := by
  obtain ⟨users, held⟩ := trusted
  have identity := users.identityPacket writes ui (.inl held : m.certs.OwnerHeld ∨ data.payloadSize = 0)
  cases box with
  | identity | identity2 => exact ⟨identity.1, identity.2 held⟩
  | permissions | permissions2 => exact ⟨users, held⟩
  | settings | settings2 => exact ⟨users, held⟩

structure Completing (mgr : Manager) : Prop where
  users : mgr.machine.UsersOwned
  sorted : mgr.Sorted

theorem Completing.completePacket {mgr : Manager} (completing : mgr.Completing) (applyStatus : EfiStatus)
    (box : MailBox) : (completePacket p applyStatus box mgr).Completing where
  users := completePacket_machine_invariant Machine.UsersOwned
    (fun op box _ data users => users.lkg writes op box data) applyStatus box mgr completing.users
  sorted := completing.sorted.follows (completePacket_follows p box mgr applyStatus)

/-- Settings do not concern the certificates, and an unenroll needs no Owner's bit. -/
theorem usersOwned_tail : TailInvariant p Machine.UsersOwned where
  settings := fun _ _ _ users => users
  unenrolls := fun ui _ _ empty users => (users.identityPacket writes ui (.inr empty)).1
  completes := fun op _ data users => users.lkg writes op .identity data

theorem Completing.processCompletions {mgr : Manager} (completing : mgr.Completing) (ui : UserInterface)
    (lkgStatus : EfiStatus) : (processCompletions p ui lkgStatus mgr).2.Completing := by
  have atomic : (completeAtomic p lkgStatus mgr).Completing :=
    completeAtomic_invariant Completing (fun applyStatus box _ held => held.completePacket writes applyStatus box)
      lkgStatus completing
  exact ⟨(usersOwned_tail writes).processCompletions completing.sorted ui lkgStatus atomic.users,
    completing.sorted.follows ((Follows.refl mgr).processCompletions ui lkgStatus)⟩

/-- A run, or the second pass of a delayed one, in which no enrolment comes after a restore. -/
theorem processMailBoxes_completing {mgr : Manager} (sorted : mgr.Sorted) (ui : UserInterface)
    (first : (processInOrder p ui atomicBoxes mgr).2.machine.UsersOwned) :
    (processMailBoxes p ui mgr).2.Completing := by
  have stillSorted : (processInOrder p ui atomicBoxes mgr).2.Sorted :=
    sorted.follows ((Follows.refl mgr).processInOrder ui atomicBoxes)
  rw [processMailBoxes]
  generalize processInOrder p ui atomicBoxes mgr = answer at first stillSorted
  obtain ⟨ending, after⟩ := answer
  have completing : after.Completing := ⟨first, stillSorted⟩
  cases ending with
  | delayed => exact completing
  | completed => exact completing.processCompletions writes ui .success
  | failed code => exact completing.processCompletions writes ui (.error code)

theorem processInOrder_trusted {mgr : Manager} (ui : UserInterface)
    (trusted : mgr.machine.UsersOwned ∧ mgr.machine.certs.OwnerHeld) :
    let after := (processInOrder p ui atomicBoxes mgr).2.machine
    after.UsersOwned ∧ after.certs.OwnerHeld :=
  processInOrder_invariant (fun mgr => mgr.machine.UsersOwned ∧ mgr.machine.certs.OwnerHeld)
    (processApplyPacket_machine_invariant (fun m => m.UsersOwned ∧ m.certs.OwnerHeld)
      (applyPacket_trusted writes)) ui atomicBoxes trusted

end

end Manager

/-- The mailboxes of a boot, when they find an Owner's bit that can be trusted. -/
theorem Machine.UsersOwned.mailboxes {p : Platform}
    (writes : ∀ data, p.setVariable .certificateStore data = .success) {m : Machine}
    (users : m.UsersOwned) (held : m.certs.OwnerHeld) (early late : UserInterface)
    (read : MailBox → Except Nat (List Byte)) : (m.mailboxes p early late read).UsersOwned := by
  have sorted := Manager.sorted_allocateManagerData p m read
  have isEarly : (Manager.allocateManagerData p m read).processingAtEndOfDxe = false := rfl
  have trusted : (Manager.allocateManagerData p m read).machine.UsersOwned ∧
      (Manager.allocateManagerData p m read).machine.certs.OwnerHeld := ⟨users, held⟩
  rw [Machine.mailboxes]
  generalize Manager.allocateManagerData p m read = start at sorted isEarly trusted ⊢
  have first := Manager.processInOrder_trusted writes early trusted
  have completing := Manager.processMailBoxes_completing writes sorted early first.1
  have delays : ∀ waiting, Manager.processMailBoxes p early start = (.delayed, waiting) →
      Manager.processInOrder p early Manager.atomicBoxes start = (.delayed, waiting) ∨
        waiting.Exhausted Manager.atomicBoxes :=
    fun waiting => Manager.processMailBoxes_delayed early isEarly sorted
  generalize Manager.processMailBoxes p early start = answer at completing delays
  obtain ⟨ending, waiting⟩ := answer
  cases ending with
  | delayed =>
    simp only
    split
    · have again : ({ waiting with processingAtEndOfDxe := true } : Manager).Completing :=
        ⟨completing.users, completing.sorted⟩
      refine (Manager.processMailBoxes_completing writes again.sorted late ?_).users
      rcases delays waiting rfl with inFirstPhase | exhausted
      · -- nothing was completed yet, so the bit is still one to trust
        rw [inFirstPhase] at first
        have trusted : ({ waiting with processingAtEndOfDxe := true } : Manager).machine.UsersOwned ∧ _ := first
        exact (Manager.processInOrder_trusted writes late trusted).1
      · -- no packet is applied a second time
        have exhaustedAgain : ({ waiting with processingAtEndOfDxe := true } : Manager).Exhausted Manager.atomicBoxes :=
          exhausted
        have kept : ∃ auth, (Manager.processInOrder p late Manager.atomicBoxes
              { waiting with processingAtEndOfDxe := true }).2.machine = { waiting.machine with auth := auth } :=
          exhaustedAgain.processInOrder late fun _ mem => mem
        obtain ⟨auth, kept⟩ := kept
        rw [kept]
        exact again.users
    · exact completing.users
  | completed | failed code => exact completing.users

/-! ## Over boots, mailbox runs and recoveries -/

/-- A machine within a boot. The mailboxes are read once in a boot, by `DfciManagerEntry`, and are deleted when
`ProcessMailBoxes` has come to its end. -/
structure Session where
  machine : Machine
  mailboxesDone : Bool

inductive SessionEvent where
  | boot (zeroTouch : ZeroTouch)
  | mailboxes (early late : UserInterface) (read : MailBox → Except Nat (List Byte))
  | recovery (recoveryId : Identity)

namespace Session

def step (p : Platform) (session : Session) : SessionEvent → Session
  | .boot zeroTouch => ⟨session.machine.boot p zeroTouch, false⟩
  | .mailboxes early late read =>
    if session.mailboxesDone then session else ⟨session.machine.mailboxes p early late read, true⟩
  | .recovery recoveryId => { session with machine := (session.machine.doDfciRecovery p recoveryId).2 }

structure Owned (session : Session) : Prop where
  users : session.machine.UsersOwned
  held : session.mailboxesDone = false → session.machine.certs.OwnerHeld

section

variable {p : Platform} (writes : ∀ data, p.setVariable .certificateStore data = .success)
include writes

theorem Owned.step {session : Session} (owned : session.Owned) (event : SessionEvent) :
    (session.step p event).Owned := by
  cases event with
  | boot zeroTouch =>
    obtain ⟨users, held⟩ := session.machine.boot_usersOwned writes zeroTouch
    exact ⟨users, fun _ => held⟩
  | mailboxes early late read =>
    simp only [Session.step]
    split
    · exact owned
    · rename_i pending
      have held := owned.held (by simpa using pending)
      exact ⟨owned.users.mailboxes writes held early late read, (by simp)⟩
  | recovery recoveryId =>
    let minted := session.machine.auth.createAuthTokenWithMapping p recoveryId
    have same : ({ session.machine with auth := minted.2 } : Machine).UsersOwned := owned.users
    obtain ⟨users, held⟩ := same.clearDfci writes minted.1
    exact ⟨users, fun pending => held (owned.held pending)⟩

/-- From any boot on, whatever the mailboxes hold and whatever the user answers, neither the memory nor the variable has
a user's certificate without the Owner's. -/
theorem users_need_owner (m : Machine) (zeroTouch : ZeroTouch) (events : List SessionEvent) :
    let session := Runs.run (step p) ⟨m.boot p zeroTouch, false⟩ events
    CertStore.UsersNeedOwner session.machine.certs.HoldsCert ∧
      CertStore.UsersNeedOwner (CertStore.PersistsCert session.machine.certFlash) := by
  obtain ⟨users, held⟩ := m.boot_usersOwned writes zeroTouch
  have start : Owned ⟨m.boot p zeroTouch, false⟩ := ⟨users, fun _ => held⟩
  have owned : (Runs.run (step p) ⟨m.boot p zeroTouch, false⟩ events).Owned :=
    Runs.invariant (step p) (fun _ event owned => owned.step writes event) start events
  exact ⟨owned.users.memory, owned.users.persisted⟩

end

def bothEnrolled : MailBox → Except Nat (List Byte)
  | .identity => .ok (enrollPacket 1 1 1)
  | .identity2 => .ok (enrollPacket 2 2 1)
  | _ => .error 14

/-- Both are confirmed and committed, and are there after the next boot. -/
theorem users_need_owner_enrolled :
    let events := [SessionEvent.mailboxes confirmingUser confirmingUser bothEnrolled, .boot {}]
    let session := Runs.run (step keyedPlatform) ⟨(Machine.blank ⟨[], [], nofun⟩ 0).boot keyedPlatform {}, false⟩ events
    (session.machine.certs.certs 0).cert = some [2] ∧
      CertStore.UsersNeedOwner session.machine.certs.HoldsCert ∧
      CertStore.UsersNeedOwner (CertStore.PersistsCert session.machine.certFlash) :=
  ⟨by decide +kernel, users_need_owner (fun _ => rfl) (Machine.blank ⟨[], [], nofun⟩ 0) {} _⟩

end Session

end Dfci
