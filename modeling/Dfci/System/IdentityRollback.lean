import Dfci.System.Reset

/-! # Anti-rollback of identity packets

An identity packet carries a `Version` and an `LSV`, and the header of the certificate store has a field for each. The
pointers to the packet's fields are checked by `ValidateIdentityPacket`, but nothing reads what they point to: the
fields of the store keep the value they had when the store was made.

A history follows the machine through packets, commits, restores and boots. It knows which packets were applied since
memory and variable last agreed, and which of them a commit has written. -/

namespace Dfci

open ByteFields

/-- The fields at which the `Version` and `LSV` pointers of an identity packet point. -/
def Packet.versionField (data : Packet) : Nat :=
  data.version.elim 0 fun offset => fieldAt data.bytes offset 4

def Packet.lsvField (data : Packet) : Nat :=
  data.lsv.elim 0 fun offset => fieldAt data.bytes offset 4

/-- The `Lsv` field of the variable's header; zero while there is none. -/
def CertStore.recordedLsv (flash : Option Variable) : Nat :=
  flash.elim 0 fun var => fieldAt var.data 28 4

theorem CertStore.Unversioned.recordedLsv_eq {certs : CertStore} {flash : Option Variable}
    (unversioned : Unversioned certs flash) : recordedLsv flash = 0 := by
  cases flash with
  | none => rfl
  | some var => exact (unversioned.flash var rfl).2

/-- `ApplyNewIdentityPacket` has done what the packet asks for, and does not wait for the user. -/
def IdentityApplied.isApplied (result : IdentityApplied) : Bool :=
  result.status = .success && result.data.state = .dataComplete

/-! ## Histories -/

inductive IdentityEvent where
  | packet (ui : UserInterface) (data : Packet)
  | lkg (op : LkgOperation) (data : Packet)
  | boot (zeroTouch : ZeroTouch)

/-- A packet that was applied: the identity it is for, and the `LSV` it carries. -/
structure AppliedPacket where
  identity : Identity
  lsv : Nat
  deriving DecidableEq

structure IdentityHistory where
  machine : Machine
  applied : List AppliedPacket
  committed : List AppliedPacket

namespace IdentityHistory

def start (m : Machine) : IdentityHistory := ⟨m, [], []⟩

def step (p : Platform) (history : IdentityHistory) : IdentityEvent → IdentityHistory
  | .packet ui data =>
    let result := applyNewIdentityPacket p ui history.machine data
    match data.namedIdentity, result.isApplied with
    | some identity, true =>
      -- removing the Owner is the next clear
      if data.payloadSize = 0 ∧ identity = .signerOwner then
        start result.machine
      else
        ⟨result.machine, ⟨identity, data.lsvField⟩ :: history.applied, history.committed⟩
    | _, _ => { history with machine := result.machine }
  | .lkg op data =>
    let result := identityLkgHandler p op history.machine data
    if data.lkgDirty then
      if op = .commit ∧ result.status = .success then
        ⟨result.machine, [], history.applied ++ history.committed⟩
      else
        ⟨result.machine, [], history.committed⟩
    else
      { history with machine := result.machine }
  | .boot zeroTouch => ⟨history.machine.boot p zeroTouch, [], history.committed⟩

/-- No committed packet is rolled back: a packet that is applied is not older than the `LSV` of any packet committed
for its identity, and every committed `LSV` is recorded with the certificate store. -/
structure NotRolledBack (p : Platform) (history : IdentityHistory) (event : IdentityEvent) : Prop where
  enforced : ∀ ui data identity, event = .packet ui data → data.namedIdentity = some identity →
    (applyNewIdentityPacket p ui history.machine data).isApplied →
    ∀ earlier ∈ history.committed, earlier.identity = identity → earlier.lsv ≤ data.versionField
  recorded : ∀ earlier ∈ (history.step p event).committed,
    earlier.lsv ≤ CertStore.recordedLsv (history.step p event).machine.certFlash

/-- A commit that the platform writes finds no packet with an `LSV` among those it commits. -/
def CommitsNoLsv (p : Platform) (history : IdentityHistory) : IdentityEvent → Prop
  | .lkg .commit data =>
    data.lkgDirty → p.setVariable .certificateStore history.machine.certs.encode = .success →
      ∀ packet ∈ history.applied, packet.lsv = 0
  | _ => True

section

variable {p : Platform} {history : IdentityHistory}

theorem step_machine (p : Platform) (history : IdentityHistory) (event : IdentityEvent) :
    (history.step p event).machine =
      match event with
      | .packet ui data => (applyNewIdentityPacket p ui history.machine data).machine
      | .lkg op data => (identityLkgHandler p op history.machine data).machine
      | .boot zeroTouch => history.machine.boot p zeroTouch := by
  cases event with
  | packet ui data | lkg op data =>
    simp only [step]
    split
    · split <;> rfl
    · rfl
  | boot zeroTouch => rfl

/-- A commit succeeds when there was something to commit and the platform wrote it. -/
theorem commit_success_iff {m : Machine} {data : Packet} (dirty : data.lkgDirty = true) :
    (identityLkgHandler p .commit m data).status = .success ↔
      p.setVariable .certificateStore m.certs.encode = .success := by
  cases writes : p.setVariable .certificateStore m.certs.encode with
  | success | error code => simp [identityLkgHandler, dirty, CertStore.saveProvisionedData, writes, EfiStatus.isError]

/-- No event gives the certificate store a version. -/
theorem step_unversioned (p : Platform) (event : IdentityEvent)
    (unversioned : CertStore.Unversioned history.machine.certs history.machine.certFlash) :
    let after := (history.step p event).machine
    CertStore.Unversioned after.certs after.certFlash := by
  simp only [step_machine]
  cases event with
  | packet ui data =>
    exact applyPacket_certs_invariant CertStore.Unversioned
      (fun _ _ identity i data held => held.provision identity i data) (fun _ _ held => held.initialized p)
      ui .identity data unversioned
  | lkg op data =>
    exact lkg_certs_invariant CertStore.Unversioned (fun _ _ held => held.load) (fun _ _ held => held.save p)
      op .identity data unversioned
  | boot zeroTouch => exact Machine.step_unversioned p (.boot zeroTouch) unversioned

/-- What a step can add to the committed packets: those a commit finds, if the platform writes it. -/
theorem mem_committed_step {event : IdentityEvent} {packet : AppliedPacket}
    (committed : packet ∈ (history.step p event).committed) :
    packet ∈ history.committed ∨ packet ∈ history.applied ∧ ∃ data, event = .lkg .commit data ∧
      data.lkgDirty = true ∧ p.setVariable .certificateStore history.machine.certs.encode = .success := by
  cases event with
  | packet ui data =>
    simp only [step] at committed
    split at committed
    · split at committed
      · cases committed
      · exact .inl committed
    · exact .inl committed
  | lkg op data =>
    simp only [step] at committed
    split at committed
    · rename_i dirty
      split at committed
      · rename_i commits
        obtain ⟨rfl, succeeds⟩ := commits
        rcases List.mem_append.mp committed with applied | earlier
        · exact .inr ⟨applied, data, rfl, dirty, (commit_success_iff dirty).mp succeeds⟩
        · exact .inl earlier
      · exact .inl committed
    · exact .inl committed
  | boot zeroTouch => exact .inl committed

theorem applied_committed_step {data : Packet} (dirty : data.lkgDirty = true)
    (writes : p.setVariable .certificateStore history.machine.certs.encode = .success) {packet : AppliedPacket}
    (applied : packet ∈ history.applied) : packet ∈ (history.step p (.lkg .commit data)).committed := by
  have succeeds := (commit_success_iff dirty).mpr writes
  simp only [step, dirty, succeeds, if_true, and_self]
  exact List.mem_append_left _ applied

/-- The committed packets carry no `LSV`, and there is none in the store. -/
structure WithoutLsv (history : IdentityHistory) : Prop where
  unversioned : CertStore.Unversioned history.machine.certs history.machine.certFlash
  committed : ∀ packet ∈ history.committed, packet.lsv = 0

theorem WithoutLsv.step {event : IdentityEvent} (without : history.WithoutLsv)
    (commits : CommitsNoLsv p history event) : (history.step p event).WithoutLsv := by
  refine ⟨step_unversioned p event without.unversioned, ?_⟩
  intro packet committed
  rcases mem_committed_step committed with earlier | ⟨applied, data, rfl, dirty, writes⟩
  · exact without.committed packet earlier
  · exact commits dirty writes packet applied

theorem WithoutLsv.notRolledBack {event : IdentityEvent} (without : history.WithoutLsv)
    (commits : CommitsNoLsv p history event) : NotRolledBack p history event := by
  constructor
  · intro ui data identity _ _ _ earlier committed _
    rw [without.committed earlier committed]
    exact Nat.zero_le _
  · intro earlier committed
    rw [(without.step commits).committed earlier committed]
    exact Nat.zero_le _

/-- An `LSV` that is committed is not recorded, so there must not be one. -/
theorem NotRolledBack.commitsNoLsv {event : IdentityEvent} (kept : NotRolledBack p history event)
    (unversioned : CertStore.Unversioned history.machine.certs history.machine.certFlash) :
    CommitsNoLsv p history event := by
  have after := (step_unversioned p event unversioned).recordedLsv_eq
  cases event with
  | packet | boot => trivial
  | lkg op data =>
    cases op with
    | restore => trivial
    | commit =>
      intro dirty writes packet applied
      have bounded := kept.recorded packet (applied_committed_step dirty writes applied)
      rw [after] at bounded
      exact Nat.le_zero.mp bounded

end

/-- From a clear on, identity packets cannot be rolled back exactly as long as no packet with an `LSV` other than zero
is committed. -/
theorem identity_antiRollback_iff {p : Platform} {m : Machine} (reachable : m.Reachable p)
    (events : List IdentityEvent) : Runs.Guarded (step p) (NotRolledBack p) (start m) events ↔
      Runs.Guarded (step p) (CommitsNoLsv p) (start m) events := by
  constructor
  · intro kept
    exact kept.shows (step p) (fun _ event unversioned _ => step_unversioned p event unversioned)
      (fun _ _ unversioned kept => kept.commitsNoLsv unversioned) reachable.unversioned
  · intro commits
    have initially : (start m).WithoutLsv := ⟨reachable.unversioned, List.forall_mem_nil _⟩
    exact commits.shows (step p) (fun _ _ without commits => without.step commits)
      (fun _ _ without commits => without.notRolledBack commits) initially

def ownerVersionPacket (version lsv : Nat) (key signer : Byte) : Packet :=
  let signatures := signedWith key ++ signedWith signer
  let bytes := littleEndian 4 identityApplyVarSignature ++ ([2, 1, 0, 0] ++ (List.replicate 4 0 ++
    (littleEndian 2 32 ++ (littleEndian 2 33 ++ (littleEndian 2 34 ++ (littleEndian 2 1 ++ (littleEndian 2 35 ++
      (List.replicate 2 0 ++ (littleEndian 4 version ++ (littleEndian 4 lsv ++ (List.replicate 3 0 ++
        (key :: signatures))))))))))))
  (initializePacket keyedPlatform .identity (.ok bytes)).data

def ownerReplaced (first second : Packet) : List IdentityEvent :=
  [.packet confirmingUser first, .lkg .commit { first with lkgDirty := true }, .boot {}, .packet confirmingUser second]

theorem bootedMachine_reachable : Machine.bootedMachine.Reachable keyedPlatform :=
  ⟨.empty, 0, [.boot {}], rfl⟩

/-- Packets of version 5 and then 1, neither of them with an `LSV`. -/
theorem identity_antiRollback_iff_withoutLsv :
    let events := ownerReplaced (ownerVersionPacket 5 0 1 1) (ownerVersionPacket 1 0 2 1)
    (Runs.run (step keyedPlatform) (start Machine.bootedMachine) events).committed = [⟨.signerOwner, 0⟩] ∧
      Runs.Guarded (step keyedPlatform) (NotRolledBack keyedPlatform) (start Machine.bootedMachine) events := by
  refine ⟨by decide +kernel, (identity_antiRollback_iff bootedMachine_reachable _).mpr ?_⟩
  have applied : ∀ packet ∈ ((start Machine.bootedMachine).step keyedPlatform
      (.packet confirmingUser (ownerVersionPacket 5 0 1 1))).applied, packet.lsv = 0 := by
    decide +kernel
  exact ⟨trivial, fun _ _ => applied, trivial, trivial, trivial⟩

/-- A packet of version 1 replaces the Owner's certificate after one with an `LSV` of 5 was committed, of which nothing
is recorded. -/
theorem identity_rolledBack :
    let first := ownerVersionPacket 5 5 1 1
    let second := ownerVersionPacket 1 0 2 1
    let committed := Runs.run (step keyedPlatform) (start Machine.bootedMachine) ((ownerReplaced first second).take 3)
    committed.committed = [⟨.signerOwner, 5⟩] ∧ CertStore.recordedLsv committed.machine.certFlash = 0 ∧
      second.namedIdentity = some .signerOwner ∧ second.versionField = 1 ∧
      (committed.step keyedPlatform (.packet confirmingUser second)).machine.certs.provisionedCert .signerOwner =
        some [2] ∧
      ¬ Runs.Guarded (step keyedPlatform) (NotRolledBack keyedPlatform) (start Machine.bootedMachine)
        (ownerReplaced first second) := by
  refine ⟨by decide +kernel, by decide +kernel, by decide +kernel, by decide +kernel, by decide +kernel, ?_⟩
  rintro ⟨-, -, -, last, -⟩
  have committed : ⟨.signerOwner, 5⟩ ∈ (Runs.run (step keyedPlatform) (start Machine.bootedMachine)
      ((ownerReplaced (ownerVersionPacket 5 5 1 1) (ownerVersionPacket 1 0 2 1)).take 3)).committed := by
    decide +kernel
  have applied : (applyNewIdentityPacket keyedPlatform confirmingUser
      (Runs.run (step keyedPlatform) (start Machine.bootedMachine)
        ((ownerReplaced (ownerVersionPacket 5 5 1 1) (ownerVersionPacket 1 0 2 1)).take 3)).machine
      (ownerVersionPacket 1 0 2 1)).isApplied := by
    decide +kernel
  have newer : 5 ≤ (ownerVersionPacket 1 0 2 1).versionField :=
    last.enforced _ _ _ rfl (by decide +kernel) applied _ committed rfl
  exact absurd newer (by decide +kernel)

end IdentityHistory

end Dfci
