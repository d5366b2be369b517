import Dfci.Machine

/-! # Recovery

The brute force way out of DFCI: the device shows a challenge that is encrypted for a key, and whoever can decrypt it
answers with a part of its nonce. Three wrong answers end the attempt for this boot. -/

namespace Dfci

/-! ## The challenge -/

/-- The 64 bytes of `DFCI_CHALLENGE_NONCE`. -/
abbrev ChallengeNonce := { bytes : List Byte // bytes.length = 64 }

/-- `DFCI_RECOVERY_CHALLENGE` -/
structure RecoveryChallenge where
  timestamp : EfiTime
  nonce : ChallengeNonce
  multiString : List Byte
  deriving DecidableEq

/-- `Nonce.Parts.Key`, by which the user is authenticated. -/
def RecoveryChallenge.key (challenge : RecoveryChallenge) : List Byte :=
  challenge.nonce.val.drop 54

/-- What `LocateProtocol` and then `GetRNG` answer, for the algorithms in the order in which they are tried. -/
abbrev RngAnswers (Output : Type) := Except Nat (List (Except Nat Output))

/-- `GetRandomValue`: the first algorithm that is supported. -/
def getRandomValue {Output : Type} (answers : RngAnswers Output) : Except EfiStatus Output :=
  match answers with
  | .error code => .error (.error code)
  | .ok answers => tryAlgorithms answers
where
  tryAlgorithms : List (Except Nat Output) → Except EfiStatus Output
    | [] => .error .notFound
    | .ok output :: _ => .ok output
    | .error code :: answers =>
      if EfiStatus.error code = .unsupported then tryAlgorithms answers else .error (.error code)

/-- `DFCI_MULTI_STRING_MAX_SIZE` -/
def multiStringMaxSize : Nat := 104

/-- An identifier of the system is appended with `AsciiStrnCatS`. -/
def appendElement (multiString : List Byte) (element : Except EfiStatus (List Byte)) : Except EfiStatus (List Byte) := do
  let element ← element
  let text := element.dropLast.takeWhile fun char => char ≠ 0
  if multiStringMaxSize - multiString.length ≤ text.length then
    throw .bufferTooSmall
  .ok (multiString ++ text)

/-- What the random number generator and the encryption answer to one `GetRecoveryPacket`. -/
structure RecoveryServices where
  nonce : RngAnswers ChallengeNonce
  seed : RngAnswers (List Byte)
  /-- `Pkcs1v2Encrypt` of the challenge for a certificate, with a seed. -/
  pkcs1v2Encrypt : List Byte → RecoveryChallenge → List Byte → Option (List Byte)

/-- `GetRecoveryChallenge`. It also fails when an identifier of the system is missing or too long, and the caller then
frees what was made. -/
def getRecoveryChallenge (p : Platform) (svc : RecoveryServices) : Except EfiStatus RecoveryChallenge := do
  if p.getTimeStatus.isError then
    throw p.getTimeStatus
  let nonce ← getRandomValue svc.nonce
  let multiString ← appendElement [] p.serialNumber
  let multiString ← appendElement multiString p.productName
  let multiString ← appendElement multiString p.manufacturer
  .ok ⟨p.getTime, nonce, multiString⟩

/-- `EncryptRecoveryChallenge`, for the certificate of a key that may have none. -/
def encryptRecoveryChallenge (svc : RecoveryServices) (challenge : RecoveryChallenge) (cert : Option (List Byte)) :
    Except EfiStatus (List Byte) := do
  let some cert := cert | throw .invalidParameter
  let seed ← getRandomValue svc.seed
  match svc.pkcs1v2Encrypt cert challenge seed with
  | none => throw .aborted
  | some encrypted => .ok encrypted

/-! ## The recovery session -/

structure RecoveryState where
  machine : Machine
  /-- `mResponseValidationCount` -/
  responseValidationCount : Nat
  /-- `mRecoveryChallenge` -/
  challenge : Option RecoveryChallenge
  /-- `mRecoveryId`; `none` for `DFCI_IDENTITY_INVALID`. -/
  recoveryId : Option Identity
  /-- `ResetSystem` was called, and does not return. -/
  shutDown : Bool
  deriving DecidableEq

def maxTriesForRecovery : Nat := 3
def recoveryResponseSize : Nat := 10

/-- `DFCI_AUTH_RECOVERY_PACKET` -/
structure RecoveryPacket where
  identity : Identity
  data : List Byte
  deriving DecidableEq

namespace RecoveryState

def loaded (m : Machine) : RecoveryState := ⟨m, 0, none, none, false⟩

/-- The mask of the identities that may recover: that of `Dfci.Recovery.Enable`, and if it is empty that of
`Dfci.Ztd.Recovery.Enable`. -/
def recoveryMask (store : PermissionStore) : Mask :=
  if store.queryPermission dfciRecoveryId = 0 then store.queryPermission ztdRecoveryId
  else store.queryPermission dfciRecoveryId

/-- The key that a `DFCI_IDENTITY_ID` is, if it is one: `DfciIdentityToCertIndex` knows no combination of keys. -/
def keyOf (identity : Mask) : Option Identity :=
  [Identity.signerZtd, .signerUser, .signerUser1, .signerUser2, .signerOwner].find? fun key => key.bit = identity

/-- `GetRecoveryPacket` -/
def getRecoveryPacket (p : Platform) (svc : RecoveryServices) (identity : Mask) (state : RecoveryState) :
    Except EfiStatus RecoveryPacket × RecoveryState :=
  let m := state.machine
  if state.challenge.isSome then
    (.error .alreadyStarted, state)
  else if identity &&& Mask.keys = 0 then
    (.error .unsupported, state)
  else if m.certs.populatedIdentities &&& identity = 0 then
    (.error .unsupported, state)
  else
    match m.permissions.store with
    | none => (.error .notReady, state)
    | some store =>
      if recoveryMask store &&& identity = 0 then
        (.error .accessDenied, state)
      else
        match keyOf identity with
        | none => (.error .invalidParameter, state)
        | some key =>
          let cert := key.toCertIndex.bind fun i => (m.certs.certs i).cert
          match getRecoveryChallenge p svc with
          | .error status => (.error status, state)
          | .ok challenge =>
            match encryptRecoveryChallenge svc challenge cert with
            | .error status => (.error status, state)
            | .ok encrypted =>
              (.ok ⟨key, encrypted⟩, { state with challenge := some challenge, recoveryId := some key })

/-- `DoDfciRecovery` -/
def doDfciRecovery (p : Platform) (state : RecoveryState) : EfiStatus × RecoveryState :=
  let (status, m) :=
    match state.recoveryId with
    | some identity => state.machine.doDfciRecovery p identity
    -- no identity properties: a random number is drawn, and no token made of it
    | none =>
      let (_, auth) := state.machine.auth.createRandomAuthToken p
      Machine.clearDfci p authTokenInvalid { state.machine with auth := auth }
  (status, { state with machine := m, challenge := none, recoveryId := none })

/-- Where the checks of `SetRecoveryResponse` end. -/
inductive ResponseCheck where
  | invalidParameter
  | exceeded
  | notReady
  | wrong
  | right
  deriving DecidableEq, Repr

/-- The checks of `SetRecoveryResponse`, on a response of `Size` bytes or a null pointer. -/
def checkResponse (state : RecoveryState) (response : Option (List Byte)) : ResponseCheck :=
  match response with
  | none => .invalidParameter
  | some response =>
    if response.length ≠ recoveryResponseSize then .invalidParameter
    else if maxTriesForRecovery ≤ state.responseValidationCount then .exceeded
    else
      match state.challenge with
      | none => .notReady
      | some challenge => if challenge.key ≠ response then .wrong else .right

/-- What a call of `SetRecoveryResponse` does. -/
structure ResponseAnswer where
  status : EfiStatus
  /-- The status of `DoDfciRecovery`, if it was called; it is not looked at. -/
  recovery : Option EfiStatus
  state : RecoveryState

def countResponse (state : RecoveryState) : RecoveryState :=
  { state with responseValidationCount := state.responseValidationCount + 1 }

/-- `SetRecoveryResponse` up to its `CLEANUP` -/
def respond (p : Platform) (response : Option (List Byte)) (state : RecoveryState) : ResponseAnswer :=
  match state.checkResponse response with
  | .invalidParameter => ⟨.invalidParameter, none, state⟩
  | .exceeded => ⟨.securityViolation, none, state.countResponse⟩
  | .notReady => ⟨.notReady, none, state⟩
  | .wrong => ⟨.accessDenied, none, state.countResponse⟩
  | .right =>
    let (status, state) := state.doDfciRecovery p
    ⟨.success, some status, state⟩

/-- `SetRecoveryResponse` -/
def setRecoveryResponse (p : Platform) (response : Option (List Byte)) (state : RecoveryState) : ResponseAnswer :=
  let answer := state.respond p response
  if maxTriesForRecovery < answer.state.responseValidationCount then
    { answer with state := { answer.state with shutDown := true } }
  else if answer.state.responseValidationCount = maxTriesForRecovery then
    { answer with status := .securityViolation }
  else
    answer

/-! ## The calls of one boot -/

/-- The calls of one boot. Between those to the recovery support others may leave any machine behind. -/
inductive Call where
  | getRecoveryPacket (svc : RecoveryServices) (identity : Mask)
  | setRecoveryResponse (response : Option (List Byte))
  | others (m : Machine)

def step (p : Platform) (state : RecoveryState) (call : Call) : RecoveryState :=
  if state.shutDown then
    state
  else
    match call with
    | .getRecoveryPacket svc identity => (state.getRecoveryPacket p svc identity).2
    | .setRecoveryResponse response => (state.setRecoveryResponse p response).state
    | .others m => { state with machine := m }

structure Issued where
  key : Identity
  challenge : RecoveryChallenge
  machine : Machine

structure Issued.Authorised (issued : Issued) : Prop where
  provisioned : issued.machine.certs.populatedIdentities.has issued.key = true
  permitted : ∃ store, issued.machine.permissions.store = some store ∧ (recoveryMask store).has issued.key = true

structure Log where
  wrongResponses : Nat
  /-- The packet that was issued last. -/
  lastIssued : Option Issued
  /-- That packet, until a recovery has consumed its challenge. -/
  outstanding : Option Issued

def Log.isWrong (log : Log) (response : Option (List Byte)) : Bool :=
  response.any fun response => log.outstanding.any fun issued =>
    response.length = recoveryResponseSize && response ≠ issued.challenge.key

def Log.note (p : Platform) (log : Log) (state : RecoveryState) : Call → Log
  | .getRecoveryPacket svc identity =>
    match (state.getRecoveryPacket p svc identity).1, getRecoveryChallenge p svc with
    | .ok packet, .ok challenge =>
      let issued := some ⟨packet.identity, challenge, state.machine⟩
      { log with lastIssued := issued, outstanding := issued }
    | _, _ => log
  | .setRecoveryResponse response =>
    { log with
      wrongResponses := log.wrongResponses + (log.isWrong response).toNat
      outstanding := if (state.setRecoveryResponse p response).recovery.isSome then none else log.outstanding }
  | .others _ => log

/-- The calls with their observer, who sees no more calls once the system is shut down. -/
def observe (p : Platform) (observed : RecoveryState × Log) (call : Call) : RecoveryState × Log :=
  (observed.1.step p call, if observed.1.shutDown then observed.2 else observed.2.note p observed.1 call)

def Protected (p : Platform) (observed : RecoveryState × Log) (call : Call) : Prop :=
  observed.1.shutDown = false →
  match call with
  | .getRecoveryPacket svc identity =>
    -- one challenge at a time
    (observed.1.getRecoveryPacket p svc identity).1.toOption.isSome = true → observed.2.outstanding = none
  | .setRecoveryResponse response =>
    -- a recovery consumes the challenge of the last packet, and is one for the key of that packet
    ((observed.1.setRecoveryResponse p response).recovery.isSome = true →
      ∃ issued, observed.2.lastIssued = some issued ∧ observed.2.outstanding = some issued ∧ issued.Authorised ∧
        response = some issued.challenge.key ∧ observed.2.wrongResponses < 3 ∧
        observed.1.recoveryId = some issued.key ∧
        (observed.1.setRecoveryResponse p response).state.machine =
          (observed.1.machine.doDfciRecovery p issued.key).2) ∧
    -- after three wrong responses no other is compared
    (∀ bytes, response = some bytes → bytes.length = recoveryResponseSize → 3 ≤ observed.2.wrongResponses →
      observed.1.checkResponse response = .exceeded ∧
        (observed.1.setRecoveryResponse p response).state.shutDown = true)
  | .others _ => True

structure Agrees (state : RecoveryState) (log : Log) : Prop where
  count : state.responseValidationCount = log.wrongResponses
  bounded : log.wrongResponses ≤ maxTriesForRecovery
  challenge : state.challenge = log.outstanding.map Issued.challenge
  recoveryId : state.recoveryId = log.outstanding.map Issued.key
  last : log.outstanding = none ∨ log.outstanding = log.lastIssued
  authorised : ∀ issued ∈ log.outstanding, issued.Authorised

section

variable {p : Platform} {state : RecoveryState} {log : Log}

theorem keyOf_bit {identity : Mask} {key : Identity} (isKey : keyOf identity = some key) : key.bit = identity := by
  simpa using List.find?_some isKey

theorem has_of_and_bit {mask : Mask} {key : Identity} (meets : mask &&& key.bit ≠ 0) : mask.has key = true := by
  simpa [Mask.has] using meets

/-- What `GetRecoveryPacket` can do. -/
inductive PacketEffect (p : Platform) (svc : RecoveryServices) (state : RecoveryState) :
    Except EfiStatus RecoveryPacket × RecoveryState → Prop
  | refused (status : EfiStatus) : PacketEffect p svc state (.error status, state)
  | issued (key : Identity) (challenge : RecoveryChallenge) (encrypted : List Byte) (idle : state.challenge = none)
      (challenges : getRecoveryChallenge p svc = .ok challenge)
      (authorised : Issued.Authorised ⟨key, challenge, state.machine⟩) :
      PacketEffect p svc state
        (.ok ⟨key, encrypted⟩, { state with challenge := some challenge, recoveryId := some key })

theorem getRecoveryPacket_effect (p : Platform) (svc : RecoveryServices) (identity : Mask)
    (state : RecoveryState) : PacketEffect p svc state (state.getRecoveryPacket p svc identity) := by
  simp only [getRecoveryPacket]
  split
  · exact .refused _
  · rename_i idle
    split
    · exact .refused _
    · split
      · exact .refused _
      · rename_i provisioned
        split
        · exact .refused _
        · rename_i store isStore
          split
          · exact .refused _
          · rename_i permitted
            split
            · exact .refused _
            · rename_i key isKey
              split
              · exact .refused _
              · rename_i challenge challenges
                split
                · exact .refused _
                · rename_i encrypted _
                  rw [← keyOf_bit isKey] at provisioned permitted
                  exact .issued key challenge encrypted (by simpa using idle) challenges
                    ⟨has_of_and_bit provisioned, store, isStore, has_of_and_bit permitted⟩

/-- What `SetRecoveryResponse` can do, as long as the system is on. -/
inductive ResponseEffect (p : Platform) (response : Option (List Byte)) (state : RecoveryState) :
    ResponseAnswer → Prop
  | ignored (status : EfiStatus) (notSuccess : status ≠ .success)
      (reason : (∀ bytes ∈ response, bytes.length ≠ recoveryResponseSize) ∨
        state.responseValidationCount < maxTriesForRecovery ∧ state.challenge = none) :
      ResponseEffect p response state ⟨status, none, state⟩
  | exceeded (bytes : List Byte) (isResponse : response = some bytes) (size : bytes.length = recoveryResponseSize)
      (tries : state.responseValidationCount = maxTriesForRecovery) :
      ResponseEffect p response state ⟨.securityViolation, none, { state.countResponse with shutDown := true }⟩
  | wrong (status : EfiStatus) (notSuccess : status ≠ .success) (bytes : List Byte) (challenge : RecoveryChallenge)
      (isResponse : response = some bytes) (size : bytes.length = recoveryResponseSize)
      (tries : state.responseValidationCount < maxTriesForRecovery) (active : state.challenge = some challenge)
      (differs : bytes ≠ challenge.key) :
      ResponseEffect p response state ⟨status, none, state.countResponse⟩
  | right (challenge : RecoveryChallenge) (isResponse : response = some challenge.key)
      (tries : state.responseValidationCount < maxTriesForRecovery) (active : state.challenge = some challenge) :
      ResponseEffect p response state
        ⟨.success, some (state.doDfciRecovery p).1, (state.doDfciRecovery p).2⟩

theorem setRecoveryResponse_effect (p : Platform) (response : Option (List Byte)) (state : RecoveryState)
    (bounded : state.responseValidationCount ≤ maxTriesForRecovery) :
    ResponseEffect p response state (state.setRecoveryResponse p response) := by
  -- a response that is not looked at may still learn that the tries are used up
  have ignored : ∀ status, status ≠ EfiStatus.success → state.respond p response = ⟨status, none, state⟩ →
      ((∀ bytes ∈ response, bytes.length ≠ recoveryResponseSize) ∨
        state.responseValidationCount < maxTriesForRecovery ∧ state.challenge = none) →
      ResponseEffect p response state (state.setRecoveryResponse p response) := by
    intro status notSuccess answers reason
    simp only [setRecoveryResponse, answers, if_neg (Nat.not_lt.mpr bounded)]
    split
    · exact .ignored _ (by simp) reason
    · exact .ignored status notSuccess reason
  cases response with
  | none => exact ignored .invalidParameter (by simp) rfl (.inl (by simp))
  | some bytes =>
    by_cases size : bytes.length = recoveryResponseSize
    · by_cases tries : maxTriesForRecovery ≤ state.responseValidationCount
      · have exceeds : state.checkResponse (some bytes) = .exceeded := by
          simp only [checkResponse, size, ne_eq, not_true, if_false, if_pos tries]
        have counted : maxTriesForRecovery < state.countResponse.responseValidationCount := by
          simp only [countResponse]
          omega
        simp only [setRecoveryResponse, respond, exceeds, if_pos counted]
        exact .exceeded bytes rfl size (Nat.le_antisymm bounded tries)
      · cases active : state.challenge with
        | none =>
          refine ignored .notReady (by simp) ?_ (.inr ⟨by omega, active⟩)
          simp only [respond, checkResponse, size, ne_eq, not_true, if_false, if_neg tries, active]
        | some challenge =>
          by_cases differs : challenge.key ≠ bytes
          · have check : state.checkResponse (some bytes) = .wrong := by
              simp only [checkResponse, size, ne_eq, not_true, if_false, if_neg tries, active]
              exact if_pos differs
            have few : ¬ maxTriesForRecovery < state.countResponse.responseValidationCount := by
              simp only [countResponse]
              omega
            simp only [setRecoveryResponse, respond, check, if_neg few]
            split
            · exact .wrong _ (by simp) bytes challenge rfl size (by omega) active differs.symm
            · exact .wrong _ (by simp) bytes challenge rfl size (by omega) active differs.symm
          · obtain rfl : challenge.key = bytes := not_not.mp differs
            have check : state.checkResponse (some challenge.key) = .right := by
              simp only [checkResponse, size, ne_eq, not_true, if_false, if_neg tries, active]
            have few : (state.doDfciRecovery p).2.responseValidationCount < maxTriesForRecovery := by
              simp only [doDfciRecovery]
              omega
            simp only [setRecoveryResponse, respond, check, if_neg (Nat.lt_asymm few), if_neg (Nat.ne_of_lt few)]
            exact .right challenge rfl (by omega) active
    · refine ignored .invalidParameter (by simp) ?_ (.inl ?_)
      · simp only [respond, checkResponse, ne_eq, size, not_false_eq_true, if_true]
      · rintro _ ⟨⟩
        exact size

/-! ## Every run of calls -/

theorem Agrees.packet {svc : RecoveryServices} {identity : Mask} (agrees : Agrees state log) :
    Agrees (state.getRecoveryPacket p svc identity).2 (log.note p state (.getRecoveryPacket svc identity)) := by
  have effect := getRecoveryPacket_effect p svc identity state
  simp only [Log.note]
  generalize state.getRecoveryPacket p svc identity = answer at effect ⊢
  cases effect with
  | refused status => exact agrees
  | issued key challenge encrypted idle challenges authorised =>
    simp only [challenges]
    refine ⟨agrees.count, agrees.bounded, rfl, rfl, .inr rfl, ?_⟩
    rintro _ ⟨⟩
    exact authorised

theorem Agrees.issued {challenge : RecoveryChallenge} (agrees : Agrees state log)
    (active : state.challenge = some challenge) : ∃ issued, log.outstanding = some issued ∧ issued.challenge = challenge := by
  rw [agrees.challenge] at active
  exact Option.map_eq_some_iff.mp active

theorem Agrees.notWrong {response : Option (List Byte)} (agrees : Agrees state log)
    (reason : (∀ bytes ∈ response, bytes.length ≠ recoveryResponseSize) ∨
      state.responseValidationCount < maxTriesForRecovery ∧ state.challenge = none) : log.isWrong response = false := by
  cases response with
  | none => rfl
  | some bytes =>
    rcases reason with size | ⟨_, inactive⟩
    · simp [Log.isWrong, size bytes rfl]
    · rw [agrees.challenge, Option.map_eq_none_iff] at inactive
      simp [Log.isWrong, inactive]

theorem Agrees.response {response : Option (List Byte)} (agrees : Agrees state log)
    (on : (state.setRecoveryResponse p response).state.shutDown = false) :
    Agrees (state.setRecoveryResponse p response).state (log.note p state (.setRecoveryResponse response)) := by
  have effect := setRecoveryResponse_effect p response state (agrees.count ▸ agrees.bounded)
  simp only [Log.note]
  generalize state.setRecoveryResponse p response = answer at effect on ⊢
  cases effect with
  | ignored status notSuccess reason =>
    rw [agrees.notWrong reason]
    exact agrees
  | exceeded bytes isResponse size tries => cases on
  | wrong status notSuccess bytes challenge isResponse size tries active differs =>
    obtain ⟨issued, isIssued, rfl⟩ := agrees.issued active
    have wrong : log.isWrong response = true := by simp [Log.isWrong, isResponse, isIssued, size, differs]
    have count := agrees.count
    rw [wrong]
    refine ⟨?_, ?_, agrees.challenge, agrees.recoveryId, agrees.last, agrees.authorised⟩
    · simp only [countResponse, Bool.toNat_true, count]
    · simp only [Bool.toNat_true]
      omega
  | right challenge isResponse tries active =>
    obtain ⟨issued, isIssued, rfl⟩ := agrees.issued active
    have notWrong : log.isWrong response = false := by simp [Log.isWrong, isResponse, isIssued]
    rw [notWrong]
    exact ⟨agrees.count, agrees.bounded, rfl, rfl, .inl rfl, (by simp)⟩

def Tracked (observed : RecoveryState × Log) : Prop :=
  observed.1.shutDown = false → Agrees observed.1 observed.2

theorem Tracked.observe {observed : RecoveryState × Log} (tracked : Tracked observed) (call : Call) :
    Tracked (observe p observed call) := by
  obtain ⟨state, log⟩ := observed
  intro on
  by_cases off : state.shutDown = true
  · simp only [RecoveryState.observe, step, off, if_true] at on
    cases on
  · have agrees : Agrees state log := tracked (by simpa using off)
    simp only [RecoveryState.observe, step, off, Bool.false_eq_true, if_false] at on ⊢
    cases call with
    | getRecoveryPacket svc identity => exact agrees.packet
    | setRecoveryResponse response => exact agrees.response on
    | others m =>
      exact ⟨agrees.count, agrees.bounded, agrees.challenge, agrees.recoveryId, agrees.last, agrees.authorised⟩

theorem Tracked.protected {observed : RecoveryState × Log} (tracked : Tracked observed) (call : Call) :
    Protected p observed call := by
  obtain ⟨state, log⟩ := observed
  intro on
  have agrees : Agrees state log := tracked on
  cases call with
  | getRecoveryPacket svc identity =>
    intro issues
    have effect := getRecoveryPacket_effect p svc identity state
    generalize state.getRecoveryPacket p svc identity = answer at effect issues
    cases effect with
    | refused status => cases issues
    | issued key challenge encrypted idle =>
      rw [agrees.challenge, Option.map_eq_none_iff] at idle
      exact idle
  | setRecoveryResponse response =>
    have effect := setRecoveryResponse_effect p response state (agrees.count ▸ agrees.bounded)
    refine ⟨fun recovers => ?_, fun bytes isResponse size exceeded => ?_⟩
    · generalize state.setRecoveryResponse p response = answer at effect recovers
      cases effect with
      | ignored | exceeded | wrong => cases recovers
      | right challenge isResponse tries active =>
        obtain ⟨issued, isIssued, rfl⟩ := agrees.issued active
        have last : log.lastIssued = some issued := by
          rcases agrees.last with none | same
          · rw [none] at isIssued
            cases isIssued
          · rw [← same, isIssued]
        have isKey : state.recoveryId = some issued.key := by rw [agrees.recoveryId, isIssued, Option.map_some]
        refine ⟨issued, last, isIssued, agrees.authorised issued isIssued, isResponse, agrees.count ▸ tries, isKey, ?_⟩
        simp only [RecoveryState.doDfciRecovery, isKey]
    · have tries : maxTriesForRecovery ≤ state.responseValidationCount := agrees.count ▸ exceeded
      refine ⟨?_, ?_⟩
      · simp only [isResponse, checkResponse, size, ne_eq, not_true, if_false, if_pos tries]
      · generalize state.setRecoveryResponse p response = answer at effect
        cases effect with
        | ignored status notSuccess reason =>
          rcases reason with wrongSize | few
          · exact absurd size (wrongSize bytes isResponse)
          · exact absurd few.1 (Nat.not_lt.mpr tries)
        | exceeded => rfl
        | wrong _ _ _ _ _ _ few | right _ _ few => exact absurd few (Nat.not_lt.mpr tries)
  | others m => trivial

end

/-- From the start of a boot, every call is protected. -/
theorem recovery_protected (p : Platform) (m : Machine) (calls : List Call) :
    Runs.Guarded (observe p) (Protected p) (loaded m, ⟨0, none, none⟩) calls := by
  have initially : Tracked (loaded m, ⟨0, none, none⟩) := fun _ =>
    ⟨rfl, Nat.zero_le _, rfl, rfl, .inl rfl, (by simp)⟩
  exact Runs.shows (observe p) (fun _ call tracked => tracked.observe call)
    (fun _ call tracked => tracked.protected call) initially calls

end RecoveryState

end Dfci
