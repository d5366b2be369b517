import Dfci.Identity.Approval
import Dfci.System

/-! # What the signature of a packet covers

A signed packet is the header, the target strings and the payload, for a new certificate the test signature, and then
the signature. The three managers check the lengths each in its own way. Those of the identities and of the permissions
want the signature to end with the mailbox, the settings manager takes the comparison of `DecodePacket` for enough. -/

namespace Dfci

open ByteFields PacketHeader

namespace PacketHeader

def signedDataLength (packet : List Byte) : Nat := payloadOffset packet + payloadSize packet

section

variable {packet : List Byte} (whole : 12 ≤ packet.length)
include whole

theorem length_withoutSessionId : (withoutSessionId packet).length = packet.length := by
  simp only [withoutSessionId, List.length_append, List.length_take, List.length_replicate, List.length_drop]
  omega

theorem length_sessionFront : (packet.take 8 ++ List.replicate 4 (0 : Byte)).length = 12 := by
  simp only [List.length_append, List.length_take, List.length_replicate]
  omega

theorem drop_withoutSessionId {count : Nat} (behind : 12 ≤ count) :
    (withoutSessionId packet).drop count = packet.drop count := by
  have front := length_sessionFront whole
  obtain ⟨more, rfl⟩ : ∃ more, count = 12 + more := ⟨count - 12, by omega⟩
  rw [withoutSessionId, ← List.append_assoc, List.drop_append, front, Nat.add_sub_cancel_left,
    List.drop_of_length_le (by omega), List.nil_append, List.drop_drop]

theorem take_withoutSessionId {count : Nat} (behind : 12 ≤ count) :
    (withoutSessionId packet).take count = withoutSessionId (packet.take count) := by
  have front := length_sessionFront whole
  rw [withoutSessionId, withoutSessionId, ← List.append_assoc, ← List.append_assoc, List.take_append, front,
    List.take_of_length_le (by omega), List.take_take, Nat.min_eq_left (by omega), List.drop_take]

end

end PacketHeader

/-- What a successful `DecodePacket` has read from a mailbox. -/
structure Packet.ReadFrom (data : Packet) (bytes : List Byte) : Prop where
  packet : data.bytes = withoutSessionId bytes
  header : PacketHeader.size ≤ bytes.length
  behindHeader : PacketHeader.size ≤ PacketHeader.payloadOffset bytes
  signedDataLength : data.signedDataLength = PacketHeader.signedDataLength bytes
  payloadSize : data.payloadSize = PacketHeader.payloadSize bytes
  signature : data.signature = none ∨ data.signature = some data.signedDataLength

theorem checkHeader_offsetsValid {data : Packet} {done : Unit} (checks : checkHeader data = .ok done) :
    PacketHeader.size ≤ data.bytes.length ∧ offsetsValid data.bytes = true := by
  obtain ⟨_, checks⟩ := Fallible.ite_throw_eq_ok.mp checks
  obtain ⟨_, checks⟩ := Fallible.ite_throw_eq_ok.mp checks
  obtain ⟨size, checks⟩ := Fallible.ite_throw_eq_ok.mp checks
  obtain ⟨_, checks⟩ := Fallible.ite_throw_eq_ok.mp checks
  obtain ⟨_, checks⟩ := Fallible.ite_throw_eq_ok.mp checks
  refine ⟨Nat.le_of_not_lt size, ?_⟩
  cases valid : offsetsValid data.bytes with
  | false =>
    rw [valid] at checks
    cases checks
  | true => rfl

theorem checkHeader_ok {data : Packet} {done : Unit} (checks : checkHeader data = .ok done) :
    PacketHeader.size ≤ data.bytes.length ∧ PacketHeader.size ≤ PacketHeader.payloadOffset data.bytes := by
  obtain ⟨size, ordered⟩ := checkHeader_offsetsValid checks
  simp only [offsetsValid, Bool.and_eq_true, decide_eq_true_eq] at ordered
  omega

theorem locateSignature_ok {data located : Packet} (locates : locateSignature data = .ok located) :
    ∃ signature, located = { data with signature := signature } ∧
      (signature = none ∨ signature = some data.signedDataLength) := by
  rw [locateSignature] at locates
  repeat' split at locates
  all_goals cases locates
  · exact ⟨none, rfl, .inl rfl⟩
  · exact ⟨some data.signedDataLength, rfl, .inr rfl⟩

theorem readFrom_decodePacket {p : Platform} {data : Packet}
    (decodes : (decodePacket p data).1 = .success) : (decodePacket p data).2.ReadFrom data.bytes := by
  rw [decodePacket] at decodes ⊢
  cases header : checkHeader data with
  | error failure =>
    simp only [header] at decodes
    exact absurd decodes failure.status_ne_success
  | ok done =>
    obtain ⟨size, offset⟩ := checkHeader_ok header
    simp only [header] at decodes ⊢
    cases locates : locateSignature (readHeader data) with
    | error failure =>
      simp only [locates] at decodes
      exact absurd decodes failure.status_ne_success
    | ok located =>
      obtain ⟨signature, rfl, place⟩ := locateSignature_ok locates
      simp only [locates] at decodes ⊢
      cases targets : checkTargets p { readHeader data with signature := signature } with
      | error failure =>
        simp only [targets, orFail] at decodes
        exact absurd decodes failure.status_ne_success
      | ok checked =>
        obtain ⟨wildcard, rfl⟩ := checkTargets_ok targets
        exact ⟨rfl, size, offset, rfl, rfl, place⟩

theorem readFrom_initializePacket {p : Platform} {box : MailBox} {bytes : List Byte}
    (decodes : (initializePacket p box (.ok bytes)).decodeStatus = .success) :
    (initializePacket p box (.ok bytes)).data.ReadFrom bytes := by
  simp only [initializePacket] at decodes ⊢
  generalize isData : { Packet.allocated box.hdrSignature 2 with packet := some bytes } = data at decodes ⊢
  have isBytes : data.bytes = bytes := by
    rw [← isData]
    rfl
  cases isIdentity : box.isIdentity with
  | false =>
    simp only [isIdentity, Bool.false_eq_true, if_false] at decodes ⊢
    have read := readFrom_decodePacket decodes
    rwa [isBytes] at read
  | true =>
    simp only [isIdentity, if_true, decodeIdentityPacket] at decodes ⊢
    have read : (decodePacket p data).1 = .success → (decodePacket p data).2.ReadFrom data.bytes :=
      readFrom_decodePacket
    generalize decodePacket p data = answer at decodes read ⊢
    obtain ⟨status, record⟩ := answer
    cases status with
    | error code => cases decodes
    | success =>
      rw [isBytes] at read
      obtain ⟨packet, header, behindHeader, length, payload, signature⟩ := read rfl
      exact ⟨packet, header, behindHeader, length, payload, signature⟩

/-! ## Accepted packets -/

/-- A mailbox is accepted as a signed packet: it is decoded, and its manager has validated and authenticated it. -/
def AcceptsSigned (p : Platform) (m : Machine) (box : MailBox) (bytes : List Byte) : Prop :=
  let decoded := initializePacket p box (.ok bytes)
  decoded.decodeStatus = .success ∧
    match box with
    | .identity | .identity2 =>
      validateIdentityPacket decoded.data = .success ∧
        (validateAndAuthenticatePendingProvisionData p m decoded.data).1 = .success
    | .permissions | .permissions2 =>
      validatePermissionsPacket decoded.data = .success ∧
        (validateAndAuthenticatePermissions p m.certs m.auth decoded.data).1 = .success
    | .settings | .settings2 =>
      -- without a signature a settings packet is the local user's
      decoded.data.signature.isSome = true ∧ validateSettingsPacket decoded.data = .success ∧
        (validateAndAuthenticateSettings p m.certs m.auth decoded.data).1 = .success

/-- What the signature covers: for a new certificate also its test signature. -/
def coveredLength (box : MailBox) (packet : List Byte) : Nat :=
  let signed := PacketHeader.signedDataLength packet
  if box.isIdentity ∧ 0 < PacketHeader.payloadSize packet then signed + winCertLength (packet.drop signed) else signed

/-- The mailbox is what the signature covers and the signature. The signature is that of a key over the mailbox with the
session id zeroed; only an identity packet may have the local user's approval instead. -/
structure NothingOutside (p : Platform) (m : Machine) (box : MailBox) (bytes : List Byte) : Prop where
  header : PacketHeader.size ≤ coveredLength box bytes
  reachesEnd : coveredLength box bytes + winCertLength (bytes.drop (coveredLength box bytes)) = bytes.length
  signature : 8 < winCertLength (bytes.drop (coveredLength box bytes))
  signed : (∃ signer, signerOf p m.certs (withoutSessionId (bytes.take (coveredLength box bytes)))
      (bytes.drop (coveredLength box bytes)) = some signer) ∨
    box.isIdentity = true ∧ (validateAndAuthenticatePendingProvisionData p m
      (initializePacket p box (.ok bytes)).data).2.2.userConfirmationRequired = true

theorem signerOf_winCertLength {p : Platform} {certs : CertStore} {signedData signature : List Byte}
    {signer : Identity} (signs : signerOf p certs signedData signature = some signer) :
    8 < winCertLength signature := by
  have verified := List.find?_some signs
  split at verified
  · cases verified
  · by_contra short
    rw [verifySignature] at verified
    split at verified
    · cases verified
    · rw [if_pos (by omega)] at verified
      cases verified

theorem checkTestSignature_ok {p : Platform} {data : Packet} {length : Nat}
    (checks : checkTestSignature p data = .ok length) :
    length = data.signedDataLength + winCertLength (data.certificateAt data.signedDataLength) := by
  simp only [checkTestSignature] at checks
  repeat' split at checks
  all_goals cases checks
  rfl

theorem checkPendingProvisionData_layout {p : Platform} {m : Machine} {identity : Identity}
    {data : Packet} {signedDataLength : Nat} {permMask : Mask}
    (checks : checkPendingProvisionData p m identity data = .ok (signedDataLength, permMask)) :
    signedDataLength = (if 0 < data.payloadSize
        then data.signedDataLength + winCertLength (data.certificateAt data.signedDataLength) else data.signedDataLength) ∧
      signedDataLength + 28 < data.packetSize ∧
      data.packetSize = winCertLength (data.certificateAt signedDataLength) + signedDataLength := by
  have checked := checkPendingProvisionData_checks checks
  have tested := checked.tested
  refine ⟨?_, checked.long, checked.reaches⟩
  by_cases enrolls : 0 < data.payloadSize
  · rw [if_pos enrolls] at tested ⊢
    exact checkTestSignature_ok tested
  · rw [if_neg enrolls] at tested ⊢
    cases tested
    rfl

section

variable {p : Platform} {m : Machine} {box : MailBox} {bytes : List Byte}

section

variable {data : Packet} (read : data.ReadFrom bytes)
include read

/-- The parts of a decoded packet, in terms of its mailbox. -/
theorem Packet.ReadFrom.parts {length : Nat} (behind : PacketHeader.size ≤ length) :
    data.packetSize = bytes.length ∧ data.certificateAt length = bytes.drop length ∧
      data.bytes.take length = withoutSessionId (bytes.take length) := by
  have header := read.header
  rw [PacketHeader.size] at header behind
  refine ⟨?_, ?_, ?_⟩
  · rw [Packet.packetSize, read.packet, length_withoutSessionId (by omega)]
  · rw [Packet.certificateAt, read.packet, drop_withoutSessionId (by omega) (by omega)]
  · rw [read.packet, take_withoutSessionId (by omega) (by omega)]

/-- A packet whose signature covers what `DecodePacket` found, and reaches the end. -/
theorem NothingOutside.of_signedData (same : coveredLength box bytes = PacketHeader.signedDataLength bytes)
    {signer : Identity}
    (signs : signerOf p m.certs data.signedBytes (data.certificateAt data.signedDataLength) = some signer)
    (reachesEnd : PacketHeader.signedDataLength bytes +
      winCertLength (bytes.drop (PacketHeader.signedDataLength bytes)) = bytes.length)
    : NothingOutside p m box bytes := by
  have behind : PacketHeader.size ≤ PacketHeader.signedDataLength bytes :=
    Nat.le_trans read.behindHeader (Nat.le_add_right _ _)
  obtain ⟨_, certificate, covered⟩ := read.parts behind
  rw [Packet.signedBytes, read.signedDataLength, certificate, covered] at signs
  refine ⟨?_, ?_, ?_, .inl ⟨signer, ?_⟩⟩ <;> rw [same]
  · exact behind
  · exact reachesEnd
  · exact signerOf_winCertLength signs
  · exact signs

theorem nothingOutside_of_permissions (same : coveredLength box bytes = PacketHeader.signedDataLength bytes)
    (valid : validatePermissionsPacket data = .success)
    (authenticates : (validateAndAuthenticatePermissions p m.certs m.auth data).1 = .success) :
    NothingOutside p m box bytes := by
  have behind : PacketHeader.size ≤ PacketHeader.signedDataLength bytes :=
    Nat.le_trans read.behindHeader (Nat.le_add_right _ _)
  obtain ⟨size, certificate, _⟩ := read.parts behind
  have longer : data.signedDataLength < data.packetSize := by
    by_contra short
    rw [validatePermissionsPacket] at valid
    split at valid
    · cases valid
    · rw [if_pos (by omega)] at valid
      cases valid
  rw [validateAndAuthenticatePermissions] at authenticates
  split at authenticates
  · cases authenticates
  · rename_i reaches
    rw [not_not] at reaches
    generalize answers : authWithSignedData p m.certs m.auth data.signedBytes
      (data.certificateAt data.signedDataLength) data.authToken = answer at authenticates
    obtain ⟨status, token, auth⟩ := answer
    cases status with
    | error code => cases authenticates
    | success =>
      obtain ⟨signer, signs, _⟩ := authWithSignedData_success answers
      refine .of_signedData read same signs ?_
      rw [read.signedDataLength, certificate, size] at reaches
      rw [read.signedDataLength, size] at longer
      omega

/-- The checks on the lengths, in terms of the mailbox. -/
theorem Packet.ReadFrom.layout (isIdentity : box.isIdentity = true) {identity : Identity}
    {signedDataLength : Nat} {permMask : Mask}
    (checks : checkPendingProvisionData p m identity data = .ok (signedDataLength, permMask)) :
    signedDataLength = coveredLength box bytes ∧ PacketHeader.size ≤ coveredLength box bytes ∧
      coveredLength box bytes + winCertLength (bytes.drop (coveredLength box bytes)) = bytes.length ∧
      8 < winCertLength (bytes.drop (coveredLength box bytes)) := by
  have signedBehind : PacketHeader.size ≤ PacketHeader.signedDataLength bytes :=
    Nat.le_trans read.behindHeader (Nat.le_add_right _ _)
  obtain ⟨isLength, long, reaches⟩ := checkPendingProvisionData_layout checks
  have covered : signedDataLength = coveredLength box bytes := by
    simp only [isLength, coveredLength, isIdentity, true_and, read.payloadSize, read.signedDataLength,
      (read.parts signedBehind).2.1]
  have behind : PacketHeader.size ≤ coveredLength box bytes := by
    simp only [coveredLength]
    split
    · exact Nat.le_trans signedBehind (Nat.le_add_right _ _)
    · exact signedBehind
  obtain ⟨size, certificate, _⟩ := read.parts behind
  rw [covered, size] at long
  rw [covered, size, certificate] at reaches
  exact ⟨covered, behind, by omega, by omega⟩

end

theorem nothingOutside_of_identity {data : Packet} (isData : (initializePacket p box (.ok bytes)).data = data)
    (read : data.ReadFrom bytes) (isIdentity : box.isIdentity = true)
    (authenticates : (validateAndAuthenticatePendingProvisionData p m data).1 = .success) :
    NothingOutside p m box bytes := by
  have named : ∀ identity, { data with dfciIdentity := some identity }.ReadFrom bytes := fun _ =>
    ⟨read.packet, read.header, read.behindHeader, read.signedDataLength, read.payloadSize, read.signature⟩
  have validation := validateAndAuthenticatePendingProvisionData_validation p m data
  generalize answers : validateAndAuthenticatePendingProvisionData p m data = answer at validation authenticates
  cases validation with
  | refused => cases authenticates
  | signed identity signedDataLength permMask signer token auth _ checks signs =>
    obtain ⟨rfl, behind, reachesEnd, signature⟩ := (named identity).layout isIdentity checks
    obtain ⟨_, certificate, covered⟩ := read.parts behind
    refine ⟨behind, reachesEnd, signature, .inl ⟨signer, ?_⟩⟩
    rw [Packet.signerFrom, certificate, covered, AuthState.signedBy] at signs
    repeat' split at signs
    all_goals first | contradiction | exact signs
  | asks identity signedDataLength permMask token auth minted _ checks =>
    obtain ⟨rfl, behind, reachesEnd, signature⟩ := (named identity).layout isIdentity checks
    refine ⟨behind, reachesEnd, signature, .inr ⟨isIdentity, ?_⟩⟩
    rw [isData, answers]
    rfl

/-- A settings packet is accepted whatever follows its signature. -/
theorem nothingOutside_of_settings_iff {data : Packet} (read : data.ReadFrom bytes)
    (same : coveredLength box bytes = PacketHeader.signedDataLength bytes) (signed : data.signature.isSome = true)
    (authenticates : (validateAndAuthenticateSettings p m.certs m.auth data).1 = .success) :
    NothingOutside p m box bytes ↔
      PacketHeader.signedDataLength bytes + winCertLength (bytes.drop (PacketHeader.signedDataLength bytes)) =
        bytes.length := by
  constructor
  · rintro ⟨_, reachesEnd, _, _⟩
    rwa [same] at reachesEnd
  · intro reachesEnd
    have place : data.signature = some data.signedDataLength := by
      rcases read.signature with none | place
      · simp [none] at signed
      · exact place
    simp only [validateAndAuthenticateSettings, checkAuthAndGetToken, place] at authenticates
    generalize answers : authWithSignedData p m.certs m.auth data.signedBytes
      (data.certificateAt data.signedDataLength) data.authToken = answer at authenticates
    obtain ⟨status, token, auth⟩ := answer
    cases status with
    | error code => cases authenticates
    | success =>
      obtain ⟨signer, signs, _⟩ := authWithSignedData_success answers
      exact .of_signedData read same signs reachesEnd

/-- Of the accepted packets only one for the settings can have bytes behind its signature. -/
theorem acceptsSigned_nothingOutside_iff (accepted : AcceptsSigned p m box bytes) : NothingOutside p m box bytes ↔
      (box = .settings ∨ box = .settings2 → PacketHeader.signedDataLength bytes +
        winCertLength (bytes.drop (PacketHeader.signedDataLength bytes)) = bytes.length) := by
  obtain ⟨decodes, accepted⟩ := accepted
  have read := readFrom_initializePacket decodes
  cases box with
  | identity | identity2 => exact iff_of_true (nothingOutside_of_identity rfl read rfl accepted.2) (by simp)
  | permissions => exact iff_of_true (nothingOutside_of_permissions read rfl accepted.1 accepted.2) (by simp)
  | permissions2 => exact iff_of_true (nothingOutside_of_permissions read rfl accepted.1 accepted.2) (by simp)
  | settings | settings2 =>
    rw [nothingOutside_of_settings_iff read rfl accepted.1 accepted.2.2]
    simp

end

def settingsPacket (trailing : List Byte) : List Byte :=
  packetBytes securedSettingsApplyVarSignature 0 [1] (signedWith 9 ++ trailing)

def ztdMachine : Machine :=
  (Machine.blank .empty 0).boot keyedPlatform { state := .optIn, certificate := .ok [9] }

theorem acceptsSigned_settings : AcceptsSigned keyedPlatform ztdMachine .settings (settingsPacket []) ∧
      NothingOutside keyedPlatform ztdMachine .settings (settingsPacket []) := by
  have accepted : AcceptsSigned keyedPlatform ztdMachine .settings (settingsPacket []) :=
    ⟨by decide +kernel, by decide +kernel, by decide +kernel, by decide +kernel⟩
  exact ⟨accepted, (acceptsSigned_nothingOutside_iff accepted).mpr fun _ => by decide +kernel⟩

/-- The byte behind the signature is in no signature, and the packet is accepted. -/
theorem settings_trailing_accepted : AcceptsSigned keyedPlatform ztdMachine .settings (settingsPacket [0]) ∧
      ¬ NothingOutside keyedPlatform ztdMachine .settings (settingsPacket [0]) := by
  refine ⟨⟨by decide +kernel, by decide +kernel, by decide +kernel, by decide +kernel⟩, ?_⟩
  rintro ⟨_, reachesEnd, _, _⟩
  revert reachesEnd
  decide +kernel

end Dfci
