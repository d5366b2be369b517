import Dfci.Identity.Packet

/-! # Decoding a mailbox packet -/

namespace Dfci

open ByteFields

/-- `SIGNATURE_32` -/
def signature32 (first second third fourth : Char) : Nat :=
  first.toNat + 256 * second.toNat + 65536 * third.toNat + 16777216 * fourth.toNat

def identityApplyVarSignature : Nat := signature32 'M' 'S' 'P' 'A'
def permissionPolicyApplyVarSignature : Nat := signature32 'M' 'P' 'P' 'A'
def securedSettingsApplyVarSignature : Nat := signature32 'M' 'S' 'S' 'A'

namespace MailBox

def isIdentity : MailBox → Bool
  | .identity | .identity2 => true
  | _ => false

def hdrSignature : MailBox → Nat
  | .identity | .identity2 => identityApplyVarSignature
  | .permissions | .permissions2 => permissionPolicyApplyVarSignature
  | .settings | .settings2 => securedSettingsApplyVarSignature

end MailBox

/-! `DFCI_PACKET_HEADER`, of 22 bytes -/

namespace PacketHeader

def size : Nat := 22
def signature (packet : List Byte) : Nat := fieldAt packet 0 4
def version (packet : List Byte) : Nat := (byteAt packet 4).toNat
def sessionId (packet : List Byte) : Nat := fieldAt packet 8 4
def systemMfgOffset (packet : List Byte) : Nat := fieldAt packet 12 2
def systemProductOffset (packet : List Byte) : Nat := fieldAt packet 14 2
def systemSerialOffset (packet : List Byte) : Nat := fieldAt packet 16 2
def payloadSize (packet : List Byte) : Nat := fieldAt packet 18 2
def payloadOffset (packet : List Byte) : Nat := fieldAt packet 20 2

def offsetsValid (packet : List Byte) : Bool :=
  systemMfgOffset packet < systemProductOffset packet && systemProductOffset packet < systemSerialOffset packet &&
    systemSerialOffset packet < payloadOffset packet && size ≤ systemMfgOffset packet &&
    size ≤ systemProductOffset packet && size ≤ systemSerialOffset packet

/-- The packet with the session id zeroed, as it was signed. -/
def withoutSessionId (packet : List Byte) : List Byte :=
  packet.take 8 ++ (List.replicate 4 0 ++ packet.drop 12)

end PacketHeader

open PacketHeader

/-- `CheckTarget`. A target string that starts with a null is a wildcard. -/
def checkTarget (id : Except EfiStatus (List Byte)) (name : List Byte) (data : Packet) :
    Except PacketError Packet :=
  if byteAt name 0 = 0 then
    .ok { data with dfciWildcard := true }
  else
    match id with
    | .error _ => .error ⟨.dataNotCorrectTarget, .aborted, .refl true, .refl true⟩
    | .ok temp => if temp = name then .ok data else .error ⟨.dataNotCorrectTarget, .aborted, .refl true, .refl true⟩

/-- The checks of `DecodePacket` on the header. -/
def checkHeader (data : Packet) : Except PacketError Unit := do
  if data.packetSize = 0 then
    throw ⟨.dataInvalid, .invalidParameter, .refl true, .refl true⟩
  if maxAllowableDfciApplyVarSize < data.packetSize then
    throw ⟨.dataInvalid, .badBufferSize, .refl true, .refl true⟩
  if data.packetSize < PacketHeader.size then
    throw ⟨.dataInvalid, .compromisedData, .refl true, .refl true⟩
  if PacketHeader.signature data.bytes ≠ data.expectedSignature then
    throw ⟨.dataInvalid, .compromisedData, .refl true, .refl true⟩
  if PacketHeader.version data.bytes ≠ data.expectedVersion then
    throw ⟨.dataInvalid, .incompatibleVersion, .refl true, .refl true⟩
  if !offsetsValid data.bytes then
    throw ⟨.dataInvalid, .incompatibleVersion, .refl true, .refl true⟩

/-- The fields `DecodePacket` takes from a header that passed the checks. -/
def readHeader (data : Packet) : Packet :=
  let packet := data.bytes
  { data with
    state := .dataPresent
    signedDataLength := PacketHeader.payloadOffset packet + PacketHeader.payloadSize packet
    sessionId := PacketHeader.sessionId packet
    payloadSize := PacketHeader.payloadSize packet
    payload := if PacketHeader.payloadSize packet ≠ 0 then some (PacketHeader.payloadOffset packet) else data.payload
    packet := some (withoutSessionId packet) }

/-- Where the signature is. Only a settings packet may end without one. A `Signature` that turns out to be too long is not
kept, and nothing reads it after the error. -/
def locateSignature (data : Packet) : Except PacketError Packet :=
  if PacketHeader.signature data.bytes = securedSettingsApplyVarSignature ∧
      data.signedDataLength = data.packetSize then
    .ok { data with signature := none }
  else if data.packetSize < data.signedDataLength + 8 then
    .error ⟨.dataInvalid, .compromisedData, .refl true, .refl true⟩
  else if data.packetSize < data.signedDataLength + winCertLength (data.certificateAt data.signedDataLength) then
    .error ⟨.dataInvalid, .badBufferSize, .refl true, .refl true⟩
  else
    .ok { data with signature := some data.signedDataLength }

/-- The three calls of `CheckTarget`. -/
def checkTargets (p : Platform) (data : Packet) : Except PacketError Packet := do
  let packet := data.bytes
  let mfg := systemMfgOffset packet
  let product := systemProductOffset packet
  let serial := systemSerialOffset packet
  let data ← checkTarget p.manufacturer (sliceAt packet mfg (product - mfg)) data
  let data ← checkTarget p.productName (sliceAt packet product (serial - product)) data
  checkTarget p.serialNumber (sliceAt packet serial (PacketHeader.payloadOffset packet - serial)) data

/-- Ending a decode. After an error the record is as the header left it: a `DfciWildcard` that an earlier target has set
is dropped, as nothing reads it after a failed decode. -/
def orFail (data : Packet) : Except PacketError Packet → EfiStatus × Packet
  | .error failure => (failure.status, data.fail failure.state failure.status)
  | .ok data => (.success, data)

/-- `DecodePacket` -/
def decodePacket (p : Platform) (data : Packet) : EfiStatus × Packet :=
  match checkHeader data with
  | .error failure => (failure.status, data.fail failure.state failure.status)
  | .ok _ =>
    match locateSignature (readHeader data) with
    | .error failure => (failure.status, (readHeader data).fail failure.state failure.status)
    | .ok data => orFail data (checkTargets p data)

/-- `DecodeIdentityPacket`. A packet without a certificate is an unenroll. -/
def decodeIdentityPacket (p : Platform) (data : Packet) : EfiStatus × Packet :=
  match decodePacket p data with
  | (.error code, data) => (.error code, data)
  | (.success, data) =>
    (.success, { data with
      varIdentity := some 5
      version := some 24
      lsv := some 28
      unenroll := decide (data.payloadSize = 0) })

/-- `DFCI_MANAGER_DATA` -/
structure ManagerData where
  data : Packet
  decodeStatus : EfiStatus
  deriving DecidableEq

/-- `InitializePacket`, with the answer of `GetVariable2` for the mailbox: its error code, or what the mailbox holds. -/
def initializePacket (p : Platform) (box : MailBox) (read : Except Nat (List Byte)) : ManagerData :=
  let allocated := Packet.allocated box.hdrSignature 2
  match read with
  | .error code => ⟨{ allocated with statusCode := .error code }, .error code⟩
  | .ok bytes =>
    let data := { allocated with packet := some bytes }
    let (status, data) := if box.isIdentity then decodeIdentityPacket p data else decodePacket p data
    ⟨data, status⟩

/-! ## Packets as they are built

A version 2 packet for any system: the header, the three empty target strings behind the versions of an identity
packet, the payload, and the signatures. -/

def packetBytes (hdrSignature : Nat) (varIdentity : Byte) (payload signatures : List Byte) : List Byte :=
  littleEndian 4 hdrSignature ++ ([2, varIdentity, 0, 0] ++ (List.replicate 4 0 ++ (littleEndian 2 32 ++
    (littleEndian 2 33 ++ (littleEndian 2 34 ++ (littleEndian 2 payload.length ++ (littleEndian 2 35 ++
      (List.replicate 13 0 ++ (payload ++ signatures)))))))))

/-- A `WIN_CERTIFICATE_UEFI_GUID` around PKCS#7 data. -/
def pkcs7Certificate (content : List Byte) : List Byte :=
  littleEndian 4 (24 + content.length) ++ (littleEndian 2 0x200 ++ (littleEndian 2 winCertTypeEfiGuid ++
    (efiCertPkcs7Guid ++ content)))

/-- A platform on which a certificate is the name of its key, and a signature starts with the name of the key it was
made with. -/
def keyedPlatform : Platform where
  pkcs7Verify := fun content cert _ => content.take 1 = cert

def signedWith (key : Byte) : List Byte := pkcs7Certificate (key :: List.replicate 7 0)

def enrollPacket (varIdentity key signer : Byte) : List Byte :=
  packetBytes identityApplyVarSignature varIdentity [key] (signedWith key ++ signedWith signer)

def unenrollPacket (varIdentity signer : Byte) : List Byte :=
  packetBytes identityApplyVarSignature varIdentity [] (signedWith signer)

end Dfci
