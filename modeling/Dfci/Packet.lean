import Dfci.Platform

/-! # The internal form of a mailbox packet -/

namespace Dfci

/-- `DFCI_PACKET_STATE` -/
inductive PacketState where
  | uninitialized
  | dataPresent
  | dataAuthenticated
  | dataUserApproved
  | dataApplied
  | dataComplete
  | versionError
  | aborted
  | accessDenied
  | badXml
  | dataNoOwner
  | dataNotCorrectTarget
  | dataDelayedProcessing
  | dataUserRejected
  | dataInvalid
  | dataAuthFailed
  | dataSystemError
  deriving DecidableEq, Repr

def PacketState.isSettled : PacketState → Bool
  | .uninitialized | .dataPresent | .dataDelayedProcessing => false
  | _ => true

/-- `DFCI_AUTH_TOKEN`; zero is `DFCI_AUTH_TOKEN_INVALID`. -/
abbrev AuthToken := Nat

def authTokenInvalid : AuthToken := 0

/-- `DFCI_INTERNAL_PACKET`. Pointers into the packet are offsets, `none` for `NULL`; the targeting
strings, which only the decoder uses, are not kept. -/
structure Packet where
  /-- `Packet`, of `PacketSize` bytes; `none` when the mailbox was empty. -/
  packet : Option (List Byte)
  expectedSignature : Nat
  expectedVersion : Nat
  signature : Option Nat
  signedDataLength : Nat
  state : PacketState
  sessionId : Nat
  dfciWildcard : Bool
  varIdentity : Option Nat
  version : Option Nat
  lsv : Option Nat
  v1Mode : Bool
  statusCode : EfiStatus
  resetRequired : Bool
  lkgDirty : Bool
  unenroll : Bool
  payloadSize : Nat
  payload : Option Nat
  authToken : AuthToken
  /-- `DfciIdentity`; `none` for `DFCI_IDENTITY_INVALID`. -/
  dfciIdentity : Option Identity
  userConfirmationRequired : Bool
  resultXmlSize : Nat
  deriving DecidableEq

namespace Packet

/-- What `AllocateZeroPool` and the assignments of `InitializePacket` leave. -/
def allocated (expectedSignature expectedVersion : Nat) : Packet where
  packet := none
  expectedSignature := expectedSignature
  expectedVersion := expectedVersion
  signature := none
  signedDataLength := 0
  state := .uninitialized
  sessionId := 0
  dfciWildcard := false
  varIdentity := none
  version := none
  lsv := none
  v1Mode := false
  statusCode := .success
  resetRequired := false
  lkgDirty := false
  unenroll := false
  payloadSize := 0
  payload := none
  authToken := authTokenInvalid
  dfciIdentity := none
  userConfirmationRequired := false
  resultXmlSize := 0

def bytes (data : Packet) : List Byte :=
  data.packet.getD []

def packetSize (data : Packet) : Nat :=
  data.bytes.length

/-- The `PayloadSize` bytes at `Payload`. -/
def payloadBytes (data : Packet) : List Byte :=
  match data.payload with
  | none => []
  | some offset => (data.bytes.drop offset).take data.payloadSize

/-- Ending a step with an error: the state, and the status in `StatusCode`. -/
def fail (data : Packet) (state : PacketState) (status : EfiStatus) : Packet :=
  { data with state := state, statusCode := status }

end Packet

structure Packet.SameRequest (first second : Packet) : Prop where
  packet : first.packet = second.packet
  payload : first.payload = second.payload
  payloadSize : first.payloadSize = second.payloadSize
  unenroll : first.unenroll = second.unenroll
  lkgDirty : first.lkgDirty = second.lkgDirty

theorem Packet.SameRequest.refl (data : Packet) : data.SameRequest data := ⟨rfl, rfl, rfl, rfl, rfl⟩

theorem Packet.SameRequest.trans {first second third : Packet} (left : first.SameRequest second)
    (right : second.SameRequest third) : first.SameRequest third :=
  ⟨left.packet.trans right.packet, left.payload.trans right.payload, left.payloadSize.trans right.payloadSize,
    left.unenroll.trans right.unenroll, left.lkgDirty.trans right.lkgDirty⟩

theorem Packet.SameRequest.payloadBytes {first second : Packet} (same : first.SameRequest second) :
    first.payloadBytes = second.payloadBytes := by
  simp [Packet.payloadBytes, Packet.bytes, same.packet, same.payload, same.payloadSize]

/-- Why a packet was not applied: the state it is left in and the status that is returned. -/
structure PacketError where
  state : PacketState
  status : EfiStatus
  isError : status.isError = true
  isSettled : state.isSettled = true
  deriving DecidableEq, Repr

theorem PacketError.status_ne_success (failure : PacketError) : failure.status ≠ .success := by
  intro succeeds
  have isError := failure.isError
  rw [succeeds] at isError
  cases isError

/-- `MAX_ALLOWABLE_DFCI_APPLY_VAR_SIZE` and `MAX_ALLOWABLE_DFCI_RESULT_VAR_SIZE` -/
def maxAllowableDfciApplyVarSize : Nat := 1024 * 24
def maxAllowableDfciResultVarSize : Nat := 1024 * 8

end Dfci
