import Dfci.Manager.SignedLayout

/-! # What a decoded packet looks like, and what decoding it reads

All offsets and sizes of a packet are chosen by its author. The decoder is given here a second time with every
access to the packet checked, so that an access outside of it has an outcome of its own; that outcome never
comes up. A packet that is decoded is laid out as its header says. -/

namespace Dfci

open ByteFields PacketHeader

/-! ## The decoder with its accesses checked

`none` stands for an access outside the packet. -/

/-- `checkHeader`, with checked accesses. -/
def checkHeaderAccess (data : Packet) : Option (Except PacketError Unit) :=
  if data.packetSize = 0 then
    some (.error ⟨.dataInvalid, .invalidParameter, .refl true, .refl true⟩)
  else if maxAllowableDfciApplyVarSize < data.packetSize then
    some (.error ⟨.dataInvalid, .badBufferSize, .refl true, .refl true⟩)
  else if data.packetSize < PacketHeader.size then
    some (.error ⟨.dataInvalid, .compromisedData, .refl true, .refl true⟩)
  else do
    let signature ← loadField data.bytes 0 4
    if signature ≠ data.expectedSignature then
      some (.error ⟨.dataInvalid, .compromisedData, .refl true, .refl true⟩)
    else
      let version ← loadField data.bytes 4 1
      if version ≠ data.expectedVersion then
        some (.error ⟨.dataInvalid, .incompatibleVersion, .refl true, .refl true⟩)
      else
        let mfg ← loadField data.bytes 12 2
        let product ← loadField data.bytes 14 2
        let serial ← loadField data.bytes 16 2
        let payload ← loadField data.bytes 20 2
        if product ≤ mfg ∨ serial ≤ product ∨ payload ≤ serial ∨ mfg < PacketHeader.size ∨
            product < PacketHeader.size ∨ serial < PacketHeader.size then
          some (.error ⟨.dataInvalid, .incompatibleVersion, .refl true, .refl true⟩)
        else
          some (.ok ())

/-- `readHeader`, with checked accesses. -/
def readHeaderAccess (data : Packet) : Option Packet := do
  let payloadOffset ← loadField data.bytes 20 2
  let payloadSize ← loadField data.bytes 18 2
  let sessionId ← loadField data.bytes 8 4
  let packet ← store data.bytes 8 (List.replicate 4 0)
  some { data with
    state := .dataPresent
    signedDataLength := payloadOffset + payloadSize
    sessionId := sessionId
    payloadSize := payloadSize
    payload := if payloadSize ≠ 0 then some payloadOffset else data.payload
    packet := some packet }

/-- `locateSignature`, with checked accesses. -/
def locateSignatureAccess (data : Packet) : Option (Except PacketError Packet) := do
  let signature ← loadField data.bytes 0 4
  if signature = securedSettingsApplyVarSignature ∧ data.signedDataLength = data.packetSize then
    some (.ok { data with signature := none })
  else if data.packetSize < data.signedDataLength + 8 then
    some (.error ⟨.dataInvalid, .compromisedData, .refl true, .refl true⟩)
  else
    let dwLength ← loadField data.bytes data.signedDataLength 4
    if data.packetSize < data.signedDataLength + dwLength then
      some (.error ⟨.dataInvalid, .badBufferSize, .refl true, .refl true⟩)
    else
      some (.ok { data with signature := some data.signedDataLength })

/-- `CheckTarget`, with checked accesses. The field is compared only when it has the size of the device's string. -/
def checkTargetAccess (id : Except EfiStatus (List Byte)) (offset size : Nat) (data : Packet) :
    Option (Except PacketError Packet) := do
  let first ← loadField data.bytes offset 1
  if first = 0 then
    some (.ok { data with dfciWildcard := true })
  else
    match id with
    | .error _ => some (.error ⟨.dataNotCorrectTarget, .aborted, .refl true, .refl true⟩)
    | .ok temp =>
      if temp.length ≠ size then
        some (.error ⟨.dataNotCorrectTarget, .aborted, .refl true, .refl true⟩)
      else
        let name ← load data.bytes offset temp.length
        if temp = name then some (.ok data)
        else some (.error ⟨.dataNotCorrectTarget, .aborted, .refl true, .refl true⟩)

/-- The three calls of `CheckTarget`; the first one that fails ends them. -/
def checkTargetsAccess (p : Platform) (data : Packet) : Option (Except PacketError Packet) := do
  let mfg ← loadField data.bytes 12 2
  let product ← loadField data.bytes 14 2
  let serial ← loadField data.bytes 16 2
  let payload ← loadField data.bytes 20 2
  match ← checkTargetAccess p.manufacturer mfg (product - mfg) data with
  | .error failure => some (.error failure)
  | .ok data =>
    match ← checkTargetAccess p.productName product (serial - product) data with
    | .error failure => some (.error failure)
    | .ok data => checkTargetAccess p.serialNumber serial (payload - serial) data

/-- `DecodePacket`, with checked accesses. -/
def decodePacketAccess (p : Platform) (data : Packet) : Option (EfiStatus × Packet) := do
  match ← checkHeaderAccess data with
  | .error failure => some (failure.status, data.fail failure.state failure.status)
  | .ok _ =>
    let header ← readHeaderAccess data
    match ← locateSignatureAccess header with
    | .error failure => some (failure.status, header.fail failure.state failure.status)
    | .ok located =>
      let checked ← checkTargetsAccess p located
      some (orFail located checked)

/-! ## No access is outside -/

/-- The order of the offsets, as `DecodePacket` requires it. -/
structure PacketHeader.Ordered (packet : List Byte) : Prop where
  header : PacketHeader.size ≤ systemMfgOffset packet
  mfg : systemMfgOffset packet < systemProductOffset packet
  product : systemProductOffset packet < systemSerialOffset packet
  serial : systemSerialOffset packet < PacketHeader.payloadOffset packet

theorem PacketHeader.ordered_iff {packet : List Byte} : offsetsValid packet = true ↔ PacketHeader.Ordered packet := by
  simp only [offsetsValid, Bool.and_eq_true, decide_eq_true_eq]
  constructor
  · intro valid
    exact ⟨valid.1.1.2, valid.1.1.1.1.1, valid.1.1.1.1.2, valid.1.1.1.2⟩
  · intro ordered
    obtain ⟨header, mfg, product, serial⟩ := ordered
    omega

/-! ### The packet without its session id -/

namespace PacketHeader

section

variable {packet : List Byte} (whole : 12 ≤ packet.length)
include whole

/-- Zeroing the session id changes no other byte. -/
theorem getElem?_withoutSessionId {i : Nat} (other : i < 8 ∨ 12 ≤ i) :
    (withoutSessionId packet)[i]? = packet[i]? := by
  have front : (packet.take 8).length = 8 := by
    rw [List.length_take]
    omega
  rw [withoutSessionId]
  obtain before | behind := other
  · rw [List.getElem?_append_left (by omega), List.getElem?_take_of_lt before]
  · rw [List.getElem?_append_right (by omega), front, List.getElem?_append_right (by simp; omega),
      List.length_replicate, List.getElem?_drop]
    congr 1
    omega

theorem byteAt_withoutSessionId {i : Nat} (other : i < 8 ∨ 12 ≤ i) :
    byteAt (withoutSessionId packet) i = byteAt packet i := by
  rw [byteAt, byteAt, List.getD_eq_getElem?_getD, List.getD_eq_getElem?_getD, getElem?_withoutSessionId whole other]

theorem fieldAt_withoutSessionId {offset width : Nat} (other : offset + width ≤ 8 ∨ 12 ≤ offset) :
    fieldAt (withoutSessionId packet) offset width = fieldAt packet offset width := by
  induction width generalizing offset with
  | zero => rfl
  | succ width ih =>
    rw [fieldAt, fieldAt, byteAt_withoutSessionId whole (by omega), ih (by omega)]

theorem sliceAt_withoutSessionId {offset size : Nat} (behind : 12 ≤ offset) :
    sliceAt (withoutSessionId packet) offset size = sliceAt packet offset size := by
  rw [sliceAt, sliceAt, drop_withoutSessionId whole behind]

theorem ordered_withoutSessionId (ordered : Ordered packet) : Ordered (withoutSessionId packet) := by
  have same : ∀ offset, 12 ≤ offset → fieldAt (withoutSessionId packet) offset 2 = fieldAt packet offset 2 :=
    fun offset behind => fieldAt_withoutSessionId whole (.inr behind)
  obtain ⟨header, mfg, product, serial⟩ := ordered
  refine ⟨?_, ?_, ?_, ?_⟩
  · rw [systemMfgOffset, same 12 (by omega)]
    exact header
  · rw [systemMfgOffset, systemProductOffset, same 12 (by omega), same 14 (by omega)]
    exact mfg
  · rw [systemProductOffset, systemSerialOffset, same 14 (by omega), same 16 (by omega)]
    exact product
  · rw [systemSerialOffset, PacketHeader.payloadOffset, same 16 (by omega), same 20 (by omega)]
    exact serial

end

end PacketHeader

/-! ### Step by step -/

section

variable {data : Packet}

theorem checkHeaderAccess_eq (data : Packet) : checkHeaderAccess data = some (checkHeader data) := by
  simp only [checkHeaderAccess, checkHeader, bind, Except.bind, throw, throwThe, MonadExceptOf.throw, pure, Except.pure]
  by_cases empty : data.packetSize = 0
  · simp only [empty, if_true]
  by_cases large : maxAllowableDfciApplyVarSize < data.packetSize
  · simp only [empty, large, if_true, if_false]
  by_cases small : data.packetSize < PacketHeader.size
  · simp only [empty, large, small, if_true, if_false]
  -- all of the header is there
  have whole : 22 ≤ data.bytes.length := Nat.le_of_not_lt small
  have signature : loadField data.bytes 0 4 = some (PacketHeader.signature data.bytes) := loadField_inside (by omega)
  have version : loadField data.bytes 4 1 = some (PacketHeader.version data.bytes) := loadField_inside (by omega)
  have mfg : loadField data.bytes 12 2 = some (systemMfgOffset data.bytes) := loadField_inside (by omega)
  have product : loadField data.bytes 14 2 = some (systemProductOffset data.bytes) := loadField_inside (by omega)
  have serial : loadField data.bytes 16 2 = some (systemSerialOffset data.bytes) := loadField_inside (by omega)
  have payload : loadField data.bytes 20 2 = some (PacketHeader.payloadOffset data.bytes) := loadField_inside (by omega)
  simp only [empty, large, small, if_false, signature, version, mfg, product, serial, payload, Option.bind_some]
  by_cases unexpected : PacketHeader.signature data.bytes ≠ data.expectedSignature
  · rw [if_pos unexpected, if_pos unexpected]
  by_cases incompatible : PacketHeader.version data.bytes ≠ data.expectedVersion
  · rw [if_neg unexpected, if_neg unexpected, if_pos incompatible, if_pos incompatible]
  rw [if_neg unexpected, if_neg unexpected, if_neg incompatible, if_neg incompatible]
  cases ordered : offsetsValid data.bytes with
  | true =>
    obtain ⟨behind, first, second, third⟩ := ordered_iff.mp ordered
    rw [if_neg (by omega)]
    rfl
  | false =>
    rw [if_pos]
    · rfl
    · by_contra fits
      have valid : offsetsValid data.bytes = true := ordered_iff.mpr ⟨by omega, by omega, by omega, by omega⟩
      rw [ordered] at valid
      cases valid

theorem readHeaderAccess_eq (whole : 22 ≤ data.bytes.length) : readHeaderAccess data = some (readHeader data) := by
  have payload : loadField data.bytes 20 2 = some (PacketHeader.payloadOffset data.bytes) := loadField_inside (by omega)
  have size : loadField data.bytes 18 2 = some (PacketHeader.payloadSize data.bytes) := loadField_inside (by omega)
  have session : loadField data.bytes 8 4 = some (PacketHeader.sessionId data.bytes) := loadField_inside (by omega)
  have written : store data.bytes 8 (List.replicate 4 0) = some (withoutSessionId data.bytes) :=
    store_inside (by rw [List.length_replicate]; omega)
  simp only [readHeaderAccess, payload, size, session, written, bind, Option.bind_some]
  rfl

theorem fieldAt_drop (bytes : List Byte) (count width : Nat) :
    fieldAt (bytes.drop count) 0 width = fieldAt bytes count width := by
  suffices shifted : ∀ offset, fieldAt (bytes.drop count) offset width = fieldAt bytes (count + offset) width from
    shifted 0
  induction width with
  | zero => exact fun _ => rfl
  | succ width ih =>
    intro offset
    have byte : byteAt (bytes.drop count) offset = byteAt bytes (count + offset) := by
      simp [byteAt, List.getD_eq_getElem?_getD]
    rw [fieldAt, fieldAt, byte, ih, Nat.add_assoc]

theorem locateSignatureAccess_eq (whole : 22 ≤ data.bytes.length) :
    locateSignatureAccess data = some (locateSignature data) := by
  have signature : loadField data.bytes 0 4 = some (PacketHeader.signature data.bytes) := loadField_inside (by omega)
  simp only [locateSignatureAccess, locateSignature, signature, bind, Option.bind_some]
  by_cases unsigned : PacketHeader.signature data.bytes = securedSettingsApplyVarSignature ∧
      data.signedDataLength = data.packetSize
  · rw [if_pos unsigned, if_pos unsigned]
  by_cases short : data.packetSize < data.signedDataLength + 8
  · rw [if_neg unsigned, if_neg unsigned, if_pos short, if_pos short]
  -- the fixed part of the signature is there, so its length can be read
  have length : loadField data.bytes data.signedDataLength 4 =
      some (winCertLength (data.certificateAt data.signedDataLength)) := by
    rw [winCertLength, Packet.certificateAt, fieldAt_drop]
    rw [Packet.packetSize] at short
    exact loadField_inside (by omega)
  rw [if_neg unsigned, if_neg unsigned, if_neg short, if_neg short, length, Option.bind_some]
  split <;> rfl

theorem checkTargetAccess_eq (id : Except EfiStatus (List Byte)) {offset size : Nat} (some : 0 < size)
    (inside : offset + size ≤ data.bytes.length) :
    checkTargetAccess id offset size data = .some (checkTarget id (sliceAt data.bytes offset size) data) := by
  have first : loadField data.bytes offset 1 = .some (byteAt data.bytes offset).toNat := loadField_inside (by omega)
  have nameSize := length_sliceAt inside
  simp only [checkTargetAccess, checkTarget, first, bind, Option.bind_some, byteAt_sliceAt some]
  by_cases wildcard : byteAt data.bytes offset = 0
  · rw [if_pos wildcard, if_pos (by simp [wildcard])]
  have named : ¬ (byteAt data.bytes offset).toNat = 0 := by
    intro zero
    exact wildcard (BitVec.eq_of_toNat_eq (by simpa using zero))
  rw [if_neg wildcard, if_neg named]
  cases id with
  | error status => rfl
  | ok temp =>
    simp only
    by_cases sized : temp.length = size
    · rw [if_neg (not_not.mpr sized), sized, load_inside inside, Option.bind_some]
      split <;> rfl
    · -- a string of another size is another string
      rw [if_pos sized, if_neg]
      intro same
      rw [same, nameSize] at sized
      exact sized rfl

theorem checkTargetsAccess_eq (p : Platform) (whole : 22 ≤ data.bytes.length)
    (ordered : PacketHeader.Ordered data.bytes) (inside : PacketHeader.payloadOffset data.bytes ≤ data.bytes.length) :
    checkTargetsAccess p data = some (checkTargets p data) := by
  obtain ⟨_, mfgBefore, productBefore, serialBefore⟩ := ordered
  have mfg : loadField data.bytes 12 2 = some (systemMfgOffset data.bytes) := loadField_inside (by omega)
  have product : loadField data.bytes 14 2 = some (systemProductOffset data.bytes) := loadField_inside (by omega)
  have serial : loadField data.bytes 16 2 = some (systemSerialOffset data.bytes) := loadField_inside (by omega)
  have payload : loadField data.bytes 20 2 = some (PacketHeader.payloadOffset data.bytes) := loadField_inside (by omega)
  simp only [checkTargetsAccess, checkTargets, mfg, product, serial, payload, bind, Option.bind_some, Except.bind]
  rw [checkTargetAccess_eq p.manufacturer (by omega) (by omega), Option.bind_some]
  cases first : checkTarget p.manufacturer (sliceAt data.bytes (systemMfgOffset data.bytes)
      (systemProductOffset data.bytes - systemMfgOffset data.bytes)) data with
  | error failure => rfl
  | ok afterFirst =>
    obtain ⟨wildcard, rfl⟩ := checkTarget_ok first
    have second : checkTargetAccess p.productName (systemProductOffset data.bytes)
        (systemSerialOffset data.bytes - systemProductOffset data.bytes) { data with dfciWildcard := wildcard } =
          some (checkTarget p.productName (sliceAt data.bytes (systemProductOffset data.bytes)
            (systemSerialOffset data.bytes - systemProductOffset data.bytes)) { data with dfciWildcard := wildcard }) :=
      checkTargetAccess_eq p.productName (by omega) (by change _ ≤ data.bytes.length; omega)
    simp only [second, Option.bind_some]
    cases checks : checkTarget p.productName (sliceAt data.bytes (systemProductOffset data.bytes)
        (systemSerialOffset data.bytes - systemProductOffset data.bytes)) { data with dfciWildcard := wildcard } with
    | error failure => rfl
    | ok afterSecond =>
      obtain ⟨stillWildcard, rfl⟩ := checkTarget_ok checks
      exact checkTargetAccess_eq p.serialNumber (by omega) (by change _ ≤ data.bytes.length; omega)

/-- The stages of a decoding: the header fails its checks, the signature is not inside, or the targets decide. -/
theorem decodePacket_stages (p : Platform) (data : Packet) : (∃ failure, checkHeader data = .error failure ∧
      decodePacket p data = (failure.status, data.fail failure.state failure.status)) ∨
    (∃ failure, checkHeader data = .ok () ∧ locateSignature (readHeader data) = .error failure ∧
      decodePacket p data = (failure.status, (readHeader data).fail failure.state failure.status)) ∨
    ∃ located, checkHeader data = .ok () ∧ locateSignature (readHeader data) = .ok located ∧
      decodePacket p data = orFail located (checkTargets p located) := by
  rw [decodePacket]
  cases header : checkHeader data with
  | error failure => exact .inl ⟨failure, rfl, rfl⟩
  | ok done =>
    cases locates : locateSignature (readHeader data) with
    | error failure => exact .inr (.inl ⟨failure, rfl, rfl, rfl⟩)
    | ok located => exact .inr (.inr ⟨located, rfl, rfl, rfl⟩)

theorem checkHeader_ordered (checks : checkHeader data = .ok ()) :
    22 ≤ data.bytes.length ∧ PacketHeader.Ordered data.bytes := by
  rw [← ordered_iff]
  exact checkHeader_offsetsValid checks

inductive SignaturePlace (data : Packet) : Option Nat → Prop
  | unsigned (settings : PacketHeader.signature data.bytes = securedSettingsApplyVarSignature)
      (atEnd : data.signedDataLength = data.packetSize) : SignaturePlace data none
  | signed (header : data.signedDataLength + 8 ≤ data.packetSize)
      (inside : data.signedDataLength + winCertLength (data.certificateAt data.signedDataLength) ≤ data.packetSize) :
      SignaturePlace data (some data.signedDataLength)

theorem signaturePlace_of_locates {located : Packet} (locates : locateSignature data = .ok located) :
    ∃ signature, located = { data with signature := signature } ∧ SignaturePlace data signature := by
  rw [locateSignature] at locates
  split at locates
  · rename_i unsigned
    cases locates
    exact ⟨none, rfl, .unsigned unsigned.1 unsigned.2⟩
  · split at locates
    · cases locates
    · rename_i header
      split at locates
      · cases locates
      · rename_i inside
        cases locates
        exact ⟨some data.signedDataLength, rfl, .signed (Nat.le_of_not_lt header) (Nat.le_of_not_lt inside)⟩

theorem SignaturePlace.signedData_le {signature : Option Nat} (place : SignaturePlace data signature) :
    data.signedDataLength ≤ data.packetSize := by
  cases place with
  | unsigned settings atEnd | signed header inside => omega

/-- On every input, `DecodePacket` reads and writes inside the packet only. -/
theorem decodePacketAccess_eq (p : Platform) (data : Packet) :
    decodePacketAccess p data = some (decodePacket p data) := by
  simp only [decodePacketAccess, checkHeaderAccess_eq, bind, Option.bind_some]
  rw [decodePacket]
  cases header : checkHeader data with
  | error failure => rfl
  | ok done =>
    obtain ⟨whole, ordered⟩ := checkHeader_ordered header
    have sameSize : (readHeader data).bytes.length = data.bytes.length := length_withoutSessionId (by omega)
    have locating : locateSignatureAccess (readHeader data) = some (locateSignature (readHeader data)) :=
      locateSignatureAccess_eq (by omega)
    simp only [readHeaderAccess_eq whole, Option.bind_some, locating]
    cases locates : locateSignature (readHeader data) with
    | error failure => rfl
    | ok located =>
      obtain ⟨signature, rfl, place⟩ := signaturePlace_of_locates locates
      have inside : PacketHeader.payloadOffset (withoutSessionId data.bytes) ≤ (withoutSessionId data.bytes).length := by
        have signedInside := place.signedData_le
        rw [PacketHeader.payloadOffset, fieldAt_withoutSessionId (by omega) (.inr (by omega))]
        exact Nat.le_trans (Nat.le_add_right _ _) signedInside
      have targets : checkTargetsAccess p { readHeader data with signature := signature } =
          some (checkTargets p { readHeader data with signature := signature }) :=
        checkTargetsAccess_eq p (sameSize ▸ whole) (ordered_withoutSessionId (by omega) ordered) inside
      simp only [targets, Option.bind_some]

end

/-! ## A decoded packet is well formed -/

def DeviceStrings (p : Platform) : Prop :=
  ∀ id ∈ [p.manufacturer, p.productName, p.serialNumber], ∀ temp, id = .ok temp →
    ∃ string : AsciiString, temp = string.toMemory

/-- A target field is a wildcard, or the device's own string, which fills it. -/
def TargetsDevice (id : Except EfiStatus (List Byte)) (field : List Byte) : Prop :=
  byteAt field 0 = 0 ∨ ∃ string : AsciiString, id = .ok string.toMemory ∧ field = string.toMemory

/-- What `DecodePacket` accepts: the parts lie in the packet in the order of the header, the packet is for this
device, and its signature is inside. -/
structure AcceptedLayout (p : Platform) (packet : List Byte) (decoded : Packet) : Prop where
  offsets : PacketHeader.Ordered packet
  targets : PacketHeader.payloadOffset packet ≤ packet.length
  payload : PacketHeader.payloadOffset packet + PacketHeader.payloadSize packet ≤ packet.length
  manufacturer : TargetsDevice p.manufacturer (sliceAt packet (systemMfgOffset packet)
    (systemProductOffset packet - systemMfgOffset packet))
  productName : TargetsDevice p.productName (sliceAt packet (systemProductOffset packet)
    (systemSerialOffset packet - systemProductOffset packet))
  serialNumber : TargetsDevice p.serialNumber (sliceAt packet (systemSerialOffset packet)
    (PacketHeader.payloadOffset packet - systemSerialOffset packet))
  signature : (decoded.signature = none ∧ PacketHeader.signature packet = securedSettingsApplyVarSignature ∧
      PacketHeader.signedDataLength packet = packet.length) ∨
    (decoded.signature = some (PacketHeader.signedDataLength packet) ∧
      PacketHeader.signedDataLength packet + 8 ≤ packet.length ∧
      PacketHeader.signedDataLength packet + winCertLength (packet.drop (PacketHeader.signedDataLength packet)) ≤
        packet.length)

structure OnlySessionChanged (packet decoded : List Byte) : Prop where
  size : decoded.length = packet.length
  others : ∀ i, i < 8 ∨ 12 ≤ i → decoded[i]? = packet[i]?

theorem onlySessionChanged_withoutSessionId {packet : List Byte} (whole : 12 ≤ packet.length) :
    OnlySessionChanged packet (withoutSessionId packet) :=
  ⟨length_withoutSessionId whole, fun _ other => getElem?_withoutSessionId whole other⟩

section

variable {p : Platform} {data : Packet}

theorem decodePacket_changes (p : Platform) (data : Packet) :
    OnlySessionChanged data.bytes (decodePacket p data).2.bytes := by
  have unchanged : OnlySessionChanged data.bytes data.bytes := ⟨rfl, fun _ _ => rfl⟩
  obtain ⟨failure, _, decodes⟩ | ⟨failure, header, _, decodes⟩ | ⟨located, header, locates, decodes⟩ :=
    decodePacket_stages p data
  · rw [decodes]
    exact unchanged
  · have whole := (checkHeader_ordered header).1
    rw [decodes]
    exact onlySessionChanged_withoutSessionId (by omega)
  · have whole := (checkHeader_ordered header).1
    obtain ⟨signature, rfl, _⟩ := signaturePlace_of_locates locates
    rw [decodes]
    cases targets : checkTargets p { readHeader data with signature := signature } with
    | error failure => exact onlySessionChanged_withoutSessionId (by omega)
    | ok checked =>
      obtain ⟨wildcard, rfl⟩ := checkTargets_ok targets
      exact onlySessionChanged_withoutSessionId (by omega)

theorem targetsDevice_of_checks {id : Except EfiStatus (List Byte)} {field : List Byte} {checked : Packet}
    (terminated : ∀ temp, id = .ok temp → ∃ string : AsciiString, temp = string.toMemory)
    (checks : checkTarget id field data = .ok checked) : TargetsDevice id field := by
  simp only [checkTarget] at checks
  split at checks
  · rename_i wildcard
    exact .inl wildcard
  · split at checks
    · cases checks
    · rename_i temp
      split at checks
      · rename_i same
        obtain ⟨string, isString⟩ := terminated temp rfl
        exact .inr ⟨string, by rw [isString], by rw [← same, isString]⟩
      · cases checks

theorem targetsDevice_of_checkTargets (strings : DeviceStrings p) {checked : Packet}
    (checks : checkTargets p data = .ok checked) :
    TargetsDevice p.manufacturer (sliceAt data.bytes (systemMfgOffset data.bytes)
        (systemProductOffset data.bytes - systemMfgOffset data.bytes)) ∧
      TargetsDevice p.productName (sliceAt data.bytes (systemProductOffset data.bytes)
        (systemSerialOffset data.bytes - systemProductOffset data.bytes)) ∧
      TargetsDevice p.serialNumber (sliceAt data.bytes (systemSerialOffset data.bytes)
        (PacketHeader.payloadOffset data.bytes - systemSerialOffset data.bytes)) := by
  simp only [checkTargets, Fallible.bind_eq_ok] at checks
  obtain ⟨first, manufacturer, second, productName, serialNumber⟩ := checks
  exact ⟨targetsDevice_of_checks (strings _ (by simp)) manufacturer,
    targetsDevice_of_checks (strings _ (by simp)) productName,
    targetsDevice_of_checks (strings _ (by simp)) serialNumber⟩

/-- Whatever the bytes are, decoding stays inside the packet and changes its session id only; and what it accepts
is well formed and for this device. -/
theorem decodePacket_layout (strings : DeviceStrings p) (data : Packet) :
    decodePacketAccess p data = some (decodePacket p data) ∧
      OnlySessionChanged data.bytes (decodePacket p data).2.bytes ∧ ((decodePacket p data).1 = .success →
        AcceptedLayout p data.bytes (decodePacket p data).2) := by
  refine ⟨decodePacketAccess_eq p data, decodePacket_changes p data, ?_⟩
  intro succeeds
  obtain ⟨failure, _, decodes⟩ | ⟨failure, _, _, decodes⟩ | ⟨located, header, locates, decodes⟩ :=
    decodePacket_stages p data
  · rw [decodes] at succeeds
    exact absurd succeeds failure.status_ne_success
  · rw [decodes] at succeeds
    exact absurd succeeds failure.status_ne_success
  obtain ⟨whole, ordered⟩ := checkHeader_ordered header
  obtain ⟨signature, rfl, place⟩ := signaturePlace_of_locates locates
  have signedInside := place.signedData_le
  have size : (readHeader data).packetSize = data.bytes.length := length_withoutSessionId (by omega)
  have signedData : (readHeader data).signedDataLength = PacketHeader.signedDataLength data.bytes := rfl
  rw [decodes] at succeeds ⊢
  rw [signedData, size] at signedInside
  cases targets : checkTargets p { readHeader data with signature := signature } with
  | error failure =>
    rw [targets] at succeeds
    exact absurd succeeds failure.status_ne_success
  | ok checked =>
    obtain ⟨wildcard, rfl⟩ := checkTargets_ok targets
    -- the fields and strings are those of the packet as it came
    obtain ⟨manufacturer, productName, serialNumber⟩ := targetsDevice_of_checkTargets strings targets
    have isBytes : Packet.bytes { readHeader data with signature := signature } = withoutSessionId data.bytes := rfl
    have mfg : systemMfgOffset (withoutSessionId data.bytes) = systemMfgOffset data.bytes :=
      fieldAt_withoutSessionId (by omega) (.inr (by omega))
    have product : systemProductOffset (withoutSessionId data.bytes) = systemProductOffset data.bytes :=
      fieldAt_withoutSessionId (by omega) (.inr (by omega))
    have serial : systemSerialOffset (withoutSessionId data.bytes) = systemSerialOffset data.bytes :=
      fieldAt_withoutSessionId (by omega) (.inr (by omega))
    have payload : PacketHeader.payloadOffset (withoutSessionId data.bytes) = PacketHeader.payloadOffset data.bytes :=
      fieldAt_withoutSessionId (by omega) (.inr (by omega))
    obtain ⟨behind, mfgBefore, productBefore, serialBefore⟩ := ordered
    rw [PacketHeader.size] at behind
    rw [isBytes, mfg, product, sliceAt_withoutSessionId (by omega) (by omega)] at manufacturer
    rw [isBytes, product, serial, sliceAt_withoutSessionId (by omega) (by omega)] at productName
    rw [isBytes, serial, payload, sliceAt_withoutSessionId (by omega) (by omega)] at serialNumber
    refine ⟨⟨behind, mfgBefore, productBefore, serialBefore⟩, Nat.le_trans (Nat.le_add_right _ _) signedInside,
      signedInside, manufacturer, productName, serialNumber, ?_⟩
    cases place with
    | unsigned settings atEnd =>
      refine .inl ⟨rfl, ?_, by rw [← size, ← atEnd]; rfl⟩
      rw [← settings]
      exact (fieldAt_withoutSessionId (by omega) (.inl (by omega))).symm
    | signed header inside =>
      have certificate : (readHeader data).certificateAt (readHeader data).signedDataLength =
          data.bytes.drop (PacketHeader.signedDataLength data.bytes) := by
        rw [signedData, PacketHeader.signedDataLength]
        exact drop_withoutSessionId (by omega) (by omega)
      rw [certificate, size, signedData] at inside
      rw [size, signedData] at header
      exact .inr ⟨rfl, header, inside⟩

end

/-- A mailbox as `InitializePacket` hands it to the decoder. -/
def Packet.received (hdrSignature : Nat) (bytes : List Byte) : Packet :=
  { Packet.allocated hdrSignature 2 with packet := some bytes }

def contoso : AsciiString := .ofString "Contoso"

def targetedPacket : List Byte :=
  littleEndian 4 securedSettingsApplyVarSignature ++ ([2, 0, 0, 0] ++ (littleEndian 4 7 ++ (littleEndian 2 24 ++
    (littleEndian 2 32 ++ (littleEndian 2 33 ++ (littleEndian 2 3 ++ (littleEndian 2 34 ++ ([0, 0] ++
      (contoso.toMemory ++ [0, 0, 0x3C, 0x3E, 0x0A])))))))))

def contosoPlatform : Platform where
  manufacturer := .ok contoso.toMemory

/-- The packet is decoded on a device of this manufacturer. -/
theorem decodePacket_layout_targetedPacket :
    decodePacketAccess contosoPlatform (.received securedSettingsApplyVarSignature targetedPacket) =
        some (decodePacket contosoPlatform (.received securedSettingsApplyVarSignature targetedPacket)) ∧
      AcceptedLayout contosoPlatform targetedPacket
        (decodePacket contosoPlatform (.received securedSettingsApplyVarSignature targetedPacket)).2 := by
  have strings : DeviceStrings contosoPlatform := by
    intro id mem temp isTemp
    simp only [contosoPlatform, List.mem_cons, List.not_mem_nil, or_false] at mem
    obtain rfl | rfl | rfl := mem
    · exact ⟨contoso, (Except.ok.inj isTemp).symm⟩
    · cases isTemp
    · cases isTemp
  have layout := decodePacket_layout strings (.received securedSettingsApplyVarSignature targetedPacket)
  exact ⟨layout.1, layout.2.2 (by decide +kernel)⟩

/-! ## The fields of an identity packet

An identity packet goes on behind the common header, with the version and the lowest supported version in front of
the target strings. -/

/-- Where the record points for the identity, the `Version` and the `LSV`, and their sizes. -/
def Packet.identityFields (data : Packet) : List (Option Nat × Nat) :=
  [(data.varIdentity, 1), (data.version, 4), (data.lsv, 4)]

/-- The byte belongs to a target string, to the payload or to what follows from the signature on. -/
def PacketHeader.InOtherPart (packet : List Byte) (signature : Option Nat) (byte : Nat) : Prop :=
  (systemMfgOffset packet ≤ byte ∧ byte < PacketHeader.payloadOffset packet) ∨
    (PacketHeader.payloadOffset packet ≤ byte ∧ byte < PacketHeader.signedDataLength packet) ∨
    ∃ start, signature = some start ∧ start ≤ byte

/-- The fields are signed, and are no part of anything else in the packet. -/
structure SignedFields (packet : List Byte) (decoded : Packet) : Prop where
  signed : ∀ field ∈ decoded.identityFields, ∃ offset, field.1 = some offset ∧
    offset + field.2 ≤ decoded.signedDataLength
  apart : ∀ field ∈ decoded.identityFields, ∀ offset byte, field.1 = some offset → offset ≤ byte →
    byte < offset + field.2 → ¬ PacketHeader.InOtherPart packet decoded.signature byte

section

variable {p : Platform} {data : Packet}

/-- What a decoded identity packet points at. -/
theorem decodeIdentityPacket_success (decodes : (decodeIdentityPacket p data).1 = .success) :
    PacketHeader.Ordered data.bytes ∧
      (decodeIdentityPacket p data).2.identityFields = [(some 5, 1), (some 24, 4), (some 28, 4)] ∧
      (decodeIdentityPacket p data).2.signedDataLength = PacketHeader.signedDataLength data.bytes := by
  have ordered : (decodePacket p data).1 = .success → PacketHeader.Ordered data.bytes := by
    intro succeeds
    obtain ⟨failure, _, decodes⟩ | ⟨_, header, _, _⟩ | ⟨_, header, _, _⟩ := decodePacket_stages p data
    · rw [decodes] at succeeds
      exact absurd succeeds failure.status_ne_success
    · exact (checkHeader_ordered header).2
    · exact (checkHeader_ordered header).2
  have read : (decodePacket p data).1 = .success → (decodePacket p data).2.ReadFrom data.bytes :=
    readFrom_decodePacket
  rw [decodeIdentityPacket] at decodes ⊢
  generalize decodePacket p data = answer at decodes ordered read ⊢
  obtain ⟨status, record⟩ := answer
  cases status with
  | error code => cases decodes
  | success => exact ⟨ordered rfl, rfl, (read rfl).signedDataLength⟩

theorem validateIdentityPacket_signature (valid : validateIdentityPacket data = .success) :
    data.signature = some data.signedDataLength := by
  by_contra misplaced
  simp only [validateIdentityPacket] at valid
  split at valid
  · cases valid
  · split at valid
    · cases valid
    · cases valid

/-- `ValidateIdentityPacket` looks at the pointers to the version and the lowest supported version only when they are
null. So they are in the signed data, apart from the rest, exactly when the target strings start behind them. -/
theorem signedFields_iff (decodes : (decodeIdentityPacket p data).1 = .success)
    (valid : validateIdentityPacket (decodeIdentityPacket p data).2 = .success) :
    SignedFields data.bytes (decodeIdentityPacket p data).2 ↔ 32 ≤ systemMfgOffset data.bytes := by
  obtain ⟨⟨_, mfg, product, serial⟩, fields, signedData⟩ := decodeIdentityPacket_success decodes
  constructor
  · intro holds
    obtain ⟨offset, isOffset, inside⟩ := holds.signed (some 28, 4) (by simp [fields])
    cases isOffset
    by_contra before
    -- a byte of the LSV that is also in a target string or in the payload
    have other := holds.apart (some 28, 4) (by simp [fields]) 28 (max 28 (systemMfgOffset data.bytes)) rfl (by omega)
      (by omega)
    apply other
    rw [signedData] at inside
    by_cases inTargets : max 28 (systemMfgOffset data.bytes) < PacketHeader.payloadOffset data.bytes
    · exact .inl ⟨by omega, inTargets⟩
    · exact .inr (.inl ⟨by omega, by omega⟩)
  · intro behind
    have within : 32 < PacketHeader.signedDataLength data.bytes := by
      rw [PacketHeader.signedDataLength]
      omega
    have front : ∀ field ∈ (decodeIdentityPacket p data).2.identityFields, ∃ offset, field.1 = some offset ∧
        offset + field.2 ≤ 32 := by
      rw [fields]
      decide
    refine ⟨?_, ?_⟩
    · intro field mem
      obtain ⟨offset, isOffset, inFront⟩ := front field mem
      exact ⟨offset, isOffset, by omega⟩
    · intro field mem offset byte isOffset _ before
      obtain ⟨other, isOther, inFront⟩ := front field mem
      rw [isOffset, Option.some.injEq] at isOther
      rintro (⟨inTargets, _⟩ | ⟨inPayload, _⟩ | ⟨start, isStart, inSignature⟩)
      · omega
      · omega
      · rw [validateIdentityPacket_signature valid, Option.some.injEq] at isStart
        omega

end

/-- An enroll packet as it is built has its target strings behind the fields. -/
theorem signedFields_enrollPacket : SignedFields (enrollPacket 1 7 7)
      (decodeIdentityPacket keyedPlatform (.received identityApplyVarSignature (enrollPacket 1 7 7))).2 := by
  have decodes : (decodeIdentityPacket keyedPlatform
      (.received identityApplyVarSignature (enrollPacket 1 7 7))).1 = .success := by
    decide +kernel
  exact (signedFields_iff decodes (by decide +kernel)).mpr (by decide +kernel)

/-- An enroll packet whose target strings, three wildcards, follow the common header at once: the version and the lowest
supported version are the last of them and the first bytes of the certificate. -/
def overlappingPacket : List Byte :=
  littleEndian 4 identityApplyVarSignature ++ ([2, 1, 0, 0] ++ (littleEndian 4 0 ++ (littleEndian 2 22 ++
    (littleEndian 2 23 ++ (littleEndian 2 24 ++ (littleEndian 2 8 ++ (littleEndian 2 25 ++ ([0, 0, 0] ++
      (List.replicate 8 7 ++ (signedWith 7 ++ signedWith 7))))))))))

/-- The packet is decoded and passes the validation. -/
theorem overlappingPacket_validated :
    (decodeIdentityPacket keyedPlatform (.received identityApplyVarSignature overlappingPacket)).1 = .success ∧
      validateIdentityPacket
        (decodeIdentityPacket keyedPlatform (.received identityApplyVarSignature overlappingPacket)).2 = .success ∧
      ¬ SignedFields overlappingPacket
        (decodeIdentityPacket keyedPlatform (.received identityApplyVarSignature overlappingPacket)).2 := by
  refine ⟨by decide +kernel, by decide +kernel, ?_⟩
  intro holds
  -- the first byte of the LSV is the fourth of the certificate
  refine holds.apart (some 28, 4) (by decide +kernel) 28 28 rfl (by decide) (by decide) (.inr (.inl ⟨?_, ?_⟩))
  · decide +kernel
  · decide +kernel

end Dfci
