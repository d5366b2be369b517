import Dfci.Manager.PacketLayout
import Dfci.Support.Utf8

/-! # The tool that makes permission packets

`PermissionApplyVariable` of the Python tools writes the packets that `DecodePacket` reads, and reads them back itself:
a packet is written, read to be signed, and written again. The tool counts the offsets and the payload size in
characters and writes the texts in UTF-8, the firmware and the tool's own reader count bytes. -/

namespace Dfci.PacketTool

open ByteFields PacketHeader Fallible

inductive ToolError where
  | raised (text : String)
  | structError
  | unicodeDecodeError
  | expatError
  | typeError
  | winCert
  deriving DecidableEq

/-- What `WinCertUefiGuid` writes, which the packets are signed with: a header of its revision and type with the length of
the whole, and a GUID. -/
structure Certificate where
  bytes : List Byte
  header : 24 ≤ bytes.length
  length : winCertLength bytes = bytes.length
  revision : fieldAt bytes 4 2 = 0x200
  type : fieldAt bytes 6 2 = winCertTypeEfiGuid

/-- `minidom.parseString`, if it returns, and `WinCert.Factory`, with a certificate as the bytes its `Write` gives. -/
structure PythonTools where
  parseString : List Char → Bool
  factory : List Byte → Except ToolError (List Byte)
  parseString_nil : parseString [] = false
  factory_write : ∀ certificate : Certificate, factory certificate.bytes = .ok certificate.bytes

structure FileStream where
  tell : Nat
  rest : List Byte

namespace FileStream

def last (fs : FileStream) : Nat := fs.tell + fs.rest.length

def read (fs : FileStream) (size : Nat) : List Byte × FileStream :=
  (fs.rest.take size, ⟨fs.tell + (fs.rest.take size).length, fs.rest.drop size⟩)

end FileStream

/-- `struct.pack` of an unsigned field -/
def pack (width value : Nat) : Except ToolError (List Byte) :=
  if value < 256 ^ width then .ok (littleEndian width value) else .error .structError

/-- `struct.unpack` of an unsigned field that is read from the file -/
def unpack (width : Nat) (fs : FileStream) : Except ToolError (Nat × FileStream) :=
  let (bytes, fs) := fs.read width
  if bytes.length = width then .ok (fieldAt bytes 0 width, fs) else .error .structError

/-- `decode ()` of bytes read from the file -/
def decodeRead (size : Nat) (fs : FileStream) : Except ToolError (List Char × FileStream) :=
  let (bytes, fs) := fs.read size
  match Utf8.decode bytes with
  | none => .error .unicodeDecodeError
  | some text => .ok (text, fs)

/-- A member that may be `None` -/
def present {α : Type} : Option α → Except ToolError α
  | none => .error .typeError
  | some value => .ok value

def staticStructSizeV1 : Nat := 22
def staticStructSizeV2 : Nat := 22
def headerSigValue : List Char := ['M', 'P', 'P', 'A']
def versionV1 : Nat := 1
def versionV2 : Nat := 2

/-- `PermissionApplyVariable`, with the signature as the bytes its `Write` gives -/
structure PermissionApplyVariable where
  headerSignature : Option (List Char) := none
  headerVersion : Nat := 0
  payload : Option (List Char) := none
  signature : Option (List Byte) := none
  sessionId : Nat := 0
  payloadSize : Nat := 0
  rsvd1 : Nat := 0
  rsvd2 : Nat := 0
  rsvd3 : Nat := 0
  snTarget : Nat := 0
  manufacturer : Option (List Char) := none
  productName : Option (List Char) := none
  serialNumber : Option (List Char) := none
  mfgOffset : Nat := staticStructSizeV2
  productOffset : Nat := 0
  serialOffset : Nat := 0
  payloadOffset : Nat := 0
  deriving DecidableEq

/-- `__init__` without a file -/
def init (hdrVersion : Nat) : Except ToolError PermissionApplyVariable :=
  if hdrVersion ≠ versionV1 ∧ hdrVersion ≠ versionV2 then
    .error (.raised "Invalid version specified")
  else
    .ok { headerSignature := some headerSigValue, headerVersion := hdrVersion }

/-- `AddXmlPayload` -/
def addXmlPayload (tools : PythonTools) (object : PermissionApplyVariable) (xmlstring : List Char) :
    Except ToolError PermissionApplyVariable :=
  -- an empty payload counts as none
  if object.payload.getD [] ≠ [] then
    .error (.raised "Can't Add an XML payload to an object already containing payload")
  else if tools.parseString xmlstring = false then
    .error .expatError
  else
    .ok { object with payload := some xmlstring, payloadSize := xmlstring.length }

/-! ## Write -/

def writeHeaderV1 (object : PermissionApplyVariable) : Except ToolError (List Byte × PermissionApplyVariable) := do
  let snTarget ← pack 8 object.snTarget
  let sessionId ← pack 4 object.sessionId
  let payloadSize ← pack 2 object.payloadSize
  return (snTarget ++ (sessionId ++ payloadSize), object)

def writeHeaderV2 (object : PermissionApplyVariable) : Except ToolError (List Byte × PermissionApplyVariable) := do
  let sessionId ← pack 4 object.sessionId
  let mfgOffset ← pack 2 object.mfgOffset
  let manufacturer ← present object.manufacturer
  let productName ← present object.productName
  let serialNumber ← present object.serialNumber
  let product := object.mfgOffset + manufacturer.length + 1
  let serial := product + productName.length + 1
  let payload := serial + serialNumber.length + 1
  let productOffset ← pack 2 product
  let serialOffset ← pack 2 serial
  let payloadSize ← pack 2 object.payloadSize
  let payloadOffset ← pack 2 payload
  return (sessionId ++ (mfgOffset ++ (productOffset ++ (serialOffset ++ (payloadSize ++ (payloadOffset ++
    (Utf8.encode manufacturer ++ (0 :: (Utf8.encode productName ++ (0 :: (Utf8.encode serialNumber ++ [0])))))))))),
    { object with productOffset := product, serialOffset := serial, payloadOffset := payload })

/-- `Write`: the bytes, and the object with the offsets it then has -/
def write (object : PermissionApplyVariable) : Except ToolError (List Byte × PermissionApplyVariable) := do
  let headerSignature ← present object.headerSignature
  let headerVersion ← pack 1 object.headerVersion
  let rsvd1 ← pack 1 object.rsvd1
  let rsvd2 ← pack 1 object.rsvd2
  let rsvd3 ← pack 1 object.rsvd3
  let header ←
    if object.headerVersion = versionV1 then writeHeaderV1 object
    else if object.headerVersion = versionV2 then writeHeaderV2 object
    else .error (.raised "Invalid header version")
  let payload ← present header.2.payload
  return (Utf8.encode headerSignature ++ (headerVersion ++ (rsvd1 ++ (rsvd2 ++ (rsvd3 ++ (header.1 ++
    (Utf8.encode payload ++ header.2.signature.getD [])))))), header.2)

/-! ## PopulateFromFileStream -/

def readTarget (offset next : Nat) (offsetError nullError : String) (fs : FileStream) :
    Except ToolError (List Char × FileStream) := do
  if fs.tell ≠ offset then
    throw (.raised offsetError)
  let text ← decodeRead (next - offset - 1) fs
  let null ← unpack 1 text.2
  if null.1 ≠ 0 then
    throw (.raised nullError)
  return (text.1, null.2)

def readHeaderV1 (object : PermissionApplyVariable) (fs : FileStream) :
    Except ToolError (PermissionApplyVariable × FileStream) := do
  let snTarget ← unpack 8 fs
  let sessionId ← unpack 4 snTarget.2
  let payloadSize ← unpack 2 sessionId.2
  return ({ object with snTarget := snTarget.1, sessionId := sessionId.1, payloadSize := payloadSize.1 }, payloadSize.2)

def readOffsets (object : PermissionApplyVariable) (fs : FileStream) :
    Except ToolError (PermissionApplyVariable × FileStream) := do
  let sessionId ← unpack 4 fs
  let mfgOffset ← unpack 2 sessionId.2
  let productOffset ← unpack 2 mfgOffset.2
  let serialOffset ← unpack 2 productOffset.2
  let payloadSize ← unpack 2 serialOffset.2
  let payloadOffset ← unpack 2 payloadSize.2
  return ({ object with
    sessionId := sessionId.1
    mfgOffset := mfgOffset.1
    productOffset := productOffset.1
    serialOffset := serialOffset.1
    payloadSize := payloadSize.1
    payloadOffset := payloadOffset.1 }, payloadOffset.2)

def readTargets (last : Nat) (object : PermissionApplyVariable) (fs : FileStream) :
    Except ToolError (PermissionApplyVariable × FileStream) := do
  if object.productOffset ≤ object.mfgOffset ∨ object.serialOffset ≤ object.productOffset ∨
      object.payloadOffset ≤ object.serialOffset then
    throw (.raised "Invalid Offset Structure")
  -- the offset counts from the start of the packet, what is left from behind the fixed fields
  if last - fs.tell < object.payloadOffset then
    throw (.raised "Packet too small for SmBiosString")
  let manufacturer ← readTarget object.mfgOffset object.productOffset "Invalid Mfg Offset" "Invalid NULL in Mfg" fs
  let productName ← readTarget object.productOffset object.serialOffset "Invalid Product Offset"
    "Invalid NULL in ProductName" manufacturer.2
  let serialNumber ← readTarget object.serialOffset object.payloadOffset "Invalid SerialOffset Offset"
    "Invalid NULL in ProductName" productName.2
  return ({ object with
    manufacturer := some manufacturer.1
    productName := some productName.1
    serialNumber := some serialNumber.1 }, serialNumber.2)

def readHeaderV2 (start last : Nat) (object : PermissionApplyVariable) (fs : FileStream) :
    Except ToolError (PermissionApplyVariable × FileStream) := do
  if last - start < staticStructSizeV2 then
    throw (.raised "Invalid V2 file stream size")
  let fixed ← readOffsets object fs
  readTargets last fixed.1 fixed.2

def readPayload (tools : PythonTools) (last : Nat) (object : PermissionApplyVariable) (fs : FileStream) :
    Except ToolError PermissionApplyVariable := do
  if last - fs.tell < object.payloadSize then
    throw (.raised "Invalid file stream size (PayloadSize)")
  let payload ← decodeRead object.payloadSize fs
  if tools.parseString payload.1 = false then
    throw .expatError
  if 0 < last - payload.2.tell then
    let signature ← tools.factory payload.2.rest
    return { object with payload := some payload.1, signature := some signature }
  else
    return { object with payload := some payload.1 }

def readPrologue (fs : FileStream) : Except ToolError (PermissionApplyVariable × FileStream) := do
  let headerSignature ← decodeRead 4 fs
  if headerSignature.1 ≠ headerSigValue then
    throw (.raised "Incorrect Header Signature")
  let headerVersion ← unpack 1 headerSignature.2
  let rsvd1 ← unpack 1 headerVersion.2
  let rsvd2 ← unpack 1 rsvd1.2
  let rsvd3 ← unpack 1 rsvd2.2
  if rsvd1.1 ≠ 0 ∨ rsvd2.1 ≠ 0 ∨ rsvd3.1 ≠ 0 then
    throw (.raised "Reserved bytes must be zero")
  return ({
    headerSignature := some headerSignature.1
    headerVersion := headerVersion.1
    rsvd1 := rsvd1.1
    rsvd2 := rsvd2.1
    rsvd3 := rsvd3.1 }, rsvd3.2)

/-- `PopulateFromFileStream`, on a new object -/
def populateFromFileStream (tools : PythonTools) (fs : FileStream) : Except ToolError PermissionApplyVariable := do
  if fs.last - fs.tell < staticStructSizeV1 then
    throw (.raised "Invalid file stream size")
  let prologue ← readPrologue fs
  let header ←
    if prologue.1.headerVersion = versionV1 then readHeaderV1 prologue.1 prologue.2
    else if prologue.1.headerVersion = versionV2 then readHeaderV2 fs.tell fs.last prologue.1 prologue.2
    else .error (.raised "Invalid header version")
  readPayload tools fs.last header.1 header.2

/-! ## What the reader makes of what was written -/

section

variable {tell width value size : Nat} {rest : List Byte}

theorem pack_fits (fits : value < 256 ^ width) : pack width value = .ok (littleEndian width value) :=
  if_pos fits

theorem read_append {bytes : List Byte} (sized : bytes.length = size) :
    FileStream.read ⟨tell, bytes ++ rest⟩ size = (bytes, ⟨tell + size, rest⟩) := by
  subst sized
  simp [FileStream.read]

theorem unpack_littleEndian (fits : value < 256 ^ width) :
    unpack width ⟨tell, littleEndian width value ++ rest⟩ = .ok (value, ⟨tell + width, rest⟩) := by
  have field := fieldAt_littleEndian fits []
  rw [List.append_nil] at field
  simp [unpack, read_append, field]

theorem decodeRead_encode {text : List Char} (sized : (Utf8.encode text).length = size) :
    decodeRead size ⟨tell, Utf8.encode text ++ rest⟩ = .ok (text, ⟨tell + size, rest⟩) := by
  simp [decodeRead, read_append sized]

/-- What `decode` makes of a read is in UTF-8 no longer than the read. -/
theorem length_of_decodeRead {fs : FileStream} {text : List Char × FileStream} (reads : decodeRead size fs = .ok text) :
    (Utf8.encode text.1).length ≤ size := by
  simp only [decodeRead] at reads
  cases decoded : Utf8.decode (fs.read size).1 with
  | none =>
    rw [decoded] at reads
    cases reads
  | some found =>
    rw [decoded] at reads
    obtain rfl := Except.ok.inj reads
    simp only [Utf8.encode_of_decode decoded, FileStream.read, List.length_take]
    omega

theorem readTarget_encode {text : List Char} {offset next : Nat} {offsetError nullError : String}
    (ascii : Utf8.Ascii text) (follows : next = offset + text.length + 1) :
    readTarget offset next offsetError nullError ⟨offset, Utf8.encode text ++ (0 :: rest)⟩ = .ok (text, ⟨next, rest⟩) := by
  have sized : (Utf8.encode text).length = next - offset - 1 := by
    rw [ascii.length_encode]
    omega
  have ends : offset + (next - offset - 1) + 1 = next := by omega
  have null : unpack 1 ⟨offset + (next - offset - 1), 0 :: rest⟩ = .ok (0, ⟨next, rest⟩) := by
    have field := @unpack_littleEndian (offset + (next - offset - 1)) 1 0 rest (by decide)
    rwa [ends] at field
  refine ite_throw_eq_ok.mpr ⟨by simp, bind_eq_ok.mpr ⟨_, decodeRead_encode sized, ?_⟩⟩
  refine bind_eq_ok.mpr ⟨_, null, ?_⟩
  exact ite_throw_eq_ok.mpr ⟨by simp, rfl⟩

theorem length_of_readTarget {offset next : Nat} {offsetError nullError : String} {fs : FileStream}
    {text : List Char × FileStream} (reads : readTarget offset next offsetError nullError fs = .ok text) :
    (Utf8.encode text.1).length ≤ next - offset - 1 := by
  obtain ⟨_, reads⟩ := ite_throw_eq_ok.mp reads
  obtain ⟨decoded, decodes, reads⟩ := bind_eq_ok.mp reads
  obtain ⟨null, _, reads⟩ := bind_eq_ok.mp reads
  obtain ⟨_, reads⟩ := ite_throw_eq_ok.mp reads
  obtain rfl := Except.ok.inj reads
  have sized := length_of_decodeRead decodes
  exact sized

end

/-! ## A packet ordered from the tool -/

structure PacketOrder where
  sessionId : Nat
  manufacturer : List Char
  productName : List Char
  serialNumber : List Char
  payload : List Char

namespace PacketOrder

def build (tools : PythonTools) (order : PacketOrder) : Except ToolError PermissionApplyVariable := do
  let object ← init versionV2
  addXmlPayload tools { object with
    sessionId := order.sessionId
    manufacturer := some order.manufacturer
    productName := some order.productName
    serialNumber := some order.serialNumber } order.payload

def productOffset (order : PacketOrder) : Nat := staticStructSizeV2 + order.manufacturer.length + 1
def serialOffset (order : PacketOrder) : Nat := order.productOffset + order.productName.length + 1
def payloadOffset (order : PacketOrder) : Nat := order.serialOffset + order.serialNumber.length + 1

/-- The numbers of the header, as the tool counts them, fit its fields. -/
structure Fits (order : PacketOrder) : Prop where
  sessionId : order.sessionId < 256 ^ 4
  payloadSize : order.payload.length < 256 ^ 2
  payloadOffset : order.payloadOffset < 256 ^ 2

def filled (order : PacketOrder) (signature : Option (List Byte)) : PermissionApplyVariable where
  headerSignature := some headerSigValue
  headerVersion := versionV2
  payload := some order.payload
  signature := signature
  sessionId := order.sessionId
  payloadSize := order.payload.length
  manufacturer := some order.manufacturer
  productName := some order.productName
  serialNumber := some order.serialNumber

def written (order : PacketOrder) (signature : Option (List Byte)) : PermissionApplyVariable :=
  { order.filled signature with
    productOffset := order.productOffset
    serialOffset := order.serialOffset
    payloadOffset := order.payloadOffset }

def targets (order : PacketOrder) (behind : List Byte) : List Byte :=
  Utf8.encode order.manufacturer ++ (0 :: (Utf8.encode order.productName ++ (0 ::
    (Utf8.encode order.serialNumber ++ (0 :: behind)))))

def fixedFields (order : PacketOrder) (behind : List Byte) : List Byte :=
  littleEndian 4 order.sessionId ++ (littleEndian 2 staticStructSizeV2 ++ (littleEndian 2 order.productOffset ++
    (littleEndian 2 order.serialOffset ++ (littleEndian 2 order.payload.length ++
      (littleEndian 2 order.payloadOffset ++ behind)))))

def bytes (order : PacketOrder) (signature : List Byte) : List Byte :=
  littleEndian 4 permissionPolicyApplyVarSignature ++ (littleEndian 1 versionV2 ++ (littleEndian 1 0 ++
    (littleEndian 1 0 ++ (littleEndian 1 0 ++
      order.fixedFields (order.targets (Utf8.encode order.payload ++ signature))))))

structure Ascii (order : PacketOrder) : Prop where
  manufacturer : Utf8.Ascii order.manufacturer
  productName : Utf8.Ascii order.productName
  serialNumber : Utf8.Ascii order.serialNumber
  payload : Utf8.Ascii order.payload

theorem header_lt_payloadOffset (order : PacketOrder) : 22 < order.payloadOffset := by
  simp only [payloadOffset, serialOffset, productOffset, staticStructSizeV2]
  omega

theorem length_bytes {order : PacketOrder} (ascii : order.Ascii) (signature : List Byte) :
    (order.bytes signature).length = order.payloadOffset + order.payload.length + signature.length := by
  obtain ⟨manufacturer, productName, serialNumber, payload⟩ := ascii
  simp only [bytes, fixedFields, targets, List.length_append, List.length_cons, length_littleEndian,
    manufacturer.length_encode, productName.length_encode, serialNumber.length_encode, payload.length_encode,
    payloadOffset, serialOffset, productOffset, staticStructSizeV2]
  omega

end PacketOrder

open PacketOrder

theorem encode_headerSigValue : Utf8.encode headerSigValue = littleEndian 4 permissionPolicyApplyVarSignature := by
  decide +kernel

section

variable {tools : PythonTools} {order : PacketOrder}

theorem build_eq (wellFormed : tools.parseString order.payload = true) : order.build tools = .ok (order.filled none) := by
  simp [build, init, addXmlPayload, wellFormed, filled, versionV1, versionV2, bind, Except.bind]

theorem PacketOrder.Fits.serialOffset (fits : order.Fits) : order.serialOffset < 256 ^ 2 := by
  have payloadOffset := fits.payloadOffset
  simp only [PacketOrder.payloadOffset] at payloadOffset
  omega

theorem PacketOrder.Fits.productOffset (fits : order.Fits) : order.productOffset < 256 ^ 2 := by
  have serialOffset := fits.serialOffset
  simp only [PacketOrder.serialOffset] at serialOffset
  omega

theorem write_filled (fits : order.Fits) (signature : Option (List Byte)) :
    write (order.filled signature) = .ok (order.bytes (signature.getD []), order.written signature) := by
  have header : writeHeaderV2 (order.filled signature) =
      .ok (order.fixedFields (order.targets []), order.written signature) := by
    refine bind_eq_ok.mpr ⟨_, pack_fits fits.sessionId, ?_⟩
    refine bind_eq_ok.mpr ⟨_, pack_fits (show staticStructSizeV2 < 256 ^ 2 by decide), ?_⟩
    refine bind_eq_ok.mpr ⟨order.manufacturer, rfl, ?_⟩
    refine bind_eq_ok.mpr ⟨order.productName, rfl, ?_⟩
    refine bind_eq_ok.mpr ⟨order.serialNumber, rfl, ?_⟩
    refine bind_eq_ok.mpr ⟨_, pack_fits fits.productOffset, ?_⟩
    refine bind_eq_ok.mpr ⟨_, pack_fits fits.serialOffset, ?_⟩
    refine bind_eq_ok.mpr ⟨_, pack_fits fits.payloadSize, ?_⟩
    exact bind_eq_ok.mpr ⟨_, pack_fits fits.payloadOffset, rfl⟩
  have version : versionV2 < 256 ^ 1 := by decide
  have reserved : 0 < 256 ^ 1 := by decide
  refine bind_eq_ok.mpr ⟨headerSigValue, rfl, ?_⟩
  refine bind_eq_ok.mpr ⟨_, pack_fits version, ?_⟩
  refine bind_eq_ok.mpr ⟨_, pack_fits reserved, ?_⟩
  refine bind_eq_ok.mpr ⟨_, pack_fits reserved, ?_⟩
  refine bind_eq_ok.mpr ⟨_, pack_fits reserved, ?_⟩
  refine bind_eq_ok.mpr ⟨_, header, ?_⟩
  refine bind_eq_ok.mpr ⟨order.payload, rfl, ?_⟩
  simp [pure, Except.pure, encode_headerSigValue, bytes, fixedFields, targets, written, filled]

/-! ### Reading it back -/

theorem readPrologue_bytes (behind : List Byte) :
    readPrologue ⟨0, littleEndian 4 permissionPolicyApplyVarSignature ++ (littleEndian 1 versionV2 ++ (littleEndian 1 0 ++
        (littleEndian 1 0 ++ (littleEndian 1 0 ++ behind))))⟩ =
      .ok ({ headerSignature := some headerSigValue, headerVersion := versionV2 }, ⟨8, behind⟩) := by
  have version : versionV2 < 256 ^ 1 := by decide
  have reserved : 0 < 256 ^ 1 := by decide
  rw [← encode_headerSigValue]
  refine bind_eq_ok.mpr ⟨_, decodeRead_encode (by decide), ?_⟩
  refine ite_throw_eq_ok.mpr ⟨by simp, ?_⟩
  refine bind_eq_ok.mpr ⟨_, unpack_littleEndian version, ?_⟩
  refine bind_eq_ok.mpr ⟨_, unpack_littleEndian reserved, ?_⟩
  refine bind_eq_ok.mpr ⟨_, unpack_littleEndian reserved, ?_⟩
  refine bind_eq_ok.mpr ⟨_, unpack_littleEndian reserved, ?_⟩
  exact ite_throw_eq_ok.mpr ⟨by simp, rfl⟩

theorem readOffsets_fixedFields (fits : order.Fits) (object : PermissionApplyVariable) (behind : List Byte) :
    readOffsets object ⟨8, order.fixedFields behind⟩ = .ok ({ object with
      sessionId := order.sessionId
      mfgOffset := staticStructSizeV2
      productOffset := order.productOffset
      serialOffset := order.serialOffset
      payloadSize := order.payload.length
      payloadOffset := order.payloadOffset }, ⟨22, behind⟩) := by
  refine bind_eq_ok.mpr ⟨_, unpack_littleEndian fits.sessionId, ?_⟩
  refine bind_eq_ok.mpr ⟨_, unpack_littleEndian (show staticStructSizeV2 < 256 ^ 2 by decide), ?_⟩
  refine bind_eq_ok.mpr ⟨_, unpack_littleEndian fits.productOffset, ?_⟩
  refine bind_eq_ok.mpr ⟨_, unpack_littleEndian fits.serialOffset, ?_⟩
  refine bind_eq_ok.mpr ⟨_, unpack_littleEndian fits.payloadSize, ?_⟩
  exact bind_eq_ok.mpr ⟨_, unpack_littleEndian fits.payloadOffset, rfl⟩

theorem readTargets_targets (ascii : order.Ascii) {object : PermissionApplyVariable} {last : Nat} {behind : List Byte}
    (mfg : object.mfgOffset = 22) (product : object.productOffset = order.productOffset)
    (serial : object.serialOffset = order.serialOffset) (payload : object.payloadOffset = order.payloadOffset)
    (enough : order.payloadOffset + 22 ≤ last) :
    readTargets last object ⟨22, order.targets behind⟩ = .ok ({ object with
      manufacturer := some order.manufacturer
      productName := some order.productName
      serialNumber := some order.serialNumber }, ⟨order.payloadOffset, behind⟩) := by
  have ordered : ¬ (object.productOffset ≤ object.mfgOffset ∨ object.serialOffset ≤ object.productOffset ∨
      object.payloadOffset ≤ object.serialOffset) := by
    rw [mfg, product, serial, payload, PacketOrder.payloadOffset, PacketOrder.serialOffset, PacketOrder.productOffset,
      staticStructSizeV2]
    omega
  refine ite_throw_eq_ok.mpr ⟨ordered, ite_throw_eq_ok.mpr ⟨?_, ?_⟩⟩
  · show ¬ last - 22 < object.payloadOffset
    omega
  rw [mfg, product, serial, payload]
  refine bind_eq_ok.mpr ⟨_, readTarget_encode ascii.manufacturer rfl, ?_⟩
  refine bind_eq_ok.mpr ⟨_, readTarget_encode ascii.productName rfl, ?_⟩
  exact bind_eq_ok.mpr ⟨_, readTarget_encode ascii.serialNumber rfl, rfl⟩

theorem readPayload_payload (wellFormed : tools.parseString order.payload = true) (ascii : Utf8.Ascii order.payload)
    {object : PermissionApplyVariable} {tell : Nat} {signature : Option Certificate}
    (size : object.payloadSize = order.payload.length) (unsigned : object.signature = none) :
    readPayload tools (tell + order.payload.length + ((signature.map Certificate.bytes).getD []).length) object
        ⟨tell, Utf8.encode order.payload ++ (signature.map Certificate.bytes).getD []⟩ =
      .ok { object with payload := some order.payload, signature := signature.map Certificate.bytes } := by
  refine ite_throw_eq_ok.mpr ⟨?_, ?_⟩
  · rw [size]
    simp only
    omega
  rw [size]
  refine bind_eq_ok.mpr ⟨_, decodeRead_encode ascii.length_encode, ?_⟩
  refine ite_throw_eq_ok.mpr ⟨by simp [wellFormed], ?_⟩
  cases signature with
  | none =>
    rw [if_neg (by simp)]
    simp [pure, Except.pure, unsigned]
  | some certificate =>
    have header := certificate.header
    rw [if_pos]
    · exact bind_eq_ok.mpr ⟨_, tools.factory_write certificate, rfl⟩
    · simp only [Option.map_some, Option.getD_some]
      omega

theorem readHeaderV2_fixedFields (fits : order.Fits) (ascii : order.Ascii) {last : Nat} (behind : List Byte)
    (enough : order.payloadOffset + 22 ≤ last) :
    readHeaderV2 0 last { headerSignature := some headerSigValue, headerVersion := versionV2 }
        ⟨8, order.fixedFields (order.targets behind)⟩ =
      .ok ({ order.written none with payload := none }, ⟨order.payloadOffset, behind⟩) := by
  refine ite_throw_eq_ok.mpr ⟨?_, ?_⟩
  · rw [staticStructSizeV2]
    omega
  refine bind_eq_ok.mpr ⟨_, readOffsets_fixedFields fits _ _, ?_⟩
  exact readTargets_targets ascii rfl rfl rfl rfl enough

/-- An ASCII packet is read back, unless it is so short that the reader takes its strings to be cut off. -/
theorem populate_bytes (fits : order.Fits) (wellFormed : tools.parseString order.payload = true) (ascii : order.Ascii)
    {signature : Option Certificate}
    (enough : 22 ≤ order.payload.length + ((signature.map Certificate.bytes).getD []).length) :
    populateFromFileStream tools ⟨0, order.bytes ((signature.map Certificate.bytes).getD [])⟩ =
      .ok (order.written (signature.map Certificate.bytes)) := by
  have last : FileStream.last ⟨0, order.bytes ((signature.map Certificate.bytes).getD [])⟩ =
      order.payloadOffset + order.payload.length + ((signature.map Certificate.bytes).getD []).length := by
    rw [FileStream.last, Nat.zero_add, length_bytes ascii]
  rw [populateFromFileStream, last]
  refine ite_throw_eq_ok.mpr ⟨?_, ?_⟩
  · rw [staticStructSizeV1, Nat.sub_zero]
    omega
  refine bind_eq_ok.mpr ⟨_, readPrologue_bytes _, ?_⟩
  rw [if_neg (show ¬ versionV2 = versionV1 by decide), if_pos rfl]
  refine bind_eq_ok.mpr ⟨_, readHeaderV2_fixedFields fits ascii _ (by omega), ?_⟩
  exact readPayload_payload wellFormed ascii.payload rfl rfl

/-! ### What a packet that is read back shows -/

theorem readTargets_ok {last : Nat} {object : PermissionApplyVariable} {fs : FileStream}
    {header : PermissionApplyVariable × FileStream} (reads : readTargets last object fs = .ok header) :
    object.payloadOffset ≤ last - fs.tell ∧ ∃ manufacturer productName serialNumber, header.1 = { object with
        manufacturer := some manufacturer
        productName := some productName
        serialNumber := some serialNumber } ∧
      (Utf8.encode manufacturer).length ≤ object.productOffset - object.mfgOffset - 1 ∧
      (Utf8.encode productName).length ≤ object.serialOffset - object.productOffset - 1 ∧
      (Utf8.encode serialNumber).length ≤ object.payloadOffset - object.serialOffset - 1 := by
  obtain ⟨_, reads⟩ := ite_throw_eq_ok.mp reads
  obtain ⟨enough, reads⟩ := ite_throw_eq_ok.mp reads
  obtain ⟨manufacturer, readsManufacturer, reads⟩ := bind_eq_ok.mp reads
  obtain ⟨productName, readsProductName, reads⟩ := bind_eq_ok.mp reads
  obtain ⟨serialNumber, readsSerialNumber, reads⟩ := bind_eq_ok.mp reads
  obtain rfl := Except.ok.inj reads
  exact ⟨Nat.le_of_not_lt enough, _, _, _, rfl, length_of_readTarget readsManufacturer,
    length_of_readTarget readsProductName, length_of_readTarget readsSerialNumber⟩

theorem readPayload_ok {last : Nat} {object result : PermissionApplyVariable} {fs : FileStream}
    (reads : readPayload tools last object fs = .ok result) :
    ∃ payload signature, result = { object with payload := some payload, signature := signature } ∧
      (Utf8.encode payload).length ≤ object.payloadSize := by
  obtain ⟨_, reads⟩ := ite_throw_eq_ok.mp reads
  obtain ⟨payload, readsPayload, reads⟩ := bind_eq_ok.mp reads
  obtain ⟨_, reads⟩ := ite_throw_eq_ok.mp reads
  have sized := length_of_decodeRead readsPayload
  split at reads
  · obtain ⟨signature, _, reads⟩ := bind_eq_ok.mp reads
    exact ⟨payload.1, some signature, (Except.ok.inj reads).symm, sized⟩
  · exact ⟨payload.1, object.signature, (Except.ok.inj reads).symm, sized⟩

/-- A packet that is read back with the fields it was written with is ASCII, and long enough. -/
theorem of_populate_bytes (fits : order.Fits) {bytes : List Byte} {signature : Option (List Byte)}
    (reads : populateFromFileStream tools ⟨0, order.bytes bytes⟩ = .ok (order.written signature)) :
    order.Ascii ∧ 22 ≤ order.payload.length + bytes.length := by
  rw [populateFromFileStream] at reads
  obtain ⟨_, reads⟩ := ite_throw_eq_ok.mp reads
  obtain ⟨prologue, isPrologue, reads⟩ := bind_eq_ok.mp reads
  obtain rfl := Except.ok.inj ((readPrologue_bytes _).symm.trans isPrologue)
  rw [if_neg (show ¬ versionV2 = versionV1 by decide), if_pos rfl] at reads
  obtain ⟨header, isHeader, reads⟩ := bind_eq_ok.mp reads
  rw [readHeaderV2] at isHeader
  obtain ⟨_, isHeader⟩ := ite_throw_eq_ok.mp isHeader
  obtain ⟨fixed, isFixed, isHeader⟩ := bind_eq_ok.mp isHeader
  obtain rfl := Except.ok.inj ((readOffsets_fixedFields fits _ _).symm.trans isFixed)
  obtain ⟨enough, manufacturer, productName, serialNumber, isTargets, sizes⟩ := readTargets_ok isHeader
  obtain ⟨payload, _, isRead, payloadSize⟩ := readPayload_ok reads
  rw [isTargets] at isRead payloadSize
  -- the texts that were read are those that were written
  obtain rfl := Option.some.inj (congrArg PermissionApplyVariable.manufacturer isRead)
  obtain rfl := Option.some.inj (congrArg PermissionApplyVariable.productName isRead)
  obtain rfl := Option.some.inj (congrArg PermissionApplyVariable.serialNumber isRead)
  obtain rfl := Option.some.inj (congrArg PermissionApplyVariable.payload isRead)
  simp only [PacketOrder.payloadOffset, PacketOrder.serialOffset, PacketOrder.productOffset] at sizes
  have ascii : order.Ascii :=
    ⟨(Utf8.ascii_iff _).mpr (by omega), (Utf8.ascii_iff _).mpr (by omega), (Utf8.ascii_iff _).mpr (by omega),
      (Utf8.ascii_iff _).mpr payloadSize⟩
  have last : FileStream.last ⟨0, order.bytes bytes⟩ = order.payloadOffset + order.payload.length + bytes.length := by
    rw [FileStream.last, Nat.zero_add, length_bytes ascii]
  have behind : order.payloadOffset ≤ FileStream.last ⟨0, order.bytes bytes⟩ - 22 := enough
  have offset := order.header_lt_payloadOffset
  exact ⟨ascii, by omega⟩

end

/-! ## What the firmware makes of it -/

/-- The device a packet is meant for, with its strings in UTF-8. -/
structure MeantFor (order : PacketOrder) (p : Platform) : Prop where
  manufacturer : p.manufacturer = .ok (Utf8.encode order.manufacturer ++ [0])
  productName : p.productName = .ok (Utf8.encode order.productName ++ [0])
  serialNumber : p.serialNumber = .ok (Utf8.encode order.serialNumber ++ [0])

/-- `DecodePacket` finds what was ordered, and the signature behind it. -/
structure DecodesAs (outcome : ManagerData) (order : PacketOrder) (signatureAt : Nat) : Prop where
  accepted : outcome.decodeStatus = .success
  sessionId : outcome.data.sessionId = order.sessionId
  manufacturer : sliceAt outcome.data.bytes (systemMfgOffset outcome.data.bytes)
    (systemProductOffset outcome.data.bytes - systemMfgOffset outcome.data.bytes) = Utf8.encode order.manufacturer ++ [0]
  productName : sliceAt outcome.data.bytes (systemProductOffset outcome.data.bytes)
    (systemSerialOffset outcome.data.bytes - systemProductOffset outcome.data.bytes) =
      Utf8.encode order.productName ++ [0]
  serialNumber : sliceAt outcome.data.bytes (systemSerialOffset outcome.data.bytes)
    (PacketHeader.payloadOffset outcome.data.bytes - systemSerialOffset outcome.data.bytes) =
      Utf8.encode order.serialNumber ++ [0]
  payload : outcome.data.payloadBytes = Utf8.encode order.payload
  signature : outcome.data.signature = some signatureAt

section

variable {order : PacketOrder} (signature : List Byte)

theorem withoutSessionId_bytes :
    withoutSessionId (order.bytes signature) = { order with sessionId := 0 }.bytes signature := by
  simp [withoutSessionId, bytes, fixedFields, littleEndian, productOffset, serialOffset, PacketOrder.payloadOffset, targets]

theorem signature_bytes : PacketHeader.signature (order.bytes signature) = permissionPolicyApplyVarSignature :=
  fieldAt_littleEndian (by decide) _

theorem version_bytes : PacketHeader.version (order.bytes signature) = versionV2 := by
  rw [PacketHeader.version, bytes, byteAt_append_right (by simp)]
  simp [littleEndian, versionV2]

theorem sessionId_bytes (fits : order.Fits) : PacketHeader.sessionId (order.bytes signature) = order.sessionId := by
  simp (disch := simp) only [PacketHeader.sessionId, bytes, fixedFields, fieldAt_append_right, length_littleEndian,
    Nat.reduceSub]
  exact fieldAt_littleEndian fits.sessionId _

theorem systemMfgOffset_bytes : systemMfgOffset (order.bytes signature) = staticStructSizeV2 := by
  simp (disch := simp) only [systemMfgOffset, bytes, fixedFields, fieldAt_append_right, length_littleEndian,
    Nat.reduceSub]
  exact fieldAt_littleEndian (by decide) _

theorem systemProductOffset_bytes (fits : order.Fits) :
    systemProductOffset (order.bytes signature) = order.productOffset := by
  simp (disch := simp) only [systemProductOffset, bytes, fixedFields, fieldAt_append_right, length_littleEndian,
    Nat.reduceSub]
  exact fieldAt_littleEndian fits.productOffset _

theorem systemSerialOffset_bytes (fits : order.Fits) : systemSerialOffset (order.bytes signature) = order.serialOffset := by
  simp (disch := simp) only [systemSerialOffset, bytes, fixedFields, fieldAt_append_right, length_littleEndian,
    Nat.reduceSub]
  exact fieldAt_littleEndian fits.serialOffset _

theorem payloadSize_bytes (fits : order.Fits) : PacketHeader.payloadSize (order.bytes signature) = order.payload.length := by
  simp (disch := simp) only [PacketHeader.payloadSize, bytes, fixedFields, fieldAt_append_right, length_littleEndian,
    Nat.reduceSub]
  exact fieldAt_littleEndian fits.payloadSize _

theorem payloadOffset_bytes (fits : order.Fits) :
    PacketHeader.payloadOffset (order.bytes signature) = order.payloadOffset := by
  simp (disch := simp) only [PacketHeader.payloadOffset, bytes, fixedFields, fieldAt_append_right, length_littleEndian,
    Nat.reduceSub]
  exact fieldAt_littleEndian fits.payloadOffset _

theorem PacketOrder.Fits.anySession (fits : order.Fits) : { order with sessionId := 0 }.Fits :=
  ⟨Nat.pow_pos (by decide), fits.payloadSize, fits.payloadOffset⟩

/-! ### A packet that is decoded as it was ordered is ASCII -/

theorem ascii_of_slice {packet : List Byte} {offset size : Nat} {text : List Char}
    (isSlice : sliceAt packet offset size = Utf8.encode text ++ [0]) (sized : size = text.length + 1) :
    Utf8.Ascii text := by
  have length := length_sliceAt_le packet offset size
  rw [isSlice, List.length_append, List.length_singleton] at length
  exact (Utf8.ascii_iff text).mpr (by omega)

theorem length_payloadBytes_le (data : Packet) : data.payloadBytes.length ≤ data.payloadSize := by
  rw [Packet.payloadBytes]
  cases data.payload with
  | none => simp
  | some offset => exact length_sliceAt_le data.bytes offset data.payloadSize

theorem ascii_of_decodesAs (fits : order.Fits) {p : Platform} {signatureAt : Nat}
    (decodes : DecodesAs (initializePacket p .permissions (.ok (order.bytes signature))) order signatureAt) :
    order.Ascii := by
  have read := readFrom_initializePacket decodes.accepted
  have isBytes := read.packet.trans (withoutSessionId_bytes signature)
  have zero := fits.anySession
  obtain ⟨_, _, manufacturer, productName, serialNumber, payload, _⟩ := decodes
  rw [isBytes, systemMfgOffset_bytes, systemProductOffset_bytes _ zero] at manufacturer
  rw [isBytes, systemProductOffset_bytes _ zero, systemSerialOffset_bytes _ zero] at productName
  rw [isBytes, systemSerialOffset_bytes _ zero, payloadOffset_bytes _ zero] at serialNumber
  refine ⟨ascii_of_slice manufacturer ?_, ascii_of_slice productName ?_, ascii_of_slice serialNumber ?_, ?_⟩
  · simp only [productOffset]
    omega
  · simp only [serialOffset]
    omega
  · simp only [PacketOrder.payloadOffset]
    omega
  · have length := length_payloadBytes_le (initializePacket p .permissions (.ok (order.bytes signature))).data
    rw [payload, read.payloadSize, payloadSize_bytes _ fits] at length
    exact (Utf8.ascii_iff _).mpr length

end

/-! ### An ASCII packet is decoded as it was ordered -/

def headerBytes (order : PacketOrder) : List Byte :=
  littleEndian 4 permissionPolicyApplyVarSignature ++ (littleEndian 1 versionV2 ++ (littleEndian 1 0 ++
    (littleEndian 1 0 ++ (littleEndian 1 0 ++ order.fixedFields []))))

theorem length_headerBytes (order : PacketOrder) : (headerBytes order).length = staticStructSizeV2 := by
  simp [headerBytes, fixedFields, staticStructSizeV2]

section

variable {order : PacketOrder} {signature : List Byte}

theorem bytes_eq : order.bytes signature =
    headerBytes order ++ ((Utf8.encode order.manufacturer ++ [0]) ++ ((Utf8.encode order.productName ++ [0]) ++
      ((Utf8.encode order.serialNumber ++ [0]) ++ (Utf8.encode order.payload ++ signature)))) := by
  simp [bytes, headerBytes, fixedFields, targets]

variable (ascii : order.Ascii)
include ascii

theorem slice_manufacturer :
    sliceAt (order.bytes signature) staticStructSizeV2 (order.productOffset - staticStructSizeV2) =
      Utf8.encode order.manufacturer ++ [0] := by
  rw [bytes_eq]
  refine sliceAt_middle (length_headerBytes order) ?_ _
  simp only [List.length_append, List.length_singleton, ascii.manufacturer.length_encode, productOffset]
  omega

theorem slice_productName :
    sliceAt (order.bytes signature) order.productOffset (order.serialOffset - order.productOffset) =
      Utf8.encode order.productName ++ [0] := by
  rw [bytes_eq, ← List.append_assoc]
  refine sliceAt_middle ?_ ?_ _
  · simp only [List.length_append, List.length_singleton, length_headerBytes, ascii.manufacturer.length_encode,
      productOffset]
    omega
  · simp only [List.length_append, List.length_singleton, ascii.productName.length_encode, serialOffset]
    omega

theorem slice_serialNumber :
    sliceAt (order.bytes signature) order.serialOffset (order.payloadOffset - order.serialOffset) =
      Utf8.encode order.serialNumber ++ [0] := by
  rw [bytes_eq, ← List.append_assoc, ← List.append_assoc]
  refine sliceAt_middle ?_ ?_ _
  · simp only [List.length_append, List.length_singleton, length_headerBytes, ascii.manufacturer.length_encode,
      ascii.productName.length_encode, serialOffset, productOffset]
    omega
  · simp only [List.length_append, List.length_singleton, ascii.serialNumber.length_encode, PacketOrder.payloadOffset]
    omega

theorem drop_bytes : (order.bytes signature).drop order.payloadOffset = Utf8.encode order.payload ++ signature := by
  rw [bytes_eq, ← List.append_assoc, ← List.append_assoc, ← List.append_assoc]
  refine List.drop_left' ?_
  simp only [List.length_append, List.length_singleton, length_headerBytes, ascii.manufacturer.length_encode,
    ascii.productName.length_encode, ascii.serialNumber.length_encode, PacketOrder.payloadOffset, serialOffset,
    productOffset]
  omega

end

/-- A target string that is the device's own passes, as a wildcard if it is empty. -/
theorem checkTarget_own (name : List Byte) (data : Packet) :
    ∃ wildcard, checkTarget (.ok name) name data = .ok { data with dfciWildcard := wildcard } := by
  rw [checkTarget]
  split
  · exact ⟨true, rfl⟩
  · exact ⟨data.dfciWildcard, by simp⟩

theorem checkTargets_bytes {order : PacketOrder} {signature : List Byte} {p : Platform} {data : Packet}
    (fits : order.Fits) (ascii : order.Ascii) (device : MeantFor order p) (isBytes : data.bytes = order.bytes signature) :
    ∃ wildcard, checkTargets p data = .ok { data with dfciWildcard := wildcard } := by
  simp only [checkTargets, isBytes, systemMfgOffset_bytes, systemProductOffset_bytes _ fits, systemSerialOffset_bytes _ fits,
    payloadOffset_bytes _ fits, slice_manufacturer ascii, slice_productName ascii, slice_serialNumber ascii,
    device.manufacturer, device.productName, device.serialNumber]
  obtain ⟨first, passesFirst⟩ := checkTarget_own (Utf8.encode order.manufacturer ++ [0]) data
  obtain ⟨second, passesSecond⟩ := checkTarget_own (Utf8.encode order.productName ++ [0])
    { data with dfciWildcard := first }
  obtain ⟨third, passesThird⟩ := checkTarget_own (Utf8.encode order.serialNumber ++ [0])
    { data with dfciWildcard := second }
  exact ⟨third, bind_eq_ok.mpr ⟨_, passesFirst, bind_eq_ok.mpr ⟨_, passesSecond, passesThird⟩⟩⟩

section

variable {order : PacketOrder} (fits : order.Fits) {p : Platform}

theorem initializePacket_permissions (bytes : List Byte) : initializePacket p .permissions (.ok bytes) =
      ⟨(decodePacket p (.received permissionPolicyApplyVarSignature bytes)).2,
        (decodePacket p (.received permissionPolicyApplyVarSignature bytes)).1⟩ :=
  rfl

/-- What `DecodePacket` accepts is no larger than a mailbox may be. -/
theorem size_of_accepted {bytes : List Byte}
    (accepted : (initializePacket p .permissions (.ok bytes)).decodeStatus = .success) :
    bytes.length ≤ maxAllowableDfciApplyVarSize := by
  rw [initializePacket_permissions] at accepted
  obtain ⟨failure, _, decodes⟩ | ⟨_, header, _, _⟩ | ⟨_, header, _, _⟩ :=
    decodePacket_stages p (.received permissionPolicyApplyVarSignature bytes)
  · rw [decodes] at accepted
    exact absurd accepted failure.status_ne_success
  all_goals
    obtain ⟨_, header⟩ := ite_throw_eq_ok.mp header
    exact Nat.le_of_not_lt (ite_throw_eq_ok.mp header).1

include fits

theorem checkHeader_bytes {signature : List Byte}
    (small : (order.bytes signature).length ≤ maxAllowableDfciApplyVarSize) :
    checkHeader (.received permissionPolicyApplyVarSignature (order.bytes signature)) = .ok () := by
  have whole : 22 ≤ (order.bytes signature).length := by
    simp only [bytes_eq, List.length_append, length_headerBytes, staticStructSizeV2]
    omega
  have ordered : offsetsValid (order.bytes signature) = true := by
    refine PacketHeader.ordered_iff.mpr ⟨?_, ?_, ?_, ?_⟩
    · exact Nat.le_of_eq (systemMfgOffset_bytes signature).symm
    · simp only [systemMfgOffset_bytes, systemProductOffset_bytes _ fits, productOffset]
      omega
    · simp only [systemProductOffset_bytes _ fits, systemSerialOffset_bytes _ fits, serialOffset]
      omega
    · simp only [systemSerialOffset_bytes _ fits, payloadOffset_bytes _ fits, PacketOrder.payloadOffset]
      omega
  rw [checkHeader]
  refine ite_throw_eq_ok.mpr ⟨show ¬ (order.bytes signature).length = 0 by omega, ?_⟩
  refine ite_throw_eq_ok.mpr ⟨Nat.not_lt_of_le small, ?_⟩
  refine ite_throw_eq_ok.mpr ⟨Nat.not_lt_of_le whole, ?_⟩
  refine ite_throw_eq_ok.mpr ⟨not_not_intro (signature_bytes signature), ?_⟩
  refine ite_throw_eq_ok.mpr ⟨not_not_intro (version_bytes signature), ?_⟩
  have isBytes : (Packet.received permissionPolicyApplyVarSignature (order.bytes signature)).bytes =
      order.bytes signature := rfl
  rw [isBytes, ordered]
  rfl

theorem locateSignature_bytes (ascii : order.Ascii) (certificate : Certificate) :
    locateSignature (readHeader (.received permissionPolicyApplyVarSignature (order.bytes certificate.bytes))) =
      .ok { readHeader (.received permissionPolicyApplyVarSignature (order.bytes certificate.bytes)) with
        signature := some (order.payloadOffset + order.payload.length) } := by
  generalize isData : readHeader (.received permissionPolicyApplyVarSignature (order.bytes certificate.bytes)) = data
  have isBytes : data.bytes = { order with sessionId := 0 }.bytes certificate.bytes := by
    rw [← isData]
    exact withoutSessionId_bytes certificate.bytes
  have signed : data.signedDataLength = order.payloadOffset + order.payload.length := by
    rw [← isData, ← payloadOffset_bytes certificate.bytes fits, ← payloadSize_bytes certificate.bytes fits]
    rfl
  have zero : { order with sessionId := 0 }.Ascii :=
    ⟨ascii.manufacturer, ascii.productName, ascii.serialNumber, ascii.payload⟩
  have size : data.packetSize = order.payloadOffset + order.payload.length + certificate.bytes.length := by
    rw [Packet.packetSize, isBytes, length_bytes zero]
    rfl
  have isCertificate : data.certificateAt data.signedDataLength = certificate.bytes := by
    have behind : data.bytes.drop order.payloadOffset = Utf8.encode order.payload ++ certificate.bytes := by
      rw [isBytes]
      exact drop_bytes zero
    rw [Packet.certificateAt, signed, ← List.drop_drop, behind]
    exact List.drop_left' ascii.payload.length_encode
  have header := certificate.header
  rw [← signed, locateSignature, if_neg, if_neg, if_neg]
  · rw [isCertificate, certificate.length]
    omega
  · omega
  · rw [isBytes, signature_bytes]
    exact fun unsigned => absurd unsigned.1 (by decide)

/-- `DecodePacket` reads an ASCII packet that fits a mailbox as it was ordered. -/
theorem decodesAs_bytes (ascii : order.Ascii) (device : MeantFor order p) (some : order.payload ≠ [])
    (certificate : Certificate) (small : (order.bytes certificate.bytes).length ≤ maxAllowableDfciApplyVarSize) :
    DecodesAs (initializePacket p .permissions (.ok (order.bytes certificate.bytes))) order
      (order.payloadOffset + order.payload.length) := by
  have zero : { order with sessionId := 0 }.Ascii :=
    ⟨ascii.manufacturer, ascii.productName, ascii.serialNumber, ascii.payload⟩
  have checks := checkHeader_bytes fits small
  have locates := locateSignature_bytes fits ascii certificate
  generalize isData : Packet.received permissionPolicyApplyVarSignature (order.bytes certificate.bytes) = data
    at checks locates
  have isBytes : data.bytes = order.bytes certificate.bytes := by
    rw [← isData]
    rfl
  have decoded : (readHeader data).bytes = { order with sessionId := 0 }.bytes certificate.bytes := by
    rw [← withoutSessionId_bytes, ← isBytes]
    rfl
  obtain ⟨wildcard, passes⟩ : ∃ wildcard, checkTargets p { readHeader data with
        signature := Option.some (order.payloadOffset + order.payload.length) } =
      .ok { readHeader data with
        signature := Option.some (order.payloadOffset + order.payload.length), dfciWildcard := wildcard } :=
    checkTargets_bytes fits.anySession zero ⟨device.manufacturer, device.productName, device.serialNumber⟩ decoded
  have decodes : decodePacket p data = (.success, { readHeader data with
      signature := Option.some (order.payloadOffset + order.payload.length), dfciWildcard := wildcard }) := by
    simp only [decodePacket, checks, locates, passes, orFail]
  rw [initializePacket_permissions, isData, decodes]
  refine ⟨rfl, ?_, ?_, ?_, ?_, ?_, rfl⟩
  · show PacketHeader.sessionId data.bytes = order.sessionId
    rw [isBytes, sessionId_bytes _ fits]
  · show sliceAt (readHeader data).bytes (systemMfgOffset (readHeader data).bytes)
      (systemProductOffset (readHeader data).bytes - systemMfgOffset (readHeader data).bytes) = _
    rw [decoded, systemMfgOffset_bytes, systemProductOffset_bytes _ fits.anySession]
    exact slice_manufacturer zero
  · show sliceAt (readHeader data).bytes (systemProductOffset (readHeader data).bytes)
      (systemSerialOffset (readHeader data).bytes - systemProductOffset (readHeader data).bytes) = _
    rw [decoded, systemProductOffset_bytes _ fits.anySession, systemSerialOffset_bytes _ fits.anySession]
    exact slice_productName zero
  · show sliceAt (readHeader data).bytes (systemSerialOffset (readHeader data).bytes)
      (PacketHeader.payloadOffset (readHeader data).bytes - systemSerialOffset (readHeader data).bytes) = _
    rw [decoded, systemSerialOffset_bytes _ fits.anySession, payloadOffset_bytes _ fits.anySession]
    exact slice_serialNumber zero
  · show (readHeader data).payloadBytes = _
    have payload : (readHeader data).payload = Option.some order.payloadOffset := by
      have size : PacketHeader.payloadSize data.bytes ≠ 0 := by
        rw [isBytes, payloadSize_bytes _ fits]
        exact fun empty => some (List.length_eq_zero_iff.mp empty)
      rw [← payloadOffset_bytes certificate.bytes fits, ← isBytes]
      exact if_pos size
    have size : (readHeader data).payloadSize = order.payload.length := by
      rw [← payloadSize_bytes certificate.bytes fits, ← isBytes]
      rfl
    have behind : (readHeader data).bytes.drop order.payloadOffset = Utf8.encode order.payload ++ certificate.bytes := by
      rw [decoded]
      exact drop_bytes zero
    simp only [Packet.payloadBytes, payload, size, behind]
    exact List.take_left' ascii.payload.length_encode

end

/-! ## The two agree on ASCII packets -/

/-- What the tool writes is read back by its own reader, field by field. -/
def ReadsBack (tools : PythonTools) (object : PermissionApplyVariable) : Prop :=
  ∃ bytes written, write object = .ok (bytes, written) ∧ populateFromFileStream tools ⟨0, bytes⟩ = .ok written

/-- The packet is read back as it is, and with its signature, and then decoded by the firmware as it was ordered. -/
def ToolLaw (tools : PythonTools) (p : Platform) (order : PacketOrder) (certificate : Certificate) : Prop :=
  ∃ object, order.build tools = .ok object ∧ ReadsBack tools object ∧
    ReadsBack tools { object with signature := some certificate.bytes } ∧
    ∃ bytes written, write { object with signature := some certificate.bytes } = .ok (bytes, written) ∧
      DecodesAs (initializePacket p .permissions (.ok bytes)) order (bytes.length - certificate.bytes.length)

section

variable {tools : PythonTools} {order : PacketOrder} (fits : order.Fits)
include fits

theorem readsBack_iff (wellFormed : tools.parseString order.payload = true) (signature : Option Certificate) :
    ReadsBack tools (order.filled (signature.map Certificate.bytes)) ↔
      order.Ascii ∧ 22 ≤ order.payload.length + ((signature.map Certificate.bytes).getD []).length := by
  constructor
  · intro readsBack
    obtain ⟨bytes, written, writes, reads⟩ := readsBack
    obtain ⟨rfl, rfl⟩ := Prod.mk.inj (Except.ok.inj ((write_filled fits _).symm.trans writes))
    exact of_populate_bytes fits reads
  · intro admissible
    exact ⟨_, _, write_filled fits _, populate_bytes fits wellFormed admissible.1 admissible.2⟩

theorem decodes_iff {p : Platform} (device : MeantFor order p) (some : order.payload ≠ [])
    (certificate : Certificate) :
    (∃ bytes written, write (order.filled (.some certificate.bytes)) = .ok (bytes, written) ∧
        DecodesAs (initializePacket p .permissions (.ok bytes)) order (bytes.length - certificate.bytes.length)) ↔
      order.Ascii ∧
        order.payloadOffset + order.payload.length + certificate.bytes.length ≤ maxAllowableDfciApplyVarSize := by
  constructor
  · intro decoded
    obtain ⟨bytes, written, writes, decodes⟩ := decoded
    obtain ⟨rfl, rfl⟩ := Prod.mk.inj (Except.ok.inj ((write_filled fits _).symm.trans writes))
    have ascii := ascii_of_decodesAs _ fits decodes
    have small := size_of_accepted decodes.accepted
    rw [length_bytes ascii] at small
    exact ⟨ascii, small⟩
  · intro admissible
    obtain ⟨ascii, small⟩ := admissible
    have size := length_bytes ascii certificate.bytes
    refine ⟨_, _, write_filled fits _, ?_⟩
    rw [Option.getD_some, size, Nat.add_sub_cancel]
    exact decodesAs_bytes fits ascii device some certificate (by omega)

end

/-- The tool, its reader and the firmware agree exactly on the packets that are ASCII, with a payload no shorter than
the header, which the reader counts twice, and that fit a mailbox. -/
theorem toolLaw_iff {tools : PythonTools} {p : Platform} {order : PacketOrder} (fits : order.Fits)
    (wellFormed : tools.parseString order.payload = true) (device : MeantFor order p) (certificate : Certificate) :
    ToolLaw tools p order certificate ↔ order.Ascii ∧ 22 ≤ order.payload.length ∧
        order.payloadOffset + order.payload.length + certificate.bytes.length ≤ maxAllowableDfciApplyVarSize := by
  have some : order.payload ≠ [] := by
    intro empty
    rw [empty, tools.parseString_nil] at wellFormed
    cases wellFormed
  have unsigned := readsBack_iff fits wellFormed none
  have signed := readsBack_iff fits wellFormed (.some certificate)
  have decodes := decodes_iff fits device some certificate
  constructor
  · intro law
    obtain ⟨object, builds, readsBack, _, decoded⟩ := law
    obtain rfl := Except.ok.inj ((build_eq wellFormed).symm.trans builds)
    exact ⟨(decodes.mp decoded).1, (unsigned.mp readsBack).2, (decodes.mp decoded).2⟩
  · intro admissible
    obtain ⟨ascii, long, small⟩ := admissible
    exact ⟨_, build_eq wellFormed, unsigned.mpr ⟨ascii, long⟩, signed.mpr ⟨ascii, by omega⟩, decodes.mpr ⟨ascii, small⟩⟩

def lenientTools : PythonTools where
  parseString := fun text => !text.isEmpty
  factory := .ok
  parseString_nil := rfl
  factory_write := fun _ => rfl

def emptyCertificate : Certificate where
  bytes := pkcs7Certificate []
  header := by decide
  length := fieldAt_littleEndian (by decide) _
  revision := by decide
  type := by decide

def contosoOrder (payload : String) : PacketOrder where
  sessionId := 7
  manufacturer := "Contoso".toList
  productName := "Desk".toList
  serialNumber := "42".toList
  payload := payload.toList

def contosoDevice : Platform where
  manufacturer := .ok (Utf8.encode "Contoso".toList ++ [0])
  productName := .ok (Utf8.encode "Desk".toList ++ [0])
  serialNumber := .ok (Utf8.encode "42".toList ++ [0])

theorem meantFor_contosoDevice (payload : String) : MeantFor (contosoOrder payload) contosoDevice :=
  ⟨rfl, rfl, rfl⟩

theorem toolLaw_asciiPayload :
    ToolLaw lenientTools contosoDevice (contosoOrder "<PermissionsPacket></PermissionsPacket>") emptyCertificate := by
  refine (toolLaw_iff ⟨by decide, by decide, by decide⟩ (by decide) (meantFor_contosoDevice _) emptyCertificate).mpr ?_
  exact ⟨⟨by decide +kernel, by decide +kernel, by decide +kernel, by decide +kernel⟩, by decide, by decide⟩

/-- A payload with one umlaut: its last byte is taken for the start of the signature. -/
theorem toolLaw_umlaut : (initializePacket contosoDevice .permissions
        (.ok ((contosoOrder "<Comment>Büro im dritten Stock</Comment>").bytes emptyCertificate.bytes))).decodeStatus =
      .badBufferSize ∧
    ¬ ToolLaw lenientTools contosoDevice (contosoOrder "<Comment>Büro im dritten Stock</Comment>") emptyCertificate := by
  have refused : (initializePacket contosoDevice .permissions
      (.ok ((contosoOrder "<Comment>Büro im dritten Stock</Comment>").bytes emptyCertificate.bytes))).decodeStatus =
      .badBufferSize := by
    decide +kernel
  refine ⟨refused, ?_⟩
  intro law
  obtain ⟨object, builds, _, _, bytes, written, writes, decodes⟩ := law
  obtain rfl := Except.ok.inj ((build_eq (by decide)).symm.trans builds)
  have fits : (contosoOrder "<Comment>Büro im dritten Stock</Comment>").Fits := ⟨by decide, by decide, by decide⟩
  obtain ⟨rfl, rfl⟩ := Prod.mk.inj (Except.ok.inj ((write_filled fits (some emptyCertificate.bytes)).symm.trans writes))
  have accepted := decodes.accepted
  rw [Option.getD_some, refused] at accepted
  cases accepted

end Dfci.PacketTool
