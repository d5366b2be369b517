import Dfci.Platform
import Mathlib.Data.Fintype.Basic
import Mathlib.Data.List.FinRange

/-! # The certificate store and its variable -/

namespace Dfci

open ByteFields

/-- `INTERNAL_CERT_DETAILS` -/
structure CertDetails where
  cert : Option (List Byte)
  certSize : Nat
  deriving DecidableEq

def CertDetails.empty : CertDetails := ⟨none, 0⟩

/-- `INTERNAL_CERT_STORE`, with its seven certificates. -/
@[ext]
structure CertStore where
  version : Nat
  lsv : Nat
  populatedIdentities : Mask
  certs : Fin 7 → CertDetails
  deriving DecidableEq

def certZtdIndex : Fin 7 := 4
def certOwnerIndex : Fin 7 := 3

/-- `DfciIdentityToCertIndex` -/
def Identity.toCertIndex : Identity → Option (Fin 7)
  | .signerUser => some 0
  | .signerUser1 => some 1
  | .signerUser2 => some 2
  | .signerOwner => some certOwnerIndex
  | .signerZtd => some certZtdIndex
  | _ => none

/-- `CertIndexToDfciIdentity` -/
def certIndexToDfciIdentity (i : Fin 7) : Option Identity :=
  match i with
  | 0 => some .signerUser
  | 1 => some .signerUser1
  | 2 => some .signerUser2
  | 3 => some .signerOwner
  | 4 => some .signerZtd
  | _ => none

namespace CertStore

/-- `mInternalCertStore` as the driver is loaded. -/
def initial : CertStore where
  version := 0
  lsv := 0
  populatedIdentities := Identity.local.bit
  certs := fun _ => .empty

def setCert (store : CertStore) (i : Fin 7) (details : CertDetails) : CertStore :=
  { store with certs := Function.update store.certs i details }

def populate (store : CertStore) (i : Fin 7) : CertStore :=
  match certIndexToDfciIdentity i with
  | none => store
  | some identity => { store with populatedIdentities := store.populatedIdentities ||| identity.bit }

/-- `FreeCertStore`: all but the ZTD certificate. -/
def freeCertStore (store : CertStore) : CertStore :=
  { store with certs := fun i => if i = certZtdIndex then store.certs i else .empty }

/-! ## The variable

Signature (8 bytes), header version (1), `MaxCerts` (1), the sizes of the certificates (2 each), and in
version 2 `Version` (4) and `Lsv` (4), then the certificates. -/

def internalVarSignature : Nat := 0x56435049

def packedCert (details : CertDetails) : List Byte :=
  match details.cert with
  | none => []
  | some cert => cert.take details.certSize

def packedCerts (certs : Fin 7 → CertDetails) (indices : List (Fin 7)) : List Byte :=
  indices.flatMap fun i => packedCert (certs i)

def certSizes (certs : Fin 7 → CertDetails) (indices : List (Fin 7)) : List Byte :=
  indices.flatMap fun i => littleEndian 2 (certs i).certSize

/-- The variable that `SaveProvisionedData` writes. -/
def encode (store : CertStore) : List Byte :=
  littleEndian 8 internalVarSignature ++ ([2, 7] ++ (certSizes store.certs (List.finRange 7) ++
    (littleEndian 4 store.version ++ (littleEndian 4 store.lsv ++ packedCerts store.certs (List.finRange 7)))))

def saveProvisionedData (p : Platform) (flash : Option Variable) (store : CertStore) :
    EfiStatus × Option Variable :=
  match p.setVariable .certificateStore store.encode with
  | .success => (.success, some ⟨internalVarAttributes, store.encode⟩)
  | .error code => (.error code, flash)

def sizeField (data : List Byte) (i : Fin 7) : Nat :=
  fieldAt data (10 + 2 * i.val) 2

def packedBeforeZtd (data : List Byte) : Nat :=
  (([0, 1, 2, 3] : List (Fin 7)).map (sizeField data)).sum

/-- The certificate loop of `LoadProvisionedData`, with the rest of the variable it has not read. -/
def loadCerts (data : List Byte) : List (Fin 7) → Nat → Nat → CertStore → EfiStatus × CertStore
  | [], _, _, store => (.success, store)
  | i :: indices, bytePtr, varSize, store =>
    let size := sizeField data i
    if size = 0 then
      loadCerts data indices bytePtr varSize (store.setCert i .empty)
    else if varSize < size then
      (.compromisedData, store.setCert i ⟨none, size⟩)
    else
      loadCerts data indices (bytePtr + size) (varSize - size)
        ((store.setCert i ⟨some (sliceAt data bytePtr size), size⟩).populate i)

def isUserKeyIndex (i : Fin 7) : Bool :=
  match certIndexToDfciIdentity i with
  | none => false
  | some identity => Mask.userKeys.has identity

/-- The last check of `LoadProvisionedData`: no user key without an Owner key. -/
def checkOwner (store : CertStore) : EfiStatus × CertStore :=
  if store.populatedIdentities &&& Mask.userKeys ≠ 0 ∧ !store.populatedIdentities.has .signerOwner then
    let dropped := fun i => isUserKeyIndex i && (store.certs i).cert.isSome
    let versions := if (List.finRange 7).any dropped then (0, 0) else (store.version, store.lsv)
    (.protocolError, { store with
      version := versions.1
      lsv := versions.2
      -- the sizes of the dropped certificates stay behind
      certs := fun i => if dropped i then ⟨none, (store.certs i).certSize⟩ else store.certs i })
  else
    (.success, store)

structure VarLayout where
  indices : List (Fin 7)
  packedAt : Nat

def layoutV1 : VarLayout := ⟨[0, 1, 2, 3], 18⟩
def layoutV2 : VarLayout := ⟨List.finRange 7, 32⟩

/-- The signature is in the variable; the header version is, unless the signature is wrong; and the struct of a known
header version is. -/
def StructWithin (data : List Byte) : Prop :=
  8 ≤ data.length ∧ (fieldAt data 0 8 = internalVarSignature →
    9 ≤ data.length ∧ (byteAt data 8 = 1 → layoutV1.packedAt ≤ data.length) ∧
      (byteAt data 8 = 2 → layoutV2.packedAt ≤ data.length))

instance (data : List Byte) : Decidable (StructWithin data) :=
  inferInstanceAs (Decidable (_ ∧ (_ → _)))

/-- The load of a header version, for a variable that holds its struct. In a shorter one the source's `VarSize` wraps
and it reads on behind the variable; here nothing is left to read. -/
def loadLayout (data : List Byte) (layout : VarLayout) (store : CertStore) : EfiStatus × CertStore :=
  if (byteAt data 9).toNat ≠ layout.indices.length then
    (.unsupported, store)
  else
    match loadCerts data layout.indices layout.packedAt (data.length - layout.packedAt) store with
    | (.success, loaded) => checkOwner loaded
    | (.error code, loaded) => (.error code, loaded)

/-- `LoadProvisionedData`: loads over what is in memory, and leaves there what an error interrupted. -/
def loadProvisionedData (flash : Option Variable) (store : CertStore) : EfiStatus × CertStore :=
  match flash with
  | none => (.notFound, store)
  | some var =>
    if var.attributes ≠ internalVarAttributes then
      (.compromisedData, store)
    else if fieldAt var.data 0 8 ≠ internalVarSignature then
      (.compromisedData, store)
    else
      match byteAt var.data 8 with
      | 1 => loadLayout var.data layoutV1 { store with version := 0, lsv := 0 }
      | 2 => loadLayout var.data layoutV2 { store with version := fieldAt var.data 24 4, lsv := fieldAt var.data 28 4 }
      | _ => (.incompatibleVersion, store)

/-- `InitializeProvisionedData` -/
def initializeProvisionedData (p : Platform) (flash : Option Variable) (store : CertStore) :
    EfiStatus × CertStore × Option Variable :=
  let deleted := if (p.deleteVariable .certificateStore).isError then flash else none
  let freed := store.freeCertStore
  let populated :=
    if (freed.certs certZtdIndex).certSize ≠ 0 then Identity.local.bit ||| Identity.signerZtd.bit else Identity.local.bit
  let cleared := { freed with populatedIdentities := populated }
  let (status, flash) := saveProvisionedData p deleted cleared
  (status, cleared, flash)

/-- `PopulateInternalCertStore` -/
def populateInternalCertStore (p : Platform) (flash : Option Variable) (store : CertStore) :
    EfiStatus × CertStore × Option Variable :=
  match loadProvisionedData flash store with
  | (.success, loaded) => (.success, loaded, flash)
  | (.error code, loaded) =>
    let freed := loaded.freeCertStore
    -- TransitionOldInternalVar supports no version and changes nothing
    let (store, flash) :=
      if EfiStatus.error code = .incompatibleVersion then (freed, flash)
      else (initializeProvisionedData p flash freed).2
    let (status, reloaded) := loadProvisionedData flash store
    (status, reloaded, flash)

/-- `GetProvisionedCertDataAndSize`, for the certificate of a key. -/
def provisionedCert (store : CertStore) (identity : Identity) : Option (List Byte) :=
  if store.populatedIdentities.has identity then
    identity.toCertIndex.bind fun i => (store.certs i).cert
  else
    none

end CertStore

end Dfci
