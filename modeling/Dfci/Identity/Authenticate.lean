import Dfci.Identity.Certificates
import Dfci.Identity.Tokens

/-! # Authentication by signature -/

namespace Dfci

open ByteFields

/-- The fields of a `WIN_CERTIFICATE_UEFI_GUID`; `CertData` follows its first 24 bytes. -/
def winCertLength (signature : List Byte) : Nat := fieldAt signature 0 4
def winCertRevision (signature : List Byte) : Nat := fieldAt signature 4 2
def winCertType (signature : List Byte) : Nat := fieldAt signature 6 2
def winCertGuid (signature : List Byte) : List Byte := sliceAt signature 8 16

def winCertTypeEfiGuid : Nat := 0x0EF1

/-- `gEfiCertPkcs7Guid` -/
def efiCertPkcs7Guid : List Byte :=
  [0x9D, 0xD2, 0xAF, 0x4A, 0xDF, 0x68, 0xEE, 0x49, 0x8A, 0xA9, 0x34, 0x7D, 0x37, 0x56, 0x65, 0xA7]

def verifySignature (p : Platform) (signedData signature trustedCert : List Byte) : EfiStatus :=
  if signedData.length < 1 ∨ trustedCert.length < 1 then
    .invalidParameter
  else if winCertLength signature ≤ 8 then
    .invalidParameter
  else if winCertRevision signature ≠ 0x200 then
    .unsupported
  else if winCertType signature ≠ winCertTypeEfiGuid then
    .unsupported
  else if winCertLength signature ≤ 24 then
    .invalidParameter
  else if winCertGuid signature ≠ efiCertPkcs7Guid then
    .unsupported
  else if p.pkcs7Verify (sliceAt signature 24 (winCertLength signature - 24)) trustedCert signedData then
    .success
  else
    .securityViolation

/-- The identity whose certificate verifies a signature, in the order in which the keys are tried. -/
def signerOf (p : Platform) (certs : CertStore) (signedData signature : List Byte) : Option Identity :=
  [Identity.signerZtd, .signerOwner, .signerUser, .signerUser1, .signerUser2].find? fun identity =>
    match certs.provisionedCert identity with
    | none => false
    | some cert => !(verifySignature p signedData signature cert).isError

/-- `AuthWithSignedData`: the token in the caller's buffer changes on success only. -/
def authWithSignedData (p : Platform) (certs : CertStore) (auth : AuthState) (signedData signature : List Byte)
    (token : AuthToken) : EfiStatus × AuthToken × AuthState :=
  if signedData.length < 1 then
    (.invalidParameter, token, auth)
  else if certs.populatedIdentities &&& Mask.keys = 0 then
    (.notReady, token, auth)
  else
    match signerOf p certs signedData signature with
    | none => (.securityViolation, token, auth)
    | some identity =>
      let (random, auth) := auth.createAuthTokenWithMapping p identity
      if random = authTokenInvalid then (.deviceError, token, auth) else (.success, random, auth)

/-- A packet is authenticated in the name of its signer, by a token that stands for the signer. -/
theorem authWithSignedData_success {p : Platform} {certs : CertStore} {auth after : AuthState}
    {signedData signature : List Byte} {token random : AuthToken}
    (authenticates : authWithSignedData p certs auth signedData signature token = (.success, random, after)) :
    ∃ identity, signerOf p certs signedData signature = some identity ∧
      after.getIdentityProperties random = .ok identity := by
  rw [authWithSignedData] at authenticates
  split at authenticates
  · cases authenticates
  · split at authenticates
    · cases authenticates
    · split at authenticates
      · cases authenticates
      · rename_i identity signs
        simp only at authenticates
        split at authenticates
        · cases authenticates
        · rename_i valid
          cases authenticates
          exact ⟨identity, signs, AuthState.createAuthTokenWithMapping_stands rfl valid⟩

end Dfci
