import Dfci.Support.ByteFields
import Dfci.Support.CString

namespace Dfci

/-! # Status codes, character strings, identities and permission masks -/

abbrev Byte := BitVec 8

/-- `EFI_STATUS`: success, or an error with its code (the high bit is left out). -/
inductive EfiStatus where
  | success
  | error (code : Nat)
  deriving DecidableEq, Repr

namespace EfiStatus

@[match_pattern] abbrev invalidParameter : EfiStatus := .error 2
@[match_pattern] abbrev unsupported : EfiStatus := .error 3
@[match_pattern] abbrev badBufferSize : EfiStatus := .error 4
@[match_pattern] abbrev bufferTooSmall : EfiStatus := .error 5
@[match_pattern] abbrev notReady : EfiStatus := .error 6
@[match_pattern] abbrev deviceError : EfiStatus := .error 7
@[match_pattern] abbrev outOfResources : EfiStatus := .error 9
@[match_pattern] abbrev mediaChanged : EfiStatus := .error 13
@[match_pattern] abbrev notFound : EfiStatus := .error 14
@[match_pattern] abbrev accessDenied : EfiStatus := .error 15
@[match_pattern] abbrev noMapping : EfiStatus := .error 17
@[match_pattern] abbrev alreadyStarted : EfiStatus := .error 20
@[match_pattern] abbrev aborted : EfiStatus := .error 21
@[match_pattern] abbrev protocolError : EfiStatus := .error 24
@[match_pattern] abbrev incompatibleVersion : EfiStatus := .error 25
@[match_pattern] abbrev securityViolation : EfiStatus := .error 26
@[match_pattern] abbrev crcError : EfiStatus := .error 27
@[match_pattern] abbrev compromisedData : EfiStatus := .error 33

/-- `EFI_ERROR` -/
def isError : EfiStatus → Bool
  | .success => false
  | .error _ => true

@[simp] theorem isError_success : isError .success = false := rfl

@[simp] theorem isError_error (code : Nat) : isError (.error code) = true := rfl

@[simp] theorem isError_eq_false {status : EfiStatus} : status.isError = false ↔ status = .success := by
  cases status <;> simp

end EfiStatus

/-- A null-terminated `CHAR8` string, without its terminator. -/
structure AsciiString where
  chars : List Byte
  noNul : (0 : Byte) ∉ chars
  deriving DecidableEq

namespace AsciiString

@[ext] theorem ext {first second : AsciiString} (same : first.chars = second.chars) : first = second := by
  cases first
  cases second
  cases same
  rfl

/-- The string that starts at the first of `memory`'s bytes. -/
def ofMemory (memory : List Byte) : AsciiString where
  chars := memory.takeWhile (· ≠ 0)
  noNul := fun found => by simpa using List.all_eq_true.mp (List.all_takeWhile) _ found

def ofString (text : String) : AsciiString :=
  ofMemory (text.toList.map fun char => BitVec.ofNat 8 char.toNat)

instance : Inhabited AsciiString := ⟨⟨[], by simp⟩⟩

def toMemory (string : AsciiString) : List Byte :=
  string.chars ++ [0]

@[simp] theorem length_toMemory (string : AsciiString) : string.toMemory.length = string.chars.length + 1 := by
  simp [toMemory]

theorem ofMemory_toMemory_append (string : AsciiString) (rest : List Byte) :
    ofMemory (string.toMemory ++ rest) = string := by
  apply AsciiString.ext
  have plain : ∀ char ∈ string.chars, decide (char ≠ 0) = true := by
    intro char mem
    exact decide_eq_true (fun isNul => string.noNul (isNul ▸ mem))
  change (string.toMemory ++ rest).takeWhile (fun char => decide (char ≠ 0)) = string.chars
  rw [toMemory, List.append_assoc, List.takeWhile_append_of_pos plain]
  simp

theorem holds_toMemory (string : AsciiString) : CString.Holds string.toMemory string.chars where
  plain _ mem isNul := string.noNul (isNul ▸ mem)
  stored := List.prefix_refl _

/-- `AsciiStrnSizeS`: the size in bytes with the terminator, or `maxSize + 1` when there is no
terminator within `maxSize` characters. -/
def strnSizeS (string : AsciiString) (maxSize : Nat) : Nat :=
  min string.chars.length maxSize + 1

def isDigit (char : Byte) : Bool :=
  0x30 ≤ char && char ≤ 0x39

/-- The test `(Id[0] >= '0') && (Id[0] <= '9')`. -/
def startsWithDigit (string : AsciiString) : Bool :=
  (string.chars.head?.map isDigit).getD false

def maxUintn : Nat := 2 ^ 64 - 1

/-- One digit of `AsciiStrDecimalToUintn`, which stays at `MAX_UINTN` once the value overflows. -/
def decimalStep (value : Nat) (digit : Byte) : Nat :=
  min (value * 10 + (digit.toNat - 0x30)) maxUintn

/-- `AsciiStrDecimalToUintn`: skip blanks, then read digits up to the first other character. -/
def decimalToUintn (string : AsciiString) : Nat :=
  ((string.chars.dropWhile fun char => char = 0x20 || char = 0x09).takeWhile isDigit).foldl decimalStep 0

end AsciiString

abbrev SettingId := AsciiString

def maxIdSize : Nat := 97

/-- `DFCI_IDENTITY_ID`, the values that stand for somebody. -/
inductive Identity where
  | local
  | unsignedLocal
  | signerZtd
  | signerUser2
  | signerUser1
  | signerUser
  | signerOwner
  deriving DecidableEq, Repr

/-- `DFCI_PERMISSION_MASK` -/
abbrev Mask := BitVec 8

def Identity.bit : Identity → Mask
  | .local => 0x01
  | .unsignedLocal => 0x02
  | .signerZtd => 0x08
  | .signerUser2 => 0x10
  | .signerUser1 => 0x20
  | .signerUser => 0x40
  | .signerOwner => 0x80

namespace Mask

def none : Mask := 0
def all : Mask := 0xF9
def users : Mask := 0xF0
def keys : Mask := 0xF8
def userKeys : Mask := 0x70
def default : Mask := 0x01
def defaultUnsigned : Mask := 0x03
def delegatedDefault : Mask := 0x80
def notSpecified : Mask := 0xFE

/-- The test `(mask & identity) != 0`. -/
def has (mask : Mask) (identity : Identity) : Bool :=
  mask &&& identity.bit ≠ 0

/-- `HIGHEST_IDENTITY`, for a mask with at least one user bit. -/
def highestIdentity (mask : Mask) : Mask :=
  BitVec.ofNat 8 (2 ^ (mask &&& users).toNat.log2)

/-- The mask has a user bit and the highest of them is the identity's. -/
def highestUserIs (mask : Mask) (identity : Identity) : Bool :=
  mask &&& users ≠ 0 && identity.bit &&& highestIdentity mask ≠ 0

@[simp] theorem none_has (identity : Identity) : none.has identity = false := by
  cases identity <;> rfl

theorem or_and_eq_zero {first second mask : Mask} :
    (first ||| second) &&& mask = 0 ↔ first &&& mask = 0 ∧ second &&& mask = 0 := by
  rw [BitVec.and_comm, BitVec.and_or_distrib_left, BitVec.and_comm first, BitVec.and_comm second]
  exact BitVec.or_eq_zero_iff

theorem has_or (first second : Mask) (identity : Identity) :
    has (first ||| second) identity = (has first identity || has second identity) := by
  simp only [has, ne_eq, decide_not, or_and_eq_zero, Bool.decide_and, Bool.not_and]

theorem has_of_highestUserIs {mask : Mask} {identity : Identity}
    (highest : highestUserIs mask identity = true) : has mask identity = true := by
  have exhaustive : ∀ mask : Mask, highestUserIs mask identity = true → has mask identity = true := by
    cases identity <;> decide +kernel
  exact exhaustive mask highest

end Mask

/-- `EFI_TIME`, as its sixteen bytes. -/
@[ext]
structure EfiTime where
  raw : List Byte
  size : raw.length = 16
  deriving DecidableEq

def EfiTime.zero : EfiTime := ⟨List.replicate 16 0, by simp⟩

instance : Inhabited EfiTime := ⟨.zero⟩

open ByteFields

def timeAt (data : List Byte) (offset : Nat) : EfiTime :=
  ⟨(sliceAt data offset 16 ++ List.replicate 16 0).take 16, by simp⟩

theorem timeAt_append {before after : List Byte} {offset : Nat} (skipped : before.length = offset) (time : EfiTime) :
    timeAt (before ++ (time.raw ++ after)) offset = time := by
  have slice : sliceAt (before ++ (time.raw ++ after)) offset 16 = time.raw := by
    rw [sliceAt_append_right (by omega), ← skipped, Nat.sub_self, sliceAt_zero_append time.size]
  apply EfiTime.ext
  change (sliceAt (before ++ (time.raw ++ after)) offset 16 ++ List.replicate 16 0).take 16 = time.raw
  rw [slice, List.take_append_of_le_length (by simp [time.size]), List.take_of_length_le (by simp [time.size])]

/-! The versions of a new store are zero. -/

theorem newVersion_lt : 0 < 2 ^ 32 := Nat.two_pow_pos 32

theorem newLsv_le : 0 ≤ 0 := Nat.le_refl 0

end Dfci
