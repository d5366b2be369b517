import Mathlib.Data.List.TakeWhile
import Dfci.Identity.Revocation
import Dfci.System.Recovery

/-! # The challenge in memory

`GetRecoveryChallenge` returns a buffer of its own, with the identifiers of the system in the last 104 bytes. The pointer
is set before the identifiers are added, and an identifier that cannot be added is an error of the call. -/

namespace Dfci

open CString

/-- `sizeof (DFCI_RECOVERY_CHALLENGE)`: the serial number, the time stamp and the nonce. -/
def challengeHeaderSize : Nat := 8 + 16 + 64

/-- `PcdMaximumAsciiStringLength` -/
def maximumAsciiStringLength : Nat := 1000000

/-- `AsciiStrnCatS` of an identifier, without its null, to `MultiString`. -/
def multiStringCat (buffer element : List Byte) : Option (EfiStatus × List Byte) :=
  if maximumAsciiStringLength < element.length - 1 then
    some (.invalidParameter, buffer)
  else
    (strnCat multiStringMaxSize (buffer.drop challengeHeaderSize) element (element.length - 1)).map fun
      | .error .badBufferSize => (.badBufferSize, buffer)
      | .error .bufferTooSmall => (.bufferTooSmall, buffer)
      | .ok area => (.success, buffer.take challengeHeaderSize ++ area)

def addElement (made : EfiStatus × List Byte) (element : Except EfiStatus (List Byte)) :
    Option (EfiStatus × List Byte) :=
  if made.1.isError then
    some made
  else
    match element with
    | .error status => some (status, made.2)
    | .ok element => multiStringCat made.2 element

/-- What a call leaves: the status, what `*Challenge` points to, and `*ChallengeSize` if it is set. -/
structure ChallengeCall where
  status : EfiStatus
  challenge : Option (List Byte)
  challengeSize : Option Nat
  deriving DecidableEq

/-- `GetRecoveryChallenge`, in the memory that it allocated. -/
def getRecoveryChallengeInPool (p : Platform) (svc : RecoveryServices) (pool : List Byte) :
    Option ChallengeCall := do
  let buffer ← write pool 0 (ByteFields.littleEndian 8 0)
  let buffer ← write buffer 8 p.getTime.raw
  if p.getTimeStatus.isError then
    return ⟨p.getTimeStatus, none, none⟩
  match getRandomValue svc.nonce with
  | .error status => return ⟨status, none, none⟩
  | .ok nonce =>
    let buffer ← write buffer 24 nonce.val
    let buffer ← write buffer challengeHeaderSize [0]
    let (status, buffer) ←
      [p.serialNumber, p.productName, p.manufacturer].foldlM addElement (.success, buffer)
    let length ← scan (buffer.drop challengeHeaderSize) multiStringMaxSize
    return ⟨status, some buffer, some (challengeHeaderSize + (length + 1))⟩

/-! ## The identifiers -/

/-- What `DfciIdSupportGetSerialNumber` and the like answer, for a string of the device. -/
def reported : Except Nat AsciiString → Except EfiStatus (List Byte)
  | .error code => .error (.error code)
  | .ok text => .ok text.toMemory

def identification : List (Except Nat AsciiString) → Option (List Byte)
  | [] => some []
  | .error _ :: _ => none
  | .ok text :: elements => (identification elements).map fun others => text.chars ++ others

theorem identification_cons {element : Except Nat AsciiString} {elements : List (Except Nat AsciiString)}
    {all : List Byte} : identification (element :: elements) = some all ↔
      ∃ own others, identification [element] = some own ∧ identification elements = some others ∧ all = own ++ others := by
  cases element with
  | error => simp [identification]
  | ok text =>
    simp only [identification, Option.map_some, List.append_nil, Option.map_eq_some_iff, Option.some.injEq]
    constructor
    · rintro ⟨others, isOthers, rfl⟩
      exact ⟨_, others, rfl, isOthers, rfl⟩
    · rintro ⟨_, others, rfl, isOthers, rfl⟩
      exact ⟨others, isOthers, rfl⟩

structure Making (header : List Byte) (buffer text : List Byte) : Prop where
  header : buffer.take challengeHeaderSize = header
  size : buffer.length = challengeHeaderSize + multiStringMaxSize
  holds : Holds (buffer.drop challengeHeaderSize) text
  short : text.length < multiStringMaxSize

/-- What an identifier does to the buffer: it is appended, or there is no room for it. -/
theorem Making.cat {header buffer text : List Byte} (making : Making header buffer text) (element : AsciiString) :
    (text.length + element.chars.length < multiStringMaxSize ∧ ∃ written,
      multiStringCat buffer element.toMemory = some (.success, written) ∧ Making header written (text ++ element.chars)) ∨
    (multiStringMaxSize ≤ text.length + element.chars.length ∧ ∃ code,
      multiStringCat buffer element.toMemory = some (.error code, buffer)) := by
  have length : element.toMemory.length - 1 = element.chars.length := by simp
  have area : (buffer.drop challengeHeaderSize).length = multiStringMaxSize := by simp [making.size]
  rw [multiStringCat, length]
  by_cases long : maximumAsciiStringLength < element.chars.length
  · rw [if_pos long]
    refine .inr ⟨?_, _, rfl⟩
    simp only [multiStringMaxSize, maximumAsciiStringLength] at long ⊢
    omega
  · rw [if_neg long]
    rcases strnCat_eq making.holds element.holds_toMemory making.short area.ge with
      ⟨fits, written, appended, holds, size⟩ | ⟨tooLong, refused⟩
    · refine .inl ⟨fits, _, by rw [appended]; rfl, ?_⟩
      have prefixSize : (buffer.take challengeHeaderSize).length = challengeHeaderSize := by simp [making.size]
      constructor
      case header => rw [List.take_left' prefixSize, making.header]
      case size => rw [List.length_append, prefixSize, size, area]
      case holds =>
        rw [List.drop_left' prefixSize]
        exact holds
      case short => rwa [List.length_append]
    · exact .inr ⟨tooLong, _, by rw [refused]; rfl⟩

theorem foldlM_addElement_error (elements : List (Except EfiStatus (List Byte))) (code : Nat) (buffer : List Byte) :
    elements.foldlM addElement (.error code, buffer) = some (.error code, buffer) := by
  induction elements with
  | nil => rfl
  | cons element elements ih =>
    rw [List.foldlM_cons]
    exact ih

/-- The identifiers are added one after the other. The call succeeds exactly when they all are there and fit. -/
theorem Making.addElements {header buffer text : List Byte} (making : Making header buffer text)
    (elements : List (Except Nat AsciiString)) :
    ∃ status written kept, (elements.map reported).foldlM addElement (.success, buffer) = some (status, written) ∧
      Making header written kept ∧
      ((status = .success ∧ ∃ all, identification elements = some all ∧ kept = text ++ all) ∨ (status.isError = true ∧
          ∀ all, identification elements = some all → multiStringMaxSize ≤ text.length + all.length)) := by
  induction elements generalizing buffer text with
  | nil => exact ⟨_, _, text, rfl, making, .inl ⟨rfl, [], rfl, (List.append_nil text).symm⟩⟩
  | cons element elements ih =>
    rw [List.map_cons, List.foldlM_cons]
    cases element with
    | error code =>
      -- the identifier is not there, and the others are not asked for
      refine ⟨_, _, text, foldlM_addElement_error _ code buffer, making, .inr ⟨rfl, fun all complete => ?_⟩⟩
      cases complete
    | ok element =>
      have added : addElement (.success, buffer) (reported (.ok element)) = multiStringCat buffer element.toMemory := rfl
      rw [added]
      rcases making.cat element with ⟨fits, written, appended, more⟩ | ⟨tooLong, code, refused⟩
      · rw [appended]
        obtain ⟨status, final, kept, folded, made, outcome⟩ := ih more
        refine ⟨status, final, kept, folded, made, ?_⟩
        rcases outcome with ⟨succeeds, all, complete, is⟩ | ⟨fails, tooLong⟩
        · refine .inl ⟨succeeds, element.chars ++ all, ?_, ?_⟩
          · rw [identification, complete]
            rfl
          · rw [is, List.append_assoc]
        · refine .inr ⟨fails, fun all complete => ?_⟩
          obtain ⟨others, othersComplete, rfl⟩ := Option.map_eq_some_iff.mp complete
          have bound := tooLong others othersComplete
          rw [List.length_append] at bound ⊢
          omega
      · rw [refused]
        refine ⟨_, _, text, foldlM_addElement_error _ code buffer, making, .inr ⟨rfl, fun all complete => ?_⟩⟩
        obtain ⟨others, _, rfl⟩ := Option.map_eq_some_iff.mp complete
        rw [List.length_append]
        omega

/-! ## The call -/

/-- The bytes before `MultiString`. -/
def challengeHeader (p : Platform) (nonce : ChallengeNonce) : List Byte :=
  ByteFields.littleEndian 8 0 ++ p.getTime.raw ++ nonce.val

theorem length_challengeHeader (p : Platform) (nonce : ChallengeNonce) :
    (challengeHeader p nonce).length = challengeHeaderSize := by
  simp [challengeHeader, p.getTime.size, nonce.property, challengeHeaderSize]

section

variable {p : Platform} {svc : RecoveryServices} {pool : List Byte}
  (allocated : pool.length = challengeHeaderSize + multiStringMaxSize)
include allocated

theorem write_serialNumber :
    write pool 0 (ByteFields.littleEndian 8 0) = some (ByteFields.littleEndian 8 0 ++ pool.drop 8) := by
  have room : (ByteFields.littleEndian 8 0).length ≤ pool.length := by
    simp [allocated, challengeHeaderSize]
    omega
  have written : write ([] ++ pool) 0 (ByteFields.littleEndian 8 0) = some _ := write_next rfl room
  simpa using written

theorem write_timestamp (time : EfiTime) : write (ByteFields.littleEndian 8 0 ++ pool.drop 8) 8 time.raw =
      some (ByteFields.littleEndian 8 0 ++ time.raw ++ pool.drop 24) := by
  have room : time.raw.length ≤ (pool.drop 8).length := by
    simp [allocated, time.size, challengeHeaderSize, multiStringMaxSize]
  rw [write_next (ByteFields.length_littleEndian 8 0) room, time.size, List.drop_drop]

theorem write_nonce (nonce : ChallengeNonce) :
    write (ByteFields.littleEndian 8 0 ++ p.getTime.raw ++ pool.drop 24) 24 nonce.val =
      some (challengeHeader p nonce ++ pool.drop 88) := by
  have reached : (ByteFields.littleEndian 8 0 ++ p.getTime.raw).length = 24 := by
    simp [p.getTime.size]
  have room : nonce.val.length ≤ (pool.drop 24).length := by
    simp [allocated, nonce.property, challengeHeaderSize, multiStringMaxSize]
  rw [write_next reached room, nonce.property, List.drop_drop, challengeHeader]

/-- The string is empty at first. -/
theorem write_multiString (p : Platform) (nonce : ChallengeNonce) :
    ∃ buffer, write (challengeHeader p nonce ++ pool.drop 88) challengeHeaderSize [0] = some buffer ∧
      Making (challengeHeader p nonce) buffer [] := by
  have reached := length_challengeHeader p nonce
  have room : [(0 : Byte)].length ≤ (pool.drop 88).length := by
    simp [allocated, challengeHeaderSize, multiStringMaxSize]
  refine ⟨_, write_next reached room, ?_⟩
  rw [List.append_assoc]
  constructor
  case header => rw [List.take_left' reached]
  case size => simp [reached, allocated, challengeHeaderSize, multiStringMaxSize]
  case holds =>
    rw [List.drop_left' reached]
    exact ⟨List.forall_mem_nil _, List.prefix_append _ _⟩
  case short => exact Nat.succ_pos _

/-- The call once there is a time stamp and a nonce: whatever becomes of the identifiers, the pointer is set. -/
theorem getRecoveryChallengeInPool_made (timed : p.getTimeStatus.isError = false) {nonce : ChallengeNonce}
    (random : getRandomValue svc.nonce = .ok nonce) {serial product manufacturer : Except Nat AsciiString}
    (isSerial : p.serialNumber = reported serial) (isProduct : p.productName = reported product)
    (isManufacturer : p.manufacturer = reported manufacturer) :
    ∃ status buffer text, getRecoveryChallengeInPool p svc pool =
        some ⟨status, some buffer, some (challengeHeaderSize + (text.length + 1))⟩ ∧
      Making (challengeHeader p nonce) buffer text ∧
      ((status = .success ∧ identification [serial, product, manufacturer] = some text) ∨ (status.isError = true ∧
          ∀ all, identification [serial, product, manufacturer] = some all → multiStringMaxSize ≤ all.length)) := by
  obtain ⟨empty, emptied, making⟩ := write_multiString allocated p nonce
  obtain ⟨status, buffer, text, added, made, outcome⟩ := making.addElements [serial, product, manufacturer]
  have scanned : scan (buffer.drop challengeHeaderSize) multiStringMaxSize = some text.length := by
    rw [made.holds.scan, Nat.min_eq_left (Nat.le_of_lt made.short)]
  refine ⟨status, buffer, text, ?_, made, ?_⟩
  · simp only [List.map_cons, List.map_nil, ← isSerial, ← isProduct, ← isManufacturer] at added
    simp only [getRecoveryChallengeInPool, write_serialNumber allocated, write_timestamp allocated, timed, random,
      write_nonce allocated, emptied, added, scanned, Option.bind_eq_bind, Option.bind_some, Option.pure_def,
      Bool.false_eq_true, if_false]
  · simpa using outcome

end

structure ChallengeLaw (p : Platform) (svc : RecoveryServices) (elements : List (Except Nat AsciiString))
    (pool : List Byte) : Prop where
  /-- Nothing outside the challenge is touched. -/
  inside : (getRecoveryChallengeInPool p svc pool).isSome = true
  made : ∀ nonce all, p.getTimeStatus = .success → getRandomValue svc.nonce = .ok nonce →
    identification elements = some all →
    ∃ buffer text, getRecoveryChallengeInPool p svc pool =
        some ⟨.success, some buffer, some (challengeHeaderSize + (text.length + 1))⟩ ∧
      Holds (buffer.drop challengeHeaderSize) text ∧ text <+: all
  null : ∀ call, getRecoveryChallengeInPool p svc pool = some call → call.status.isError = true →
    call.challenge = none

/-- There is a challenge for a device, and no pointer with an error, exactly when the time or the nonce cannot be had or
the device reports all identifiers and they fit in the 104 bytes with their null. -/
theorem challengeLaw_iff {p : Platform} {svc : RecoveryServices} {pool : List Byte}
    (allocated : pool.length = challengeHeaderSize + multiStringMaxSize)
    {serial product manufacturer : Except Nat AsciiString} (isSerial : p.serialNumber = reported serial)
    (isProduct : p.productName = reported product) (isManufacturer : p.manufacturer = reported manufacturer) :
    ChallengeLaw p svc [serial, product, manufacturer] pool ↔
      p.getTimeStatus.isError = true ∨ (∃ status, getRandomValue svc.nonce = .error status) ∨
        ∃ all, identification [serial, product, manufacturer] = some all ∧ all.length < multiStringMaxSize := by
  by_cases timed : p.getTimeStatus.isError = true
  · -- no pointer is set
    have is : getRecoveryChallengeInPool p svc pool = some ⟨p.getTimeStatus, none, none⟩ := by
      simp only [getRecoveryChallengeInPool, write_serialNumber allocated, write_timestamp allocated, timed,
        Option.bind_eq_bind, Option.bind_some, Option.pure_def, if_true]
    refine iff_of_true ⟨by rw [is]; rfl, fun nonce all succeeds => ?_, fun call isCall _ => ?_⟩ (.inl timed)
    · rw [succeeds] at timed
      cases timed
    · rw [is] at isCall
      cases isCall
      rfl
  · have timed : p.getTimeStatus.isError = false := Bool.eq_false_iff.mpr timed
    cases random : getRandomValue svc.nonce with
    | error status =>
      have is : getRecoveryChallengeInPool p svc pool = some ⟨status, none, none⟩ := by
        simp only [getRecoveryChallengeInPool, write_serialNumber allocated, write_timestamp allocated, timed, random,
          Option.bind_eq_bind, Option.bind_some, Option.pure_def, Bool.false_eq_true, if_false]
      refine iff_of_true ⟨by rw [is]; rfl, fun nonce all _ drawn => ?_, fun call isCall _ => ?_⟩ (.inr (.inl ⟨status, rfl⟩))
      · rw [random] at drawn
        cases drawn
      · rw [is] at isCall
        cases isCall
        rfl
    | ok nonce =>
      obtain ⟨status, buffer, text, is, made, outcome⟩ :=
        getRecoveryChallengeInPool_made allocated timed random isSerial isProduct isManufacturer
      rcases outcome with ⟨rfl, complete⟩ | ⟨fails, tooLong⟩
      · refine iff_of_true ⟨by rw [is]; rfl, fun _ all _ _ isAll => ?_, fun call isCall failed => ?_⟩
          (.inr (.inr ⟨text, complete, made.short⟩))
        · cases complete.symm.trans isAll
          exact ⟨buffer, text, is, made.holds, List.prefix_refl _⟩
        · rw [is] at isCall
          cases isCall
          cases failed
      · refine iff_of_false (fun law => ?_) ?_
        · cases law.null _ is fails
        · rintro (failed | ⟨_, failed⟩ | ⟨all, complete, short⟩)
          · rw [timed] at failed
            cases failed
          · cases failed
          · exact absurd (tooLong all complete) (Nat.not_le.mpr short)

def deviceNumbered (serial : AsciiString) : Platform where
  serialNumber := .ok serial.toMemory
  productName := .ok (AsciiString.ofString "Tablet").toMemory
  manufacturer := .ok (AsciiString.ofString "Maker").toMemory

def steadyServices : RecoveryServices where
  nonce := .ok [.ok ⟨List.replicate 64 1, by simp⟩]
  seed := .ok [.ok []]
  pkcs1v2Encrypt := fun cert challenge _ => some (cert ++ challenge.nonce.val ++ challenge.multiString)

def freshPool : List Byte := List.replicate 192 0xAF

theorem challengeLaw_shortSerial : ChallengeLaw (deviceNumbered (.ofString "0042")) steadyServices
      [.ok (.ofString "0042"), .ok (.ofString "Tablet"), .ok (.ofString "Maker")] freshPool := by
  refine (challengeLaw_iff List.length_replicate rfl rfl rfl).mpr (.inr (.inr ⟨_, rfl, ?_⟩))
  decide

def longSerial : AsciiString where
  chars := List.replicate 93 0x30
  noNul := by simp

/-- The manufacturer is left out, which the caller sees as an error with a challenge. -/
theorem challenge_with_error : ¬ ChallengeLaw (deviceNumbered longSerial) steadyServices
      [.ok longSerial, .ok (.ofString "Tablet"), .ok (.ofString "Maker")] freshPool := by
  have evaluated : (getRecoveryChallengeInPool (deviceNumbered longSerial) steadyServices freshPool).all
      (fun call => call.status = .bufferTooSmall && call.challenge.isSome) = true ∧
      (getRecoveryChallengeInPool (deviceNumbered longSerial) steadyServices freshPool).isSome = true := by
    decide +kernel
  intro law
  obtain ⟨call, is⟩ := Option.isSome_iff_exists.mp evaluated.2
  have both := evaluated.1
  rw [is, Option.all_some, Bool.and_eq_true, decide_eq_true_eq] at both
  have null := law.null call is (by rw [both.1]; rfl)
  rw [null] at both
  exact Bool.false_ne_true both.2

/-! ## The challenge of the recovery session -/

/-- `DFCI_RECOVERY_CHALLENGE` with its string, as it is encrypted. -/
def RecoveryChallenge.bytes (challenge : RecoveryChallenge) : List Byte :=
  ByteFields.littleEndian 8 0 ++ challenge.timestamp.raw ++ challenge.nonce.val ++ (challenge.multiString ++ [0])

theorem appendElement_reported {text kept : List Byte} {element : Except Nat AsciiString} :
    appendElement text (reported element) = .ok kept ↔
      ∃ all, identification [element] = some all ∧ kept = text ++ all ∧ text.length + all.length < multiStringMaxSize := by
  cases element with
  | error code =>
    constructor
    · intro appended
      cases appended
    · rintro ⟨all, complete, _⟩
      cases complete
  | ok element =>
    have plain : element.chars.takeWhile (fun char => decide (char ≠ 0)) = element.chars :=
      List.takeWhile_eq_self_iff.mpr fun char mem => decide_eq_true (element.holds_toMemory.plain char mem)
    have isText : element.toMemory.dropLast.takeWhile (fun char => decide (char ≠ 0)) = element.chars := by
      rw [AsciiString.toMemory, List.dropLast_concat, plain]
    simp only [appendElement, reported, Fallible.bind_eq_ok, Except.ok.injEq, exists_eq_left', isText,
      Fallible.ite_throw_eq_ok, identification, Option.map_some, List.append_nil, Option.some.injEq]
    constructor
    · rintro ⟨room, rfl⟩
      exact ⟨rfl, by omega⟩
    · rintro ⟨rfl, room⟩
      exact ⟨by omega, rfl⟩

theorem foldlM_appendElement (elements : List (Except Nat AsciiString)) {text kept : List Byte}
    (short : text.length < multiStringMaxSize) : (elements.map reported).foldlM appendElement text = .ok kept ↔
      ∃ all, identification elements = some all ∧ kept = text ++ all ∧ text.length + all.length < multiStringMaxSize := by
  induction elements generalizing text with
  | nil =>
    constructor
    · intro same
      cases same
      exact ⟨[], rfl, (List.append_nil _).symm, short⟩
    · rintro ⟨all, complete, rfl, _⟩
      cases complete
      rw [List.append_nil]
      rfl
  | cons element elements ih =>
    rw [List.map_cons, List.foldlM_cons, Fallible.bind_eq_ok]
    constructor
    · rintro ⟨next, appended, folded⟩
      obtain ⟨own, isOwn, rfl, room⟩ := appendElement_reported.mp appended
      obtain ⟨others, isOthers, rfl, fits⟩ := (ih (by rwa [List.length_append])).mp folded
      refine ⟨own ++ others, ?_, List.append_assoc .., ?_⟩
      · exact identification_cons.mpr ⟨own, others, isOwn, isOthers, rfl⟩
      · rw [List.length_append] at fits ⊢
        omega
    · rintro ⟨all, complete, rfl, fits⟩
      obtain ⟨own, others, isOwn, isOthers, rfl⟩ := identification_cons.mp complete
      rw [List.length_append] at fits
      refine ⟨text ++ own, appendElement_reported.mpr ⟨own, isOwn, rfl, by omega⟩, ?_⟩
      refine (ih (by rw [List.length_append]; omega)).mpr ⟨others, isOthers, ?_, ?_⟩
      · rw [List.append_assoc]
      · rw [List.length_append]
        omega

section

variable {p : Platform} {svc : RecoveryServices} {serial product manufacturer : Except Nat AsciiString}
  (isSerial : p.serialNumber = reported serial) (isProduct : p.productName = reported product)
  (isManufacturer : p.manufacturer = reported manufacturer)
include isSerial isProduct isManufacturer

theorem getRecoveryChallenge_eq_ok {challenge : RecoveryChallenge} : getRecoveryChallenge p svc = .ok challenge ↔
      p.getTimeStatus.isError = false ∧ ∃ nonce all, getRandomValue svc.nonce = .ok nonce ∧
        identification [serial, product, manufacturer] = some all ∧ all.length < multiStringMaxSize ∧
        challenge = ⟨p.getTime, nonce, all⟩ := by
  have folded : ∀ kept, ([serial, product, manufacturer].map reported).foldlM appendElement [] = .ok kept ↔ _ :=
    fun kept => foldlM_appendElement [serial, product, manufacturer] (Nat.succ_pos _)
  simp only [List.map_cons, List.map_nil, List.foldlM_cons, List.foldlM_nil, Fallible.bind_eq_ok, ← isSerial, ← isProduct,
    ← isManufacturer, List.nil_append, List.length_nil, Nat.zero_add] at folded
  simp only [getRecoveryChallenge, Fallible.ite_throw_eq_ok, Fallible.bind_eq_ok]
  constructor
  · rintro ⟨timed, nonce, random, first, isFirst, second, isSecond, all, isAll, made⟩
    obtain ⟨_, complete, rfl, short⟩ := (folded all).mp ⟨first, isFirst, second, isSecond, all, isAll, rfl⟩
    exact ⟨Bool.eq_false_iff.mpr timed, nonce, all, random, complete, short, (Except.ok.inj made).symm⟩
  · rintro ⟨timed, nonce, all, random, complete, short, rfl⟩
    obtain ⟨first, isFirst, second, isSecond, third, isThird, same⟩ := (folded all).mpr ⟨all, complete, rfl, short⟩
    refine ⟨Bool.eq_false_iff.mp timed, nonce, random, first, isFirst, second, isSecond, third, isThird, ?_⟩
    rw [Except.ok.inj same]

/-- A challenge of the recovery session is the one in memory, whole. -/
theorem getRecoveryChallenge_inPool {pool : List Byte}
    (allocated : pool.length = challengeHeaderSize + multiStringMaxSize) {challenge : RecoveryChallenge} :
    getRecoveryChallenge p svc = .ok challenge → ∃ buffer, getRecoveryChallengeInPool p svc pool =
        some ⟨.success, some buffer, some challenge.bytes.length⟩ ∧ challenge.bytes <+: buffer := by
  intro made
  obtain ⟨timed, nonce, all, random, complete, short, rfl⟩ :=
    (getRecoveryChallenge_eq_ok isSerial isProduct isManufacturer).mp made
  obtain ⟨status, buffer, text, is, making, outcome⟩ :=
    getRecoveryChallengeInPool_made allocated timed random isSerial isProduct isManufacturer
  rcases outcome with ⟨rfl, isText⟩ | ⟨_, tooLong⟩
  · cases isText.symm.trans complete
    have header := length_challengeHeader p nonce
    have isBytes : (RecoveryChallenge.mk p.getTime nonce all).bytes =
        challengeHeader p nonce ++ (all ++ [0]) := rfl
    refine ⟨buffer, ?_, ?_⟩
    · rw [is, isBytes, List.length_append, header, List.length_append]
      rfl
    · obtain ⟨rest, isArea⟩ := making.holds.stored
      refine ⟨rest, ?_⟩
      rw [isBytes, List.append_assoc, isArea, ← making.header, List.take_append_drop]
  · exact absurd (tooLong all complete) (Nat.not_le.mpr short)

/-- Identifiers that do not fit leave the key without a packet. -/
theorem getRecoveryPacket_blocked {all : List Byte} (complete : identification [serial, product, manufacturer] = some all)
    (tooLong : multiStringMaxSize ≤ all.length) (identity : Mask) (state : RecoveryState) :
    ∀ packet, (state.getRecoveryPacket p svc identity).1 ≠ .ok packet := by
  intro packet issued
  have noChallenge : ∀ challenge, getRecoveryChallenge p svc ≠ .ok challenge := by
    intro challenge made
    obtain ⟨_, _, _, _, complete', short, _⟩ := (getRecoveryChallenge_eq_ok isSerial isProduct isManufacturer).mp made
    cases complete.symm.trans complete'
    exact absurd tooLong (Nat.not_le.mpr short)
  have effect := RecoveryState.getRecoveryPacket_effect p svc identity state
  cases result : state.getRecoveryPacket p svc identity with
  | mk answer after =>
    rw [result] at effect issued
    cases effect with
    | refused => cases issued
    | issued _ challenge _ _ challenges _ => exact noChallenge challenge challenges

end

theorem getRecoveryChallenge_shortSerial :
    ∃ challenge, getRecoveryChallenge (deviceNumbered (.ofString "0042")) steadyServices = .ok challenge ∧
      ∃ buffer, getRecoveryChallengeInPool (deviceNumbered (.ofString "0042")) steadyServices freshPool =
        some ⟨.success, some buffer, some challenge.bytes.length⟩ ∧ challenge.bytes <+: buffer :=
  ⟨_, rfl, @getRecoveryChallenge_inPool _ _ (.ok (.ofString "0042")) (.ok (.ofString "Tablet")) (.ok (.ofString "Maker"))
    rfl rfl rfl _ List.length_replicate _ rfl⟩

/-- Zero Touch has enrolled an Owner, and has the right to recover the device. -/
def recoverableMachine : Machine :=
  (applyNewIdentityPacket keyedPlatform decliningUser (enrolledMachine keyedPlatform [(.signerZtd, 9)])
    (initializePacket keyedPlatform .identity (.ok (enrollPacket 1 1 9))).data).machine

/-- The same request gets its packet where the serial number is short. -/
theorem getRecoveryPacket_longSerial :
    ((RecoveryState.loaded recoverableMachine).getRecoveryPacket (deviceNumbered (.ofString "0042")) steadyServices
      Identity.signerZtd.bit).1.toOption.isSome = true ∧
    ((RecoveryState.loaded recoverableMachine).getRecoveryPacket (deviceNumbered longSerial) steadyServices
      Identity.signerZtd.bit).1.toOption = none := by
  refine ⟨by decide +kernel, Option.eq_none_iff_forall_ne_some.mpr fun packet issued => ?_⟩
  exact @getRecoveryPacket_blocked _ _ (.ok longSerial) (.ok (.ofString "Tablet")) (.ok (.ofString "Maker")) rfl rfl rfl
    _ rfl (by decide) _ _ packet (Fallible.toOption_eq_some.mp issued)

end Dfci
