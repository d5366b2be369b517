import Dfci.Identity.CertFlash

/-! # What loading the certificates reads

`LoadProvisionedData` looks at the header of `_IPCVN` through a pointer to a struct and walks over the packed
certificates, with `VarSize` for what is left of them. Here its accesses are checked and `VarSize` is the `UINTN` it is:
there is no answer where a byte outside the variable is read, and an answer says whether `VarSize` wrapped. -/

namespace Dfci

open ByteFields

namespace CertStore

/-- `VarSize`, and whether more was ever taken from it than it had. -/
structure Remaining where
  varSize : BitVec 64
  wrapped : Bool
  deriving DecidableEq

def Remaining.start (data : List Byte) : Remaining :=
  ⟨BitVec.ofNat 64 data.length, false⟩

/-- `VarSize -= size` -/
def Remaining.subtract (remaining : Remaining) (size : Nat) : Remaining :=
  ⟨remaining.varSize - BitVec.ofNat 64 size, remaining.wrapped || decide (remaining.varSize.toNat < size)⟩

/-- The certificate loop. `CertSizes` is read for every certificate, the certificate only if `VarSize` is enough. -/
def loadCertsAccess (data : List Byte) : List (Fin 7) → Nat → Remaining → CertStore →
    Option (Remaining × EfiStatus × CertStore)
  | [], _, remaining, store => some (remaining, .success, store)
  | i :: indices, bytePtr, remaining, store => do
    let size ← loadField data (10 + 2 * i.val) 2
    if size = 0 then
      loadCertsAccess data indices bytePtr remaining (store.setCert i .empty)
    else if remaining.varSize.toNat < size then
      return (remaining, .compromisedData, store.setCert i ⟨none, size⟩)
    else
      let cert ← load data bytePtr size
      loadCertsAccess data indices (bytePtr + size) (remaining.subtract size)
        ((store.setCert i ⟨some cert, size⟩).populate i)

/-- From the check of `MaxCerts` on. -/
def loadLayoutAccess (data : List Byte) (layout : VarLayout) (remaining : Remaining) (store : CertStore) :
    Option (Remaining × EfiStatus × CertStore) := do
  let _ ← load data 9 1
  if (byteAt data 9).toNat ≠ layout.indices.length then
    return (remaining, .unsupported, store)
  let (remaining, status, loaded) ← loadCertsAccess data layout.indices layout.packedAt remaining store
  match status with
  | .success => return (remaining, checkOwner loaded)
  | .error code => return (remaining, .error code, loaded)

/-- `LoadProvisionedData` for a variable with the right attributes. The struct of either version ends where its
certificates start, and its size is taken from `VarSize` before anything else is looked at. -/
def loadProvisionedDataAccess (data : List Byte) (store : CertStore) : Option (Remaining × EfiStatus × CertStore) := do
  let signature ← loadField data 0 8
  if signature ≠ internalVarSignature then
    return (.start data, .compromisedData, store)
  let _ ← load data 8 1
  match byteAt data 8 with
  | 1 =>
    loadLayoutAccess data layoutV1 ((Remaining.start data).subtract layoutV1.packedAt) { store with version := 0, lsv := 0 }
  | 2 =>
    let remaining := (Remaining.start data).subtract layoutV2.packedAt
    let version ← loadField data 24 4
    let lsv ← loadField data 28 4
    loadLayoutAccess data layoutV2 remaining { store with version := version, lsv := lsv }
  | _ => return (.start data, .incompatibleVersion, store)

/-! ## `VarSize` -/

section

variable {remaining : Remaining}

@[simp] theorem Remaining.wrapped_subtract (size : Nat) :
    (remaining.subtract size).wrapped = (remaining.wrapped || decide (remaining.varSize.toNat < size)) := rfl

theorem Remaining.toNat_start {data : List Byte} (sized : data.length < 2 ^ 64) :
    (Remaining.start data).varSize.toNat = data.length :=
  Nat.mod_eq_of_lt sized

theorem Remaining.toNat_subtract {size : Nat} (enough : size ≤ remaining.varSize.toNat) :
    (remaining.subtract size).varSize.toNat = remaining.varSize.toNat - size := by
  have bound := remaining.varSize.isLt
  have isSize : (BitVec.ofNat 64 size).toNat = size := Nat.mod_eq_of_lt (by omega)
  rw [subtract, BitVec.toNat_sub_of_le (by rw [BitVec.le_def, isSize]; exact enough), isSize]

end

/-- The counter is what lies behind the pointer, and did not wrap on the way. -/
structure Remaining.Tracks (remaining : Remaining) (data : List Byte) (bytePtr : Nat) : Prop where
  left : bytePtr + remaining.varSize.toNat = data.length
  straight : remaining.wrapped = false

theorem Remaining.Tracks.subtract {remaining : Remaining} {data : List Byte} {bytePtr size : Nat}
    (tracks : remaining.Tracks data bytePtr) (enough : size ≤ remaining.varSize.toNat) :
    (remaining.subtract size).Tracks data (bytePtr + size) := by
  have left := tracks.left
  refine ⟨?_, ?_⟩
  · rw [toNat_subtract enough]
    omega
  · simp [tracks.straight, enough]

theorem Remaining.Tracks.start {data : List Byte} (sized : data.length < 2 ^ 64) : (Remaining.start data).Tracks data 0 :=
  ⟨by rw [toNat_start sized, Nat.zero_add], rfl⟩

/-! ## The loop -/

section

variable {data : List Byte}

/-- As long as the counter tracks the pointer, every certificate that is copied is in the variable. -/
theorem loadCertsAccess_tracks {indices : List (Fin 7)}
    (sizes : ∀ i ∈ indices, 10 + 2 * i.val + 2 ≤ data.length) {bytePtr : Nat} {remaining : Remaining}
    (tracks : remaining.Tracks data bytePtr) (store : CertStore) :
    ∃ rest : Remaining, rest.wrapped = false ∧ loadCertsAccess data indices bytePtr remaining store =
      some (rest, loadCerts data indices bytePtr remaining.varSize.toNat store) := by
  induction indices generalizing bytePtr remaining store with
  | nil => exact ⟨remaining, tracks.straight, rfl⟩
  | cons i indices ih =>
    obtain ⟨sizeIn, sizes⟩ := List.forall_mem_cons.mp sizes
    have isSize : loadField data (10 + 2 * i.val) 2 = some (sizeField data i) := loadField_inside sizeIn
    simp only [loadCertsAccess, loadCerts, isSize, Option.bind_eq_bind, Option.bind_some, Option.pure_def]
    by_cases empty : sizeField data i = 0
    · simp only [if_pos empty]
      exact ih sizes tracks _
    · by_cases short : remaining.varSize.toNat < sizeField data i
      · simp only [if_neg empty, if_pos short]
        exact ⟨remaining, tracks.straight, rfl⟩
      · have enough := Nat.not_lt.mp short
        -- the test against the counter is a test against the end of the variable
        have inside : bytePtr + sizeField data i ≤ data.length := by
          have left := tracks.left
          omega
        simp only [if_neg empty, if_neg short, load_inside inside, Option.bind_some]
        rw [← Remaining.toNat_subtract enough]
        exact ih sizes (tracks.subtract enough) _

/-- What wrapped stays wrapped. -/
theorem loadCertsAccess_wrapped {indices : List (Fin 7)} {bytePtr : Nat} {remaining rest : Remaining}
    {store : CertStore} {answer : EfiStatus × CertStore} (wraps : remaining.wrapped = true)
    (loads : loadCertsAccess data indices bytePtr remaining store = some (rest, answer)) : rest.wrapped = true := by
  induction indices generalizing bytePtr remaining store with
  | nil =>
    cases loads
    exact wraps
  | cons i indices ih =>
    obtain ⟨size, _, loads⟩ := Option.bind_eq_some_iff.mp loads
    split at loads
    · exact ih wraps loads
    · split at loads
      · cases loads
        exact wraps
      · obtain ⟨cert, _, loads⟩ := Option.bind_eq_some_iff.mp loads
        exact ih (by simp [wraps]) loads

def VarLayout.Sized (layout : VarLayout) : Prop :=
  ∀ i ∈ layout.indices, 10 + 2 * i.val + 2 ≤ layout.packedAt

theorem layoutV1_sized : layoutV1.Sized := by
  unfold VarLayout.Sized
  decide

theorem layoutV2_sized : layoutV2.Sized := by
  unfold VarLayout.Sized
  decide

theorem loadLayoutAccess_tracks {layout : VarLayout} (sized : layout.Sized) (room : 10 ≤ layout.packedAt)
    {remaining : Remaining} (tracks : remaining.Tracks data layout.packedAt) (store : CertStore) :
    ∃ rest : Remaining, rest.wrapped = false ∧
      loadLayoutAccess data layout remaining store = some (rest, loadLayout data layout store) := by
  have left := tracks.left
  have maxCertsIn : 9 + 1 ≤ data.length := by omega
  have isLeft : data.length - layout.packedAt = remaining.varSize.toNat := by omega
  simp only [loadLayoutAccess, loadLayout, load_inside maxCertsIn, Option.bind_eq_bind, Option.bind_some,
    Option.pure_def, isLeft]
  by_cases other : (byteAt data 9).toNat ≠ layout.indices.length
  · rw [if_pos other, if_pos other]
    exact ⟨remaining, tracks.straight, rfl⟩
  · have sizes : ∀ i ∈ layout.indices, 10 + 2 * i.val + 2 ≤ data.length := by
      intro i mem
      have before := sized i mem
      omega
    obtain ⟨rest, straight, loads⟩ := loadCertsAccess_tracks sizes tracks store
    rw [if_neg other, if_neg other, loads]
    refine ⟨rest, straight, ?_⟩
    generalize loadCerts data layout.indices layout.packedAt remaining.varSize.toNat store = answer
    obtain ⟨status, loaded⟩ := answer
    cases status <;> rfl

theorem loadLayoutAccess_wrapped {layout : VarLayout} {remaining rest : Remaining} {store : CertStore}
    {answer : EfiStatus × CertStore} (wraps : remaining.wrapped = true)
    (loads : loadLayoutAccess data layout remaining store = some (rest, answer)) : rest.wrapped = true := by
  obtain ⟨maxCerts, _, loads⟩ := Option.bind_eq_some_iff.mp loads
  split at loads
  · cases loads
    exact wraps
  · obtain ⟨⟨last, status, loaded⟩, loop, loads⟩ := Option.bind_eq_some_iff.mp loads
    have lastWrapped := loadCertsAccess_wrapped wraps loop
    cases status <;> cases loads <;> exact lastWrapped

end

/-! ## The law -/

structure CertLoadLaw (data : List Byte) (store : CertStore) : Prop where
  inside : (loadProvisionedDataAccess data store).isSome = true
  straight : ∀ rest answer, loadProvisionedDataAccess data store = some (rest, answer) → rest.wrapped = false

section

variable {data : List Byte} (sized : data.length < 2 ^ 64) (store : CertStore)
include sized

/-- The counter after the size of a struct that is in the variable was taken from it. -/
theorem Remaining.tracks_struct {layout : VarLayout} (fits : layout.packedAt ≤ data.length) :
    ((Remaining.start data).subtract layout.packedAt).Tracks data layout.packedAt := by
  have enough : layout.packedAt ≤ (Remaining.start data).varSize.toNat := by
    rw [Remaining.toNat_start sized]
    exact fits
  have tracks := (Remaining.Tracks.start sized).subtract enough
  rwa [Nat.zero_add] at tracks

theorem Remaining.wrapped_struct {layout : VarLayout} (short : ¬ layout.packedAt ≤ data.length) :
    ((Remaining.start data).subtract layout.packedAt).wrapped = true := by
  rw [Remaining.wrapped_subtract, Remaining.toNat_start sized]
  simp [Nat.not_le.mp short]

/-- Where its accesses are inside, the loading is the one of the model. -/
theorem loadProvisionedDataAccess_within (within : StructWithin data) :
    ∃ rest : Remaining, rest.wrapped = false ∧ loadProvisionedDataAccess data store =
      some (rest, loadProvisionedData (some ⟨internalVarAttributes, data⟩) store) := by
  obtain ⟨signatureIn, rest⟩ := within
  have isSignature : loadField data 0 8 = some (fieldAt data 0 8) := loadField_inside (by omega)
  simp only [loadProvisionedDataAccess, loadProvisionedData, isSignature, Option.bind_eq_bind, Option.bind_some,
    Option.pure_def, ne_eq, not_true_eq_false, if_false]
  by_cases signed : fieldAt data 0 8 = internalVarSignature
  · obtain ⟨versionIn, first, second⟩ := rest signed
    rw [if_neg (not_not.mpr signed), if_neg (not_not.mpr signed), load_inside versionIn, Option.bind_some]
    by_cases one : byteAt data 8 = 1
    · simp only [one]
      exact loadLayoutAccess_tracks layoutV1_sized (by decide) (Remaining.tracks_struct sized (first one)) _
    by_cases two : byteAt data 8 = 2
    · have fits : 32 ≤ data.length := second two
      have versionIn : 24 + 4 ≤ data.length := by omega
      have lsvIn : 28 + 4 ≤ data.length := by omega
      simp only [two, loadField_inside versionIn, loadField_inside lsvIn, Option.bind_some]
      exact loadLayoutAccess_tracks layoutV2_sized (by decide) (Remaining.tracks_struct sized fits) _
    · refine ⟨.start data, rfl, ?_⟩
      -- the signature is a number that contradiction would evaluate
      clear sized signed
      repeat' split
      all_goals first | contradiction | rfl
  · rw [if_pos signed, if_pos signed]
    exact ⟨.start data, rfl, rfl⟩

/-- A struct that is not in the variable is read outside of it, or `VarSize` wraps. -/
theorem loadProvisionedDataAccess_outside (outside : ¬ StructWithin data) {rest : Remaining}
    {answer : EfiStatus × CertStore} (loads : loadProvisionedDataAccess data store = some (rest, answer)) :
    rest.wrapped = true := by
  obtain ⟨signature, isSignature, loads⟩ := Option.bind_eq_some_iff.mp loads
  obtain ⟨signatureIn, rfl⟩ := loadField_eq_some.mp isSignature
  by_cases signed : fieldAt data 0 8 = internalVarSignature
  · rw [if_neg (not_not.mpr signed)] at loads
    obtain ⟨_, isVersion, loads⟩ := Option.bind_eq_some_iff.mp loads
    have versionIn := (load_eq_some.mp isVersion).1
    split at loads
    · rename_i one
      refine loadLayoutAccess_wrapped (Remaining.wrapped_struct sized fun fits => outside ?_) loads
      refine ⟨signatureIn, fun _ => ⟨versionIn, fun _ => fits, fun two => ?_⟩⟩
      cases one.symm.trans two
    · rename_i two
      -- here the last field of the struct is read before anything can stop
      obtain ⟨_, _, loads⟩ := Option.bind_eq_some_iff.mp loads
      obtain ⟨_, isLsv, _⟩ := Option.bind_eq_some_iff.mp loads
      have fits := (loadField_eq_some.mp isLsv).1
      refine absurd ⟨signatureIn, fun _ => ⟨versionIn, fun one => ?_, fun _ => fits⟩⟩ outside
      cases one.symm.trans two
    · rename_i notOne notTwo
      exact absurd ⟨signatureIn, fun _ => ⟨versionIn, fun one => absurd one notOne, fun two => absurd two notTwo⟩⟩ outside
  · exact absurd ⟨signatureIn, fun same => absurd same signed⟩ outside

/-- The loading stays in the variable, and `VarSize` above zero, exactly when the struct of its header version is there. -/
theorem certLoadLaw_iff : CertLoadLaw data store ↔ StructWithin data := by
  constructor
  · intro law
    obtain ⟨⟨rest, answer⟩, loads⟩ := Option.isSome_iff_exists.mp law.inside
    by_contra outside
    have wraps := loadProvisionedDataAccess_outside sized store outside loads
    rw [law.straight rest answer loads] at wraps
    cases wraps
  · intro within
    obtain ⟨rest, straight, loads⟩ := loadProvisionedDataAccess_within sized store within
    refine ⟨by rw [loads]; rfl, fun other answer isOther => ?_⟩
    rw [loads] at isOther
    cases isOther
    exact straight

end

/-- The store of a machine that was never provisioned, as it is saved. -/
theorem certLoadLaw_initial : CertLoadLaw CertStore.initial.encode .initial :=
  (certLoadLaw_iff (by decide +kernel) .initial).mpr (by decide +kernel)

/-- One byte, which is less than a signature; a header of the first version that ends behind `MaxCerts`, of which no byte
too many is read and yet `VarSize` wraps; the same one with the right `MaxCerts`, where the wrapped `VarSize` lets the
first certificate be copied from behind the variable; and a header of the second version that ends before its `Lsv`. -/
theorem certLoadLaw_broken : ¬ CertLoadLaw [0x49] .initial ∧
      ¬ CertLoadLaw (littleEndian 8 internalVarSignature ++ [1, 7]) .initial ∧
      ¬ CertLoadLaw (littleEndian 8 internalVarSignature ++ [1, 4, 200, 0]) .initial ∧
      ¬ CertLoadLaw (littleEndian 8 internalVarSignature ++ [2, 7] ++ List.replicate 18 0) .initial := by
  have tiny : loadProvisionedDataAccess [0x49] .initial = none := by decide +kernel
  have short : loadProvisionedDataAccess (littleEndian 8 internalVarSignature ++ [1, 7]) .initial =
      some (⟨BitVec.ofInt 64 (-8), true⟩, .unsupported, .initial) := by decide +kernel
  have copied : loadProvisionedDataAccess (littleEndian 8 internalVarSignature ++ [1, 4, 200, 0]) .initial = none := by
    decide +kernel
  have cut : loadProvisionedDataAccess (littleEndian 8 internalVarSignature ++ [2, 7] ++ List.replicate 18 0) .initial =
      none := by decide +kernel
  refine ⟨fun law => ?_, fun law => ?_, fun law => ?_, fun law => ?_⟩
  · have inside := law.inside
    rw [tiny] at inside
    cases inside
  · cases law.straight _ _ short
  · have inside := law.inside
    rw [copied] at inside
    cases inside
  · have inside := law.inside
    rw [cut] at inside
    cases inside

/-! ## What is saved can be loaded -/

/-- Every variable that `SaveProvisionedData` writes has its whole struct. -/
theorem structWithin_encode (store : CertStore) : StructWithin store.encode := by
  have size : 32 ≤ store.encode.length := by
    simp only [encode, List.length_append, length_littleEndian, length_certSizes, List.length_cons, List.length_nil]
    omega
  refine ⟨by omega, fun _ => ⟨by omega, fun one => ?_, fun _ => size⟩⟩
  rw [byteAt_encode_headerVersion] at one
  cases one

end CertStore

end Dfci
