import Dfci.Identity.Tokens
import Dfci.Support.Runs

/-! # The password store and the view of it

`AuthWithPW` asks `PasswordStoreLib` once in a boot whether a password is set. Meanwhile the password provider changes
the store. -/

namespace Dfci

/-- `PasswordStoreLib`, with what the library keeps as its state. -/
structure PasswordStoreLib (Store : Type) where
  isPasswordSet : Store → Bool
  authenticatePassword : Store → Password → Bool
  /-- `PasswordStoreSetPassword`, which also takes the hash that deletes the password. -/
  setPassword : List Byte → Store → EfiStatus × Store

namespace PasswordStoreLib

variable {Store : Type} (lib : PasswordStoreLib Store)

/-- `DFCI_OEM_SETTING_ID__PASSWORD` -/
def passwordId : SettingId := .ofString "Device.Password.Password"

/-- `PasswordSet`, with whether it asks for a reboot. -/
def passwordSet (id : SettingId) (value : List Byte) (store : Store) : EfiStatus × Bool × Store :=
  if id ≠ passwordId then
    (.unsupported, false, store)
  else
    let (status, store) := lib.setPassword value store
    (status, !status.isError, store)

/-- `PasswordSetDefault`. A password is not deleted by a reset. -/
def passwordSetDefault (id : SettingId) : EfiStatus :=
  if id ≠ passwordId then .unsupported else .accessDenied

def platformAt (p : Platform) (store : Store) : Platform :=
  { p with
    passwordStoreIsPasswordSet := lib.isPasswordSet store
    passwordStoreAuthenticatePassword := lib.authenticatePassword store }

end PasswordStoreLib

structure PasswordView (Store : Type) where
  auth : AuthState
  store : Store

inductive PasswordEvent where
  | authWithPW (password : PasswordArgument) (passwordLength : Nat)
  | passwordSet (value : List Byte)
  | passwordSetDefault

namespace PasswordView

variable {Store : Type} (lib : PasswordStoreLib Store) (p : Platform)

def step (view : PasswordView Store) : PasswordEvent → PasswordView Store
  | .authWithPW password passwordLength =>
    { view with auth := (view.auth.authWithPW (lib.platformAt p view.store) password passwordLength).2.2 }
  | .passwordSet value => { view with store := (lib.passwordSet PasswordStoreLib.passwordId value view.store).2.2 }
  -- mPasswordProvider refuses to go back to a default
  | .passwordSetDefault => view

/-- A token that a call of `AuthWithPW` issues is one the password store is for at that moment. -/
def TokenDeserved (view : PasswordView Store) : PasswordEvent → Prop
  | .authWithPW password passwordLength =>
    let answer := view.auth.authWithPW (lib.platformAt p view.store) password passwordLength
    answer.2.1 ≠ authTokenInvalid →
      match password with
      | .null | .noPasswordUnsigned => lib.isPasswordSet view.store = false
      | .buffer text => lib.authenticatePassword view.store text = true
  | _ => True

/-- The provider does not set a first password once `AuthWithPW` has found none. -/
def NotSetLate (view : PasswordView Store) : PasswordEvent → Prop
  | .passwordSet value => view.auth.adminPasswordSet = some false →
      lib.isPasswordSet (lib.passwordSet PasswordStoreLib.passwordId value view.store).2.2 = false
  | _ => True

def UpToDate (view : PasswordView Store) : Prop :=
  view.auth.adminPasswordSet = some false → lib.isPasswordSet view.store = false

variable {lib p}

theorem authWithPW_adminPasswordSet (auth : AuthState) (password : PasswordArgument) (passwordLength : Nat) :
    (auth.authWithPW p password passwordLength).2.2.adminPasswordSet =
      some (auth.adminPasswordSet.getD p.passwordStoreIsPasswordSet) := by
  simp only [AuthState.authWithPW]
  split
  · rename_i approved
    generalize (if password = .noPasswordUnsigned then Identity.unsignedLocal else .local) = identity
    rcases AuthState.createAuthTokenWithMapping_cases p
      { auth with adminPasswordSet := some (auth.adminPasswordSet.getD p.passwordStoreIsPasswordSet) } identity with
      fails | ⟨token, valid, _, _, works⟩
    · simp [fails]
    · simp [works, valid]
  · rfl

theorem authWithPW_approves {auth : AuthState} {password : PasswordArgument} {passwordLength : Nat}
    (issues : (auth.authWithPW p password passwordLength).2.1 ≠ authTokenInvalid) :
    AuthState.approves p (auth.adminPasswordSet.getD p.passwordStoreIsPasswordSet) passwordLength password =
      true := by
  by_contra refused
  simp only [AuthState.authWithPW, if_neg refused] at issues
  exact issues rfl

theorem UpToDate.unset {view : PasswordView Store} (upToDate : view.UpToDate lib)
    (none : view.auth.adminPasswordSet.getD (lib.isPasswordSet view.store) = false) :
    lib.isPasswordSet view.store = false := by
  cases known : view.auth.adminPasswordSet with
  | none => simpa [known] using none
  | some isSet =>
    rw [known, Option.getD_some] at none
    exact upToDate (by rw [known, none])

theorem UpToDate.step {view : PasswordView Store} {event : PasswordEvent} (upToDate : view.UpToDate lib)
    (notLate : view.NotSetLate lib event) : (view.step lib p event).UpToDate lib := by
  cases event with
  | authWithPW password passwordLength =>
    intro none
    simp only [PasswordView.step, authWithPW_adminPasswordSet, Option.some.injEq] at none ⊢
    exact upToDate.unset none
  | passwordSet value => exact notLate
  | passwordSetDefault => exact upToDate

theorem UpToDate.deserved {view : PasswordView Store} (upToDate : view.UpToDate lib) (event : PasswordEvent) :
    view.TokenDeserved lib p event := by
  cases event with
  | authWithPW password passwordLength =>
    intro issues
    have approved := authWithPW_approves issues
    cases password with
    | null | noPasswordUnsigned =>
      simp only [AuthState.approves, Bool.and_eq_true, Bool.not_eq_true'] at approved
      exact upToDate.unset approved.1
    | buffer text =>
      simp only [AuthState.approves, Bool.and_eq_true] at approved
      exact approved.2
  | passwordSet value | passwordSetDefault => trivial

/-- From the start of a boot, whatever the password store holds then. -/
theorem tokens_deserved (draws : Nat) (store : Store) {events : List PasswordEvent}
    (notLate : Runs.Guarded (step lib p) (NotSetLate lib) ⟨.loaded draws, store⟩ events) :
    Runs.Guarded (step lib p) (TokenDeserved lib p) ⟨.loaded draws, store⟩ events := by
  have initially : UpToDate lib ⟨.loaded draws, store⟩ := (by rintro ⟨⟩)
  exact notLate.shows (step lib p) (fun _ _ upToDate notLate => upToDate.step notLate)
    (fun _ event upToDate _ => upToDate.deserved event) initially

def byteLib : PasswordStoreLib (Option Byte) where
  isPasswordSet := Option.isSome
  authenticatePassword := fun store text => text = store.toList.map (BitVec.setWidth 16)
  setPassword := fun value _ => (.success, value.head?)

/-- A password that is set before it is asked for. -/
theorem tokens_deserved_byteLib :
    let events := [PasswordEvent.passwordSet [1], .authWithPW (.buffer [1]) 1, .passwordSet [2], .authWithPW (.buffer [2]) 1]
    Runs.Guarded (step byteLib {}) (TokenDeserved byteLib {}) ⟨.loaded 0, none⟩ events :=
  tokens_deserved 0 none ⟨nofun, trivial, nofun, trivial, trivial⟩

/-- The local user was authenticated once before the password was set, and needs none for the rest of the boot. -/
theorem token_for_no_password :
    let events := [PasswordEvent.authWithPW .null 0, .passwordSet [1], .authWithPW .null 0]
    (Runs.run (step byteLib {}) ⟨.loaded 0, none⟩ (events.take 2)).store = some 1 ∧
      ¬ Runs.Guarded (step byteLib {}) (TokenDeserved byteLib {}) ⟨.loaded 0, none⟩ events := by
  refine ⟨by decide +kernel, ?_⟩
  rintro ⟨_, _, deserved, _⟩
  have unset := deserved (by decide +kernel)
  revert unset
  decide +kernel

end PasswordView

end Dfci
