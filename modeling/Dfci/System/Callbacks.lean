import Dfci.Manager.Delays
import Dfci.System.Completions

/-! # The callbacks of a boot

`DfciManagerEntry` reads the mailboxes and runs `ProcessMailBoxes`, or waits for the SettingAccess protocol to do so.
From then on notifications drive it: the one of SettingAccess, and the one of EndOfDxe, which may come again as long as
there is no user interface. A run that reaches its final exit releases what was read. -/

namespace Dfci

open Manager

/-- What the boot services answer to `DfciManagerEntry`. -/
structure EntryServices where
  /-- Everything before the EndOfDxe registration: the variable policies, `PcdSKUEnableDfci`, the apply protocols and the
  memory for the mailboxes. -/
  prepared : EfiStatus := .success
  /-- `CreateEventEx` for EndOfDxe. -/
  createEventEx : EfiStatus := .success
  /-- `LocateProtocol`, `CreateEvent` and `RegisterProtocolNotify` for SettingAccess. -/
  locateProtocol : EfiStatus
  createEvent : EfiStatus := .success
  registerProtocolNotify : EfiStatus := .success
  /-- None of these services answers the status that stands for waiting. -/
  answers : createEvent ≠ .mediaChanged ∧ registerProtocolNotify ≠ .mediaChanged := by decide

inductive Notification where
  | settingAccess (ui : UserInterface)
  | endOfDxe (ui : UserInterface)

structure Callbacks where
  manager : Manager
  /-- The `Data` of `mManagerData` is there. -/
  allocated : Bool
  /-- `mEndOfDxeEvent`, and the event that waits for SettingAccess. -/
  endOfDxeEvent : Bool
  settingAccessEvent : Bool
  /-- The mailboxes whose packets were completed so far. -/
  completed : List MailBox
  /-- A run has started on data that was released. -/
  readReleased : Bool

namespace Callbacks

variable (p : Platform)

/-- `ProcessMailBoxes`. Its final exit frees the data and closes the EndOfDxe event. The first thing it completes is read
through a null pointer when the data is gone. -/
def processMailBoxes (ui : UserInterface) (state : Callbacks) : Callbacks :=
  if state.allocated then
    let completed := state.completed ++ completedBoxes (mailBoxesSteps p ui state.manager)
    match Manager.processMailBoxes p ui state.manager with
    | (.delayed, mgr) => { state with manager := mgr, completed := completed }
    | (_, mgr) =>
      { state with manager := mgr, completed := completed, allocated := false, endOfDxeEvent := false }
  else
    { state with readReleased := true }

/-- `EndOfDxeCallback`, which leaves its event open when there is no user interface. -/
def endOfDxeCallback (ui : UserInterface) (state : Callbacks) : Callbacks :=
  if ui.available then
    let late := { state with manager := { state.manager with processingAtEndOfDxe := true } }
    { late.processMailBoxes p ui with endOfDxeEvent := false }
  else
    state

/-- `SettingAccessCallback` -/
def settingAccessCallback (ui : UserInterface) (state : Callbacks) : Callbacks :=
  { state.processMailBoxes p ui with settingAccessEvent := false }

def notify (state : Callbacks) : Notification → Callbacks
  | .settingAccess ui => if state.settingAccessEvent then state.settingAccessCallback p ui else state
  | .endOfDxe ui => if state.endOfDxeEvent then state.endOfDxeCallback p ui else state

/-- The part of `QueueMailboxAtSettingAccess` without the protocol. -/
def queueMailboxAtSettingAccess (svc : EntryServices) (state : Callbacks) : EfiStatus × Callbacks :=
  if svc.createEvent.isError then
    (svc.createEvent, state)
  else if svc.registerProtocolNotify.isError then
    (svc.registerProtocolNotify, state)
  else
    (.mediaChanged, { state with settingAccessEvent := true })

/-- `DfciManagerEntry`. Its error exit frees the data, and closes no event. -/
def dfciManagerEntry (svc : EntryServices) (ui : UserInterface) (read : MailBox → Except Nat (List Byte))
    (m : Machine) : Callbacks :=
  let mgr := allocateManagerData p m read
  if svc.prepared.isError || svc.createEventEx.isError then
    ⟨mgr, false, false, false, [], false⟩
  else
    let state : Callbacks := ⟨mgr, true, true, false, [], false⟩
    if svc.locateProtocol.isError then
      let (status, state) := state.queueMailboxAtSettingAccess svc
      if status ≠ .mediaChanged then { state with allocated := false } else state
    else
      -- after the final exit there is nothing left to free or to close
      state.processMailBoxes p ui

def boot (svc : EntryServices) (ui : UserInterface) (read : MailBox → Except Nat (List Byte)) (m : Machine)
    (notifications : List Notification) : Callbacks :=
  Runs.run (notify p) (dfciManagerEntry p svc ui read m) notifications

/-! ## Orders of notifications -/

/-- A notification that reaches a callback with an open event, and makes it run `ProcessMailBoxes`. -/
def triggers (state : Callbacks) : Notification → Bool
  | .settingAccess _ => state.settingAccessEvent
  | .endOfDxe ui => state.endOfDxeEvent && ui.available

end Callbacks

def Notification.isSettingAccess : Notification → Bool
  | .settingAccess _ => true
  | .endOfDxe _ => false

def Notification.isUsableEndOfDxe : Notification → Bool
  | .settingAccess _ => false
  | .endOfDxe ui => ui.available

def SettingAccessFirst : List Notification → Prop
  | [] => True
  | .settingAccess _ :: _ => True
  | .endOfDxe ui :: notifications =>
    if ui.available then ∀ notification ∈ notifications, notification.isSettingAccess = false
    else SettingAccessFirst notifications

def EntryServices.waits (svc : EntryServices) : Bool :=
  !svc.prepared.isError && !svc.createEventEx.isError && svc.locateProtocol.isError

def EntryServices.registers (svc : EntryServices) : Bool :=
  !svc.createEvent.isError && !svc.registerProtocolNotify.isError

/-- An order of notifications that never finds the data released: SettingAccess comes first where it is waited for, and
an entry that failed to register for it sees no EndOfDxe. -/
def InOrder (svc : EntryServices) (notifications : List Notification) : Prop :=
  svc.waits = true →
    if svc.registers then SettingAccessFirst notifications
    else ∀ notification ∈ notifications, notification.isUsableEndOfDxe = false

/-- What keeps a packet from being completed twice: no mailbox holds an unenroll packet, or only one holds a packet, or
the user can be asked before EndOfDxe. -/
def CompletesOnce (p : Platform) (svc : EntryServices) (ui : UserInterface)
    (read : MailBox → Except Nat (List Byte)) (notifications : List Notification) : Prop :=
  (∀ box, (initializePacket p box (read box)).data.unenroll = false) ∨
    (∀ box other, (read box).isOk = true → (read other).isOk = true → box = other) ∨
    (svc.locateProtocol = .success → ui.available = true) ∧
      ∀ early, .settingAccess early ∈ notifications → early.available = true

namespace Callbacks

section

variable {p : Platform} {state : Callbacks}

theorem notify_untriggered {notification : Notification} (misses : state.triggers notification = false) :
    state.notify p notification = state := by
  cases notification with
  | settingAccess ui =>
    have closed : state.settingAccessEvent = false := misses
    simp [notify, closed]
  | endOfDxe ui =>
    have misses : (state.endOfDxeEvent && ui.available) = false := misses
    rw [notify]
    split
    · rename_i isOpen
      rw [isOpen, Bool.true_and] at misses
      simp [endOfDxeCallback, misses]
    · rfl

/-- What a callback does when the data is gone. -/
theorem notify_released {notification : Notification} (released : state.allocated = false)
    (hits : state.triggers notification = true) : (state.notify p notification).readReleased = true := by
  cases notification with
  | settingAccess ui =>
    have isOpen : state.settingAccessEvent = true := hits
    simp [notify, isOpen, settingAccessCallback, processMailBoxes, released]
  | endOfDxe ui =>
    obtain ⟨isOpen, available⟩ := (Bool.and_eq_true _ _).mp hits
    simp [notify, isOpen, endOfDxeCallback, available, processMailBoxes, released]

theorem processMailBoxes_readReleased (ui : UserInterface) (read : state.readReleased = true) :
    (state.processMailBoxes p ui).readReleased = true := by
  rw [processMailBoxes]
  repeat' split
  all_goals first | exact read | rfl

theorem notify_readReleased (notification : Notification) (read : state.readReleased = true) :
    (state.notify p notification).readReleased = true := by
  cases hits : state.triggers notification with
  | false => rw [notify_untriggered hits]; exact read
  | true =>
    cases notification with
    | settingAccess ui =>
      have isOpen : state.settingAccessEvent = true := hits
      rw [notify, if_pos isOpen]
      exact processMailBoxes_readReleased ui read
    | endOfDxe ui =>
      obtain ⟨isOpen, available⟩ := (Bool.and_eq_true _ _).mp hits
      rw [notify, if_pos isOpen, endOfDxeCallback, if_pos available]
      exact processMailBoxes_readReleased ui read

theorem run_readReleased (notifications : List Notification) (read : state.readReleased = true) :
    (Runs.run (notify p) state notifications).readReleased = true := by
  induction notifications generalizing state with
  | nil => exact read
  | cons notification notifications ih => exact ih (notify_readReleased notification read)

/-- Once the data is released, what matters is whether a notification still reaches a callback. -/
theorem run_released (released : state.allocated = false) (unread : state.readReleased = false)
    (notifications : List Notification) : (Runs.run (notify p) state notifications).readReleased = false ↔
      ∀ notification ∈ notifications, state.triggers notification = false := by
  induction notifications with
  | nil => simp [unread]
  | cons notification notifications ih =>
    rw [Runs.run_cons, List.forall_mem_cons]
    cases hits : state.triggers notification with
    | false => rw [notify_untriggered hits, ih, eq_self, true_and]
    | true =>
      have read : (Runs.run (notify p) (state.notify p notification) notifications).readReleased = true :=
        run_readReleased notifications (notify_released released hits)
      simp [read]

theorem run_stale (ui : UserInterface) (released : state.allocated = false) :
    state.processMailBoxes p ui = { state with readReleased := true } := by
  simp [processMailBoxes, released]

theorem run_waits {ui : UserInterface} (allocated : state.allocated = true)
    (delayed : (Manager.processMailBoxes p ui state.manager).1 = .delayed) : state.processMailBoxes p ui =
      { state with
        manager := (Manager.processMailBoxes p ui state.manager).2
        completed := state.completed ++ completedBoxes (mailBoxesSteps p ui state.manager) } := by
  rw [processMailBoxes, if_pos allocated]
  generalize Manager.processMailBoxes p ui state.manager = answer at delayed ⊢
  obtain ⟨ending, after⟩ := answer
  cases delayed
  rfl

theorem run_ends {ui : UserInterface} (allocated : state.allocated = true)
    (ends : (Manager.processMailBoxes p ui state.manager).1 ≠ .delayed) : state.processMailBoxes p ui = { state with
        manager := (Manager.processMailBoxes p ui state.manager).2
        completed := state.completed ++ completedBoxes (mailBoxesSteps p ui state.manager)
        allocated := false
        endOfDxeEvent := false } := by
  rw [processMailBoxes, if_pos allocated]
  generalize Manager.processMailBoxes p ui state.manager = answer at ends ⊢
  obtain ⟨ending, after⟩ := answer
  cases ending with
  | delayed => exact absurd rfl ends
  | completed | failed code => rfl

structure Quiet (state : Callbacks) : Prop where
  settingAccess : state.settingAccessEvent = false
  endOfDxe : state.endOfDxeEvent = true → state.allocated = true
  unread : state.readReleased = false

theorem processMailBoxes_quiet (ui : UserInterface) (allocated : state.allocated = true)
    (unread : state.readReleased = false) :
    let after := state.processMailBoxes p ui
    after.settingAccessEvent = state.settingAccessEvent ∧ (after.endOfDxeEvent = true → after.allocated = true) ∧
      after.readReleased = false := by
  by_cases delayed : (Manager.processMailBoxes p ui state.manager).1 = .delayed
  · rw [run_waits allocated delayed]
    exact ⟨rfl, fun _ => allocated, unread⟩
  · rw [run_ends allocated delayed]
    exact ⟨rfl, fun isOpen => (by cases isOpen), unread⟩

theorem Quiet.settingAccessCallback (ui : UserInterface) (allocated : state.allocated = true)
    (unread : state.readReleased = false) : (state.settingAccessCallback p ui).Quiet := by
  obtain ⟨_, endOfDxe, unread⟩ := processMailBoxes_quiet ui allocated unread
  exact ⟨rfl, endOfDxe, unread⟩

theorem Quiet.notify (quiet : state.Quiet) (notification : Notification) : (state.notify p notification).Quiet := by
  cases hits : state.triggers notification with
  | false =>
    rw [notify_untriggered hits]
    exact quiet
  | true =>
    cases notification with
    | settingAccess ui =>
      have isOpen : state.settingAccessEvent = true := hits
      rw [quiet.settingAccess] at isOpen
      cases isOpen
    | endOfDxe ui =>
      obtain ⟨isOpen, available⟩ := (Bool.and_eq_true _ _).mp hits
      have after : let late := { state with manager := { state.manager with processingAtEndOfDxe := true } }
          (late.processMailBoxes p ui).settingAccessEvent = state.settingAccessEvent ∧
            ((late.processMailBoxes p ui).endOfDxeEvent = true → (late.processMailBoxes p ui).allocated = true) ∧
            (late.processMailBoxes p ui).readReleased = false :=
        processMailBoxes_quiet ui (quiet.endOfDxe isOpen) quiet.unread
      rw [Callbacks.notify, if_pos isOpen, endOfDxeCallback, if_pos available]
      exact ⟨after.1.trans quiet.settingAccess, fun closed => (by cases closed), after.2.2⟩

theorem Quiet.run (quiet : state.Quiet) (notifications : List Notification) :
    (Runs.run (Callbacks.notify p) state notifications).readReleased = false :=
  (Runs.invariant (Callbacks.notify p) (fun _ notification held => held.notify notification) quiet
    notifications).unread

/-! ## From the entry on -/

def waiting (mgr : Manager) : Callbacks := ⟨mgr, true, true, true, [], false⟩

def starting (mgr : Manager) : Callbacks := ⟨mgr, true, true, false, [], false⟩

inductive Entered (p : Platform) (svc : EntryServices) (ui : UserInterface) (mgr : Manager) :
    Callbacks → Prop
  | unprepared (runs : svc.waits = false) : Entered p svc ui mgr ⟨mgr, false, false, false, [], false⟩
  | ran (runs : svc.waits = false) (located : svc.locateProtocol = .success) :
      Entered p svc ui mgr (processMailBoxes p ui (starting mgr))
  | waits (waits : svc.waits = true) (registers : svc.registers = true) :
      Entered p svc ui mgr (waiting mgr)
  | abandoned (waits : svc.waits = true) (unregistered : svc.registers = false) :
      Entered p svc ui mgr ⟨mgr, false, true, false, [], false⟩

theorem entered_dfciManagerEntry (p : Platform) (svc : EntryServices) (ui : UserInterface)
    (read : MailBox → Except Nat (List Byte)) (m : Machine) : Entered p svc ui (allocateManagerData p m read)
      (dfciManagerEntry p svc ui read m) := by
  simp only [dfciManagerEntry]
  cases unprepared : svc.prepared.isError || svc.createEventEx.isError with
  | true =>
    have runs : svc.waits = false := by
      rw [Bool.or_eq_true] at unprepared
      rcases unprepared with fails | fails <;> simp [EntryServices.waits, fails]
    exact .unprepared runs
  | false =>
    obtain ⟨prepared, created⟩ := Bool.or_eq_false_iff.mp unprepared
    simp only [Bool.false_eq_true, if_false]
    cases located : svc.locateProtocol.isError with
    | false =>
      have runs : svc.waits = false := by simp [EntryServices.waits, located]
      exact .ran runs (EfiStatus.isError_eq_false.mp located)
    | true =>
      have waits : svc.waits = true := by simp [EntryServices.waits, prepared, created, located]
      simp only [if_true, queueMailboxAtSettingAccess]
      cases event : svc.createEvent.isError with
      | true =>
        have unregistered : svc.registers = false := by simp [EntryServices.registers, event]
        simp only [if_true, if_pos svc.answers.1]
        exact .abandoned waits unregistered
      | false =>
        simp only [Bool.false_eq_true, if_false]
        cases notify : svc.registerProtocolNotify.isError with
        | true =>
          have unregistered : svc.registers = false := by simp [EntryServices.registers, notify]
          simp only [if_true, if_pos svc.answers.2]
          exact .abandoned waits unregistered
        | false =>
          have registers : svc.registers = true := by simp [EntryServices.registers, event, notify]
          exact .waits waits registers

variable (stores : ∀ name bytes, p.setVariable name bytes ≠ .mediaChanged) {mgr : Manager}
include stores

/-- EndOfDxe with a user interface ends the processing. -/
theorem endOfDxeCallback_ends {ui : UserInterface} (available : ui.available = true) (allocated : state.allocated = true)
    (prompt : Prompt ui state.manager) :
    let late : Manager := { state.manager with processingAtEndOfDxe := true }
    state.endOfDxeCallback p ui =
      { state with
        manager := (Manager.processMailBoxes p ui late).2
        completed := state.completed ++ completedBoxes (mailBoxesSteps p ui late)
        allocated := false
        endOfDxeEvent := false } := by
  have still : Prompt ui { state.manager with processingAtEndOfDxe := true } := ⟨.inl available, prompt.decoded⟩
  have ends : (Manager.processMailBoxes p ui { state.manager with processingAtEndOfDxe := true }).1 ≠ .delayed :=
    still.processMailBoxes stores
  have run : ({ state with manager := { state.manager with processingAtEndOfDxe := true } } : Callbacks).processMailBoxes
      p ui = _ := run_ends allocated ends
  rw [endOfDxeCallback, if_pos available]
  simp only [run]

theorem run_waiting (prompt : ∀ ui, ui.available = true → Prompt ui mgr) (notifications : List Notification) :
    (Runs.run (notify p) (waiting mgr) notifications).readReleased = false ↔ SettingAccessFirst notifications := by
  induction notifications with
  | nil => exact ⟨fun _ => trivial, fun _ => rfl⟩
  | cons notification notifications ih =>
    rw [Runs.run_cons]
    cases notification with
    | settingAccess ui =>
      have quiet : ((waiting mgr).notify p (.settingAccess ui)).Quiet :=
        Quiet.settingAccessCallback ui rfl rfl
      exact ⟨fun _ => trivial, fun _ => quiet.run notifications⟩
    | endOfDxe ui =>
      rw [SettingAccessFirst]
      cases available : ui.available with
      | false =>
        have misses : (waiting mgr).triggers (.endOfDxe ui) = false := by simp [triggers, available]
        rw [notify_untriggered misses]
        exact ih
      | true =>
        -- the data is gone, and SettingAccess is still waited for
        have ends : (waiting mgr).notify p (.endOfDxe ui) = _ :=
          endOfDxeCallback_ends stores available rfl (prompt ui available)
        rw [ends, run_released rfl rfl, if_pos rfl]
        refine forall₂_congr fun notification _ => ?_
        cases notification <;> simp [triggers, Notification.isSettingAccess, waiting]

/-- A boot reads nothing that was released exactly when its notifications come in order. -/
theorem boot_readReleased_iff (svc : EntryServices) (ui : UserInterface) (read : MailBox → Except Nat (List Byte))
    (m : Machine) (notifications : List Notification) :
    (boot p svc ui read m notifications).readReleased = false ↔ InOrder svc notifications := by
  have quiet : ∀ state : Callbacks, state.Quiet → svc.waits = false →
      ((Runs.run (notify p) state notifications).readReleased = false ↔ InOrder svc notifications) := by
    intro state quiet runs
    refine ⟨fun _ waits => ?_, fun _ => quiet.run notifications⟩
    rw [runs] at waits
    cases waits
  have entered := entered_dfciManagerEntry p svc ui read m
  rw [boot]
  generalize dfciManagerEntry p svc ui read m = entry at entered ⊢
  cases entered with
  | unprepared runs => exact quiet _ ⟨rfl, fun isOpen => (by cases isOpen), rfl⟩ runs
  | ran runs located =>
    have after : let ran := processMailBoxes p ui (starting (allocateManagerData p m read))
        ran.settingAccessEvent = false ∧ (ran.endOfDxeEvent = true → ran.allocated = true) ∧ ran.readReleased = false :=
      processMailBoxes_quiet ui rfl rfl
    exact quiet _ ⟨after.1, after.2.1, after.2.2⟩ runs
  | waits waits registers =>
    rw [run_waiting stores fun ui available => prompt_allocateManagerData available m read, InOrder, if_pos registers]
    exact ⟨fun first _ => first, fun first => first waits⟩
  | abandoned waits unregistered =>
    have isFalse : ¬ svc.registers = true := by simp [unregistered]
    rw [run_released rfl rfl, InOrder, if_neg isFalse]
    have same : ∀ notification, triggers ⟨allocateManagerData p m read, false, true, false, [], false⟩
        notification = notification.isUsableEndOfDxe := by
      intro notification
      cases notification <;> rfl
    simp only [same]
    exact ⟨fun none _ => none, fun none => none waits⟩

/-! ## One completion for a packet -/

omit stores in
theorem isOk_of_isPresent {m : Machine} {read : MailBox → Except Nat (List Byte)} {box : MailBox}
    (present : (allocateManagerData p m read).isPresent box = true) : (read box).isOk = true := by
  cases received : read box with
  | error code =>
    simp only [isPresent, Manager.data, allocateManagerData, received] at present
    cases present
  | ok bytes => rfl

structure Once (fresh : Manager) (state : Callbacks) : Prop where
  nodup : state.completed.Nodup
  pending : state.allocated = true → state.completed = [] ∧ ∀ ui, ui.available = true → Prompt ui state.manager
  first : state.settingAccessEvent = true → state.allocated = true → state.manager = fresh

omit stores in
theorem processMailBoxes_once {ui : UserInterface} (allocated : state.allocated = true) (none : state.completed = [])
    (prompt : ∀ ui, ui.available = true → Prompt ui state.manager)
    (early : (Manager.processMailBoxes p ui state.manager).1 = .delayed →
      completedBoxes (mailBoxesSteps p ui state.manager) = []) :
    let after := state.processMailBoxes p ui
    after.completed.Nodup ∧
      (after.allocated = true → after.completed = [] ∧ ∀ ui, ui.available = true → Prompt ui after.manager) := by
  by_cases delayed : (Manager.processMailBoxes p ui state.manager).1 = .delayed
  · rw [run_waits allocated delayed, none, early delayed]
    refine ⟨List.nodup_nil, fun _ => ⟨rfl, fun other available => ?_⟩⟩
    exact processMailBoxes_invariant (Prompt other) Prompt.applies Prompt.completes
      (fun _ held => ⟨held.asks, held.decoded⟩) ui (prompt other available)
  · rw [run_ends allocated delayed, none]
    exact ⟨nodup_mailBoxesSteps ui state.manager, fun released => (by cases released)⟩

theorem Once.notify {fresh : Manager} (once : state.Once fresh) (notification : Notification)
    (early : ∀ ui, notification = .settingAccess ui → (Manager.processMailBoxes p ui fresh).1 = .delayed →
      completedBoxes (mailBoxesSteps p ui fresh) = []) : (state.notify p notification).Once fresh := by
  cases hits : state.triggers notification with
  | false =>
    rw [notify_untriggered hits]
    exact once
  | true =>
    cases allocated : state.allocated with
    | false =>
      -- a run on released data completes nothing the model knows of
      cases notification with
      | settingAccess ui =>
        have isOpen : state.settingAccessEvent = true := hits
        rw [Callbacks.notify, if_pos isOpen, Callbacks.settingAccessCallback, run_stale ui allocated]
        exact ⟨once.nodup, once.pending, fun closed => (by cases closed)⟩
      | endOfDxe ui =>
        obtain ⟨isOpen, available⟩ := (Bool.and_eq_true _ _).mp hits
        have stale : ({ state with manager := { state.manager with processingAtEndOfDxe := true } } :
            Callbacks).processMailBoxes p ui = _ := run_stale ui allocated
        rw [Callbacks.notify, if_pos isOpen, endOfDxeCallback, if_pos available]
        simp only [stale]
        exact ⟨once.nodup, fun there => absurd there (by simp [allocated]), fun _ there => absurd there (by simp [allocated])⟩
    | true =>
      obtain ⟨none, prompt⟩ := once.pending allocated
      cases notification with
      | settingAccess ui =>
        have isOpen : state.settingAccessEvent = true := hits
        have isFresh := once.first isOpen allocated
        obtain ⟨nodup, pending⟩ := processMailBoxes_once allocated none prompt (isFresh ▸ early ui rfl)
        rw [Callbacks.notify, if_pos isOpen]
        exact ⟨nodup, pending, fun closed => (by cases closed)⟩
      | endOfDxe ui =>
        obtain ⟨isOpen, available⟩ := (Bool.and_eq_true _ _).mp hits
        rw [Callbacks.notify, if_pos isOpen, endOfDxeCallback_ends stores available allocated (prompt ui available), none]
        exact ⟨nodup_mailBoxesSteps ui _, fun released => (by cases released), fun _ released => (by cases released)⟩

theorem Once.run {fresh : Manager} (once : state.Once fresh) (notifications : List Notification)
    (early : ∀ ui, .settingAccess ui ∈ notifications → (Manager.processMailBoxes p ui fresh).1 = .delayed →
      completedBoxes (mailBoxesSteps p ui fresh) = []) :
    (Runs.run (Callbacks.notify p) state notifications).completed.Nodup := by
  induction notifications generalizing state with
  | nil => exact once.nodup
  | cons notification notifications ih =>
    rw [Runs.run_cons]
    refine ih (once.notify stores notification ?_) ?_
    · rintro ui rfl
      exact early ui List.mem_cons_self
    · exact fun ui mem => early ui (List.mem_cons_of_mem _ mem)

variable {svc : EntryServices} {ui : UserInterface} {read : MailBox → Except Nat (List Byte)}
  {notifications : List Notification}

/-- A first run that waits has not completed anything. -/
theorem completedBoxes_first (once : CompletesOnce p svc ui read notifications) (m : Machine) {first : UserInterface}
    (isFirst : .settingAccess first ∈ notifications ∨ svc.locateProtocol = .success ∧ first = ui)
    (delayed : (Manager.processMailBoxes p first (allocateManagerData p m read)).1 = .delayed) :
    completedBoxes (mailBoxesSteps p first (allocateManagerData p m read)) = [] := by
  rcases once with enrolls | alone | ⟨entry, later⟩
  · exact completedBoxes_delayed first _ (.inl fun box _ => enrolls box) delayed
  · refine completedBoxes_delayed first _ (.inr fun box other present otherPresent => ?_) delayed
    exact alone box other (isOk_of_isPresent present) (isOk_of_isPresent otherPresent)
  · -- a user who can be asked is not waited for
    have available : first.available = true := by
      rcases isFirst with mem | ⟨located, rfl⟩
      · exact later first mem
      · exact entry located
    exact absurd delayed ((prompt_allocateManagerData available m read).processMailBoxes stores)

omit stores in
theorem once_dfciManagerEntry {m : Machine} (early : svc.locateProtocol = .success →
      (Manager.processMailBoxes p ui (allocateManagerData p m read)).1 = .delayed →
      completedBoxes (mailBoxesSteps p ui (allocateManagerData p m read)) = []) :
    (dfciManagerEntry p svc ui read m).Once (allocateManagerData p m read) := by
  have prompt : ∀ ui, ui.available = true → Prompt ui (allocateManagerData p m read) :=
    fun ui available => prompt_allocateManagerData available m read
  have entered := entered_dfciManagerEntry p svc ui read m
  generalize dfciManagerEntry p svc ui read m = entry at entered ⊢
  cases entered with
  | unprepared => exact ⟨List.nodup_nil, fun there => (by cases there), fun _ there => (by cases there)⟩
  | ran runs located =>
    have kept : (processMailBoxes p ui
        (starting (allocateManagerData p m read))).settingAccessEvent = false :=
      (processMailBoxes_quiet ui rfl rfl).1
    have pending : let ran := processMailBoxes p ui (starting (allocateManagerData p m read))
        ran.completed.Nodup ∧
          (ran.allocated = true → ran.completed = [] ∧ ∀ ui, ui.available = true → Prompt ui ran.manager) :=
      processMailBoxes_once rfl rfl prompt (early located)
    exact ⟨pending.1, pending.2, fun isOpen => absurd isOpen (by simp [kept])⟩
  | waits => exact ⟨List.nodup_nil, fun _ => ⟨rfl, prompt⟩, fun _ _ => rfl⟩
  | abandoned => exact ⟨List.nodup_nil, fun there => (by cases there), fun closed => (by cases closed)⟩

end

/-! ## Any order of the callbacks -/

def entryWaits : EntryServices where
  locateProtocol := .notFound

def entryRuns : EntryServices where
  locateProtocol := .success

def absentUser : UserInterface where
  available := false

/-- A settings packet that cannot be decoded, beside the removal of the Owner by a signer nobody knows. -/
def settingsAndUnenroll : MailBox → Except Nat (List Byte)
  | .identity => .ok (unenrollPacket 1 7)
  | .settings => .ok [0]
  | _ => .error 14

def onlyUnenroll : MailBox → Except Nat (List Byte)
  | .identity => .ok (unenrollPacket 1 7)
  | _ => .error 14

/-- Any order of the callbacks. No run reads data that was released exactly when the notifications come in order, and no
packet is completed twice unless an unenroll waits beside another packet. -/
theorem boot_safe {p : Platform} (stores : ∀ name bytes, p.setVariable name bytes ≠ .mediaChanged)
    (svc : EntryServices) (ui : UserInterface) (read : MailBox → Except Nat (List Byte))
    (m : Machine) (notifications : List Notification) :
    let state := boot p svc ui read m notifications
    (state.readReleased = false ↔ InOrder svc notifications) ∧
      (CompletesOnce p svc ui read notifications → state.completed.Nodup) := by
  refine ⟨boot_readReleased_iff stores svc ui read m notifications, fun once => ?_⟩
  have initially : (dfciManagerEntry p svc ui read m).Once (allocateManagerData p m read) :=
    once_dfciManagerEntry fun located => completedBoxes_first stores once m (.inr ⟨located, rfl⟩)
  exact initially.run stores notifications fun first mem => completedBoxes_first stores once m (.inl mem)

/-- An unenroll alone waits for the user, who is asked at EndOfDxe. -/
theorem boot_safe_onlyUnenroll :
    let notifications := [.endOfDxe absentUser, .settingAccess absentUser, .endOfDxe confirmingUser]
    let state := boot keyedPlatform entryWaits absentUser onlyUnenroll (enrolledMachine keyedPlatform [(.signerOwner, 1)])
      notifications
    InOrder entryWaits notifications ∧ CompletesOnce keyedPlatform entryWaits absentUser onlyUnenroll notifications ∧
      state.completed = [.identity] ∧ state.readReleased = false ∧ state.completed.Nodup := by
  have inOrder : InOrder entryWaits [.endOfDxe absentUser, .settingAccess absentUser, .endOfDxe confirmingUser] :=
    fun _ => trivial
  have only : ∀ box, (onlyUnenroll box).isOk = true → box = .identity := by
    intro box present
    cases box <;> first | rfl | cases present
  have once : CompletesOnce keyedPlatform entryWaits absentUser onlyUnenroll
      [.endOfDxe absentUser, .settingAccess absentUser, .endOfDxe confirmingUser] :=
    .inr (.inl fun box other first second => (only box first).trans (only other second).symm)
  have stores : ∀ name bytes, keyedPlatform.setVariable name bytes ≠ .mediaChanged := by simp [keyedPlatform]
  have safe := boot_safe stores entryWaits absentUser onlyUnenroll (enrolledMachine keyedPlatform [(.signerOwner, 1)])
    [.endOfDxe absentUser, .settingAccess absentUser, .endOfDxe confirmingUser]
  exact ⟨inOrder, once, by decide +kernel, safe.1.mpr inOrder, safe.2 once⟩

/-- SettingAccess is published after EndOfDxe, and its callback finds nothing but null pointers. And an unenroll that
waits for the user lets the packets beside it be completed twice. -/
theorem callbacks_unsafe :
    let m := enrolledMachine keyedPlatform [(.signerOwner, 1)]
    (boot keyedPlatform entryWaits absentUser (fun _ => .error 14) m
      [.endOfDxe confirmingUser, .settingAccess confirmingUser]).readReleased = true ∧
    (boot keyedPlatform entryRuns absentUser settingsAndUnenroll m [.endOfDxe confirmingUser]).completed =
      [.settings, .settings, .identity] := by
  decide +kernel

end Callbacks

end Dfci
