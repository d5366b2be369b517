import Dfci.Manager.Decode

/-! # Packets that the menu puts into the mailboxes

A server or a USB key gives a JSON text, and a table says what its fields are for. -/

namespace Dfci

open ByteFields

/-- `JSON_ACTION`, with its entry of `mJsonSetVariableEntryMailbox`. Packets come in base 64, messages do not. -/
inductive JsonAction where
  | setVariable (box : MailBox)
  | setReturnCode
  | setHttpMessage
  deriving DecidableEq

/-- `JSON_RESPONSE_TO_ACTION_ENTRY` -/
structure JsonEntry where
  fieldName : String
  action : JsonAction
  deriving DecidableEq

/-- `mRecoveryBootstrapResponse` -/
def recoveryBootstrapResponse : List JsonEntry :=
  [⟨"TransitionPacket1", .setVariable .identity⟩, ⟨"TransitionPacket2", .setVariable .identity2⟩,
    ⟨"SettingsPacket", .setVariable .settings⟩, ⟨"ResultMessage", .setHttpMessage⟩, ⟨"ResultCode", .setReturnCode⟩]

/-- `mRecoveryResponse` -/
def recoveryResponse : List JsonEntry :=
  [⟨"ProvisioningPacket", .setVariable .identity⟩, ⟨"PermissionsPacket", .setVariable .permissions⟩,
    ⟨"SettingsPacket", .setVariable .settings⟩, ⟨"ResultMessage", .setHttpMessage⟩, ⟨"ResultCode", .setReturnCode⟩]

/-- A `JSON_REQUEST_ELEMENT`, with the answer of `SetVariable` and what is in memory behind the decoded packet and its
null. -/
structure JsonElement where
  fieldName : List Byte
  value : List Byte
  setVariable : EfiStatus := .success
  behind : List Byte := []

/-- The mailbox variables, and the texts that a server sends along. -/
structure MenuState where
  mailboxes : MailBox → Option (List Byte)
  httpMessage : Option (List Byte) := none
  httpReturnCode : Option (List Byte) := none

def JsonEntry.isFor (element : JsonElement) (entry : JsonEntry) : Bool :=
  (AsciiString.ofString entry.fieldName).chars = element.fieldName

/-- `ProcessFunction` -/
def processFunction (p : Platform) (table : List JsonEntry) (state : MenuState) (element : JsonElement) :
    EfiStatus × MenuState :=
  match (table.find? (·.isFor element)).map JsonEntry.action with
  | none => (.invalidParameter, state)
  | some .setReturnCode => (.success, { state with httpReturnCode := some (element.value ++ [0]) })
  | some .setHttpMessage => (.success, { state with httpMessage := some (element.value ++ [0]) })
  | some (.setVariable box) =>
    match p.base64Decode element.value with
    | .error _ => (.invalidParameter, state)
    | .ok packet =>
      -- nothing checks that the packet has the four bytes of a signature
      if packet = [] ∨ PacketHeader.signature (packet ++ 0 :: element.behind) ≠ box.hdrSignature then
        (.invalidParameter, state)
      else
        match element.setVariable with
        | .error code => (.error code, state)
        | .success => (.mediaChanged, { state with mailboxes := Function.update state.mailboxes box (some packet) })

/-- The calls that `JsonLibParse` makes. -/
def processElements (p : Platform) (table : List JsonEntry) : MenuState → List JsonElement → MenuState :=
  Runs.run fun state element => (processFunction p table state element).2

/-- The element has a packet for the mailbox, with a signature of its own. -/
structure JsonElement.Brings (p : Platform) (table : List JsonEntry) (element : JsonElement) (box : MailBox)
    (packet : List Byte) : Prop where
  listed : ∃ entry ∈ table, entry.isFor element ∧ entry.action = .setVariable box
  decoded : p.base64Decode element.value = .ok packet
  whole : 4 ≤ packet.length
  recognised : PacketHeader.signature packet = box.hdrSignature

def MenuState.FilledFrom (p : Platform) (table : List JsonEntry) (elements : List JsonElement)
    (before later : MenuState) : Prop :=
  ∀ box, later.mailboxes box = before.mailboxes box ∨
    ∃ element ∈ elements, ∃ packet, element.Brings p table box packet ∧ later.mailboxes box = some packet

/-- No signature has a null in it, so what is behind a short packet does not help it. -/
theorem whole_of_signature {packet behind : List Byte} {box : MailBox}
    (same : PacketHeader.signature (packet ++ 0 :: behind) = box.hdrSignature) :
    4 ≤ packet.length ∧ PacketHeader.signature packet = box.hdrSignature := by
  match packet with
  | first :: second :: third :: fourth :: rest =>
    refine ⟨by simp, ?_⟩
    rw [← same]
    simp [PacketHeader.signature, fieldAt]
  | [] | [first] | [first, second] | [first, second, third] =>
    cases box <;> simp [PacketHeader.signature, fieldAt, MailBox.hdrSignature, identityApplyVarSignature,
      permissionPolicyApplyVarSignature, securedSettingsApplyVarSignature, signature32] at same <;> omega

section

variable {p : Platform} {table : List JsonEntry}

theorem processFunction_mailboxes (state : MenuState) (element : JsonElement) (box : MailBox) :
    (processFunction p table state element).2.mailboxes box = state.mailboxes box ∨
      ∃ packet, element.Brings p table box packet ∧
        (processFunction p table state element).2.mailboxes box = some packet := by
  unfold processFunction
  split
  case h_1 | h_2 | h_3 => exact .inl rfl
  case h_4 target found =>
    obtain ⟨entry, isFirst, sets⟩ := Option.map_eq_some_iff.mp found
    split
    · exact .inl rfl
    · rename_i packet decodes
      split
      · exact .inl rfl
      · rename_i accepted
        have ⟨whole, recognised⟩ := whole_of_signature (not_not.mp (not_or.mp accepted).2)
        split
        · exact .inl rfl
        · by_cases same : box = target
          · subst same
            exact .inr ⟨packet,
              ⟨⟨entry, List.mem_of_find?_eq_some isFirst, List.find?_some isFirst, sets⟩, decodes, whole, recognised⟩,
              Function.update_self ..⟩
          · exact .inl (Function.update_of_ne same ..)

/-- Over all elements of a text, whatever `JsonLibParse` makes of it. -/
theorem processElements_filledFrom (state : MenuState) (elements : List JsonElement) :
    state.FilledFrom p table elements (processElements p table state elements) := by
  have preserved : ∀ later element, state.FilledFrom p table elements later → element ∈ elements →
      state.FilledFrom p table elements (processFunction p table later element).2 := by
    intro later element before mem box
    rcases processFunction_mailboxes later element box with kept | ⟨packet, brings, written⟩
    · rw [kept]
      exact before box
    · exact .inr ⟨element, mem, packet, brings, written⟩
  exact Runs.Guarded.invariant _ preserved (fun _ => .inl rfl) (Runs.guarded_of_forall _ (fun _ mem _ => mem) _)

end

end Dfci
