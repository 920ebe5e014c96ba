import Linker.Codec.Json
import Linker.Common.Message

/-!
# The classes of messages as JSON

How the `ObjectMapper` of `Utils` writes and reads the envelope of a message and the classes of the
data.  A class is given by what its constructor without arguments makes and by its properties.

## Main definitions

* `ObjectMapper` : what Jackson and the constructor of `Message` add to what is written down here.
* `ObjectMapper.message`, `messageContent`, `messageMeta`, `address` : the envelope.
* `ObjectMapper.bean`, `messageStateChanged` : the classes of the data.

The lemmas `restore_*` say what comes back of an object: a null comes back as what the constructor sets.
-/

namespace Linker

/-- What is left open of Jackson, and what `new Message()` draws. -/
structure ObjectMapper where
  /-- A string property that is set to something else than a string. -/
  string : Json → Option String
  integer : Json → Option ℤ
  boolean : Json → Option Bool
  /-- The ordinal that the property of an enumeration is set to. -/
  ordinal : Json → Option ℕ
  uuid : String
  now : ℤ

/-! ### Scalars -/

namespace ObjectMapper

variable (M : ObjectMapper)

def stringValue : ValueCodec String where
  write := .str
  read
    | .str s => some s
    | j => M.string j
  read_write _ := rfl
  dropNulls_write _ := rfl
  isNull_write _ := rfl

def integerValue : ValueCodec ℤ where
  write := .int
  read
    | .int n => some n
    | j => M.integer j
  read_write _ := rfl
  dropNulls_write _ := rfl
  isNull_write _ := rfl

def booleanValue : ValueCodec Bool where
  write := .bool
  read
    | .bool b => some b
    | j => M.boolean j
  read_write _ := rfl
  dropNulls_write _ := rfl
  isNull_write _ := rfl

/-- An enumeration, by the names of its constants. -/
def enumValue {α : Type} (constants : List α) (name : α → String)
    (h : ∀ a, constants.find? (fun b => name b == name a) = some a) : ValueCodec α where
  write a := .str (name a)
  read
    | .str s => constants.find? (name · == s)
    | j => (M.ordinal j).bind fun n => constants[n]?
  read_write a := h a
  dropNulls_write _ := rfl
  isNull_write _ := rfl

end ObjectMapper

/-- `MessageState.name`. -/
def MessageState.name : MessageState → String
  | .CREATED => "CREATED"
  | .ADDRESS_NOT_FOUND => "ADDRESS_NOT_FOUND"
  | .NETWORK_ERROR => "NETWORK_ERROR"
  | .PROCESSED => "PROCESSED"
  | .PROCESSOR_ERROR => "PROCESSOR_ERROR"
  | .CONNECTOR_ERROR => "CONNECTOR_ERROR"

/-- `MessageFeature.name`. -/
def MessageFeature.name : MessageFeature → String
  | .FAST => "FAST"
  | .RELIABLE => "RELIABLE"

/-- `DeliveryType.name`. -/
def DeliveryType.name : DeliveryType → String
  | .ANY => "ANY"
  | .ALL => "ALL"

namespace ObjectMapper

variable (M : ObjectMapper)

def messageTypeValue : ValueCodec MessageType :=
  M.enumValue [.ANY, .GENERAL_ERROR, .AUTH_REQUIRED, .USER_CONNECTED, .USER_DISCONNECTED, .AUTH_CLIENT,
    .AUTH_CLIENT_REPLY, .INVALID_MESSAGE, .MESSAGE, .MESSAGE_CONFIRMATION, .GROUP_MESSAGE,
    .GROUP_CONNECTOR_MESSAGE, .MESSAGE_STATE_CHANGED, .DELIVER_FAILED, .INTERNAL_MESSAGE,
    .FETCH_MISSING_MESSAGES_REQUEST, .FETCH_MISSING_MESSAGES_COMPLETE, .CLOSE_CONNECTION]
    MessageType.name fun a => by cases a <;> rfl

def messageStateValue : ValueCodec MessageState :=
  M.enumValue [.CREATED, .ADDRESS_NOT_FOUND, .NETWORK_ERROR, .PROCESSED, .PROCESSOR_ERROR,
    .CONNECTOR_ERROR] MessageState.name fun a => by cases a <;> rfl

def messageFeatureValue : ValueCodec MessageFeature :=
  M.enumValue [.FAST, .RELIABLE] MessageFeature.name fun a => by cases a <;> rfl

def deliveryTypeValue : ValueCodec DeliveryType :=
  M.enumValue [.ANY, .ALL] DeliveryType.name fun a => by cases a <;> rfl

/-! ### The envelope -/

def address : ObjectCodec Address where
  new := ⟨none, none, some (-1)⟩
  properties := [
    .ofField "domainName" M.stringValue (·.domainName) (fun v a => { a with domainName := v })
      fun _ => rfl,
    .ofField "connectorName" M.stringValue (·.connectorName) (fun v a => { a with connectorName := v })
      fun _ => rfl,
    .ofField "socketId" M.integerValue (·.socketId) (fun v a => { a with socketId := v }) fun _ => rfl]
  nodup := show ["domainName", "connectorName", "socketId"].Nodup by decide

def messageMeta : ObjectCodec MessageMeta where
  new := {}
  properties := [
    .ofField "originalAddress" M.address.value (·.originalAddress)
      (fun v t => { t with originalAddress := v }) fun _ => rfl,
    .ofField "targetAddress" M.address.value (·.targetAddress)
      (fun v t => { t with targetAddress := v }) fun _ => rfl,
    .ofField "note" M.stringValue (·.note) (fun v t => { t with note := v }) fun _ => rfl,
    .ofField "ttl" M.integerValue (·.ttl) (fun v t => { t with ttl := v }) fun _ => rfl,
    .ofPrimitive "confirmEnabled" M.booleanValue (·.confirmEnabled)
      (fun v t => { t with confirmEnabled := v }) false,
    .ofField "deliveryType" M.deliveryTypeValue (·.deliveryType)
      (fun v t => { t with deliveryType := v }) fun _ => rfl]
  nodup := show ["originalAddress", "targetAddress", "note", "ttl", "confirmEnabled",
    "deliveryType"].Nodup by decide

/-- A content whose data are a JSON value. -/
def messageContent : ObjectCodec (MessageContentOf Json) where
  new := { type := none, data := .null }
  properties := [
    .ofField "type" M.messageTypeValue (·.type) (fun v c => { c with type := v }) fun _ => rfl,
    .ofJson "data" (·.data) (fun v c => { c with data := v }) fun _ => rfl,
    .ofField "reference" M.stringValue (·.reference) (fun v c => { c with reference := v })
      fun _ => rfl,
    .ofField "feature" M.messageFeatureValue (·.feature) (fun v c => { c with feature := v })
      fun _ => rfl,
    .ofField "confirmationEnabled" M.booleanValue (·.confirmationEnabled)
      (fun v c => { c with confirmationEnabled := v }) fun _ => rfl]
  nodup := show ["type", "data", "reference", "feature", "confirmationEnabled"].Nodup by decide

def message : ObjectCodec (MessageOf Json) where
  new := {
    id := some M.uuid
    version := some "0.1.0"
    content := none
    from_ := none
    to_ := none
    meta_ := none
    createdAt := M.now
    state := some .CREATED }
  properties := [
    .ofField "id" M.stringValue (·.id) (fun v m => { m with id := v }) fun _ => rfl,
    .ofField "version" M.stringValue (·.version) (fun v m => { m with version := v }) fun _ => rfl,
    .ofField "content" M.messageContent.value (·.content) (fun v m => { m with content := v })
      fun _ => rfl,
    .ofField "from" M.stringValue (·.from_) (fun v m => { m with from_ := v }) fun _ => rfl,
    .ofField "to" M.stringValue (·.to_) (fun v m => { m with to_ := v }) fun _ => rfl,
    .ofField "meta" M.messageMeta.value (·.meta_) (fun v m => { m with meta_ := v }) fun _ => rfl,
    .ofPrimitive "createdAt" M.integerValue (·.createdAt) (fun v m => { m with createdAt := v }) 0,
    .ofField "state" M.messageStateValue (·.state) (fun v m => { m with state := v }) fun _ => rfl]
  nodup := show ["id", "version", "content", "from", "to", "meta", "createdAt", "state"].Nodup by decide

theorem restore_address (a : Address) :
    M.address.restore a = { a with socketId := a.socketId.or (some (-1)) } := by
  simp [ObjectCodec.restore, address, Property.ofField, stringValue, integerValue]

theorem restore_messageMeta (t : MessageMeta) : M.messageMeta.restore t =
    { t with
      originalAddress := t.originalAddress.map M.address.restore
      targetAddress := t.targetAddress.map M.address.restore
      ttl := t.ttl.or (some 10)
      deliveryType := t.deliveryType.or (some .ALL) } := by
  simp [ObjectCodec.restore, messageMeta, Property.ofField, Property.ofPrimitive, ObjectCodec.value,
    stringValue, integerValue, booleanValue, deliveryTypeValue, enumValue]

theorem restore_messageContent (c : MessageContentOf Json) : M.messageContent.restore c =
    { c with
      data := if c.data.isNull then .null else c.data.dropNulls
      feature := c.feature.or (some .RELIABLE)
      confirmationEnabled := c.confirmationEnabled.or (some true) } := by
  simp [ObjectCodec.restore, messageContent, Property.ofField, Property.ofJson, stringValue,
    booleanValue, messageTypeValue, messageFeatureValue, enumValue]

theorem restore_message (m : MessageOf Json) : M.message.restore m =
    { m with
      id := m.id.or (some M.uuid)
      version := m.version.or (some "0.1.0")
      content := m.content.map M.messageContent.restore
      meta_ := m.meta_.map M.messageMeta.restore
      state := m.state.or (some .CREATED) } := by
  simp [ObjectCodec.restore, message, Property.ofField, Property.ofPrimitive, ObjectCodec.value,
    stringValue, integerValue, messageStateValue, enumValue]

end ObjectMapper

/-! ### The classes of the data -/

/-- The classes of messages without a message in them. -/
inductive BeanClass where
  | emptyMessage | messageRequest | messageForward | messageConfirmation | groupMessage
  | groupConnectorMessage | authClient | authClientReply | userConnected | userDisconnected
  | closeConnection | fetchMissingMessagesRequest | fetchMissingMessagesComplete
  deriving DecidableEq, Repr

/-- The objects of a class. -/
abbrev BeanClass.Carrier : BeanClass → Type
  | .emptyMessage => Unit
  | .messageRequest => MessageRequest
  | .messageForward => MessageForward
  | .messageConfirmation => Option String
  | .groupMessage => GroupMessage
  | .groupConnectorMessage => GroupConnectorMessage
  | .authClient => AuthClient
  | .authClientReply => AuthClientReply
  | .userConnected => Option String
  | .userDisconnected => Option String
  | .closeConnection => Option String
  | .fetchMissingMessagesRequest => Option ℤ
  | .fetchMissingMessagesComplete => Option ℤ

namespace ObjectMapper

variable (M : ObjectMapper)

/-- A class with one property. -/
def single {α : Type} (name : String) (V : ValueCodec α) (new : Option α) :
    ObjectCodec (Option α) where
  new
  properties := [.ofField name V id (fun v _ => v) fun _ => rfl]
  nodup := by simp

def messageForward : ObjectCodec MessageForward where
  new := ⟨none, none⟩
  properties := [
    .ofField "from" M.stringValue (·.from_) (fun v d => { d with from_ := v }) fun _ => rfl,
    .ofField "content" M.stringValue (·.content) (fun v d => { d with content := v }) fun _ => rfl]
  nodup := show ["from", "content"].Nodup by decide

def connectorUserId : ObjectCodec ConnectorUserId where
  new := ⟨none, none⟩
  properties := [
    .ofField "userId" M.stringValue (·.userId) (fun v d => { d with userId := v }) fun _ => rfl,
    .ofField "socketId" M.integerValue (·.socketId) (fun v d => { d with socketId := v }) fun _ => rfl]
  nodup := show ["userId", "socketId"].Nodup by decide

/-- How the objects of a class are written and read. -/
def bean : (c : BeanClass) → ObjectCodec c.Carrier
  | .emptyMessage => { new := (), properties := [], nodup := .nil }
  | .messageRequest => {
      new := ⟨none, none⟩
      properties := [
        .ofField "to" M.stringValue (·.to_) (fun v d => { d with to_ := v }) fun _ => rfl,
        .ofField "content" M.stringValue (·.content) (fun v d => { d with content := v })
          fun _ => rfl]
      nodup := show ["to", "content"].Nodup by decide }
  | .messageForward => M.messageForward
  | .messageConfirmation => single "reference" M.stringValue none
  | .groupMessage => {
      new := ⟨none, none⟩
      properties := [
        .ofField "to" M.stringValue.listOfNullable (·.to_) (fun v d => { d with to_ := v })
          fun _ => rfl,
        .ofField "content" M.stringValue (·.content) (fun v d => { d with content := v })
          fun _ => rfl]
      nodup := show ["to", "content"].Nodup by decide }
  | .groupConnectorMessage => {
      new := ⟨none, none⟩
      properties := [
        .ofField "connectorUserIds" M.connectorUserId.value.list (·.connectorUserIds)
          (fun v d => { d with connectorUserIds := v }) fun _ => rfl,
        .ofField "content" M.messageForward.value (·.content) (fun v d => { d with content := v })
          fun _ => rfl]
      nodup := show ["connectorUserIds", "content"].Nodup by decide }
  | .authClient => {
      new := ⟨none, none, none⟩
      properties := [
        .ofField "appId" M.stringValue (·.appId) (fun v d => { d with appId := v }) fun _ => rfl,
        .ofField "userId" M.stringValue (·.userId) (fun v d => { d with userId := v }) fun _ => rfl,
        .ofField "token" M.stringValue (·.token) (fun v d => { d with token := v }) fun _ => rfl]
      nodup := show ["appId", "userId", "token"].Nodup by decide }
  | .authClientReply => {
      new := ⟨none, none, none⟩
      properties := [
        .ofField "appId" M.stringValue (·.appId) (fun v d => { d with appId := v }) fun _ => rfl,
        .ofField "userId" M.stringValue (·.userId) (fun v d => { d with userId := v }) fun _ => rfl,
        .ofField "isAuthenticated" M.booleanValue (·.isAuthenticated)
          (fun v d => { d with isAuthenticated := v }) fun _ => rfl]
      nodup := show ["appId", "userId", "isAuthenticated"].Nodup by decide }
  | .userConnected => single "userId" M.stringValue none
  | .userDisconnected => single "userId" M.stringValue none
  | .closeConnection => single "userId" M.stringValue none
  | .fetchMissingMessagesRequest => single "count" M.integerValue none
  | .fetchMissingMessagesComplete => single "leftMissingCount" M.integerValue (some 0)

/-- `MessageStateChanged`. -/
def messageStateChanged : ObjectCodec (Option (MessageOf Json) × Option MessageState) where
  new := (none, none)
  properties := [
    .ofField "message" M.message.value (·.1) (fun v d => (v, d.2)) fun _ => rfl,
    .ofField "state" M.messageStateValue (·.2) (fun v d => (d.1, v)) fun _ => rfl]
  nodup := show ["message", "state"].Nodup by decide

theorem restore_messageForward : M.messageForward.restore = id := by
  funext d
  simp [ObjectCodec.restore, messageForward, Property.ofField, stringValue]

theorem restore_connectorUserId : M.connectorUserId.restore = id := by
  funext d
  simp [ObjectCodec.restore, connectorUserId, Property.ofField, stringValue, integerValue]

/-- Only `FetchMissingMessagesComplete` has a default of its own. -/
theorem restore_bean {c : BeanClass} (hc : c ≠ .fetchMissingMessagesComplete) (b : c.Carrier) :
    (M.bean c).restore b = b := by
  cases c with
  | fetchMissingMessagesComplete => exact absurd rfl hc
  | emptyMessage => rfl
  | groupConnectorMessage =>
    simp [ObjectCodec.restore, bean, Property.ofField, ObjectCodec.value, ValueCodec.list,
      restore_messageForward, restore_connectorUserId]
  | _ =>
    simp [ObjectCodec.restore, bean, single, messageForward, Property.ofField, stringValue, integerValue,
      booleanValue, ValueCodec.listOfNullable]

theorem restore_fetchMissingMessagesComplete (n : Option ℤ) :
    (M.bean .fetchMissingMessagesComplete).restore n = n.or (some 0) := by
  simp [ObjectCodec.restore, bean, single, Property.ofField, integerValue]

theorem restore_messageStateChanged (m : Option (MessageOf Json)) (s : Option MessageState) :
    M.messageStateChanged.restore (m, s) = (m.map M.message.restore, s) := by
  simp [ObjectCodec.restore, messageStateChanged, Property.ofField, ObjectCodec.value, messageStateValue,
    enumValue]

end ObjectMapper

end Linker
