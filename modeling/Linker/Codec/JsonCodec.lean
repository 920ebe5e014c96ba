import Linker.Codec.ObjectMapper

/-!
# Messages as JSON

`JsonCodec` writes a message with a mapper that leaves out nulls, and reads it into the class `Message`,
whose constructor sets some of the fields to something else than null.  The data of a content are of
the class `Object`: what was an object of a class of messages is a map when it is read, and the handler
of the message converts it to the class that it handles.

Strings are Unicode text: a `String` of Java with a lone surrogate, which has no encoding, is left out.

## Main definitions

* `Payload` : the data of a message, as an object of a class of messages or as a JSON value.
* `Payload.convert` : `Utils.convert` to the class of a handler.
* `JsonCodec.serialize`, `JsonCodec.deserialize` : the codec, up to the text of a JSON value.
* `Same` : messages that no handler can tell apart.
* `Intact` : a message in which no default takes the place of a null.

## Main results

* `JsonCodec.deserialize_serialize` : what comes back of a message.
* `JsonCodec.preserved_iff` : the messages that come back as they were.
-/

namespace Linker

/-! ### Messages -/

/-- The data of a message. -/
inductive Payload where
  /-- A map, a list or a scalar, or null. -/
  | json (j : Json)
  | bean (c : BeanClass) (b : c.Carrier)
  | messageStateChanged (message : Option (MessageOf Payload)) (state : Option MessageState)
  | message (m : MessageOf Payload)

/-- The class that a handler has its data converted to. -/
inductive HandlerClass where
  /-- `Object` -/
  | object
  | bean (c : BeanClass)
  | messageStateChanged
  | message
  deriving DecidableEq, Repr

/-- The class of an object of a class of messages. -/
def Payload.handlerClass? : Payload → Option HandlerClass
  | .json _ => none
  | .bean c _ => some (.bean c)
  | .messageStateChanged _ _ => some .messageStateChanged
  | .message _ => some .message

/-- The content with other data. -/
def MessageContentOf.mapData {D D' : Type} (f : D → D') (c : MessageContentOf D) :
    MessageContentOf D' :=
  ⟨c.type, f c.data, c.reference, c.feature, c.confirmationEnabled⟩

/-- The message with other data. -/
def MessageOf.mapData {D D' : Type} (f : D → D') (m : MessageOf D) : MessageOf D' :=
  ⟨m.id, m.version, m.content.map (·.mapData f), m.from_, m.to_, m.meta_, m.createdAt, m.state⟩

section

variable (M : ObjectMapper)

/-- What an object is written as. -/
def Payload.toJson : Payload → Json
  | .json j => j.dropNulls
  | .bean c b => (M.bean c).write b
  | .messageStateChanged none s => M.messageStateChanged.write (none, s)
  | .messageStateChanged (some ⟨id, v, none, u, u', t, n, st⟩) s =>
    M.messageStateChanged.write (some ⟨id, v, none, u, u', t, n, st⟩, s)
  | .messageStateChanged (some ⟨id, v, some ⟨type, d, r, f, e⟩, u, u', t, n, st⟩) s =>
    M.messageStateChanged.write (some ⟨id, v, some ⟨type, d.toJson, r, f, e⟩, u, u', t, n, st⟩, s)
  | .message ⟨id, v, none, u, u', t, n, st⟩ => M.message.write ⟨id, v, none, u, u', t, n, st⟩
  | .message ⟨id, v, some ⟨type, d, r, f, e⟩, u, u', t, n, st⟩ =>
    M.message.write ⟨id, v, some ⟨type, d.toJson, r, f, e⟩, u, u', t, n, st⟩

theorem Payload.toJson_message (m : MessageOf Payload) :
    (Payload.message m).toJson M = M.message.write (m.mapData (Payload.toJson M)) := by
  rcases m with ⟨id, v, _ | ⟨type, d, r, f, e⟩, u, u', t, n, st⟩ <;> rfl

theorem Payload.toJson_messageStateChanged (m : Option (MessageOf Payload)) (s : Option MessageState) :
    (Payload.messageStateChanged m s).toJson M =
      M.messageStateChanged.write (m.map (·.mapData (Payload.toJson M)), s) := by
  rcases m with _ | ⟨id, v, _ | ⟨type, d, r, f, e⟩, u, u', t, n, st⟩ <;> rfl

/-- Read an object of a class. -/
def Payload.read : HandlerClass → Json → Option Payload
  | .object, j => some (.json j)
  | .bean c, j => ((M.bean c).read j).map (.bean c)
  | .messageStateChanged, j => (M.messageStateChanged.read j).map fun (m, s) =>
    .messageStateChanged (m.map (·.mapData .json)) s
  | .message, j => (M.message.read j).map fun m => .message (m.mapData .json)

/-- `Utils.convert`: null stays null, an object of the class stays the object that it is, and another
one is written and read. -/
def Payload.convert (c : HandlerClass) : Payload → Option Payload
  | .json .null => some (.json .null)
  | p => if p.handlerClass? = some c then some p else Payload.read M c (p.toJson M)

namespace JsonCodec

def serialize (m : MessageOf Payload) : Json := M.message.write (m.mapData (Payload.toJson M))

/-- `deserialize` into the class `Message`. -/
def deserialize (j : Json) : Option (MessageOf Payload) := (M.message.read j).map (·.mapData .json)

end JsonCodec

/-! ### What comes back -/

theorem Payload.dropNulls_toJson (d : Payload) : (d.toJson M).dropNulls = d.toJson M := by
  cases d with
  | json j => exact Json.dropNulls_dropNulls j
  | bean c b => exact (M.bean c).dropNulls_write b
  | messageStateChanged m s =>
    rw [toJson_messageStateChanged]
    exact M.messageStateChanged.dropNulls_write _
  | message m =>
    rw [toJson_message]
    exact M.message.dropNulls_write _

/-- The content that is read from what a content is written as. -/
def JsonCodec.restoredContent (c : MessageContentOf Payload) : MessageContentOf Payload where
  type := c.type
  data := .json (c.data.toJson M)
  reference := c.reference
  feature := c.feature.or (some .RELIABLE)
  confirmationEnabled := c.confirmationEnabled.or (some true)

/-- The message that is read from what a message is written as. -/
def JsonCodec.restored (m : MessageOf Payload) : MessageOf Payload where
  id := m.id.or (some M.uuid)
  version := m.version.or (some "0.1.0")
  content := m.content.map (restoredContent M)
  from_ := m.from_
  to_ := m.to_
  meta_ := m.meta_.map M.messageMeta.restore
  createdAt := m.createdAt
  state := m.state.or (some .CREATED)

theorem Json.eq_null {j : Json} (h : j.isNull = true) : j = .null := by
  cases j <;> first | rfl | cases h

theorem JsonCodec.mapData_restore (m : MessageOf Payload) :
    (M.message.restore (m.mapData (Payload.toJson M))).mapData .json = restored M m := by
  rw [M.restore_message]
  rcases m with ⟨id, v, _ | c, u, u', t, n, st⟩
  · rfl
  · have hdata : (if (c.data.toJson M).isNull then .null else (c.data.toJson M).dropNulls) =
        c.data.toJson M := by
      split
      · next hnull => exact (Json.eq_null hnull).symm
      · exact Payload.dropNulls_toJson M c.data
    simp [MessageOf.mapData, MessageContentOf.mapData, restored, restoredContent,
      M.restore_messageContent, hdata]

/-- **The round trip**: a message comes back with a default wherever it had a null and the constructor
sets something else. -/
theorem JsonCodec.deserialize_serialize (m : MessageOf Payload) :
    deserialize M (serialize M m) = some (restored M m) := by
  rw [deserialize, serialize, ObjectCodec.read_write, Option.map_some, mapData_restore]

/-! ### Messages that no handler can tell apart -/

variable (handler : Option MessageType → HandlerClass)

/-- The same data for a handler, up to the messages in them. -/
def SameData (same : MessageOf Payload → MessageOf Payload → Prop) :
    Option Payload → Option Payload → Prop
  | some (.message m), some (.message m') => same m m'
  | some (.messageStateChanged m s), some (.messageStateChanged m' s') =>
    Option.Rel same m m' ∧ s = s'
  | d, d' => d = d'

/-- The same content: the data are compared as the handler of the message converts them. -/
structure SameContent (same : MessageOf Payload → MessageOf Payload → Prop)
    (c c' : MessageContentOf Payload) : Prop where
  type : c'.type = c.type
  data : SameData same (c.data.convert M (handler c.type)) (c'.data.convert M (handler c.type))
  reference : c'.reference = c.reference
  feature : c'.feature = c.feature
  confirmationEnabled : c'.confirmationEnabled = c.confirmationEnabled

structure SameMessage (same : MessageOf Payload → MessageOf Payload → Prop)
    (m m' : MessageOf Payload) : Prop where
  id : m'.id = m.id
  version : m'.version = m.version
  content : Option.Rel (SameContent M handler same) m.content m'.content
  from_ : m'.from_ = m.from_
  to_ : m'.to_ = m.to_
  meta_ : m'.meta_ = m.meta_
  createdAt : m'.createdAt = m.createdAt
  state : m'.state = m.state

/-- The same down to the messages that are so many messages deep. -/
def SameUpTo : ℕ → MessageOf Payload → MessageOf Payload → Prop
  | 0 => fun _ _ => True
  | depth + 1 => SameMessage M handler (SameUpTo depth)

/-- The same, however deep one looks. -/
def Same (m m' : MessageOf Payload) : Prop := ∀ depth, SameUpTo M handler depth m m'

/-! ### Messages without a null where there is a default -/

structure MessageMeta.Intact (t : MessageMeta) : Prop where
  originalAddress : ∀ a, t.originalAddress = some a → a.socketId ≠ none
  targetAddress : ∀ a, t.targetAddress = some a → a.socketId ≠ none
  ttl : t.ttl ≠ none
  deliveryType : t.deliveryType ≠ none

/-- No field of the envelope is null for which there is a default. -/
structure MessageOf.Filled {D : Type} (m : MessageOf D) : Prop where
  id : m.id ≠ none
  version : m.version ≠ none
  content : ∀ c, m.content = some c → c.feature ≠ none ∧ c.confirmationEnabled ≠ none
  meta_ : ∀ t, m.meta_ = some t → t.Intact
  state : m.state ≠ none

/-- The same of the data, where they are an object of the class that they are converted to: such an
object is not written in the conversion. -/
def Payload.Intact : Payload → HandlerClass → Prop
  | .bean .fetchMissingMessagesComplete n, c =>
    c = .bean .fetchMissingMessagesComplete → n ≠ (none : Option ℤ)
  | .messageStateChanged (some ⟨id, v, none, u, u', t, n, st⟩) _, c =>
    c = .messageStateChanged →
      (⟨id, v, none, u, u', t, n, st⟩ : MessageOf Payload).Filled
  | .messageStateChanged (some ⟨id, v, some ⟨type, d, r, f, e⟩, u, u', t, n, st⟩) _, c =>
    c = .messageStateChanged →
      (⟨id, v, some ⟨type, d, r, f, e⟩, u, u', t, n, st⟩ : MessageOf Payload).Filled ∧
        d.Intact (handler type)
  | .message ⟨id, v, none, u, u', t, n, st⟩, c =>
    c = .message → (⟨id, v, none, u, u', t, n, st⟩ : MessageOf Payload).Filled
  | .message ⟨id, v, some ⟨type, d, r, f, e⟩, u, u', t, n, st⟩, c =>
    c = .message →
      (⟨id, v, some ⟨type, d, r, f, e⟩, u, u', t, n, st⟩ : MessageOf Payload).Filled ∧
        d.Intact (handler type)
  | _, _ => True

/-- A message in which no default takes the place of a null. -/
structure Intact (m : MessageOf Payload) : Prop where
  filled : m.Filled
  data : ∀ c, m.content = some c → c.data.Intact handler (handler c.type)

/-! ### The messages that come back as they were -/

theorem or_some_eq_self {α : Type} {o : Option α} {a : α} : o.or (some a) = o ↔ o ≠ none := by
  cases o <;> simp

theorem ObjectMapper.restore_address_eq_iff {o : Option Address} :
    o.map M.address.restore = o ↔ ∀ a, o = some a → a.socketId ≠ none := by
  rcases o with _ | ⟨d, c, i⟩
  · simp
  · cases i <;> simp [M.restore_address]

theorem ObjectMapper.restore_messageMeta_eq_iff {t : MessageMeta} :
    M.messageMeta.restore t = t ↔ t.Intact := by
  rw [M.restore_messageMeta]
  constructor
  · intro h
    obtain ⟨o, o', note, ttl, e, d⟩ := t
    simp only [MessageMeta.mk.injEq, true_and] at h
    obtain ⟨ho, ho', httl, hd⟩ := h
    exact ⟨M.restore_address_eq_iff.1 ho, M.restore_address_eq_iff.1 ho', or_some_eq_self.1 httl,
      or_some_eq_self.1 hd⟩
  · intro h
    rw [M.restore_address_eq_iff.2 h.originalAddress, M.restore_address_eq_iff.2 h.targetAddress,
      or_some_eq_self.2 h.ttl, or_some_eq_self.2 h.deliveryType]

/-- What comes back is the same exactly if nothing had to be filled in, and a handler is given the same
data. -/
theorem sameMessage_restored_iff {same : MessageOf Payload → MessageOf Payload → Prop}
    {m : MessageOf Payload} :
    SameMessage M handler same m (JsonCodec.restored M m) ↔ m.Filled ∧
      ∀ c, m.content = some c → SameData same (c.data.convert M (handler c.type))
        ((Payload.json (c.data.toJson M)).convert M (handler c.type)) := by
  constructor
  · intro h
    have hcontents : ∀ c, m.content = some c →
        SameContent M handler same c (JsonCodec.restoredContent M c) := by
      intro c hc
      have hcontent := h.content
      rw [hc, show (JsonCodec.restored M m).content = m.content.map (JsonCodec.restoredContent M) from rfl,
        hc, Option.map_some] at hcontent
      cases hcontent with
      | some hcontent => exact hcontent
    refine ⟨⟨or_some_eq_self.1 h.id, or_some_eq_self.1 h.version, fun c hc => ?_, fun t ht => ?_,
      or_some_eq_self.1 h.state⟩, fun c hc => (hcontents c hc).data⟩
    · exact ⟨or_some_eq_self.1 (hcontents c hc).feature,
        or_some_eq_self.1 (hcontents c hc).confirmationEnabled⟩
    · have hmeta : m.meta_.map M.messageMeta.restore = m.meta_ := h.meta_
      rw [ht] at hmeta
      exact M.restore_messageMeta_eq_iff.1 (Option.some.inj hmeta)
  · rintro ⟨h, hdata⟩
    refine ⟨or_some_eq_self.2 h.id, or_some_eq_self.2 h.version, ?_, rfl, rfl, ?_, rfl,
      or_some_eq_self.2 h.state⟩
    · rw [JsonCodec.restored]
      cases hc : m.content with
      | none => exact .none
      | some c =>
        obtain ⟨hfeature, hconfirmation⟩ := h.content c hc
        exact .some ⟨rfl, hdata c hc, rfl, or_some_eq_self.2 hfeature, or_some_eq_self.2 hconfirmation⟩
    · rw [JsonCodec.restored]
      cases ht : m.meta_ with
      | none => rfl
      | some t => exact congrArg some (M.restore_messageMeta_eq_iff.2 (h.meta_ t ht))

theorem sameData_refl {same : MessageOf Payload → MessageOf Payload → Prop} (h : ∀ m, same m m)
    (d : Option Payload) : SameData same d d := by
  rcases d with _ | (_ | _ | ⟨_ | m, s⟩ | m)
  · rfl
  · rfl
  · rfl
  · exact ⟨.none, rfl⟩
  · exact ⟨.some (h m), rfl⟩
  · exact h m

theorem same_refl (m : MessageOf Payload) : Same M handler m m := by
  intro depth
  induction depth generalizing m with
  | zero => trivial
  | succ depth ih =>
    refine ⟨rfl, rfl, ?_, rfl, rfl, rfl, rfl, rfl⟩
    cases m.content with
    | none => exact .none
    | some c => exact .some ⟨rfl, sameData_refl ih _, rfl, rfl, rfl⟩

theorem Payload.isNull_toJson {d : Payload} (h : ∀ j, d ≠ .json j) : (d.toJson M).isNull = false := by
  cases d with
  | json j => exact absurd rfl (h j)
  | bean c b => rfl
  | messageStateChanged m s => rw [toJson_messageStateChanged]; rfl
  | message m => rw [toJson_message]; rfl

theorem Payload.convert_json {j : Json} (h : j.isNull = false) (c : HandlerClass) :
    (Payload.json j).convert M c = Payload.read M c j.dropNulls := by
  cases j <;> first | rfl | cases h

/-- What has been written is converted by reading it. -/
theorem Payload.convert_toJson {d : Payload} (h : ∀ j, d ≠ .json j) (c : HandlerClass) :
    (Payload.json (d.toJson M)).convert M c = Payload.read M c (d.toJson M) := by
  rw [convert_json M (isNull_toJson M h), dropNulls_toJson]

/-- An object of another class is written and read in a conversion anyway. -/
theorem Payload.convert_of_ne {d : Payload} {c : HandlerClass} (h : ∀ j, d ≠ .json j)
    (hc : d.handlerClass? ≠ some c) : d.convert M c = Payload.read M c (d.toJson M) := by
  cases d with
  | json j => exact absurd rfl (h j)
  | bean | messageStateChanged | message => exact if_neg hc

theorem Payload.convert_of_eq {d : Payload} {c : HandlerClass} (hc : d.handlerClass? = some c) :
    d.convert M c = some d := by
  cases d with
  | json j => cases hc
  | bean | messageStateChanged | message => exact if_pos hc

theorem Payload.convert_toJson_json (j : Json) (c : HandlerClass) :
    (Payload.json ((Payload.json j).toJson M)).convert M c = (Payload.json j).convert M c := by
  cases hj : j.isNull
  · rw [toJson, convert_json M hj, convert_json M (by rw [Json.isNull_dropNulls, hj]),
      Json.dropNulls_dropNulls]
  · cases Json.eq_null hj
    rfl

/-- A handler of another class is given the same data. -/
theorem sameData_of_ne {d : Payload} {c : HandlerClass} (hc : d.handlerClass? ≠ some c) (depth : ℕ) :
    SameData (SameUpTo M handler depth) (d.convert M c) ((Payload.json (d.toJson M)).convert M c) := by
  have heq : (Payload.json (d.toJson M)).convert M c = d.convert M c := by
    by_cases hjson : ∃ j, d = .json j
    · obtain ⟨j, rfl⟩ := hjson
      exact Payload.convert_toJson_json M j c
    · have hjson : ∀ j, d ≠ .json j := fun j hj => hjson ⟨j, hj⟩
      rw [Payload.convert_toJson M hjson, Payload.convert_of_ne M hjson hc]
  rw [heq]
  exact sameData_refl (fun m => same_refl M handler m depth) _

/-- What holds of the data holds of a message in them. -/
theorem same_restored_iff {m : MessageOf Payload}
    (h : ∀ c, m.content = some c →
      ((∀ depth, SameData (SameUpTo M handler depth) (c.data.convert M (handler c.type))
        ((Payload.json (c.data.toJson M)).convert M (handler c.type))) ↔
        c.data.Intact handler (handler c.type))) :
    Same M handler m (JsonCodec.restored M m) ↔ Intact handler m := by
  constructor
  · intro hsame
    have hsame : ∀ depth, SameMessage M handler (SameUpTo M handler depth) m (JsonCodec.restored M m) :=
      fun depth => hsame (depth + 1)
    refine ⟨((sameMessage_restored_iff M handler).1 (hsame 0)).1, fun c hc => (h c hc).1 fun depth => ?_⟩
    exact ((sameMessage_restored_iff M handler).1 (hsame depth)).2 c hc
  · intro hm depth
    cases depth with
    | zero => trivial
    | succ depth =>
      exact (sameMessage_restored_iff M handler).2
        ⟨hm.filled, fun c hc => (h c hc).2 (hm.data c hc) depth⟩

/-- A handler is given the same data before and after. -/
def Unchanged (d : Payload) (c : HandlerClass) : Prop :=
  ∀ depth, SameData (SameUpTo M handler depth) (d.convert M c) ((Payload.json (d.toJson M)).convert M c)

theorem intact_message {m : MessageOf Payload} {c : HandlerClass} :
    (Payload.message m).Intact handler c ↔ (c = .message → Intact handler m) := by
  rcases m with ⟨id, v, _ | ⟨type, d, r, f, e⟩, u, u', t, n, st⟩
  · exact imp_congr_right fun _ => ⟨fun h => ⟨h, fun c hc => by cases hc⟩, Intact.filled⟩
  · refine imp_congr_right fun _ => ⟨fun h => ⟨h.1, fun c hc => ?_⟩, fun h => ⟨h.filled, h.data _ rfl⟩⟩
    cases hc
    exact h.2

theorem intact_messageStateChanged {m : MessageOf Payload} {s : Option MessageState}
    {c : HandlerClass} : (Payload.messageStateChanged (some m) s).Intact handler c ↔
      (c = .messageStateChanged → Intact handler m) := by
  rcases m with ⟨id, v, _ | ⟨type, d, r, f, e⟩, u, u', t, n, st⟩
  · exact imp_congr_right fun _ => ⟨fun h => ⟨h, fun c hc => by cases hc⟩, Intact.filled⟩
  · refine imp_congr_right fun _ => ⟨fun h => ⟨h.1, fun c hc => ?_⟩, fun h => ⟨h.filled, h.data _ rfl⟩⟩
    cases hc
    exact h.2

section

variable {m : MessageOf Payload}
  (h : ∀ c, m.content = some c →
    (Unchanged M handler c.data (handler c.type) ↔ c.data.Intact handler (handler c.type)))

include h

theorem unchanged_message (c : HandlerClass) :
    Unchanged M handler (.message m) c ↔ (Payload.message m).Intact handler c := by
  rw [intact_message]
  by_cases hc : c = .message
  · subst hc
    have hread : Payload.read M .message ((Payload.message m).toJson M) =
        some (.message (JsonCodec.restored M m)) := by
      rw [Payload.read, Payload.toJson_message, ObjectCodec.read_write, Option.map_some,
        JsonCodec.mapData_restore]
    rw [Unchanged, Payload.convert_toJson M (fun _ h => by cases h), hread,
      Payload.convert_of_eq M (c := .message) rfl, ← same_restored_iff M handler h]
    exact ⟨fun h _ => h, fun h => h rfl⟩
  · exact ⟨fun _ h => absurd h hc, fun _ => sameData_of_ne M handler fun h => hc (Option.some.inj h).symm⟩

theorem unchanged_messageStateChanged (s : Option MessageState) (c : HandlerClass) :
    Unchanged M handler (.messageStateChanged (some m) s) c ↔
      (Payload.messageStateChanged (some m) s).Intact handler c := by
  rw [intact_messageStateChanged]
  by_cases hc : c = .messageStateChanged
  · subst hc
    have hread : Payload.read M .messageStateChanged
        ((Payload.messageStateChanged (some m) s).toJson M) =
          some (.messageStateChanged (some (JsonCodec.restored M m)) s) := by
      rw [Payload.read, Payload.toJson_messageStateChanged, ObjectCodec.read_write, Option.map_some,
        M.restore_messageStateChanged, ← JsonCodec.mapData_restore]
      rfl
    rw [Unchanged, Payload.convert_toJson M (fun _ h => by cases h), hread,
      Payload.convert_of_eq M (c := .messageStateChanged) rfl, ← same_restored_iff M handler h]
    refine ⟨fun h _ depth => ?_, fun h depth => ⟨.some (h rfl depth), rfl⟩⟩
    obtain ⟨hrel, -⟩ := h depth
    cases hrel with
    | some hsame => exact hsame
  · exact ⟨fun _ h => absurd h hc, fun _ => sameData_of_ne M handler fun h => hc (Option.some.inj h).symm⟩

end

theorem unchanged_noMessage (s : Option MessageState) (c : HandlerClass) :
    Unchanged M handler (.messageStateChanged none s) c := by
  by_cases hc : c = .messageStateChanged
  · subst hc
    have hread : Payload.read M .messageStateChanged ((Payload.messageStateChanged none s).toJson M) =
        some (.messageStateChanged none s) := by
      rw [Payload.read, Payload.toJson_messageStateChanged, ObjectCodec.read_write, Option.map_some,
        M.restore_messageStateChanged]
      rfl
    rw [Unchanged, Payload.convert_toJson M (fun _ h => by cases h), hread,
      Payload.convert_of_eq M (c := .messageStateChanged) rfl]
    exact fun _ => ⟨.none, rfl⟩
  · exact sameData_of_ne M handler fun h => hc (Option.some.inj h).symm

theorem unchanged_bean (b : BeanClass) (x : b.Carrier) (c : HandlerClass) :
    Unchanged M handler (.bean b x) c ↔ (Payload.bean b x).Intact handler c := by
  by_cases hc : c = .bean b
  · subst hc
    have hunchanged : Unchanged M handler (.bean b x) (.bean b) ↔ (M.bean b).restore x = x := by
      have hread : Payload.read M (.bean b) ((Payload.bean b x).toJson M) =
          some (.bean b ((M.bean b).restore x)) := by
        rw [Payload.read, Payload.toJson, ObjectCodec.read_write, Option.map_some]
      rw [Unchanged, Payload.convert_toJson M (fun _ h => by cases h), hread,
        Payload.convert_of_eq M (c := .bean b) rfl]
      simp [SameData, eq_comm]
    rw [hunchanged]
    by_cases hb : b = .fetchMissingMessagesComplete
    · subst hb
      rw [M.restore_fetchMissingMessagesComplete]
      exact or_some_eq_self.trans ⟨fun h _ => h, fun h => h rfl⟩
    · refine iff_of_true (M.restore_bean hb x) ?_
      cases b <;> trivial
  · refine iff_of_true (sameData_of_ne M handler fun h => hc (Option.some.inj h).symm) ?_
    cases b <;> first | trivial | exact fun h => absurd h hc

/-- **The data**: what a handler is given is the same exactly if no default takes the place of a null
in it. -/
theorem unchanged_iff_intact : ∀ (d : Payload) (c : HandlerClass),
    Unchanged M handler d c ↔ d.Intact handler c
  | .json j, c => iff_of_true (sameData_of_ne M handler fun h => by cases h) trivial
  | .bean b x, c => unchanged_bean M handler b x c
  | .messageStateChanged none s, c => iff_of_true (unchanged_noMessage M handler s c) trivial
  | .messageStateChanged (some ⟨id, v, none, u, u', t, n, st⟩) s, c =>
    unchanged_messageStateChanged M handler (fun c hc => by cases hc) s c
  | .messageStateChanged (some ⟨id, v, some ⟨type, d, r, f, e⟩, u, u', t, n, st⟩) s, c =>
    unchanged_messageStateChanged M handler
      (fun c hc => by cases hc; exact unchanged_iff_intact d (handler type)) s c
  | .message ⟨id, v, none, u, u', t, n, st⟩, c =>
    unchanged_message M handler (fun c hc => by cases hc) c
  | .message ⟨id, v, some ⟨type, d, r, f, e⟩, u, u', t, n, st⟩, c =>
    unchanged_message M handler (fun c hc => by cases hc; exact unchanged_iff_intact d (handler type)) c

/-- **Messages that come back**: a message is read from what it is written as, so that no handler can
tell the difference, exactly if it has no null where the constructor sets something else. -/
theorem JsonCodec.preserved_iff (m : MessageOf Payload) :
    (∃ m', deserialize M (serialize M m) = some m' ∧ Same M handler m m') ↔ Intact handler m := by
  rw [← same_restored_iff M handler fun c _ => unchanged_iff_intact M handler c.data (handler c.type)]
  constructor
  · rintro ⟨m', hm', hsame⟩
    rw [deserialize_serialize] at hm'
    exact Option.some.inj hm' ▸ hsame
  · exact fun h => ⟨_, deserialize_serialize M m, h⟩

end

/-! ### A message without confirmation -/

namespace SampleMapper

/-- A mapper that reads a property from values of its own kind only. -/
def mapper : ObjectMapper where
  string _ := none
  integer _ := none
  boolean _ := none
  ordinal _ := none
  uuid := "1"
  now := 1

/-- The classes that the handlers of a processor have their data converted to. -/
def handler : Option MessageType → HandlerClass
  | some .MESSAGE => .bean .messageRequest
  | some .INTERNAL_MESSAGE => .message
  | _ => .object

/-- What a client sends that sets `confirmationEnabled` to null. -/
def unconfirmed : MessageOf Payload where
  id := some "2"
  version := some "0.1.0"
  content := some {
    type := some .MESSAGE
    data := .json (.obj [("to", .str "APP-5"), ("content", .str "hello")])
    confirmationEnabled := none }
  from_ := some "APP-6"
  to_ := none
  meta_ := some { originalAddress := some ⟨some "domain-01", some "connector-01", some 1⟩ }
  createdAt := 2
  state := some .CREATED

end SampleMapper

open SampleMapper

/-- It comes back with the confirmation enabled. -/
theorem not_preserved_unconfirmed : ¬ ∃ m', JsonCodec.deserialize mapper
    (JsonCodec.serialize mapper unconfirmed) = some m' ∧ Same mapper handler unconfirmed m' := by
  rintro ⟨m', hm', hsame⟩
  rw [JsonCodec.deserialize_serialize] at hm'
  cases hm'
  have hcontent := (hsame 1).content
  cases hcontent with
  | some hcontent => cases hcontent.confirmationEnabled

end Linker
