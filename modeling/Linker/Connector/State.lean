import Linker.Common.Message
import Linker.Exec.Basic

/-!
# The state of a connector

A connector holds the sockets of its clients.  `NetworkUserService` has two maps from user ids to
socket handlers: `users`, and `pendingUsers` for those waiting for the answer to their `AUTH_CLIENT`.
A socket handler is given by its socket id, and what the handler object stores is a `Socket`.

* `State` : the sockets, the two maps, the messages published to the processors and what has been
  written to the sockets.
* `NetworkUserService` : the operations on the two maps.
-/

namespace Linker.Connector

inductive AuthStatus where
  | NOT_AUTHENTICATED | AUTHENTICATING | AUTHENTICATED
  deriving DecidableEq, Repr

/-- What a socket handler stores, and whether it is still in the pipeline of an open channel. -/
structure Socket where
  userId : Option String := none
  authStatus : AuthStatus := .NOT_AUTHENTICATED
  isOpen : Bool := true
  deriving DecidableEq, Repr

/-- What a run of a connector does not change. -/
structure Config where
  domainName : String
  connectorName : String
  /-- The identifier that the `n`-th `new Message()` draws. -/
  uuid : ℕ → String
  /-- The time at which it draws it. -/
  now : ℕ → ℤ

/-- The address of a socket of the connector. -/
def Config.address (C : Config) (socketId : ℤ) : Address :=
  ⟨some C.domainName, some C.connectorName, some socketId⟩

/-- What a socket is written: a `MessageContentOutput` with the message it is the content of, none
where the connector answers the client itself. -/
structure Output where
  socketId : ℤ
  type : Option MessageType
  data : Data
  reference : Option String
  message : Option Message
  isSuccess : Bool

structure State where
  /-- `SocketChannelInitializer.counter`. -/
  counter : ℤ := 0
  sockets : ℤ → Option Socket := fun _ => none
  users : String → Option (List ℤ) := fun _ => none
  pendingUsers : String → Option (List ℤ) := fun _ => none
  /-- What has been put on the topic of the processors. -/
  published : List Message := []
  outputs : List Output := []
  /-- The sockets that the connector has asked to close. -/
  closing : List ℤ := []
  /-- How many messages have been constructed. -/
  serial : ℕ := 0
  /-- How the next writes to open channels end. -/
  futures : List Bool := []

/-- A computation of a connector. -/
abbrev Conn (α : Type) := Exec State JavaException α

/-- `try { x } catch (Exception e) { h }` -/
abbrev Conn.catchException {α : Type} (x : Conn α) (h : JavaException → Conn α) : Conn α :=
  x.recoverIf (fun e => !e.isError) h

/-- A reference that a call dereferences: null throws a `NullPointerException`. -/
def orNullPointer {α : Type} : Option α → Conn α
  | some a => pure a
  | none => .fail .nullPointer

def getMeta (m : Message) : Conn MessageMeta := orNullPointer m.meta_

def getContent (m : Message) : Conn MessageContent := orNullPointer m.content

/-- `MessageProcessor.getData`, with the class given by what it reads. -/
def getData {α : Type} (view : Data → Option α) (m : Message) : Conn (Option α) := do
  let c ← getContent m
  match c.data.convert view with
  | .ok d => pure d
  | .error e => .fail e

/-- The `n`-th new message. -/
def Config.blank (C : Config) (n : ℕ) : Message := newMessage (C.uuid n) (C.now n)

/-- `Message.builder()`. -/
def builder (C : Config) : Conn Message := do
  let n ← Exec.read State.serial
  .modify fun s => { s with serial := s.serial + 1 }
  pure (C.blank n)

/-! ### Socket handlers -/

namespace SocketHandler

/-- Change what the handler stores. -/
def update (socketId : ℤ) (f : Socket → Socket) : Conn Unit :=
  .modify fun s => { s with
    sockets := fun j => if j = socketId then (s.sockets j).map f else s.sockets j }

def setUserId (socketId : ℤ) (userId : Option String) : Conn Unit :=
  update socketId fun k => { k with userId }

def setAuthStatus (socketId : ℤ) (authStatus : AuthStatus) : Conn Unit :=
  update socketId fun k => { k with authStatus }

/-- `context.writeAndFlush(content.toContentOutput())`, with the outcome of its future. -/
def write (socketId : ℤ) (message : Option Message) (c : MessageContent) : Conn Bool := do
  let isOpen ← Exec.read fun s => ((s.sockets socketId).map (·.isOpen)).getD false
  let future ← Exec.read fun s => s.futures.headD true
  let isSuccess := isOpen && future
  .modify fun s => { s with
    futures := s.futures.tail
    outputs := s.outputs ++ [⟨socketId, c.type, c.data, c.reference, message, isSuccess⟩] }
  pure isSuccess

/-- `sendMessage(MessageContent)`. -/
def sendContent (socketId : ℤ) (c : MessageContent) : Conn Bool := write socketId none c

/-- `sendMessage(Message)`. -/
def sendMessage (socketId : ℤ) (m : Message) : Conn Bool := do
  let c ← getContent m
  write socketId (some m) c

def close (socketId : ℤ) : Conn Unit :=
  .modify fun s => { s with closing := s.closing ++ [socketId] }

end SocketHandler

/-! ### NetworkUserService -/

/-- `users` and `pendingUsers` are `ConcurrentHashMap`s of lists of handlers. -/
abbrev UserMap := String → Option (List ℤ)

namespace UserMap

def addUser (userId : String) (socketId : ℤ) (map : UserMap) : UserMap :=
  fun v => if v = userId then some ((map v).getD [] ++ [socketId]) else map v

def removeUser (userId : String) (socketId : ℤ) (map : UserMap) : UserMap :=
  fun v =>
    if v = userId then
      (map v).bind fun handlers =>
        let rest := handlers.filter fun i => i ≠ socketId
        if rest.isEmpty then none else some rest
    else map v

/-- The handler with the given socket id; no handler has the id null. -/
def getUser (userId : String) (socketId : Option ℤ) (map : UserMap) : Option ℤ :=
  ((map userId).getD []).find? fun i => some i = socketId

theorem getUser_eq_some {map : UserMap} {u : String} {i : Option ℤ} {j : ℤ}
    (h : map.getUser u i = some j) : i = some j ∧ j ∈ (map u).getD [] := by
  refine ⟨?_, List.mem_of_find?_eq_some h⟩
  have hj := List.find?_some h
  simpa [eq_comm] using hj

theorem mem_addUser {map : UserMap} {u v : String} {i j : ℤ} :
    j ∈ (map.addUser u i v).getD [] ↔ j ∈ (map v).getD [] ∨ (v = u ∧ j = i) := by
  simp only [addUser]
  split_ifs with h
  · simp [h]
  · simp [h]

theorem mem_removeUser {map : UserMap} {u v : String} {i j : ℤ} :
    j ∈ (map.removeUser u i v).getD [] ↔ j ∈ (map v).getD [] ∧ ¬ (v = u ∧ j = i) := by
  simp only [removeUser]
  split_ifs with h
  · cases map v with
    | none => simp
    | some l =>
      simp only [Option.bind_some, Option.getD_some, h, true_and]
      split_ifs with hl
      · simp only [List.isEmpty_iff, List.filter_eq_nil_iff, decide_eq_true_eq, not_not] at hl
        simp only [Option.getD_none, List.not_mem_nil, false_iff, not_and, not_not]
        exact fun hj => hl j hj
      · simp
  · simp [h]

end UserMap

/-- A `ConcurrentHashMap` has no key null. -/
def key (userId : Option String) : Conn String := orNullPointer userId

namespace NetworkUserService

def addUser (userId : Option String) (socketId : ℤ) : Conn Unit := do
  let u ← key userId
  .modify fun s => { s with users := UserMap.addUser u socketId s.users }

def removeUser (userId : Option String) (socketId : ℤ) : Conn Unit := do
  let u ← key userId
  .modify fun s => { s with users := UserMap.removeUser u socketId s.users }

def getUser (userId : Option String) (socketId : Option ℤ) : Conn (Option ℤ) := do
  let u ← key userId
  .read fun s => UserMap.getUser u socketId s.users

def addPendingUser (userId : Option String) (socketId : ℤ) : Conn Unit := do
  let u ← key userId
  .modify fun s => { s with pendingUsers := UserMap.addUser u socketId s.pendingUsers }

def removePendingUser (userId : Option String) (socketId : ℤ) : Conn Unit := do
  let u ← key userId
  .modify fun s => { s with pendingUsers := UserMap.removeUser u socketId s.pendingUsers }

def getPendingUser (userId : Option String) (socketId : Option ℤ) : Conn (Option ℤ) := do
  let u ← key userId
  .read fun s => UserMap.getUser u socketId s.pendingUsers

end NetworkUserService

end Linker.Connector
