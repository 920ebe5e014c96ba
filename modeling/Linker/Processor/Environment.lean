import Linker.Common.Message
import Linker.Exec.Basic

/-!
# The environment and the stores of a processor

The processors of a domain share one message repository, one user registry and the queues of the
domain, so a domain has one processor `State` here, and a handler is a computation `Proc` over it.

## Main definitions

* `Environment` : what does not change in a run: the configuration, the client apps, the routes of
  the loaded domain graph, and the values that `new Message()` draws.
* `State` : the repository, the registry, the records on the connectors' topics, the HTTP calls under
  way, and a journal of the messages processed and saved.
* `Thrown` : what a handler throws.
-/

namespace Linker.Processor

structure UserDistribution where
  domainName : Option String
  from_ : Option ℤ := none
  to_ : Option ℤ := none
  deriving DecidableEq, Repr

structure ClientApp where
  appName : Option String
  appId : Option String
  masterUserId : Option String
  authUrl : Option String := none
  authEnabled : Bool := false
  userDistributions : Option (List UserDistribution) := none
  deriving DecidableEq, Repr

/-- What a run of a domain's processors does not change. -/
structure Environment where
  /-- The domain name of `ApplicationConfig`. -/
  domainName : String
  /-- The processor name of `ApplicationConfig`. -/
  processorName : String
  /-- The client apps in the `ClientAppRepository`, by app name. -/
  clientApps : String → Option ClientApp
  /-- `DomainGraphService.getNextDomainName`, `none` where no graph is loaded. -/
  routes : Option (Option String → Option String)
  /-- Whether OkHttp takes a string for a URL. -/
  acceptsUrl : String → Bool
  /-- The order in which a `HashMap` with these keys is gone through. -/
  keyOrder : List (Option String) → List (Option String)
  keyOrder_perm : ∀ keys, (keyOrder keys).Perm keys
  /-- The identifier that the `n`-th `new Message()` draws. -/
  uuid : ℕ → String
  /-- The time at which it draws it. -/
  now : ℕ → ℤ

/-- A map may be gone through in the order in which its keys were put. -/
theorem perm_id (keys : List (Option String)) : (id keys).Perm keys := .refl keys

/-- A record on the topic of a connector. -/
structure Parcel where
  delivery : ExpressDeliveryType
  target : String
  message : Message

/-- A call of the authentication endpoint of an app that has not been answered. -/
structure HttpCall where
  authUrl : String
  message : Message
  data : AuthClient

/-- What the processors note down. -/
inductive Entry where
  /-- `process` starts on a message. -/
  | processing (message : Message)
  /-- A message is saved in the repository. -/
  | saved (message : Message)

structure State where
  /-- The records of `MessageRepository`. -/
  messages : List Message := []
  /-- The addresses of the `UserChannel` of a user. -/
  channels : String → Option (List Address) := fun _ => none
  parcels : List Parcel := []
  httpCalls : List HttpCall := []
  journal : List Entry := []
  /-- How many messages have been constructed. -/
  serial : ℕ := 0
  /-- What the next calls of `Random.nextInt` return, before the reduction to their bound. -/
  picks : List ℕ := []
  /-- Which of the next sends the producer refuses. -/
  refused : List Bool := []

/-- What the calls of a handler to the outside return: the random numbers it draws, and which of its
sends the producer refuses. -/
structure Draws where
  picks : List ℕ := []
  refused : List Bool := []

/-- An exception out of a handler, with the message the handler works on as it stands then. -/
structure Thrown where
  exception : JavaException
  message : Message

/-- A computation of a processor. -/
abbrev Proc (α : Type) := Exec State Thrown α

/-- The state in which a computation will draw the given values. -/
def State.drawing (d : Draws) (s : State) : State := { s with picks := d.picks, refused := d.refused }

/-- The state after the construction of a message. -/
def State.next (s : State) : State := { s with serial := s.serial + 1 }

/-- The state after a computation with the given draws. -/
def State.after (x : Proc Unit) (d : Draws) (s : State) : State := (x.run (s.drawing d)).2

namespace Proc

/-- Throw `e` while working on `m`. -/
def throw {α : Type} (e : JavaException) (m : Message) : Proc α := .fail ⟨e, m⟩

/-- What is thrown inside leaves `m` as it stands. -/
def during {α : Type} (m : Message) (x : Proc α) : Proc α := x.reraise fun e => ⟨e.exception, m⟩

/-- `try { x } catch (Exception e) { h }` -/
abbrev catchException {α : Type} (x : Proc α) (h : Thrown → Proc α) : Proc α :=
  x.recoverIf (fun e => !e.exception.isError) h

theorem run_catchException_ok {α : Type} {x : Proc α} {s s' : State} {a : α}
    (hx : x.run s = (.ok a, s')) (h : Thrown → Proc α) : (catchException x h).run s = (.ok a, s') :=
  Exec.run_recoverIf_ok hx _ h

def note (e : Entry) : Proc Unit := .modify fun s => { s with journal := s.journal ++ [e] }

/-- `new Random().nextInt(bound)`. -/
def nextInt (bound : ℕ) : Proc ℕ := do
  let n ← Exec.read fun s => s.picks.headD 0 % bound
  .modify fun s => { s with picks := s.picks.tail }
  pure n

end Proc

/-- A part of a message that a call dereferences: null throws a `NullPointerException`. -/
def orNullPointer {α : Type} (m : Message) : Option α → Proc α
  | some a => pure a
  | none => .throw .nullPointer m

/-- `message.getMeta()`, dereferenced. -/
def getMeta (m : Message) : Proc MessageMeta := orNullPointer m m.meta_

/-- `message.getContent()`, dereferenced. -/
def getContent (m : Message) : Proc MessageContent := orNullPointer m m.content

/-- `MessageProcessor.getData`, with the class given by what it reads. -/
def getData {α : Type} (view : Data → Option α) (m : Message) : Proc (Option α) := do
  let c ← getContent m
  match c.data.convert view with
  | .ok d => pure d
  | .error e => .throw e m

section

variable (E : Environment)

/-- The `n`-th new message. -/
def Environment.blank (n : ℕ) : Message := newMessage (E.uuid n) (E.now n)

/-- `Message.builder()`. -/
def builder : Proc Message := do
  let n ← Exec.read State.serial
  .modify State.next
  pure (E.blank n)

@[simp] theorem run_builder (s : State) : (builder E).run s = (.ok (E.blank s.serial), s.next) := rfl

end

@[simp] theorem run_orNullPointer_some {α : Type} (m : Message) (a : α) (s : State) :
    (orNullPointer m (some a)).run s = (.ok a, s) := rfl

theorem run_getMeta {m : Message} {t : MessageMeta} (h : m.meta_ = some t) (s : State) :
    (getMeta m).run s = (.ok t, s) := by
  rw [getMeta, h]; rfl

theorem run_getContent {m : Message} {c : MessageContent} (h : m.content = some c) (s : State) :
    (getContent m).run s = (.ok c, s) := by
  rw [getContent, h]; rfl

theorem run_getData {α : Type} {view : Data → Option α} {m : Message} {c : MessageContent}
    {d : Option α} (hc : m.content = some c) (hd : c.data.convert view = .ok d) (s : State) :
    (getData view m).run s = (.ok d, s) := by
  rw [getData, Exec.run_bind_ok (run_getContent hc s), hd]; rfl

end Linker.Processor
