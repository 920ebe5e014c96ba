import Linker.Processor.Environment

/-!
# Who a user is and where it lives

`ClientAppService` and the parts of `ProcessorUtils` that read a user id: the app of a user, its
master user, its home domain, and the user id under which a neighbouring domain connects.
-/

namespace Linker.Processor

variable [JavaChar] (E : Environment)

namespace ClientAppService

def getClientAppByName (appName : Option String) : Option ClientApp :=
  if isBlank appName then none else appName.bind E.clientApps

def getClientAppByUserId (userId : Option String) : Option ClientApp :=
  if isEmpty userId then none
  else
    let userIdRecord := NameRecord.parse userId
    if userIdRecord.isValid then getClientAppByName E userIdRecord.appName else none

def isMasterUserId (userId : Option String) : Bool :=
  match getClientAppByUserId E userId with
  | some clientApp => userId == clientApp.masterUserId
  | none => false

/-- The filter of `resolveDomain`. -/
def covers (number : ℤ) (d : UserDistribution) : Bool :=
  d.from_.getD 0 ≤ number && number ≤ d.to_.getD longMax

def resolveDomain (userId : Option String) : Option String :=
  let defaultDomainName := some E.domainName
  match getClientAppByUserId E userId with
  | none => defaultDomainName
  | some clientApp =>
    match clientApp.userDistributions with
    | none => defaultDomainName
    | some distributions =>
      match (NameRecord.parse userId).number with
      | none => defaultDomainName
      | some number =>
        match distributions.find? (covers number) with
        | some d => d.domainName
        | none => defaultDomainName

end ClientAppService

namespace ProcessorUtils

open ClientAppService

def isConnectorUser (to_ : Option String) : Bool :=
  !isBlank to_ && startsWithIgnoreCase to_ (some Keywords.CONNECTOR)

def isProcessorUser (to_ : Option String) : Bool :=
  !isBlank to_ && startsWithIgnoreCase to_ (some Keywords.PROCESSOR)

def isProcessorMessage (m : Message) : Bool := isProcessorUser m.to_

/-- `domain-01 => domain1-1`. -/
def resolveDomainUserId (domainName : Option String) : String :=
  let nameRecord := NameRecord.parse domainName
  orNull nameRecord.appName ++ orNull (nameRecord.number.map toString) ++ "-1"

/-- The domain that a message is for, where its metadata are there. -/
def domainOf (m : Message) : Option String :=
  match m.targetAddress with
  | some a => a.domainName
  | none => resolveDomain E m.to_

def resolveDomainName (m : Message) : Proc (Option String) := do
  let t ← getMeta m
  match t.targetAddress with
  | some a => pure a.domainName
  | none => pure (resolveDomain E m.to_)

/-- Whether a message is for the current domain, where its metadata are there. -/
def isLocal (m : Message) : Bool :=
  isBlank m.to_ || equalsIgnoreCase (some E.domainName) (domainOf E m)

def isCurrentDomainMessage (m : Message) : Proc Bool :=
  if isBlank m.to_ then pure true
  else do
    let domainName ← resolveDomainName E m
    pure (equalsIgnoreCase (some E.domainName) domainName)

def assertInternalMessage (m : Message) : Proc Unit := do
  let c ← getContent m
  if c.type = some .INTERNAL_MESSAGE then pure ()
  else .throw (.illegalState ("message must be INTERNAL_MESSAGE, but is " ++
    orNull (c.type.map MessageType.name) ++ "\n" ++ m.print)) m

theorem run_resolveDomainName {m : Message} {t : MessageMeta} (h : m.meta_ = some t) (s : State) :
    (resolveDomainName E m).run s = (.ok (domainOf E m), s) := by
  have ht : m.targetAddress = t.targetAddress := by rw [MessageOf.targetAddress, h]; rfl
  rw [resolveDomainName, Exec.run_bind_ok (run_getMeta h s), domainOf, ht]
  cases t.targetAddress <;> rfl

theorem run_isCurrentDomainMessage {m : Message} {t : MessageMeta} (h : m.meta_ = some t)
    (s : State) : (isCurrentDomainMessage E m).run s = (.ok (isLocal E m), s) := by
  rw [isCurrentDomainMessage, isLocal]
  cases hb : isBlank m.to_
  · simp only [Bool.false_eq_true, if_false, Bool.false_or]
    rw [Exec.run_bind_ok (run_resolveDomainName E h s)]; rfl
  · rfl

end ProcessorUtils

section

open ProcessorUtils

omit [JavaChar] in
theorem isBlank_processor : isBlank (some Keywords.PROCESSOR) = false := by
  simp [isBlank, Keywords.PROCESSOR, isWhitespace]

variable {E : Environment}

theorem domainOf_touch (m : Message) : domainOf E m.touch = domainOf E m := by
  have htarget : m.touch.targetAddress = m.targetAddress := by
    simp only [MessageOf.targetAddress, MessageOf.touch, MessageOf.updateMeta_meta]
    cases m.meta_ <;> rfl
  rw [domainOf, domainOf, htarget]
  rfl

theorem isLocal_touch (m : Message) : isLocal E m.touch = isLocal E m := by
  rw [isLocal, isLocal, domainOf_touch]
  rfl

end

end Linker.Processor
