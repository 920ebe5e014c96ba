import Linker.Exec.Contract
import Linker.Processor.Handlers

/-!
# What the handlers throw by themselves

A null where a value is needed, an argument that a library rejects, a missing route: these may be
thrown at almost any statement of a handler.  A condition `Tolerates` them if it lets them through,
whichever message the handler is working on, and then the small computations keep to it.
-/

namespace Linker.Processor

open ProcessorUtils ClientAppService Exec

/-- A condition on what is thrown that lets the ordinary exceptions through. -/
class Tolerates (T : Thrown → Prop) : Prop where
  nullPointer (m : Message) : T ⟨.nullPointer, m⟩
  illegalArgument (m : Message) : T ⟨.illegalArgument, m⟩
  processMessage (text : String) (m : Message) : T ⟨.processMessage text, m⟩
  /-- Whichever message is being worked on. -/
  exception {e : Thrown} (m : Message) : T e → T ⟨e.exception, m⟩

section

variable {α : Type} {I : State → Prop} {T : Thrown → Prop} [Tolerates T]

theorem contract_orNullPointer (m : Message) (o : Option α) :
    Contract I (orNullPointer m o) (fun a => o = some a) T := by
  cases o with
  | none => exact .fail (Tolerates.nullPointer m)
  | some a => exact .pure rfl

theorem contract_getData (view : Data → Option α) (m : Message) :
    Contract I (getData view m) (fun d => ∀ a, d = some a → view m.data = some a) T := by
  refine (contract_orNullPointer m m.content).bind fun c hc => ?_
  have hdata : m.data = c.data := by rw [MessageOf.data, hc]; rfl
  split
  · next d hd => exact .pure fun a ha => by rw [hdata]; exact Data.convert_eq_some (ha ▸ hd)
  · next e he =>
    rw [Data.eq_illegalArgument_of_convert he]
    exact .fail (Tolerates.illegalArgument m)

theorem contract_during {m : Message} {x : Proc Unit} {Q : Unit → Prop} (hx : Contract I x Q T) :
    Contract I (Proc.during m x) Q T :=
  hx.reraise fun _ he => Tolerates.exception m he

theorem contract_calcExpressDelivery (m : Message) (f : Option MessageFeature) :
    Contract I (calcExpressDelivery m f) (fun _ => True) T := by
  unfold calcExpressDelivery
  split
  · exact .pure trivial
  · exact .pure trivial
  · exact .fail (Tolerates.nullPointer m)

theorem contract_innerMessage (m : Message) :
    Contract I (InternalMessageProcessor.innerMessage m) (fun i => m.data = .message i) T := by
  refine (contract_getData _ _).bind fun data hdata => (contract_orNullPointer _ _).mono fun i hi => ?_
  exact Data.message?_eq_some.1 (hdata i hi)

theorem contract_getById (u : Option String) (m : Message) :
    Contract I (UserChannelService.getById u m) (fun _ => True) T := by
  cases u with
  | none => exact .fail (Tolerates.illegalArgument m)
  | some u => exact .read fun _ _ => trivial

end

section

variable [JavaChar] {E : Environment} {I : State → Prop} {T : Thrown → Prop} [Tolerates T]

theorem contract_resolveDomainName (m : Message) :
    Contract I (resolveDomainName E m) (fun d => d = domainOf E m) T := by
  refine (contract_orNullPointer _ _).bind fun t ht => ?_
  have ht' : m.targetAddress = t.targetAddress := by rw [MessageOf.targetAddress, ht]; rfl
  rw [domainOf, ht']
  split
  · exact .pure rfl
  · exact .pure rfl

theorem contract_isCurrentDomainMessage (m : Message) :
    Contract I (isCurrentDomainMessage E m) (fun b => b = isLocal E m) T := by
  unfold isCurrentDomainMessage isLocal
  refine .ite (fun h => .pure ?_) fun h => ?_
  · simp [h]
  · refine (contract_resolveDomainName m).bind fun d hd => .pure ?_
    simp [h, hd]

omit [JavaChar] in
theorem contract_getNextDomainName (d : Option String) (m : Message) :
    Contract I (PostOffice.getNextDomainName E d m) (fun _ => True) T := by
  unfold PostOffice.getNextDomainName
  split
  · exact .fail (Tolerates.nullPointer m)
  · exact .pure trivial

theorem contract_deliveredHere (m : Message) (st : Option MessageState) :
    Contract I (MessageStateChangedMessageProcessor.deliveredHere E m st) (fun _ => True) T := by
  refine .ite (fun _ => .pure trivial) fun _ => (contract_orNullPointer _ _).bind fun c _ => ?_
  refine .ite (fun _ => .pure trivial) fun _ => (contract_orNullPointer _ _).bind fun t _ => ?_
  exact (contract_orNullPointer _ _).bind fun a _ => .pure trivial

end

end Linker.Processor
