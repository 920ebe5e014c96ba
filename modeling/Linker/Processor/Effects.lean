import Linker.Processor.PostOffice

/-!
# What a delivery changes

Whatever becomes of a message given to the post office, and wherever it throws: records are added to
the topics of the connectors, messages are saved, and nothing else happens to the stores.

* `Sends` : the change that a delivery makes.
* `Begins` : the change that the construction and processing of messages makes before a delivery.
* `moves_deliverMessage` : every delivery makes such a change.
-/

namespace Linker.Processor

open ProcessorUtils ClientAppService MessageProcessorService PostOffice Exec

/-- Records are added to the topics and messages are saved. -/
structure Sends (s s' : State) : Prop where
  channels : s'.channels = s.channels
  httpCalls : s'.httpCalls = s.httpCalls
  parcels : ∃ ps, s'.parcels = s.parcels ++ ps
  saved : ∃ l : List Message, s'.journal = s.journal ++ l.map .saved ∧
    s'.messages = l.foldl (fun messages m => MessageRepository.upsert m messages) s.messages

theorem sends_of_eq {s s' : State} (hc : s'.channels = s.channels) (hh : s'.httpCalls = s.httpCalls)
    (hp : s'.parcels = s.parcels) (hj : s'.journal = s.journal) (hm : s'.messages = s.messages) :
    Sends s s' :=
  ⟨hc, hh, ⟨[], by simp [hp]⟩, ⟨[], by simp [hj], by simp [hm]⟩⟩

instance : IsPreorder State Sends where
  refl _ := sends_of_eq rfl rfl rfl rfl rfl
  trans s₁ s₂ s₃ h h' := by
    obtain ⟨ps, hps⟩ := h.parcels
    obtain ⟨ps', hps'⟩ := h'.parcels
    obtain ⟨l, hj, hm⟩ := h.saved
    obtain ⟨l', hj', hm'⟩ := h'.saved
    refine ⟨h'.channels.trans h.channels, h'.httpCalls.trans h.httpCalls, ⟨ps ++ ps', ?_⟩,
      ⟨l ++ l', ?_, ?_⟩⟩
    · rw [hps', hps, List.append_assoc]
    · rw [hj', hj, List.map_append, List.append_assoc]
    · rw [hm', hm, List.foldl_append]

/-- Only messages have been constructed and processed. -/
structure Begins (s s' : State) : Prop where
  messages : s'.messages = s.messages
  channels : s'.channels = s.channels
  parcels : s'.parcels = s.parcels
  httpCalls : s'.httpCalls = s.httpCalls
  refused : s'.refused = s.refused

/-- Changes of what only the computation itself reads. -/
theorem moves_modify {f : State → State} (h : ∀ s, (f s).channels = s.channels ∧
    (f s).httpCalls = s.httpCalls ∧ (f s).parcels = s.parcels ∧ (f s).journal = s.journal ∧
    (f s).messages = s.messages) : Moves Sends (modify f : Proc Unit) := by
  intro s
  obtain ⟨hc, hh, hp, hj, hm⟩ := h s
  exact sends_of_eq hc hh hp hj hm

/-! ### Null checks -/

theorem moves_orNullPointer {α : Type} {R : State → State → Prop} [IsPreorder State R] (m : Message)
    (o : Option α) : Moves R (orNullPointer m o) := by
  cases o with
  | none => exact .fail _
  | some a => exact .pure a

theorem keeps_orNullPointer {α : Type} {I : State → Prop} (m : Message) (o : Option α) :
    Keeps I (orNullPointer m o) fun a => o = some a := by
  cases o with
  | none => exact .fail
  | some a => exact .pure rfl

theorem keeps_getData {α : Type} {I : State → Prop} (view : Data → Option α) (m : Message) :
    Keeps I (getData view m) fun d => ∀ a, d = some a → view m.data = some a := by
  refine (keeps_orNullPointer m m.content).bind fun c hc => ?_
  have hdata : m.data = c.data := by rw [MessageOf.data, hc]; rfl
  split
  · next d hd => exact .pure fun a ha => by rw [hdata]; exact Data.convert_eq_some (ha ▸ hd)
  · exact .fail

/-! ### The post office -/

variable [JavaChar] {E : Environment}

omit [JavaChar] in
theorem moves_builder : Moves Sends (builder E) := by
  refine (Moves.read _).bind fun _ => Moves.bind (moves_modify ?_) fun _ => .pure _
  exact fun _ => ⟨rfl, rfl, rfl, rfl, rfl⟩

omit [JavaChar] in
theorem moves_persistMessage (m : Message) (st : Option MessageState) :
    Moves Sends (persistMessage E m st) := by
  refine (moves_orNullPointer _ _).bind fun c => .ite ?_ (.pure _)
  have hid : Moves Sends (MessageRepository.assignId E (m.setState st)) := by
    unfold MessageRepository.assignId
    split
    · exact .pure _
    · exact moves_builder.bind fun _ => .pure _
  refine hid.bind fun m' s => ?_
  exact ⟨rfl, rfl, ⟨[], (List.append_nil _).symm⟩, ⟨[m'], rfl, rfl⟩⟩

omit [JavaChar] in
/-- What `persistMessage` returns is the message, up to its id and its state. -/
theorem returns_persistMessage {E : Environment} (m : Message) (st : Option MessageState) :
    Keeps (fun _ => True) (persistMessage E m st) fun m' =>
      m'.content = m.content ∧ m'.from_ = m.from_ := by
  refine (keeps_orNullPointer _ _).bind fun c _ => .ite (fun _ => ?_) fun _ => .pure ⟨rfl, rfl⟩
  have hid : Keeps (fun _ => True) (MessageRepository.assignId E (m.setState st)) fun m' =>
      m'.content = m.content ∧ m'.from_ = m.from_ := by
    unfold MessageRepository.assignId
    split
    · exact .pure ⟨rfl, rfl⟩
    · exact fun s hs => ⟨trivial, fun m' hm' => by cases hm'; exact ⟨rfl, rfl⟩⟩
  exact hid.bind fun m' hm' s hs => ⟨trivial, fun m'' hm'' => by cases hm''; exact hm'⟩

omit [JavaChar] in
theorem moves_onMessageDeliveryFailed (m : Message) : Moves Sends (onMessageDeliveryFailed E m) :=
  (moves_persistMessage m _).bind fun _ => .pure _

/-- Neither the registry nor the topics have changed. -/
def Silent (s s' : State) : Prop := s'.channels = s.channels ∧ s'.parcels = s.parcels

instance : IsPreorder State Silent where
  refl _ := ⟨rfl, rfl⟩
  trans _ _ _ h h' := ⟨h'.1.trans h.1, h'.2.trans h.2⟩

omit [JavaChar] in
theorem silent_modify {f : State → State} (h : ∀ s, Silent s (f s)) :
    Moves Silent (modify f : Proc Unit) := h

omit [JavaChar] in
theorem silent_persistMessage (m : Message) (st : Option MessageState) :
    Moves Silent (persistMessage E m st) := by
  refine (moves_orNullPointer _ _).bind fun c => .ite ?_ (.pure _)
  have hid : Moves Silent (MessageRepository.assignId E (m.setState st)) := by
    unfold MessageRepository.assignId
    split
    · exact .pure _
    · have hbuilder : Moves Silent (builder E) :=
        (Moves.read _).bind fun _ => Moves.bind (silent_modify fun _ => ⟨rfl, rfl⟩) fun _ => .pure _
      exact hbuilder.bind fun _ => .pure _
  exact hid.bind fun m' s => ⟨rfl, rfl⟩

omit [JavaChar] in
theorem silent_onMessageDeliveryFailed (m : Message) :
    Moves Silent (onMessageDeliveryFailed E m) :=
  (silent_persistMessage m _).bind fun _ => .pure _

omit [JavaChar] in
theorem moves_express (delivery : ExpressDeliveryType) (target : Option String) (m : Message) :
    Moves Sends (express E delivery target m) := by
  refine (Moves.read _).bind fun refuses => Moves.bind (moves_modify ?_) fun _ => ?_
  · exact fun _ => ⟨rfl, rfl, rfl, rfl, rfl⟩
  split
  · exact moves_onMessageDeliveryFailed m
  · refine .ite (moves_onMessageDeliveryFailed m) (.modify fun s => ?_)
    exact ⟨rfl, rfl, ⟨_, rfl⟩, ⟨[], by simp, rfl⟩⟩

omit [JavaChar] in
theorem moves_sendToAddresses (l : List Address) (m : Message) :
    Moves Sends (sendToAddresses E l m) := by
  refine (moves_orNullPointer _ _).bind fun c => ?_
  have hcalc : Moves Sends (calcExpressDelivery m c.feature) := by
    unfold calcExpressDelivery
    split
    · exact .pure _
    · exact .pure _
    · exact .fail _
  exact hcalc.bind fun delivery => .forEach fun a _ => moves_express _ _ _

theorem moves_routeTargetAddresses (to_ : Option String) (d : Option DeliveryType) (m : Message) :
    Moves Sends (routeTargetAddresses E to_ d m) := by
  refine .ite (.pure _) (.ite (.pure _) ?_)
  have hget : Moves Sends (UserChannelService.getById to_ m) := by
    unfold UserChannelService.getById
    split
    · exact .fail _
    · exact .read _
  refine hget.bind fun l => ?_
  split
  · exact .pure _
  · refine .ite (.pure _) (Moves.bind (.ite (.pure _) ?_) fun _ => .pure _)
    have hint : ∀ bound, Moves Sends (Proc.nextInt bound) := by
      intro bound
      refine (Moves.read _).bind fun _ => Moves.bind (moves_modify ?_) fun _ => .pure _
      exact fun _ => ⟨rfl, rfl, rfl, rfl, rfl⟩
    exact (hint _).bind fun _ => .pure _

theorem moves_sendToConnector (m : Message) : Moves Sends (sendToConnector E m) := by
  have hadjust : Moves Sends (adjustDeliveryType E m) := by
    refine (moves_orNullPointer _ _).bind fun t => .ite ?_ (.pure _)
    exact (moves_orNullPointer _ _).bind fun c => .ite (.pure _) (.pure _)
  refine hadjust.bind fun m' => ((moves_orNullPointer _ _).bind fun t =>
    moves_routeTargetAddresses _ _ _).bind fun l => .ite ?_ (moves_sendToAddresses l m')
  exact (moves_persistMessage m' _).bind fun _ => .pure _

/-- What a computation of a name leaves alone is left alone. -/
theorem moves_resolveDomainName {R : State → State → Prop} [IsPreorder State R] (m : Message) :
    Moves R (resolveDomainName E m) := by
  refine (moves_orNullPointer _ _).bind fun t => ?_
  split
  · exact .pure _
  · exact .pure _

theorem moves_isCurrentDomainMessage {R : State → State → Prop} [IsPreorder State R] (m : Message) :
    Moves R (isCurrentDomainMessage E m) :=
  .ite (.pure _) ((moves_resolveDomainName m).bind fun _ => .pure _)

/-- **A delivery sends and saves, and nothing else.** -/
theorem moves_deliverMessage (m : Message) : Moves Sends (deliverMessage E m) := by
  have hpop : Moves Sends (populateTargetAddress E m) := by
    refine (moves_orNullPointer _ _).bind fun t => ?_
    split
    · exact .pure _
    · exact .pure _
  refine hpop.bind fun m' => (moves_isCurrentDomainMessage m').bind fun b =>
    .ite (moves_sendToConnector m') ?_
  have hassert : Moves Sends (assertInternalMessage m') :=
    (moves_orNullPointer _ _).bind fun c => .ite (.pure _) (.fail _)
  refine hassert.bind fun _ => (moves_orNullPointer _ _).bind fun t => ?_
  split
  · exact .fail _
  · refine Moves.bind ?_ fun n => .ite (.fail _) (moves_sendToConnector _)
    unfold getNextDomainName
    split
    · exact .fail _
    · exact .pure _

end Linker.Processor
