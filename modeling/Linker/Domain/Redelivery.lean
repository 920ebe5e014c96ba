import Linker.Domain.Convergence

/-!
# Redelivery

A connector that does not find the user of a copy reports `ADDRESS_NOT_FOUND`.  The processor that
consumes the report takes the address of the copy out of the registry and delivers the message again.

## Main results

* `posts_deliverMessage` : whatever the producer refuses, a delivery puts at most one record on a topic
  for each target.
* `silent_onRecordArrived`, `run_onRecordArrived_lost` : what the report of a lost copy leads to.
-/

namespace Linker.Processor

open ProcessorUtils ClientAppService MessageProcessorService PostOffice Exec

/-- Records of a message for some of the addresses have been put on topics. -/
structure Posts (m : Message) (l : List Address) (s s' : State) : Prop where
  channels : s'.channels = s.channels
  parcels : ∃ ps, s'.parcels = s.parcels ++ ps ∧ ps.length ≤ l.length ∧
    ∀ p ∈ ps, ∃ a ∈ l, a.connectorName = some p.target ∧ p.message = m.setTargetAddress (some a)

theorem Posts.of_silent {m : Message} {l : List Address} {s s' : State} (h : Silent s s') :
    Posts m l s s' :=
  ⟨h.1, [], by rw [h.2, List.append_nil], Nat.zero_le _, fun p hp => by cases hp⟩

theorem Posts.silent {m : Message} {l : List Address} {s s₁ s' : State} (h : Posts m l s s₁)
    (h' : Silent s₁ s') : Posts m l s s' := by
  obtain ⟨ps, hps, hlen, hall⟩ := h.parcels
  exact ⟨h'.1.trans h.channels, ps, h'.2.trans hps, hlen, hall⟩

theorem Posts.cons {m : Message} {a : Address} {l : List Address} {s s₁ s' : State}
    (h : Posts m [a] s s₁) (h' : Posts m l s₁ s') : Posts m (a :: l) s s' := by
  obtain ⟨ps, hps, hlen, hall⟩ := h.parcels
  obtain ⟨ps', hps', hlen', hall'⟩ := h'.parcels
  refine ⟨h'.channels.trans h.channels, ps ++ ps', ?_, ?_, fun p hp => ?_⟩
  · rw [hps', hps, List.append_assoc]
  · simp only [List.length_append, List.length_cons, List.length_nil] at *
    omega
  · rcases List.mem_append.1 hp with hp | hp
    · obtain ⟨b, hb, hrest⟩ := hall p hp
      exact ⟨b, List.mem_cons.2 (.inl (List.mem_singleton.1 hb)), hrest⟩
    · obtain ⟨b, hb, hrest⟩ := hall' p hp
      exact ⟨b, List.mem_cons_of_mem a hb, hrest⟩

theorem Posts.mono {m : Message} {l l' : List Address} {s s' : State} (h : Posts m l s s')
    (hsub : ∀ a ∈ l, a ∈ l') (hlen : l.length ≤ l'.length) : Posts m l' s s' := by
  obtain ⟨ps, hps, hlen', hall⟩ := h.parcels
  refine ⟨h.channels, ps, hps, hlen'.trans hlen, fun p hp => ?_⟩
  obtain ⟨a, ha, hrest⟩ := hall p hp
  exact ⟨a, hsub a ha, hrest⟩

section

variable [JavaChar] {E : Environment} {m : Message}

/-! ### Records put on topics -/

omit [JavaChar] in
theorem posts_express (delivery : ExpressDeliveryType) (a : Address) (s : State) :
    Posts m [a] s
      ((express E delivery a.connectorName (m.setTargetAddress (some a))).run s).2 := by
  have htail : Silent s { s with refused := s.refused.tail } := ⟨rfl, rfl⟩
  have hfail : Posts m [a] s ((onMessageDeliveryFailed E (m.setTargetAddress (some a))).run
      { s with refused := s.refused.tail }).2 :=
    .of_silent (trans_of Silent htail (silent_onMessageDeliveryFailed _ _))
  rw [express, run_read_bind, run_modify_bind]
  rcases hname : a.connectorName with _ | topic
  · exact hfail
  · simp only
    split
    · exact hfail
    · refine ⟨rfl, [⟨delivery, topic, m.setTargetAddress (some a)⟩], rfl, Nat.le_refl 1, ?_⟩
      intro p hp
      cases List.mem_singleton.1 hp
      exact ⟨a, List.mem_singleton_self a, hname, rfl⟩

omit [JavaChar] in
theorem posts_forEach (delivery : ExpressDeliveryType) (l : List Address) (s : State) :
    Posts m l s ((forEach (fun a => express E delivery a.connectorName
      (m.setTargetAddress (some a))) l).run s).2 := by
  induction l generalizing s with
  | nil => exact .of_silent (refl_of Silent s)
  | cons a l ih =>
    have hfirst := posts_express (E := E) (m := m) delivery a s
    rw [run_forEach_cons, run_bind]
    rcases hrun : (express E delivery a.connectorName (m.setTargetAddress (some a))).run s
      with ⟨e | u, s₁⟩
    · rw [hrun] at hfirst
      exact hfirst.cons (.of_silent (refl_of Silent s₁))
    · rw [hrun] at hfirst
      exact hfirst.cons (ih s₁)

omit [JavaChar] in
theorem posts_sendToAddresses (l : List Address) (s : State) :
    Posts m l s ((sendToAddresses E l m).run s).2 := by
  rw [sendToAddresses]
  rcases hc : m.content with _ | c
  · rw [getContent, hc]
    exact .of_silent (refl_of Silent s)
  · rw [run_bind_ok (run_getContent hc s)]
    rcases hf : c.feature with _ | _ | _
    · exact .of_silent (refl_of Silent s)
    · exact posts_forEach .NATS l s
    · exact posts_forEach .KAFKA l s

theorem posts_sendToConnector {t : MessageMeta} {c : MessageContent} (ht : m.meta_ = some t)
    (hc : m.content = some c) (s : State) :
    Posts (adjusted E m) (targets E m.to_ (adjusted E m).deliveryType s) s
      ((sendToConnector E m).run s).2 := by
  obtain ⟨t', ht', -⟩ := meta_adjusted (E := E) ht
  have hd : t'.deliveryType = (adjusted E m).deliveryType := by
    rw [MessageOf.deliveryType, ht']; rfl
  obtain ⟨picks, hroute⟩ :=
    run_routeTargetAddresses (E := E) m.to_ (adjusted E m).deliveryType (adjusted E m) s
  have hget : (getRouteTargetAddresses E (adjusted E m)).run s =
      (.ok (targets E m.to_ (adjusted E m).deliveryType s), s.picking picks) := by
    rw [getRouteTargetAddresses, run_bind_ok (run_getMeta ht' s), (letter_adjusted m).to_, hd, hroute]
  have hpick : Silent s (s.picking picks) := ⟨rfl, rfl⟩
  rw [sendToConnector, run_bind_ok (run_adjustDeliveryType ht hc s), run_bind_ok hget]
  by_cases hnil : targets E m.to_ (adjusted E m).deliveryType s = []
  · rw [hnil, List.isEmpty_nil, if_pos rfl]
    have hkeep : Moves Silent (do
        let _ ← persistMessage E (adjusted E m) (some .ADDRESS_NOT_FOUND)
        pure () : Proc Unit) := (silent_persistMessage _ _).bind fun _ => .pure _
    exact .of_silent (trans_of Silent hpick (hkeep _))
  · rw [if_neg (by simpa using hnil)]
    have hsend := posts_sendToAddresses (E := E) (m := adjusted E m)
      (targets E m.to_ (adjusted E m).deliveryType s) (s.picking picks)
    exact ⟨hsend.channels, hsend.parcels⟩

/-- **A delivery** puts at most one record on a topic for each target. -/
theorem posts_deliverMessage {t : MessageMeta} {c : MessageContent} (ht : m.meta_ = some t)
    (hc : m.content = some c) (htype : isLocal E m = false → c.type ≠ some .INTERNAL_MESSAGE)
    (s : State) :
    Posts (sent E m) (if isLocal E m then targets E m.to_ (sent E m).deliveryType s else []) s
      ((deliverMessage E m).run s).2 := by
  by_cases hloc : isLocal E m = true
  · obtain ⟨t', ht', -, -⟩ := meta_populated (E := E) ht
    have hletter := letter_populated (E := E) m
    rw [deliverMessage, run_bind_ok (run_populateTargetAddress ht s),
      run_bind_ok (run_isCurrentDomainMessage E ht' s), isLocal_populated ht, if_pos hloc, if_pos hloc,
      ← hletter.to_]
    exact posts_sendToConnector ht' (hletter.content.trans hc) s
  · have haway : isLocal E m = false := by simpa using hloc
    obtain ⟨e, -, he, -⟩ := run_deliverMessage_stranded (E := E) ht hc (htype haway) haway s
    rw [if_neg hloc, he]
    exact .of_silent (refl_of Silent s)

/-! ### Reports of connectors -/

/-- A report of a connector on a message, with its new state. -/
structure IsReport (r msg : Message) (st : MessageState) : Prop where
  to_ : r.to_ = some Keywords.PROCESSOR
  meta_ : ∃ t, r.meta_ = some t ∧ t.ttl = some 10 ∧ t.targetAddress = none
  content : ∃ c, r.content = some c ∧ c.type = some .MESSAGE_STATE_CHANGED ∧
    c.data = .messageStateChanged (some msg) (some st)

/-- `process` on a report. -/
theorem run_process_report {r msg : Message} {st : MessageState} (hr : IsReport r msg st) (s : State)
    (depth : ℕ) : (process E (depth + 1) r).run s =
      (Proc.during r.touch (MessageStateChangedMessageProcessor.report E (process E depth) (some msg)
        (some st) r.touch)).run (s.noting r) := by
  obtain ⟨t, ht, httl, htarget⟩ := hr.meta_
  obtain ⟨c, hc, htype, hdata⟩ := hr.content
  have ht' : r.touch.meta_ = some t.touch := by
    rw [MessageOf.touch, MessageOf.updateMeta_meta, ht]; rfl
  have hc' : r.touch.content = some c := hc
  have hlocal : isLocal E r.touch = true := by
    have hdom : domainOf E r.touch = some E.domainName := by
      have hnone : r.touch.targetAddress = none := by
        simp [MessageOf.targetAddress, MessageOf.touch, ht, MessageMeta.touch, htarget]
      have hto : r.touch.to_ = some Keywords.PROCESSOR := hr.to_
      rw [domainOf, hnone, hto]
      exact resolveDomain_processor
    rw [isLocal, hdom, equalsIgnoreCase_refl, Bool.or_true]
  have hconvert : c.data.convert Data.messageStateChanged? = .ok (some (some msg, some st)) := by
    rw [hdata]
    rfl
  have hget : ∀ s, (getData Data.messageStateChanged? r.touch).run s =
      (.ok (some (some msg, some st)), s) := fun s => run_getData hc' hconvert s
  have hprep : ∀ s, ((MessageStateChangedMessageProcessor.processor E (process E depth)).preprocess
      r.touch).run s = (.ok r.touch, s) := by
    intro s
    rw [MessageProcessor.preprocess]
    exact (run_bind_ok (hget _)).trans rfl
  have hrun := run_processWith_prepared (E := E) (process E depth) ht (isAlive_touch httl (by decide))
    hc (by rw [htype]; decide) (by rw [htype]; rfl) hprep ht' s
  rw [hlocal, if_pos rfl] at hrun
  refine hrun.trans ?_
  rw [MessageProcessor.process]
  exact (run_bind_ok (hget _)).trans rfl

/-- A report of a connector that the user of a copy was not found. -/
structure IsLost (r msg : Message) : Prop where
  to_ : r.to_ = some Keywords.PROCESSOR
  meta_ : ∃ t, r.meta_ = some t ∧ t.ttl = some 10 ∧ t.targetAddress = none
  content : ∃ c, r.content = some c ∧ c.type = some .MESSAGE_STATE_CHANGED ∧
    c.data = .messageStateChanged (some msg) (some .ADDRESS_NOT_FOUND)

omit [JavaChar] in
theorem IsLost.isReport {r msg : Message} (h : IsLost r msg) : IsReport r msg .ADDRESS_NOT_FOUND :=
  ⟨h.to_, h.meta_, h.content⟩

omit [JavaChar] in
/-- The state in which the message is delivered again. -/
def State.afterLoss (r : Message) (u : String) (a : Option Address) (s : State) : State :=
  { s.noting r with channels := UserChannelService.delete u a s.channels }

/-- `process` on the report of a lost copy. -/
theorem run_process_lost {r msg : Message} (hr : IsLost r msg) {u : String} (hu : msg.to_ = some u)
    {t : MessageMeta} (ht : msg.meta_ = some t) (s : State) (depth : ℕ) :
    (process E (depth + 1) r).run s =
      (Proc.during r.touch (deliverMessage E msg)).run (s.afterLoss r u t.targetAddress) := by
  have hremove : (UserChannelService.removeAddress msg.to_ t.targetAddress msg).run (s.noting r) =
      (.ok (), s.afterLoss r u t.targetAddress) := by
    rw [hu, UserChannelService.run_removeAddress]
    rfl
  have hmsg : (orNullPointer r.touch (some msg)).run (s.noting r) = (.ok msg, s.noting r) := rfl
  have hreport : (MessageStateChangedMessageProcessor.report E (process E depth) (some msg)
      (some .ADDRESS_NOT_FOUND) r.touch).run (s.noting r) =
      (deliverMessage E msg).run (s.afterLoss r u t.targetAddress) := by
    rw [MessageStateChangedMessageProcessor.report, run_bind_ok hmsg, if_pos rfl,
      MessageStateChangedMessageProcessor.processTargetNotFound, run_bind_ok (run_getMeta ht _),
      run_bind_ok hremove]
  rw [run_process_report hr.isReport, Proc.during, Proc.during, run_reraise, run_reraise, hreport]

omit [JavaChar] in
/-- That what is thrown has the message stored changes no more than storing a message does. -/
theorem recover_of_persists {R : State → State → Prop} [IsPreorder State R]
    (hpersist : ∀ m st, Moves R (persistMessage E m st)) (x : Proc Unit) (s : State) :
    R (x.run s).2 ((Proc.catchException (Proc.catchException x fun e => do
      let _ ← persistMessage E e.message (some .PROCESSOR_ERROR)
      pure ()) fun _ => pure ()).run s).2 := by
  have hstore : ∀ e : Thrown, Moves R (do
      let _ ← persistMessage E e.message (some .PROCESSOR_ERROR)
      pure () : Proc Unit) := fun e => (hpersist _ _).bind fun _ => .pure _
  refine Keeps.run_recoverIf (I := R (x.run s).2) ?_ fun _ _ _ hs => hs
  refine Keeps.run_recoverIf (I := R (x.run s).2) (refl_of R _) fun e s' _ hs => ?_
  exact trans_of R hs (hstore e s')

/-- **A report that is consumed.**  The registry and the topics are as after the message has been
delivered without the address of the lost copy. -/
theorem silent_onRecordArrived {r msg : Message} (hr : IsLost r msg) {u : String}
    (hu : msg.to_ = some u) {t : MessageMeta} (ht : msg.meta_ = some t) (s : State) :
    Silent ((deliverMessage E msg).run (s.afterLoss r u t.targetAddress)).2
      ((onRecordArrived E r).run s).2 := by
  obtain ⟨n, hn⟩ := Nat.exists_eq_add_of_lt (callDepth_pos r)
  rw [Nat.zero_add] at hn
  have hproc : ((MessageProcessorService.process E r).run s).2 =
      ((deliverMessage E msg).run (s.afterLoss r u t.targetAddress)).2 := by
    rw [MessageProcessorService.process, hn, run_process_lost hr hu ht, Proc.during, run_reraise]
  rw [← hproc, onRecordArrived, onMessageArrived, onMessageArrivedWith]
  exact recover_of_persists silent_persistMessage _ s

/-- Where nothing is thrown. -/
theorem run_onRecordArrived_lost {r msg : Message} (hr : IsLost r msg) {u : String}
    (hu : msg.to_ = some u) {t : MessageMeta} (ht : msg.meta_ = some t) {s s' : State}
    (hrun : (deliverMessage E msg).run (s.afterLoss r u t.targetAddress) = (.ok (), s')) :
    (onRecordArrived E r).run s = (.ok (), s') := by
  obtain ⟨n, hn⟩ := Nat.exists_eq_add_of_lt (callDepth_pos r)
  rw [Nat.zero_add] at hn
  have hproc : (MessageProcessorService.process E r).run s = (.ok (), s') := by
    rw [MessageProcessorService.process, hn, run_process_lost hr hu ht, Proc.during, run_reraise, hrun]
    rfl
  rw [onRecordArrived, onMessageArrived, onMessageArrivedWith]
  exact Proc.run_catchException_ok (Proc.run_catchException_ok hproc _) _

end

end Linker.Processor
