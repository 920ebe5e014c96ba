import Linker.Common.Frames
import Linker.Domain.PointToPoint

/-!
# The frames of a tunnel

A connector writes what goes to another domain to the socket of that domain's tunnel, as a frame with
the length in front.  The client at the other end takes frames of 8192 bytes, the connector takes
messages of up to 65536 from the WebSockets of its own clients, and the wrapper comes on top of them.

## Main definitions

* `Codecs` : the codecs of the pipelines.
* `Readable` : the neighbour's decoder gets the payload of a frame.
* `Forwarded` : a wrapper of a message that a connector has accepted from a client.
* `Codecs.Grows` : what is wrapped is no shorter than it was.

## Main results

* `exists_forwarded` : a text of any length is forwarded.
* `forwarded_readable_iff` : what a neighbour can read of all that is forwarded.
* `exists_lost` : a text that does not fit by itself is forwarded, and lost.
-/

namespace Linker

open Processor ProcessorUtils ClientAppService MessageProcessorService Exec
open LengthFieldBasedFrameDecoder (Decoded decode)

/-- The codecs of the pipelines. -/
structure Codecs where
  /-- `FstCodec.serialize` in `TcpSocketCodec`. -/
  serialize : MessageContentOutput → Bytes
  /-- `Utils.fromJson` in `WebSocketCodec`, `none` where it throws. -/
  fromJson : String → Option MessageContent

/-- `TcpSocketClient.MAX_CONTENT_LENGTH`. -/
def MAX_CONTENT_LENGTH : ℕ := 8192

/-- The `maxFrameSize` of `WebSocketServerProtocolHandler("/ws")`. -/
def maxFrameSize : ℕ := 65536

/-- A connector reads the content off a frame of a client's WebSocket. -/
def Codecs.Accepts (C : Codecs) (content : MessageContent) : Prop :=
  ∃ text, text.utf8ByteSize ≤ maxFrameSize ∧ C.fromJson text = some content

/-- What the TCP pipeline of a connector serialises. -/
def Codecs.payload (C : Codecs) (o : Connector.Output) : Bytes :=
  C.serialize ⟨o.type, o.data, o.reference⟩

/-- The length of a content by itself. -/
def Codecs.size (C : Codecs) (content : MessageContent) : ℕ :=
  (C.serialize ⟨content.type, content.data, content.reference⟩).length

/-- A message in a wrapper is at least as long as its content. -/
def Codecs.Grows (C : Codecs) : Prop :=
  ∀ (o : Connector.Output) (i : Message) (content : MessageContent), o.data = .message i →
    i.content = some content → C.size content ≤ (C.payload o).length

/-- The frame that it writes. -/
def Codecs.frame (C : Codecs) (o : Connector.Output) : Bytes :=
  LengthFieldPrepender.encode (C.payload o)

/-- The decoder of the neighbour's `TcpSocketClient` gets the payload, whatever comes after the
frame. -/
def Readable (C : Codecs) (o : Connector.Output) : Prop :=
  ∀ rest, decode MAX_CONTENT_LENGTH (C.frame o ++ rest) = .frame (C.payload o) rest

/-- The output `o` wraps a message of the client whose input is `x`. -/
structure Forwarded (C : Codecs) (w : World) (x : Input) (o : Connector.Output) : Prop where
  input : x ∈ w.inputs
  accepted : C.Accepts x.content
  output : ∃ c s, w.connectors c = some s ∧ o ∈ s.outputs
  type : o.type = some .INTERNAL_MESSAGE
  message : ∃ i : Message, o.data = .message i ∧ i.from_ = x.socket.userId

/-- What a neighbour can read. -/
theorem readable_iff (C : Codecs) (o : Connector.Output) :
    Readable C o ↔ 4 + (C.payload o).length ≤ MAX_CONTENT_LENGTH :=
  LengthFieldBasedFrameDecoder.decode_encode_iff (by decide)

/-- A message that is wrapped as the client has sent it is read only if it fits by itself. -/
theorem fits_of_readable {C : Codecs} (hgrows : C.Grows) {o : Connector.Output} {i : Message}
    {content : MessageContent} (ho : o.data = .message i) (hi : i.content = some content)
    (h : Readable C o) : 4 + C.size content ≤ MAX_CONTENT_LENGTH := by
  have hfits := (readable_iff C o).1 h
  have hgrown := hgrows o i content ho hi
  omega

/-- **What a neighbour can read**: of all that a domain forwards of its clients, exactly what fits into
the frames, with the four bytes of the length; and of what is forwarded as a client has sent it, only
what fits without the wrapper, where wrapping makes nothing shorter. -/
theorem forwarded_readable_iff (C : Codecs) (w : World) : ∀ x o, Forwarded C w x o →
    (Readable C o ↔ 4 + (C.payload o).length ≤ MAX_CONTENT_LENGTH) ∧
    (C.Grows → (∃ i : Message, o.data = .message i ∧ i.content = some x.content) → Readable C o →
      4 + C.size x.content ≤ MAX_CONTENT_LENGTH) :=
  fun _ o _ => ⟨readable_iff C o, fun hgrows ⟨_, ho, hi⟩ => fits_of_readable hgrows ho hi⟩

section

variable [JavaChar]

/-! ### A text on its way out of the domain -/

namespace Processor

variable {E : Environment} {m : Message} {v home n : String} {f : MessageFeature} {s : State}
  {l : List Address}

/-- A message for a user of another domain is put out for the next domain, in its wrapper. -/
theorem run_process_sender (hm : IsFresh m v f) (hv : LivesIn E.clientApps v home)
    (haway : equalsIgnoreCase (some E.domainName) (some home) = false)
    (hn : Neighbour E s (some home) n l) (hrefused : s.refused.headD false = false) :
    ∃ w a, a ∈ l ∧ IsWrapper w (m.touch.setTo (some v)) f ∧
      ∃ s', (MessageProcessorService.process E m).run s = (.ok (), s') ∧
        s'.parcels = s.parcels ++ [onward E f n w a] := by
  obtain ⟨w, depth, hw, hdomain, hwlocal, hx⟩ := exists_wrapper hm hv haway s
  have hneighbour : Neighbour E (s.noting m).next (domainOf E w) n l := by
    rw [hdomain]
    exact ⟨hn.next, hn.nonblank, hn.user, hn.channel, hn.ne_nil, hn.named⟩
  obtain ⟨a, ha, picks, hsend⟩ := run_process_onward hw hwlocal hneighbour depth
  refine ⟨w, a, ha, hw, _, hx _ hsend, ?_⟩
  have hrefused' : (((s.noting m).next.noting w).picking picks).refused.headD false = false := hrefused
  rw [State.offer_accepted hrefused']
  rfl

end Processor

variable {D : Domain} {w : World} {c v home n t : String} {s : Connector.State} {i j : ℤ}
  {k : Connector.Socket} {a : Address}

/-- **A text of any length** that a client sends for a user of another domain is written to the tunnel
of the next domain, in a wrapper. -/
theorem exists_forwarded (hs : w.connectors c = some s) (hk : s.openSocket i = some k)
    (hauth : k.authStatus = .AUTHENTICATED) (hpublished : s.published = [])
    (hincoming : w.incoming = []) (hparcels : w.processor.parcels = [])
    (hv : LivesIn D.env.clientApps v home)
    (haway : equalsIgnoreCase (some D.env.domainName) (some home) = false)
    (hn : Neighbour D.env w.processor (some home) n [a]) (ha : a.connectorName = some c)
    (hj : Connector.UserMap.getUser (resolveDomainUserId (some n)) a.socketId s.users = some j)
    (hopen : ((s.sockets j).map (·.isOpen)).getD false = true) (t : String) :
    ∃ w', D.system.run w [.receive c i (Sample.textTo v t) [], .dispatch 0 {}, .handOut 0 []] =
        some w' ∧ (⟨c, i, k, Sample.textTo v t⟩ : Input) ∈ w'.inputs ∧
      ∃ s' o, w'.connectors c = some s' ∧ o ∈ s'.outputs ∧ o.type = some .INTERNAL_MESSAGE ∧
        ∃ m : Message, o.data = .message m ∧ m.from_ = k.userId ∧
          m.content = some (Sample.textTo v t) := by
  -- the connector publishes the message
  let m := Connector.clientMessage (D.config c) ((D.config c).blank s.serial) i k (Sample.textTo v t)
  let s₁ : Connector.State := { s with futures := [], serial := s.serial + 1, published := [] }
  let w₁ : World := { w with
    inputs := w.inputs ++ [⟨c, i, k, Sample.textTo v t⟩]
    connectors := fun c' => if c' = c then some s₁ else w.connectors c'
    incoming := [m] }
  have h₁ : D.step w (.receive c i (Sample.textTo v t) []) = some w₁ := by
    have hrun := Connector.run_channelRead0 (C := D.config c) (i := i) hauth
      (c := Sample.textTo v t) rfl rfl s
    rw [hpublished] at hrun
    simp only [Domain.step, hs, hk, Option.bind_eq_bind, Option.bind_some, World.atConnector, hrun,
      hincoming, List.nil_append]
    rfl
  -- the processor puts its wrapper out
  let s₂ := w.processor.drawing {}
  have hneighbour : Neighbour D.env s₂ (some home) n [a] :=
    ⟨hn.next, hn.nonblank, hn.user, hn.channel, hn.ne_nil, hn.named⟩
  have hfresh : IsFresh m v .RELIABLE := ⟨rfl, ⟨_, rfl, rfl, rfl⟩, ⟨_, rfl, rfl⟩⟩
  obtain ⟨wr, a', ha', hwr, s₃, hprocess, hout⟩ := run_process_sender hfresh hv haway hneighbour rfl
  cases List.mem_singleton.1 ha'
  have hrecord : (Processor.PostOffice.onRecordArrived D.env m).run s₂ = (.ok (), s₃) := by
    rw [Processor.PostOffice.onRecordArrived, Processor.PostOffice.onMessageArrived,
      Processor.PostOffice.onMessageArrivedWith]
    exact Processor.Proc.run_catchException_ok (Processor.Proc.run_catchException_ok hprocess _) _
  let w₂ : World := { w₁ with incoming := [], dispatched := w.dispatched ++ [m], processor := s₃ }
  have h₂ : D.step w₁ (.dispatch 0 {}) = some w₂ := by
    have hstate : w₂.processor =
        w.processor.after (Processor.PostOffice.onRecordArrived D.env m) {} := by
      rw [Processor.State.after, hrecord]
    simp only [Domain.step, w₁, List.getElem?_cons_zero, Option.bind_eq_bind, Option.bind_some,
      World.atProcessor, List.eraseIdx_cons_zero]
    rw [← hstate]
    rfl
  -- the connector writes it to the tunnel
  let p := onward D.env .RELIABLE n wr a
  have htarget : p.target = c := by
    show a.connectorName.getD "" = c
    rw [ha]
    rfl
  have hp : s₃.parcels = [p] := by
    rw [hout]
    show w.processor.parcels ++ [p] = [p]
    rw [hparcels, List.nil_append]
  let x := Connector.PostOffice.onMessageArrived (D.config c) p.message
  have hsucceeds : (s₁.expecting []).succeeds j = true := by
    simpa [Connector.State.succeeds, Connector.State.expecting] using hopen
  obtain ⟨o, houtputs, -, htype, hdata, -⟩ := outputs_onward hwr n a (D.config c)
    (s₁.expecting []) hj hsucceeds
  let w₃ : World := ({ w₂ with processor := { s₃ with parcels := [] } } : World).atConnector c s₁
    (Connector.withFutures [] x)
  have h₃ : D.step w₂ (.handOut 0 []) = some w₃ := by
    have hconnector : w₂.connectors p.target = some s₁ := by
      rw [htarget]
      exact if_pos rfl
    have hparcel : w₂.processor.parcels = [p] := hp
    simp only [Domain.step, hparcel, List.getElem?_cons_zero, Option.bind_eq_bind, Option.bind_some,
      hconnector, List.eraseIdx_cons_zero]
    rw [htarget]
    rfl
  refine ⟨w₃, ?_, List.mem_append_right _ List.mem_cons_self, _, o, if_pos rfl, ?_, htype,
    m.touch.setTo (some v), hdata, rfl, rfl⟩
  · rw [System.run_cons_eq_some]
    refine ⟨w₁, h₁, ?_⟩
    rw [System.run_cons_eq_some]
    refine ⟨w₂, h₂, ?_⟩
    rw [System.run_cons_eq_some]
    exact ⟨w₃, h₃, rfl⟩
  · show o ∈ (x.run (s₁.expecting [])).2.outputs
    rw [houtputs]
    exact List.mem_append_right _ List.mem_cons_self

/-- **A text that does not fit by itself** is forwarded, and the neighbour cannot read it. -/
theorem exists_lost {C : Codecs} (hgrows : C.Grows) (hs : w.connectors c = some s)
    (hk : s.openSocket i = some k) (hauth : k.authStatus = .AUTHENTICATED) (hpublished : s.published = [])
    (hincoming : w.incoming = []) (hparcels : w.processor.parcels = [])
    (hv : LivesIn D.env.clientApps v home)
    (haway : equalsIgnoreCase (some D.env.domainName) (some home) = false)
    (hn : Neighbour D.env w.processor (some home) n [a]) (ha : a.connectorName = some c)
    (hj : Connector.UserMap.getUser (resolveDomainUserId (some n)) a.socketId s.users = some j)
    (hopen : ((s.sockets j).map (·.isOpen)).getD false = true) {t : String}
    (haccepts : C.Accepts (Sample.textTo v t))
    (hlong : MAX_CONTENT_LENGTH < 4 + C.size (Sample.textTo v t)) :
    ∃ es w' o, D.system.run w es = some w' ∧ Forwarded C w' ⟨c, i, k, Sample.textTo v t⟩ o ∧
      ¬ Readable C o := by
  obtain ⟨w', hrun, hinput, s', o, hs', ho, htype, m, hdata, hfrom, hcontent⟩ :=
    exists_forwarded hs hk hauth hpublished hincoming hparcels hv haway hn ha hj hopen t
  refine ⟨_, w', o, hrun, ⟨hinput, haccepts, ⟨c, s', hs', ho⟩, htype, m, hdata, hfrom⟩, fun h => ?_⟩
  exact absurd (fits_of_readable hgrows hdata hcontent h) (Nat.not_le.2 hlong)

end

/-! ### A long text -/

section

attribute [local instance] JavaChar.ascii

namespace SampleFrames

open Sample (connectorName start textTo)

/-- The app `APP`, whose users from 100 on live in the domain 2, and the app of that domain. -/
def clientApps (appName : String) : Option ClientApp :=
  if appName = "APP" then
    some {
      appName := some "APP"
      appId := some "id"
      masterUserId := none
      userDistributions := some [⟨some "domain-02", some 100, some 199⟩,
        ⟨some "domain-01", some 1, some 99⟩] }
  else if appName = "domain2" then
    some { appName := some "domain2", appId := some "domain2", masterUserId := none }
  else none

def domain : Domain where
  env := {
    domainName := "domain-01"
    processorName := "processor-01"
    clientApps
    routes := some fun _ => some "domain-02"
    acceptsUrl _ := true
    keyOrder := id
    keyOrder_perm := perm_id
    uuid n := "processor-message-" ++ toString n
    now n := n }
  uuid c n := c ++ "-message-" ++ toString n
  now _ n := n

/-- A client opens a socket and signs in. -/
def arrival (i : ℤ) (appId userId : String) : List Event :=
  [.connect connectorName,
    .receive connectorName i
      { type := some .AUTH_CLIENT, data := .authClient ⟨some appId, some userId, some ""⟩ } [],
    .dispatch 0 {}, .handOut 0 [], .dispatch 0 {}]

/-- The domain 2 and `APP-5` have signed in. -/
def joined : World :=
  (domain.system.run start (arrival 1 "domain2" "domain2-1" ++ arrival 2 "id" "APP-5")).getD start

theorem run_joined :
    domain.system.run start (arrival 1 "domain2" "domain2-1" ++ arrival 2 "id" "APP-5") =
      some joined := by
  have hrun : (domain.system.run start
      (arrival 1 "domain2" "domain2-1" ++ arrival 2 "id" "APP-5")).isSome = true := by decide +kernel
  obtain ⟨w, hw⟩ := Option.isSome_iff_exists.1 hrun
  rw [joined, hw]
  rfl

theorem livesIn_joined : LivesIn domain.env.clientApps "APP-150" "domain-02" := by
  refine ⟨"APP", 150, _, _, ⟨some "domain-02", some 100, some 199⟩, ?_, ?_, rfl, rfl, ?_, rfl⟩
  · decide +kernel
  · decide +kernel
  · decide +kernel

/-- A text of `16 * 2 ^ n` letters. -/
def long : ℕ → String
  | 0 => "aaaaaaaaaaaaaaaa"
  | n + 1 => long n ++ long n

theorem utf8ByteSize_long (n : ℕ) : (long n).utf8ByteSize = 16 * 2 ^ n := by
  induction n with
  | zero => rfl
  | succ n ih =>
    rw [long, String.utf8ByteSize_append, ih]
    omega

def opening : String := "\x7b\"type\":\"MESSAGE\",\"data\":\x7b\"to\":\"APP-150\",\"content\":\""

def closing : String := "\"\x7d\x7d"

/-- The JSON text of a client's message. -/
def jsonOf (text : String) : String := opening ++ text ++ closing

/-- The text of the message in a wrapper. -/
def textOf : Data → String
  | .message { content := some { data := .messageRequest r, .. }, .. } => r.content.getD ""
  | _ => ""

/-- Codecs that read such texts, and write the text of a message without anything else. -/
def codecs : Codecs where
  serialize o := (textOf o.data).toByteArray.data.toList
  fromJson text :=
    let l := text.toList.drop opening.toList.length
    some (textTo "APP-150" (String.ofList (l.take (l.length - closing.toList.length))))

theorem fromJson_jsonOf (text : String) :
    codecs.fromJson (jsonOf text) = some (textTo "APP-150" text) := by
  simp [codecs, jsonOf]

end SampleFrames

open SampleFrames
open Sample (start connectorName textTo)

/-- What `APP-5` sends to `APP-150` is forwarded, whatever its length. -/
theorem forwarded_joined (t : String) (ht : (jsonOf t).utf8ByteSize ≤ maxFrameSize) :
    ∃ l w x o, domain.system.run start l = some w ∧ Forwarded codecs w x o ∧
      (codecs.payload o).length = t.utf8ByteSize := by
  have hs : (joined.connectors connectorName).isSome = true := by decide +kernel
  obtain ⟨s, hs⟩ := Option.isSome_iff_exists.1 hs
  have hsocket : (joined.connectors connectorName).bind (·.openSocket 2) =
      some ⟨some "APP-5", .AUTHENTICATED, true⟩ := by decide +kernel
  have hpublished : (joined.connectors connectorName).map (·.published.length) = some 0 := by
    decide +kernel
  have huser : (joined.connectors connectorName).map (fun s => Connector.UserMap.getUser
      (resolveDomainUserId (some "domain-02")) (some 1) s.users) = some (some 1) := by decide +kernel
  have hopen : (joined.connectors connectorName).map
      (fun s => ((s.sockets 1).map (·.isOpen)).getD false) = some true := by decide +kernel
  rw [hs] at hsocket hpublished huser hopen
  rw [Option.bind_some] at hsocket
  have hchannel : joined.processor.channels (resolveDomainUserId (some "domain-02")) =
      some [⟨some "domain-01", some connectorName, some 1⟩] := by decide +kernel
  have hneighbour : Neighbour domain.env joined.processor (some "domain-02") "domain-02"
      [⟨some "domain-01", some connectorName, some 1⟩] :=
    ⟨⟨_, rfl, rfl⟩, by decide, by decide +kernel, hchannel, List.cons_ne_nil _ _,
      by simp [connectorName]⟩
  have hincoming : joined.incoming = [] := List.length_eq_zero_iff.1 (by decide +kernel)
  have hparcels : joined.processor.parcels = [] := List.length_eq_zero_iff.1 (by decide +kernel)
  obtain ⟨w, hrun, hinput, s', o, hs', ho, htype, m, hdata, hfrom, hcontent⟩ := exists_forwarded
    (D := domain) hs hsocket rfl
    (List.length_eq_zero_iff.1 (Option.some.inj hpublished)) hincoming hparcels livesIn_joined
    (by decide) hneighbour rfl (Option.some.inj huser) (Option.some.inj hopen) t
  refine ⟨_, w, _, o, (System.run_append run_joined).trans hrun, ⟨hinput, ⟨jsonOf t, ht,
    fromJson_jsonOf t⟩, ⟨_, s', hs', ho⟩, htype, m, hdata, hfrom⟩, ?_⟩
  have htext : textOf o.data = t := by
    rw [hdata]
    obtain ⟨_, _, _, _, _, _, _, _⟩ := m
    cases hcontent
    rfl
  show (textOf o.data).toByteArray.data.toList.length = _
  rw [htext]
  rfl

/-- The neighbour can read a short text. -/
theorem forwarded_readable_hello : ∃ l w x o, domain.system.run start l = some w ∧
    Forwarded codecs w x o ∧ (codecs.payload o).length = 5 ∧ Readable codecs o := by
  obtain ⟨l, w, x, o, hrun, h, hlength⟩ := forwarded_joined "hello" (by decide +kernel)
  have hlength : (codecs.payload o).length = 5 := hlength
  have hfits : 4 + (codecs.payload o).length ≤ MAX_CONTENT_LENGTH := by
    rw [hlength]
    decide
  exact ⟨l, w, x, o, hrun, h, hlength, (forwarded_readable_iff codecs w x o h).1.2 hfits⟩

/-- **A long text is lost in the tunnel**: 8192 bytes and their prefix are more than the neighbour
takes. -/
theorem not_readable_long : ∃ l w x o, domain.system.run start l = some w ∧
    Forwarded codecs w x o ∧ (codecs.payload o).length = 8192 ∧ ¬ Readable codecs o := by
  have hsize := utf8ByteSize_long 9
  have hjson : (jsonOf (long 9)).utf8ByteSize ≤ maxFrameSize := by
    rw [jsonOf, String.utf8ByteSize_append, String.utf8ByteSize_append, hsize]
    decide
  obtain ⟨l, w, x, o, hrun, h, hlength⟩ := forwarded_joined (long 9) hjson
  rw [hsize] at hlength
  refine ⟨l, w, x, o, hrun, h, hlength, fun hreadable => ?_⟩
  have hfits := (readable_iff codecs o).1 hreadable
  rw [hlength] at hfits
  exact absurd hfits (by decide)

end

end Linker
