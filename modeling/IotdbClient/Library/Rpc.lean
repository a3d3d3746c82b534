import IotdbClient.Library.Codec

/-!
# Remote calls

The generated client and the generated processor of a service.  A call writes one message and reads
one; both ends keep no state between calls but their input, the sequence number and what the handler
keeps.  With the two ends connected, a list of calls has the results that the handler gives when it is
called directly.
-/

namespace IotdbClient.Library

open Program

variable {P : TProtocol} {α Req Resp η ρ ι : Type}

/-! ## Reading a whole value -/

/-- A reader with fuel for all that is left of the input. -/
def Codec.run (c : Codec P α) : TReader P α := fun s ↦ c.read (P.remaining s + 1) s

theorem Codec.takes_run (c : Codec P α) {a : α} (h : c.fits a) :
    Takes P.holds c.run (c.write a) a := by
  intro s rest hs
  obtain ⟨s', hs', hholds, -⟩ := c.reads a h (P.remaining s + 1) s rest hs (Nat.lt_succ_self _)
  exact ⟨s', hs', hholds⟩

theorem Codec.safeOn_run (c : Codec P α) (s : P.σ) : SafeOn c.run s :=
  c.safe (P.remaining s + 1) s (Nat.lt_succ_self _)

/-! ## One method -/

structure Method (P : TProtocol) (Req Resp : Type) where
  name : String
  /-- The text of the error when a reply holds no result. -/
  noResult : String
  args : Codec P Req
  result : Codec P (Option Resp)
  args_struct : args.ttype = .struct
  result_struct : result.ttype = .struct

def verifyExpectedSequenceNumber (texts : Texts) (expected actual : Int32) : Outcome TError Unit :=
  if expected = actual then pure ()
  else fail (.application ⟨.badSequenceId, texts.sequenceNumber expected actual⟩)

def verifyExpectedServiceCall (texts : Texts) (expected actual : String) : Outcome TError Unit :=
  if expected = actual then pure ()
  else fail (.application ⟨.wrongMethodName, texts.serviceCall expected actual⟩)

def verifyExpectedMessageType (texts : Texts) (expected actual : TMessageType) :
    Outcome TError Unit :=
  if expected = actual then pure ()
  else fail (.application ⟨.invalidMessageType, texts.messageType expected actual⟩)

namespace Method

def callMessage (method : Method P Req Resp) (sequenceNumber : Int32) (req : Req) : List Emit :=
  .messageBegin ⟨method.name, .call, sequenceNumber⟩ :: (method.args.write req ++ [.messageEnd])

def replyMessage (method : Method P Req Resp) (sequenceNumber : Int32) (resp : Resp) : List Emit :=
  .messageBegin ⟨method.name, .reply, sequenceNumber⟩ ::
    (method.result.write (some resp) ++ [.messageEnd])

def exceptionMessage (method : Method P Req Resp) (sequenceNumber : Int32) (e : ApplicationError) :
    List Emit :=
  [.messageBegin ⟨method.name, .exception, sequenceNumber⟩, .applicationError e, .messageEnd]

/-- `result.ok_or()`. -/
def okOr (method : Method P Req Resp) : Option Resp → Outcome TError Resp
  | some resp => pure resp
  | none => fail (.application ⟨.missingResult, method.noResult⟩)

/-- What a reply's header lets through. -/
def verify (method : Method P Req Resp) (sequenceNumber : Int32) (ident : TMessageIdentifier) :
    Outcome TError Unit := do
  verifyExpectedSequenceNumber P.texts sequenceNumber ident.sequenceNumber
  verifyExpectedServiceCall P.texts method.name ident.name

/-- The body of a reply that passed `verify`. -/
def receiveBody (method : Method P Req Resp) (ident : TMessageIdentifier) : TReader P Resp := do
  if ident.messageType = .exception then do
    let remoteError ← P.readApplicationError
    P.readMessageEnd
    raise (.application remoteError)
  else do
    ofOutcome (verifyExpectedMessageType P.texts .reply ident.messageType)
    let result ← method.result.run
    P.readMessageEnd
    ofOutcome (method.okOr result)

/-- The second half of a client method. -/
def receive (method : Method P Req Resp) (sequenceNumber : Int32) : TReader P Resp := do
  let ident ← P.readMessageBegin
  ofOutcome (method.verify sequenceNumber ident)
  method.receiveBody ident

end Method

/-! ## The client -/

structure RpcClient (P : TProtocol) where
  input : P.σ
  sequenceNumber : Int32

/-- The other end of a connection: a flush hands it a frame, and either fails or is followed by the
frames that come back before the reply is read. -/
structure Peer (ρ : Type) where
  flush : List UInt8 → ρ → Except TError (List (List UInt8)) × ρ

namespace RpcClient

/-- `IClientRPCServiceSyncClient::new`. -/
def new (input : P.σ) : RpcClient P := ⟨input, 0⟩

/-- `increment_sequence_number`. -/
def incrementSequenceNumber : Program (RpcClient P × ρ) TError Int32 := fun (client, peer) ↦
  if client.sequenceNumber = Int32.maxValue then
    (.error (.panic "attempt to add with overflow"), (client, peer))
  else
    (.ok (client.sequenceNumber + 1),
      ({ client with sequenceNumber := client.sequenceNumber + 1 }, peer))

/-- The input once these frames are there. -/
def arrive (client : RpcClient P) (frames : List (List UInt8)) : RpcClient P :=
  { client with input := frames.foldl P.feed client.input }

/-- `self.o_prot_mut().flush()` of a whole message. -/
def send (peer : Peer ρ) (message : List Emit) : Program (RpcClient P × ρ) TError Unit :=
  fun (client, state) ↦
    match peer.flush (P.pack message) state with
    | (.ok frames, state') => (.ok (), (client.arrive frames, state'))
    | (.error e, state') => (.error (.error e), (client, state'))

/-- A read on the client's input. -/
def reading (m : TReader P α) : Program (RpcClient P × ρ) TError α := fun (client, state) ↦
  let r := m client.input
  (r.1, ({ client with input := r.2 }, state))

/-- A client method. -/
def call (peer : Peer ρ) (method : Method P Req Resp) (req : Req) :
    Program (RpcClient P × ρ) TError Resp := do
  let sequenceNumber ← incrementSequenceNumber
  send peer (method.callMessage sequenceNumber req)
  reading (method.receive sequenceNumber)

theorem incrementSequenceNumber_of_ne {client : RpcClient P} (h : client.sequenceNumber ≠ Int32.maxValue)
    (state : ρ) : incrementSequenceNumber (client, state) =
      (.ok (client.sequenceNumber + 1),
        ({ client with sequenceNumber := client.sequenceNumber + 1 }, state)) := by
  rw [incrementSequenceNumber, if_neg h]

/-- A call that is not the last one the sequence numbers allow: it sends its message, and reads the
reply from what is there then. -/
theorem call_apply (peer : Peer ρ) (method : Method P Req Resp) (req : Req) {client : RpcClient P}
    (h : client.sequenceNumber ≠ Int32.maxValue) (state : ρ) :
    call peer method req (client, state) =
      match peer.flush (P.pack (method.callMessage (client.sequenceNumber + 1) req)) state with
      | (.ok frames, state') =>
          let r := method.receive (client.sequenceNumber + 1) (client.arrive frames).input
          (r.1, (⟨r.2, client.sequenceNumber + 1⟩, state'))
      | (.error e, state') =>
          (.error (.error e), ({ client with sequenceNumber := client.sequenceNumber + 1 }, state')) := by
  rw [call, bind_apply, incrementSequenceNumber_of_ne h]
  simp only [bind_apply, send]
  rcases peer.flush _ state with ⟨e | frames, state'⟩ <;> rfl

end RpcClient

/-! ## The processor -/

/-- A service: its methods, and the name dispatch of the processor. -/
structure Service (P : TProtocol) (ι : Type) where
  Req : ι → Type
  Resp : ι → Type
  method : (i : ι) → Method P (Req i) (Resp i)
  find : String → Option ι
  find_name : ∀ i, find (method i).name = some i

/-- An implementation of the service, over a state of its own. -/
abbrev Handler (service : Service P ι) (η : Type) :=
  (i : ι) → service.Req i → η → Except TError (service.Resp i) × η

namespace Service

/-- The error that goes into an exception message. -/
def asApplicationError (texts : Texts) : TError → ApplicationError
  | .application e => e
  | e => ⟨.unknown, texts.description e⟩

/-- What the processor answers to what the handler returned. -/
def answer (service : Service P ι) (i : ι) (sequenceNumber : Int32) :
    Except TError (service.Resp i) → List Emit
  | .ok resp => (service.method i).replyMessage sequenceNumber resp
  | .error e => (service.method i).exceptionMessage sequenceNumber (asApplicationError P.texts e)

/-- A read on the server's input. -/
def reading (m : TReader P α) : Program (P.σ × η) TError α := fun (input, state) ↦
  let r := m input
  (r.1, (r.2, state))

/-- One `process_…` function: the message it flushes. -/
def processMethod (service : Service P ι) (handler : Handler service η) (i : ι)
    (sequenceNumber : Int32) : Program (P.σ × η) TError (List Emit) := do
  let req ← reading (service.method i).args.run
  fun (input, state) ↦
    let r := handler i req state
    (.ok (service.answer i sequenceNumber r.1), (input, r.2))

/-- `process`, up to `handle_process_result`. -/
def process (service : Service P ι) (handler : Handler service η) :
    Program (P.σ × η) TError (List Emit) := do
  let ident ← reading P.readMessageBegin
  match service.find ident.name with
  | some i => service.processMethod handler i ident.sequenceNumber
  | none => raise (.application ⟨.unknownMethod, "unknown method " ++ ident.name⟩)

/-- A server at the other end: it reads the frame, processes it and sends its answer back.  What
`handle_process_result` sends for a call that failed before its handler ran is left open. -/
def peer (service : Service P ι) (handler : Handler service η)
    (handleProcessResult : Fault TError → List (List UInt8)) : Peer (P.σ × η) where
  flush frame := fun (input, state) ↦
    match service.process handler (P.feed input frame, state) with
    | (.ok message, s) => (.ok [P.pack message], s)
    | (.error fault, s) => (.ok (handleProcessResult fault), s)

end Service

/-! ## Reading what the other end wrote -/

/-- A message that the protocol can carry. -/
def Sendable (P : TProtocol) (message : List Emit) : Prop :=
  Message P.limits message ∧ (P.pack message).length ≤ P.limits.frame

theorem holds_feed {s : P.σ} {message : List Emit} (h : Sendable P message) (hs : P.holds s []) :
    P.holds (P.feed s (P.pack message)) message :=
  P.holds_feed h.1 h.2 hs

namespace Method

variable {method : Method P Req Resp} {sequenceNumber : Int32}

theorem verify_own (method : Method P Req Resp) (sequenceNumber : Int32) (type : TMessageType) :
    method.verify sequenceNumber ⟨method.name, type, sequenceNumber⟩ = .ok () := by
  rw [verify, verifyExpectedSequenceNumber, if_pos rfl, verifyExpectedServiceCall, if_pos rfl]
  rfl

/-- After its header a reply is read as its body. -/
theorem receive_of_header {s mid : P.σ} {type : TMessageType}
    (hheader : P.readMessageBegin s = (.ok ⟨method.name, type, sequenceNumber⟩, mid)) :
    method.receive sequenceNumber s = method.receiveBody ⟨method.name, type, sequenceNumber⟩ mid := by
  rw [receive, bind_apply, hheader]
  simp only [bind_apply, ofOutcome_apply, verify_own]

theorem takes_receive_reply {resp : Resp} (h : method.result.fits (some resp)) :
    Takes P.holds (method.receive sequenceNumber) (method.replyMessage sequenceNumber resp) resp := by
  intro s rest hs
  obtain ⟨mid, hmid, hholds⟩ := P.takes_messageBegin _ s _ hs
  have hbody : Takes P.holds (method.receiveBody ⟨method.name, .reply, sequenceNumber⟩)
      (method.result.write (some resp) ++ [.messageEnd]) resp := by
    intro s rest hs
    have hread : Takes P.holds (do
        let result ← method.result.run
        P.readMessageEnd
        ofOutcome (method.okOr result) : TReader P Resp)
        (method.result.write (some resp) ++ ([.messageEnd] ++ [])) resp := by
      apply (method.result.takes_run h).bind
      apply P.takes_messageEnd.bind
      exact fun s rest hs ↦ ⟨s, rfl, hs⟩
    obtain ⟨s', hs', hholds'⟩ := hread s rest (by simpa using hs)
    refine ⟨s', ?_, hholds'⟩
    rw [receiveBody, if_neg (by simp), verifyExpectedMessageType, if_pos rfl]
    exact hs'
  obtain ⟨s', hs', hholds'⟩ := hbody mid rest hholds
  exact ⟨s', by rw [receive_of_header hmid]; exact hs', hholds'⟩

theorem receive_exception {s : P.σ} {e : ApplicationError} {rest : List Emit}
    (hs : P.holds s (method.exceptionMessage sequenceNumber e ++ rest)) :
    ∃ s', method.receive sequenceNumber s = (.error (.error (.application e)), s') ∧
      P.holds s' rest := by
  obtain ⟨mid, hmid, hholds⟩ := P.takes_messageBegin _ s _ hs
  obtain ⟨mid', hmid', hholds'⟩ := P.takes_applicationError e mid _ hholds
  obtain ⟨s', hs', hholds''⟩ := P.takes_messageEnd mid' rest hholds'
  refine ⟨s', ?_, hholds''⟩
  rw [receive_of_header hmid, receiveBody, if_pos rfl, bind_apply, hmid']
  simp only [bind_apply, hs', raise_apply]

end Method

/-! ## One call -/

/-- What a client returns for what the handler returned. -/
def returned (texts : Texts) : Except TError α → Outcome TError α
  | .ok resp => .ok resp
  | .error e => .error (.error (.application (Service.asApplicationError texts e)))

/-- The two ends of a connection between calls: nothing is unread on either side. -/
structure Settled (client : RpcClient P) (input : P.σ) : Prop where
  client : P.holds client.input []
  server : P.holds input []

namespace Service

variable {service : Service P ι} {handler : Handler service η}

/-- Everything in the two messages of a call is short enough for the protocol. -/
structure Carried (service : Service P ι) (i : ι) (sequenceNumber : Int32) (req : service.Req i)
    (r : Except TError (service.Resp i)) : Prop where
  name : (asBytes (service.method i).name).length < P.limits.string
  args : (service.method i).args.fits req
  result : ∀ resp, r = .ok resp → (service.method i).result.fits (some resp)
  error : ∀ e, r = .error e →
    (asBytes (asApplicationError P.texts e).message).length < P.limits.string
  callFrame : (P.pack ((service.method i).callMessage sequenceNumber req)).length ≤ P.limits.frame
  answerFrame : (P.pack (service.answer i sequenceNumber r)).length ≤ P.limits.frame

theorem Carried.sendable_call {i : ι} {sequenceNumber : Int32} {req : service.Req i}
    {r : Except TError (service.Resp i)} (h : service.Carried i sequenceNumber req r) :
    Sendable P ((service.method i).callMessage sequenceNumber req) := by
  obtain ⟨d, hd⟩ := (service.method i).args.image req h.args
  rw [(service.method i).args_struct] at hd
  exact ⟨.struct h.name hd, h.callFrame⟩

theorem Carried.sendable_answer {i : ι} {sequenceNumber : Int32} {req : service.Req i}
    {r : Except TError (service.Resp i)} (h : service.Carried i sequenceNumber req r) :
    Sendable P (service.answer i sequenceNumber r) := by
  have hframe := h.answerFrame
  cases r with
  | ok resp =>
      obtain ⟨d, hd⟩ := (service.method i).result.image (some resp) (h.result resp rfl)
      rw [(service.method i).result_struct] at hd
      exact ⟨.struct h.name hd, hframe⟩
  | error e => exact ⟨.exception h.name (h.error e rfl), hframe⟩

/-- The processor reads a call, runs its handler and answers.  It leaves the end of the message to the
next reader, and nothing is written there. -/
theorem process_call (handler : Handler service η) {i : ι} {sequenceNumber : Int32}
    {req : service.Req i} {s : P.σ} (state : η) {rest : List Emit}
    (hfits : (service.method i).args.fits req)
    (hs : P.holds s ((service.method i).callMessage sequenceNumber req ++ rest)) :
    ∃ s', service.process handler (s, state) =
        (.ok (service.answer i sequenceNumber (handler i req state).1),
          (s', (handler i req state).2)) ∧ P.holds s' rest := by
  have hcalls : (service.method i).callMessage sequenceNumber req ++ rest =
      [.messageBegin ⟨(service.method i).name, .call, sequenceNumber⟩] ++
        ((service.method i).args.write req ++ (.messageEnd :: rest)) := by
    simp [Method.callMessage]
  rw [hcalls] at hs
  obtain ⟨mid, hmid, hholds⟩ := P.takes_messageBegin _ s _ hs
  obtain ⟨s', hs', hholds'⟩ := (service.method i).args.takes_run hfits mid _ hholds
  refine ⟨s', ?_, P.holds_messageEnd hholds'⟩
  simp only [process, bind_apply, reading, hmid, service.find_name, processMethod, hs']

/-- A remote call is a call of the handler. -/
theorem call_eq {i : ι} {req : service.Req i} {client : RpcClient P} {input : P.σ} {state : η}
    (handleProcessResult : Fault TError → List (List UInt8)) (hsettled : Settled client input)
    (hseq : client.sequenceNumber ≠ Int32.maxValue)
    (hcarried : service.Carried i (client.sequenceNumber + 1) req (handler i req state).1) :
    ∃ client' input', RpcClient.call (service.peer handler handleProcessResult) (service.method i) req
        (client, input, state) =
          (returned P.texts (handler i req state).1, (client', input', (handler i req state).2)) ∧
      Settled client' input' ∧ client'.sequenceNumber = client.sequenceNumber + 1 := by
  have hserver := holds_feed hcarried.sendable_call hsettled.server
  have hmessage : P.holds (P.feed input
      (P.pack ((service.method i).callMessage (client.sequenceNumber + 1) req)))
      ((service.method i).callMessage (client.sequenceNumber + 1) req ++ []) := by
    rw [List.append_nil]
    exact hserver
  obtain ⟨input', hprocess, hinput⟩ := process_call handler state hcarried.args hmessage
  have hclient := holds_feed hcarried.sendable_answer hsettled.client
  have hanswer : ∃ s', (service.method i).receive (client.sequenceNumber + 1)
      (P.feed client.input
        (P.pack (service.answer i (client.sequenceNumber + 1) (handler i req state).1))) =
        (returned P.texts (handler i req state).1, s') ∧ P.holds s' [] := by
    cases hr : (handler i req state).1 with
    | ok resp =>
        rw [hr] at hclient
        apply Method.takes_receive_reply (hcarried.result resp hr) _ []
        rw [List.append_nil]
        exact hclient
    | error e =>
        rw [hr] at hclient
        apply Method.receive_exception
        rw [List.append_nil]
        exact hclient
  obtain ⟨s', hs', hholds⟩ := hanswer
  refine ⟨⟨s', client.sequenceNumber + 1⟩, input', ?_, ⟨hholds, hinput⟩, rfl⟩
  rw [RpcClient.call_apply _ _ _ hseq]
  simp only [peer, hprocess, RpcClient.arrive, List.foldl_cons, List.foldl_nil, hs']

/-! ## Runs -/

/-- A call to be made. -/
abbrev Invocation (service : Service P ι) := (i : ι) × service.Req i

/-- One result of a run, with the method it belongs to. -/
abbrev Result (service : Service P ι) := (i : ι) × Outcome TError (service.Resp i)

/-- The calls one after the other on one client, whatever each of them returns. -/
def runRemote (service : Service P ι) (peer : Peer ρ) :
    List service.Invocation → RpcClient P × ρ → List service.Result × (RpcClient P × ρ)
  | [], s => ([], s)
  | ⟨i, req⟩ :: rest, s =>
      let r := RpcClient.call peer (service.method i) req s
      let others := service.runRemote peer rest r.2
      (⟨i, r.1⟩ :: others.1, others.2)

/-- The same calls made to the handler directly. -/
def runDirect (service : Service P ι) (handler : Handler service η) :
    List service.Invocation → η → List service.Result × η
  | [], state => ([], state)
  | ⟨i, req⟩ :: rest, state =>
      let r := handler i req state
      let others := service.runDirect handler rest r.2
      (⟨i, returned P.texts r.1⟩ :: others.1, others.2)

/-- Every call of the direct run fits into its messages, numbered from `sequenceNumber + 1` on. -/
def AllCarried (service : Service P ι) (handler : Handler service η) :
    List service.Invocation → Int32 → η → Prop
  | [], _, _ => True
  | ⟨i, req⟩ :: rest, sequenceNumber, state =>
      service.Carried i (sequenceNumber + 1) req (handler i req state).1 ∧
        service.AllCarried handler rest (sequenceNumber + 1) (handler i req state).2

theorem toInt_succ {n : Int32} (h : n ≠ Int32.maxValue) : (n + 1).toInt = n.toInt + 1 := by
  have hne : n.toInt ≠ Int32.maxValue.toInt := fun heq ↦ h (Int32.toInt_inj.mp heq)
  have hmax : Int32.maxValue.toInt = 2147483647 := by decide
  have hle := n.toInt_le
  have hge := n.le_toInt
  rw [hmax] at hne
  rw [Int32.toInt_add]
  have hone : (1 : Int32).toInt = 1 := by decide
  rw [hone, Int.bmod_eq_of_le (by omega) (by omega)]

/-- The run over the wire is the run of the handler, as long as the sequence numbers last. -/
theorem runRemote_eq (handleProcessResult : Fault TError → List (List UInt8))
    (calls : List service.Invocation) {client : RpcClient P} {input : P.σ} {state : η}
    (hsettled : Settled client input)
    (hseq : client.sequenceNumber.toInt + calls.length < 2 ^ 31)
    (hcarried : service.AllCarried handler calls client.sequenceNumber state) :
    ∃ client' input', service.runRemote (service.peer handler handleProcessResult) calls
        (client, input, state) =
          ((service.runDirect handler calls state).1,
            (client', input', (service.runDirect handler calls state).2)) ∧
      Settled client' input' := by
  induction calls generalizing client input state with
  | nil => exact ⟨client, input, rfl, hsettled⟩
  | cons invocation rest ih =>
      obtain ⟨i, req⟩ := invocation
      rw [List.length_cons] at hseq
      have hlast : client.sequenceNumber ≠ Int32.maxValue := by
        intro heq
        have hmax : Int32.maxValue.toInt = 2147483647 := by decide
        rw [heq, hmax] at hseq
        omega
      obtain ⟨client', input', hcall, hsettled', hnext⟩ :=
        call_eq handleProcessResult hsettled hlast hcarried.1
      have hroom : client'.sequenceNumber.toInt + rest.length < 2 ^ 31 := by
        rw [hnext, toInt_succ hlast]
        omega
      obtain ⟨client'', input'', hrest, hsettled''⟩ :=
        ih hsettled' hroom (by rw [hnext]; exact hcarried.2)
      refine ⟨client'', input'', ?_, hsettled''⟩
      simp only [runRemote, hcall, hrest, runDirect]

/-- The run of a new connection: its client starts with `new`, at sequence number 0. -/
theorem runRemote_fresh (handleProcessResult : Fault TError → List (List UInt8))
    (calls : List service.Invocation) {clientInput serverInput : P.σ} {state : η}
    (hclient : P.holds clientInput []) (hserver : P.holds serverInput [])
    (hlen : calls.length < 2 ^ 31) (hcarried : service.AllCarried handler calls 0 state) :
    (service.runRemote (service.peer handler handleProcessResult) calls
        (RpcClient.new clientInput, serverInput, state)).1 =
          (service.runDirect handler calls state).1 ∧
      (service.runRemote (service.peer handler handleProcessResult) calls
        (RpcClient.new clientInput, serverInput, state)).2.2.2 =
          (service.runDirect handler calls state).2 := by
  have hsettled : Settled (RpcClient.new clientInput) serverInput := ⟨hclient, hserver⟩
  have hseq : (RpcClient.new clientInput).sequenceNumber.toInt + calls.length < 2 ^ 31 := by
    show (0 : Int32).toInt + _ < _
    rw [Int32.toInt_zero]
    omega
  obtain ⟨client', input', hrun, -⟩ := runRemote_eq handleProcessResult calls hsettled hseq hcarried
  rw [hrun]
  exact ⟨rfl, rfl⟩

end Service

end IotdbClient.Library
