import IotdbClient.Library.Rpc

/-!
# Calls to any other end

Nothing is assumed about the other end of the connection here.  A call reads its reply without a panic
and returns only what came under its own name and sequence number; so a network that delays, repeats
and reorders the answers of a server never gives a call the answer to another one.
-/

namespace IotdbClient.Library

open Program

variable {P : TProtocol} {α Req Resp ρ ι : Type}

/-! ## One reply -/


/-- What a call returns came in a reply under its own name and sequence number: the input held such a
header, and the result is what its body reads as. -/
structure Matched (method : Method P Req Resp) (sequenceNumber : Int32) (s : P.σ) (resp : Resp) :
    Prop where
  reply : ∃ mid mid' last, P.readMessageBegin s = (.ok ⟨method.name, .reply, sequenceNumber⟩, mid) ∧
    method.result.run mid = (.ok (some resp), mid') ∧ P.readMessageEnd mid' = (.ok (), last)

theorem verify_eq_ok {method : Method P Req Resp} {sequenceNumber : Int32}
    {ident : TMessageIdentifier} (h : method.verify sequenceNumber ident = .ok ()) :
    ident = ⟨method.name, ident.messageType, sequenceNumber⟩ := by
  unfold Method.verify verifyExpectedSequenceNumber verifyExpectedServiceCall at h
  by_cases hseq : sequenceNumber = ident.sequenceNumber
  · rw [if_pos hseq] at h
    change (if _ then _ else _) = _ at h
    by_cases hname : method.name = ident.name
    · cases ident
      subst hseq hname
      rfl
    · rw [if_neg hname] at h
      cases h
  · rw [if_neg hseq] at h
    cases h

theorem Method.matched_of_receive {method : Method P Req Resp} {sequenceNumber : Int32}
    {s s' : P.σ} {resp : Resp} (h : method.receive sequenceNumber s = (.ok resp, s')) :
    Matched method sequenceNumber s resp := by
  rw [Method.receive] at h
  obtain ⟨ident, mid, hbegin, h⟩ := Program.bind_eq_ok h
  obtain ⟨_, _, hverify, h⟩ := Program.bind_eq_ok h
  obtain ⟨hown, rfl⟩ := ofOutcome_eq_ok hverify
  have hident := verify_eq_ok hown
  rw [Method.receiveBody] at h
  by_cases hexception : ident.messageType = .exception
  · -- An exception never ends in a value.
    rw [if_pos hexception] at h
    obtain ⟨e, _, _, h⟩ := Program.bind_eq_ok h
    obtain ⟨_, _, _, h⟩ := Program.bind_eq_ok h
    cases h
  · rw [if_neg hexception] at h
    obtain ⟨_, _, htype, h⟩ := Program.bind_eq_ok h
    obtain ⟨hreply, rfl⟩ := ofOutcome_eq_ok htype
    obtain ⟨result, mid', hresult, h⟩ := Program.bind_eq_ok h
    obtain ⟨_, last, hend, h⟩ := Program.bind_eq_ok h
    obtain ⟨hok, rfl⟩ := ofOutcome_eq_ok h
    have htype' : ident.messageType = .reply := by
      unfold verifyExpectedMessageType at hreply
      split at hreply
      · exact (by assumption : TMessageType.reply = ident.messageType).symm
      · cases hreply
    rw [hident, htype'] at hbegin
    cases result with
    | none => cases hok
    | some resp' =>
        cases hok
        exact ⟨mid, mid', last, hbegin, hresult, hend⟩

/-! ## Calls -/

namespace Service

variable {service : Service P ι} {result : (i : ι) → Int32 → Except TError (service.Resp i)}

/-- A message of a server that answers call number `n` of the method `i` with `result i n`. -/
def Genuine (service : Service P ι) (result : (i : ι) → Int32 → Except TError (service.Resp i))
    (message : List Emit) : Prop :=
  ∃ i n, message = service.answer i n (result i n) ∧ Sendable P message ∧
    ∀ resp, result i n = .ok resp → (service.method i).result.fits (some resp)

/-- What arrives are answers of the server, whole; which of them, when and how often is left open. -/
def Courier (service : Service P ι) (result : (i : ι) → Int32 → Except TError (service.Resp i))
    (peer : Peer ρ) : Prop :=
  ∀ frame state frames state', peer.flush frame state = (.ok frames, state') →
    ∃ messages : List (List Emit), frames = messages.map P.pack ∧ ∀ m ∈ messages, service.Genuine result m

/-- The results of a run up to the first call that fails are the server's results for these calls. -/
def Answered (service : Service P ι) (result : (i : ι) → Int32 → Except TError (service.Resp i)) :
    Int32 → List service.Result → Prop
  | _, [] => True
  | sequenceNumber, ⟨i, r⟩ :: rest => ∀ resp, r = .ok resp →
      result i (sequenceNumber + 1) = .ok resp ∧
        service.Answered result (sequenceNumber + 1) rest

/-- Frames that arrive stand behind what is still unread. -/
theorem holds_arrive {messages pending : List (List Emit)} {client : RpcClient P}
    (hmessages : ∀ m ∈ messages, service.Genuine result m)
    (hholds : P.holds client.input pending.flatten) :
    P.holds (client.arrive (messages.map P.pack)).input (pending ++ messages).flatten := by
  induction messages generalizing client pending with
  | nil => simpa [RpcClient.arrive] using hholds
  | cons m rest ih =>
      rw [List.forall_mem_cons] at hmessages
      obtain ⟨i, n, -, hsendable, -⟩ := hmessages.1
      have hfed : P.holds (P.feed client.input (P.pack m)) (pending ++ [m]).flatten := by
        have hnext := P.holds_feed hsendable.1 hsendable.2 hholds
        simpa using hnext
      have hrest := @ih (pending ++ [m]) ⟨P.feed client.input (P.pack m), client.sequenceNumber⟩
        hmessages.2 hfed
      simpa [RpcClient.arrive] using hrest

/-- A reply that is taken is the answer to this call, and the other answers stay in the input. -/
theorem receive_genuine {i : ι} {sequenceNumber : Int32} {pending : List (List Emit)} {s s' : P.σ}
    {resp : service.Resp i} (hpending : ∀ m ∈ pending, service.Genuine result m)
    (hholds : P.holds s pending.flatten)
    (h : (service.method i).receive sequenceNumber s = (.ok resp, s')) :
    result i sequenceNumber = .ok resp ∧
      ∃ rest : List (List Emit), (∀ m ∈ rest, m ∈ pending) ∧ P.holds s' rest.flatten := by
  obtain ⟨mid, _, _, hbegin, -⟩ := (Method.matched_of_receive h).reply
  cases pending with
  | nil => exact absurd hbegin (P.ends_messageBegin hholds _ mid)
  | cons m rest =>
      rw [List.forall_mem_cons] at hpending
      obtain ⟨⟨j, n, rfl, -, hfits⟩, -⟩ := hpending
      rw [List.flatten_cons] at hholds
      cases hresult : result j n with
      | error e =>
          -- The header of an exception is not the header of a reply.
          rw [hresult] at hholds
          obtain ⟨mid', hmid', -⟩ := P.takes_messageBegin _ s _ hholds
          rw [hmid'] at hbegin
          have hident := Except.ok.inj (Prod.mk.inj hbegin).1
          cases congrArg TMessageIdentifier.messageType hident
      | ok resp' =>
          rw [hresult] at hholds
          have hheader := hholds
          obtain ⟨mid', hmid', -⟩ := P.takes_messageBegin _ s _ hheader
          rw [hmid'] at hbegin
          have hident := Except.ok.inj (Prod.mk.inj hbegin).1
          obtain ⟨hname, hn⟩ : (service.method j).name = (service.method i).name ∧
              n = sequenceNumber := by simpa using hident
          have hindex : j = i := by
            have hfind := service.find_name j
            rw [hname, service.find_name i] at hfind
            exact (Option.some.inj hfind).symm
          subst hindex hn
          obtain ⟨s'', hs'', hrest⟩ :=
            Method.takes_receive_reply (hfits resp' hresult) s _ hholds
          rw [h] at hs''
          cases hs''
          exact ⟨hresult, rest, fun m hm ↦ List.mem_cons_of_mem _ hm, hrest⟩

/-- Behind a network that delays, repeats and reorders its messages no call gets the answer to another
one. -/
theorem answered_run {peer : Peer ρ} (hcourier : service.Courier result peer)
    (calls : List service.Invocation) {client : RpcClient P} {state : ρ}
    {pending : List (List Emit)} (hpending : ∀ m ∈ pending, service.Genuine result m)
    (hholds : P.holds client.input pending.flatten) :
    service.Answered result client.sequenceNumber (service.runRemote peer calls (client, state)).1 := by
  induction calls generalizing client state pending with
  | nil => exact trivial
  | cons invocation rest ih =>
      obtain ⟨i, req⟩ := invocation
      rw [runRemote, Answered]
      intro resp hok
      by_cases hlast : client.sequenceNumber = Int32.maxValue
      · rw [RpcClient.call, bind_apply, RpcClient.incrementSequenceNumber, if_pos hlast] at hok
        cases hok
      · have hcall := RpcClient.call_apply peer (service.method i) req hlast state
        rcases hflush : peer.flush (P.pack ((service.method i).callMessage
          (client.sequenceNumber + 1) req)) state with ⟨e | frames, state'⟩
        · rw [hcall, hflush] at hok
          cases hok
        · rw [hflush] at hcall
          rw [hcall] at hok ⊢
          obtain ⟨messages, rfl, hmessages⟩ := hcourier _ state frames state' hflush
          have hall : ∀ m ∈ pending ++ messages, service.Genuine result m := by
            intro m hm
            rcases List.mem_append.mp hm with hm | hm
            · exact hpending m hm
            · exact hmessages m hm
          obtain ⟨hanswer, others, hothers, hleft⟩ :=
            receive_genuine hall (holds_arrive hmessages hholds) (Prod.ext hok rfl)
          have hrest := @ih ⟨_, client.sequenceNumber + 1⟩ state' others
            (fun m hm ↦ hall m (hothers m hm)) hleft
          exact ⟨hanswer, hrest⟩

end Service

end IotdbClient.Library
