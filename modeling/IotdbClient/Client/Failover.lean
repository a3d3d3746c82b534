import IotdbClient.Client.SessionSpec
import IotdbClient.Library.Search

/-!
# Failover

`reconnect` walks over the endpoints in rounds and stops at the first full handshake.  A `Failover`
is the schedule of such a walk: the endpoint of try `0`, `1`, `2`, and so on, and where the pauses
fall.  The tries themselves are iterated handshakes, so what the walk ends with is a matter of which
try is the first to succeed.
-/

namespace IotdbClient

open Library Program

namespace Session

variable (server : Server) {α β : Type}

/-! ## Probes -/

/-- A program that leaves the session as it is, calls aside, and fails with error values only. -/
structure Probe (m : SessionM α) : Prop where
  frame : ∀ st, ∃ trace, (m st).2.1 = { st.1 with trace := trace }
  errors : ∀ st fault, (m st).1 = .error fault → ∃ e, fault = .error e

theorem Probe.pure (a : α) : Probe (Pure.pure a : SessionM α) where
  frame st := ⟨st.1.trace, rfl⟩
  errors _ _ h := by cases h

theorem Probe.raise (e : Error) : Probe (raise e : SessionM α) where
  frame st := ⟨st.1.trace, rfl⟩
  errors _ _ h := by cases h; exact ⟨e, rfl⟩

theorem Probe.self : Probe self where
  frame st := ⟨st.1.trace, rfl⟩
  errors _ _ h := by cases h

theorem Probe.ofOutcome {o : Result α} (h : NoPanic o) : Probe (ofOutcome o : SessionM α) where
  frame st := ⟨st.1.trace, rfl⟩
  errors := by
    intro st fault hfault
    cases fault with
    | error e => exact ⟨e, rfl⟩
    | panic message => exact absurd hfault (h message)

theorem Probe.bind {m : SessionM α} {f : α → SessionM β} (hm : Probe m) (hf : ∀ a, Probe (f a)) :
    Probe (m >>= f) where
  frame := by
    intro st
    obtain ⟨trace, htrace⟩ := hm.frame st
    rw [bind_apply]
    rcases hrun : m st with ⟨fault | a, st'⟩ <;> rw [hrun] at htrace
    · exact ⟨trace, htrace⟩
    · obtain ⟨trace', htrace'⟩ := (hf a).frame st'
      exact ⟨trace', by rw [htrace', htrace]⟩
  errors := by
    intro st fault hfault
    rw [bind_apply] at hfault
    rcases hrun : m st with ⟨fault' | a, st'⟩ <;> rw [hrun] at hfault
    · cases hfault
      exact hm.errors st fault (by rw [hrun])
    · exact (hf a).errors st' fault hfault

theorem probe_call (connection : Connection) (site : CallSite) (request : Request) :
    Probe (call server connection site request) where
  frame st := ⟨_, by rw [call_state]; rfl⟩
  errors := by
    intro st fault hfault
    simp only [call] at hfault
    split at hfault
    · cases hfault
    · cases hfault
      exact ⟨_, rfl⟩

theorem probe_connect (endpoint : Endpoint) (options : ConnectionOptions) :
    Probe (connect server endpoint options) where
  frame := by
    intro st
    simp only [connect]
    split <;> exact ⟨st.1.trace, rfl⟩
  errors := by
    intro st fault hfault
    simp only [connect] at hfault
    split at hfault
    · cases hfault
    · cases hfault
      exact ⟨_, rfl⟩

theorem probe_authenticate (connection : Connection) : Probe (authenticate server connection) := by
  apply Probe.self.bind
  intro session
  apply (probe_call server connection .handshake (.openSession session.openSessionReq)).bind
  intro resp
  apply (Probe.ofOutcome (ends_checkStatus _).noPanic).bind
  intro _
  cases TSOpenSessionResp.sessionId resp with
  | none => exact Probe.raise _
  | some sessionId =>
      apply (probe_call server connection .handshake (.requestStatementId sessionId)).bind
      intro statementId
      exact Probe.pure _

theorem probe_handshake (options : ConnectionOptions) (endpoint : Endpoint) :
    Probe (handshake server options endpoint) := by
  apply (probe_connect server endpoint options).bind
  intro connection
  apply (probe_authenticate server connection).bind
  intro ids
  exact Probe.pure _

/-- The state after an attempt to connect. -/
def afterConnect (st : Session × World) : Session × World :=
  (st.1, { st.2 with calls := st.2.calls + 1 })

theorem handshake_refused {options : ConnectionOptions} {endpoint : Endpoint}
    {st : Session × World} {e : Error}
    (h : server.connect st.2.calls endpoint options = some e) :
    handshake server options endpoint st = (.error (.error e), afterConnect st) := by
  simp only [handshake, bind_apply, connect, h]
  rfl

theorem handshake_connected {options : ConnectionOptions} {endpoint : Endpoint}
    {st : Session × World} (h : server.connect st.2.calls endpoint options = none) :
    handshake server options endpoint st =
      match authenticate server ⟨st.2.calls, endpoint⟩ (afterConnect st) with
      | (.ok ids, st') => (.ok (⟨st.2.calls, endpoint⟩, ids), st')
      | (.error fault, st') => (.error fault, st') := by
  simp only [handshake, bind_apply, connect, h, afterConnect, pure_apply]
  rcases authenticate server ⟨st.2.calls, endpoint⟩
    (st.1, { st.2 with calls := st.2.calls + 1 }) with ⟨_ | _, _⟩ <;> rfl

/-- A handshake that succeeds does so on the connection it made. -/
theorem handshake_connection {options : ConnectionOptions} {endpoint : Endpoint}
    {st : Session × World} {connection : Connection} {ids : Int64 × Int64}
    (h : (handshake server options endpoint st).1 = .ok (connection, ids)) :
    connection = ⟨st.2.calls, endpoint⟩ := by
  cases hconnect : server.connect st.2.calls endpoint options with
  | some e =>
      rw [handshake_refused server hconnect] at h
      cases h
  | none =>
      rw [handshake_connected server hconnect] at h
      split at h
      · cases h
        rfl
      · cases h

/-- The session once it has adopted a connection and its ids. -/
def adopted (connection : Connection) (ids : Int64 × Int64) (st : Session × World) :
    Session × World :=
  ({ st.1 with
      sessionId := ids.1
      statementId := ids.2
      lastEndpoint := some connection.endpoint
      connection := some connection }, st.2)

end Session

/-! ## Schedules of tries -/

/-- The endpoint of each try, and a pause in front of every round of `width` tries but the first. -/
structure Failover where
  options : ConnectionOptions
  interval : Nat
  width : Nat
  node : Nat → Endpoint

namespace Failover

variable (server : Server) (plan : Failover) (start : Session × World)

def pauseBefore (j : Nat) (st : Session × World) : Session × World :=
  if j % plan.width = 0 ∧ j ≠ 0 then
    (st.1, { st.2 with clock := st.2.clock + plan.interval })
  else st

/-- The state once tries `0` to `j - 1` were made. -/
def stateAfter : Nat → Session × World
  | 0 => start
  | j + 1 => (Session.handshake server plan.options (plan.node j)
      (plan.pauseBefore j (stateAfter j))).2

/-- What try `j` returns. -/
def outcome (j : Nat) : Result (Connection × Int64 × Int64) :=
  (Session.handshake server plan.options (plan.node j)
    (plan.pauseBefore j (stateAfter server plan start j))).1

def FailsAt (j : Nat) : Prop := ∃ e, outcome server plan start j = .error (.error e)

theorem pauseBefore_session (j : Nat) (st : Session × World) : (plan.pauseBefore j st).1 = st.1 := by
  unfold pauseBefore
  split <;> rfl

/-- Tries change nothing of the session but its calls. -/
theorem stateAfter_frame (j : Nat) :
    ∃ trace, (stateAfter server plan start j).1 = { start.1 with trace := trace } := by
  induction j with
  | zero => exact ⟨start.1.trace, rfl⟩
  | succ j ih =>
      obtain ⟨trace, htrace⟩ := ih
      obtain ⟨trace', htrace'⟩ := (Session.probe_handshake server plan.options (plan.node j)).frame
        (plan.pauseBefore j (stateAfter server plan start j))
      refine ⟨trace', ?_⟩
      rw [stateAfter, htrace', pauseBefore_session, htrace]

theorem stateAfter_keeps (j : Nat) :
    (stateAfter server plan start j).1.connection = start.1.connection ∧
      (stateAfter server plan start j).1.database = start.1.database ∧
      (stateAfter server plan start j).1.redirectCache = start.1.redirectCache := by
  obtain ⟨trace, htrace⟩ := stateAfter_frame server plan start j
  rw [htrace]
  exact ⟨rfl, rfl, rfl⟩

theorem outcome_cases (j : Nat) :
    (∃ connection ids, outcome server plan start j = .ok (connection, ids)) ∨
      FailsAt server plan start j := by
  cases hout : outcome server plan start j with
  | ok result => exact .inl ⟨result.1, result.2, rfl⟩
  | error fault =>
      obtain ⟨e, rfl⟩ := (Session.probe_handshake server plan.options (plan.node j)).errors _ _ hout
      exact .inr ⟨e, hout⟩

/-- A connection a try returns was made by that try, to its endpoint. -/
theorem outcome_connection {j : Nat} {connection : Connection} {ids : Int64 × Int64}
    (h : outcome server plan start j = .ok (connection, ids)) :
    connection.endpoint = plan.node j := by
  rw [Session.handshake_connection server h]

/-- Try `j` of those from `first` on is the first to succeed. -/
def SucceedsAt (first j : Nat) (connection : Connection) (ids : Int64 × Int64) : Prop :=
  (∀ i, first ≤ i → i < j → FailsAt server plan start i) ∧
    outcome server plan start j = .ok (connection, ids)

/-- The ways `count + 1` tries from `first` on can end: `result` where they stop. -/
inductive Ends (first count : Nat) : Option Error → Session × World → Prop where
  | succeeded {j : Nat} {connection : Connection} {ids : Int64 × Int64} (hle : first ≤ j)
      (hlt : j < first + count) (h : SucceedsAt server plan start first j connection ids) :
      Ends first count none (Session.adopted connection ids (stateAfter server plan start (j + 1)))
  | failed {e : Error} (h : ∀ i, first ≤ i → i < first + count → FailsAt server plan start i)
      (hlast : outcome server plan start (first + count - 1) = .error (.error e)) :
      Ends first count (some e) (stateAfter server plan start (first + count))

variable {server plan start}

/-- Failed tries in front of the others. -/
theorem Ends.after {first front count : Nat} {err : Option Error} {st : Session × World}
    (hfront : ∀ i, first ≤ i → i < first + front → FailsAt server plan start i)
    (h : Ends server plan start (first + front) count err st) :
    Ends server plan start first (front + count) err st := by
  have hextend : ∀ {last : Nat},
      (∀ i, first + front ≤ i → i < last → FailsAt server plan start i) →
      ∀ i, first ≤ i → i < last → FailsAt server plan start i := by
    intro last hrest i hle hlt
    by_cases hi : i < first + front
    · exact hfront i hle hi
    · exact hrest i (by omega) hlt
  cases h with
  | succeeded hle hlt hsucceeds =>
      exact .succeeded (by omega) (by omega) ⟨hextend hsucceeds.1, hsucceeds.2⟩
  | failed hfailed hlast =>
      rw [Nat.add_assoc] at hfailed hlast ⊢
      exact .failed (hextend hfailed) hlast

/-- What a pass over the endpoints returns for the end of its tries. -/
def passResult (err : Option Error) (lastErr : Option Error) : Result (Bool × Option Error) :=
  match err with
  | none => .ok (true, lastErr)
  | some e => .ok (false, some e)

/-- One pass, from the try `first` at which it starts. -/
theorem reconnectPass_ends (first count : Nat) (lastErr : Option Error)
    (hround : ∀ j, first < j → j ≤ first + count → j % plan.width ≠ 0) :
    ∃ err st lastErr', Ends server plan start first (count + 1) err st ∧
      Session.reconnectPass server plan.options ((List.range' first (count + 1)).map plan.node)
        lastErr (plan.pauseBefore first (stateAfter server plan start first)) =
        (passResult err lastErr', st) := by
  induction count generalizing first lastErr with
  | zero =>
      simp only [Nat.zero_add, List.range'_one, List.map_cons, List.map_nil, Session.reconnectPass,
        bind_apply, attempt_apply]
      rcases outcome_cases server plan start first with ⟨connection, ids, hout⟩ | ⟨e, hout⟩
      · have hends : Ends server plan start first 1 none _ :=
          .succeeded (Nat.le_refl first) (Nat.lt_succ_self first) ⟨by omega, hout⟩
        refine ⟨none, _, lastErr, hends, ?_⟩
        rw [outcome] at hout
        rw [hout]
        rfl
      · have hends : Ends server plan start first 1 (some e) _ :=
          .failed (fun i _ _ ↦ (show i = first by omega) ▸ ⟨e, hout⟩) hout
        refine ⟨some e, _, lastErr, hends, ?_⟩
        rw [outcome] at hout
        rw [hout]
        rfl
  | succ count ih =>
      rw [List.range'_succ, List.map_cons]
      simp only [Session.reconnectPass, bind_apply, attempt_apply]
      rcases outcome_cases server plan start first with ⟨connection, ids, hout⟩ | ⟨e, hout⟩
      · have hends : Ends server plan start first (count + 1 + 1) none _ :=
          .succeeded (Nat.le_refl first) (by omega) ⟨by omega, hout⟩
        refine ⟨none, _, lastErr, hends, ?_⟩
        rw [outcome] at hout
        rw [hout]
        rfl
      · obtain ⟨err, st, lastErr', hends, hrun⟩ := ih (first + 1) (some e)
          fun j hlt hle ↦ hround j (by omega) (by omega)
        have hfront : ∀ i, first ≤ i → i < first + 1 → FailsAt server plan start i :=
          fun i hle hlt ↦ (show i = first by omega) ▸ ⟨e, hout⟩
        refine ⟨err, st, lastErr', Nat.add_comm 1 _ ▸ hends.after hfront, ?_⟩
        -- The pass goes on without a pause: the next try starts no round.
        have hnext : plan.pauseBefore (first + 1) (stateAfter server plan start (first + 1)) =
            stateAfter server plan start (first + 1) :=
          if_neg fun h ↦ hround (first + 1) (by omega) (by omega) h.1
        rw [hnext] at hrun
        rw [outcome] at hout
        rw [hout]
        exact hrun

/-- A walk over the endpoints of one round again and again. -/
structure Rounds (plan : Failover) : Prop where
  width : 0 < plan.width
  period : ∀ j, plan.node (j + plan.width) = plan.node j

theorem Rounds.node_add_mul (h : Rounds plan) (j k : Nat) :
    plan.node (j + k * plan.width) = plan.node j := by
  induction k with
  | zero => rw [Nat.zero_mul, Nat.add_zero]
  | succ k ih => rw [Nat.succ_mul, ← Nat.add_assoc, h.period, ih]

theorem Rounds.nodes (h : Rounds plan) (k : Nat) :
    (List.range' (k * plan.width) plan.width).map plan.node =
      (List.range plan.width).map plan.node := by
  rw [List.range'_eq_map_range, List.map_map]
  apply List.map_congr_left
  intro j _
  change plan.node (k * plan.width + j) = plan.node j
  rw [Nat.add_comm, h.node_add_mul]

/-- Inside a round no try is paused for. -/
theorem Rounds.within (h : Rounds plan) {k j : Nat} (hlt : k * plan.width < j)
    (hle : j ≤ k * plan.width + (plan.width - 1)) : j % plan.width ≠ 0 := by
  have hwidth := h.width
  intro hmod
  obtain ⟨q, rfl⟩ := Nat.dvd_of_mod_eq_zero hmod
  rw [Nat.mul_comm k] at hlt hle
  have hkq : k < q := Nat.lt_of_mul_lt_mul_left hlt
  have hnext : plan.width * (k + 1) ≤ plan.width * q := Nat.mul_le_mul_left _ hkq
  rw [Nat.mul_succ] at hnext
  omega

theorem pauseUnless_eq (h : Rounds plan) (k : Nat) (st : Session × World) :
    Session.pauseUnless (k == 0) plan.interval st =
      (.ok (), plan.pauseBefore (k * plan.width) st) := by
  have hwidth := h.width
  unfold pauseBefore
  cases k with
  | zero => rw [Nat.zero_mul, if_neg (by simp)]; rfl
  | succ k =>
      have hne : (k + 1) * plan.width ≠ 0 := Nat.mul_ne_zero (by omega) (by omega)
      rw [if_pos ⟨Nat.mul_mod_left _ _, hne⟩]
      rfl

variable (server start) in
/-- One round of tries is one pass. -/
theorem reconnectPass_round (h : Rounds plan) (k : Nat) (lastErr : Option Error) :
    ∃ err st lastErr', Ends server plan start (k * plan.width) plan.width err st ∧
      Session.reconnectPass server plan.options ((List.range plan.width).map plan.node) lastErr
        (plan.pauseBefore (k * plan.width) (stateAfter server plan start (k * plan.width))) =
        (passResult err lastErr', st) := by
  obtain ⟨err, st, lastErr', hends, hrun⟩ := reconnectPass_ends (k * plan.width) (plan.width - 1)
    lastErr fun j hlt hle ↦ h.within hlt hle
  rw [Nat.sub_add_cancel h.width, h.nodes] at hrun
  rw [Nat.sub_add_cancel h.width] at hends
  exact ⟨err, st, lastErr', hends, hrun⟩

/-- What the passes return for the end of their tries. -/
def passesResult : Option Error → Result Unit
  | none => .ok ()
  | some e => .error (.error e)

variable (server start) in
/-- The passes from round `k` on. -/
theorem reconnectPasses_ends (h : Rounds plan) (k remaining : Nat) (lastErr : Option Error) :
    ∃ err st, Ends server plan start (k * plan.width) ((remaining + 1) * plan.width) err st ∧
      Session.reconnectPasses server plan.options ((List.range plan.width).map plan.node)
        plan.interval (k == 0) (remaining + 1) lastErr
        (stateAfter server plan start (k * plan.width)) = (passesResult err, st) := by
  induction remaining generalizing k lastErr with
  | zero =>
      obtain ⟨err, st, lastErr', hends, hrun⟩ := reconnectPass_round server start h k lastErr
      rw [Nat.zero_add, Nat.one_mul]
      refine ⟨err, st, hends, ?_⟩
      simp only [Session.reconnectPasses, bind_apply, pauseUnless_eq h, hrun]
      cases err <;> rfl
  | succ remaining ih =>
      obtain ⟨err, st, lastErr', hends, hrun⟩ := reconnectPass_round server start h k lastErr
      have hmore : (remaining + 1 + 1) * plan.width =
          plan.width + (remaining + 1) * plan.width := by ring
      rw [Session.reconnectPasses]
      simp only [bind_apply, pauseUnless_eq h, hrun]
      cases hends with
      | succeeded hle hlt hsucceeds =>
          exact ⟨none, _, .succeeded hle (by omega) hsucceeds, rfl⟩
      | failed hfailed hlast =>
          rename_i e
          obtain ⟨err, st, hends, hrest⟩ := ih (k + 1) (some e)
          rw [Nat.succ_mul] at hends hrest
          exact ⟨err, st, hmore ▸ hends.after hfailed, hrest⟩

end Failover

/-! ## Reconnecting -/

/-- `position` is where the last endpoint stands first in the list, and `0` where it does not. -/
def StartsAt (endpoints : List Endpoint) (last : Option Endpoint) (position : Nat) : Prop :=
  (∃ endpoint, last = some endpoint ∧ endpoints[position]? = some endpoint ∧
    ∀ i < position, endpoints[i]? ≠ some endpoint) ∨
  (position = 0 ∧ ∀ endpoint, last = some endpoint → endpoint ∉ endpoints)

/-- Each round meets every position of the list once. -/
theorem round_meets_position {n i : Nat} (hi : i < n) (position pass : Nat) :
    ∃! j, pass * n ≤ j ∧ j < (pass + 1) * n ∧ (position + j) % n = i := by
  have hn : 0 < n := by omega
  have hmod : ∀ r, (position + (pass * n + r)) % n = (position + r) % n := by
    intro r
    rw [show position + (pass * n + r) = position + r + pass * n by ring, Nat.add_mul_mod_self_right]
  have hmeets : ∃ r < n, (position + r) % n = i := by
    refine ⟨(i + (n - position % n)) % n, Nat.mod_lt _ hn, ?_⟩
    have hpos : position % n < n := Nat.mod_lt _ hn
    rw [Nat.add_mod, Nat.mod_mod, ← Nat.add_mod, ← Nat.mod_add_mod,
      show position % n + (i + (n - position % n)) = i + n by omega, Nat.add_mod_right,
      Nat.mod_eq_of_lt hi]
  obtain ⟨r, hr, hmeet⟩ := hmeets
  refine ⟨pass * n + r, ⟨by omega, by rw [Nat.succ_mul]; omega, by rw [hmod, hmeet]⟩, ?_⟩
  rintro j ⟨hle, hlt, hj⟩
  obtain ⟨r', rfl⟩ := Nat.exists_eq_add_of_le hle
  rw [Nat.succ_mul] at hlt
  rw [hmod, ← hmeet] at hj
  have hsame : r' ≡ r [MOD n] := Nat.ModEq.add_left_cancel' position hj
  rw [Nat.ModEq.eq_of_lt_of_lt hsame (by omega) hr]

namespace Session

/-- `self.last_endpoint.and_then(|ep| position of ep).unwrap_or(0)`. -/
def startPosition (session : Session) : Nat :=
  (session.lastEndpoint.bind fun ep ↦ session.config.endpoints.findIdx? (· == ep)).getD 0

theorem startPosition_startsAt (session : Session) :
    StartsAt session.config.endpoints session.lastEndpoint session.startPosition := by
  unfold startPosition
  cases hlast : session.lastEndpoint with
  | none => exact .inr ⟨rfl, fun _ h ↦ by cases h⟩
  | some endpoint =>
      rw [Option.bind_some]
      cases hfind : session.config.endpoints.findIdx? (· == endpoint) with
      | none =>
          rw [List.findIdx?_eq_none_iff] at hfind
          refine .inr ⟨rfl, ?_⟩
          rintro _ ⟨⟩ hmem
          simpa using hfind endpoint hmem
      | some position =>
          obtain ⟨hlt, hat, hbefore⟩ := List.findIdx?_eq_some_iff_getElem.mp hfind
          refine .inl ⟨endpoint, rfl, ?_, ?_⟩
          · rw [Option.getD_some, List.getElem?_eq_getElem hlt, beq_iff_eq.mp hat]
          · intro i hi heq
            obtain ⟨hi', hget⟩ := List.getElem?_eq_some_iff.mp heq
            exact hbefore i hi (beq_iff_eq.mpr hget)

/-- The tries of a walk over the endpoints that starts at `position`. -/
def walkFrom (session : Session) (hne : session.config.endpoints ≠ []) (position : Nat) :
    Failover where
  options := session.config.connectionOptions
  interval := session.config.retryInterval
  width := session.config.endpoints.length
  node j := session.config.endpoints.get
    ⟨(position + j) % session.config.endpoints.length,
      Nat.mod_lt _ (List.length_pos_iff.mpr hne)⟩

theorem walkFrom_rounds (session : Session) (hne : session.config.endpoints ≠ []) (position : Nat) :
    (session.walkFrom hne position).Rounds where
  width := List.length_pos_iff.mpr hne
  period := by
    intro j
    simp only [walkFrom, ← Nat.add_assoc, Nat.add_mod_right]

/-- One round of the walk is the rotated list. -/
theorem walkFrom_nodes (session : Session) (hne : session.config.endpoints ≠ []) (position : Nat) :
    (List.range (session.walkFrom hne position).width).map (session.walkFrom hne position).node =
      session.config.endpoints.rotate position := by
  apply List.ext_getElem
  · simp [walkFrom]
  · intro i hi hi'
    simp [walkFrom, List.getElem_rotate, Nat.add_comm]

variable (server : Server)

/-- `reconnect` is the walk that starts at the last endpoint, for at most `max(m, 1)` rounds. -/
theorem reconnect_ends (session : Session) (world : World) (hne : session.config.endpoints ≠ []) :
    ∃ err st, Failover.Ends server (session.walkFrom hne session.startPosition)
        (dropped (session, world)) 0
        (max session.config.maxReconnectAttempts 1 * session.config.endpoints.length) err st ∧
      reconnect server (session, world) = (Failover.passesResult err, st) := by
  obtain ⟨remaining, hremaining⟩ : ∃ remaining,
      max session.config.maxReconnectAttempts 1 = remaining + 1 :=
    Nat.exists_eq_add_of_le' (Nat.le_max_right _ 1)
  have hlen : ¬session.config.endpoints.length = 0 := by simpa using hne
  obtain ⟨err, st, hends, hrun⟩ := Failover.reconnectPasses_ends server (dropped (session, world))
    (session.walkFrom_rounds hne session.startPosition) 0 remaining none
  rw [walkFrom_nodes] at hrun
  rw [Nat.zero_mul] at hends hrun
  rw [hremaining]
  refine ⟨err, st, hends, ?_⟩
  simp only [reconnect, bind_apply, update_apply, self_apply, branch_apply, if_neg hlen, hremaining]
  exact hrun

theorem reconnect_failover (session : Session) (world : World)
    (hne : session.config.endpoints ≠ []) :
    let n := session.config.endpoints.length
    let limit := max session.config.maxReconnectAttempts 1 * n
    let walk := session.walkFrom hne session.startPosition
    let start := dropped (session, world)
    let after := reconnect server (session, world)
    StartsAt session.config.endpoints session.lastEndpoint session.startPosition ∧
    (∀ j, session.config.endpoints[(session.startPosition + j) % n]? = some (walk.node j)) ∧
    (∀ pass i, i < n →
      ∃! j, pass * n ≤ j ∧ j < (pass + 1) * n ∧ (session.startPosition + j) % n = i) ∧
    ((∃ j < limit, ∃ connection ids, (∀ i < j, walk.FailsAt server start i) ∧
        walk.outcome server start j = .ok (connection, ids) ∧ connection.endpoint = walk.node j ∧
        after = (.ok (), adopted connection ids (walk.stateAfter server start (j + 1)))) ∨
      ((∀ j < limit, walk.FailsAt server start j) ∧
        ∃ e, walk.outcome server start (limit - 1) = .error (.error e) ∧
          after = (.error (.error e), walk.stateAfter server start limit) ∧
          after.2.1.connection = none)) ∧
    after.2.1.database = session.database ∧ after.2.1.redirectCache = session.redirectCache := by
  intro n limit walk start after
  have hpos : 0 < n := List.length_pos_iff.mpr hne
  refine ⟨session.startPosition_startsAt, fun j ↦ List.getElem?_eq_getElem (Nat.mod_lt _ hpos),
    fun pass i hi ↦ round_meets_position hi _ pass, ?_⟩
  obtain ⟨err, st, hends, hrun⟩ := reconnect_ends server session world hne
  have hafter : after = _ := hrun
  cases hends with
  | @succeeded j connection ids _ hlt h =>
      have hkeeps := Failover.stateAfter_keeps server walk start (j + 1)
      -- the walk starts at its first try
      rw [Nat.zero_add] at hlt
      refine ⟨.inl ⟨j, hlt, connection, ids, fun i hi ↦ h.1 i (Nat.zero_le i) hi, h.2,
        Failover.outcome_connection server walk start h.2, hafter⟩, ?_⟩
      rw [hafter]
      exact hkeeps.2
  | @failed e h hlast =>
      have hkeeps := Failover.stateAfter_keeps server walk start limit
      rw [Nat.zero_add] at h hlast hafter
      refine ⟨.inr ⟨fun j hj ↦ h j (Nat.zero_le j) hj, e, hlast, hafter, ?_⟩, ?_⟩
      · rw [hafter]
        exact hkeeps.1
      · rw [hafter]
        exact hkeeps.2

/-- Two endpoints; the last one used is the second. -/
def failoverSession : Session :=
  { Session.new { SessionConfig.default with endpoints := [⟨"a", 1⟩, ⟨"b", 2⟩] } with
    lastEndpoint := some ⟨"b", 2⟩ }

/-- The first two connection attempts are refused. -/
def lateServer : Server where
  connect n _ _ := if n < 2 then some (.thrift "refused") else none
  answer
    | n, _, .openSession _ => .ok ⟨.mk 200 none none none, some (.ofNat n)⟩
    | n, _, .requestStatementId _ => .ok (.ofNat n)
    | _, _, _ => .error "not scripted"

/-- The second round starts where the first did, after a pause. -/
theorem reconnect_failover_second_round :
    failoverSession.config.endpoints ≠ [] ∧
      (reconnect lateServer (failoverSession, ⟨0, 0, 0⟩)).2.1.connection = some ⟨2, ⟨"b", 2⟩⟩ ∧
      (reconnect lateServer (failoverSession, ⟨0, 0, 0⟩)).2.2.clock = 1000 ∧
      StartsAt [⟨"a", 1⟩, ⟨"b", 2⟩] (some ⟨"b", 2⟩) 1 ∧
      (reconnect lateServer (failoverSession, ⟨0, 0, 0⟩)).2.1.database = none :=
  ⟨by decide, rfl, rfl,
    (reconnect_failover lateServer failoverSession ⟨0, 0, 0⟩ (by decide)).1,
    (reconnect_failover lateServer failoverSession ⟨0, 0, 0⟩ (by decide)).2.2.2.2.1⟩

/-! ## Opening -/

/-- What a node does with a handshake. -/
inductive NodeOutcome where
  /-- The connection is not established. -/
  | refuses
  /-- The connection is established, `openSession` or `requestStatementId` fails. -/
  | rejects
  | accepts
deriving Repr, DecidableEq

/-- The server treats the handshakes of `session` by endpoint, as `kind` says. -/
structure Treats (session : Session) (kind : Endpoint → NodeOutcome) : Prop where
  refuses : ∀ endpoint, kind endpoint = .refuses → ∀ n,
    ∃ e, server.connect n endpoint session.config.connectionOptions = some e
  connects : ∀ endpoint, kind endpoint ≠ .refuses → ∀ n,
    server.connect n endpoint session.config.connectionOptions = none
  rejects : ∀ endpoint, kind endpoint = .rejects → ∀ n st,
    st.1.openSessionReq = session.openSessionReq →
    ∃ fault, (authenticate server ⟨n, endpoint⟩ st).1 = .error fault
  accepts : ∀ endpoint, kind endpoint = .accepts → ∀ n st,
    st.1.openSessionReq = session.openSessionReq →
    ∃ ids, (authenticate server ⟨n, endpoint⟩ st).1 = .ok ids

/-- `open` succeeded on the endpoint, or it failed. -/
def OpensOn (result : Result Unit × (Session × World)) : Option Endpoint → Prop
  | some endpoint => result.1 = .ok () ∧ result.2.1.currentEndpoint = some endpoint
  | none => ∃ e, result.1 = .error (.error e)

/-- A reconnect pass succeeded on the endpoint, or it went through the list in vain. -/
def PassesOn (result : Result (Bool × Option Error) × (Session × World)) : Option Endpoint → Prop
  | some endpoint =>
      ∃ lastErr, result.1 = .ok (true, lastErr) ∧ result.2.1.currentEndpoint = some endpoint
  | none => ∃ lastErr, result.1 = .ok (false, lastErr)

theorem OpensOn.unique {result : Result Unit × (Session × World)} {verdict verdict' : Option Endpoint}
    (h : OpensOn result verdict) (h' : OpensOn result verdict') : verdict = verdict' := by
  cases verdict with
  | none =>
      obtain ⟨e, he⟩ := h
      cases verdict' with
      | none => rfl
      | some endpoint => cases he.symm.trans h'.1
  | some endpoint =>
      cases verdict' with
      | none =>
          obtain ⟨e, he⟩ := h'
          cases he.symm.trans h.1
      | some endpoint' => exact h.2.symm.trans h'.2

theorem PassesOn.unique {result : Result (Bool × Option Error) × (Session × World)}
    {verdict verdict' : Option Endpoint} (h : PassesOn result verdict)
    (h' : PassesOn result verdict') : verdict = verdict' := by
  cases verdict with
  | none =>
      obtain ⟨e, he⟩ := h
      cases verdict' with
      | none => rfl
      | some endpoint =>
          obtain ⟨e', he', -⟩ := h'
          cases he.symm.trans he'
  | some endpoint =>
      obtain ⟨e, he, hendpoint⟩ := h
      cases verdict' with
      | none =>
          obtain ⟨e', he'⟩ := h'
          cases he.symm.trans he'
      | some endpoint' =>
          obtain ⟨e', -, hendpoint'⟩ := h'
          exact hendpoint.symm.trans hendpoint'

variable {server} {session : Session} {kind : Endpoint → NodeOutcome}

/-- The connect loop ends on the first endpoint that does not refuse. -/
theorem connectFirst_treated (h : Treats server session kind) (order : List Endpoint)
    (lastErr : Option Error) (world : World) :
    ∃ result world', connectFirst server session.config.connectionOptions order lastErr
        (session, world) = (result, (session, world')) ∧
      match order.find? (kind · ≠ .refuses) with
      | some endpoint => ∃ n, result = .ok ⟨n, endpoint⟩
      | none => ∃ e, result = .error (.error e) := by
  induction order generalizing lastErr world with
  | nil => exact ⟨_, world, rfl, _, rfl⟩
  | cons endpoint rest ih =>
      simp only [connectFirst, bind_apply, attempt_apply, connect]
      by_cases hkind : kind endpoint = .refuses
      · obtain ⟨e, hconnect⟩ := h.refuses endpoint hkind world.calls
        rw [List.find?_cons_of_neg (by simpa using hkind), hconnect]
        exact ih (some e) _
      · rw [List.find?_cons_of_pos (by simpa using hkind), h.connects endpoint hkind world.calls]
        exact ⟨_, _, rfl, world.calls, rfl⟩

/-- Where the two calls of a handshake end. -/
theorem Treats.authenticate (h : Treats server session kind) {endpoint : Endpoint}
    (hrefuses : kind endpoint ≠ .refuses) (n : Nat) (st : Session × World)
    (hreq : st.1.openSessionReq = session.openSessionReq) :
    if kind endpoint = .accepts then
      ∃ ids st', Session.authenticate server ⟨n, endpoint⟩ st = (.ok ids, st')
    else ∃ fault st', Session.authenticate server ⟨n, endpoint⟩ st = (.error fault, st') := by
  cases hkind : kind endpoint with
  | refuses => exact absurd hkind hrefuses
  | rejects =>
      obtain ⟨fault, hfault⟩ := h.rejects endpoint hkind n st hreq
      exact ⟨fault, _, Prod.ext hfault rfl⟩
  | accepts =>
      obtain ⟨ids, hids⟩ := h.accepts endpoint hkind n st hreq
      exact ⟨ids, _, Prod.ext hids rfl⟩

/-- Where the handshake of an endpoint ends. -/
theorem handshake_treated (h : Treats server session kind) (endpoint : Endpoint)
    (st : Session × World) (hreq : st.1.openSessionReq = session.openSessionReq) :
    if kind endpoint = .accepts then
      ∃ connection ids, connection.endpoint = endpoint ∧
        (handshake server session.config.connectionOptions endpoint st).1 = .ok (connection, ids)
    else
      ∃ fault, (handshake server session.config.connectionOptions endpoint st).1 = .error fault := by
  by_cases hrefuses : kind endpoint = .refuses
  · obtain ⟨e, hconnect⟩ := h.refuses endpoint hrefuses st.2.calls
    rw [hrefuses, handshake_refused server hconnect]
    exact ⟨_, rfl⟩
  · have hauth := h.authenticate hrefuses st.2.calls (afterConnect st) hreq
    rw [handshake_connected server (h.connects endpoint hrefuses st.2.calls)]
    by_cases hkind : kind endpoint = .accepts
    · rw [if_pos hkind] at hauth ⊢
      obtain ⟨ids, st', hrun⟩ := hauth
      exact ⟨⟨st.2.calls, endpoint⟩, ids, rfl, by rw [hrun]⟩
    · rw [if_neg hkind] at hauth ⊢
      obtain ⟨fault, st', hrun⟩ := hauth
      exact ⟨fault, by rw [hrun]⟩

theorem reconnectPass_treated (h : Treats server session kind) (order : List Endpoint)
    (lastErr : Option Error) (st : Session × World)
    (hreq : st.1.openSessionReq = session.openSessionReq) :
    PassesOn (reconnectPass server session.config.connectionOptions order lastErr st)
      (order.find? (kind · = .accepts)) := by
  induction order generalizing lastErr st with
  | nil => exact ⟨lastErr, rfl⟩
  | cons endpoint rest ih =>
      have htreated := handshake_treated h endpoint st hreq
      have hprobe := probe_handshake server session.config.connectionOptions endpoint
      obtain ⟨trace, hframe⟩ := hprobe.frame st
      simp only [reconnectPass, bind_apply, attempt_apply]
      by_cases hkind : kind endpoint = .accepts
      · rw [if_pos hkind] at htreated
        obtain ⟨connection, ids, hendpoint, hrun⟩ := htreated
        rw [List.find?_cons_of_pos (by simpa using hkind), hrun]
        exact ⟨lastErr, rfl, congrArg some hendpoint⟩
      · rw [if_neg hkind] at htreated
        obtain ⟨fault, hrun⟩ := htreated
        obtain ⟨e, rfl⟩ := hprobe.errors st fault hrun
        rw [List.find?_cons_of_neg (by simpa using hkind), hrun]
        apply ih
        rw [hframe]
        exact hreq

/-- The endpoints in the order in which `open` turns to them. -/
def openOrder (session : Session) (world : World) : List Endpoint :=
  session.config.endpoints.rotate (world.startIndex % session.config.endpoints.length)

/-- The fields a failed `open` must not change. -/
def SameHandle (session after : Session) : Prop :=
  after.connection = session.connection ∧ after.sessionId = session.sessionId ∧
    after.statementId = session.statementId ∧ after.database = session.database ∧
    after.lastEndpoint = session.lastEndpoint

theorem open_treated (h : Treats server session kind) (hclosed : session.connection = none)
    (hne : session.config.endpoints ≠ []) (world : World) :
    OpensOn (Session.open server (session, world))
        (((session.openOrder world).find? (kind · ≠ .refuses)).filter (kind · = .accepts)) ∧
      ∀ fault, (Session.open server (session, world)).1 = .error fault →
        SameHandle session (Session.open server (session, world)).2.1 := by
  have hopen : ¬session.connection.isSome = true := by rw [hclosed]; decide
  have hlen : ¬session.config.endpoints.length = 0 := by simpa using hne
  obtain ⟨result, world', hrun, hfound⟩ := connectFirst_treated h (session.openOrder world) none
    { world with startIndex := (world.startIndex + 1) % 2 ^ 64 }
  simp only [Session.open, bind_apply, self_apply, branch_apply, if_neg hopen, if_neg hlen,
    nextStart]
  rw [openOrder] at hrun
  rw [hrun]
  cases hfind : (session.openOrder world).find? (kind · ≠ .refuses) with
  | none =>
      rw [hfind] at hfound
      obtain ⟨e, rfl⟩ := hfound
      exact ⟨⟨e, rfl⟩, fun _ _ ↦ ⟨rfl, rfl, rfl, rfl, rfl⟩⟩
  | some endpoint =>
      rw [hfind] at hfound
      obtain ⟨n, rfl⟩ := hfound
      -- the connection is there, and its handshake decides
      have hrefuses : kind endpoint ≠ .refuses := by simpa using List.find?_some hfind
      have hauth := h.authenticate hrefuses n (session, world') rfl
      obtain ⟨trace, hframe⟩ := (probe_authenticate server ⟨n, endpoint⟩).frame (session, world')
      simp only [Option.filter_some]
      by_cases hkind : kind endpoint = .accepts
      · rw [if_pos hkind] at hauth
        obtain ⟨ids, st', hauth⟩ := hauth
        rw [if_pos (by simpa using hkind), hauth]
        exact ⟨⟨rfl, rfl⟩, fun _ heq ↦ by cases heq⟩
      · rw [if_neg hkind] at hauth
        obtain ⟨fault, st', hauth⟩ := hauth
        obtain ⟨e, rfl⟩ := (probe_authenticate server ⟨n, endpoint⟩).errors (session, world') fault
          (by rw [hauth])
        rw [hauth] at hframe
        rw [if_neg (by simpa using hkind), hauth]
        refine ⟨⟨e, rfl⟩, fun _ _ ↦ ?_⟩
        rw [SameHandle, show st'.1 = { session with trace := trace } from hframe]
        exact ⟨rfl, rfl, rfl, rfl, rfl⟩

/-- `open` decides at the first endpoint that takes the connection, a reconnect pass goes on to the
first full handshake. -/
theorem open_failover (h : Treats server session kind) (hclosed : session.connection = none)
    (hne : session.config.endpoints ≠ []) (world : World) :
    let order := session.openOrder world
    let result := Session.open server (session, world)
    let pass := reconnectPass server session.config.connectionOptions order none (session, world)
    OpensOn result ((order.find? (kind · ≠ .refuses)).filter (kind · = .accepts)) ∧
    PassesOn pass (order.find? (kind · = .accepts)) ∧
    ((∃ verdict, OpensOn result verdict ∧ PassesOn pass verdict) ↔
      ∀ endpoint, order.find? (kind · ≠ .refuses) = some endpoint → kind endpoint = .rejects →
        ∀ other ∈ order, kind other ≠ .accepts) ∧
    ∀ fault, result.1 = .error fault → SameHandle session result.2.1 := by
  intro order result pass
  obtain ⟨hopens, hfails⟩ := open_treated h hclosed hne world
  have hpasses := reconnectPass_treated h order none (session, world) rfl
  refine ⟨hopens, hpasses, ?_, hfails⟩
  have hsame : (∃ verdict, OpensOn result verdict ∧ PassesOn pass verdict) ↔
      (order.find? (kind · ≠ .refuses)).filter (kind · = .accepts) =
        order.find? (kind · = .accepts) := by
    constructor
    · rintro ⟨verdict, hverdict, hverdict'⟩
      exact (hopens.unique hverdict).trans (hverdict'.unique hpasses)
    · intro heq
      exact ⟨_, heq ▸ hopens, hpasses⟩
  rw [hsame, find?_filter_eq_iff (by simp +contextual)]
  apply forall_congr'
  intro endpoint
  apply forall_congr'
  intro hfind
  have hrefuses : kind endpoint ≠ .refuses := by simpa using List.find?_some hfind
  have hrejects : decide (kind endpoint = .accepts) = false ↔ kind endpoint = .rejects := by
    cases hkind : kind endpoint with
    | refuses => exact absurd hkind hrefuses
    | rejects => decide
    | accepts => decide
  rw [hrejects]
  simp

/-- Every endpoint takes connections; `a` refuses the login. -/
def halfServer : Server where
  connect _ _ _ := none
  answer
    | n, connection, .openSession _ =>
        if connection.endpoint = ⟨"a", 1⟩ then .ok ⟨.mk 801 (some "login failed") none none, none⟩
        else .ok ⟨.mk 200 none none none, some (.ofNat n)⟩
    | n, _, .requestStatementId _ => .ok (.ofNat n)
    | _, _, _ => .error "not scripted"

def halfKind (endpoint : Endpoint) : NodeOutcome :=
  if endpoint = ⟨"a", 1⟩ then .rejects else .accepts

def twoNodes : Session := Session.new { SessionConfig.default with endpoints := [⟨"a", 1⟩, ⟨"b", 2⟩] }

theorem halfServer_treats : Treats halfServer twoNodes halfKind where
  refuses := by
    intro endpoint hkind
    unfold halfKind at hkind
    split at hkind <;> cases hkind
  connects _ _ _ := rfl
  rejects := by
    intro endpoint hkind n st _
    have hendpoint : endpoint = ⟨"a", 1⟩ := by
      by_contra hne
      rw [halfKind, if_neg hne] at hkind
      cases hkind
    subst hendpoint
    exact ⟨_, rfl⟩
  accepts := by
    intro endpoint hkind n st _
    have hendpoint : endpoint ≠ ⟨"a", 1⟩ := by
      rintro rfl
      cases hkind
    simp only [authenticate, bind_apply, self_apply, call, halfServer, if_neg hendpoint,
      ofOutcome_apply]
    exact ⟨_, rfl⟩

/-- The first endpoint refuses the login: `open` fails, though the second one would have completed
the handshake and a reconnect pass goes on to it. -/
theorem open_stops_at_first_connection :
    Treats halfServer twoNodes halfKind ∧ twoNodes.connection = none ∧
      halfKind ⟨"b", 2⟩ = .accepts ∧ (⟨"b", 2⟩ : Endpoint) ∈ twoNodes.openOrder ⟨0, 0, 0⟩ ∧
      OpensOn (Session.open halfServer (twoNodes, ⟨0, 0, 0⟩)) none ∧
      PassesOn (reconnectPass halfServer twoNodes.config.connectionOptions
        (twoNodes.openOrder ⟨0, 0, 0⟩) none (twoNodes, ⟨0, 0, 0⟩)) (some ⟨"b", 2⟩) :=
  ⟨halfServer_treats, rfl, rfl, by decide, ⟨_, rfl⟩, ⟨_, rfl, rfl⟩⟩

theorem open_failover_rotated :
    Treats halfServer twoNodes halfKind ∧
      OpensOn (Session.open halfServer (twoNodes, ⟨0, 1, 0⟩)) (some ⟨"b", 2⟩) :=
  ⟨halfServer_treats, (open_failover halfServer_treats rfl (by decide) ⟨0, 1, 0⟩).1⟩

end Session

end IotdbClient
