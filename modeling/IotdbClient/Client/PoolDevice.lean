import IotdbClient.Client.PoolAlone

/-!
# Device-affine acquire

`acquire_for_device` takes the first hint it meets in the idle queue and looks for a session that is
connected to that endpoint.  It does not go on to the next hint where there is none.
-/

namespace IotdbClient

open Library Program StateTransition

namespace SessionPool

variable (deviceId : String) (now : Nat)

/-! ## Hints in the queue -/

/-- The hint of an idle session for the device, unless it has expired. -/
def deviceHint (entry : IdleEntry) : Option Endpoint := (entry.session.redirectHint deviceId now).1

def connectedTo (endpoint : Endpoint) (entry : IdleEntry) : Bool :=
  entry.session.isOpen && entry.session.currentEndpoint == some endpoint

/-- The same entry, or the same without an expired hint for the device. -/
def Purged (entry entry' : IdleEntry) : Prop :=
  entry' = entry ∨ deviceHint deviceId now entry = none ∧ entry' = { entry with
    session := { entry.session with redirectCache := { entry.session.redirectCache with
      entries := RedirectCache.remove entry.session.redirectCache.entries deviceId } } }

/-- An endpoint that an idle session's hint for the device names. -/
def Hinted (idle : List IdleEntry) (endpoint : Endpoint) : Prop :=
  ∃ holder ∈ idle, deviceHint deviceId now holder = some endpoint

/-- A hinted endpoint to which an idle session is connected. -/
def Usable (idle : List IdleEntry) (endpoint : Endpoint) : Prop :=
  Hinted deviceId now idle endpoint ∧ ∃ target ∈ idle, connectedTo endpoint target = true

/-- An entry as the search for a hint leaves it. -/
def lookedAt (entry : IdleEntry) : IdleEntry :=
  { entry with session := (entry.session.redirectHint deviceId now).2 }

variable {deviceId now}

theorem lookedAt_purged (entry : IdleEntry) :
    Purged deviceId now entry (lookedAt deviceId now entry) := by
  unfold Purged lookedAt deviceHint Session.redirectHint RedirectCache.getAt
  cases entry.session.redirectCache.entries.lookup deviceId with
  | none => exact .inl rfl
  | some hint =>
      dsimp only
      by_cases hexpired : isExpired (now - hint.inserted) entry.session.redirectCache.ttl = true
      · simp only [if_pos hexpired]
        exact .inr ⟨trivial, trivial⟩
      · simp only [if_neg hexpired]
        exact .inl trivial

theorem lookedAt_of_hint {entry : IdleEntry} {endpoint : Endpoint}
    (h : deviceHint deviceId now entry = some endpoint) : lookedAt deviceId now entry = entry := by
  rcases lookedAt_purged entry with hsame | ⟨hnone, -⟩
  · exact hsame
  · cases h.symm.trans hnone

theorem Purged.refl (entry : IdleEntry) : Purged deviceId now entry entry := .inl rfl

theorem Purged.since {entry entry' : IdleEntry} (h : Purged deviceId now entry entry') :
    entry'.since = entry.since := by
  rcases h with rfl | ⟨-, rfl⟩ <;> rfl

theorem Purged.connectedTo {entry entry' : IdleEntry} (h : Purged deviceId now entry entry')
    (endpoint : Endpoint) : connectedTo endpoint entry' = SessionPool.connectedTo endpoint entry := by
  rcases h with rfl | ⟨-, rfl⟩ <;> rfl

/-! ## The two searches -/

theorem findHint_found {front back : List IdleEntry} {holder : IdleEntry} {endpoint : Endpoint}
    (hfront : ∀ entry ∈ front, deviceHint deviceId now entry = none)
    (hholder : deviceHint deviceId now holder = some endpoint) :
    findHint deviceId now (front ++ holder :: back) =
      (some endpoint, front.map (lookedAt deviceId now) ++ holder :: back) := by
  induction front with
  | nil =>
      have hkept := lookedAt_of_hint hholder
      unfold lookedAt at hkept
      unfold deviceHint at hholder
      rw [List.nil_append, findHint]
      rcases hlook : holder.session.redirectHint deviceId now with ⟨_ | found, session⟩
      all_goals rw [hlook] at hholder hkept
      · cases hholder
      · cases hholder
        simp only [hkept]
        rfl
  | cons entry front ih =>
      rw [List.forall_mem_cons] at hfront
      have hnone := hfront.1
      unfold deviceHint at hnone
      rw [List.cons_append, findHint]
      rcases hlook : entry.session.redirectHint deviceId now with ⟨_ | found, session⟩
      all_goals rw [hlook] at hnone
      · simp only [ih hfront.2, List.map_cons, lookedAt, hlook]
        rfl
      · cases hnone

theorem findHint_none {idle : List IdleEntry}
    (h : ∀ entry ∈ idle, deviceHint deviceId now entry = none) :
    findHint deviceId now idle = (none, idle.map (lookedAt deviceId now)) := by
  induction idle with
  | nil => rfl
  | cons entry idle ih =>
      rw [List.forall_mem_cons] at h
      have hnone := h.1
      unfold deviceHint at hnone
      rw [findHint]
      rcases hlook : entry.session.redirectHint deviceId now with ⟨_ | found, session⟩
      all_goals rw [hlook] at hnone
      · simp only [ih h.2, List.map_cons, lookedAt, hlook]
      · cases hnone

theorem takeConnected_found {endpoint : Endpoint} {front back : List IdleEntry} {target : IdleEntry}
    (hfront : ∀ entry ∈ front, connectedTo endpoint entry = false)
    (htarget : connectedTo endpoint target = true) :
    takeConnected endpoint (front ++ target :: back) = some (target.session, front ++ back) := by
  induction front with
  | nil => exact if_pos htarget
  | cons entry front ih =>
      rw [List.forall_mem_cons] at hfront
      have hother : ¬connectedTo endpoint entry = true := by simp [hfront.1]
      rw [List.cons_append, takeConnected]
      change (if connectedTo endpoint entry = true then _ else _) = _
      rw [if_neg hother, ih hfront.2]
      rfl

theorem takeConnected_none {endpoint : Endpoint} {idle : List IdleEntry}
    (h : ∀ entry ∈ idle, connectedTo endpoint entry = false) :
    takeConnected endpoint idle = none := by
  induction idle with
  | nil => rfl
  | cons entry idle ih =>
      rw [List.forall_mem_cons] at h
      have hother : ¬connectedTo endpoint entry = true := by simp [h.1]
      rw [takeConnected]
      change (if connectedTo endpoint entry = true then _ else _) = _
      rw [if_neg hother, ih h.2]
      rfl

/-! ## The locked block -/

section

variable {idle idle' : List IdleEntry} {endpoint : Endpoint}

theorem usable_purged (h : List.Forall₂ (Purged deviceId now) idle idle') :
    (∃ target ∈ idle', connectedTo endpoint target = true) ↔
      ∃ target ∈ idle, connectedTo endpoint target = true := by
  induction h with
  | nil => rfl
  | cons hentry _ ih => simp only [List.exists_mem_cons_iff, hentry.connectedTo endpoint, ih]

theorem lookedAt_queue (idle : List IdleEntry) :
    List.Forall₂ (Purged deviceId now) idle (idle.map (lookedAt deviceId now)) := by
  rw [List.forall₂_map_right_iff, List.forall₂_same]
  exact fun entry _ ↦ lookedAt_purged entry

variable (deviceId now) in
/-- The first hint in queue order. -/
def firstHint (idle : List IdleEntry) : Option Endpoint := idle.findSome? (deviceHint deviceId now)

/-- The search finds the first hint and drops expired ones on its way. -/
theorem findHint_eq (idle : List IdleEntry) :
    ∃ idle', List.Forall₂ (Purged deviceId now) idle idle' ∧
      findHint deviceId now idle = (firstHint deviceId now idle, idle') := by
  cases hfirst : firstHint deviceId now idle with
  | none =>
      refine ⟨_, lookedAt_queue idle, findHint_none ?_⟩
      exact List.findSome?_eq_none_iff.mp hfirst
  | some endpoint =>
      obtain ⟨front, holder, back, rfl, hholder, hfront⟩ := List.findSome?_eq_some_iff.mp hfirst
      refine ⟨_, ?_, findHint_found hfront hholder⟩
      exact List.rel_append (lookedAt_queue front)
        (.cons (.refl holder) (List.forall₂_same.mpr fun entry _ ↦ .refl entry))

/-- A purged queue splits where the queue does. -/
theorem purged_split {front' back' : List IdleEntry} {target' : IdleEntry}
    (h : List.Forall₂ (Purged deviceId now) idle (front' ++ target' :: back')) :
    ∃ front target back, idle = front ++ target :: back ∧
      List.Forall₂ (Purged deviceId now) front front' ∧ Purged deviceId now target target' ∧
      List.Forall₂ (Purged deviceId now) back back' := by
  have hfront := List.forall₂_take_append idle front' (target' :: back') h
  have hback := List.forall₂_drop_append idle front' (target' :: back') h
  obtain ⟨target, back, htarget, hrest, heq⟩ := List.forall₂_cons_right_iff.mp hback
  refine ⟨_, target, back, ?_, hfront, htarget, hrest⟩
  rw [← heq, List.take_append_drop]

end

variable {pool : SessionPool}

/-- The first hint serves: one session leaves the queue, the others stay in order. -/
theorem pick_some (hopen : pool.closed = false) {endpoint : Endpoint}
    (hfirst : firstHint deviceId now pool.idle = some endpoint)
    (hconnected : ∃ target ∈ pool.idle, connectedTo endpoint target = true) :
    ∃ front target back session idle', pool.idle = front ++ target :: back ∧
      connectedTo endpoint target = true ∧ Purged deviceId now target ⟨session, target.since⟩ ∧
      List.Forall₂ (Purged deviceId now) (front ++ back) idle' ∧
      pool.pickForDevice deviceId now = (some session, idle') := by
  obtain ⟨looked, hlooked, hfind⟩ := findHint_eq pool.idle
  rw [hfirst] at hfind
  -- the second search runs on the queue that the first one left
  have hany := List.any_eq_true.mpr ((usable_purged hlooked).mpr hconnected)
  rw [← List.isSome_find?, Option.isSome_iff_exists] at hany
  obtain ⟨target', htarget'⟩ := hany
  obtain ⟨htaken, front', back', rfl, hfront'⟩ := List.find?_eq_some_iff_append.mp htarget'
  obtain ⟨front, target, back, hidle, hfront, htarget, hback⟩ := purged_split hlooked
  refine ⟨front, target, back, target'.session, front' ++ back', hidle, ?_, ?_,
    List.rel_append hfront hback, ?_⟩
  · rwa [← htarget.connectedTo]
  · rwa [← htarget.since]
  · have hpassed : ∀ entry ∈ front', connectedTo endpoint entry = false := by
      simpa using hfront'
    rw [pickForDevice, if_neg (by simp [hopen])]
    simp only [hfind, Option.bind_some, takeConnected_found hpassed htaken]

/-- It does not: nobody leaves the queue. -/
theorem pick_none (hopen : pool.closed = false)
    (hfirst : ∀ endpoint, firstHint deviceId now pool.idle = some endpoint →
      ¬∃ target ∈ pool.idle, connectedTo endpoint target = true) :
    ∃ idle', List.Forall₂ (Purged deviceId now) pool.idle idle' ∧
      pool.pickForDevice deviceId now = (none, idle') := by
  obtain ⟨looked, hlooked, hfind⟩ := findHint_eq pool.idle
  refine ⟨looked, hlooked, ?_⟩
  rw [pickForDevice, if_neg (by simp [hopen])]
  simp only [hfind]
  cases hhint : firstHint deviceId now pool.idle with
  | none => rfl
  | some endpoint =>
      have habsent : ∀ entry ∈ looked, connectedTo endpoint entry = false := by
        have hnot := hfirst endpoint hhint
        rw [← usable_purged hlooked] at hnot
        simpa using hnot
      rw [Option.bind_some, takeConnected_none habsent]

/-! ## The promise -/

variable (server : Server)

/-- The session in the database `poolDb`: after a `USE` where it is in another one. -/
def UseReplayed (poolDb : Option String) (st st' : Session × World) : Prop :=
  match poolDb with
  | none => st' = st
  | some db =>
      if st.1.database = some db then st' = st
      else Session.executeNonQuery server s!"USE {db}" st = (.ok (), st')

/-- From here the caller gets a guard of the session, if a `USE` it needs succeeds. -/
def HandsOut (session : Session) (pool : SessionPool) (world : World) : Prop :=
  ∀ session' world', UseReplayed server pool.database (session, world) (session', world') →
    Reaches (alone server) (.handOut session, pool, world)
      (.held ⟨⟨session', none⟩, session'⟩, pool, world')

/-- The queue without the entry that was taken, the others in their order. -/
def LeavesOthers (pool pool' : SessionPool) (deviceId : String) (now : Nat) (target : IdleEntry) :
    Prop :=
  ∃ front back idle, pool.idle = front ++ target :: back ∧
    List.Forall₂ (Purged deviceId now) (front ++ back) idle ∧ pool' = { pool with idle := idle }

/-- The operation goes on as an `acquire` on the same pool, up to expired hints. -/
def PassesOn (pool : SessionPool) (deviceId : String) (world : World) : Prop :=
  ∃ idle, List.Forall₂ (Purged deviceId world.clock) pool.idle idle ∧
    alone server (.deviceLock deviceId, pool, world) =
      some (.acquireLock (pool.deadline world), { pool with idle := idle }, world)

/-- Where a hint is usable, the operation hands out an idle session that is connected to a hinted
endpoint; without one it goes on as an `acquire`. -/
structure HonoursHints (pool : SessionPool) (deviceId : String) (world : World) : Prop where
  honoured : (∃ endpoint, Usable deviceId world.clock pool.idle endpoint) →
    ∃ target ∈ pool.idle, ∃ endpoint session pool' world',
      Hinted deviceId world.clock pool.idle endpoint ∧ connectedTo endpoint target = true ∧
      Purged deviceId world.clock target ⟨session, target.since⟩ ∧
      TakesIdle server (.deviceLock deviceId, pool, world) session pool' world' ∧
      HandsOut server session pool' world' ∧
      (LeavesOthers pool pool' deviceId world.clock target ∧ world' = world ∨
        PassesOn server pool deviceId world)
  passed : (¬∃ endpoint, Usable deviceId world.clock pool.idle endpoint) →
    PassesOn server pool deviceId world

theorem handsOut (session : Session) (pool : SessionPool) (world : World) :
    HandsOut server session pool world := by
  intro session' world' hreplayed
  have hstep : alone server (.handOutUse session pool.database, pool, world) =
      some ((useDatabase server session pool.database world).1, pool,
        (useDatabase server session pool.database world).2.1) := rfl
  have hused : (useDatabase server session pool.database world).1 =
        .held ⟨⟨session', none⟩, session'⟩ ∧
      (useDatabase server session pool.database world).2.1 = world' := by
    unfold UseReplayed at hreplayed
    unfold useDatabase
    cases hdb : pool.database with
    | none =>
        rw [hdb] at hreplayed
        cases hreplayed
        exact ⟨rfl, rfl⟩
    | some db =>
        simp only [hdb] at hreplayed
        by_cases hin : session.database = some db
        · rw [if_pos hin] at hreplayed
          cases hreplayed
          simp only [if_pos hin, and_self]
        · rw [if_neg hin] at hreplayed
          simp only [if_neg hin, hreplayed, and_self]
  rw [hused.1, hused.2] at hstep
  exact step_reaches rfl (step_reaches hstep .refl)

variable {server}

theorem alone_picked {world : World} {session : Session} {idle : List IdleEntry}
    (h : pool.pickForDevice deviceId world.clock = (some session, idle)) :
    alone server (.deviceLock deviceId, pool, world) =
      some (.handOut session, { pool with idle := idle }, world) := by
  simp only [alone, advance, h, if_true, Option.map_some]

theorem alone_passed {world : World} {idle : List IdleEntry}
    (h : pool.pickForDevice deviceId world.clock = (none, idle)) :
    alone server (.deviceLock deviceId, pool, world) =
      some (.acquireLock (pool.deadline world), { pool with idle := idle }, world) := by
  simp only [alone, advance, h, if_true, Option.map_some]

/-- Expired hints do not matter to the acquire that follows. -/
theorem nextOpen_purged {idle : List IdleEntry}
    (h : List.Forall₂ (Purged deviceId now) pool.idle idle) :
    Option.Rel (Purged deviceId now) (pool.nextOpen now)
      (nextOpen { pool with idle := idle } now) := by
  have hswept : List.Forall₂ (Purged deviceId now) (pool.sweptIdle now)
      (sweptIdle { pool with idle := idle } now) := by
    unfold sweptIdle
    split
    · exact h
    · refine forall₂_iterate_eraseP (fun entry entry' hentry ↦ ?_) _ h
      unfold idleTooLong
      rw [hentry.since]
  refine forall₂_find? (fun entry entry' hentry ↦ ?_) hswept
  rcases hentry with rfl | ⟨-, rfl⟩ <;> rfl

/-- The first hint serves. -/
theorem honoursHints_of_first (server : Server) {world : World} {endpoint : Endpoint}
    (hopen : pool.closed = false)
    (hfirst : firstHint deviceId world.clock pool.idle = some endpoint)
    (hconnected : ∃ target ∈ pool.idle, connectedTo endpoint target = true) :
    HonoursHints server pool deviceId world := by
  obtain ⟨front, target, back, session, idle, hidle, htarget, hpurged, hrest, hpick⟩ :=
    pick_some hopen hfirst hconnected
  have hmem : target ∈ pool.idle := by simp [hidle]
  have hinted : Hinted deviceId world.clock pool.idle endpoint :=
    List.exists_of_findSome?_eq_some hfirst
  have htakes : TakesIdle server (.deviceLock deviceId, pool, world) session
      { pool with idle := idle } world :=
    ⟨_, pool, .refl, alone_picked hpick, (pickForDevice_length hpick).symm⟩
  refine ⟨fun _ ↦ ⟨target, hmem, endpoint, session, _, world, hinted, htarget, hpurged, htakes,
    handsOut server session _ world, .inl ⟨⟨front, back, idle, hidle, hrest, rfl⟩, rfl⟩⟩, ?_⟩
  exact fun hnone ↦ absurd ⟨endpoint, hinted, hconnected⟩ hnone

/-- What an operation takes that passes on is what an `acquire` finds next. -/
theorem passed_takesIdle_iff {world : World} {idle : List IdleEntry} {session : Session}
    (hopen : pool.closed = false) (hbound : pool.live < 2 ^ 64)
    (hpick : pool.pickForDevice deviceId world.clock = (none, idle)) :
    (∃ pool' world', TakesIdle server (.deviceLock deviceId, pool, world) session pool' world') ↔
      (nextOpen { pool with idle := idle } world.clock).map IdleEntry.session = some session := by
  have hstep : alone server (.deviceLock deviceId, pool, world) =
      some (.acquireLock (pool.deadline world), { pool with idle := idle }, world) :=
    alone_passed hpick
  have hacquire := @acquire_takesIdle_iff server { pool with idle := idle } world
    (pool.deadline world) hopen hbound session
  refine Iff.trans ?_ hacquire
  exact exists_congr fun pool' ↦ exists_congr fun world' ↦
    takesIdle_step hstep fun _ heq ↦ by cases heq

/-- Device-affine acquire honours usable hints exactly where the first hint in the queue is usable,
where there is no usable one at all, and where the session that an `acquire` finds next happens to
be connected to a hinted endpoint. -/
theorem device_acquire_honours_hints (server : Server) {pool : SessionPool}
    (hopen : pool.closed = false) (hbound : pool.live < 2 ^ 64) (deviceId : String)
    (world : World) :
    HonoursHints server pool deviceId world ↔
      (∃ endpoint, firstHint deviceId world.clock pool.idle = some endpoint ∧
        ∃ target ∈ pool.idle, connectedTo endpoint target = true) ∨
      (¬∃ endpoint, Usable deviceId world.clock pool.idle endpoint) ∨
      ∃ entry endpoint, pool.nextOpen world.clock = some entry ∧
        Hinted deviceId world.clock pool.idle endpoint ∧ connectedTo endpoint entry = true := by
  by_cases hserves : ∃ endpoint, firstHint deviceId world.clock pool.idle = some endpoint ∧
      ∃ target ∈ pool.idle, connectedTo endpoint target = true
  · refine iff_of_true ?_ (.inl hserves)
    obtain ⟨endpoint, hfirst, hconnected⟩ := hserves
    exact honoursHints_of_first server hopen hfirst hconnected
  · -- the search gives up at the first hint, and what the acquire that follows finds decides
    obtain ⟨idle, hpurged, hpick⟩ := pick_none hopen fun endpoint hfirst hconnected ↦
      hserves ⟨endpoint, hfirst, hconnected⟩
    have hpasses : PassesOn server pool deviceId world := ⟨idle, hpurged, alone_passed hpick⟩
    have hnext := @nextOpen_purged deviceId world.clock pool idle hpurged
    constructor
    · intro h
      by_cases husable : ∃ endpoint, Usable deviceId world.clock pool.idle endpoint
      · obtain ⟨target, -, endpoint, session, pool', world', hinted, hconnected, hsession, htakes,
          -⟩ := h.honoured husable
        have hfound := (passed_takesIdle_iff hopen hbound hpick).mp ⟨pool', world', htakes⟩
        obtain ⟨entry', hentry', rfl⟩ := Option.map_eq_some_iff.mp hfound
        obtain ⟨entry, hentry, hsame⟩ := rel_some_right hnext hentry'
        -- the session that was found is the target's
        refine .inr (.inr ⟨entry, endpoint, hentry, hinted, ?_⟩)
        rw [← hsame.connectedTo, ← hconnected, ← hsession.connectedTo]
        rfl
      · exact .inr (.inl husable)
    · intro h
      refine ⟨fun husable ↦ ?_, fun _ ↦ hpasses⟩
      rcases h with hfirst | hnone | ⟨entry, endpoint, hentry, hinted, hconnected⟩
      · exact absurd hfirst hserves
      · exact absurd husable hnone
      · obtain ⟨entry', hentry', hsame⟩ := rel_some_left hnext hentry
        have hfound := congrArg (Option.map IdleEntry.session) hentry'
        obtain ⟨pool', world', htakes⟩ := (passed_takesIdle_iff hopen hbound hpick).mpr hfound
        have hmem : entry ∈ pool.idle :=
          (pool.sweptIdle_sublist world.clock).subset (List.mem_of_find?_eq_some hentry)
        have hsession : Purged deviceId world.clock entry ⟨entry'.session, entry.since⟩ := by
          rw [← hsame.since]
          exact hsame
        exact ⟨entry, hmem, endpoint, entry'.session, pool', world', hinted, hconnected, hsession,
          htakes, handsOut server _ _ _, .inr hpasses⟩

/-- An idle session on a host, with a hint for device `d` that names another host. -/
def hintedEntry (host : String) (hinted : Option String) : IdleEntry where
  session := { Session.new .default with
    connection := some ⟨0, ⟨host, 6667⟩⟩
    redirectCache := (hinted.map fun target ↦
      RedirectCache.default.put "d" ⟨target, 6667⟩ 0).getD .default }
  since := 0

def hintedPool (idle : List IdleEntry) : SessionPool :=
  ⟨.default, idle, false, 0, idle.length, none⟩

/-- The first hint is of no use, but the session in front is connected to what the second one names. -/
theorem device_acquire_honours_hints_front :
    let pool := hintedPool [hintedEntry "c" none, hintedEntry "a" (some "x"),
      hintedEntry "b" (some "c")]
    pool.closed = false ∧ pool.live < 2 ^ 64 ∧
      firstHint "d" 0 pool.idle = some ⟨"x", 6667⟩ ∧ Usable "d" 0 pool.idle ⟨"c", 6667⟩ ∧
      HonoursHints PoolSystem.echoServer pool "d" ⟨0, 0, 0⟩ := by
  have hinted : Hinted "d" 0 [hintedEntry "c" none, hintedEntry "a" (some "x"),
      hintedEntry "b" (some "c")] ⟨"c", 6667⟩ := ⟨hintedEntry "b" (some "c"), by simp, by decide⟩
  have hfront : connectedTo ⟨"c", 6667⟩ (hintedEntry "c" none) = true := by decide
  refine ⟨rfl, by decide, by decide, ⟨hinted, hintedEntry "c" none, List.mem_cons_self, hfront⟩, ?_⟩
  exact (device_acquire_honours_hints _ rfl (by decide) "d" ⟨0, 0, 0⟩).mpr
    (.inr (.inr ⟨_, _, rfl, hinted, hfront⟩))

/-- The first hint names a host that no idle session is connected to, and the second one is usable but
not looked at: the caller gets the session on `a`, which no hint names. -/
theorem usable_hint_ignored :
    let pool := hintedPool [hintedEntry "a" (some "x"), hintedEntry "b" (some "c"),
      hintedEntry "c" none]
    pool.closed = false ∧ Usable "d" 0 pool.idle ⟨"c", 6667⟩ ∧
      (∃ guard pool' world', Reaches (alone PoolSystem.echoServer)
          (.deviceLock "d", pool, ⟨0, 0, 0⟩) (.held guard, pool', world') ∧
        guard.owner.session.currentEndpoint = some ⟨"a", 6667⟩ ∧
        ∀ holder ∈ pool.idle, deviceHint "d" 0 holder ≠ some ⟨"a", 6667⟩) ∧
      ¬HonoursHints PoolSystem.echoServer pool "d" ⟨0, 0, 0⟩ := by
  intro pool
  have husable : Usable "d" 0 pool.idle ⟨"c", 6667⟩ :=
    ⟨⟨hintedEntry "b" (some "c"), by simp [pool, hintedPool], by decide⟩, hintedEntry "c" none,
      by simp [pool, hintedPool], by decide⟩
  have hunnamed : ∀ holder ∈ pool.idle, deviceHint "d" 0 holder ≠ some ⟨"a", 6667⟩ := by decide
  -- past its lock the operation looks at the front of the queue
  have hfront : Reaches (alone PoolSystem.echoServer) (.deviceLock "d", pool, ⟨0, 0, 0⟩)
      (.handOut (hintedEntry "a" (some "x")).session, _, _) :=
    step_reaches rfl (step_reaches rfl (step_reaches rfl .refl))
  refine ⟨rfl, husable, ⟨_, _, _, hfront.trans (step_reaches rfl (step_reaches rfl .refl)), rfl,
    hunnamed⟩, fun h ↦ ?_⟩
  obtain ⟨target, -, endpoint, session, pool', world', ⟨holder, hholder, hhint⟩, hconnected,
    hpurged, htakes, -⟩ := h.honoured ⟨_, husable⟩
  obtain rfl := htakes.unique hfront
  have hplace : connectedTo endpoint (hintedEntry "a" (some "x")) = true :=
    (hpurged.connectedTo endpoint).trans hconnected
  obtain rfl : endpoint = ⟨"a", 6667⟩ := by
    have hconnected' := (Bool.and_eq_true_iff.mp hplace).2
    exact (Option.some.inj (beq_iff_eq.mp hconnected')).symm
  exact hunnamed holder hholder hhint

end SessionPool

end IotdbClient
