import IotdbClient.Client.RecordPairing
import IotdbClient.Client.RedirectSpec
import IotdbClient.Client.SessionFrame
import IotdbClient.Library.Search

/-!
# Which device a redirect belongs to

The response to a multi-row insert names endpoints by position, and the session writes them into a
bounded cache one after the other.  A hint that is put stays at the young end of the cache's order,
behind it only other devices of the same call, so it is still there when the call returns.
-/

namespace IotdbClient

open Library Program Session

/-- A host and a port from 1 to 65535. -/
def NamesEndpoint (node : Option TEndPoint) (endpoint : Endpoint) : Prop :=
  ∃ n, node = some n ∧ n.ip ≠ "" ∧ 1 ≤ n.port.toInt ∧ n.port.toInt ≤ 65535 ∧
    endpoint.host = n.ip ∧ (endpoint.port.toNat : Int) = n.port.toInt

def namesEndpoint (node : Option TEndPoint) : Bool :=
  node.any fun n ↦ n.ip ≠ "" && 1 ≤ n.port.toInt && n.port.toInt ≤ 65535

theorem endpointFromRedirect_eq {node : Option TEndPoint} {endpoint : Endpoint} :
    node.bind endpointFromRedirect = some endpoint ↔ NamesEndpoint node endpoint := by
  cases node with
  | none => simp [NamesEndpoint]
  | some n =>
      obtain ⟨host, port⟩ := endpoint
      change endpointFromRedirect n = _ ↔ _
      unfold endpointFromRedirect
      by_cases hip : n.ip = ""
      · simp [NamesEndpoint, hip]
      · rw [if_neg (by simpa using hip)]
        by_cases hport : 0 < n.port.toInt ∧ n.port.toInt < 2 ^ 16
        · rw [if_pos hport]
          have hofNat : ((UInt16.ofNat n.port.toInt.toNat).toNat : Int) = n.port.toInt := by
            have hsize : UInt16.size = 2 ^ 16 := rfl
            rw [UInt16.toNat_ofNat_of_lt' (by omega)]
            omega
          constructor
          · intro h
            cases h
            exact ⟨n, rfl, hip, by omega, by omega, rfl, hofNat⟩
          · rintro ⟨_, hn, -, -, -, hhost, hvalue⟩
            cases hn
            change (port.toNat : Int) = n.port.toInt at hvalue
            have hsame : UInt16.ofNat n.port.toInt.toNat = port := by
              apply UInt16.toNat_inj.mp
              omega
            rw [hsame, ← show host = n.ip from hhost]
        · rw [if_neg hport]
          constructor
          · intro h
            cases h
          · rintro ⟨_, hn, -, hlow, hhigh, -, -⟩
            cases hn
            omega

/-! ## One put among others -/

namespace RedirectCache

variable {cache : RedirectCache} {sorted : List (String × RedirectEntry)} {device other : String}
  {entry : RedirectEntry} {endpoint : Endpoint} {now : Nat}

theorem put_maxEntries (cache : RedirectCache) (device : String) (endpoint : Endpoint) (now : Nat) :
    (cache.put device endpoint now).maxEntries = cache.maxEntries :=
  call_maxEntries cache (.put device endpoint now)

/-- The hint of `device` is what it was, or gone. -/
def KeptOrGone (cache cache' : RedirectCache) (device : String) : Prop :=
  cache'.entries.lookup device = cache.entries.lookup device ∨ cache'.entries.lookup device = none

theorem KeptOrGone.trans {cache' cache'' : RedirectCache} (h : KeptOrGone cache cache' device)
    (h' : KeptOrGone cache' cache'' device) : KeptOrGone cache cache'' device := by
  unfold KeptOrGone at *
  grind

-- What a put keeps, it keeps as it is; what it evicts is the head of the order.
theorem OrderedBy.put_other (h : OrderedBy cache sorted) (hseq : cache.seq + 1 < 2 ^ 64)
    (hne : device ≠ other) : KeptOrGone cache (cache.put other endpoint now) device := by
  by_cases hzero : cache.maxEntries = 0
  · rw [put_of_disabled hzero]
    exact .inl rfl
  · unfold KeptOrGone
    rw [(h.put_kept hzero hseq other endpoint now).lookup, h.lookup, lookup_append_of_ne hne, keptBy]
    split
    · exact .inl (h.distinct.lookup_eraseKey_of_ne hne)
    · split
      · exact h.distinct.lookup_tail device
      · exact .inl rfl

/-- The entry of `device` stands in the order, and only devices of the list come after it. -/
def HeldAmong (devices : List String) (device : String) (entry : RedirectEntry)
    (sorted : List (String × RedirectEntry)) : Prop :=
  ∃ older newer, sorted = older ++ (device, entry) :: newer ∧ ∀ p ∈ newer, p.1 ∈ devices

theorem OrderedBy.lookup_held {devices : List String} (h : OrderedBy cache sorted)
    (hheld : HeldAmong devices device entry sorted) : cache.entries.lookup device = some entry := by
  obtain ⟨older, newer, rfl, -⟩ := hheld
  rw [h.lookup, h.distinct.lookup_eq_some]
  exact List.mem_append_right _ List.mem_cons_self

-- A full list that starts with `device` and goes on with devices of the call has no room for
-- another one of them, so `other` is in it already.
theorem OrderedBy.head_not_held {devices : List String} {newer : List (String × RedirectEntry)}
    (h : OrderedBy cache ((device, entry) :: newer)) (hdevice : device ∈ devices)
    (hother : other ∈ devices) (hnewer : ∀ p ∈ newer, p.1 ∈ devices)
    (habsent : ∀ p ∈ (device, entry) :: newer, p.1 ≠ other)
    (hdistinct : devices.dedup.length ≤ cache.maxEntries) :
    ((device, entry) :: newer).length < cache.maxEntries := by
  have hnodup : (other :: ((device, entry) :: newer).map Prod.fst).Nodup := by
    rw [List.nodup_cons]
    refine ⟨?_, h.distinct⟩
    intro hmem
    obtain ⟨p, hp, heq⟩ := List.mem_map.mp hmem
    exact habsent p hp heq
  have hsubset : other :: ((device, entry) :: newer).map Prod.fst ⊆ devices.dedup := by
    intro x hx
    rw [List.mem_dedup]
    simp only [List.map_cons, List.mem_cons, List.mem_map] at hx
    obtain rfl | rfl | ⟨p, hp, rfl⟩ := hx
    · exact hother
    · exact hdevice
    · exact hnewer p hp
  have hlength := (List.subperm_of_subset hnodup hsubset).length_le
  rw [List.length_cons, List.length_map] at hlength
  omega

theorem eraseKey_append (older newer : List (String × RedirectEntry)) (other : String) :
    Library.eraseKey (older ++ newer) other =
      Library.eraseKey older other ++ Library.eraseKey newer other :=
  List.filter_append ..

/-- A put for another device of the call moves the entry towards the front but not out. -/
theorem OrderedBy.held_put {devices : List String} (h : OrderedBy cache sorted)
    (hheld : HeldAmong devices device entry sorted) (hdevice : device ∈ devices)
    (hother : other ∈ devices) (hne : device ≠ other)
    (hdistinct : devices.dedup.length ≤ cache.maxEntries) (fresh : RedirectEntry) :
    HeldAmong devices device entry (keptBy cache sorted other ++ [(other, fresh)]) := by
  have hpush : ∀ {kept}, HeldAmong devices device entry kept →
      HeldAmong devices device entry (kept ++ [(other, fresh)]) := by
    rintro kept ⟨older, newer, rfl, hnewer⟩
    refine ⟨older, newer ++ [(other, fresh)], by simp, ?_⟩
    intro p hp
    rcases List.mem_append.mp hp with hp | hp
    · exact hnewer p hp
    · obtain rfl := List.mem_singleton.mp hp
      exact hother
  apply hpush
  obtain ⟨older, newer, rfl, hnewer⟩ := hheld
  unfold keptBy
  cases hlookup : List.lookup other (older ++ (device, entry) :: newer) with
  | some _ =>
      rw [Option.isSome_some, if_pos rfl, eraseKey_append]
      refine ⟨Library.eraseKey older other, Library.eraseKey newer other, ?_, ?_⟩
      · rw [Library.eraseKey, Library.eraseKey, List.filter_cons_of_pos (by simpa using hne)]
        rfl
      · intro p hp
        exact hnewer p (mem_eraseKey.mp hp).1
  | none =>
      rw [Option.isSome_none, if_neg Bool.false_ne_true]
      by_cases hfull : cache.maxEntries ≤ (older ++ (device, entry) :: newer).length
      · rw [if_pos hfull]
        cases older with
        | nil =>
            have hroom := h.head_not_held hdevice hother hnewer (lookup_eq_none.mp hlookup) hdistinct
            exact absurd hroom (by simpa using hfull)
        | cons p older => exact ⟨older, newer, rfl, hnewer⟩
      · rw [if_neg hfull]
        exact ⟨older, newer, rfl, hnewer⟩

/-! ## All the puts of a response -/

/-- The rows of a request with the nodes given to them, one after the other. -/
def harvest (now : Nat) (cache : RedirectCache) (rows : List (String × Option TEndPoint)) :
    RedirectCache :=
  rows.foldl (fun cache row ↦ putHint now cache row.1 row.2) cache

def Unnamed (node : Option TEndPoint) : Prop := ∀ endpoint, ¬NamesEndpoint node endpoint

theorem putHint_named {node : Option TEndPoint} (h : NamesEndpoint node endpoint) (now : Nat)
    (cache : RedirectCache) (device : String) :
    putHint now cache device node = cache.put device endpoint now := by
  rw [putHint, endpointFromRedirect_eq.mpr h]

theorem putHint_unnamed {node : Option TEndPoint} (h : Unnamed node) (now : Nat)
    (cache : RedirectCache) (device : String) : putHint now cache device node = cache := by
  rw [putHint]
  cases hnode : node.bind endpointFromRedirect with
  | none => rfl
  | some endpoint => exact absurd (endpointFromRedirect_eq.mp hnode) (h endpoint)

theorem named_or_unnamed (node : Option TEndPoint) :
    (namesEndpoint node = true ∧ ∃ endpoint, NamesEndpoint node endpoint) ∨
      namesEndpoint node = false ∧ Unnamed node := by
  cases node with
  | none => exact .inr ⟨rfl, fun endpoint ⟨n, hn, _⟩ ↦ by cases hn⟩
  | some n =>
      cases hnames : namesEndpoint (some n) with
      | true =>
          have hvalid : n.ip ≠ "" ∧ 1 ≤ n.port.toInt ∧ n.port.toInt ≤ 65535 := by
            simpa [namesEndpoint, and_assoc] using hnames
          obtain ⟨hip, hlow, hhigh⟩ := hvalid
          have hsize : UInt16.size = 2 ^ 16 := rfl
          have hport : ((UInt16.ofNat n.port.toInt.toNat).toNat : Int) = n.port.toInt := by
            rw [UInt16.toNat_ofNat_of_lt' (by omega)]
            omega
          exact .inl ⟨rfl, ⟨n.ip, .ofNat n.port.toInt.toNat⟩, n, rfl, hip, hlow, hhigh, rfl, hport⟩
      | false =>
          refine .inr ⟨rfl, fun endpoint ⟨n', hn, hip, hlow, hhigh, _⟩ ↦ ?_⟩
          cases hn
          have hvalid : namesEndpoint (some n) = true := by
            simpa [namesEndpoint, and_assoc] using And.intro hip ⟨hlow, hhigh⟩
          rw [hnames] at hvalid
          cases hvalid

theorem putHint_maxEntries (now : Nat) (cache : RedirectCache) (device : String)
    (node : Option TEndPoint) : (putHint now cache device node).maxEntries = cache.maxEntries := by
  rcases named_or_unnamed node with ⟨-, endpoint, h⟩ | ⟨-, h⟩
  · rw [putHint_named h, put_maxEntries]
  · rw [putHint_unnamed h]

/-- Ordered, and the counter has room for `count` more puts. -/
structure Ready (cache : RedirectCache) (count : Nat) : Prop where
  ordered : ∃ sorted, OrderedBy cache sorted
  room : cache.seq + count < 2 ^ 64

/-- The puts that the rows give rise to. -/
def puts (rows : List (String × Option TEndPoint)) : Nat := rows.countP fun row ↦ namesEndpoint row.2

theorem puts_named {row : String × Option TEndPoint} (h : namesEndpoint row.2 = true)
    (rows : List (String × Option TEndPoint)) : puts (row :: rows) = puts rows + 1 :=
  List.countP_cons_of_pos h

theorem puts_unnamed {row : String × Option TEndPoint} (h : namesEndpoint row.2 = false)
    (rows : List (String × Option TEndPoint)) : puts (row :: rows) = puts rows :=
  List.countP_cons_of_neg (by rw [h]; exact Bool.false_ne_true)

theorem Ready.putHint {count : Nat} {row : String × Option TEndPoint}
    {rows : List (String × Option TEndPoint)} (h : Ready cache (puts (row :: rows) + count))
    (now : Nat) : Ready (putHint now cache row.1 row.2) (puts rows + count) := by
  have hroom := h.room
  rcases named_or_unnamed row.2 with ⟨hnames, endpoint, hnamed⟩ | ⟨hnames, hunnamed⟩
  · rw [puts_named hnames] at hroom
    rw [putHint_named hnamed]
    obtain ⟨sorted, hsorted⟩ := h.ordered
    obtain ⟨sorted', hsorted', -⟩ := hsorted.put (by omega) row.1 endpoint now
    have hseq := put_seq_le cache row.1 endpoint now
    exact ⟨⟨sorted', hsorted'⟩, by omega⟩
  · rw [puts_unnamed hnames] at hroom
    rw [putHint_unnamed hunnamed]
    exact ⟨h.ordered, hroom⟩

theorem Ready.harvest {count : Nat} (rows : List (String × Option TEndPoint))
    (h : Ready cache (puts rows + count)) (now : Nat) :
    Ready (harvest now cache rows) count ∧
      (RedirectCache.harvest now cache rows).maxEntries = cache.maxEntries := by
  induction rows generalizing cache with
  | nil =>
      rw [puts, List.countP_nil, Nat.zero_add] at h
      exact ⟨h, rfl⟩
  | cons row rows ih =>
      have hstep := ih (h.putHint now)
      exact ⟨hstep.1, hstep.2.trans (putHint_maxEntries now cache row.1 row.2)⟩

theorem Ready.harvest_unnamed {rows : List (String × Option TEndPoint)}
    (h : Ready cache (puts rows)) (now : Nat)
    (hrows : ∀ row ∈ rows, row.1 = device → Unnamed row.2) :
    KeptOrGone cache (RedirectCache.harvest now cache rows) device := by
  induction rows generalizing cache with
  | nil => exact .inl rfl
  | cons row rows ih =>
      rw [List.forall_mem_cons] at hrows
      have hall : Ready cache (puts (row :: rows) + 0) := h
      have hrest := ih (hall.putHint now) hrows.2
      refine KeptOrGone.trans ?_ hrest
      rcases named_or_unnamed row.2 with ⟨hnames, endpoint, hnamed⟩ | ⟨-, hunnamed⟩
      · have hne : device ≠ row.1 := fun heq ↦ hrows.1 heq.symm endpoint hnamed
        obtain ⟨sorted, hsorted⟩ := h.ordered
        have hroom := h.room
        rw [puts_named hnames] at hroom
        rw [putHint_named hnamed]
        exact hsorted.put_other (by omega) hne
      · rw [putHint_unnamed hunnamed]
        exact .inl rfl

/-- Once put, a hint stays through the rest of the rows, if none of these names a new one. -/
theorem OrderedBy.harvest_held {devices : List String} {rows : List (String × Option TEndPoint)}
    (h : OrderedBy cache sorted) (hroom : cache.seq + puts rows < 2 ^ 64) (now : Nat)
    (hheld : HeldAmong devices device entry sorted) (hdevice : device ∈ devices)
    (hdistinct : devices.dedup.length ≤ cache.maxEntries)
    (hrows : ∀ row ∈ rows, row.1 ∈ devices ∧ (row.1 = device → Unnamed row.2)) :
    (harvest now cache rows).entries.lookup device = some entry := by
  induction rows generalizing cache sorted with
  | nil => exact h.lookup_held hheld
  | cons row rows ih =>
      rw [List.forall_mem_cons] at hrows
      rw [RedirectCache.harvest, List.foldl_cons]
      rcases named_or_unnamed row.2 with ⟨hnames, endpoint, hnamed⟩ | ⟨hnames, hunnamed⟩
      · rw [puts_named hnames] at hroom
        have hne : device ≠ row.1 := fun heq ↦ hrows.1.2 heq.symm endpoint hnamed
        have hzero : cache.maxEntries ≠ 0 := by
          have hpos := List.length_pos_of_mem (List.mem_dedup.mpr hdevice)
          omega
        have hseq := put_seq_le cache row.1 endpoint now
        rw [putHint_named hnamed]
        apply ih (h.put_kept hzero (by omega) row.1 endpoint now) (by omega)
          (h.held_put hheld hdevice hrows.1.1 hne hdistinct _)
        · rwa [put_maxEntries]
        · exact hrows.2
      · rw [puts_unnamed hnames] at hroom
        rw [putHint_unnamed hunnamed]
        exact ih h hroom hheld hdistinct hrows.2

/-- The last named row of a device decides its hint. -/
theorem Ready.harvest_last {front back : List (String × Option TEndPoint)}
    {node : Option TEndPoint} {devices : List String}
    (h : Ready cache (puts (front ++ (device, node) :: back))) (now : Nat)
    (hnamed : NamesEndpoint node endpoint) (hback : ∀ row ∈ back, row.1 = device → Unnamed row.2)
    (hdevices : ∀ row ∈ front ++ (device, node) :: back, row.1 ∈ devices)
    (hdistinct : devices.dedup.length ≤ cache.maxEntries) :
    ∃ seq, (RedirectCache.harvest now cache (front ++ (device, node) :: back)).entries.lookup device =
      some ⟨endpoint, now, seq⟩ := by
  have hnames : namesEndpoint node = true := by
    rcases named_or_unnamed node with ⟨hnames, -⟩ | ⟨-, hunnamed⟩
    · exact hnames
    · exact absurd hnamed (hunnamed endpoint)
  have hfront : Ready cache (puts front + puts ((device, node) :: back)) := by
    rwa [puts, List.countP_append] at h
  rw [@puts_named (device, node) hnames] at hfront
  obtain ⟨hready, hmax⟩ := hfront.harvest front now
  obtain ⟨sorted, hsorted⟩ := hready.ordered
  have hroom := hready.room
  have hdevice : device ∈ devices := hdevices (device, node) (by simp)
  have hzero : cache.maxEntries ≠ 0 := by
    have hpos := List.length_pos_of_mem (List.mem_dedup.mpr hdevice)
    omega
  have hseq := put_seq_le (RedirectCache.harvest now cache front) device endpoint now
  refine ⟨(RedirectCache.harvest now cache front).seq + 1, ?_⟩
  rw [RedirectCache.harvest, List.foldl_append, List.foldl_cons, putHint_named hnamed]
  apply (hsorted.put_kept (by rwa [hmax]) (by omega) device endpoint now).harvest_held (by omega) now
    ⟨_, [], rfl, by simp⟩ hdevice
  · rw [put_maxEntries]
    exact hdistinct.trans_eq hmax.symm
  · intro row hrow
    exact ⟨hdevices row (by simp [hrow]), hback row hrow⟩

end RedirectCache

namespace RedirectCache

theorem Run.seq_le {cache last : RedirectCache} {ops : List CacheOp}
    {answers : List (Option Endpoint × Nat)} (hrun : Run cache ops answers last) :
    last.seq ≤ cache.seq + ops.countP CacheOp.isPut := by
  induction hrun with
  | done cache => exact Nat.le_add_right _ _
  | reorder _ _ ih => exact ih
  | @call cache last op ops answers _ ih =>
      cases op with
      | put device endpoint now =>
          have hput := put_seq_le cache device endpoint now
          change last.seq ≤ (cache.put device endpoint now).seq + _ at ih
          rw [List.countP_cons_of_pos rfl]
          omega
      | getAt device now =>
          change last.seq ≤ (cache.getAt device now).2.seq + _ at ih
          rw [List.countP_cons_of_neg (by simp [CacheOp.isPut])]
          rwa [getAt_seq] at ih
      | clear =>
          rw [List.countP_cons_of_neg (by simp [CacheOp.isPut])]
          exact ih

/-- A cache with a history of few enough puts. -/
theorem Run.ready {ttl maxEntries count : Nat} {cache : RedirectCache} {ops : List CacheOp}
    {answers : List (Option Endpoint × Nat)} (hrun : Run (new ttl maxEntries) ops answers cache)
    (hputs : ops.countP CacheOp.isPut + count < 2 ^ 64) :
    Ready cache count ∧ cache.maxEntries = maxEntries := by
  have hseq : cache.seq ≤ 0 + ops.countP CacheOp.isPut := hrun.seq_le
  have hroom : (new ttl maxEntries).seq + ops.countP CacheOp.isPut < 2 ^ 64 := by
    change 0 + _ < _
    omega
  obtain ⟨-, sorted, hsorted, hmax, -⟩ := (orderedBy_new ttl maxEntries).run hrun hroom
  exact ⟨⟨⟨sorted, hsorted⟩, by omega⟩, hmax⟩

end RedirectCache

/-! ## Responses -/

/-- Row `i` is the last of the device whose sub-status names an endpoint. -/
def LastNamed (devices : List String) (subs : List TSStatus) (device : String)
    (endpoint : Endpoint) : Prop :=
  ∃ (i : Nat) (sub : TSStatus), devices[i]? = some device ∧ subs[i]? = some sub ∧
    NamesEndpoint sub.redirectNode endpoint ∧
    ∀ (j : Nat) (sub' : TSStatus), i < j → devices[j]? = some device → subs[j]? = some sub' →
      ∀ endpoint', ¬NamesEndpoint sub'.redirectNode endpoint'

def NeverNamed (devices : List String) (subs : List TSStatus) (device : String) : Prop :=
  ∀ (i : Nat) (sub : TSStatus), devices[i]? = some device → subs[i]? = some sub →
    ∀ endpoint, ¬NamesEndpoint sub.redirectNode endpoint

/-- What a response does to the hints of a session: a sub-status for each row, or one node for all
of them. -/
structure HintsPaired (devices : List String) (status : TSStatus) (st after : Session × World) :
    Prop where
  paired : ∀ subs, status.subStatus = some subs → subs.length = devices.length → ∀ device,
    (∀ endpoint, LastNamed devices subs device endpoint →
      (after.1.redirectHint device after.2.clock).1 = some endpoint) ∧
    (NeverNamed devices subs device →
      RedirectCache.KeptOrGone st.1.redirectCache after.1.redirectCache device)
  topLevel : (∀ subs, status.subStatus = some subs → subs.length ≠ devices.length) → ∀ device,
    (∀ endpoint, device ∈ devices → NamesEndpoint status.redirectNode endpoint →
      (after.1.redirectHint device after.2.clock).1 = some endpoint) ∧
    ((device ∉ devices ∨ ∀ endpoint, ¬NamesEndpoint status.redirectNode endpoint) →
      RedirectCache.KeptOrGone st.1.redirectCache after.1.redirectCache device)

/-- The puts of a response: one for each transmitted row that it names an endpoint for. -/
def namedRows (devices : List String) (status : TSStatus) : Nat :=
  match status.subStatus with
  | some subs =>
      if subs.length = devices.length then subs.countP fun sub ↦ namesEndpoint sub.redirectNode
      else devices.countP fun _ ↦ namesEndpoint status.redirectNode
  | none => devices.countP fun _ ↦ namesEndpoint status.redirectNode

theorem namedRows_paired {devices : List String} {status : TSStatus} {subs : List TSStatus}
    (hsubs : status.subStatus = some subs) (hlength : subs.length = devices.length) :
    namedRows devices status = RedirectCache.puts (devices.zip (subs.map TSStatus.redirectNode)) := by
  have hnodes : (devices.zip (subs.map TSStatus.redirectNode)).map Prod.snd =
      subs.map TSStatus.redirectNode := by
    apply List.map_snd_zip
    rw [List.length_map, hlength]
  have hcount := congrArg (List.countP namesEndpoint) hnodes
  rw [List.countP_map, List.countP_map] at hcount
  simp only [namedRows, hsubs, if_pos hlength]
  exact hcount.symm

theorem namedRows_topLevel {devices : List String} {status : TSStatus}
    (hsubs : ∀ subs, status.subStatus = some subs → subs.length ≠ devices.length) :
    namedRows devices status =
      RedirectCache.puts (devices.map fun device ↦ (device, status.redirectNode)) := by
  rw [RedirectCache.puts, List.countP_map]
  unfold namedRows
  cases hstatus : status.subStatus with
  | none => rfl
  | some subs => exact if_neg (hsubs subs hstatus)

theorem recordRedirects_paired {devices : List String} {status : TSStatus} {subs : List TSStatus}
    (hsubs : status.subStatus = some subs) (hlength : subs.length = devices.length)
    (cache : RedirectCache) (now : Nat) :
    recordRedirects cache devices status now =
      cache.harvest now (devices.zip (subs.map TSStatus.redirectNode)) := by
  unfold recordRedirects RedirectCache.harvest
  rw [hsubs, List.zip_map_right, List.foldl_map]
  exact if_pos hlength

theorem recordRedirects_topLevel {devices : List String} {status : TSStatus}
    (hsubs : ∀ subs, status.subStatus = some subs → subs.length ≠ devices.length)
    (cache : RedirectCache) (now : Nat) :
    recordRedirects cache devices status now =
      cache.harvest now (devices.map fun device ↦ (device, status.redirectNode)) := by
  unfold recordRedirects RedirectCache.harvest
  rw [List.foldl_map]
  cases hstatus : status.subStatus with
  | none => rfl
  | some subs => exact if_neg (hsubs subs hstatus)

-- No time passes between the put and the look: the hint is not expired.
theorem redirectHint_of_lookup {session : Session} {device : String} {endpoint : Endpoint}
    {now seq : Nat}
    (h : session.redirectCache.entries.lookup device = some ⟨endpoint, now, seq⟩) :
    (session.redirectHint device now).1 = some endpoint := by
  have hfresh : isExpired (now - now) session.redirectCache.ttl = false := by
    simp [isExpired]
  rw [Session.redirectHint, RedirectCache.getAt, h]
  simp only [hfresh, Bool.false_eq_true, if_false]

theorem mem_zip_nodes {devices : List String} {subs : List TSStatus} {i : Nat}
    {row : String × Option TEndPoint} :
    (devices.zip (subs.map TSStatus.redirectNode))[i]? = some row ↔
      devices[i]? = some row.1 ∧ ∃ sub, subs[i]? = some sub ∧ sub.redirectNode = row.2 := by
  rw [List.getElem?_zip_eq_some, List.getElem?_map, Option.map_eq_some_iff]

/-- The cache after the response, for a cache with room in its counter and places for the devices. -/
theorem hintsPaired_of_recorded {devices : List String} {status : TSStatus}
    {st after : Session × World} (hready : st.1.redirectCache.Ready (namedRows devices status))
    (hdistinct : devices.dedup.length ≤ st.1.redirectCache.maxEntries)
    (hafter : after.1.redirectCache =
      recordRedirects st.1.redirectCache devices status after.2.clock) :
    HintsPaired devices status st after where
  paired := by
    intro subs hsubs hlength device
    rw [recordRedirects_paired hsubs hlength] at hafter
    rw [namedRows_paired hsubs hlength] at hready
    have hmem : ∀ row ∈ devices.zip (subs.map TSStatus.redirectNode), row.1 ∈ devices :=
      fun row hrow ↦ (List.of_mem_zip hrow).1
    constructor
    · -- the last node named for the device wins over those before it
      rintro endpoint ⟨i, sub, hdevice, hsub, hnamed, hlast⟩
      have hi : (devices.zip (subs.map TSStatus.redirectNode))[i]? =
          some (device, sub.redirectNode) := mem_zip_nodes.mpr ⟨hdevice, sub, hsub, rfl⟩
      obtain ⟨hlt, hget⟩ := List.getElem?_eq_some_iff.mp hi
      have hsplit : devices.zip (subs.map TSStatus.redirectNode) =
          (devices.zip (subs.map TSStatus.redirectNode)).take i ++ (device, sub.redirectNode) ::
            (devices.zip (subs.map TSStatus.redirectNode)).drop (i + 1) := by
        rw [← hget, ← List.drop_eq_getElem_cons hlt, List.take_append_drop]
      rw [hsplit] at hafter hmem hready
      obtain ⟨seq, hlookup⟩ := hready.harvest_last after.2.clock hnamed (by
        intro row hrow heq
        obtain ⟨k, hk⟩ := List.mem_iff_getElem?.mp hrow
        rw [List.getElem?_drop] at hk
        obtain ⟨hrowdevice, sub', hsub', hnode⟩ := mem_zip_nodes.mp hk
        rw [heq] at hrowdevice
        rw [← hnode]
        exact hlast _ sub' (by omega) hrowdevice hsub') hmem hdistinct
      rw [← hafter] at hlookup
      exact redirectHint_of_lookup hlookup
    · -- a device without a node keeps what it had
      intro hnever
      rw [hafter]
      apply hready.harvest_unnamed
      intro row hrow heq
      obtain ⟨i, hi⟩ := List.mem_iff_getElem?.mp hrow
      obtain ⟨hdevice, sub, hsub, hnode⟩ := mem_zip_nodes.mp hi
      rw [heq] at hdevice
      rw [← hnode]
      exact hnever i sub hdevice hsub
  topLevel := by
    intro hsubs device
    rw [recordRedirects_topLevel hsubs] at hafter
    rw [namedRows_topLevel hsubs] at hready
    constructor
    · -- one node for all devices: split at the last row of this one
      intro endpoint hdevice hnamed
      obtain ⟨front, back, hsplit, hback⟩ := split_at_last hdevice
      have hsplitRows : (devices.map fun device ↦ (device, status.redirectNode)) =
          (front.map fun device ↦ (device, status.redirectNode)) ++
            (device, status.redirectNode) ::
              (back.map fun device ↦ (device, status.redirectNode)) := by
        rw [hsplit, List.map_append, List.map_cons]
      rw [hsplitRows] at hafter hready
      obtain ⟨seq, hlookup⟩ := hready.harvest_last after.2.clock hnamed (by
        intro row hrow heq
        obtain ⟨other, hother, rfl⟩ := List.mem_map.mp hrow
        exact absurd (heq ▸ hother) hback) (by
          rw [← hsplitRows]
          simp) hdistinct
      rw [← hafter] at hlookup
      exact redirectHint_of_lookup hlookup
    · -- a device that was not sent, or no node at all
      intro hnone
      rw [hafter]
      apply hready.harvest_unnamed
      intro row hrow heq
      obtain ⟨other, hother, rfl⟩ := List.mem_map.mp hrow
      rcases hnone with habsent | hunnamed
      · exact absurd (heq ▸ hother) habsent
      · exact hunnamed

/-! ## The insert calls -/

section

variable {server : Server}

-- Retries touch neither the configuration nor the hints.
theorem keptByRetries_hints (config : SessionConfig) (cache : RedirectCache) :
    KeptByRetries server fun st ↦ st.1.config = config ∧ st.1.redirectCache = cache where
  call := fun _ _ _ _ hst ↦ hst
  world := fun _ _ _ hst ↦ hst
  ids := fun _ _ _ _ _ hst ↦ hst

/-- The response to the request: the reply to its last attempt. -/
def Answered (server : Server) (st : Session × World) (req : InsertReq) (status : TSStatus) : Prop :=
  ∃ mid, withRetry server (sendInsert server req) st = (.ok status, mid)

theorem insert_hintsPaired {devices : List String} {req : InsertReq} {status : TSStatus}
    {st : Session × World} (henabled : st.1.config.enableRedirection = true)
    (hanswered : Answered server st req status)
    (hready : st.1.redirectCache.Ready (namedRows devices status))
    (hdistinct : devices.dedup.length ≤ st.1.redirectCache.maxEntries) :
    HintsPaired devices status st (Session.insert server devices req st).2 := by
  obtain ⟨mid, hmid⟩ := hanswered
  have hkept : KeptByRetries server fun st' ↦
      st'.1.config = st.1.config ∧ st'.1.redirectCache = st.1.redirectCache :=
    keptByRetries_hints st.1.config st.1.redirectCache
  obtain ⟨hconfig, hcache⟩ :=
    (hkept.keeps_withRetry fun site ↦ hkept.keeps_sendInsert req site).kept st ⟨rfl, rfl⟩
  rw [hmid] at hconfig hcache
  apply hintsPaired_of_recorded hready hdistinct
  have hrecorded : (Session.insert server devices req st).2 = ({ mid.1 with
      redirectCache := recordRedirects mid.1.redirectCache devices status mid.2.clock }, mid.2) := by
    have hmidEnabled : mid.1.config.enableRedirection = true := by rw [hconfig, henabled]
    simp only [Session.insert, bind_apply, hmid, checkInsertStatus, self_apply, branch_apply,
      if_pos hmidEnabled, modify_apply, ofOutcome_apply]
  rw [hrecorded, ← hcache]

end

/-! ## Transmitted rows -/

theorem keepRecords_arity {l : List (((String × Int64) × List String) × List Value)}
    {kept : List (String × Int64 × List String × List UInt8)} (h : keepRecords l = .ok kept) :
    ∀ row ∈ l, row.1.2.length = row.2.length := by
  induction l generalizing kept with
  | nil => simp
  | cons row l ih =>
      obtain ⟨⟨⟨device, ts⟩, measurements⟩, values⟩ := row
      rw [keepRecords] at h
      obtain ⟨_, hcheck, h⟩ := bind_eq_ok.mp h
      obtain ⟨rest, hrest, -⟩ := bind_eq_ok.mp h
      rw [List.forall_mem_cons]
      refine ⟨?_, ih hrest⟩
      by_contra hne
      rw [checkRecordArity, if_pos hne] at hcheck
      cases hcheck

/-- The devices of a built request are those of the rows with a non-null cell, in input order. -/
theorem insertRecordsReq_prefixPaths {sessionId : Int64} {deviceIds : List String}
    {timestamps : List Int64} {measurementsList : List (List String)}
    {valuesList : List (List Value)} {isAligned : Bool} {req : TSInsertRecordsReq}
    (h : insertRecordsReq sessionId deviceIds timestamps measurementsList valuesList isAligned =
      .ok req) :
    req.prefixPaths =
      (keptRows (rowsOf deviceIds timestamps measurementsList valuesList)).map CellRow.device := by
  unfold insertRecordsReq at h
  dsimp only at h
  split at h
  · cases h
  · obtain ⟨kept, hkept, h⟩ := bind_eq_ok.mp h
    rw [keepRecords_eq _ (keepRecords_arity hkept)] at hkept
    cases hkept
    split at h
    · cases h
    · cases h
      simp only [List.map_map]
      rfl

theorem sortByTimestamp_target {t sorted : Tablet} (h : t.sortByTimestamp = .ok sorted) :
    sorted.target = t.target := by
  unfold Tablet.sortByTimestamp at h
  split at h
  · cases h
    rfl
  · obtain ⟨timestamps, -, h⟩ := bind_eq_ok.mp h
    obtain ⟨values, -, h⟩ := bind_eq_ok.mp h
    cases h
    rfl

theorem pushTablet_prefixPaths {req req' : TSInsertTabletsReq} {t : Tablet}
    (h : pushTablet req t = .ok req') : req'.prefixPaths = req.prefixPaths ++ [t.target] := by
  unfold pushTablet at h
  split at h
  · cases h
  · obtain ⟨⟨values, sorted⟩, hvalues, h⟩ := bind_eq_ok.mp h
    obtain ⟨⟨timestamps, sorted'⟩, htimestamps, h⟩ := bind_eq_ok.mp h
    cases h
    have hsorted : sorted.target = t.target := by
      unfold Tablet.serializeValues at hvalues
      obtain ⟨s, hs, hvalues⟩ := bind_eq_ok.mp hvalues
      obtain ⟨cells, -, hvalues⟩ := bind_eq_ok.mp hvalues
      split at hvalues
      · cases hvalues
        exact sortByTimestamp_target hs
      · cases hvalues
    have hsorted' : sorted'.target = sorted.target := by
      unfold Tablet.serializeTimestamps at htimestamps
      obtain ⟨s, hs, htimestamps⟩ := bind_eq_ok.mp htimestamps
      cases htimestamps
      exact sortByTimestamp_target hs
    rw [← hsorted, ← hsorted']

theorem foldlM_pushTablet_prefixPaths {tablets : List Tablet} {req req' : TSInsertTabletsReq}
    (h : tablets.foldlM pushTablet req = .ok req') :
    req'.prefixPaths = req.prefixPaths ++ tablets.map Tablet.target := by
  induction tablets generalizing req with
  | nil =>
      cases h
      rw [List.map_nil, List.append_nil]
  | cons t tablets ih =>
      rw [List.foldlM_cons] at h
      obtain ⟨mid, hmid, h⟩ := bind_eq_ok.mp h
      rw [ih h, pushTablet_prefixPaths hmid, List.append_assoc]
      rfl

theorem buildInsertTabletsReq_prefixPaths {sessionId : Int64} {tablets : List Tablet}
    {isAligned : Bool} {req : TSInsertTabletsReq}
    (h : buildInsertTabletsReq sessionId tablets isAligned = .ok req) :
    req.prefixPaths = tablets.map Tablet.target := by
  unfold buildInsertTabletsReq at h
  split at h
  · cases h
  · exact foldlM_pushTablet_prefixPaths h

/-! ## Hints of the right device -/

/-- Sub-status `i` sets the hint of transmitted row `i`, or of tablet `i`.  The insertion counter of
the cache has not wrapped: all the puts since it was made, with those of the call, number fewer than
`2 ^ 64`. -/
theorem redirect_hints_paired (server : Server) {st : Session × World}
    (henabled : st.1.config.enableRedirection = true) {ttl maxEntries : Nat} {ops : List CacheOp}
    {answers : List (Option Endpoint × Nat)}
    (hhistory : RedirectCache.Run (.new ttl maxEntries) ops answers st.1.redirectCache) :
    (∀ (deviceIds : List String) (timestamps : List Int64) (measurementsList : List (List String))
      (valuesList : List (List Value)) (isAligned : Bool) (req : TSInsertRecordsReq)
      (status : TSStatus), insertRecordsReq st.1.sessionId deviceIds timestamps measurementsList
        valuesList isAligned = .ok req → Answered server st (.records req) status →
      let transmitted :=
        (keptRows (rowsOf deviceIds timestamps measurementsList valuesList)).map CellRow.device
      req.prefixPaths = transmitted ∧
      (transmitted.dedup.length ≤ maxEntries →
        ops.countP CacheOp.isPut + namedRows transmitted status < 2 ^ 64 →
        HintsPaired transmitted status st (insertRecords server deviceIds timestamps
          measurementsList valuesList isAligned st).2)) ∧
    ∀ (tablets : List Tablet) (isAligned : Bool) (req : TSInsertTabletsReq) (status : TSStatus),
      buildInsertTabletsReq st.1.sessionId tablets isAligned = .ok req →
      Answered server st (.tablets req) status →
      let transmitted := tablets.map Tablet.target
      req.prefixPaths = transmitted ∧
      (transmitted.dedup.length ≤ maxEntries →
        ops.countP CacheOp.isPut + namedRows transmitted status < 2 ^ 64 →
        HintsPaired transmitted status st (insertTablets server tablets isAligned st).2) := by
  constructor
  · intro deviceIds timestamps measurementsList valuesList isAligned req status hbuilt hanswered
      transmitted
    have hpaths : req.prefixPaths = transmitted := insertRecordsReq_prefixPaths hbuilt
    refine ⟨hpaths, ?_⟩
    intro hdistinct hputs
    obtain ⟨hready, hmax⟩ := hhistory.ready hputs
    have hrun : insertRecords server deviceIds timestamps measurementsList valuesList isAligned st =
        Session.insert server req.prefixPaths (.records req) st := by
      simp only [insertRecords, bind_apply, self_apply, ofOutcome_apply, hbuilt]
    rw [hrun, hpaths]
    exact insert_hintsPaired henabled hanswered hready (hdistinct.trans_eq hmax.symm)
  · intro tablets isAligned req status hbuilt hanswered transmitted
    have hpaths : req.prefixPaths = transmitted := buildInsertTabletsReq_prefixPaths hbuilt
    refine ⟨hpaths, ?_⟩
    intro hdistinct hputs
    obtain ⟨hready, hmax⟩ := hhistory.ready hputs
    have hrun : insertTablets server tablets isAligned st =
        Session.insert server req.prefixPaths (.tablets req) st := by
      simp only [insertTablets, bind_apply, self_apply, ofOutcome_apply, hbuilt]
    rw [hrun, hpaths]
    exact insert_hintsPaired henabled hanswered hready (hdistinct.trans_eq hmax.symm)

/-- Every insert is answered with two sub-statuses. -/
def redirectingServer : Server where
  connect _ _ _ := none
  answer
    | _, _, .insert _ => .ok (.mk 400 none (some [.mk 400 none none (some ⟨"n1", 6667⟩),
        .mk 400 none none (some ⟨"n2", 6668⟩)]) none)
    | _, _, _ => .error "not scripted"

/-- Three rows, the one of `d2` all null: the second sub-status is for the third row. -/
theorem redirect_hints_paired_dropped_row :
    ∃ req status, insertRecordsReq (-1) ["d1", "d2", "d1"] [1, 2, 3] [["a"], ["a"], ["a"]]
        [[.int32 7], [.null], [.int32 8]] false = .ok req ∧
      Answered redirectingServer connectedState (.records req) status ∧
      req.prefixPaths = ["d1", "d1"] ∧
      HintsPaired ["d1", "d1"] status connectedState (insertRecords redirectingServer
        ["d1", "d2", "d1"] [1, 2, 3] [["a"], ["a"], ["a"]] [[.int32 7], [.null], [.int32 8]] false
        connectedState).2 := by
  obtain ⟨hpaths, hpaired⟩ := (redirect_hints_paired redirectingServer
    (show connectedState.1.config.enableRedirection = true from rfl)
    (.done (.new defaultRedirectTtl defaultRedirectMaxEntries))).1
    ["d1", "d2", "d1"] [1, 2, 3] [["a"], ["a"], ["a"]] [[.int32 7], [.null], [.int32 8]] false
    _ _ rfl ⟨_, rfl⟩
  exact ⟨_, _, rfl, ⟨_, rfl⟩, hpaths, hpaired (by decide) (by decide)⟩

/-! ## When the counter wraps -/

namespace RedirectCache

theorem put_evicts {cache : RedirectCache} {device key : String} (hzero : cache.maxEntries ≠ 0)
    (hfull : cache.maxEntries ≤ cache.entries.length) (hnew : cache.entries.lookup device = none)
    (holdest : oldest cache.entries = some key) (endpoint : Endpoint) (now : Nat) :
    cache.put device endpoint now = { cache with
      entries := remove (remove cache.entries key) device ++
        [(device, ⟨endpoint, now, (cache.seq + 1) % 2 ^ 64⟩)]
      seq := (cache.seq + 1) % 2 ^ 64 } := by
  unfold RedirectCache.put
  rw [if_neg hzero, hnew, holdest, decide_eq_true hfull]
  rfl

/-- The first put after the counter wraps is the oldest entry; the next put evicts it. -/
theorem OrderedBy.put_wraps {cache : RedirectCache} {p : String × RedirectEntry}
    {rest : List (String × RedirectEntry)} (h : OrderedBy cache (p :: rest))
    (hfull : (p :: rest).length = cache.maxEntries) (hseq : cache.seq = 2 ^ 64 - 1)
    (hpos : ∀ q ∈ p :: rest, 0 < q.2.seq) {device other : String}
    (hdevice : ∀ q ∈ p :: rest, q.1 ≠ device) (hother : ∀ q ∈ p :: rest, q.1 ≠ other)
    (hne : device ≠ other) (endpoint endpoint' : Endpoint) (now : Nat) :
    ((cache.put device endpoint now).put other endpoint' now).entries.lookup device = none := by
  have hzero : cache.maxEntries ≠ 0 := by
    rw [← hfull]
    exact Nat.succ_ne_zero _
  have hlength := h.perm.length_eq
  have hrest := h.eraseKey p.1
  rw [h.distinct.eraseKey_head] at hrest
  have hremoved := hrest.remove_new fun q hq ↦ hdevice q (List.mem_cons_of_mem p hq)
  change remove (remove cache.entries p.1) device = remove cache.entries p.1 at hremoved
  have hlookup : cache.entries.lookup device = none := by
    rw [h.lookup]
    exact lookup_eq_none.mpr hdevice
  let wrapped : RedirectCache := { cache with
    entries := remove cache.entries p.1 ++ [(device, ⟨endpoint, now, 0⟩)]
    seq := 0 }
  have hfirst : cache.put device endpoint now = wrapped := by
    have hwrap : (2 ^ 64 - 1 + 1) % 2 ^ 64 = 0 := by decide
    rw [put_evicts hzero (by omega) hlookup h.oldest, hseq, hremoved, hwrap]
  -- the order now starts with `device`
  have hperm : ((device, ⟨endpoint, now, 0⟩) :: rest).Perm wrapped.entries :=
    (List.perm_append_singleton _ _).symm.trans (hrest.perm.append_right _)
  have hlookup' : wrapped.entries.lookup other = none := by
    have hsame : wrapped.entries.lookup other = (remove cache.entries p.1).lookup other :=
      lookup_append_of_ne (Ne.symm hne) _ _
    rw [hsame, hrest.lookup]
    exact lookup_eq_none.mpr fun q hq ↦ hother q (List.mem_cons_of_mem p hq)
  have holdest : RedirectCache.oldest wrapped.entries = some device := by
    rw [RedirectCache.oldest,
      argmin_of_forall_lt hperm fun q hq ↦ hpos q (List.mem_cons_of_mem p hq)]
    rfl
  have hlength' := hperm.length_eq
  rw [List.length_cons] at hfull hlength'
  have hfull' : wrapped.maxEntries ≤ wrapped.entries.length := hlength' ▸ hfull.ge
  rw [hfirst, @put_evicts wrapped other device hzero hfull' hlookup' holdest,
    lookup_append_of_ne hne, lookup_eq_none]
  intro q hq
  exact (mem_eraseKey.mp (mem_eraseKey.mp hq).1).2

theorem put_seq {cache : RedirectCache} (hzero : cache.maxEntries ≠ 0)
    (hseq : cache.seq + 1 < 2 ^ 64) (device : String) (endpoint : Endpoint) (now : Nat) :
    (cache.put device endpoint now).seq = cache.seq + 1 := by
  rw [put_cases hzero, Nat.mod_eq_of_lt hseq]

/-- A cache of a session after some history: its counter and its order. -/
def Reaches (seq : Nat) (sorted : List (String × RedirectEntry)) : Prop :=
  ∃ ops answers cache, Run default ops answers cache ∧ cache.maxEntries = defaultRedirectMaxEntries ∧
    cache.seq = seq ∧ OrderedBy cache sorted

theorem Reaches.put {seq : Nat} {sorted : List (String × RedirectEntry)} (h : Reaches seq sorted)
    (hseq : seq + 1 < 2 ^ 64) (device : String) (endpoint : Endpoint) :
    ∃ kept, Reaches (seq + 1) (kept ++ [(device, ⟨endpoint, 0, seq + 1⟩)]) ∧
      ((∀ p ∈ sorted, p.1 = device) → kept = []) ∧
      ((∀ p ∈ sorted, p.1 ≠ device) → sorted.length < defaultRedirectMaxEntries →
        kept = sorted) := by
  obtain ⟨ops, answers, cache, hrun, hmax, rfl, hsorted⟩ := h
  have hzero : cache.maxEntries ≠ 0 := by
    rw [hmax]
    decide
  refine ⟨keptBy cache sorted device, ?_, ?_, ?_⟩
  · exact ⟨_, _, _, hrun.snoc (.put device endpoint 0), (put_maxEntries ..).trans hmax,
      put_seq hzero hseq device endpoint 0, hsorted.put_kept hzero hseq device endpoint 0⟩
  · intro hsame
    rw [List.eq_nil_iff_forall_not_mem]
    intro p hp
    obtain ⟨-, hother, -⟩ := hsorted.kept hzero device
    apply hother p hp
    unfold keptBy at hp
    split at hp
    · exact hsame p (mem_eraseKey.mp hp).1
    · split at hp
      · exact hsame p (List.mem_of_mem_tail hp)
      · exact hsame p hp
  · intro hnew hroom
    rw [keptBy, lookup_eq_none.mpr hnew, Option.isSome_none, if_neg Bool.false_ne_true,
      if_neg (by rw [hmax]; omega)]

theorem reaches_refreshed (device : String) (endpoint : Endpoint) (n : Nat) (hn : n + 1 < 2 ^ 64) :
    Reaches (n + 1) [(device, ⟨endpoint, 0, n + 1⟩)] := by
  induction n with
  | zero =>
      have hnew : Reaches 0 [] := ⟨[], [], default, .done _, rfl, rfl, orderedBy_new _ _⟩
      obtain ⟨kept, hreaches, hkept, -⟩ := hnew.put (by decide) device endpoint
      rwa [hkept (by simp)] at hreaches
  | succ n ih =>
      obtain ⟨kept, hreaches, hkept, -⟩ := (ih (by omega)).put (by omega) device endpoint
      rwa [hkept (by simp)] at hreaches

def fillDevice (i : Nat) : String := String.ofList (List.replicate (i + 1) 'x')

theorem fillDevice_inj {i j : Nat} (h : fillDevice i = fillDevice j) : i = j := by
  have hlength := congrArg String.length h
  simpa [fillDevice] using hlength

theorem fillDevice_ne {i : Nat} {name : String} (h : 'x' ∉ name.toList) : fillDevice i ≠ name := by
  rintro rfl
  apply h
  simp [fillDevice]

/-- `k + 1` devices, after so many refreshes of the first that the last put takes the counter to
`2 ^ 64 - 1024 + k`. -/
theorem reaches_filled (k : Nat) (hk : k < 1024) :
    ∃ sorted, Reaches (2 ^ 64 - 1024 + k) sorted ∧ sorted.length = k + 1 ∧
      ∀ p ∈ sorted, 0 < p.2.seq ∧ ∃ i ≤ k, p.1 = fillDevice i := by
  induction k with
  | zero =>
      refine ⟨_, reaches_refreshed (fillDevice 0) ⟨"n", 6667⟩ (2 ^ 64 - 1025) (by omega), rfl, ?_⟩
      intro p hp
      obtain rfl := List.mem_singleton.mp hp
      exact ⟨by decide, 0, Nat.le_refl 0, rfl⟩
  | succ k ih =>
      obtain ⟨sorted, hreaches, hlength, hsorted⟩ := ih (by omega)
      obtain ⟨kept, hput, -, hkept⟩ := hreaches.put (by omega) (fillDevice (k + 1)) ⟨"n", 6667⟩
      have hfresh : ∀ p ∈ sorted, p.1 ≠ fillDevice (k + 1) := by
        intro p hp heq
        obtain ⟨i, hi, hname⟩ := (hsorted p hp).2
        have hsame := fillDevice_inj (hname.symm.trans heq)
        omega
      rw [hkept hfresh (by change sorted.length < 1024; omega)] at hput
      refine ⟨_, hput, by simp [hlength], ?_⟩
      intro p hp
      rcases List.mem_append.mp hp with hp | hp
      · obtain ⟨hpos, i, hi, hname⟩ := hsorted p hp
        exact ⟨hpos, i, by omega, hname⟩
      · obtain rfl := List.mem_singleton.mp hp
        exact ⟨Nat.succ_pos _, k + 1, Nat.le_refl _, rfl⟩

end RedirectCache

/-- After `2 ^ 64 - 1` puts a session can hold a full cache in which the hint of the first row of a
call does not outlive the second row. -/
theorem redirect_hint_lost_at_wrap :
    ∃ ops answers cache req status subs,
      RedirectCache.Run RedirectCache.default ops answers cache ∧
      let st := ({ connectedState.1 with redirectCache := cache }, connectedState.2)
      let after := (insertRecords redirectingServer ["d1", "d2"] [1, 2] [["a"], ["a"]]
        [[.int32 7], [.int32 8]] false st).2
      insertRecordsReq st.1.sessionId ["d1", "d2"] [1, 2] [["a"], ["a"]] [[.int32 7], [.int32 8]]
        false = .ok req ∧
      Answered redirectingServer st (.records req) status ∧
      req.prefixPaths = ["d1", "d2"] ∧ req.prefixPaths.dedup.length ≤ cache.maxEntries ∧
      status.subStatus = some subs ∧ subs.length = req.prefixPaths.length ∧
      LastNamed req.prefixPaths subs "d1" ⟨"n1", 6667⟩ ∧
      (after.1.redirectHint "d1" after.2.clock).1 = none := by
  obtain ⟨sorted, ⟨ops, answers, cache, hrun, hmax, hseq, hsorted⟩, hlength, hdevices⟩ :=
    RedirectCache.reaches_filled 1023 (by decide)
  have hpos : 0 < sorted.length := by omega
  obtain ⟨p, rest, rfl⟩ := List.exists_cons_of_length_pos hpos
  have hfresh : ∀ {name : String}, 'x' ∉ name.toList → ∀ q ∈ p :: rest, q.1 ≠ name := by
    intro name hname q hq heq
    obtain ⟨i, -, hi⟩ := (hdevices q hq).2
    exact RedirectCache.fillDevice_ne hname (hi.symm.trans heq)
  have hlost : ((cache.put "d1" ⟨"n1", 6667⟩ 0).put "d2" ⟨"n2", 6668⟩ 0).entries.lookup "d1" = none :=
    hsorted.put_wraps (hlength.trans hmax.symm) hseq (fun q hq ↦ (hdevices q hq).1)
      (hfresh (by decide)) (hfresh (by decide)) (by decide) _ _ 0
  refine ⟨ops, answers, cache, _, _, _, hrun, rfl, ⟨_, rfl⟩, rfl, ?_, rfl, rfl, ?_, ?_⟩
  · change ["d1", "d2"].dedup.length ≤ cache.maxEntries
    rw [hmax]
    decide
  · refine ⟨0, _, rfl, rfl, ⟨⟨"n1", 6667⟩, rfl, by decide, by decide, by decide, rfl, by decide⟩, ?_⟩
    intro j sub hj hdevice
    change ["d1", "d2"][j]? = some "d1" at hdevice
    match j with
    | 0 => exact absurd hj (Nat.lt_irrefl 0)
    | 1 => exact absurd hdevice (by decide)
    | j + 2 => exact absurd hdevice nofun
  · change (RedirectCache.getAt ((cache.put "d1" ⟨"n1", 6667⟩ 0).put "d2" ⟨"n2", 6668⟩ 0) "d1" 0).1 =
      none
    rw [RedirectCache.getAt, hlost]

end IotdbClient
