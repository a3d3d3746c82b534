import IotdbClient.Library.BTreeMap
import IotdbClient.Library.Fields

/-!
# Codecs

What the generated code knows about one type: its tag, the calls that write a value, and the reader.
A `Codec` carries the proofs that the reader takes back what the writer wrote, that what is written
is a value of the tag, and that the reader is safe on any input; the combinators below build the
codec of a list, a map or a struct from the codecs of its parts.
-/

namespace IotdbClient.Library

structure Codec (P : TProtocol) (α : Type) where
  ttype : TType
  write : α → List Emit
  read : Nat → TReader P α
  /-- The lengths in the value are within the limits of the protocol. -/
  fits : α → Prop
  image : ∀ a, fits a → ∃ d, Image P.limits d ttype (write a)
  reads : ∀ a, fits a → ∀ fuel, ReadsWithin fuel (read fuel) (write a) a
  safe : ∀ fuel s, P.remaining s < fuel → SafeOn (read fuel) s

variable {P : TProtocol} {α β γ κ ν : Type}

namespace Codec

/-! ## Scalars -/

def bool (P : TProtocol) : Codec P Bool where
  ttype := .bool
  write b := [.bool b]
  read _ := P.readBool
  fits _ := True
  image b _ := ⟨1, .bool 0 b⟩
  reads b _ fuel := (P.takes_bool b).reads P.steady_bool fuel
  safe _ s _ := P.steady_bool s

def i8 (P : TProtocol) : Codec P Int8 where
  ttype := .i08
  write v := [.i8 v]
  read _ := P.readI8
  fits _ := True
  image v _ := ⟨1, .i8 0 v⟩
  reads v _ fuel := (P.takes_i8 v).reads P.steady_i8 fuel
  safe _ s _ := P.steady_i8 s

def i32 (P : TProtocol) : Codec P Int32 where
  ttype := .i32
  write v := [.i32 v]
  read _ := P.readI32
  fits _ := True
  image v _ := ⟨1, .i32 0 v⟩
  reads v _ fuel := (P.takes_i32 v).reads P.steady_i32 fuel
  safe _ s _ := P.steady_i32 s

def i64 (P : TProtocol) : Codec P Int64 where
  ttype := .i64
  write v := [.i64 v]
  read _ := P.readI64
  fits _ := True
  image v _ := ⟨1, .i64 0 v⟩
  reads v _ fuel := (P.takes_i64 v).reads P.steady_i64 fuel
  safe _ s _ := P.steady_i64 s

def string (P : TProtocol) : Codec P String where
  ttype := .string
  write s := [.string s]
  read _ := P.readString
  fits s := (asBytes s).length < P.limits.string
  image _ h := ⟨1, .string 0 h⟩
  reads s _ fuel := (P.takes_string s).reads P.steady_string fuel
  safe _ s _ := P.steady_string s

def bytes (P : TProtocol) : Codec P (List UInt8) where
  ttype := .string
  write b := [.bytes b]
  read _ := P.readBytes
  fits b := b.length < P.limits.string
  image _ h := ⟨1, .bytes 0 h⟩
  reads b _ fuel := (P.takes_bytes b).reads P.steady_bytes fuel
  safe _ s _ := P.steady_bytes s

/-! ## Lists -/

/-- `Vec::with_capacity(size as usize)`: a negative `i32` becomes a `usize` no allocation reaches. -/
def withCapacity (size : Int32) : Outcome TError Unit :=
  if size < 0 then .error (.panic "capacity overflow") else pure ()

def readTimes (m : TReader P α) : Nat → TReader P (List α)
  | 0 => pure []
  | n + 1 => do
      let a ← m
      let as ← readTimes m n
      pure (a :: as)

def readList (element : TReader P α) : TReader P (List α) := do
  let size ← P.readListBegin
  Program.ofOutcome (withCapacity size)
  let values ← readTimes element size.toInt.toNat
  P.readListEnd
  pure values

theorem reads_readTimes {bound : Nat} {m : TReader P α} {write : α → List Emit} (l : List α)
    (h : ∀ a ∈ l, ReadsWithin bound m (write a) a) :
    ReadsWithin bound (readTimes m l.length) ((l.map write).flatMap (· ++ [.listEnd])) l := by
  induction l with
  | nil => exact ReadsWithin.pure bound []
  | cons a as ih =>
      rw [List.forall_mem_cons] at h
      have hrest := ih h.2
      have hall : ReadsWithin bound (readTimes m (as.length + 1))
          (write a ++ (.listEnd :: (as.map write).flatMap (· ++ [.listEnd]))) (a :: as) := by
        rw [readTimes]
        apply h.1.bind
        -- The end of the element is not in the input: what follows is the next element.
        have hnext : ReadsWithin bound (readTimes m as.length)
            (.listEnd :: (as.map write).flatMap (· ++ [.listEnd])) as :=
          fun s rest hs ↦ hrest s rest (P.holds_listEnd hs)
        exact hnext.bind_silent (ReadsWithin.pure bound (a :: as))
      simpa using hall

theorem safeOn_readTimes {m : TReader P α} {fuel : Nat}
    (h : ∀ s, P.remaining s < fuel → SafeOn m s) (n : Nat) (s : P.σ) (hs : P.remaining s < fuel) :
    SafeOn (readTimes m n) s := by
  induction n generalizing s with
  | zero => exact SafeOn.pure [] s
  | succ n ih =>
      rw [readTimes]
      refine (h s hs).bind fun a s₁ _ hle₁ ↦ ?_
      refine (ih s₁ (by omega)).bind fun as s₂ _ _ ↦ ?_
      exact SafeOn.pure (a :: as) s₂

theorem reads_readList {bound : Nat} {m : TReader P α} {write : α → List Emit} {l : List α}
    (element : TType) (hlen : l.length < P.limits.container)
    (h : ∀ a ∈ l, ReadsWithin bound m (write a) a) :
    ReadsWithin bound (readList m) (listEmits element (l.map write)) l := by
  have hcap : l.length < 2 ^ 31 := Nat.lt_of_lt_of_le hlen P.limits.container_le
  have hread : ReadsWithin bound (readList m) ([.listBegin element (usizeAsI32 l.length)] ++
      (l.map write).flatMap (· ++ [.listEnd])) l := by
    rw [readList]
    apply ((P.takes_listBegin element _).reads P.steady_listBegin bound).bind
    rw [withCapacity, if_neg (usizeAsI32_nonneg hcap), usizeAsI32_toNat hcap]
    apply (ReadsWithin.ofOutcome bound rfl).silent_bind
    apply (reads_readTimes l h).bind_silent
    exact (P.takes_listEnd.reads P.steady_listEnd bound).bind_silent (ReadsWithin.pure bound l)
  simpa [listEmits] using hread

theorem safeOn_readList {m : TReader P α} {fuel : Nat}
    (h : ∀ s, P.remaining s < fuel → SafeOn m s) (s : P.σ) (hs : P.remaining s < fuel) :
    SafeOn (readList m) s := by
  rw [readList]
  refine SafeOn.bind (P.steady_listBegin s) fun size s₁ hbegin hle₁ ↦ ?_
  have hcap : withCapacity size = pure () := by
    rw [withCapacity, if_neg]
    have hnonneg := P.nonneg_listBegin hbegin
    rw [Int32.lt_iff_toInt_lt]
    rw [Int32.le_iff_toInt_le] at hnonneg
    omega
  rw [hcap]
  refine SafeOn.bind (SafeOn.ofOutcome (noPanic_ok ()) s₁) fun _ s₂ _ hle₂ ↦ ?_
  refine (safeOn_readTimes h _ s₂ (by omega)).bind fun values s₃ _ _ ↦ ?_
  refine SafeOn.bind (P.steady_listEnd s₃) fun _ s₄ _ _ ↦ ?_
  exact SafeOn.pure values s₄

def list (c : Codec P α) : Codec P (List α) where
  ttype := .list
  write l := listEmits c.ttype (l.map c.write)
  read fuel := readList (c.read fuel)
  fits l := l.length < P.limits.container ∧ ∀ a ∈ l, c.fits a
  image l h := by
    obtain ⟨d, hd⟩ := Image.common (t := fun _ ↦ c.ttype) fun a ha ↦ c.image a (h.2 a ha)
    refine ⟨d + 1, .list c.ttype (by simpa using h.1) ?_⟩
    intro v hv
    obtain ⟨a, ha, rfl⟩ := List.mem_map.mp hv
    exact hd a ha
  reads l h fuel := reads_readList c.ttype h.1 fun a ha ↦ c.reads a (h.2 a ha) fuel
  safe fuel s hs := safeOn_readList (c.safe fuel) s hs

/-! ## Maps -/

section

variable [LinearOrder κ]

def readEntries (key : TReader P κ) (value : TReader P β) :
    Nat → BTreeMap κ β → TReader P (BTreeMap κ β)
  | 0, m => pure m
  | n + 1, m => do
      let k ← key
      let v ← value
      readEntries key value n (m.insert k v)

def readMap (key : TReader P κ) (value : TReader P β) : TReader P (BTreeMap κ β) := do
  let size ← P.readMapBegin
  let m ← readEntries key value size.toInt.toNat .empty
  P.readMapEnd
  pure m

theorem reads_readEntries {bound : Nat} {key : TReader P κ} {value : TReader P β}
    {writeKey : κ → List Emit} {writeValue : β → List Emit} (m : BTreeMap κ β)
    (h : ∀ e ∈ m.entries, ReadsWithin bound key (writeKey e.1) e.1 ∧
      ReadsWithin bound value (writeValue e.2) e.2)
    (front back : List (κ × β)) (hm : m.entries = front ++ back) (m' : BTreeMap κ β)
    (hm' : m'.entries = front) :
    ReadsWithin bound (readEntries key value back.length m')
      (back.flatMap fun e ↦ writeKey e.1 ++ writeValue e.2 ++ [.mapEnd]) m := by
  induction back generalizing front m' with
  | nil =>
      obtain rfl : m' = m := BTreeMap.ext_entries (by rw [hm', hm, List.append_nil])
      exact ReadsWithin.pure bound m'
  | cons e back ih =>
      obtain ⟨hkey, hvalue⟩ := h e (by simp [hm])
      have hrest := ih (front ++ [e]) (by simpa using hm) (m'.insert e.1 e.2)
        (BTreeMap.insert_entries hm hm')
      have hall : ReadsWithin bound (readEntries key value (back.length + 1) m')
          (writeKey e.1 ++ (writeValue e.2 ++
            (.mapEnd :: back.flatMap fun e ↦ writeKey e.1 ++ writeValue e.2 ++ [.mapEnd]))) m := by
        rw [readEntries]
        apply hkey.bind
        apply hvalue.bind
        exact fun s rest hs ↦ hrest s rest (P.holds_mapEnd hs)
      simpa using hall

theorem safeOn_readEntries {key : TReader P κ} {value : TReader P β} {fuel : Nat}
    (hkey : ∀ s, P.remaining s < fuel → SafeOn key s)
    (hvalue : ∀ s, P.remaining s < fuel → SafeOn value s) (n : Nat) (m : BTreeMap κ β) (s : P.σ)
    (hs : P.remaining s < fuel) : SafeOn (readEntries key value n m) s := by
  induction n generalizing m s with
  | zero => exact SafeOn.pure m s
  | succ n ih =>
      rw [readEntries]
      refine (hkey s hs).bind fun k s₁ _ hle₁ ↦ ?_
      refine (hvalue s₁ (by omega)).bind fun v s₂ _ hle₂ ↦ ?_
      exact ih (m.insert k v) s₂ (by omega)

theorem reads_readMap {bound : Nat} {key : TReader P κ} {value : TReader P β}
    {writeKey : κ → List Emit} {writeValue : β → List Emit} {m : BTreeMap κ β}
    (keyType valueType : TType) (hlen : m.entries.length < P.limits.container)
    (h : ∀ e ∈ m.entries, ReadsWithin bound key (writeKey e.1) e.1 ∧
      ReadsWithin bound value (writeValue e.2) e.2) :
    ReadsWithin bound (readMap key value)
      (mapEmits keyType valueType (m.entries.map fun e ↦ (writeKey e.1, writeValue e.2))) m := by
  have hcap : m.entries.length < 2 ^ 31 := Nat.lt_of_lt_of_le hlen P.limits.container_le
  have hread : ReadsWithin bound (readMap key value)
      ([.mapBegin keyType valueType (usizeAsI32 m.entries.length)] ++
        m.entries.flatMap fun e ↦ writeKey e.1 ++ writeValue e.2 ++ [.mapEnd]) m := by
    rw [readMap]
    apply ((P.takes_mapBegin keyType valueType _).reads P.steady_mapBegin bound).bind
    rw [usizeAsI32_toNat hcap]
    apply (reads_readEntries m h [] m.entries rfl .empty rfl).bind_silent
    exact (P.takes_mapEnd.reads P.steady_mapEnd bound).bind_silent (ReadsWithin.pure bound m)
  simpa [mapEmits, List.flatMap_map] using hread

theorem safeOn_readMap {key : TReader P κ} {value : TReader P β} {fuel : Nat}
    (hkey : ∀ s, P.remaining s < fuel → SafeOn key s)
    (hvalue : ∀ s, P.remaining s < fuel → SafeOn value s) (s : P.σ) (hs : P.remaining s < fuel) :
    SafeOn (readMap key value) s := by
  rw [readMap]
  refine SafeOn.bind (P.steady_mapBegin s) fun size s₁ _ hle₁ ↦ ?_
  refine (safeOn_readEntries hkey hvalue _ _ s₁ (by omega)).bind fun m s₂ _ _ ↦ ?_
  refine SafeOn.bind (P.steady_mapEnd s₂) fun _ s₃ _ _ ↦ ?_
  exact SafeOn.pure m s₃

def map (c : Codec P κ) (c' : Codec P β) : Codec P (BTreeMap κ β) where
  ttype := .map
  write m := mapEmits c.ttype c'.ttype (m.entries.map fun e ↦ (c.write e.1, c'.write e.2))
  read fuel := readMap (c.read fuel) (c'.read fuel)
  fits m := m.entries.length < P.limits.container ∧ ∀ e ∈ m.entries, c.fits e.1 ∧ c'.fits e.2
  image m h := by
    obtain ⟨d, hd⟩ := Image.common (t := fun _ ↦ c.ttype) fun e he ↦ c.image _ (h.2 e he).1
    obtain ⟨d', hd'⟩ := Image.common (t := fun _ ↦ c'.ttype) fun e he ↦ c'.image _ (h.2 e he).2
    refine ⟨max d d' + 1, .map c.ttype c'.ttype (by simpa using h.1) ?_ ?_⟩
    · intro e he
      obtain ⟨e', he', rfl⟩ := List.mem_map.mp he
      exact (hd e' he').mono (by omega)
    · intro e he
      obtain ⟨e', he', rfl⟩ := List.mem_map.mp he
      exact (hd' e' he').mono (by omega)
  reads m h fuel := by
    apply reads_readMap c.ttype c'.ttype h.1
    intro e he
    obtain ⟨hk, hv⟩ := h.2 e he
    exact ⟨c.reads e.1 hk fuel, c'.reads e.2 hv fuel⟩
  safe fuel s hs := safeOn_readMap (c.safe fuel) (c'.safe fuel) s hs

end

/-! ## Other types -/

/-- A type that is read and written as another one; reading may reject. -/
def via (c : Codec P α) (accept : α → Outcome TError β) (back : β → α)
    (hback : ∀ b, accept (back b) = .ok b) (hpanic : ∀ a, NoPanic (accept a)) : Codec P β where
  ttype := c.ttype
  write b := c.write (back b)
  read fuel := do
    let a ← c.read fuel
    Program.ofOutcome (accept a)
  fits b := c.fits (back b)
  image b h := c.image (back b) h
  reads b h fuel := (c.reads (back b) h fuel).bind_silent (ReadsWithin.ofOutcome fuel (hback b))
  safe fuel s hs := (c.safe fuel s hs).bind fun a s' _ _ ↦ SafeOn.ofOutcome (hpanic a) s'

end Codec

end IotdbClient.Library
