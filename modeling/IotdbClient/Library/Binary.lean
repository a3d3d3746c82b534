import IotdbClient.Library.Tagged

/-!
# A binary encoding

The strict binary encoding over length-prefixed frames, as an instance of `TProtocol`: fixed-width
big-endian numbers, strings behind their length, one type byte and a 16-bit id before every field.
Every law of a protocol holds of it.
-/

namespace IotdbClient.Library.Binary

open Program

/-! ## Writing -/

def i16ToBeBytes (v : Int16) : List UInt8 := beBytes 2 v.toBitVec.toNat

def i16FromBeBytes (bytes : List UInt8) : Int16 := .ofBitVec (.ofNat 16 (beNat bytes))

def typeCode : TType → UInt8
  | .stop => 0
  | .bool => 2
  | .i08 => 3
  | .double => 4
  | .i16 => 6
  | .i32 => 8
  | .i64 => 10
  | .string => 11
  | .struct => 12
  | .map => 13
  | .set => 14
  | .list => 15

def messageCode : TMessageType → UInt8
  | .call => 1
  | .reply => 2
  | .exception => 3
  | .oneway => 4

def errorCode : ApplicationErrorKind → Int32
  | .unknown => 0
  | .unknownMethod => 1
  | .invalidMessageType => 2
  | .wrongMethodName => 3
  | .badSequenceId => 4
  | .missingResult => 5

def encodeBytes (b : List UInt8) : List UInt8 := i32ToBeBytes (usizeAsI32 b.length) ++ b

def encodeField (ttype : TType) (id : Int16) : List UInt8 := typeCode ttype :: i16ToBeBytes id

def encode : Emit → List UInt8
  | .messageBegin ident =>
      [0x80, 0x01, 0, messageCode ident.messageType] ++
        (encodeBytes (asBytes ident.name) ++ i32ToBeBytes ident.sequenceNumber)
  | .fieldBegin _ ttype id => encodeField ttype id
  | .fieldStop => [0]
  | .listBegin element size | .setBegin element size => typeCode element :: i32ToBeBytes size
  | .mapBegin key value size => typeCode key :: typeCode value :: i32ToBeBytes size
  | .bool b => [if b then 1 else 0]
  | .i8 v => [v.toUInt8]
  | .i16 v => i16ToBeBytes v
  | .i32 v => i32ToBeBytes v
  | .i64 v => i64ToBeBytes v
  | .double bits => f64ToBeBytes bits
  | .string s => encodeBytes (asBytes s)
  | .bytes b => encodeBytes b
  -- A struct with the message as field 1 and the kind as field 2.
  | .applicationError e =>
      encodeField .string 1 ++ (encodeBytes (asBytes e.message) ++
        (encodeField .i32 2 ++ (i32ToBeBytes (errorCode e.kind) ++ [0])))
  | .messageEnd | .structBegin _ | .structEnd | .fieldEnd | .listEnd | .setEnd | .mapEnd => []

/-- The length of a string fits its field, and a size is one. -/
def Short : Emit → Prop
  | .messageBegin ident => (asBytes ident.name).length < 2 ^ 31
  | .string s => (asBytes s).length < 2 ^ 31
  | .bytes b => b.length < 2 ^ 31
  | .applicationError e => (asBytes e.message).length < 2 ^ 31
  | .listBegin _ size | .setBegin _ size => ¬size < 0
  | _ => True

/-! ## Reading -/

abbrev ReadM (α : Type) := Program (List UInt8) TError α

def takeBytes (n : Nat) : ReadM (List UInt8) := fun s ↦
  if n ≤ s.length then (.ok (s.take n), s.drop n)
  else (.error (.error (.transport "end of file")), s)

def byte : ReadM UInt8
  | [] => (.error (.error (.transport "end of file")), [])
  | b :: rest => (.ok b, rest)

def typeOfCode : UInt8 → Outcome TError TType
  | 0 => pure .stop
  | 2 => pure .bool
  | 3 => pure .i08
  | 4 => pure .double
  | 6 => pure .i16
  | 8 => pure .i32
  | 10 => pure .i64
  | 11 => pure .string
  | 12 => pure .struct
  | 13 => pure .map
  | 14 => pure .set
  | 15 => pure .list
  | _ => fail (.protocol .invalidData "cannot convert to a type")

def readType : ReadM TType := do
  let code ← byte
  ofOutcome (typeOfCode code)

def readI16 : ReadM Int16 := do
  let bytes ← takeBytes 2
  pure (i16FromBeBytes bytes)

def readI32 : ReadM Int32 := do
  let bytes ← takeBytes 4
  pure (i32FromBeBytes bytes)

def readI64 : ReadM Int64 := do
  let bytes ← takeBytes 8
  pure (i64FromBeBytes bytes)

def readDouble : ReadM UInt64 := do
  let bytes ← takeBytes 8
  pure (i64FromBeBytes bytes).toUInt64

def readBool : ReadM Bool := do
  let b ← byte
  pure (b != 0)

def readI8 : ReadM Int8 := do
  let b ← byte
  pure b.toInt8

/-- A length or a size, which is never negative. -/
def readSize : ReadM Int32 := do
  let size ← readI32
  if size < 0 then raise (.protocol .negativeSize "negative size") else pure size

def readBytes : ReadM (List UInt8) := do
  let size ← readSize
  takeBytes size.toInt.toNat

/-- Bytes as text. -/
def decodeText (bytes : List UInt8) : Outcome TError String :=
  match fromUtf8 bytes with
  | some s => pure s
  | none => fail (.protocol .invalidData "invalid utf-8")

def readString : ReadM String := do
  let bytes ← readBytes
  ofOutcome (decodeText bytes)

def readFieldBegin : ReadM TFieldIdentifier := do
  let ttype ← readType
  if ttype = .stop then pure ⟨.stop, some 0⟩
  else do
    let id ← readI16
    pure ⟨ttype, some id⟩

def readMessageType : UInt8 → Outcome TError TMessageType
  | 1 => pure .call
  | 2 => pure .reply
  | 3 => pure .exception
  | 4 => pure .oneway
  | _ => fail (.protocol .invalidData "cannot convert to a message type")

def readMessageBegin : ReadM TMessageIdentifier := do
  let high ← byte
  let low ← byte
  let _ ← byte
  let code ← byte
  if high = 0x80 ∧ low = 0x01 then do
    let messageType ← ofOutcome (readMessageType code)
    let name ← readString
    let sequenceNumber ← readI32
    pure ⟨name, messageType, sequenceNumber⟩
  else raise (.protocol .badVersion "bad version")

def readListHeader : ReadM (TType × Int32) := do
  let element ← readType
  let size ← readSize
  pure (element, size)

def readMapHeader : ReadM (TType × TType × Int32) := do
  let key ← readType
  let value ← readType
  let size ← readI32
  pure (key, value, size)

def readErrorKind (code : Int32) : Outcome TError ApplicationErrorKind :=
  if code = 0 then pure .unknown
  else if code = 1 then pure .unknownMethod
  else if code = 2 then pure .invalidMessageType
  else if code = 3 then pure .wrongMethodName
  else if code = 4 then pure .badSequenceId
  else if code = 5 then pure .missingResult
  else fail (.application ⟨.unknown, "cannot convert to an error kind"⟩)

/-- The two fields in the order in which they are written. -/
def readApplicationError : ReadM ApplicationError := do
  let _ ← readFieldBegin
  let message ← readString
  let _ ← readFieldBegin
  let code ← readI32
  let kind ← ofOutcome (readErrorKind code)
  let _ ← readFieldBegin
  pure ⟨kind, message⟩

/-! ## Skipping -/

/-- The fields of a struct up to the stop field; `fuel` bounds their number. -/
def skipFields (skip : TType → ReadM Unit) : Nat → ReadM Unit
  | 0 => throw (.panic "out of fuel")
  | fuel + 1 => do
      let ident ← readFieldBegin
      if ident.fieldType = .stop then pure ()
      else do
        skip ident.fieldType
        skipFields skip fuel

def skipTimes (m : ReadM Unit) : Nat → ReadM Unit
  | 0 => pure ()
  | n + 1 => do
      m
      skipTimes m n

def skipTillDepth : Nat → TType → ReadM Unit
  | 0, _ => raise (.protocol .depthLimit "cannot parse past the depth limit")
  | _ + 1, .stop => raise (.protocol .unknown "cannot skip the stop field")
  | _ + 1, .bool => do let _ ← readBool
  | _ + 1, .i08 => do let _ ← readI8
  | _ + 1, .i16 => do let _ ← readI16
  | _ + 1, .i32 => do let _ ← readI32
  | _ + 1, .i64 => do let _ ← readI64
  | _ + 1, .double => do let _ ← readDouble
  | _ + 1, .string => do let _ ← readString
  | d + 1, .struct => fun s ↦ skipFields (skipTillDepth d) (s.length + 1) s
  | d + 1, .list | d + 1, .set => do
      let header ← readListHeader
      skipTimes (skipTillDepth d header.1) header.2.toInt.toNat
  | d + 1, .map => do
      let header ← readMapHeader
      skipTimes
        (do
          skipTillDepth d header.1
          skipTillDepth d header.2.1)
        header.2.2.toInt.toNat

/-! ## Exact reads

`Eats m bytes a`: before these bytes `m` reads exactly them and returns `a`. -/

variable {α β : Type}

def Eats (m : ReadM α) (bytes : List UInt8) (a : α) : Prop :=
  ∀ post, m (bytes ++ post) = (.ok a, post)

theorem Eats.pure (a : α) : Eats (pure a) [] a := fun _ ↦ rfl

theorem Eats.bind {m : ReadM α} {f : α → ReadM β} {front back : List UInt8} {a : α} {b : β}
    (hm : Eats m front a) (hf : Eats (f a) back b) : Eats (m >>= f) (front ++ back) b := by
  intro post
  rw [bind_apply, List.append_assoc, hm]
  exact hf post

/-- A last step that reads nothing. -/
theorem Eats.bind_silent {m : ReadM α} {f : α → ReadM β} {bytes : List UInt8} {a : α} {b : β}
    (hm : Eats m bytes a) (hf : Eats (f a) [] b) : Eats (m >>= f) bytes b := by
  have h := hm.bind hf
  rwa [List.append_nil] at h

theorem Eats.ofOutcome {o : Outcome TError α} {a : α} (h : o = .ok a) :
    Eats (ofOutcome o : ReadM α) [] a := by
  intro post
  rw [ofOutcome_apply, h]
  rfl

theorem eats_takeBytes {n : Nat} {bytes : List UInt8} (h : bytes.length = n) :
    Eats (takeBytes n) bytes bytes := by
  intro post
  subst h
  rw [takeBytes, if_pos (by rw [List.length_append]; omega), List.take_left, List.drop_left]

theorem eats_byte (b : UInt8) : Eats byte [b] b := fun _ ↦ rfl

theorem eats_readType (ttype : TType) : Eats readType [typeCode ttype] ttype := by
  have htype : typeOfCode (typeCode ttype) = .ok ttype := by
    cases ttype <;> rfl
  exact (eats_byte (typeCode ttype)).bind_silent (Eats.ofOutcome htype)

theorem i16FromBeBytes_toBeBytes (v : Int16) : i16FromBeBytes (i16ToBeBytes v) = v := by
  have h := v.toBitVec.isLt
  rw [i16FromBeBytes, i16ToBeBytes, beNat_beBytes_of_lt (by omega), BitVec.ofNat_toNat,
    BitVec.setWidth_eq, Int16.ofBitVec_toBitVec]

theorem eats_readI16 (v : Int16) : Eats readI16 (i16ToBeBytes v) v := by
  have hlen : (i16ToBeBytes v).length = 2 := beBytes_length ..
  apply (eats_takeBytes hlen).bind_silent
  rw [i16FromBeBytes_toBeBytes]
  exact Eats.pure v

theorem eats_readI32 (v : Int32) : Eats readI32 (i32ToBeBytes v) v := by
  apply (eats_takeBytes (i32ToBeBytes_length v)).bind_silent
  rw [i32FromBeBytes_toBeBytes]
  exact Eats.pure v

theorem eats_readI64 (v : Int64) : Eats readI64 (i64ToBeBytes v) v := by
  apply (eats_takeBytes (i64ToBeBytes_length v)).bind_silent
  rw [i64FromBeBytes_toBeBytes]
  exact Eats.pure v

theorem eats_readDouble (bits : UInt64) : Eats readDouble (f64ToBeBytes bits) bits := by
  apply (eats_takeBytes (f64ToBeBytes_length bits)).bind_silent
  rw [i64FromBeBytes_f64ToBeBytes]
  exact Eats.pure bits

theorem eats_readBool (b : Bool) : Eats readBool (encode (.bool b)) b := by
  apply (eats_byte _).bind_silent
  cases b <;> exact Eats.pure _

theorem eats_readI8 (v : Int8) : Eats readI8 [v.toUInt8] v := by
  apply (eats_byte _).bind_silent
  exact Eats.pure v

theorem eats_readSize {size : Int32} (h : ¬size < 0) : Eats readSize (i32ToBeBytes size) size := by
  apply (eats_readI32 size).bind_silent
  rw [if_neg h]
  exact Eats.pure size

theorem eats_readBytes {b : List UInt8} (h : b.length < 2 ^ 31) :
    Eats readBytes (encodeBytes b) b := by
  apply (eats_readSize (usizeAsI32_nonneg h)).bind
  rw [usizeAsI32_toNat h]
  exact eats_takeBytes rfl

theorem eats_readString_of_utf8 {b : List UInt8} {s : String} (h : b.length < 2 ^ 31)
    (htext : fromUtf8 b = some s) : Eats readString (encodeBytes b) s := by
  apply (eats_readBytes h).bind_silent
  apply Eats.ofOutcome
  rw [decodeText, htext]
  rfl

theorem eats_readString {s : String} (h : (asBytes s).length < 2 ^ 31) :
    Eats readString (encodeBytes (asBytes s)) s :=
  eats_readString_of_utf8 h (fromUtf8_asBytes s)

theorem eats_readFieldBegin {ttype : TType} (h : ttype ≠ .stop) (id : Int16) :
    Eats readFieldBegin (encodeField ttype id) ⟨ttype, some id⟩ := by
  have hread : Eats readFieldBegin ([typeCode ttype] ++ i16ToBeBytes id) ⟨ttype, some id⟩ := by
    apply (eats_readType ttype).bind
    rw [if_neg h]
    exact (eats_readI16 id).bind_silent (Eats.pure _)
  exact hread

theorem eats_readFieldStop : Eats readFieldBegin [0] ⟨.stop, some 0⟩ := by
  apply (eats_readType .stop).bind_silent
  rw [if_pos rfl]
  exact Eats.pure _

theorem eats_readMessageBegin {ident : TMessageIdentifier} (h : Short (.messageBegin ident)) :
    Eats readMessageBegin (encode (.messageBegin ident)) ident := by
  have htype : readMessageType (messageCode ident.messageType) = .ok ident.messageType := by
    cases ident.messageType <;> rfl
  have hread : Eats readMessageBegin ([0x80] ++ ([0x01] ++ ([0] ++ ([messageCode ident.messageType] ++
      (encodeBytes (asBytes ident.name) ++ i32ToBeBytes ident.sequenceNumber))))) ident := by
    apply (eats_byte _).bind
    apply (eats_byte _).bind
    apply (eats_byte _).bind
    apply (eats_byte _).bind
    rw [if_pos ⟨rfl, rfl⟩, htype]
    apply (Eats.ofOutcome rfl).bind
    apply (eats_readString h).bind
    exact (eats_readI32 _).bind_silent (Eats.pure _)
  exact hread

theorem eats_readListHeader (element : TType) {size : Int32} (h : ¬size < 0) :
    Eats readListHeader (typeCode element :: i32ToBeBytes size) (element, size) := by
  have hread : Eats readListHeader ([typeCode element] ++ i32ToBeBytes size) (element, size) :=
    (eats_readType element).bind ((eats_readSize h).bind_silent (Eats.pure _))
  exact hread

theorem eats_readMapHeader (key value : TType) (size : Int32) :
    Eats readMapHeader (typeCode key :: typeCode value :: i32ToBeBytes size) (key, value, size) := by
  have hread : Eats readMapHeader ([typeCode key] ++ ([typeCode value] ++ i32ToBeBytes size))
      (key, value, size) :=
    (eats_readType key).bind
      ((eats_readType value).bind ((eats_readI32 size).bind_silent (Eats.pure _)))
  exact hread

theorem eats_readApplicationError {e : ApplicationError} (h : Short (.applicationError e)) :
    Eats readApplicationError (encode (.applicationError e)) e := by
  have hkind : readErrorKind (errorCode e.kind) = .ok e.kind := by
    cases e.kind <;> decide
  apply (eats_readFieldBegin (by simp) 1).bind
  apply (eats_readString h).bind
  apply (eats_readFieldBegin (by simp) 2).bind
  apply (eats_readI32 _).bind
  rw [hkind]
  apply (Eats.ofOutcome rfl).bind
  exact eats_readFieldStop.bind_silent (Eats.pure e)

/-! ## The state of a reader -/

/-- The unread bytes are the encoding of these calls. -/
def Holds (s : List UInt8) (es : List Emit) : Prop :=
  (∀ e ∈ es, Short e) ∧ s = es.flatMap encode

theorem Eats.takes {m : ReadM α} {e : Emit} {a : α} (h : Short e → Eats m (encode e) a) :
    Takes Holds m [e] a := by
  rintro s rest ⟨hshort, rfl⟩
  rw [List.singleton_append, List.forall_mem_cons] at hshort
  refine ⟨rest.flatMap encode, ?_, hshort.2, rfl⟩
  rw [List.flatMap_append, List.flatMap_singleton]
  exact h hshort.1 _

/-- A call that writes nothing. -/
theorem holds_empty {s : List UInt8} {e : Emit} {es : List Emit} (he : encode e = [])
    (h : Holds s (e :: es)) : Holds s es := by
  obtain ⟨hshort, rfl⟩ := h
  rw [List.forall_mem_cons] at hshort
  exact ⟨hshort.2, by rw [List.flatMap_cons, he, List.nil_append]⟩

theorem takes_empty {e : Emit} (he : encode e = []) : Takes Holds (pure () : ReadM Unit) [e] () :=
  fun s _ hs ↦ ⟨s, rfl, holds_empty he hs⟩

theorem takes_skipTimes {m : ReadM Unit} (pieces : List (List Emit))
    (h : ∀ piece ∈ pieces, Takes Holds m piece ()) :
    Takes Holds (skipTimes m pieces.length) pieces.flatten () := by
  induction pieces with
  | nil => exact Takes.pure ()
  | cons piece rest ih =>
      rw [List.forall_mem_cons] at h
      exact h.1.bind (ih h.2)

/-! ## Safety -/

theorem steady_raise (e : TError) : Steady List.length (raise e : ReadM α) := by
  intro s
  refine ⟨?_, Nat.le_refl _⟩
  intro message heq
  cases heq

theorem steady_takeBytes (n : Nat) : Steady List.length (takeBytes n) := by
  intro s
  rw [takeBytes]
  split
  · exact ⟨noPanic_ok _, by simp⟩
  · refine ⟨?_, Nat.le_refl _⟩
    intro message heq
    cases heq

theorem steady_byte : Steady List.length byte := by
  intro s
  cases s with
  | nil =>
      refine ⟨?_, Nat.le_refl _⟩
      intro message heq
      cases heq
  | cons b rest => exact ⟨noPanic_ok b, by simp [byte]⟩

theorem noPanic_typeOfCode (code : UInt8) : NoPanic (typeOfCode code) := by
  intro message heq
  unfold typeOfCode at heq
  split at heq <;> cases heq

theorem steady_readType : Steady List.length readType :=
  steady_byte.bind fun code ↦ Steady.ofOutcome (noPanic_typeOfCode code)

theorem steady_readI16 : Steady List.length readI16 :=
  (steady_takeBytes 2).bind fun _ ↦ Steady.pure _

theorem steady_readI32 : Steady List.length readI32 :=
  (steady_takeBytes 4).bind fun _ ↦ Steady.pure _

theorem steady_readI64 : Steady List.length readI64 :=
  (steady_takeBytes 8).bind fun _ ↦ Steady.pure _

theorem steady_readDouble : Steady List.length readDouble :=
  (steady_takeBytes 8).bind fun _ ↦ Steady.pure _

theorem steady_readBool : Steady List.length readBool := steady_byte.bind fun _ ↦ Steady.pure _

theorem steady_readI8 : Steady List.length readI8 := steady_byte.bind fun _ ↦ Steady.pure _

theorem steady_readSize : Steady List.length readSize := by
  apply steady_readI32.bind
  intro size
  split
  · exact steady_raise _
  · exact Steady.pure size

theorem steady_readBytes : Steady List.length readBytes :=
  steady_readSize.bind fun _ ↦ steady_takeBytes _

theorem steady_readString : Steady List.length readString := by
  apply steady_readBytes.bind
  intro bytes
  apply Steady.ofOutcome
  intro message heq
  unfold decodeText at heq
  split at heq <;> cases heq

theorem steady_readFieldBegin : Steady List.length readFieldBegin := by
  apply steady_readType.bind
  intro ttype
  split
  · exact Steady.pure _
  · exact steady_readI16.bind fun _ ↦ Steady.pure _

theorem steady_readMessageBegin : Steady List.length readMessageBegin := by
  apply steady_byte.bind
  intro high
  apply steady_byte.bind
  intro low
  apply steady_byte.bind
  intro _
  apply steady_byte.bind
  intro code
  split
  · have htype : NoPanic (readMessageType code) := by
      intro message heq
      unfold readMessageType at heq
      split at heq <;> cases heq
    apply (Steady.ofOutcome htype).bind
    intro messageType
    apply steady_readString.bind
    intro name
    exact steady_readI32.bind fun _ ↦ Steady.pure _
  · exact steady_raise _

theorem steady_readListHeader : Steady List.length readListHeader :=
  steady_readType.bind fun _ ↦ steady_readSize.bind fun _ ↦ Steady.pure _

theorem steady_readMapHeader : Steady List.length readMapHeader :=
  steady_readType.bind fun _ ↦ steady_readType.bind fun _ ↦ steady_readI32.bind fun _ ↦ Steady.pure _

theorem steady_readApplicationError : Steady List.length readApplicationError := by
  apply steady_readFieldBegin.bind
  intro _
  apply steady_readString.bind
  intro message
  apply steady_readFieldBegin.bind
  intro _
  apply steady_readI32.bind
  intro code
  have hkind : NoPanic (readErrorKind code) := by
    intro message heq
    unfold readErrorKind at heq
    repeat' split at heq
    all_goals cases heq
  apply (Steady.ofOutcome hkind).bind
  intro kind
  exact steady_readFieldBegin.bind fun _ ↦ Steady.pure _

/-- A field header takes at least its type byte. -/
theorem shrinks_readFieldBegin {s s' : List UInt8} {ident : TFieldIdentifier}
    (h : readFieldBegin s = (.ok ident, s')) : s'.length < s.length := by
  obtain ⟨ttype, mid, htype, h⟩ := Program.bind_eq_ok h
  obtain ⟨code, mid', hbyte, htype⟩ := Program.bind_eq_ok htype
  obtain ⟨-, rfl⟩ := ofOutcome_eq_ok htype
  have hfirst : mid'.length < s.length := by
    cases s with
    | nil => cases hbyte
    | cons b rest =>
        cases hbyte
        simp
  by_cases hstop : ttype = .stop
  · rw [if_pos hstop] at h
    cases h
    exact hfirst
  · rw [if_neg hstop] at h
    obtain ⟨id, last, hid, h⟩ := Program.bind_eq_ok h
    have hle := (steady_readI16 mid').2
    rw [hid] at hle
    cases h
    exact Nat.lt_of_le_of_lt hle hfirst

/-! ## Skipping a value -/

theorem steady_skipTimes {m : ReadM Unit} (h : Steady List.length m) (n : Nat) :
    Steady List.length (skipTimes m n) := by
  induction n with
  | zero => exact Steady.pure ()
  | succ n ih => exact h.bind fun _ ↦ ih

/-- Each pass uses up a part of the input, so the passes end before the fuel does. -/
theorem safe_skipFields {skip : TType → ReadM Unit} (h : ∀ ttype, Steady List.length (skip ttype))
    (fuel : Nat) (s : List UInt8) (hfuel : s.length < fuel) :
    NoPanic (skipFields skip fuel s).1 ∧ (skipFields skip fuel s).2.length ≤ s.length := by
  induction fuel generalizing s with
  | zero => omega
  | succ fuel ih =>
      have hbegin := steady_readFieldBegin s
      rw [skipFields, bind_apply]
      rcases hrun : readFieldBegin s with ⟨fault | ident, mid⟩ <;> rw [hrun] at hbegin
      · refine ⟨?_, hbegin.2⟩
        intro message heq
        cases heq
        exact hbegin.1 message rfl
      · have hless := shrinks_readFieldBegin hrun
        by_cases hstop : ident.fieldType = .stop
        · simp only [if_pos hstop, pure_apply]
          exact ⟨noPanic_ok (), hless.le⟩
        · simp only [if_neg hstop, bind_apply]
          have hskip := h ident.fieldType mid
          rcases hvalue : skip ident.fieldType mid with ⟨fault | u, s'⟩ <;> rw [hvalue] at hskip
          · refine ⟨?_, hskip.2.trans hless.le⟩
            intro message heq
            cases heq
            exact hskip.1 message rfl
          · have hle : s'.length ≤ mid.length := hskip.2
            have hrest := ih s' (by omega)
            exact ⟨hrest.1, hrest.2.trans (by omega)⟩

theorem steady_skipTillDepth (d : Nat) (ttype : TType) :
    Steady List.length (skipTillDepth d ttype) := by
  induction d generalizing ttype with
  | zero => exact steady_raise _
  | succ d ih =>
      cases ttype with
      | stop => exact steady_raise _
      | bool => exact steady_readBool.bind fun _ ↦ Steady.pure ()
      | i08 => exact steady_readI8.bind fun _ ↦ Steady.pure ()
      | i16 => exact steady_readI16.bind fun _ ↦ Steady.pure ()
      | i32 => exact steady_readI32.bind fun _ ↦ Steady.pure ()
      | i64 => exact steady_readI64.bind fun _ ↦ Steady.pure ()
      | double => exact steady_readDouble.bind fun _ ↦ Steady.pure ()
      | string => exact steady_readString.bind fun _ ↦ Steady.pure ()
      | struct => exact fun s ↦ safe_skipFields ih (s.length + 1) s (Nat.lt_succ_self _)
      | list => exact steady_readListHeader.bind fun _ ↦ steady_skipTimes (ih _) _
      | set => exact steady_readListHeader.bind fun _ ↦ steady_skipTimes (ih _) _
      | map =>
          apply steady_readMapHeader.bind
          intro header
          exact steady_skipTimes ((ih _).bind fun _ ↦ ih _) _

/-- A field that is skipped field by field, where every value can be. -/
theorem takes_skipFields {skip : TType → ReadM Unit} (hsteady : ∀ ttype, Steady List.length (skip ttype))
    {ws : List Written} (htype : ∀ w ∈ ws, w.ttype ≠ .stop)
    (h : ∀ w ∈ ws, Takes Holds (skip w.ttype) w.value ()) (fuel : Nat) (s : List UInt8)
    (rest : List Emit) (hs : Holds s (ws.flatMap Written.emits ++ (.fieldStop :: rest)))
    (hfuel : s.length < fuel) : ∃ s', skipFields skip fuel s = (.ok (), s') ∧ Holds s' rest := by
  induction ws generalizing fuel s with
  | nil =>
      cases fuel with
      | zero => omega
      | succ fuel =>
          obtain ⟨s', hs', hholds⟩ :=
            (Eats.takes (e := .fieldStop) fun _ ↦ eats_readFieldStop) s rest hs
          refine ⟨s', ?_, hholds⟩
          rw [skipFields, bind_apply, hs']
          rfl
  | cons w ws ih =>
      rw [List.forall_mem_cons] at htype h
      cases fuel with
      | zero => omega
      | succ fuel =>
          have hcalls : (w :: ws).flatMap Written.emits ++ (.fieldStop :: rest) =
              [.fieldBegin w.name w.ttype w.id] ++ (w.value ++
                (.fieldEnd :: (ws.flatMap Written.emits ++ (.fieldStop :: rest)))) := by
            simp [Written.emits]
          rw [hcalls] at hs
          obtain ⟨mid, hmid, hholds⟩ :=
            (Eats.takes (e := .fieldBegin w.name w.ttype w.id)
              fun _ ↦ eats_readFieldBegin htype.1 w.id) s _ hs
          have hless := shrinks_readFieldBegin hmid
          obtain ⟨mid', hmid', hholds'⟩ := h.1 mid _ hholds
          have hle := (hsteady w.ttype mid).2
          rw [hmid'] at hle
          obtain ⟨s', hs', hrest⟩ := ih htype.2 h.2 fuel mid' (holds_empty rfl hholds') (by
            simp only at hle
            omega)
          refine ⟨s', ?_, hrest⟩
          rw [skipFields, bind_apply, hmid]
          simp only [if_neg htype.1, bind_apply, hmid']
          exact hs'

theorem allText_sub {es es' : List Emit} (h : AllText es) (hsub : ∀ e ∈ es', e ∈ es) : AllText es' :=
  fun b hb ↦ h b (hsub _ hb)

/-- Skipping a value reads exactly the value. -/
theorem takes_skipTillDepth {limits : Limits} {d : Nat} {ttype : TType} {es : List Emit}
    (h : Image limits d ttype es) (htext : AllText es) :
    Takes Holds (skipTillDepth d ttype) es () := by
  induction h with
  | bool d b => exact (Eats.takes fun _ ↦ eats_readBool b).bind (Takes.pure ())
  | i8 d v => exact (Eats.takes fun _ ↦ eats_readI8 v).bind (Takes.pure ())
  | i16 d v => exact (Eats.takes fun _ ↦ eats_readI16 v).bind (Takes.pure ())
  | i32 d v => exact (Eats.takes fun _ ↦ eats_readI32 v).bind (Takes.pure ())
  | i64 d v => exact (Eats.takes fun _ ↦ eats_readI64 v).bind (Takes.pure ())
  | double d bits => exact (Eats.takes fun _ ↦ eats_readDouble bits).bind (Takes.pure ())
  | @string d s h =>
      have hread : Takes Holds readString [.string s] s := Eats.takes fun h ↦ eats_readString h
      exact hread.bind (Takes.pure ())
  | @bytes d b h =>
      -- read as a string, which fails on bytes that are no text
      obtain ⟨s, hs⟩ := htext b (by simp)
      have hread : Takes Holds readString [.bytes b] s :=
        Eats.takes fun hshort ↦ eats_readString_of_utf8 hshort hs
      exact hread.bind (Takes.pure ())
  | @struct d name ws h ih =>
      intro s rest hs
      -- one level of the depth is used up by the struct
      have hvalues : ∀ w ∈ ws, Takes Holds (skipTillDepth d w.ttype) w.value () := by
        intro w hw
        apply ih w hw
        apply allText_sub htext
        intro e he
        simp only [structEmits, List.mem_cons, List.mem_append, List.mem_flatMap]
        exact .inr (.inl ⟨w, hw, by simp [Written.emits, he]⟩)
      rw [structEmits, List.cons_append, List.append_assoc] at hs
      obtain ⟨s', hs', hholds⟩ := takes_skipFields (steady_skipTillDepth d)
        (fun w hw ↦ (h w hw).ne_stop) hvalues (s.length + 1) s _ (holds_empty rfl hs)
        (Nat.lt_succ_self _)
      exact ⟨s', hs', holds_empty rfl hholds⟩
  | @list d element values hlen h ih =>
      have hcap : values.length < 2 ^ 31 := Nat.lt_of_lt_of_le hlen limits.container_le
      -- the end of the list is written behind each of its elements
      have hpieces : ∀ piece ∈ values.map (· ++ [Emit.listEnd]),
          Takes Holds (skipTillDepth d element) piece () := by
        intro piece hpiece
        obtain ⟨v, hv, rfl⟩ := List.mem_map.mp hpiece
        have hvalue : Takes Holds (skipTillDepth d element) v () := by
          apply ih v hv
          apply allText_sub htext
          intro e he
          simp only [listEmits, List.mem_cons, List.mem_flatMap]
          exact .inr ⟨v, hv, List.mem_append_left _ he⟩
        intro s rest hs
        rw [List.append_assoc] at hs
        obtain ⟨s', hs', hholds⟩ := hvalue s _ hs
        exact ⟨s', hs', holds_empty rfl hholds⟩
      have hbody := takes_skipTimes _ hpieces
      rw [List.length_map, ← List.flatMap_def] at hbody
      have hheader : Takes Holds readListHeader [.listBegin element (usizeAsI32 values.length)]
          (element, usizeAsI32 values.length) := Eats.takes fun h ↦ eats_readListHeader element h
      apply hheader.bind
      rw [usizeAsI32_toNat hcap]
      exact hbody
  | @set d element values hlen h ih =>
      have hcap : values.length < 2 ^ 31 := Nat.lt_of_lt_of_le hlen limits.container_le
      have hpieces : ∀ piece ∈ values, Takes Holds (skipTillDepth d element) piece () := by
        intro v hv
        apply ih v hv
        apply allText_sub htext
        intro e he
        simp only [List.mem_cons, List.mem_append, List.mem_flatMap]
        exact .inr (.inl ⟨v, hv, he⟩)
      have hbody : Takes Holds (skipTimes (skipTillDepth d element) values.length)
          (values.flatten ++ [.setEnd]) () := by
        intro s rest hs
        rw [List.append_assoc] at hs
        obtain ⟨s', hs', hholds⟩ := takes_skipTimes _ hpieces s _ hs
        exact ⟨s', hs', holds_empty rfl hholds⟩
      have hheader : Takes Holds readListHeader [.setBegin element (usizeAsI32 values.length)]
          (element, usizeAsI32 values.length) := Eats.takes fun h ↦ eats_readListHeader element h
      rw [List.flatMap_id]
      apply hheader.bind
      rw [usizeAsI32_toNat hcap]
      exact hbody
  | @map d key value entries hlen hkey hvalue ihkey ihvalue =>
      have hcap : entries.length < 2 ^ 31 := Nat.lt_of_lt_of_le hlen limits.container_le
      have hpieces : ∀ piece ∈ entries.map fun e ↦ e.1 ++ e.2 ++ [Emit.mapEnd],
          Takes Holds (do
            skipTillDepth d key
            skipTillDepth d value) piece () := by
        intro piece hpiece
        obtain ⟨entry, hentry, rfl⟩ := List.mem_map.mp hpiece
        have hmem : ∀ e ∈ entry.1 ++ entry.2, e ∈ mapEmits key value entries := by
          intro e he
          simp only [mapEmits, List.mem_cons, List.mem_flatMap]
          exact .inr ⟨entry, hentry, List.mem_append_left _ he⟩
        have hfirst : Takes Holds (skipTillDepth d key) entry.1 () :=
          ihkey entry hentry (allText_sub htext fun e he ↦ hmem e (List.mem_append_left _ he))
        have hsecond : Takes Holds (skipTillDepth d value) entry.2 () :=
          ihvalue entry hentry (allText_sub htext fun e he ↦ hmem e (List.mem_append_right _ he))
        have hboth : Takes Holds (do
            skipTillDepth d key
            skipTillDepth d value) (entry.1 ++ entry.2) () := hfirst.bind hsecond
        intro s rest hs
        rw [List.append_assoc] at hs
        obtain ⟨s', hs', hholds⟩ := hboth s _ hs
        exact ⟨s', hs', holds_empty rfl hholds⟩
      have hbody := takes_skipTimes _ hpieces
      rw [List.length_map, ← List.flatMap_def] at hbody
      have hheader : Takes Holds readMapHeader [.mapBegin key value (usizeAsI32 entries.length)]
          (key, value, usizeAsI32 entries.length) :=
        Eats.takes fun _ ↦ eats_readMapHeader key value _
      apply hheader.bind
      rw [usizeAsI32_toNat hcap]
      exact hbody

/-! ## The protocol -/

def limits : Limits where
  string := 2 ^ 31
  container := 2 ^ 31
  frame := 16384000
  string_le := Nat.le_refl _
  container_le := Nat.le_refl _

/-- A frame: the length of the message and the message. -/
def pack (es : List Emit) : List UInt8 :=
  i32ToBeBytes (usizeAsI32 (es.flatMap encode).length) ++ es.flatMap encode

/-- The bytes of a frame behind its length. -/
def feed (s frame : List UInt8) : List UInt8 := s ++ frame.drop 4

theorem feed_pack (s : List UInt8) (es : List Emit) : feed s (pack es) = s ++ es.flatMap encode := by
  rw [feed, pack, List.drop_append, List.drop_of_length_le (by simp)]
  simp

/-- The strings of a value are short, and its sizes are not negative. -/
theorem short_of_image {d : Nat} {ttype : TType} {es : List Emit} (h : Image limits d ttype es) :
    ∀ e ∈ es, Short e := by
  induction h with
  | bool d b => simp [Short]
  | i8 d v => simp [Short]
  | i16 d v => simp [Short]
  | i32 d v => simp [Short]
  | i64 d v => simp [Short]
  | double d bits => simp [Short]
  | string d h => simpa [Short, limits] using h
  | bytes d h => simpa [Short, limits] using h
  | @struct d name ws h ih =>
      intro e he
      simp only [structEmits, List.mem_cons, List.mem_append, List.mem_flatMap, Written.emits] at he
      rcases he with rfl | ⟨w, hw, rfl | he | rfl | he⟩ | rfl | rfl | he
      · trivial
      · trivial
      · exact ih w hw e he
      · trivial
      · cases he
      · trivial
      · trivial
      · cases he
  | @list d element values hlen h ih =>
      intro e he
      simp only [listEmits, List.mem_cons, List.mem_append, List.mem_flatMap] at he
      rcases he with rfl | ⟨v, hv, he | rfl | he⟩
      · exact usizeAsI32_nonneg hlen
      · exact ih v hv e he
      · trivial
      · cases he
  | @set d element values hlen h ih =>
      intro e he
      simp only [List.mem_cons, List.mem_append, List.mem_flatMap] at he
      rcases he with rfl | ⟨v, hv, he⟩ | rfl | he
      · exact usizeAsI32_nonneg hlen
      · exact ih v hv e he
      · trivial
      · cases he
  | @map d key value entries hlen hkey hvalue ihkey ihvalue =>
      intro e he
      simp only [mapEmits, List.mem_cons, List.mem_append, List.mem_flatMap] at he
      rcases he with rfl | ⟨entry, hentry, (he | he) | rfl | he⟩
      · trivial
      · exact ihkey entry hentry e he
      · exact ihvalue entry hentry e he
      · trivial
      · cases he

theorem short_of_message {es : List Emit} (h : Message limits es) : ∀ e ∈ es, Short e := by
  cases h with
  | struct hname h =>
      intro e he
      simp only [List.mem_cons, List.mem_append] at he
      rcases he with rfl | he | rfl | he
      · exact hname
      · exact short_of_image h e he
      · trivial
      · cases he
  | exception hname h =>
      intro e he
      simp only [List.mem_cons] at he
      rcases he with rfl | rfl | rfl | he
      · exact hname
      · exact h
      · trivial
      · cases he

theorem holds_feed {s : List UInt8} {es rest : List Emit} (h : Message limits es)
    (hs : Holds s rest) : Holds (feed s (pack es)) (rest ++ es) := by
  obtain ⟨hshort, rfl⟩ := hs
  refine ⟨?_, by rw [feed_pack, List.flatMap_append]⟩
  intro e he
  rcases List.mem_append.mp he with he | he
  · exact hshort e he
  · exact short_of_message h e he

/-- The size of a list, without its element type. -/
def readListBegin : ReadM Int32 := do
  let header ← readListHeader
  pure header.2

def readMapBegin : ReadM Int32 := do
  let header ← readMapHeader
  pure header.2.2

theorem nonneg_readListBegin {s s' : List UInt8} {size : Int32}
    (h : readListBegin s = (.ok size, s')) : 0 ≤ size := by
  obtain ⟨header, mid, hheader, h⟩ := Program.bind_eq_ok h
  obtain ⟨element, mid', -, hheader⟩ := Program.bind_eq_ok hheader
  obtain ⟨size', mid'', hsize, hheader⟩ := Program.bind_eq_ok hheader
  obtain ⟨size'', last, -, hsize⟩ := Program.bind_eq_ok hsize
  cases hheader
  cases h
  by_cases hneg : size'' < 0
  · rw [if_pos hneg] at hsize
    cases hsize
  · rw [if_neg hneg] at hsize
    cases hsize
    exact Int32.not_lt.mp hneg

theorem ends_readMessageBegin {s : List UInt8} (h : Holds s []) (ident : TMessageIdentifier)
    (s' : List UInt8) : readMessageBegin s ≠ (.ok ident, s') := by
  intro heq
  obtain ⟨-, rfl⟩ := h
  obtain ⟨b, mid, hbyte, -⟩ := Program.bind_eq_ok heq
  cases hbyte

def texts : Texts where
  missingFieldId _ := "missing field id"
  missingField label := "missing required field " ++ label
  sequenceNumber expected actual :=
    "expected " ++ toString expected.toInt ++ " got " ++ toString actual.toInt
  serviceCall expected actual := "expected " ++ expected ++ " got " ++ actual
  messageType _ _ := "unexpected message type"
  description _ := "remote error"

def protocol : TProtocol where
  σ := List UInt8
  limits := limits
  texts := texts
  readMessageBegin := readMessageBegin
  readMessageEnd := pure ()
  readStructBegin := pure ()
  readStructEnd := pure ()
  readFieldBegin := readFieldBegin
  readFieldEnd := pure ()
  readListBegin := readListBegin
  readListEnd := pure ()
  readMapBegin := readMapBegin
  readMapEnd := pure ()
  readBool := readBool
  readI8 := readI8
  readI32 := readI32
  readI64 := readI64
  readString := readString
  readBytes := readBytes
  readApplicationError := readApplicationError
  skip := skipTillDepth maximumSkipDepth
  pack := pack
  feed := feed
  holds := Holds
  remaining := List.length
  holds_feed h _ hs := holds_feed h hs
  takes_messageBegin _ := Eats.takes fun h ↦ eats_readMessageBegin h
  ends_messageBegin h ident s' := ends_readMessageBegin h ident s'
  takes_messageEnd := takes_empty rfl
  holds_messageEnd h := holds_empty rfl h
  takes_structBegin _ := takes_empty rfl
  takes_structEnd := takes_empty rfl
  takes_fieldBegin _ _ id h := Eats.takes fun _ ↦ eats_readFieldBegin h id
  takes_fieldStop := ⟨_, rfl, Eats.takes fun _ ↦ eats_readFieldStop⟩
  takes_fieldEnd := takes_empty rfl
  takes_listBegin element _ :=
    Eats.takes fun h ↦ (eats_readListHeader element h).bind_silent (Eats.pure _)
  takes_mapBegin key value size :=
    Eats.takes fun _ ↦ (eats_readMapHeader key value size).bind_silent (Eats.pure _)
  holds_listEnd h := holds_empty rfl h
  takes_listEnd := Takes.pure ()
  holds_mapEnd h := holds_empty rfl h
  takes_mapEnd := Takes.pure ()
  takes_bool b := Eats.takes fun _ ↦ eats_readBool b
  takes_i8 v := Eats.takes fun _ ↦ eats_readI8 v
  takes_i32 v := Eats.takes fun _ ↦ eats_readI32 v
  takes_i64 v := Eats.takes fun _ ↦ eats_readI64 v
  takes_string _ := Eats.takes fun h ↦ eats_readString h
  takes_bytes _ := Eats.takes fun h ↦ eats_readBytes h
  takes_applicationError _ := Eats.takes fun h ↦ eats_readApplicationError h
  takes_skip h htext := takes_skipTillDepth h htext
  steady_messageBegin := steady_readMessageBegin
  steady_messageEnd := Steady.pure ()
  steady_structBegin := Steady.pure ()
  steady_structEnd := Steady.pure ()
  steady_fieldBegin := steady_readFieldBegin
  shrinks_fieldBegin h _ := shrinks_readFieldBegin h
  steady_fieldEnd := Steady.pure ()
  steady_listBegin := steady_readListHeader.bind fun _ ↦ Steady.pure _
  nonneg_listBegin h := nonneg_readListBegin h
  steady_listEnd := Steady.pure ()
  steady_mapBegin := steady_readMapHeader.bind fun _ ↦ Steady.pure _
  steady_mapEnd := Steady.pure ()
  steady_bool := steady_readBool
  steady_i8 := steady_readI8
  steady_i32 := steady_readI32
  steady_i64 := steady_readI64
  steady_string := steady_readString
  steady_bytes := steady_readBytes
  steady_applicationError := steady_readApplicationError
  steady_skip ttype := steady_skipTillDepth maximumSkipDepth ttype

end IotdbClient.Library.Binary
