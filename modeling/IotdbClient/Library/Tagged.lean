import IotdbClient.Library.Program
import IotdbClient.Library.RustStd

/-!
# Tagged-field protocols

A Thrift protocol is a pair of objects with one method for each piece of a message: a writer makes a
sequence of calls, a reader pulls the pieces out again.  The encoding behind the two is a parameter
here.  A `TProtocol` says what its readers do and relates a reader's state to the calls whose
encoding it has still to read; its laws say that a reader takes back what a writer put in, and that
reading neither panics nor moves backwards whatever the input is.
-/

namespace IotdbClient.Library

/-! ## What is written -/

inductive TType where
  | stop | bool | i08 | i16 | i32 | i64 | double | string | struct | map | set | list
deriving Repr, DecidableEq

inductive TMessageType where
  | call | reply | exception | oneway
deriving Repr, DecidableEq

structure TMessageIdentifier where
  name : String
  messageType : TMessageType
  sequenceNumber : Int32
deriving Repr, DecidableEq

structure TFieldIdentifier where
  fieldType : TType
  id : Option Int16
deriving Repr, DecidableEq

inductive ApplicationErrorKind where
  | unknown | unknownMethod | invalidMessageType | wrongMethodName | badSequenceId | missingResult
deriving Repr, DecidableEq

structure ApplicationError where
  kind : ApplicationErrorKind
  message : String
deriving Repr, DecidableEq

inductive ProtocolErrorKind where
  | unknown | invalidData | negativeSize | badVersion | depthLimit
deriving Repr, DecidableEq

/-- `thrift::Error`. -/
inductive TError where
  | transport (message : String)
  | protocol (kind : ProtocolErrorKind) (message : String)
  | application (e : ApplicationError)
  | user (message : String)
deriving Repr, DecidableEq

/-- One call on an output protocol.  A generated writer is the list of the calls it makes. -/
inductive Emit where
  | messageBegin (ident : TMessageIdentifier)
  | messageEnd
  | structBegin (name : String)
  | structEnd
  | fieldBegin (name : String) (ttype : TType) (id : Int16)
  | fieldEnd
  | fieldStop
  | listBegin (element : TType) (size : Int32)
  | listEnd
  | setBegin (element : TType) (size : Int32)
  | setEnd
  | mapBegin (key value : TType) (size : Int32)
  | mapEnd
  | bool (b : Bool)
  | i8 (v : Int8)
  | i16 (v : Int16)
  | i32 (v : Int32)
  | i64 (v : Int64)
  | double (bits : UInt64)
  | string (s : String)
  | bytes (b : List UInt8)
  | applicationError (e : ApplicationError)
deriving Repr, DecidableEq

/-- A field as written: its header and the calls that write its value. -/
structure Written where
  name : String
  ttype : TType
  id : Int16
  value : List Emit

def Written.emits (w : Written) : List Emit :=
  .fieldBegin w.name w.ttype w.id :: (w.value ++ [.fieldEnd])

/-- The body of a generated `write_to_out_protocol`. -/
def structEmits (name : String) (ws : List Written) : List Emit :=
  .structBegin name :: (ws.flatMap Written.emits ++ [.fieldStop, .structEnd])

/-- A generated list loop.  It calls `write_list_end` after every element, inside the loop. -/
def listEmits (element : TType) (values : List (List Emit)) : List Emit :=
  .listBegin element (usizeAsI32 values.length) :: values.flatMap (· ++ [.listEnd])

/-- A generated map loop, with `write_map_end` after every entry. -/
def mapEmits (key value : TType) (entries : List (List Emit × List Emit)) : List Emit :=
  .mapBegin key value (usizeAsI32 entries.length) ::
    entries.flatMap fun e ↦ e.1 ++ e.2 ++ [.mapEnd]

/-! ## Well-formed values

`Image limits d ty es`: the calls `es` write one value of type `ty`, nested at most `d` deep and with
every length within the limits. -/

/-- What a protocol takes at most: bytes in a string, elements in a container, bytes in a frame.
Lengths are 32-bit fields, so the first two stay below `2 ^ 31`. -/
structure Limits where
  string : Nat
  container : Nat
  frame : Nat
  string_le : string ≤ 2 ^ 31
  container_le : container ≤ 2 ^ 31

inductive Image (limits : Limits) : Nat → TType → List Emit → Prop where
  | bool (d : Nat) (b : Bool) : Image limits (d + 1) .bool [.bool b]
  | i8 (d : Nat) (v : Int8) : Image limits (d + 1) .i08 [.i8 v]
  | i16 (d : Nat) (v : Int16) : Image limits (d + 1) .i16 [.i16 v]
  | i32 (d : Nat) (v : Int32) : Image limits (d + 1) .i32 [.i32 v]
  | i64 (d : Nat) (v : Int64) : Image limits (d + 1) .i64 [.i64 v]
  | double (d : Nat) (bits : UInt64) : Image limits (d + 1) .double [.double bits]
  | string (d : Nat) {s : String} (h : (asBytes s).length < limits.string) :
      Image limits (d + 1) .string [.string s]
  | bytes (d : Nat) {b : List UInt8} (h : b.length < limits.string) :
      Image limits (d + 1) .string [.bytes b]
  | struct {d : Nat} (name : String) {ws : List Written}
      (h : ∀ w ∈ ws, Image limits d w.ttype w.value) :
      Image limits (d + 1) .struct (structEmits name ws)
  | list {d : Nat} (element : TType) {values : List (List Emit)}
      (hlen : values.length < limits.container) (h : ∀ v ∈ values, Image limits d element v) :
      Image limits (d + 1) .list (listEmits element values)
  | set {d : Nat} (element : TType) {values : List (List Emit)}
      (hlen : values.length < limits.container) (h : ∀ v ∈ values, Image limits d element v) :
      Image limits (d + 1) .set
        (.setBegin element (usizeAsI32 values.length) :: (values.flatMap id ++ [.setEnd]))
  | map {d : Nat} (key value : TType) {entries : List (List Emit × List Emit)}
      (hlen : entries.length < limits.container) (hkey : ∀ e ∈ entries, Image limits d key e.1)
      (hvalue : ∀ e ∈ entries, Image limits d value e.2) :
      Image limits (d + 1) .map (mapEmits key value entries)

variable {limits : Limits}

/-- Every value has a tag; the stop tag only ends a struct. -/
theorem Image.ne_stop {d : Nat} {ty : TType} {es : List Emit} (h : Image limits d ty es) :
    ty ≠ .stop := by
  cases h <;> simp

/-- A deeper bound admits more. -/
theorem Image.succ {d : Nat} {ty : TType} {es : List Emit} (h : Image limits d ty es) :
    Image limits (d + 1) ty es := by
  induction h with
  | bool d b => exact .bool _ b
  | i8 d v => exact .i8 _ v
  | i16 d v => exact .i16 _ v
  | i32 d v => exact .i32 _ v
  | i64 d v => exact .i64 _ v
  | double d bits => exact .double _ bits
  | string d h => exact .string _ h
  | bytes d h => exact .bytes _ h
  | struct name _ ih => exact .struct name ih
  | list element hlen _ ih => exact .list element hlen ih
  | set element hlen _ ih => exact .set element hlen ih
  | map key value hlen _ _ ihkey ihvalue => exact .map key value hlen ihkey ihvalue

theorem Image.mono {d d' : Nat} {ty : TType} {es : List Emit} (h : Image limits d ty es)
    (hle : d ≤ d') : Image limits d' ty es := by
  induction d', hle using Nat.le_induction with
  | base => exact h
  | succ n _ ih => exact ih.succ

/-- Finitely many values have a common depth. -/
theorem Image.common {ι : Type} {t : ι → TType} {es : ι → List Emit} {l : List ι}
    (h : ∀ x ∈ l, ∃ d, Image limits d (t x) (es x)) :
    ∃ d, ∀ x ∈ l, Image limits d (t x) (es x) := by
  induction l with
  | nil => exact ⟨0, fun x hx ↦ by cases hx⟩
  | cons x xs ih =>
      rw [List.forall_mem_cons] at h
      obtain ⟨d, hd⟩ := h.1
      obtain ⟨d', hd'⟩ := ih h.2
      have hhead : Image limits (max d d') (t x) (es x) := hd.mono (by omega)
      have htail : ∀ y ∈ xs, Image limits (max d d') (t y) (es y) :=
        fun y hy ↦ (hd' y hy).mono (by omega)
      exact ⟨max d d', List.forall_mem_cons.mpr ⟨hhead, htail⟩⟩

/-- The byte strings in a value are text.  A reader that skips a value does not know which of its
strings are bytes, and reads them all as text. -/
def AllText (es : List Emit) : Prop := ∀ b, Emit.bytes b ∈ es → ∃ s, fromUtf8 b = some s

/-- A whole message: a struct between its brackets, or an exception. -/
inductive Message (limits : Limits) : List Emit → Prop where
  | struct {ident : TMessageIdentifier} {d : Nat} {body : List Emit}
      (hname : (asBytes ident.name).length < limits.string) (h : Image limits d .struct body) :
      Message limits (.messageBegin ident :: (body ++ [.messageEnd]))
  | exception {ident : TMessageIdentifier} {e : ApplicationError}
      (hname : (asBytes ident.name).length < limits.string)
      (h : (asBytes e.message).length < limits.string) :
      Message limits [.messageBegin ident, .applicationError e, .messageEnd]

/-! ## Reading back

`Takes holds m es a`: where the next calls in the input are `es`, the program `m` reads exactly
these and returns `a`. -/

section

variable {σ α : Type}

def Takes (holds : σ → List Emit → Prop) (m : Program σ TError α) (es : List Emit) (a : α) : Prop :=
  ∀ s rest, holds s (es ++ rest) → ∃ s', m s = (.ok a, s') ∧ holds s' rest

/-- `m` neither panics nor gives input back. -/
def Steady (remaining : σ → Nat) (m : Program σ TError α) : Prop :=
  ∀ s, NoPanic (m s).1 ∧ remaining (m s).2 ≤ remaining s

variable {β : Type} {holds : σ → List Emit → Prop} {remaining : σ → Nat}

theorem Takes.pure (a : α) : Takes holds (Pure.pure a : Program σ TError α) [] a :=
  fun s _ hs ↦ ⟨s, rfl, hs⟩

theorem Takes.bind {m : Program σ TError α} {f : α → Program σ TError β} {front back : List Emit}
    {a : α} {b : β} (hm : Takes holds m front a) (hf : Takes holds (f a) back b) :
    Takes holds (m >>= f) (front ++ back) b := by
  intro s rest hs
  rw [List.append_assoc] at hs
  obtain ⟨mid, hmid, hholds⟩ := hm s (back ++ rest) hs
  obtain ⟨s', hs', hholds'⟩ := hf mid rest hholds
  refine ⟨s', ?_, hholds'⟩
  rw [Program.bind_apply, hmid]
  exact hs'

theorem Steady.pure (a : α) : Steady remaining (Pure.pure a : Program σ TError α) :=
  fun _ ↦ ⟨noPanic_ok a, Nat.le_refl _⟩

theorem Steady.ofOutcome {o : Outcome TError α} (h : NoPanic o) :
    Steady remaining (Program.ofOutcome o : Program σ TError α) := fun _ ↦ ⟨h, Nat.le_refl _⟩

theorem Steady.bind {m : Program σ TError α} {f : α → Program σ TError β}
    (hm : Steady remaining m) (hf : ∀ a, Steady remaining (f a)) : Steady remaining (m >>= f) := by
  intro s
  have hfirst := hm s
  rw [Program.bind_apply]
  rcases hrun : m s with ⟨fault | a, s'⟩ <;> rw [hrun] at hfirst
  · refine ⟨?_, hfirst.2⟩
    intro message heq
    cases heq
    exact hfirst.1 message rfl
  · have hlast := hf a s'
    exact ⟨hlast.1, Nat.le_trans hlast.2 hfirst.2⟩

end

/-- How deep `skip` follows nested values (`MAXIMUM_SKIP_DEPTH`). -/
def maximumSkipDepth : Nat := 64

/-- What the runtime's helpers put into the errors they raise.  The texts are left open. -/
structure Texts where
  missingFieldId : TFieldIdentifier → String
  missingField : String → String
  sequenceNumber : Int32 → Int32 → String
  serviceCall : String → String → String
  messageType : TMessageType → TMessageType → String
  /-- `Error::description`. -/
  description : TError → String

/-- An input protocol, with the encoding of the output protocol it belongs to.  Of a list or map
header it returns the size, which is what generated code uses. -/
structure TProtocol where
  σ : Type
  limits : Limits
  texts : Texts
  readMessageBegin : Program σ TError TMessageIdentifier
  readMessageEnd : Program σ TError Unit
  readStructBegin : Program σ TError Unit
  readStructEnd : Program σ TError Unit
  readFieldBegin : Program σ TError TFieldIdentifier
  readFieldEnd : Program σ TError Unit
  readListBegin : Program σ TError Int32
  readListEnd : Program σ TError Unit
  readMapBegin : Program σ TError Int32
  readMapEnd : Program σ TError Unit
  readBool : Program σ TError Bool
  readI8 : Program σ TError Int8
  readI32 : Program σ TError Int32
  readI64 : Program σ TError Int64
  readString : Program σ TError String
  readBytes : Program σ TError (List UInt8)
  readApplicationError : Program σ TError ApplicationError
  skip : TType → Program σ TError Unit
  /-- The frame that a flush sends for the calls of one message. -/
  pack : List Emit → List UInt8
  /-- A frame arrives behind what is still unread. -/
  feed : σ → List UInt8 → σ
  /-- The unread input is the encoding of these calls. -/
  holds : σ → List Emit → Prop
  /-- A bound on the field headers that are still to come. -/
  remaining : σ → Nat
  holds_feed : ∀ {s es rest}, Message limits es → (pack es).length ≤ limits.frame →
    holds s rest → holds (feed s (pack es)) (rest ++ es)
  takes_messageBegin : ∀ ident, Takes holds readMessageBegin [.messageBegin ident] ident
  /-- No message begins where the input ends. -/
  ends_messageBegin : ∀ {s}, holds s [] → ∀ ident s', readMessageBegin s ≠ (.ok ident, s')
  takes_messageEnd : Takes holds readMessageEnd [.messageEnd] ()
  /-- Nothing is written at the end of a message: a reader may leave it out. -/
  holds_messageEnd : ∀ {s es}, holds s (.messageEnd :: es) → holds s es
  takes_structBegin : ∀ name, Takes holds readStructBegin [.structBegin name] ()
  takes_structEnd : Takes holds readStructEnd [.structEnd] ()
  takes_fieldBegin : ∀ name ttype id, ttype ≠ .stop →
    Takes holds readFieldBegin [.fieldBegin name ttype id] ⟨ttype, some id⟩
  takes_fieldStop : ∃ ident : TFieldIdentifier,
    ident.fieldType = .stop ∧ Takes holds readFieldBegin [.fieldStop] ident
  takes_fieldEnd : Takes holds readFieldEnd [.fieldEnd] ()
  takes_listBegin : ∀ element size, Takes holds readListBegin [.listBegin element size] size
  takes_mapBegin : ∀ key value size, Takes holds readMapBegin [.mapBegin key value size] size
  /-- Nothing is written at the end of a list, and nothing is read there. -/
  holds_listEnd : ∀ {s es}, holds s (.listEnd :: es) → holds s es
  takes_listEnd : Takes holds readListEnd [] ()
  holds_mapEnd : ∀ {s es}, holds s (.mapEnd :: es) → holds s es
  takes_mapEnd : Takes holds readMapEnd [] ()
  takes_bool : ∀ b, Takes holds readBool [.bool b] b
  takes_i8 : ∀ v, Takes holds readI8 [.i8 v] v
  takes_i32 : ∀ v, Takes holds readI32 [.i32 v] v
  takes_i64 : ∀ v, Takes holds readI64 [.i64 v] v
  takes_string : ∀ s, Takes holds readString [.string s] s
  takes_bytes : ∀ b, Takes holds readBytes [.bytes b] b
  takes_applicationError : ∀ e, Takes holds readApplicationError [.applicationError e] e
  takes_skip : ∀ {ty es}, Image limits maximumSkipDepth ty es → AllText es →
    Takes holds (skip ty) es ()
  steady_messageBegin : Steady remaining readMessageBegin
  steady_messageEnd : Steady remaining readMessageEnd
  steady_structBegin : Steady remaining readStructBegin
  steady_structEnd : Steady remaining readStructEnd
  steady_fieldBegin : Steady remaining readFieldBegin
  /-- A field header is at least one unit of input. -/
  shrinks_fieldBegin : ∀ {s ident s'}, readFieldBegin s = (.ok ident, s') →
    ident.fieldType ≠ .stop → remaining s' < remaining s
  steady_fieldEnd : Steady remaining readFieldEnd
  steady_listBegin : Steady remaining readListBegin
  nonneg_listBegin : ∀ {s size s'}, readListBegin s = (.ok size, s') → 0 ≤ size
  steady_listEnd : Steady remaining readListEnd
  steady_mapBegin : Steady remaining readMapBegin
  steady_mapEnd : Steady remaining readMapEnd
  steady_bool : Steady remaining readBool
  steady_i8 : Steady remaining readI8
  steady_i32 : Steady remaining readI32
  steady_i64 : Steady remaining readI64
  steady_string : Steady remaining readString
  steady_bytes : Steady remaining readBytes
  steady_applicationError : Steady remaining readApplicationError
  steady_skip : ∀ ty, Steady remaining (skip ty)

/-- A reader over the protocol `P`. -/
abbrev TReader (P : TProtocol) (α : Type) := Program P.σ TError α

end IotdbClient.Library
