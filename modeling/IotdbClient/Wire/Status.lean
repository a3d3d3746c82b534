import IotdbClient.Client.Protocol
import IotdbClient.Library.StructCodec

/-!
# The status on the wire

`TSStatus` with all its fields, and the generated code that writes and reads it.  A status may hold
further statuses to any depth, so its reader calls itself; every nested status stands behind a field
header, which is what its fuel pays for.
-/

namespace IotdbClient.Wire

open Library

variable {P : TProtocol}

/-! ## TEndPoint -/

def TEndPoint.fields (P : TProtocol) :=
  Fields.required "TEndPoint.ip" ⟨"ip", 1, .string P⟩ <|
  .required "TEndPoint.port" ⟨"port", 2, .i32 P⟩ .nil

theorem TEndPoint.nodup_ids (P : TProtocol) : (TEndPoint.fields P).ids.Nodup := by
  show ([1, 2] : List Int16).Nodup
  decide

def TEndPoint.record (P : TProtocol) : Record P TEndPoint where
  name := "TEndPoint"
  fields := TEndPoint.fields P
  nodup_ids := TEndPoint.nodup_ids P
  make v := ⟨v.1, v.2.1⟩
  parts e := (e.ip, e.port, ())
  make_parts _ := rfl

def TEndPoint.codec (P : TProtocol) : Codec P TEndPoint := (TEndPoint.record P).codec

/-! ## TSStatus -/

inductive TSStatus where
  | mk (code : Int32) (message : Option String) (subStatus : Option (List TSStatus))
      (redirectNode : Option TEndPoint) (needRetry : Option Bool) (responseData : Option (List UInt8))

namespace TSStatus

/-- The field of a value that may be absent. -/
def optional {α : Type} (name : String) (ttype : TType) (id : Int16) (write : α → List Emit)
    (value : Option α) : List Written :=
  (value.map fun a ↦ ⟨name, ttype, id, write a⟩).toList

mutual

def write : TSStatus → List Emit
  | mk code message subStatus redirectNode needRetry responseData =>
      structEmits "TSStatus" (⟨"code", .i32, 1, [.i32 code]⟩ ::
        (optional "message" .string 2 (fun s ↦ [.string s]) message ++
          (writeSubStatus subStatus ++
            (optional "redirectNode" .struct 4 (fun e ↦ structEmits "TEndPoint"
                [⟨"ip", .string, 1, [.string e.ip]⟩, ⟨"port", .i32, 2, [.i32 e.port]⟩])
                redirectNode ++
              (optional "needRetry" .bool 5 (fun b ↦ [.bool b]) needRetry ++
                optional "responseData" .string 6 (fun b ↦ [.bytes b]) responseData)))))

def writeSubStatus : Option (List TSStatus) → List Written
  | none => []
  | some subs => [⟨"subStatus", .list, 3, listEmits .struct (writeAll subs)⟩]

def writeAll : List TSStatus → List (List Emit)
  | [] => []
  | s :: subs => s.write :: writeAll subs

end

theorem writeAll_eq_map (subs : List TSStatus) : writeAll subs = subs.map write := by
  induction subs with
  | nil => rfl
  | cons s subs ih => rw [writeAll, ih, List.map_cons]

/-- The variables of the reading loop. -/
structure Vars where
  f1 : Option Int32
  f2 : Option String
  f3 : Option (List TSStatus)
  f4 : Option TEndPoint
  f5 : Option Bool
  f6 : Option (List UInt8)

def init : Vars := ⟨none, none, none, none, none, none⟩

/-- The arms of the reading loop; `read` is the reader of a nested status. -/
def table (read : TReader P TSStatus) (fuel : Nat) : Table P Vars :=
  [(1, do
      let val ← P.readI32
      pure fun vars ↦ { vars with f1 := some val }),
    (2, do
      let val ← P.readString
      pure fun vars ↦ { vars with f2 := some val }),
    (3, do
      let val ← Codec.readList read
      pure fun vars ↦ { vars with f3 := some val }),
    (4, do
      let val ← (TEndPoint.codec P).read fuel
      pure fun vars ↦ { vars with f4 := some val }),
    (5, do
      let val ← P.readBool
      pure fun vars ↦ { vars with f5 := some val }),
    (6, do
      let val ← P.readBytes
      pure fun vars ↦ { vars with f6 := some val })]

def finish (texts : Texts) (vars : Vars) : Outcome TError TSStatus := do
  let code ← verifyRequiredFieldExists texts "TSStatus.code" vars.f1
  pure (mk code vars.f2 vars.f3 vars.f4 vars.f5 vars.f6)

def read (P : TProtocol) : Nat → TReader P TSStatus
  | 0 => throw (.panic "out of fuel")
  | fuel + 1 => readStruct (table (read P fuel) fuel) init (finish P.texts) (fuel + 1)

/-! ### Lengths within the limits -/

mutual

def Fits (limits : Limits) : TSStatus → Prop
  | mk _ message subStatus redirectNode _ responseData =>
      (∀ s, message = some s → (asBytes s).length < limits.string) ∧
        FitsSubStatus limits subStatus ∧
        (∀ e, redirectNode = some e → (asBytes e.ip).length < limits.string) ∧
        ∀ b, responseData = some b → b.length < limits.string

def FitsSubStatus (limits : Limits) : Option (List TSStatus) → Prop
  | none => True
  | some subs => subs.length < limits.container ∧ FitsAll limits subs

def FitsAll (limits : Limits) : List TSStatus → Prop
  | [] => True
  | s :: subs => s.Fits limits ∧ FitsAll limits subs

end

theorem length_writeAll (subs : List TSStatus) : (writeAll subs).length = subs.length := by
  rw [writeAll_eq_map, List.length_map]

theorem fits_endPoint {e : TEndPoint} (h : (asBytes e.ip).length < P.limits.string) :
    (TEndPoint.codec P).fits e := ⟨h, trivial, trivial⟩

/-! ### What is written is a value -/

theorem image_optional {α : Type} {limits : Limits} {name : String} {ttype : TType} {id : Int16}
    {write : α → List Emit} {value : Option α}
    (h : ∀ a, value = some a → ∃ d, Image limits d ttype (write a)) :
    ∀ w ∈ optional name ttype id write value, ∃ d, Image limits d w.ttype w.value := by
  cases value with
  | none => exact fun w hw ↦ absurd hw (by simp [optional])
  | some a =>
      intro w hw
      obtain rfl : w = ⟨name, ttype, id, write a⟩ := by simpa [optional] using hw
      exact h a rfl

mutual

theorem image_write (s : TSStatus) (h : s.Fits P.limits) :
    ∃ d, Image P.limits d .struct s.write := by
  match s with
  | mk code message subStatus redirectNode needRetry responseData =>
      rw [Fits] at h
      obtain ⟨hmessage, hsub, hnode, hdata⟩ := h
      have hfields : ∀ w ∈ (⟨"code", .i32, 1, [.i32 code]⟩ : Written) ::
          (optional "message" .string 2 (fun s ↦ [.string s]) message ++
            (writeSubStatus subStatus ++
              (optional "redirectNode" .struct 4 (fun e ↦ structEmits "TEndPoint"
                  [⟨"ip", .string, 1, [.string e.ip]⟩, ⟨"port", .i32, 2, [.i32 e.port]⟩])
                  redirectNode ++
                (optional "needRetry" .bool 5 (fun b ↦ [.bool b]) needRetry ++
                  optional "responseData" .string 6 (fun b ↦ [.bytes b]) responseData)))),
          ∃ d, Image P.limits d w.ttype w.value := by
        rw [List.forall_mem_cons]
        simp only [List.forall_mem_append]
        refine ⟨⟨1, .i32 0 code⟩, ?_, image_writeSubStatus subStatus hsub, ?_, ?_, ?_⟩
        · exact image_optional fun s hs ↦ ⟨1, .string 0 (hmessage s hs)⟩
        · exact image_optional fun e he ↦ (TEndPoint.codec P).image e (fits_endPoint (hnode e he))
        · exact image_optional fun b _ ↦ ⟨1, .bool 0 b⟩
        · exact image_optional fun b hb ↦ ⟨1, .bytes 0 (hdata b hb)⟩
      obtain ⟨d, hd⟩ := Image.common hfields
      rw [write]
      exact ⟨d + 1, .struct "TSStatus" hd⟩

theorem image_writeSubStatus (subStatus : Option (List TSStatus))
    (h : FitsSubStatus P.limits subStatus) :
    ∀ w ∈ writeSubStatus subStatus, ∃ d, Image P.limits d w.ttype w.value := by
  match subStatus with
  | none => exact fun w hw ↦ absurd hw (by simp [writeSubStatus])
  | some subs =>
      rw [FitsSubStatus] at h
      obtain ⟨d, hd⟩ := Image.common (t := fun _ ↦ .struct) (image_writeAll subs h.2)
      intro w hw
      obtain rfl : w = ⟨"subStatus", .list, 3, listEmits .struct (writeAll subs)⟩ := by
        simpa [writeSubStatus] using hw
      exact ⟨d + 1, .list .struct (by rw [length_writeAll]; exact h.1) hd⟩

theorem image_writeAll (subs : List TSStatus) (h : FitsAll P.limits subs) :
    ∀ es ∈ writeAll subs, ∃ d, Image P.limits d .struct es := by
  match subs with
  | [] => exact fun es hes ↦ absurd hes (by simp [writeAll])
  | s :: subs =>
      rw [FitsAll] at h
      rw [writeAll, List.forall_mem_cons]
      exact ⟨image_write s h.1, image_writeAll subs h.2⟩

end

/-! ### Reading back -/

/-- The loop over a field that may be absent. -/
theorem readsFields_optional {α : Type} {bound : Nat} {table : Table P Vars} {name : String}
    {ttype : TType} {id : Int16} {write : α → List Emit} {value : Option α} {read : TReader P α}
    (set : Option α → Vars → Vars) {vars vars' : Vars} {ws : List Written}
    (hlookup : table.lookup id = some (do
      let val ← read
      pure (set (some val))))
    (hread : ∀ a, value = some a → ReadsWithin bound read (write a) a) (htype : ttype ≠ .stop)
    (hnone : value = none → set value vars = vars)
    (hrest : ReadsFields bound table (set value vars) ws vars') :
    ReadsFields bound table vars (optional name ttype id write value ++ ws) vars' := by
  cases value with
  | none =>
      rw [hnone rfl] at hrest
      exact hrest
  | some a => exact .known hlookup ((hread a rfl).bind_silent (ReadsWithin.pure bound _)) htype hrest

theorem lookup_table (read : TReader P TSStatus) (fuel : Nat) :
    (table read fuel).lookup 1 = some (do
        let val ← P.readI32
        pure fun vars ↦ { vars with f1 := some val }) ∧
      (table read fuel).lookup 2 = some (do
        let val ← P.readString
        pure fun vars ↦ { vars with f2 := some val }) ∧
      (table read fuel).lookup 3 = some (do
        let val ← Codec.readList read
        pure fun vars ↦ { vars with f3 := some val }) ∧
      (table read fuel).lookup 4 = some (do
        let val ← (TEndPoint.codec P).read fuel
        pure fun vars ↦ { vars with f4 := some val }) ∧
      (table read fuel).lookup 5 = some (do
        let val ← P.readBool
        pure fun vars ↦ { vars with f5 := some val }) ∧
      (table read fuel).lookup 6 = some (do
        let val ← P.readBytes
        pure fun vars ↦ { vars with f6 := some val }) :=
  ⟨rfl, rfl, rfl, rfl, rfl, rfl⟩

/-- The loop over the fields of a status, from the reader of the nested ones. -/
theorem readsFields {fuel : Nat} {code : Int32} {message : Option String}
    {subStatus : Option (List TSStatus)} {redirectNode : Option TEndPoint} {needRetry : Option Bool}
    {responseData : Option (List UInt8)}
    (hfits : (mk code message subStatus redirectNode needRetry responseData).Fits P.limits)
    (hsub : ∀ subs, subStatus = some subs → ∀ s ∈ subs, ReadsWithin fuel (read P fuel) s.write s) :
    ReadsFields fuel (table (read P fuel) fuel) init
      (⟨"code", .i32, 1, [.i32 code]⟩ ::
        (optional "message" .string 2 (fun s ↦ [.string s]) message ++
          (writeSubStatus subStatus ++
            (optional "redirectNode" .struct 4 (fun e ↦ structEmits "TEndPoint"
                [⟨"ip", .string, 1, [.string e.ip]⟩, ⟨"port", .i32, 2, [.i32 e.port]⟩])
                redirectNode ++
              (optional "needRetry" .bool 5 (fun b ↦ [.bool b]) needRetry ++
                optional "responseData" .string 6 (fun b ↦ [.bytes b]) responseData)))))
      ⟨some code, message, subStatus, redirectNode, needRetry, responseData⟩ := by
  rw [Fits] at hfits
  obtain ⟨-, hlist, hnode, -⟩ := hfits
  obtain ⟨h1, h2, h3, h4, h5, h6⟩ := lookup_table (read P fuel) fuel
  have hcode : ReadsWithin fuel (do
      let val ← P.readI32
      pure fun vars : Vars ↦ { vars with f1 := some val }) [.i32 code]
      (fun vars ↦ { vars with f1 := some code }) :=
    ((P.takes_i32 code).reads P.steady_i32 fuel).bind_silent (ReadsWithin.pure fuel _)
  have hsubs : ∀ subs, subStatus = some subs → ReadsWithin fuel (Codec.readList (read P fuel))
      (listEmits .struct (writeAll subs)) subs := by
    rintro subs rfl
    rw [FitsSubStatus] at hlist
    rw [writeAll_eq_map]
    exact Codec.reads_readList .struct hlist.1 (hsub subs rfl)
  have hwritten : writeSubStatus subStatus =
      optional "subStatus" .list 3 (fun subs ↦ listEmits .struct (writeAll subs)) subStatus := by
    cases subStatus <;> rfl
  rw [hwritten]
  -- field after field, each in the place where it was written
  apply ReadsFields.known h1 hcode (by simp)
  apply readsFields_optional (fun val vars ↦ { vars with f2 := val }) h2
    (fun s _ ↦ (P.takes_string s).reads P.steady_string fuel) (by simp) (fun h ↦ by rw [h]; rfl)
  apply readsFields_optional (fun val vars ↦ { vars with f3 := val }) h3 hsubs (by simp)
    (fun h ↦ by rw [h]; rfl)
  apply readsFields_optional (fun val vars ↦ { vars with f4 := val }) h4
    (fun e he ↦ (TEndPoint.codec P).reads e (fits_endPoint (hnode e he)) fuel) (by simp)
    (fun h ↦ by rw [h]; rfl)
  apply readsFields_optional (fun val vars ↦ { vars with f5 := val }) h5
    (fun b _ ↦ (P.takes_bool b).reads P.steady_bool fuel) (by simp) (fun h ↦ by rw [h]; rfl)
  rw [← List.append_nil (optional "responseData" _ _ _ _)]
  apply readsFields_optional (fun val vars ↦ { vars with f6 := val }) h6
    (fun b _ ↦ (P.takes_bytes b).reads P.steady_bytes fuel) (by simp) (fun h ↦ by rw [h]; rfl)
  exact .nil _

mutual

/-- The reader takes back the whole tree. -/
theorem reads_read (s : TSStatus) (h : s.Fits P.limits) (fuel : Nat) :
    ReadsWithin fuel (read P fuel) s.write s := by
  match s, fuel with
  | _, 0 => exact fun state rest _ hbound ↦ absurd hbound (Nat.not_lt_zero _)
  | mk code message subStatus redirectNode needRetry responseData, fuel + 1 =>
      have hsub := h
      rw [Fits] at hsub
      have hloop := readsFields h (reads_subStatus subStatus hsub.2.1 fuel)
      have hfinish : finish P.texts
          ⟨some code, message, subStatus, redirectNode, needRetry, responseData⟩ =
            .ok (mk code message subStatus redirectNode needRetry responseData) := rfl
      rw [read, write]
      exact hloop.reads_struct hfinish "TSStatus" (Nat.le_refl _)

theorem reads_subStatus (subStatus : Option (List TSStatus)) (h : FitsSubStatus P.limits subStatus)
    (fuel : Nat) : ∀ subs, subStatus = some subs →
      ∀ s ∈ subs, ReadsWithin fuel (read P fuel) s.write s := by
  match subStatus with
  | none => exact fun subs hsubs ↦ by cases hsubs
  | some subs =>
      rw [FitsSubStatus] at h
      intro subs' hsubs
      cases hsubs
      exact reads_all subs h.2 fuel

theorem reads_all (subs : List TSStatus) (h : FitsAll P.limits subs) (fuel : Nat) :
    ∀ s ∈ subs, ReadsWithin fuel (read P fuel) s.write s := by
  match subs with
  | [] => exact fun s hs ↦ by cases hs
  | s :: subs =>
      rw [FitsAll] at h
      rw [List.forall_mem_cons]
      exact ⟨reads_read s h.1 fuel, reads_all subs h.2 fuel⟩

end

/-! ### Any input -/

theorem noPanic_finish (texts : Texts) (vars : Vars) : NoPanic (finish texts vars) := by
  obtain ⟨_ | code, f2, f3, f4, f5, f6⟩ := vars
  · intro message heq
    cases heq
  · exact noPanic_ok _

/-- Every arm is safe where the reader of a nested status is. -/
theorem safeOn_table {read : TReader P TSStatus} {fuel : Nat}
    (hread : ∀ s, P.remaining s < fuel → SafeOn read s) {id : Int16} {arm : TReader P (Vars → Vars)}
    (harm : (table read fuel).lookup id = some arm) (s : P.σ) (hs : P.remaining s < fuel) :
    SafeOn arm s := by
  obtain ⟨front, back, hsplit, -⟩ := List.lookup_eq_some_iff.mp harm
  have hmem : (id, arm) ∈ table read fuel := by
    rw [hsplit]
    simp
  simp only [table, List.mem_cons, Prod.mk.injEq, List.not_mem_nil, or_false] at hmem
  rcases hmem with ⟨-, rfl⟩ | ⟨-, rfl⟩ | ⟨-, rfl⟩ | ⟨-, rfl⟩ | ⟨-, rfl⟩ | ⟨-, rfl⟩
  · exact SafeOn.bind (P.steady_i32 s) fun val s' _ _ ↦ SafeOn.pure _ s'
  · exact SafeOn.bind (P.steady_string s) fun val s' _ _ ↦ SafeOn.pure _ s'
  · exact (Codec.safeOn_readList hread s hs).bind fun val s' _ _ ↦ SafeOn.pure _ s'
  · exact ((TEndPoint.codec P).safe fuel s hs).bind fun val s' _ _ ↦ SafeOn.pure _ s'
  · exact SafeOn.bind (P.steady_bool s) fun val s' _ _ ↦ SafeOn.pure _ s'
  · exact SafeOn.bind (P.steady_bytes s) fun val s' _ _ ↦ SafeOn.pure _ s'

theorem safeOn_read (fuel : Nat) (s : P.σ) (hs : P.remaining s < fuel) :
    SafeOn (read P fuel) s := by
  induction fuel generalizing s with
  | zero => omega
  | succ fuel ih =>
      rw [read]
      apply safeOn_readStruct (fun id arm harm s hs ↦ ?_) (noPanic_finish P.texts) hs hs
      exact safeOn_table ih harm s (by omega)

def codec (P : TProtocol) : Codec P TSStatus where
  ttype := .struct
  write := write
  read := read P
  fits := Fits P.limits
  image := image_write
  reads s h fuel := reads_read s h fuel
  safe := safeOn_read

end TSStatus

end IotdbClient.Wire
