import IotdbClient.Library.Codec

/-!
# Codecs of structs

A struct is described by its fields in order.  From the description come the writer, the table of the
reading loop, the variables it fills and the check for required fields.  The reader takes back what
the writer wrote; more than that, it takes the same fields in any order and with unknown fields among
them.
-/

namespace IotdbClient.Library

structure Field (P : TProtocol) (α : Type) where
  name : String
  id : Int16
  codec : Codec P α

/-- The fields of a struct: `ν` holds the variables of the reader, `γ` the values of the fields.  The
label of a required field is the text its check is made with. -/
inductive Fields (P : TProtocol) : Type → Type → Type 1 where
  | nil : Fields P Unit Unit
  | required {α ν γ : Type} (label : String) (field : Field P α) (rest : Fields P ν γ) :
      Fields P (Option α × ν) (α × γ)
  | optional {α ν γ : Type} (field : Field P α) (rest : Fields P ν γ) :
      Fields P (Option α × ν) (Option α × γ)

variable {P : TProtocol} {α μ ν γ : Type}

def Field.written (field : Field P α) (a : α) : Written :=
  ⟨field.name, field.codec.ttype, field.id, field.codec.write a⟩

/-- The arm of a field: `let val = ..; f_i = Some(val);`. -/
def Field.arm (field : Field P α) (fuel : Nat) : Int16 × TReader P (Option α → Option α) :=
  (field.id, do
    let val ← field.codec.read fuel
    pure fun _ ↦ some val)

/-- An arm that sets the first of the variables. -/
def onFirst (arm : Int16 × TReader P (μ → μ)) : Int16 × TReader P (μ × ν → μ × ν) :=
  (arm.1, do
    let set ← arm.2
    pure fun vars ↦ (set vars.1, vars.2))

/-- An arm that leaves the first of the variables alone. -/
def onRest (arm : Int16 × TReader P (ν → ν)) : Int16 × TReader P (μ × ν → μ × ν) :=
  (arm.1, do
    let set ← arm.2
    pure fun vars ↦ (vars.1, set vars.2))

/-- `verify_required_field_exists`. -/
def verifyRequiredFieldExists (texts : Texts) (label : String) : Option α → Outcome TError α
  | some a => pure a
  | none => fail (.protocol .unknown (texts.missingField label))

namespace Fields

def ids : {ν γ : Type} → Fields P ν γ → List Int16
  | _, _, nil => []
  | _, _, required _ field rest => field.id :: rest.ids
  | _, _, optional field rest => field.id :: rest.ids

def init : {ν γ : Type} → Fields P ν γ → ν
  | _, _, nil => ()
  | _, _, required _ _ rest => (none, rest.init)
  | _, _, optional _ rest => (none, rest.init)

def table (fuel : Nat) : {ν γ : Type} → Fields P ν γ → Table P ν
  | _, _, nil => []
  | _, _, required _ field rest => onFirst (field.arm fuel) :: (rest.table fuel).map onRest
  | _, _, optional field rest => onFirst (field.arm fuel) :: (rest.table fuel).map onRest

def finish : {ν γ : Type} → Fields P ν γ → ν → Outcome TError γ
  | _, _, nil, () => pure ()
  | _, _, required label _ rest, vars => do
      let a ← verifyRequiredFieldExists P.texts label vars.1
      let others ← rest.finish vars.2
      pure (a, others)
  | _, _, optional _ rest, vars => do
      let others ← rest.finish vars.2
      pure (vars.1, others)

def written : {ν γ : Type} → Fields P ν γ → γ → List Written
  | _, _, nil, () => []
  | _, _, required _ field rest, values => field.written values.1 :: rest.written values.2
  | _, _, optional field rest, values =>
      (values.1.map field.written).toList ++ rest.written values.2

def Fits : {ν γ : Type} → Fields P ν γ → γ → Prop
  | _, _, nil, () => True
  | _, _, required _ field rest, values => field.codec.fits values.1 ∧ rest.Fits values.2
  | _, _, optional field rest, values => (∀ a, values.1 = some a → field.codec.fits a) ∧ rest.Fits values.2

/-- The variables once every value is read. -/
def filled : {ν γ : Type} → Fields P ν γ → γ → ν
  | _, _, nil, () => ()
  | _, _, required _ _ rest, values => (some values.1, rest.filled values.2)
  | _, _, optional _ rest, values => (values.1, rest.filled values.2)

theorem finish_filled (fields : Fields P ν γ) (values : γ) :
    fields.finish (fields.filled values) = .ok values := by
  induction fields with
  | nil => rfl
  | required label field rest ih =>
      rw [filled, finish, ih values.2]
      rfl
  | optional field rest ih =>
      rw [filled, finish, ih values.2]
      rfl

theorem noPanic_finish (fields : Fields P ν γ) (vars : ν) : NoPanic (fields.finish vars) := by
  induction fields with
  | nil => exact noPanic_ok ()
  | required label field rest ih =>
      rcases vars with ⟨_ | a, vars⟩
      · intro message heq
        cases heq
      · have hrest := ih vars
        rw [finish]
        cases hfinish : rest.finish vars with
        | ok others => exact noPanic_ok (a, others)
        | error fault =>
            intro message heq
            cases heq
            exact hrest message hfinish
  | optional field rest ih =>
      have hrest := ih vars.2
      rw [finish]
      cases hfinish : rest.finish vars.2 with
      | ok others => exact noPanic_ok (vars.1, others)
      | error fault =>
          intro message heq
          cases heq
          exact hrest message hfinish

/-! ## The table -/

theorem lookup_onRest (table : Table P ν) (id : Int16) :
    (table.map (onRest (μ := μ))).lookup id =
      (table.lookup id).map fun read ↦ (onRest (id, read)).2 := by
  induction table with
  | nil => rfl
  | cons arm rest ih =>
      rw [List.map_cons]
      by_cases hid : id = arm.1
      · subst hid
        simp [List.lookup, onRest]
      · have hne : (id == arm.1) = false := by simpa using hid
        simp only [onRest, List.lookup, hne] at ih ⊢
        exact ih

theorem mem_ids_of_written {fields : Fields P ν γ} {values : γ} {w : Written}
    (h : w ∈ fields.written values) : w.id ∈ fields.ids := by
  induction fields with
  | nil => cases h
  | required label field rest ih =>
      rw [written, List.mem_cons] at h
      rw [ids, List.mem_cons]
      exact h.imp (fun heq ↦ by rw [heq]; rfl) ih
  | optional field rest ih =>
      rw [ids, List.mem_cons]
      rcases values with ⟨_ | a, values⟩
      · exact .inr (ih h)
      · rw [written, Option.map_some, Option.toList_some, List.singleton_append, List.mem_cons] at h
        exact h.imp (fun heq ↦ by rw [heq]; rfl) ih

/-! ## Any order -/

/-- The loop over all fields, from the loop over the first one and the loop over the others. -/
theorem readsFields_merge {bound : Nat} {arm : Int16 × TReader P (μ → μ)} {table : Table P ν} {ws : List Written}
    {x x' : μ} {v v' : ν}
    (hfirst : ReadsFields bound [arm] x (ws.filter fun w ↦ w.id = arm.1) x')
    (hrest : ReadsFields bound table v (ws.filter fun w ↦ ¬w.id = arm.1) v') :
    ReadsFields bound (onFirst arm :: table.map onRest) (x, v) ws (x', v') := by
  induction ws generalizing x v with
  | nil =>
      cases hfirst
      cases hrest
      exact .nil _
  | cons w ws ih =>
      by_cases hid : w.id = arm.1
      · -- the next field is the first one's
        rw [List.filter_cons_of_pos (by simpa using hid)] at hfirst
        rw [List.filter_cons_of_neg (by simpa using hid)] at hrest
        have hown : [arm].lookup w.id = some arm.2 := by simp [List.lookup, hid]
        cases hfirst with
        | @known _ _ _ _ read set hlookup hread htype hfirst =>
            rw [hown] at hlookup
            cases hlookup
            have hlookup : (onFirst (ν := ν) arm :: table.map onRest).lookup w.id =
                some (onFirst arm).2 := by simp [List.lookup, onFirst, hid]
            have hreads : ReadsWithin bound (onFirst (ν := ν) arm).2 w.value
                fun vars ↦ (set vars.1, vars.2) := hread.bind_silent (ReadsWithin.pure bound _)
            exact .known hlookup hreads htype (ih hfirst hrest)
        | unknown hlookup _ _ =>
            rw [hown] at hlookup
            cases hlookup
      · -- it belongs to the others, or to nobody
        rw [List.filter_cons_of_neg (by simpa using hid)] at hfirst
        rw [List.filter_cons_of_pos (by simpa using hid)] at hrest
        have hne : (w.id == arm.1) = false := by simpa using hid
        have hlookup : (onFirst (ν := ν) arm :: table.map onRest).lookup w.id =
            (table.lookup w.id).map fun read ↦ (onRest (w.id, read)).2 := by
          simp only [onFirst, List.lookup, hne, lookup_onRest]
        cases hrest with
        | @known _ _ _ _ read set hown hread htype hrest =>
            rw [hown] at hlookup
            have hreads : ReadsWithin bound (onRest (μ := μ) (w.id, read)).2 w.value
                fun vars ↦ (vars.1, set vars.2) := hread.bind_silent (ReadsWithin.pure bound _)
            exact .known hlookup hreads htype (ih hfirst hrest)
        | unknown hown hskip hrest =>
            rw [hown] at hlookup
            exact .unknown hlookup hskip (ih hfirst hrest)

/-- The written fields of one id, taken out of a list that holds the fields of a struct. -/
theorem perm_split {i : Int16} {ids : List Int16} (hi : i ∉ ids) {ws front back : List Written}
    (hfront : ∀ w ∈ front, w.id = i) (hback : ∀ w ∈ back, w.id ∈ ids)
    (h : (ws.filter fun w ↦ w.id ∈ i :: ids).Perm (front ++ back)) :
    (ws.filter fun w ↦ w.id = i).Perm front ∧
      ((ws.filter fun w ↦ ¬w.id = i).filter fun w ↦ w.id ∈ ids).Perm back := by
  have hne : ∀ w ∈ back, ¬w.id = i := fun w hw heq ↦ hi (heq ▸ hback w hw)
  constructor
  · have hkeep : (front.filter fun w ↦ w.id = i) = front :=
      List.filter_eq_self.mpr (by simpa using hfront)
    have hdrop : (back.filter fun w ↦ w.id = i) = [] :=
      List.filter_eq_nil_iff.mpr (by simpa using hne)
    have hown := h.filter fun w ↦ w.id = i
    rw [List.filter_filter, List.filter_append, hkeep, hdrop, List.append_nil] at hown
    have hsame : (ws.filter fun w ↦ w.id = i) =
        ws.filter fun w ↦ decide (w.id = i) && decide (w.id ∈ i :: ids) := by
      apply List.filter_congr
      intro w _
      by_cases hid : w.id = i <;> simp [hid]
    rw [hsame]
    exact hown
  · have hdrop : (front.filter fun w ↦ ¬w.id = i) = [] :=
      List.filter_eq_nil_iff.mpr (by simpa using hfront)
    have hkeep : (back.filter fun w ↦ ¬w.id = i) = back :=
      List.filter_eq_self.mpr (by simpa using hne)
    have hothers := h.filter fun w ↦ ¬w.id = i
    rw [List.filter_filter, List.filter_append, hdrop, hkeep, List.nil_append] at hothers
    rw [List.filter_filter]
    have hsame : (ws.filter fun w ↦ decide (w.id ∈ ids) && decide ¬w.id = i) =
        ws.filter fun w ↦ decide (¬w.id = i) && decide (w.id ∈ i :: ids) := by
      apply List.filter_congr
      intro w _
      by_cases hid : w.id = i <;> simp [hid]
    rw [hsame]
    exact hothers

/-- A field that is known by its own id alone. -/
theorem readsFields_single {field : Field P α} {a : α} {fuel : Nat}
    (hfits : field.codec.fits a) :
    ReadsFields fuel [field.arm fuel] none [field.written a] (some a) := by
  have hlookup : [field.arm fuel].lookup (field.written a).id = some (field.arm fuel).2 := by
    simp [Field.arm, Field.written, List.lookup]
  have hreads : ReadsWithin fuel (field.arm fuel).2 (field.written a).value fun _ ↦ some a :=
    (field.codec.reads a hfits fuel).bind_silent (ReadsWithin.pure fuel _)
  obtain ⟨d, himage⟩ := field.codec.image a hfits
  exact .known hlookup hreads himage.ne_stop (.nil _)

/-- The loop fills the variables from the fields of a struct in any order, with unknown fields
anywhere among them. -/
theorem readsFields_any_order (fields : Fields P ν γ) (hids : fields.ids.Nodup) {values : γ}
    (hfits : fields.Fits values) (fuel : Nat) {ws : List Written}
    (hunknown : ∀ w ∈ ws, w.id ∉ fields.ids → Skippable P.limits w)
    (hperm : (ws.filter fun w ↦ w.id ∈ fields.ids).Perm (fields.written values)) :
    ReadsFields fuel (fields.table fuel) fields.init ws (fields.filled values) := by
  induction fields generalizing ws with
  | nil =>
      induction ws with
      | nil => exact .nil ()
      | cons w ws ih =>
          rw [List.forall_mem_cons] at hunknown
          exact .unknown rfl (hunknown.1 (by simp [ids])) (ih hunknown.2 (by simp [ids, written]))
  | required label field rest ih =>
      rw [ids, List.nodup_cons] at hids
      rw [written, ids] at hperm
      have hhead : ∀ w ∈ [field.written values.1], w.id = field.id := by simp [Field.written]
      obtain ⟨hown, hothers⟩ :=
        perm_split hids.1 hhead (fun w hw ↦ mem_ids_of_written hw) hperm
      refine readsFields_merge ?_ (ih hids.2 hfits.2 ?_ hothers)
      · show ReadsFields fuel [field.arm fuel] none (ws.filter fun w ↦ w.id = field.id) (some values.1)
        rw [hown.eq_singleton]
        exact readsFields_single hfits.1
      · intro w hw hid
        rw [List.mem_filter, decide_eq_true_eq] at hw
        exact hunknown w hw.1 (by rw [ids, List.mem_cons]; exact not_or.mpr ⟨hw.2, hid⟩)
  | optional field rest ih =>
      rw [ids, List.nodup_cons] at hids
      rcases values with ⟨value, values⟩
      rw [written, ids] at hperm
      -- The field is written exactly when the option holds a value.
      have hhead : ∀ w ∈ (value.map field.written).toList, w.id = field.id := by
        cases value <;> simp [Field.written]
      obtain ⟨hown, hothers⟩ :=
        perm_split hids.1 hhead (fun w hw ↦ mem_ids_of_written hw) hperm
      refine readsFields_merge ?_ (ih hids.2 hfits.2 ?_ hothers)
      · show ReadsFields fuel [field.arm fuel] none (ws.filter fun w ↦ w.id = field.id) value
        cases value with
        | none =>
            rw [List.perm_nil.mp hown]
            exact .nil none
        | some a =>
            rw [List.perm_singleton.mp hown]
            exact readsFields_single (hfits.1 a rfl)
      · intro w hw hid
        rw [List.mem_filter, decide_eq_true_eq] at hw
        exact hunknown w hw.1 (by rw [ids, List.mem_cons]; exact not_or.mpr ⟨hw.2, hid⟩)

theorem image_written {fields : Fields P ν γ} {values : γ} (h : fields.Fits values) :
    ∀ w ∈ fields.written values, ∃ d, Image P.limits d w.ttype w.value := by
  induction fields with
  | nil => exact fun w hw ↦ by cases hw
  | required label field rest ih =>
      rw [written, List.forall_mem_cons]
      exact ⟨field.codec.image _ h.1, ih h.2⟩
  | optional field rest ih =>
      rcases values with ⟨_ | a, values⟩
      · exact ih h.2
      · rw [written, Option.map_some, Option.toList_some, List.singleton_append,
          List.forall_mem_cons]
        exact ⟨field.codec.image a (h.1 a rfl), ih h.2⟩

theorem safeOn_table (fields : Fields P ν γ) (fuel : Nat) {id : Int16} {read : TReader P (ν → ν)}
    (h : (fields.table fuel).lookup id = some read) (s : P.σ) (hs : P.remaining s < fuel) :
    SafeOn read s := by
  have hstep : ∀ {α ν γ : Type} (field : Field P α) (rest : Fields P ν γ)
      {read : TReader P (Option α × ν → Option α × ν)},
      (∀ {read : TReader P (ν → ν)}, (rest.table fuel).lookup id = some read → SafeOn read s) →
      (onFirst (field.arm fuel) :: (rest.table fuel).map onRest).lookup id = some read →
      SafeOn read s := by
    intro α ν γ field rest read hrest h
    by_cases hid : id = field.id
    · have hread : some (onFirst (field.arm fuel)).2 = some read := by
        simpa [onFirst, Field.arm, List.lookup, hid] using h
      cases hread
      refine SafeOn.bind ?_ fun set s' _ _ ↦ SafeOn.pure _ s'
      exact (field.codec.safe fuel s hs).bind fun val s' _ _ ↦ SafeOn.pure _ s'
    · have hne : (id == field.id) = false := by simpa using hid
      simp only [onFirst, Field.arm, List.lookup, hne, lookup_onRest, Option.map_eq_some_iff] at h
      obtain ⟨inner, hinner, rfl⟩ := h
      exact (hrest hinner).bind fun set s' _ _ ↦ SafeOn.pure _ s'
  induction fields with
  | nil => cases h
  | required label field rest ih => exact hstep field rest ih h
  | optional field rest ih => exact hstep field rest ih h

end Fields

/-- A generated `read_from_in_protocol`, from the fields of the struct. -/
def Fields.readRecord (fields : Fields P ν γ) (make : γ → α) (fuel : Nat) : TReader P α :=
  readStruct (fields.table fuel) fields.init
    (fun vars ↦ do
      let values ← fields.finish vars
      pure (make values))
    fuel

/-- The reader takes the fields in any order, and skips the fields it does not know. -/
theorem Fields.reads_readRecord (fields : Fields P ν γ) (hids : fields.ids.Nodup) (make : γ → α)
    {values : γ} (hfits : fields.Fits values) (name : String) {ws : List Written}
    (hunknown : ∀ w ∈ ws, w.id ∉ fields.ids → Skippable P.limits w)
    (hperm : (ws.filter fun w ↦ w.id ∈ fields.ids).Perm (fields.written values)) (fuel : Nat) :
    ReadsWithin fuel (fields.readRecord make fuel) (structEmits name ws) (make values) := by
  have hfinish : (do
      let values' ← fields.finish (fields.filled values)
      pure (make values') : Outcome TError α) = .ok (make values) := by
    rw [fields.finish_filled]
    rfl
  have hloop := fields.readsFields_any_order hids hfits fuel hunknown hperm
  exact hloop.reads_struct hfinish name (Nat.le_succ fuel)

/-- A struct `α` with its fields. -/
structure Record (P : TProtocol) (α : Type) where
  {ν γ : Type}
  name : String
  fields : Fields P ν γ
  nodup_ids : fields.ids.Nodup
  make : γ → α
  parts : α → γ
  make_parts : ∀ a, make (parts a) = a

namespace Record

def write (r : Record P α) (a : α) : List Emit := structEmits r.name (r.fields.written (r.parts a))

def read (r : Record P α) (fuel : Nat) : TReader P α := r.fields.readRecord r.make fuel

/-- Whatever order its fields come in, and whatever other fields stand among them. -/
theorem reads_any_order (r : Record P α) {a : α} (hfits : r.fields.Fits (r.parts a))
    {ws : List Written} (hunknown : ∀ w ∈ ws, w.id ∉ r.fields.ids → Skippable P.limits w)
    (hperm : (ws.filter fun w ↦ w.id ∈ r.fields.ids).Perm (r.fields.written (r.parts a)))
    (fuel : Nat) : ReadsWithin fuel (r.read fuel) (structEmits r.name ws) a := by
  have hread := r.fields.reads_readRecord r.nodup_ids r.make hfits r.name hunknown hperm fuel
  rwa [r.make_parts] at hread

def codec (r : Record P α) : Codec P α where
  ttype := .struct
  write := r.write
  read := r.read
  fits a := r.fields.Fits (r.parts a)
  image a h := by
    obtain ⟨d, hd⟩ := Image.common (r.fields.image_written h)
    exact ⟨d + 1, .struct r.name hd⟩
  reads a h fuel := by
    have hknown : ∀ w ∈ r.fields.written (r.parts a), w.id ∈ r.fields.ids :=
      fun w hw ↦ Fields.mem_ids_of_written hw
    have hall : ((r.fields.written (r.parts a)).filter fun w ↦ w.id ∈ r.fields.ids) =
        r.fields.written (r.parts a) := List.filter_eq_self.mpr (by simpa using hknown)
    exact r.reads_any_order h (fun w hw hid ↦ absurd (hknown w hw) hid) (.of_eq hall) fuel
  safe fuel s hs := by
    have hfinish : ∀ vars, NoPanic (do
        let values ← r.fields.finish vars
        pure (r.make values) : Outcome TError α) := by
      intro vars
      have hvars := r.fields.noPanic_finish vars
      cases hvalues : r.fields.finish vars with
      | ok values => exact noPanic_ok (r.make values)
      | error fault =>
          intro message heq
          cases heq
          exact hvars message hvalues
    exact safeOn_readStruct
      (fun id read hlookup s hs ↦ r.fields.safeOn_table fuel hlookup s (by omega)) hfinish hs hs

end Record

end IotdbClient.Library
