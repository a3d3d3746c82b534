import IotdbClient.Library.Tagged

/-!
# Reading structs

A generated `read_from_in_protocol` is one loop: it reads field headers up to the stop field, reads
the value of each field it knows into a variable of its own and skips the others.  `ReadsFields` says
what the loop does to the variables for a given list of written fields, one rule for each way a pass
of the loop can go.
-/

namespace IotdbClient.Library

variable {P : TProtocol} {α β ν : Type}

/-- `field_id(&field_ident)?`. -/
def fieldId (texts : Texts) (ident : TFieldIdentifier) : Outcome TError Int16 :=
  match ident.id with
  | some id => pure id
  | none => fail (.protocol .unknown (texts.missingFieldId ident))

/-- The fields a struct knows: for each id, how its value is read into the variables `ν`. -/
abbrev Table (P : TProtocol) (ν : Type) := List (Int16 × TReader P (ν → ν))

/-- `match field_id { .. }`: the value of a known field into its variable, any other skipped. -/
def readValue (table : Table P ν) (fieldType : TType) (id : Int16) (vars : ν) : TReader P ν :=
  match table.lookup id with
  | some read => do
      let set ← read
      pure (set vars)
  | none => do
      P.skip fieldType
      pure vars

/-- The `loop` of a generated reader.  Rust's loop has no bound; `fuel` bounds its passes here. -/
def readFields (table : Table P ν) : Nat → ν → TReader P ν
  | 0, _ => throw (.panic "out of fuel")
  | fuel + 1, vars => do
      let ident ← P.readFieldBegin
      if ident.fieldType = .stop then pure vars
      else do
        let id ← Program.ofOutcome (fieldId P.texts ident)
        let vars ← readValue table ident.fieldType id vars
        P.readFieldEnd
        readFields table fuel vars

/-- A generated `read_from_in_protocol`: `finish` checks that the required fields are there and
builds the struct. -/
def readStruct (table : Table P ν) (init : ν) (finish : ν → Outcome TError α) (fuel : Nat) :
    TReader P α := do
  P.readStructBegin
  let vars ← readFields table fuel init
  P.readStructEnd
  Program.ofOutcome (finish vars)

/-! ## Reading what was written

`ReadsWithin bound m es a`: where the next calls in the input are `es`, and less than `bound` is left of
it, the reader `m` takes exactly these and returns `a`. -/

def ReadsWithin (bound : Nat) (m : TReader P α) (es : List Emit) (a : α) : Prop :=
  ∀ s rest, P.holds s (es ++ rest) → P.remaining s < bound →
    ∃ s', m s = (.ok a, s') ∧ P.holds s' rest ∧ P.remaining s' ≤ P.remaining s

theorem Takes.reads {m : TReader P α} {es : List Emit} {a : α} (h : Takes P.holds m es a)
    (hsteady : Steady P.remaining m) (bound : Nat) : ReadsWithin bound m es a := by
  intro s rest hs _
  obtain ⟨s', hs', hholds⟩ := h s rest hs
  have hle := (hsteady s).2
  rw [hs'] at hle
  exact ⟨s', hs', hholds, hle⟩

theorem ReadsWithin.pure (bound : Nat) (a : α) : ReadsWithin bound (Pure.pure a : TReader P α) [] a :=
  fun s _ hs _ ↦ ⟨s, rfl, hs, Nat.le_refl _⟩

theorem ReadsWithin.ofOutcome (bound : Nat) {o : Outcome TError α} {a : α} (h : o = .ok a) :
    ReadsWithin bound (Program.ofOutcome o : TReader P α) [] a :=
  fun s _ hs _ ↦ ⟨s, by rw [Program.ofOutcome_apply, h], hs, Nat.le_refl _⟩

theorem ReadsWithin.bind {bound : Nat} {m : TReader P α} {f : α → TReader P β} {front back : List Emit}
    {a : α} {b : β} (hm : ReadsWithin bound m front a) (hf : ReadsWithin bound (f a) back b) :
    ReadsWithin bound (m >>= f) (front ++ back) b := by
  intro s rest hs hbound
  rw [List.append_assoc] at hs
  obtain ⟨mid, hmid, hholds, hle⟩ := hm s (back ++ rest) hs hbound
  obtain ⟨s', hs', hholds', hle'⟩ := hf mid rest hholds (by omega)
  refine ⟨s', ?_, hholds', by omega⟩
  rw [Program.bind_apply, hmid]
  exact hs'

/-- A first step that reads nothing. -/
theorem ReadsWithin.silent_bind {bound : Nat} {m : TReader P α} {f : α → TReader P β} {es : List Emit}
    {a : α} {b : β} (hm : ReadsWithin bound m [] a) (hf : ReadsWithin bound (f a) es b) :
    ReadsWithin bound (m >>= f) es b := hm.bind hf

/-- A last step that reads nothing. -/
theorem ReadsWithin.bind_silent {bound : Nat} {m : TReader P α} {f : α → TReader P β} {es : List Emit}
    {a : α} {b : β} (hm : ReadsWithin bound m es a) (hf : ReadsWithin bound (f a) [] b) :
    ReadsWithin bound (m >>= f) es b := by
  have h := hm.bind hf
  rwa [List.append_nil] at h

theorem ReadsWithin.mono {bound bound' : Nat} {m : TReader P α} {es : List Emit} {a : α}
    (h : ReadsWithin bound m es a) (hle : bound' ≤ bound) : ReadsWithin bound' m es a :=
  fun s rest hs hbound ↦ h s rest hs (by omega)

/-! ## What the loop does -/

/-- A field that a reader can skip. -/
def Skippable (limits : Limits) (w : Written) : Prop :=
  Image limits maximumSkipDepth w.ttype w.value ∧ AllText w.value

inductive ReadsFields (bound : Nat) (table : Table P ν) : ν → List Written → ν → Prop where
  | nil (vars : ν) : ReadsFields bound table vars [] vars
  | known {vars vars' : ν} {w : Written} {ws : List Written} {read : TReader P (ν → ν)} {set : ν → ν}
      (hlookup : table.lookup w.id = some read) (hread : ReadsWithin bound read w.value set)
      (htype : w.ttype ≠ .stop) (hrest : ReadsFields bound table (set vars) ws vars') :
      ReadsFields bound table vars (w :: ws) vars'
  | unknown {vars vars' : ν} {w : Written} {ws : List Written} (hlookup : table.lookup w.id = none)
      (hskip : Skippable P.limits w) (hrest : ReadsFields bound table vars ws vars') : ReadsFields bound table vars (w :: ws) vars'

/-- One pass over a field.  The header uses up a part of the input, so the value and the later passes
have less of it left than the fuel before the pass. -/
theorem reads_pass {table : Table P ν} {w : Written} {es : List Emit} {vars vars' out : ν} {fuel : Nat}
    (htype : w.ttype ≠ .stop) (hvalue : ReadsWithin fuel (readValue table w.ttype w.id vars) w.value vars')
    (hrest : ReadsWithin fuel (readFields table fuel vars') es out) :
    ReadsWithin (fuel + 1) (readFields table (fuel + 1) vars) (w.emits ++ es) out := by
  intro s rest hs hbound
  have hcalls : w.emits ++ es ++ rest =
      [.fieldBegin w.name w.ttype w.id] ++ ((w.value ++ ([.fieldEnd] ++ es)) ++ rest) := by
    simp [Written.emits]
  rw [hcalls] at hs
  obtain ⟨mid, hmid, hholds⟩ := P.takes_fieldBegin w.name w.ttype w.id htype s _ hs
  have hless := P.shrinks_fieldBegin hmid htype
  have hothers : ReadsWithin fuel
      (do
        let vars ← readValue table w.ttype w.id vars
        P.readFieldEnd
        readFields table fuel vars)
      (w.value ++ ([.fieldEnd] ++ es)) out :=
    hvalue.bind ((P.takes_fieldEnd.reads P.steady_fieldEnd fuel).bind hrest)
  obtain ⟨s', hs', hholds', hle'⟩ := hothers mid rest hholds (by omega)
  refine ⟨s', ?_, hholds', by omega⟩
  rw [readFields, Program.bind_apply, hmid]
  simp only [if_neg htype]
  exact hs'

/-- The loop reads the fields it is given: the fuel suffices because each header shortens the input. -/
theorem ReadsFields.reads {bound : Nat} {table : Table P ν} {vars vars' : ν} {ws : List Written}
    (h : ReadsFields bound table vars ws vars') {fuel : Nat} (hfuel : fuel ≤ bound + 1) :
    ReadsWithin fuel (readFields table fuel vars) (ws.flatMap Written.emits ++ [.fieldStop]) vars' := by
  induction h generalizing fuel with
  | nil vars =>
      obtain ⟨ident, hstop, htakes⟩ := P.takes_fieldStop
      cases fuel with
      | zero => exact fun s rest hs hbound ↦ absurd hbound (by omega)
      | succ fuel =>
          rw [readFields]
          apply (htakes.reads P.steady_fieldBegin _).bind_silent
          rw [if_pos hstop]
          exact ReadsWithin.pure _ vars
  | @known vars vars' w ws read set hlookup hread htype _ ih =>
      cases fuel with
      | zero => exact fun s rest hs hbound ↦ absurd hbound (by omega)
      | succ fuel =>
          rw [List.flatMap_cons, List.append_assoc]
          apply reads_pass htype _ (ih (by omega))
          rw [readValue, hlookup]
          exact (hread.mono (by omega)).bind_silent (ReadsWithin.pure _ (set vars))
  | @unknown vars vars' w ws hlookup hskip _ ih =>
      cases fuel with
      | zero => exact fun s rest hs hbound ↦ absurd hbound (by omega)
      | succ fuel =>
          rw [List.flatMap_cons, List.append_assoc]
          apply reads_pass hskip.1.ne_stop _ (ih (by omega))
          rw [readValue, hlookup]
          exact ((P.takes_skip hskip.1 hskip.2).reads (P.steady_skip _) _).bind_silent (ReadsWithin.pure _ vars)

theorem ReadsFields.reads_struct {bound : Nat} {table : Table P ν} {init vars : ν}
    {ws : List Written} (h : ReadsFields bound table init ws vars) {finish : ν → Outcome TError α}
    {a : α} (hfinish : finish vars = .ok a) (name : String) {fuel : Nat} (hfuel : fuel ≤ bound + 1) :
    ReadsWithin fuel (readStruct table init finish fuel) (structEmits name ws) a := by
  have hread : ReadsWithin fuel (readStruct table init finish fuel)
      ([.structBegin name] ++ (ws.flatMap Written.emits ++ [.fieldStop] ++ [.structEnd])) a := by
    rw [readStruct]
    apply ((P.takes_structBegin name).reads P.steady_structBegin fuel).bind
    apply (h.reads hfuel).bind
    apply (P.takes_structEnd.reads P.steady_structEnd fuel).bind_silent
    exact ReadsWithin.ofOutcome fuel hfinish
  simpa [structEmits] using hread

/-! ## Any input

`Safe m s`: on the input `s` the reader `m` ends with a value or an error and gives nothing back. -/

def SafeOn (m : TReader P α) (s : P.σ) : Prop :=
  NoPanic (m s).1 ∧ P.remaining (m s).2 ≤ P.remaining s

theorem SafeOn.pure (a : α) (s : P.σ) : SafeOn (Pure.pure a : TReader P α) s :=
  ⟨noPanic_ok a, Nat.le_refl _⟩

theorem SafeOn.bind {m : TReader P α} {f : α → TReader P β} {s : P.σ} (hm : SafeOn m s)
    (hf : ∀ a s', m s = (.ok a, s') → P.remaining s' ≤ P.remaining s → SafeOn (f a) s') :
    SafeOn (m >>= f) s := by
  unfold SafeOn at hm ⊢
  rw [Program.bind_apply]
  rcases hrun : m s with ⟨fault | a, s'⟩ <;> rw [hrun] at hm
  · refine ⟨?_, hm.2⟩
    intro message heq
    cases heq
    exact hm.1 message rfl
  · have hlast := hf a s' hrun hm.2
    exact ⟨hlast.1, Nat.le_trans hlast.2 hm.2⟩

theorem SafeOn.ofOutcome {o : Outcome TError α} (h : NoPanic o) (s : P.σ) :
    SafeOn (Program.ofOutcome o : TReader P α) s := ⟨h, Nat.le_refl _⟩

theorem noPanic_fieldId (texts : Texts) (ident : TFieldIdentifier) :
    NoPanic (fieldId texts ident) := by
  intro message heq
  unfold fieldId at heq
  split at heq <;> cases heq

/-- The loop ends on every input: each field header uses some of it up. -/
theorem safeOn_readFields {table : Table P ν} {bound : Nat}
    (htable : ∀ id read, table.lookup id = some read → ∀ s, P.remaining s + 1 < bound → SafeOn read s)
    (fuel : Nat) (vars : ν) (s : P.σ) (hfuel : P.remaining s < fuel) (hbound : P.remaining s < bound) :
    SafeOn (readFields table fuel vars) s := by
  induction fuel generalizing vars s with
  | zero => omega
  | succ fuel ih =>
      rw [readFields]
      refine SafeOn.bind (P.steady_fieldBegin s) fun ident s₁ hbegin hle₁ ↦ ?_
      by_cases hstop : ident.fieldType = .stop
      · rw [if_pos hstop]
        exact SafeOn.pure vars s₁
      · rw [if_neg hstop]
        have hless := P.shrinks_fieldBegin hbegin hstop
        refine SafeOn.bind (SafeOn.ofOutcome (noPanic_fieldId P.texts ident) s₁) fun id s₂ _ hle₂ ↦ ?_
        have hvalue : SafeOn (readValue table ident.fieldType id vars) s₂ := by
          rw [readValue]
          cases hlookup : table.lookup id with
          | some read =>
              have hread := htable id read hlookup s₂ (by omega)
              exact hread.bind fun set s' _ _ ↦ SafeOn.pure (set vars) s'
          | none => exact SafeOn.bind (P.steady_skip _ s₂) fun _ s' _ _ ↦ SafeOn.pure vars s'
        refine hvalue.bind fun vars' s₃ _ hle₃ ↦ ?_
        refine SafeOn.bind (P.steady_fieldEnd s₃) fun _ s₄ _ hle₄ ↦ ?_
        exact ih vars' s₄ (by omega) (by omega)

theorem safeOn_readStruct {table : Table P ν} {init : ν} {finish : ν → Outcome TError α}
    {fuel bound : Nat} {s : P.σ}
    (htable : ∀ id read, table.lookup id = some read → ∀ s, P.remaining s + 1 < bound → SafeOn read s)
    (hfinish : ∀ vars, NoPanic (finish vars)) (hfuel : P.remaining s < fuel)
    (hbound : P.remaining s < bound) : SafeOn (readStruct table init finish fuel) s := by
  rw [readStruct]
  refine SafeOn.bind (P.steady_structBegin s) fun _ s₁ _ hle₁ ↦ ?_
  refine SafeOn.bind (safeOn_readFields htable fuel init s₁ (by omega) (by omega)) fun vars s₂ _ _ ↦ ?_
  refine SafeOn.bind (P.steady_structEnd s₂) fun _ s₃ _ _ ↦ ?_
  exact SafeOn.ofOutcome (hfinish vars) s₃

end IotdbClient.Library
