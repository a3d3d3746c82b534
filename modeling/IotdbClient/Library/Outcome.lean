import IotdbClient.Library.BigEndian

/-!
# Outcomes of Rust functions

A Rust function that returns `Result` ends in one of three ways: a value, an error value, or a
panic.  Indexing, slicing and unsigned subtraction panic out of range, so the operations here keep
the panic as an outcome of its own instead of ruling it out by a side condition.
-/

namespace IotdbClient.Library

/-- The two ways a function fails to return a value. -/
inductive Fault (ε : Type) where
  | error (e : ε)
  | panic (message : String)
deriving Repr, DecidableEq

abbrev Outcome (ε α : Type) := Except (Fault ε) α

/-- A `Vec<u8>` or `&[u8]`: Rust allocations hold at most `isize::MAX` bytes. -/
abbrev Slice := { bytes : List UInt8 // bytes.length < 2 ^ 63 }

variable {ε α : Type}

/-- `return Err(e)`. -/
def fail (e : ε) : Outcome ε α := .error (.error e)

/-- `values[i]`. -/
def index (values : List α) (i : Nat) : Outcome ε α :=
  match values[i]? with
  | some a => .ok a
  | none => .error (.panic "index out of bounds")

/-- `&values[start..stop]`. -/
def sliceRange (values : List α) (start stop : Nat) : Outcome ε (List α) :=
  if start ≤ stop ∧ stop ≤ values.length then .ok ((values.drop start).take (stop - start))
  else .error (.panic "range out of bounds")

/-- `usize` subtraction. -/
def usizeSub (a b : Nat) : Outcome ε Nat :=
  if b ≤ a then .ok (a - b) else .error (.panic "attempt to subtract with overflow")

/-- `usize::checked_add` on a 64-bit target. -/
def checkedAdd (a b : Nat) : Option Nat :=
  if a + b < 2 ^ 64 then some (a + b) else none

theorem index_of_getElem? {values : List α} {i : Nat} {a : α} (h : values[i]? = some a) :
    (index values i : Outcome ε α) = .ok a := by
  simp only [index, h]

theorem index_of_lt {values : List α} {i : Nat} (h : i < values.length) :
    (index values i : Outcome ε α) = .ok values[i] :=
  index_of_getElem? (List.getElem?_eq_getElem h)

theorem sliceRange_of_le {values : List α} {start stop : Nat} (hle : start ≤ stop)
    (hstop : stop ≤ values.length) :
    (sliceRange values start stop : Outcome ε (List α)) =
      .ok ((values.drop start).take (stop - start)) := by
  rw [sliceRange, if_pos ⟨hle, hstop⟩]

theorem usizeSub_of_le {a b : Nat} (h : b ≤ a) : (usizeSub a b : Outcome ε Nat) = .ok (a - b) := by
  rw [usizeSub, if_pos h]

theorem checkedAdd_of_lt {a b : Nat} (h : a + b < 2 ^ 64) : checkedAdd a b = some (a + b) := by
  rw [checkedAdd, if_pos h]

theorem bind_eq_ok {β : Type} {o : Except ε α} {f : α → Except ε β} {b : β} :
    (o >>= f) = .ok b ↔ ∃ a, o = .ok a ∧ f a = .ok b := by
  cases o with
  | error e => simp [bind, Except.bind]
  | ok a => simp [bind, Except.bind]

/-- A loop that ends well has run its body well on every element. -/
theorem mapM_eq_ok_mem {β : Type} {f : α → Except ε β} {l : List α} {out : List β}
    (h : l.mapM f = .ok out) {x : α} (hx : x ∈ l) : ∃ y, f x = .ok y := by
  induction l generalizing out with
  | nil => cases hx
  | cons a l ih =>
      rw [List.mapM_cons] at h
      obtain ⟨y, hy, hrest⟩ := bind_eq_ok.mp h
      obtain ⟨ys, hys, -⟩ := bind_eq_ok.mp hrest
      rcases List.mem_cons.mp hx with rfl | hx
      · exact ⟨y, hy⟩
      · exact ih hys hx

/-- A loop that ends well collects what its body returned. -/
theorem mem_of_mapM_eq_ok {β : Type} {f : α → Except ε β} {l : List α} {out : List β}
    (h : l.mapM f = .ok out) {y : β} (hy : y ∈ out) : ∃ x ∈ l, f x = .ok y := by
  induction l generalizing out with
  | nil =>
      rw [← Except.ok.inj h] at hy
      cases hy
  | cons a l ih =>
      rw [List.mapM_cons] at h
      obtain ⟨z, hz, hrest⟩ := bind_eq_ok.mp h
      obtain ⟨zs, hzs, hout⟩ := bind_eq_ok.mp hrest
      rw [← Except.ok.inj hout] at hy
      rcases List.mem_cons.mp hy with rfl | hy
      · exact ⟨a, List.mem_cons_self, hz⟩
      · obtain ⟨x, hx, hfx⟩ := ih hzs hy
        exact ⟨x, List.mem_cons_of_mem a hx, hfx⟩

theorem mapM_ok {β : Type} {f : α → Except ε β} {g : α → β} {l : List α}
    (h : ∀ x ∈ l, f x = .ok (g x)) : l.mapM f = .ok (l.map g) := by
  induction l with
  | nil => rfl
  | cons x xs ih =>
      rw [List.mapM_cons, h x List.mem_cons_self, ih fun y hy ↦ h y (List.mem_cons_of_mem x hy)]
      rfl

/-! ## Postconditions

`Ends E Q o`: the outcome is a value in `Q` or an error in `E`, never a panic. -/

def Ends (E : ε → Prop) (Q : α → Prop) : Outcome ε α → Prop
  | .ok a => Q a
  | .error (.error e) => E e
  | .error (.panic _) => False

theorem Ends.bind {β : Type} {E : ε → Prop} {Q : α → Prop} {R : β → Prop} {o : Outcome ε α}
    {f : α → Outcome ε β} (ho : Ends E Q o) (hf : ∀ a, Q a → Ends E R (f a)) :
    Ends E R (o >>= f) :=
  match o, ho with
  | .ok a, h => hf a h
  | .error (.error _), h => h

theorem Ends.mono {E : ε → Prop} {Q R : α → Prop} {o : Outcome ε α} (ho : Ends E Q o)
    (h : ∀ a, Q a → R a) : Ends E R o :=
  match o, ho with
  | .ok a, hq => h a hq
  | .error (.error _), he => he

theorem Ends.mapM {ι : Type} {E : ε → Prop} {P : α → Prop} {f : ι → Outcome ε α} (l : List ι)
    (h : ∀ x ∈ l, Ends E P (f x)) :
    Ends E (fun out ↦ out.length = l.length ∧ ∀ y ∈ out, P y) (l.mapM f) := by
  induction l with
  | nil => exact ⟨rfl, by simp⟩
  | cons x xs ih =>
      rw [List.mapM_cons]
      refine (h x List.mem_cons_self).bind fun y hy ↦ ?_
      refine (ih fun z hz ↦ h z (List.mem_cons_of_mem x hz)).bind fun ys hys ↦ ?_
      refine ⟨by rw [List.length_cons, List.length_cons, hys.1], ?_⟩
      rw [List.forall_mem_cons]
      exact ⟨hy, hys.2⟩

def NoPanic (o : Outcome ε α) : Prop := ∀ message, o ≠ .error (.panic message)

theorem Ends.noPanic {E : ε → Prop} {Q : α → Prop} {o : Outcome ε α} (h : Ends E Q o) :
    NoPanic o := by
  rintro message rfl
  exact h

theorem Ends.noPanic_error {β : Type} {E : ε → Prop} {Q : α → Prop} {fault : Fault ε}
    (h : Ends E Q (.error fault)) : NoPanic (.error fault : Outcome ε β) := by
  rintro message heq
  cases heq
  exact h

theorem noPanic_ok (a : α) : NoPanic (.ok a : Outcome ε α) := by
  rintro message heq
  cases heq

/-- A value or a panic. -/
def NoErr (o : Outcome ε α) : Prop := ∀ e, o ≠ .error (.error e)

theorem noErr_ok (a : α) : NoErr (.ok a : Outcome ε α) := by
  rintro e heq
  cases heq

theorem noErr_index (values : List α) (i : Nat) : NoErr (index values i : Outcome ε α) := by
  intro e heq
  unfold index at heq
  split at heq
  · cases heq
  · cases heq

theorem NoErr.bind {β : Type} {o : Outcome ε α} {f : α → Outcome ε β} (ho : NoErr o)
    (hf : ∀ a, NoErr (f a)) : NoErr (o >>= f) :=
  match o, ho with
  | .ok a, _ => hf a
  | .error (.error e), h => absurd rfl (h e)
  | .error (.panic _), _ => by
      rintro e heq
      cases heq

theorem NoErr.mapM {ι : Type} {f : ι → Outcome ε α} {l : List ι} (h : ∀ x ∈ l, NoErr (f x)) :
    NoErr (l.mapM f) := by
  induction l with
  | nil => exact noErr_ok []
  | cons x xs ih =>
      rw [List.forall_mem_cons] at h
      rw [List.mapM_cons]
      exact h.1.bind fun y ↦ (ih h.2).bind fun ys ↦ noErr_ok (y :: ys)

theorem NoErr.ends_iff {E : ε → Prop} {Q : α → Prop} {o : Outcome ε α} (h : NoErr o) :
    Ends E Q o ↔ ∃ a, o = .ok a ∧ Q a := by
  cases o with
  | ok a => simp [Ends]
  | error fault =>
      cases fault with
      | error e => exact absurd rfl (h e)
      | panic message => simp [Ends]

/-! ## Loops over the positions of a list -/

theorem map_getD_range (l : List α) (d : α) : (List.range l.length).map (fun i ↦ l.getD i d) = l := by
  apply List.ext_getElem
  · simp
  · intro i h1 h2
    simp [h2]

theorem mapM_range_ok {f : Nat → Except ε α} {l : List α}
    (h : ∀ i (hi : i < l.length), f i = .ok l[i]) : (List.range l.length).mapM f = .ok l := by
  cases l with
  | nil => rfl
  | cons a l =>
      rw [mapM_ok (g := fun i ↦ (a :: l).getD i a), map_getD_range]
      intro i hi
      have hlt := List.mem_range.mp hi
      rw [h i hlt, List.getD_eq_getElem _ _ hlt]

end IotdbClient.Library
