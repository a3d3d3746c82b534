import IotdbClient.Library.RustStd

/-!
# List parsers

Reference decoders that the model's output is read back with.  A parser takes a byte string apart
from the front; `Parses p bytes a` says that `p` recognises `bytes` as `a` and leaves alone whatever
comes after.
-/

namespace IotdbClient.Library

abbrev Parser (α : Type) := StateT (List UInt8) Option α

namespace Parser

def takeBytes (n : Nat) : Parser (List UInt8) := fun input ↦
  if n ≤ input.length then some (input.take n, input.drop n) else none

def byte : Parser UInt8
  | [] => none
  | b :: rest => some (b, rest)

def i32 : Parser Int32 := i32FromBeBytes <$> takeBytes 4

def i64 : Parser Int64 := i64FromBeBytes <$> takeBytes 8

def many {α : Type} (p : Parser α) : Nat → Parser (List α)
  | 0 => pure []
  | n + 1 => do
      let a ← p
      let as ← many p n
      pure (a :: as)

/-- Items to the end of the input, at most `fuel` of them. -/
def untilEnd {α : Type} (p : Parser α) : Nat → List UInt8 → Option (List α)
  | _, [] => some []
  | 0, _ :: _ => none
  | fuel + 1, b :: input => do
      let (a, rest) ← p (b :: input)
      let as ← untilEnd p fuel rest
      pure (a :: as)

end Parser

variable {α β ι : Type}

def Parses (p : Parser α) (bytes : List UInt8) (a : α) : Prop :=
  ∀ post : List UInt8, p (bytes ++ post) = some (a, post)

theorem Parses.pure (a : α) : Parses (pure a) [] a := fun _ ↦ rfl

theorem Parses.bind {p : Parser α} {f : α → Parser β} {front back : List UInt8} {a : α} {b : β}
    (hp : Parses p front a) (hf : Parses (f a) back b) : Parses (p >>= f) (front ++ back) b := by
  intro post
  change (p (front ++ back ++ post)).bind (fun r ↦ f r.1 r.2) = _
  rw [List.append_assoc, hp]
  exact hf post

/-- A last step that reads nothing. -/
theorem Parses.bind_pure {p : Parser α} {f : α → Parser β} {bytes : List UInt8} {a : α} {b : β}
    (hp : Parses p bytes a) (hf : f a = Pure.pure b) : Parses (p >>= f) bytes b := by
  have hlast : Parses (f a) [] b := by
    rw [hf]
    exact Parses.pure b
  have h := hp.bind hlast
  rwa [List.append_nil] at h

theorem Parses.map {p : Parser α} {bytes : List UInt8} {a : α} (f : α → β) (hp : Parses p bytes a) :
    Parses (f <$> p) bytes (f a) := by
  intro post
  change (p (bytes ++ post)).bind (fun r ↦ some (f r.1, r.2)) = _
  rw [hp]
  rfl

theorem Parses.takeBytes {n : Nat} (bytes : List UInt8) (h : bytes.length = n) :
    Parses (Parser.takeBytes n) bytes bytes := by
  intro post
  subst h
  rw [Parser.takeBytes, if_pos (by rw [List.length_append]; omega), List.take_left, List.drop_left]

theorem Parses.byte (b : UInt8) : Parses Parser.byte [b] b := fun _ ↦ rfl

theorem Parses.i32 (v : Int32) : Parses Parser.i32 (i32ToBeBytes v) v := by
  have h := (Parses.takeBytes (i32ToBeBytes v) (i32ToBeBytes_length v)).map i32FromBeBytes
  rwa [i32FromBeBytes_toBeBytes] at h

theorem Parses.i64 (v : Int64) : Parses Parser.i64 (i64ToBeBytes v) v := by
  have h := (Parses.takeBytes (i64ToBeBytes v) (i64ToBeBytes_length v)).map i64FromBeBytes
  rwa [i64FromBeBytes_toBeBytes] at h

theorem Parses.many {p : Parser β} {bytes : ι → List UInt8} {out : ι → β} (l : List ι)
    (h : ∀ x ∈ l, Parses p (bytes x) (out x)) :
    Parses (Parser.many p l.length) (l.flatMap bytes) (l.map out) := by
  induction l with
  | nil => exact Parses.pure []
  | cons x xs ih =>
      rw [List.flatMap_cons, List.map_cons, List.length_cons]
      have hxs := ih fun y hy ↦ h y (List.mem_cons_of_mem x hy)
      exact (h x List.mem_cons_self).bind (hxs.bind_pure rfl)

/-- Items that are read back one by one are read back to the end: the markers between them need no
count, as long as no item is empty. -/
theorem Parses.untilEnd {p : Parser β} {bytes : ι → List UInt8} {out : ι → β} (l : List ι)
    (h : ∀ x ∈ l, Parses p (bytes x) (out x)) (hne : ∀ x ∈ l, bytes x ≠ []) (fuel : Nat)
    (hfuel : l.length ≤ fuel) : Parser.untilEnd p fuel (l.flatMap bytes) = some (l.map out) := by
  induction l generalizing fuel with
  | nil => rw [List.flatMap_nil, Parser.untilEnd, List.map_nil]
  | cons x xs ih =>
      rw [List.forall_mem_cons] at h hne
      cases fuel with
      | zero => simp at hfuel
      | succ fuel =>
          obtain ⟨b, rest, hb⟩ := List.exists_cons_of_ne_nil hne.1
          have hitem := h.1 (xs.flatMap bytes)
          have hrest := ih h.2 hne.2 fuel (by simpa using hfuel)
          rw [List.flatMap_cons, List.map_cons]
          rw [hb, List.cons_append] at hitem ⊢
          rw [Parser.untilEnd, hitem]
          change (Parser.untilEnd p fuel (xs.flatMap bytes)).bind _ = _
          rw [hrest]
          rfl

theorem Parses.mapM {f : ι → Parser β} {bytes : ι → List UInt8} {out : ι → β} (l : List ι)
    (h : ∀ x ∈ l, Parses (f x) (bytes x) (out x)) :
    Parses (l.mapM f) (l.flatMap bytes) (l.map out) := by
  induction l with
  | nil => exact Parses.pure []
  | cons x xs ih =>
      rw [List.mapM_cons, List.flatMap_cons, List.map_cons]
      have hxs := ih fun y hy ↦ h y (List.mem_cons_of_mem x hy)
      exact (h x List.mem_cons_self).bind (hxs.bind_pure rfl)

end IotdbClient.Library
