import IotdbClient.Library.RustStd

/-!
# Length fields in a buffer

A buffer holds its items one after the other.  Some of them carry a payload, with an `i32` in front
of it that counts its bytes.  A length is a `usize` that the writer casts to `i32`.
-/

namespace IotdbClient.Library

theorem usizeAsI32_toInt_eq_iff (n : Nat) : (usizeAsI32 n).toInt = n ↔ n < 2 ^ 31 := by
  constructor
  · intro h
    have hlt := (usizeAsI32 n).toInt_lt
    omega
  · exact usizeAsI32_toInt

/-- The `i32` at a byte offset. -/
def i32At (buffer : List UInt8) (offset : Nat) : Int32 :=
  i32FromBeBytes ((buffer.drop offset).take 4)

/-- The field at `offset` counts the payload behind it. -/
def CountsPayload (buffer : List UInt8) (offset : Nat) (payload : List UInt8) : Prop :=
  (i32At buffer offset).toInt = payload.length ∧
    (buffer.drop (offset + 4)).take payload.length = payload

theorem i32At_of_drop {buffer rest : List UInt8} {offset : Nat} {v : Int32}
    (h : buffer.drop offset = i32ToBeBytes v ++ rest) : i32At buffer offset = v := by
  rw [i32At, h, List.take_left' (i32ToBeBytes_length v), i32FromBeBytes_toBeBytes]

theorem countsPayload_iff {buffer payload rest : List UInt8} {offset : Nat}
    (h : buffer.drop offset = i32ToBeBytes (usizeAsI32 payload.length) ++ (payload ++ rest)) :
    CountsPayload buffer offset payload ↔ payload.length < 2 ^ 31 := by
  have hpayload : buffer.drop (offset + 4) = payload ++ rest := by
    rw [← List.drop_drop, h, List.drop_left' (i32ToBeBytes_length _)]
  rw [CountsPayload, i32At_of_drop h, usizeAsI32_toInt_eq_iff, hpayload]
  exact and_iff_left (List.take_left' rfl)

/-- Where items stand in a buffer: how wide each is, and for those with a payload the number of
bytes in front of its length field. -/
structure Layout (α : Type) where
  width : α → Nat
  payload : α → Option (List UInt8)
  lead : Nat
  /-- Nothing follows the payload. -/
  width_payload : ∀ item bytes, payload item = some bytes → width item = lead + 4 + bytes.length

namespace Layout

variable {α : Type} (layout : Layout α)

/-- The first byte behind the items. -/
def offset (items : List α) : Nat := (items.map layout.width).sum

/-- Where a reader at `start` goes on after an item, by the length field if the item has one. -/
def next (buffer : List UInt8) (start : Nat) (item : α) : Nat :=
  match layout.payload item with
  | some _ => start + layout.lead + 4 + (i32At buffer (start + layout.lead)).toInt.toNat
  | none => start + layout.width item

/-- Every length field counts its payload, and a reader that follows the fields is at the start of
an item each time it reads one. -/
structure Framed (items : List α) (buffer : List UInt8) : Prop where
  lengths : ∀ before item after, items = before ++ item :: after →
    ∀ bytes, layout.payload item = some bytes →
      CountsPayload buffer (layout.offset before + layout.lead) bytes
  starts : ∀ before after, items = before ++ after →
    before.foldl (layout.next buffer) 0 = layout.offset before

/-- `image` writes the item as the layout has it. -/
structure Writes (image : α → List UInt8) (item : α) : Prop where
  width : (image item).length = layout.width item
  field : ∀ bytes, layout.payload item = some bytes → ∃ lead, lead.length = layout.lead ∧
    image item = lead ++ (i32ToBeBytes (usizeAsI32 bytes.length) ++ bytes)

variable {layout} {image : α → List UInt8} {items : List α}

theorem offset_append (before after : List α) :
    layout.offset (before ++ after) = layout.offset before + layout.offset after := by
  rw [offset, List.map_append, List.sum_append]
  rfl

theorem drop_offset (h : ∀ item ∈ items, layout.Writes image item) (rest : List UInt8) :
    (items.flatMap image ++ rest).drop (layout.offset items) = rest := by
  apply List.drop_left'
  rw [List.length_flatMap, offset]
  congr 1
  apply List.map_congr_left
  exact fun item hitem ↦ (h item hitem).width

/-- A reader only leaves the items by a length field that is not true. -/
theorem starts_of_lengths {buffer : List UInt8}
    (h : ∀ before item after, items = before ++ item :: after →
      ∀ bytes, layout.payload item = some bytes →
        CountsPayload buffer (layout.offset before + layout.lead) bytes)
    (before after : List α) (hsplit : items = before ++ after) :
    before.foldl (layout.next buffer) 0 = layout.offset before := by
  induction before using List.reverseRecOn generalizing after with
  | nil => rfl
  | append_singleton before item ih =>
      rw [List.append_assoc, List.singleton_append] at hsplit
      rw [List.foldl_append, ih _ hsplit, offset_append]
      have hitem : layout.offset [item] = layout.width item := by simp [offset]
      change layout.next buffer (layout.offset before) item = _
      rw [hitem]
      cases hbytes : layout.payload item with
      | none => simp only [next, hbytes]
      | some bytes =>
          have hcount := (h before item after hsplit bytes hbytes).1
          simp only [next, hbytes]
          rw [hcount, Int.toNat_natCast, layout.width_payload item bytes hbytes]
          omega

/-- The fields of a written buffer are true exactly where every payload is short enough. -/
theorem framed_iff (h : ∀ item ∈ items, layout.Writes image item) (rest : List UInt8) :
    layout.Framed items (items.flatMap image ++ rest) ↔
      ∀ item ∈ items, ∀ bytes, layout.payload item = some bytes → bytes.length < 2 ^ 31 := by
  -- the field of an item, wherever the item stands
  have hfield : ∀ before item after, items = before ++ item :: after →
      ∀ bytes, layout.payload item = some bytes →
      (CountsPayload (items.flatMap image ++ rest) (layout.offset before + layout.lead) bytes ↔
        bytes.length < 2 ^ 31) := by
    intro before item after hsplit bytes hbytes
    subst hsplit
    obtain ⟨lead, hlead, himage⟩ := (h item (by simp)).field bytes hbytes
    have hbefore : ∀ item ∈ before, layout.Writes image item := fun x hx ↦
      h x (List.mem_append_left _ hx)
    have hdrop : ((before ++ item :: after).flatMap image ++ rest).drop
        (layout.offset before + layout.lead) =
        i32ToBeBytes (usizeAsI32 bytes.length) ++ (bytes ++ (after.flatMap image ++ rest)) := by
      rw [List.flatMap_append, List.flatMap_cons, himage, List.append_assoc, ← List.drop_drop,
        drop_offset hbefore, List.append_assoc, List.append_assoc, List.drop_left' hlead,
        List.append_assoc]
    exact countsPayload_iff hdrop
  constructor
  · intro hframed item hitem bytes hbytes
    obtain ⟨before, after, hsplit⟩ := List.append_of_mem hitem
    exact (hfield before item after hsplit bytes hbytes).mp
      (hframed.lengths before item after hsplit bytes hbytes)
  · intro hshort
    have hlengths : ∀ before item after, items = before ++ item :: after →
        ∀ bytes, layout.payload item = some bytes →
        CountsPayload (items.flatMap image ++ rest) (layout.offset before + layout.lead) bytes := by
      intro before item after hsplit bytes hbytes
      apply (hfield before item after hsplit bytes hbytes).mpr
      exact hshort item (by rw [hsplit]; simp) bytes hbytes
    exact ⟨hlengths, starts_of_lengths hlengths⟩

end Layout

end IotdbClient.Library
