import IotdbClient.Library.RustStd

/-!
# Cursor programs

A decoder is a program over a byte slice and a position in it.  Four judgements carry all proofs
about decoders: `Consumes m bytes a` (standing before `bytes`, the program `m` reads exactly these
and returns `a`, whatever follows), `Safe m Q` (from any position in range, `m` ends with a value
that satisfies `Q` or with an error, never in a panic, and leaves the position in range),
`Determined E m` (what `m` returns depends on the bytes it reads and on nothing else) and
`Follows m n R` (where `m` succeeds, `n` reads the same bytes).
-/

namespace IotdbClient.Library

structure Cursor where
  buf : Slice
  pos : Nat

abbrev CursorM (ε α : Type) := StateT Cursor (Outcome ε) α

namespace Cursor

def InRange (c : Cursor) : Prop := c.pos ≤ c.buf.val.length

def rest (c : Cursor) : List UInt8 := c.buf.val.drop c.pos

def advance (c : Cursor) (n : Nat) : Cursor := { c with pos := c.pos + n }

@[simp] theorem advance_buf (c : Cursor) (n : Nat) : (c.advance n).buf = c.buf := rfl
@[simp] theorem advance_pos (c : Cursor) (n : Nat) : (c.advance n).pos = c.pos + n := rfl

theorem advance_advance (c : Cursor) (m n : Nat) :
    (c.advance m).advance n = c.advance (m + n) := by
  simp only [advance, Nat.add_assoc]

theorem rest_length (c : Cursor) : c.rest.length = c.buf.val.length - c.pos := List.length_drop

theorem rest_advance {c : Cursor} {bytes post : List UInt8} (h : c.rest = bytes ++ post) :
    (c.advance bytes.length).rest = post := by
  rw [rest, advance_buf, advance_pos, ← List.drop_drop]
  change c.rest.drop bytes.length = post
  rw [h, List.drop_left]

theorem inRange_advance {c : Cursor} {bytes post : List UInt8} (hc : c.InRange)
    (h : c.rest = bytes ++ post) : (c.advance bytes.length).InRange := by
  have hlen := congrArg List.length h
  rw [rest_length, List.length_append] at hlen
  unfold InRange at hc ⊢
  rw [advance_buf, advance_pos]
  omega

end Cursor

variable {ε α β ι : Type}

/-! ## Exact consumption -/

def Consumes (m : CursorM ε α) (bytes : List UInt8) (a : α) : Prop :=
  ∀ (c : Cursor) (post : List UInt8), c.InRange → c.rest = bytes ++ post →
    m c = .ok (a, c.advance bytes.length)

theorem Consumes.pure (a : α) : Consumes (pure a : CursorM ε α) [] a := fun _ _ _ _ ↦ rfl

theorem Consumes.bind {m : CursorM ε α} {f : α → CursorM ε β} {front back : List UInt8}
    {a : α} {b : β} (hm : Consumes m front a) (hf : Consumes (f a) back b) :
    Consumes (m >>= f) (front ++ back) b := by
  intro c post hc hrest
  rw [List.append_assoc] at hrest
  have hnext := hf (c.advance front.length) post (Cursor.inRange_advance hc hrest)
    (Cursor.rest_advance hrest)
  change (m c >>= fun p ↦ f p.1 p.2) = _
  rw [hm c _ hc hrest]
  change f a (c.advance front.length) = _
  rw [hnext, Cursor.advance_advance, List.length_append]

/-- A last step that reads nothing. -/
theorem Consumes.bind_pure {m : CursorM ε α} {f : α → CursorM ε β} {bytes : List UInt8}
    {a : α} {b : β} (hm : Consumes m bytes a) (hf : f a = Pure.pure b) :
    Consumes (m >>= f) bytes b := by
  have hlast : Consumes (f a) [] b := by
    rw [hf]
    exact Consumes.pure b
  have h := hm.bind hlast
  rwa [List.append_nil] at h

/-- A step that does not touch the cursor. -/
theorem Consumes.lift_bind {o : Outcome ε α} {f : α → CursorM ε β} {bytes : List UInt8} {a : α}
    {b : β} (ho : o = .ok a) (hf : Consumes (f a) bytes b) :
    Consumes ((liftM o : CursorM ε α) >>= f) bytes b := by
  subst ho
  exact hf

theorem Consumes.mapM {f : ι → CursorM ε β} {bytes : ι → List UInt8} {out : ι → β}
    (l : List ι) (h : ∀ x ∈ l, Consumes (f x) (bytes x) (out x)) :
    Consumes (l.mapM f) (l.flatMap bytes) (l.map out) := by
  induction l with
  | nil => exact Consumes.pure []
  | cons x xs ih =>
      rw [List.mapM_cons, List.flatMap_cons, List.map_cons]
      have hxs := ih fun y hy ↦ h y (List.mem_cons_of_mem x hy)
      exact (h x List.mem_cons_self).bind (hxs.bind_pure rfl)

/-- A loop whose reads and results are given position by position. -/
theorem Consumes.mapM_pieces {f : ι → CursorM ε β} (l : List ι) (pieces : List (List UInt8))
    (out : List β) (hpieces : pieces.length = l.length) (hout : out.length = l.length)
    (h : ∀ (i : Nat) (x : ι) (p : List UInt8) (b : β), l[i]? = some x → pieces[i]? = some p →
      out[i]? = some b → Consumes (f x) p b) :
    Consumes (l.mapM f) pieces.flatten out := by
  induction l generalizing pieces out with
  | nil =>
      rw [List.length_eq_zero_iff.mp hpieces, List.length_eq_zero_iff.mp hout]
      exact Consumes.pure []
  | cons x xs ih =>
      obtain ⟨p, ps, rfl⟩ := List.exists_cons_of_length_eq_add_one hpieces
      obtain ⟨b, bs, rfl⟩ := List.exists_cons_of_length_eq_add_one hout
      rw [List.mapM_cons, List.flatten_cons]
      have hhead := h 0 x p b rfl rfl rfl
      have htail := ih ps bs (by simpa using hpieces) (by simpa using hout)
        fun i ↦ h (i + 1)
      exact hhead.bind (htail.bind_pure rfl)

/-! ## Safety -/

def Safe (E : ε → Prop) (m : CursorM ε α) (Q : α → Prop) : Prop :=
  ∀ c : Cursor, c.InRange → Ends E (fun p ↦ Q p.1 ∧ p.2.buf = c.buf ∧ p.2.InRange) (m c)

variable {E : ε → Prop}

theorem Safe.pure {a : α} {Q : α → Prop} (h : Q a) : Safe E (pure a) Q := fun _ hc ↦ ⟨h, rfl, hc⟩

/-- A step that does not touch the cursor. -/
theorem Safe.lift {o : Outcome ε α} {Q : α → Prop} (h : Ends E Q o) : Safe E (liftM o) Q :=
  fun _ hc ↦ h.bind fun _ ha ↦ ⟨ha, rfl, hc⟩

theorem Safe.bind {m : CursorM ε α} {f : α → CursorM ε β} {Q : α → Prop} {R : β → Prop}
    (hm : Safe E m Q) (hf : ∀ a, Q a → Safe E (f a) R) : Safe E (m >>= f) R := by
  intro c hc
  refine (hm c hc).bind ?_
  rintro ⟨a, c'⟩ ⟨ha, hbuf, hc'⟩
  rw [← hbuf]
  exact hf a ha c' hc'

theorem Safe.mono {m : CursorM ε α} {Q R : α → Prop} (hm : Safe E m Q) (h : ∀ a, Q a → R a) :
    Safe E m R :=
  fun c hc ↦ (hm c hc).mono fun p hp ↦ ⟨h p.1 hp.1, hp.2⟩

/-- A loop that pushes one value for each element ends with as many values as elements. -/
theorem Safe.mapM {f : ι → CursorM ε β} {P : β → Prop} (l : List ι)
    (h : ∀ x ∈ l, Safe E (f x) P) :
    Safe E (l.mapM f) fun out ↦ out.length = l.length ∧ ∀ y ∈ out, P y := by
  induction l with
  | nil => exact Safe.pure ⟨rfl, by simp⟩
  | cons x xs ih =>
      rw [List.mapM_cons]
      refine (h x List.mem_cons_self).bind fun y hy ↦ ?_
      refine (ih fun z hz ↦ h z (List.mem_cons_of_mem x hz)).bind fun ys hys ↦ ?_
      refine Safe.pure ⟨by rw [List.length_cons, List.length_cons, hys.1], ?_⟩
      rw [List.forall_mem_cons]
      exact ⟨hy, hys.2⟩

/-! ## Determined consumption -/

/-- Whenever `m` succeeds, it has read certain bytes and would succeed on these whatever followed, while
on a proper beginning of them it ends with an error in `E`. -/
def Determined (E : ε → Prop) (m : CursorM ε α) : Prop :=
  ∀ (c c' : Cursor) (a : α), c.InRange → m c = .ok (a, c') →
    ∃ bytes, bytes <+: c.rest ∧ Consumes m bytes a ∧
      ∀ d : Cursor, d.InRange → d.rest <+: bytes → d.rest.length < bytes.length →
        ∃ e, E e ∧ m d = .error (.error e)

/-- A step that does not touch the cursor. -/
theorem Determined.lift (o : Outcome ε α) : Determined E (liftM o) := by
  intro c c' a hc hrun
  cases o with
  | error fault => cases hrun
  | ok b =>
      cases hrun
      refine ⟨[], List.nil_prefix, Consumes.pure a, fun d _ _ hlt ↦ ?_⟩
      cases hlt

theorem Determined.pure (a : α) : Determined E (pure a : CursorM ε α) := Determined.lift (.ok a)

theorem Determined.bind {m : CursorM ε α} {f : α → CursorM ε β} (hm : Determined E m)
    (hf : ∀ a, Determined E (f a)) : Determined E (m >>= f) := by
  intro c c' b hc hrun
  obtain ⟨⟨a, mid⟩, hfirst, hsecond⟩ := bind_eq_ok.mp hrun
  obtain ⟨front, ⟨post, hfront⟩, hconsumes, hcut⟩ := hm c mid a hc hfirst
  have hmid := hconsumes c post hc hfront.symm
  rw [hfirst] at hmid
  obtain rfl : mid = c.advance front.length := by cases hmid; rfl
  obtain ⟨back, ⟨post', hback⟩, hconsumes', hcut'⟩ :=
    hf a _ c' b (Cursor.inRange_advance hc hfront.symm) hsecond
  rw [Cursor.rest_advance hfront.symm] at hback
  refine ⟨front ++ back, ⟨post', ?_⟩, hconsumes.bind hconsumes', fun d hd hprefix hlt ↦ ?_⟩
  · rw [List.append_assoc, hback, hfront]
  · by_cases hshort : d.rest.length < front.length
    · -- The cut is in what the first program reads.
      have hprefix' := List.prefix_of_prefix_length_le hprefix (List.prefix_append front back)
        hshort.le
      obtain ⟨e, he, hfails⟩ := hcut d hd hprefix' hshort
      refine ⟨e, he, ?_⟩
      change (m d >>= fun p ↦ f p.1 p.2) = _
      rw [hfails]
      rfl
    · -- The first program has all its bytes, and the second is left with too few.
      obtain ⟨left, hleft⟩ := List.prefix_of_prefix_length_le (List.prefix_append front back) hprefix
        (Nat.not_lt.mp hshort)
      have hrest := Cursor.rest_advance hleft.symm
      have hprefix' : left <+: back := by
        rw [← hleft] at hprefix
        exact (List.prefix_append_right_inj front).mp hprefix
      have hlt' : left.length < back.length := by
        rw [← hleft, List.length_append, List.length_append] at hlt
        omega
      obtain ⟨e, he, hfails⟩ := hcut' (d.advance front.length)
        (Cursor.inRange_advance hd hleft.symm) (by rwa [hrest]) (by rwa [hrest])
      refine ⟨e, he, ?_⟩
      change (m d >>= fun p ↦ f p.1 p.2) = _
      rw [hconsumes d left hd hleft.symm]
      exact hfails

theorem Determined.mapM {f : ι → CursorM ε β} (h : ∀ x, Determined E (f x)) (l : List ι) :
    Determined E (l.mapM f) := by
  induction l with
  | nil => exact Determined.pure []
  | cons x xs ih =>
      rw [List.mapM_cons]
      exact (h x).bind fun y ↦ ih.bind fun ys ↦ Determined.pure (y :: ys)

/-! ## Two programs over the same bytes -/

/-- Wherever `m` succeeds, `n` succeeds and stops at the same place, with a result in `R`. -/
def Follows (m : CursorM ε α) (n : CursorM ε β) (R : α → β → Prop) : Prop :=
  ∀ (c c' : Cursor) (a : α), c.InRange → m c = .ok (a, c') →
    c'.InRange ∧ ∃ b, n c = .ok (b, c') ∧ R a b

section

variable {γ δ κ : Type} {R : α → β → Prop} {S : γ → δ → Prop}

/-- Both run the same program. -/
theorem Safe.follows {m : CursorM ε α} {Q : α → Prop} (hm : Safe E m Q) :
    Follows m m fun a b ↦ a = b ∧ Q a := by
  intro c c' a hc hrun
  have hends := hm c hc
  rw [hrun] at hends
  exact ⟨hends.2.2, a, hrun, rfl, hends.1⟩

theorem Follows.pure {a : α} {b : β} (h : R a b) :
    Follows (pure a : CursorM ε α) (pure b : CursorM ε β) R := by
  intro c c' a' hc hrun
  cases hrun
  exact ⟨hc, b, rfl, h⟩

theorem Follows.bind {m : CursorM ε α} {n : CursorM ε β} {f : α → CursorM ε γ}
    {g : β → CursorM ε δ} (hm : Follows m n R) (hf : ∀ a b, R a b → Follows (f a) (g b) S) :
    Follows (m >>= f) (n >>= g) S := by
  intro c c' x hc hrun
  obtain ⟨⟨a, mid⟩, hfirst, hsecond⟩ := bind_eq_ok.mp hrun
  obtain ⟨hmid, b, hn, hab⟩ := hm c mid a hc hfirst
  obtain ⟨hc', y, hg, hxy⟩ := hf a b hab mid c' x hmid hsecond
  exact ⟨hc', y, bind_eq_ok.mpr ⟨(b, mid), hn, hg⟩, hxy⟩

theorem Follows.mono {R' : α → β → Prop} {m : CursorM ε α} {n : CursorM ε β}
    (h : Follows m n R) (hR : ∀ a b, R a b → R' a b) : Follows m n R' := by
  intro c c' a hc hrun
  obtain ⟨hc', b, hn, hab⟩ := h c c' a hc hrun
  exact ⟨hc', b, hn, hR a b hab⟩

/-- The second program turns its result over. -/
theorem Follows.map_right {m : CursorM ε α} {n : CursorM ε β} {g : β → δ} {S : α → δ → Prop}
    (hm : Follows m n R) (hg : ∀ a b, R a b → S a (g b)) :
    Follows m (n >>= fun b ↦ Pure.pure (g b)) S := by
  rw [← bind_pure m]
  exact hm.bind fun a b hab ↦ Follows.pure (hg a b hab)

/-- The first program checks or computes something in between. -/
theorem Follows.lift_bind {o : Outcome ε α} {f : α → CursorM ε γ} {n : CursorM ε δ}
    (h : ∀ a, o = .ok a → Follows (f a) n S) : Follows ((liftM o : CursorM ε α) >>= f) n S := by
  cases o with
  | error fault =>
      intro c c' x hc hrun
      cases hrun
  | ok a => exact h a rfl

/-- The first program ends with a check. -/
theorem Follows.lift {o : Outcome ε α} {b : β} (h : ∀ a, o = .ok a → R a b) :
    Follows (liftM o : CursorM ε α) (Pure.pure b) R := by
  rw [← bind_pure (liftM o : CursorM ε α)]
  exact Follows.lift_bind fun a ha ↦ Follows.pure (h a ha)

/-- Two loops in step: their results are related position by position. -/
theorem Follows.mapM {f : ι → CursorM ε α} {g : κ → CursorM ε β} {T : ι → κ → Prop}
    {R : ι → α → β → Prop} {l : List ι} {l' : List κ} (hl : List.Forall₂ T l l')
    (h : ∀ x y, T x y → Follows (f x) (g y) (R x)) :
    Follows (l.mapM f) (l'.mapM g) fun out out' ↦
      out.length = l.length ∧ out'.length = l.length ∧
        ∀ (i : Nat) (x : ι) (a : α) (b : β), l[i]? = some x → out[i]? = some a →
          out'[i]? = some b → R x a b := by
  induction hl with
  | nil => exact Follows.pure ⟨rfl, rfl, fun i x a b hx ↦ by cases hx⟩
  | @cons x y xs ys hxy _ ih =>
      rw [List.mapM_cons, List.mapM_cons]
      refine (h x y hxy).bind fun a b hab ↦ ih.bind fun out out' hout ↦ Follows.pure ?_
      refine ⟨congrArg (· + 1) hout.1, congrArg (· + 1) hout.2.1, fun i x' a' b' hx ha hb ↦ ?_⟩
      cases i with
      | zero =>
          cases hx
          cases ha
          cases hb
          exact hab
      | succ i => exact hout.2.2 i x' a' b' hx ha hb

end

end IotdbClient.Library
