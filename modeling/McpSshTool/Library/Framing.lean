import Mathlib.Data.List.Basic

/-!
# Frames in a stream

A reader takes frames off the front of a buffer that grows as parts of a stream arrive. What it has
read does not depend on where the stream was cut, provided that more bytes never change its mind
(`Stable`).

* `Decodes read buffer items rest` — the buffer yields `items` and leaves `rest`.
* `Decodes.split` — a buffer may be read in two parts.
* `decodes_flatMap` — frames written one after the other are read one after the other.
-/

namespace Library

variable {β ι : Type*}

/-- What is at the front of a buffer. -/
inductive Reading (β ι : Type*) where
  /-- The frame has not arrived as a whole. -/
  | incomplete
  /-- No frame that the reader takes. -/
  | refused
  | item (i : ι) (rest : List β)

/-- More bytes change nothing about a frame that was read or refused. -/
structure Stable (read : List β → Reading β ι) : Prop where
  nil : read [] = .incomplete
  item : ∀ {p i r}, read p = .item i r → ∀ q, read (p ++ q) = .item i (r ++ q)
  refused : ∀ {p}, read p = .refused → ∀ q, read (p ++ q) = .refused
  shorter : ∀ {p i r}, read p = .item i r → r.length < p.length

/-- The buffer yields the items and leaves a rest that holds no whole frame. -/
inductive Decodes (read : List β → Reading β ι) : List β → List ι → List β → Prop where
  | done {p : List β} (h : read p = .incomplete) : Decodes read p [] p
  | item {p r : List β} {i : ι} {items : List ι} {rest : List β} (h : read p = .item i r)
      (hrest : Decodes read r items rest) : Decodes read p (i :: items) rest

variable {read : List β → Reading β ι}

/-- **A stream may be cut anywhere**: reading the first part and then what it leaves together with
the second yields the same items. -/
theorem Decodes.split (hstable : Stable read) {p q rest : List β} {items : List ι}
    (h : Decodes read (p ++ q) items rest) :
    ∃ first second r, items = first ++ second ∧ Decodes read p first r ∧
      Decodes read (r ++ q) second rest := by
  generalize hpq : p ++ q = pq at h
  induction h generalizing p with
  | done hread =>
    subst hpq
    cases hp : read p with
    | incomplete => exact ⟨[], [], p, rfl, .done hp, .done hread⟩
    | refused => exact absurd ((hstable.refused hp q).symm.trans hread) nofun
    | item => exact absurd ((hstable.item hp q).symm.trans hread) nofun
  | @item _ r' i items' rest' hread hrest ih =>
    subst hpq
    cases hp : read p with
    | incomplete => exact ⟨[], i :: items', p, rfl, .done hp, .item hread hrest⟩
    | refused => exact absurd ((hstable.refused hp q).symm.trans hread) nofun
    | item j =>
      have heq := (hstable.item hp q).symm.trans hread
      rw [Reading.item.injEq] at heq
      obtain ⟨rfl, hr⟩ := heq
      obtain ⟨first, second, s, rfl, hfirst, hsecond⟩ := ih hr
      exact ⟨j :: first, second, s, rfl, .item hp hfirst, hsecond⟩

/-- **A stream that arrives in parts**: what the first part leaves is read on with the second. -/
theorem Decodes.join (hstable : Stable read) {p q r rest : List β} {first second : List ι}
    (h : Decodes read p first r) (h' : Decodes read (r ++ q) second rest) :
    Decodes read (p ++ q) (first ++ second) rest := by
  induction h with
  | done => exact h'
  | item hread _ ih => exact .item (hstable.item hread q) (ih h')

/-- The bytes of a frame: it is read off them, and nothing is left. -/
def Encodes (read : List β → Reading β ι) (bytes : List β) (i : ι) : Prop :=
  read bytes = .item i []

/-- **Frames written one after the other are read one after the other.** -/
theorem decodes_flatMap {φ : Type*} (hstable : Stable read) {encode : φ → List β} {item : φ → ι}
    {frames : List φ} (h : ∀ f ∈ frames, Encodes read (encode f) (item f)) :
    Decodes read (frames.flatMap encode) (frames.map item) [] := by
  induction frames with
  | nil => exact .done hstable.nil
  | cons f frames ih =>
    have hread := hstable.item (h f List.mem_cons_self) (frames.flatMap encode)
    rw [List.nil_append] at hread
    exact .item hread (ih fun f' hf' => h f' (List.mem_cons_of_mem _ hf'))

end Library
