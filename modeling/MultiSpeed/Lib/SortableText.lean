import Mathlib.Data.List.Lex
import Mathlib.Data.Prod.Lex
import Mathlib.Order.Monotone.Basic

/-!
# Texts that sort like the values they stand for

Values of a linear order are written as texts over an ordered alphabet.  A way of
writing is sortable on a set of values if all its texts there have the same length
and compare as the values do.  Such ways can be put one after another, and the
texts then compare as pairs in the lexicographic order.
-/

namespace SortableText

variable {α β γ : Type*} [LinearOrder α] [LinearOrder β] [LinearOrder γ]

/-- Texts whose first parts are of one length compare as these, and where they
agree as the rest. -/
theorem append_lt_append {l l' r r' : List γ} (hlength : l.length = l'.length)
    (h : l < l' ∨ l = l' ∧ r < r') : l ++ r < l' ++ r' := by
  induction l generalizing l' with
  | nil =>
      obtain rfl : l' = [] := List.length_eq_zero_iff.mp hlength.symm
      simpa using h
  | cons c l ih =>
      cases l' with
      | nil => cases hlength
      | cons c' l' =>
          rw [List.cons_append, List.cons_append, List.cons_lt_cons_iff]
          have hrest := Nat.succ.inj hlength
          rcases h with hlt | ⟨heq, hlt⟩
          · rcases List.cons_lt_cons_iff.mp hlt with hc | ⟨rfl, hfirst⟩
            · exact .inl hc
            · exact .inr ⟨rfl, ih hrest (.inl hfirst)⟩
          · obtain ⟨rfl, rfl⟩ := List.cons.inj heq
            exact .inr ⟨rfl, ih hrest (.inr ⟨rfl, hlt⟩)⟩

/-- On the values of a set the texts have one length and keep the order. -/
structure Sortable (values : Set α) (text : α → List γ) (width : ℕ) : Prop where
  length : ∀ a ∈ values, (text a).length = width
  strictMono : StrictMonoOn text values

variable {values : Set α} {text : α → List γ} {width : ℕ}

namespace Sortable

theorem lt_iff_lt (h : Sortable values text width) {a b : α} (ha : a ∈ values)
    (hb : b ∈ values) : text a < text b ↔ a < b :=
  h.strictMono.lt_iff_lt ha hb

theorem congr (h : Sortable values text width) {text' : α → List γ}
    (htext : ∀ a ∈ values, text' a = text a) : Sortable values text' width where
  length a ha := by rw [htext a ha, h.length a ha]
  strictMono a ha b hb hab := by
    rw [htext a ha, htext b hb]
    exact h.strictMono ha hb hab

theorem prepend (h : Sortable values text width) (sep : List γ) :
    Sortable values (fun a ↦ sep ++ text a) (sep.length + width) where
  length a ha := by rw [List.length_append, h.length a ha]
  strictMono a ha b hb hab :=
    append_lt_append rfl (.inr ⟨rfl, h.strictMono ha hb hab⟩)

theorem append (h : Sortable values text width) (sep : List γ) :
    Sortable values (fun a ↦ text a ++ sep) (width + sep.length) where
  length a ha := by rw [List.length_append, h.length a ha]
  strictMono a ha b hb hab :=
    append_lt_append ((h.length a ha).trans (h.length b hb).symm)
      (.inl (h.strictMono ha hb hab))

/-- Values that are read through a function which keeps their order. -/
theorem comp (h : Sortable values text width) (source : Set β) {f : β → α}
    (hmaps : Set.MapsTo f source values) (hmono : StrictMonoOn f source) :
    Sortable source (fun b ↦ text (f b)) width where
  length _ hb := h.length _ (hmaps hb)
  strictMono _ ha _ hb hab := h.strictMono (hmaps ha) (hmaps hb) (hmono ha hb hab)

/-- Two fields, the first being the more significant one. -/
theorem pair (h : Sortable values text width) {values' : Set β} {text' : β → List γ}
    {width' : ℕ} (h' : Sortable values' text' width') :
    Sortable {p : α ×ₗ β | (ofLex p).1 ∈ values ∧ (ofLex p).2 ∈ values'}
      (fun p ↦ text (ofLex p).1 ++ text' (ofLex p).2) (width + width') where
  length p hp := by rw [List.length_append, h.length _ hp.1, h'.length _ hp.2]
  strictMono p hp q hq hpq := by
    have hlength := (h.length _ hp.1).trans (h.length _ hq.1).symm
    apply append_lt_append hlength
    rcases Prod.Lex.lt_iff.mp hpq with hlt | ⟨heq, hlt⟩
    · exact .inl (h.strictMono hp.1 hq.1 hlt)
    · exact .inr ⟨congrArg text heq, h'.strictMono hp.2 hq.2 hlt⟩

end Sortable

end SortableText
