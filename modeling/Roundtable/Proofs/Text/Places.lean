import Roundtable.Proofs.Text.Cuts

/-!
# How often a separator stands in a text

`Text.occurrences` counts the places where a separator begins. Where a text is put together
from parts there may be more of them than in the parts, because one may begin in one part and
end in the next. **A separator without a border leaves no room for that at its own joint**
(`Text.occurrences_append`): no proper end of it is a beginning of it, so nothing that begins
in front of it ends inside it. Hence a cut at the last separator takes one place away, and
with it the only one that is not in the part in front (`Text.occurrences_of_splitLast?`).
-/

namespace Roundtable.Text

variable {sep s front back : List Char}

/-- **A separator without a border**: what it begins with and ends with is nothing or all of
it. -/
def Borderless (sep : List Char) : Prop := ∀ t, t <+: sep → t <:+ sep → t = [] ∨ t = sep

theorem startsWith_iff : startsWith sep s = true ↔ sep <+: s := List.isPrefixOf_iff_prefix

/-- There is no place exactly if the separator stands nowhere. -/
theorem occurrences_eq_zero_iff (hsep : sep ≠ []) : occurrences sep s = 0 ↔ ¬ sep <:+: s := by
  induction s with
  | nil => simp [occurrences, hsep]
  | cons a r ih =>
    rw [occurrences, Nat.add_eq_zero_iff, ih, List.infix_cons_iff, not_or, ← startsWith_iff]
    simp

/-- **In front of a separator without a border** nothing begins that does not end there. -/
theorem startsWith_append_sep (h : Borderless sep) (hfront : front ≠ []) :
    startsWith sep (front ++ (sep ++ back)) = startsWith sep front := by
  rw [Bool.eq_iff_iff, startsWith_iff, startsWith_iff]
  refine ⟨fun hpre => ?_, fun hpre => hpre.trans (List.prefix_append _ _)⟩
  rcases List.prefix_or_prefix_of_prefix hpre (List.prefix_append front (sep ++ back)) with
    hle | ⟨t, ht⟩
  · exact hle
  · -- What is left of the separator behind `front` would be a border of it.
    have hrest : front ++ t <+: front ++ (sep ++ back) := by rwa [ht]
    have hborder : t <+: sep ∨ sep <+: t :=
      List.prefix_or_prefix_of_prefix ((List.prefix_append_right_inj front).mp hrest)
        (List.prefix_append sep back)
    have hlen : t.length < sep.length := by
      have := List.length_pos_iff.mpr hfront
      rw [← ht, List.length_append]
      omega
    rcases h t (hborder.resolve_right fun hle => absurd hle.length_le (Nat.not_le.mpr hlen))
        ⟨front, ht⟩ with rfl | rfl
    · exact ⟨[], by simpa using ht.symm⟩
    · exact absurd hlen (Nat.lt_irrefl _)

/-- **The places of a text that is joined at a separator** are those in front and those from
the joint on. -/
theorem occurrences_append (h : Borderless sep) :
    occurrences sep (front ++ (sep ++ back)) =
      occurrences sep front + occurrences sep (sep ++ back) := by
  induction front with
  | nil => simp [occurrences]
  | cons a f ih =>
    have hstart : startsWith sep (a :: (f ++ (sep ++ back))) = startsWith sep (a :: f) :=
      startsWith_append_sep h (List.cons_ne_nil a f)
    rw [List.cons_append, occurrences, occurrences, hstart, ih, Nat.add_assoc]

/-- Behind the first character of the last separator no other begins. -/
theorem not_infix_of_splitLast? (hsep : sep ≠ []) (h : splitLast? sep s = some (front, back)) :
    ¬ sep <:+: sep.tail ++ back := by
  induction s generalizing front with
  | nil => simp [splitLast?, hsep] at h
  | cons a r ih =>
    rw [splitLast?] at h
    cases hr : splitLast? sep r with
    | some cut =>
      rw [hr] at h
      obtain ⟨-, rfl⟩ := Prod.mk.inj (Option.some.inj h)
      exact ih hr
    | none =>
      have hnone := (splitLast?_eq_none_iff hsep).mp hr
      simp only [hr] at h
      split at h
      · next hstart =>
        obtain ⟨-, rfl⟩ := Prod.mk.inj (Option.some.inj h)
        obtain ⟨c, t, rfl⟩ := List.exists_cons_of_ne_nil hsep
        have hjoin := append_drop_of_startsWith hstart
        rw [List.cons_append] at hjoin
        obtain ⟨-, hrest⟩ := List.cons.inj hjoin
        rwa [List.tail_cons, hrest]
      · simp at h

/-- **A cut at the last separator** takes one place away. -/
theorem occurrences_of_splitLast? (hb : Borderless sep) (hsep : sep ≠ [])
    (h : splitLast? sep s = some (front, back)) :
    occurrences sep s = occurrences sep front + 1 := by
  have hlast := (occurrences_eq_zero_iff hsep).mpr (not_infix_of_splitLast? hsep h)
  have hone : occurrences sep (sep ++ back) = 1 := by
    obtain ⟨c, t, rfl⟩ := List.exists_cons_of_ne_nil hsep
    rw [List.tail_cons] at hlast
    have hstart := startsWith_append (c :: t) back
    rw [List.cons_append] at hstart ⊢
    rw [occurrences, hstart, hlast, if_pos rfl]
  rw [← append_of_splitLast? h, List.append_assoc, occurrences_append hb, hone]

end Roundtable.Text
