import Mathlib.Data.List.Infix
import Mathlib.Data.List.TakeWhile
import Roundtable.Text.Blank
import Roundtable.Text.Split

/-!
# Where a text is cut

`Text.splitLast?` cuts at the last place where the separator stands, so what it returns
is known as soon as no later place can hold one. A later place may begin inside the
separator itself: **the text behind must stay free of the separator even with the
separator's own tail in front of it** (`Text.splitLast?_append`). For a separator of one
character this is the text behind alone (`Text.splitLast?_append_cons`).
-/

namespace Roundtable.Text

/-! ### The last place -/

variable {sep s front back : List Char} {c : Char}

theorem startsWith_append (sep s : List Char) : startsWith sep (sep ++ s) = true :=
  List.isPrefixOf_iff_prefix.mpr (List.prefix_append sep s)

/-- A text is not cut exactly if the separator stands nowhere in it. -/
theorem splitLast?_eq_none_iff (hsep : sep ≠ []) :
    splitLast? sep s = none ↔ ¬ sep <:+: s := by
  induction s with
  | nil => simp [splitLast?, hsep]
  | cons a r ih =>
    rw [List.infix_cons_iff, not_or, ← ih, splitLast?]
    cases hr : splitLast? sep r with
    | some cut => simp
    | none =>
      have hstart : startsWith sep (a :: r) = true ↔ sep <+: a :: r := List.isPrefixOf_iff_prefix
      simp [← hstart]

/-- **The cut is where the separator was put**, if no other begins behind the first
character of that one. -/
theorem splitLast?_append (hsep : sep ≠ []) (h : ¬ sep <:+: sep.tail ++ back) :
    splitLast? sep (front ++ sep ++ back) = some (front, back) := by
  induction front with
  | nil =>
    obtain ⟨a, t, rfl⟩ := List.exists_cons_of_ne_nil hsep
    have hrest : splitLast? (a :: t) (t ++ back) = none := (splitLast?_eq_none_iff hsep).mpr h
    have hstart : startsWith (a :: t) (a :: (t ++ back)) = true := startsWith_append (a :: t) back
    rw [List.nil_append, List.cons_append, splitLast?, hrest]
    simp [hstart]
  | cons a f ih =>
    rw [List.cons_append, List.cons_append, splitLast?, ih]

/-- A separator of one character is last if the text behind does not hold it. -/
theorem splitLast?_append_cons (h : c ∉ back) :
    splitLast? [c] (front ++ [c] ++ back) = some (front, back) :=
  splitLast?_append (List.cons_ne_nil _ _) (by simpa [List.singleton_infix_iff] using h)

/-! ### Trimming -/

/-- Nothing is left of a text exactly if it is blank throughout. -/
theorem trim_eq_nil_iff : trim s = [] ↔ ∀ c ∈ s, isBlank c = true := by
  have hsplit : ∀ c, c ∈ s ↔ c ∈ s.takeWhile isBlank ∨ c ∈ s.dropWhile isBlank := fun c => by
    rw [← List.mem_append, List.takeWhile_append_dropWhile]
  simp only [trim, trimBy, List.reverse_eq_nil_iff, List.dropWhile_eq_nil_iff, List.mem_reverse,
    hsplit]
  exact ⟨fun h c hc => hc.elim List.mem_takeWhile_imp (h c), fun h c hc => h c (.inr hc)⟩

/-- A text without blanks is trimmed. -/
theorem trim_of_forall_not_blank (h : ∀ c ∈ s, isBlank c = false) : trim s = s := by
  have hkeep : ∀ l : List Char, (∀ c ∈ l, isBlank c = false) → l.dropWhile isBlank = l := by
    intro l hl
    cases l with
    | nil => rfl
    | cons a r => simp [hl a List.mem_cons_self]
  simp [trim, trimBy, hkeep s h, hkeep s.reverse (by simpa using h)]

end Roundtable.Text

namespace Roundtable

/-- A blank text is one of which trimming leaves nothing. -/
theorem trim_eq_nil_iff_isBlankText {s : String} :
    Text.trim s.toList = [] ↔ isBlankText s = true := by
  rw [Text.trim_eq_nil_iff, isBlankText, List.all_eq_true]

end Roundtable
