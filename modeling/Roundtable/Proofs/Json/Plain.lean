import Mathlib.Data.List.Induction
import Mathlib.Data.String.Basic
import Roundtable.Proofs.Json.Decoding

/-!
# Values that are their own echo

A value is read as itself where no number in it is read anew and its objects have their keys
in order, each once (`Roundtable.Json.IsPlain`). **Without binary numbers nothing is lost**
(`Roundtable.Json.IsPlain.echo_eq`): texts, whole numbers of 64 bits, and all that is made of
them.
-/

namespace Roundtable.Json

/-! ### Fields in order -/

variable {α : Type} {fields : List (String × α)}

/-- A field of a key behind all others goes behind them. -/
theorem insertField_of_lt {key : String} (value : α) (h : ∀ x ∈ fields, x.1 < key) :
    insertField key value fields = fields ++ [(key, value)] := by
  induction fields with
  | nil => rfl
  | cons x r ih =>
    rw [List.forall_mem_cons] at h
    rw [insertField, if_neg (ne_of_gt h.1), if_neg (not_lt_of_gt h.1), ih h.2]
    rfl

/-- Fields that are in order stay where they are. -/
theorem sortFields_of_pairwise (h : fields.Pairwise (·.1 < ·.1)) : sortFields fields = fields := by
  induction fields using List.reverseRecOn with
  | nil => rfl
  | append_singleton r x ih =>
    rw [List.pairwise_append] at h
    rw [sortFields, List.foldl_concat, ← sortFields, ih h.1]
    exact insertField_of_lt x.2 fun y hy => h.2.2 y hy x (List.mem_singleton_self x)

theorem eq_or_mem_of_mem_insertField {key : String} {value : α} {x : String × α}
    (h : x ∈ insertField key value fields) : x = (key, value) ∨ x ∈ fields := by
  induction fields with
  | nil => exact .inl (List.mem_singleton.mp h)
  | cons y r ih =>
    rw [insertField] at h
    split at h
    · exact (List.mem_cons.mp h).imp_right (List.mem_cons_of_mem y)
    · split at h
      · exact List.mem_cons.mp h
      · rcases List.mem_cons.mp h with rfl | h
        · exact .inr List.mem_cons_self
        · exact (ih h).imp_right (List.mem_cons_of_mem y)

/-- Putting a field in its place keeps the order. -/
theorem pairwise_insertField (key : String) (value : α) (h : fields.Pairwise (·.1 < ·.1)) :
    (insertField key value fields).Pairwise (·.1 < ·.1) := by
  induction fields with
  | nil => exact List.pairwise_singleton _ _
  | cons y r ih =>
    obtain ⟨k, v⟩ := y
    obtain ⟨hk, hr⟩ := List.pairwise_cons.mp h
    rw [insertField]
    split
    · next heq =>
      obtain rfl : key = k := heq
      exact List.pairwise_cons.mpr ⟨hk, hr⟩
    · next hne =>
      split
      · next hlt =>
        refine List.pairwise_cons.mpr ⟨List.forall_mem_cons.mpr ⟨hlt, fun y hy => ?_⟩, h⟩
        exact lt_trans hlt (hk y hy)
      · next hnlt =>
        refine List.pairwise_cons.mpr ⟨fun y hy => ?_, ih hr⟩
        rcases eq_or_mem_of_mem_insertField hy with rfl | hy
        · exact lt_of_le_of_ne (le_of_not_gt hnlt) (Ne.symm hne)
        · exact hk y hy

/-- A field of a new key is one more field. -/
theorem insertField_perm {key : String} (value : α) (h : ∀ x ∈ fields, x.1 ≠ key) :
    (insertField key value fields).Perm ((key, value) :: fields) := by
  induction fields with
  | nil => exact .refl _
  | cons y r ih =>
    rw [List.forall_mem_cons] at h
    rw [insertField, if_neg (Ne.symm h.1)]
    split
    · exact .refl _
    · exact ((ih h.2).cons y).trans (.swap _ _ _)

/-- **Sorted fields are in order**, each key once. -/
theorem pairwise_sortFields (fields : List (String × α)) :
    (sortFields fields).Pairwise (·.1 < ·.1) := by
  induction fields using List.reverseRecOn with
  | nil => exact .nil
  | append_singleton r x ih =>
    rw [sortFields, List.foldl_concat, ← sortFields]
    exact pairwise_insertField x.1 x.2 ih

/-- Sorting moves fields, if no key stands twice. -/
theorem sortFields_perm (h : (fields.map (·.1)).Nodup) : (sortFields fields).Perm fields := by
  induction fields using List.reverseRecOn with
  | nil => exact .refl _
  | append_singleton r x ih =>
    rw [List.map_append, List.nodup_append] at h
    have hr := ih h.1
    rw [sortFields, List.foldl_concat, ← sortFields]
    refine (insertField_perm x.2 fun y hy heq => ?_).trans
      ((hr.cons x).trans (List.perm_append_singleton x r).symm)
    exact h.2.2 y.1 (List.mem_map_of_mem (hr.subset hy)) x.1 (by simp) heq

/-- **Fields that are sorted are what sorting makes of them in any order.** -/
theorem sortFields_of_perm {fields' : List (String × α)} (h : fields'.Perm fields)
    (hsorted : fields.Pairwise (·.1 < ·.1)) : sortFields fields' = fields := by
  have hnodup : (fields'.map (·.1)).Nodup := by
    refine ((h.map (·.1)).nodup_iff).mpr (List.pairwise_map.mpr ?_)
    exact hsorted.imp fun hlt => ne_of_lt hlt
  refine ((sortFields_perm hnodup).trans h).eq_of_pairwise (fun x y _ _ hxy hyx => ?_)
    (pairwise_sortFields fields') hsorted
  exact absurd hyx (lt_asymm hxy)

/-! ### Plain values -/

mutual

/-- **A value without binary numbers**, its whole numbers in 64 bits with or without sign and
its objects with their keys in order. -/
def IsPlain : Json → Prop
  | .null | .bool _ | .text _ => True
  | .number (.whole n) => -(2 ^ 63 : Nat) ≤ n ∧ n < (2 ^ 64 : Nat)
  | .number (.real _) => False
  | .array items => ItemsPlain items
  | .object fields => fields.Pairwise (·.1 < ·.1) ∧ FieldsPlain fields

/-- All items are plain. -/
def ItemsPlain : List Json → Prop
  | [] => True
  | v :: r => IsPlain v ∧ ItemsPlain r

/-- All fields are plain. -/
def FieldsPlain : List (String × Json) → Prop
  | [] => True
  | (_, v) :: r => IsPlain v ∧ FieldsPlain r

end

mutual

/-- **A plain value is its own echo.** -/
theorem IsPlain.echo_eq : (j : Json) → j.IsPlain → j.echo = some j
  | .null, _ | .bool _, _ | .text _, _ => rfl
  | .number (.whole n), h => by
    rw [IsPlain] at h
    rw [echo, Number.reread_of_fits h.1 h.2]
    rfl
  | .number (.real x), h => by
    rw [IsPlain] at h
    exact h.elim
  | .array items, h => by
    rw [IsPlain] at h
    rw [echo, ItemsPlain.echo_eq items h]
    rfl
  | .object fields, h => by
    rw [IsPlain] at h
    rw [echo, FieldsPlain.echo_eq fields h.2, Option.map_some, ofFields, sortFields_of_pairwise h.1]

theorem ItemsPlain.echo_eq : (items : List Json) → ItemsPlain items → echoItems items = some items
  | [], _ => rfl
  | v :: r, h => by
    rw [ItemsPlain] at h
    rw [echoItems, IsPlain.echo_eq v h.1, ItemsPlain.echo_eq r h.2]
    rfl

theorem FieldsPlain.echo_eq :
    (fields : List (String × Json)) → FieldsPlain fields → echoFields fields = some fields
  | [], _ => rfl
  | (k, v) :: r, h => by
    rw [FieldsPlain] at h
    rw [echoFields, IsPlain.echo_eq v h.1, FieldsPlain.echo_eq r h.2]
    rfl

end

end Roundtable.Json
