import Roundtable.Proofs.Session.Decoding

/-!
# Chains of sessions

From a session, one child after another is derived (`SessionId.descend`). Since each child
reads back as derived from the one before, whatever that one's text is, **walking up from
the last passes them all, the latest first, and then goes on as from the first**
(`SessionId.ancestors_descend`). So a session that was derived descends from the sessions of
its chain and from what the first of them descends from, and from no other.
-/

namespace Roundtable.SessionId

variable {s a : SessionId} {o : Offshoot} {os : List Offshoot}

/-- The last of the sessions derived one from another. -/
def descend (s : SessionId) (os : List Offshoot) : SessionId := os.foldl branch s

@[simp] theorem descend_concat (s : SessionId) (os : List Offshoot) (o : Offshoot) :
    s.descend (os ++ [o]) = (s.descend os).branch o := by
  simp [descend]

/-- The sessions that are left behind on the way to `s.descend os`, the latest first. -/
def passed (s : SessionId) : List Offshoot → List SessionId
  | [] => []
  | o :: os => (s.branch o).passed os ++ [s]

/-! ### Walking up -/

theorem ancestors_of_parent? {p : SessionId} (h : s.parent? = some p) :
    s.ancestors = p :: p.ancestors := by
  rw [ancestors]
  split
  · next hnone => simp [h] at hnone
  · next q hq => rw [Option.some.inj (h.symm.trans hq)]

theorem ancestors_of_isRoot (h : s.isRoot = true) : s.ancestors = [] := by
  have hnone : s.parent? = none := by simpa [isRoot, parent?] using h
  rw [ancestors]
  split
  · rfl
  · next q hq => simp [hnone] at hq

@[simp] theorem ancestors_branch (s : SessionId) (o : Offshoot) :
    (s.branch o).ancestors = s :: s.ancestors :=
  ancestors_of_parent? (parent?_branch s o)

/-- **Walking up passes the sessions of the chain and then the ancestors of its first.** -/
theorem ancestors_descend (s : SessionId) (os : List Offshoot) :
    (s.descend os).ancestors = s.passed os ++ s.ancestors := by
  induction os generalizing s with
  | nil => rfl
  | cons o os ih =>
    calc ((s.branch o).descend os).ancestors
        = (s.branch o).passed os ++ (s.branch o).ancestors := ih _
      _ = s.passed (o :: os) ++ s.ancestors := by simp [passed]

theorem descendsFrom_iff : s.descendsFrom a = true ↔ a ∈ s.ancestors := by
  simp [descendsFrom]

/-! ### What is passed -/

/-- What is passed are the sessions that the steps lead to before the last of them. -/
theorem mem_passed_iff : a ∈ s.passed os ↔ ∃ front o back, os = front ++ o :: back ∧
    a = s.descend front := by
  induction os generalizing s with
  | nil => simp [passed]
  | cons o os ih =>
    rw [passed, List.mem_append, ih, List.mem_singleton]
    constructor
    · rintro (⟨front, o', back, rfl, rfl⟩ | rfl)
      · exact ⟨o :: front, o', back, rfl, rfl⟩
      · exact ⟨[], o, os, rfl, rfl⟩
    · rintro ⟨front, o', back, hos, rfl⟩
      cases front with
      | nil => exact .inr rfl
      | cons o'' front =>
        obtain ⟨rfl, rfl⟩ := List.cons.inj hos
        exact .inl ⟨front, o', back, rfl, rfl⟩

/-- A child is no root. -/
@[simp] theorem isRoot_branch (s : SessionId) (o : Offshoot) : (s.branch o).isRoot = false := by
  simp [isRoot, split?_branch]

/-- On the way from a root, the root itself is the only one that is passed. -/
theorem eq_of_mem_passed (h : a ∈ s.passed os) (ha : a.isRoot = true) : a = s := by
  obtain ⟨front, o, back, -, rfl⟩ := mem_passed_iff.mp h
  cases front using List.reverseRecOn with
  | nil => rfl
  | append_singleton front o' => simp at ha

end Roundtable.SessionId
