import Roundtable.Proofs.Session.Descent
import Roundtable.RunId

/-!
# Depth and the way to the root

The depth of a session is read off its text as the number of markers, and its way up by
cutting the text at the last marker, and then the label, until one of the two is missing.
**The two agree up to the markers of the text the way ends at**
(`SessionId.depth_eq_generations_add`): a text with a marker that no label ends is a root,
though not at depth nothing.

So along a chain that starts at a run's root session the depth counts the steps from there,
and the root is the only session without a parent, exactly if the run's id has no marker
(`SessionId.countsSteps_iff`). Run ids are not checked for it: `r1--sub_x` is the root of
its own sessions and counts as one step away from it (`SessionId.depth_of_marked_run`).
-/

namespace Roundtable.SessionId

variable {s p : SessionId}

/-! ### The way up -/

/-- The number of steps that lead up from a session. -/
def generations (s : SessionId) : Nat := s.ancestors.length

/-- The session at which the way up ends. -/
def origin (s : SessionId) : SessionId := s.ancestors.getLast?.getD s

theorem climb_isSome_iff {k : Nat} : (climb k s).isSome = true ↔ k ≤ s.generations := by
  cases k with
  | zero => simp
  | succ k => rw [climb_succ_eq, isSome_getElem?, generations, Nat.succ_le_iff]

theorem generations_of_parent? (h : s.parent? = some p) :
    s.generations = p.generations + 1 := by
  rw [generations, ancestors_of_parent? h, List.length_cons, generations]

theorem origin_of_parent? (h : s.parent? = some p) : s.origin = p.origin := by
  rw [origin, ancestors_of_parent? h, origin, List.getLast?_cons, Option.getD_some]

theorem generations_descend (s : SessionId) (os : List Offshoot) :
    (s.descend os).generations = s.generations + os.length := by
  induction os using List.reverseRecOn with
  | nil => rfl
  | append_singleton os o ih =>
    rw [descend_concat, generations_of_parent? (parent?_branch _ o), ih, List.length_append,
      List.length_singleton, Nat.add_assoc]

theorem isRoot_descend_iff (s : SessionId) (os : List Offshoot) :
    (s.descend os).isRoot = true ↔ os = [] ∧ s.isRoot = true := by
  induction os using List.reverseRecOn with
  | nil => simp [descend]
  | append_singleton os o ih => simp

/-- **What depth counts besides the steps** are the markers of the text they lead to. -/
theorem depth_eq_generations_add (s : SessionId) :
    s.depth = s.generations + s.origin.depth := by
  induction s using ancestors.induct with
  | case1 s hnone =>
    have hroot := ancestors_of_isRoot (isRoot_iff.mpr hnone)
    simp [generations, origin, hroot]
  | case2 s p hp ih =>
    rw [depth_of_parent? hp, ih, generations_of_parent? hp, origin_of_parent? hp,
      Nat.add_right_comm]

/-- No depth means no marker, and then no parent. -/
theorem depth_eq_zero_iff : s.depth = 0 ↔ ¬ marker <:+: s.text.toList :=
  Text.occurrences_eq_zero_iff (by decide)

theorem isRoot_of_depth_eq_zero (h : s.depth = 0) : s.isRoot = true := by
  refine isRoot_iff.mpr (Option.eq_none_iff_forall_ne_some.mpr fun p hp => ?_)
  rw [depth_of_parent? hp] at h
  exact Nat.succ_ne_zero _ h

/-! ### Chains of a run -/

/-- **A session counts `n` steps**: this is its depth, it is a root if there are none, and
its depth is the number of steps that lead up from it. -/
structure CountsSteps (s : SessionId) (n : Nat) : Prop where
  depth : s.depth = n
  isRoot : s.isRoot = true ↔ n = 0
  climb : ∀ k, (climb k s).isSome = true ↔ k ≤ s.depth

theorem countsSteps_iff (s : SessionId) (os : List Offshoot) :
    (s.descend os).CountsSteps os.length ↔ ¬ marker <:+: s.text.toList := by
  have hdepth := depth_descend s os
  rw [← depth_eq_zero_iff]
  refine ⟨fun h => ?_, fun h => ⟨?_, ?_, fun k => ?_⟩⟩
  · have := h.depth
    omega
  · omega
  · rw [isRoot_descend_iff, List.length_eq_zero_iff, and_iff_left (isRoot_of_depth_eq_zero h)]
  · have hown := depth_eq_generations_add s
    rw [climb_isSome_iff, hdepth, generations_descend, show s.generations = s.depth by omega]

/-- **Depth along the chains of a run.** By each step from the run's root session the depth
grows by one, and so does the number of steps that lead up; the way up is as long as that
number and ends at a root, which is one of the chain only if it is the first and the run's
id does not read as derived. The depth exceeds the number of steps up by the markers of the
text where the way from the root session ends. So depth, roots and the way up agree with
the number of steps, on one chain or on all, exactly if the run's id has no marker. -/
theorem depth_along_run (r : RunId) (os : List Offshoot) :
    let root := r.rootSession
    let x := root.descend os
    x.depth = root.depth + os.length ∧
    x.generations = root.generations + os.length ∧
    (∀ k, (climb k x).isSome = true ↔ k ≤ x.generations) ∧
    (x.isRoot = true ↔ os = [] ∧ root.isRoot = true) ∧
    x.depth = x.generations + root.origin.depth ∧
    (x.CountsSteps os.length ↔ ¬ marker <:+: r.text.toList) := by
  intro root x
  have hdepth : x.depth = root.depth + os.length := depth_descend root os
  have hgenerations : x.generations = root.generations + os.length := generations_descend root os
  refine ⟨hdepth, hgenerations, fun k => climb_isSome_iff, isRoot_descend_iff root os, ?_,
    countsSteps_iff root os⟩
  have := depth_eq_generations_add root
  omega

/-- **A run id with a marker.** The run's root session is a root, but its depth is one; and
its first worker can step up once, but its depth is two. Where the id reads as derived, the
root session is not even a root. -/
theorem depth_of_marked_run :
    let r : RunId := ⟨"r1--sub_x", by decide +kernel⟩
    let derived : RunId := ⟨"r1--sub_x_y", by decide +kernel⟩
    let worker := r.rootSession.branch (.chosen "worker" "w1" (by decide +kernel))
    r.rootSession.isRoot = true ∧ r.rootSession.depth = 1 ∧ worker.depth = 2 ∧
    worker.parent? = some r.rootSession ∧ climb 2 worker = none ∧
    derived.rootSession.isRoot = false ∧ derived.rootSession.depth = 1 ∧
    ¬ ∀ (r : RunId) os, (r.rootSession.descend os).CountsSteps os.length := by
  intro r derived worker
  have hdepth : r.rootSession.depth = 1 := by decide +kernel
  refine ⟨by decide +kernel, hdepth, by decide +kernel, by decide +kernel, by decide +kernel,
    by decide +kernel, by decide +kernel, fun h => ?_⟩
  have hzero : r.rootSession.depth = 0 := (h r []).depth
  exact absurd (hdepth.symm.trans hzero) (by decide)

end Roundtable.SessionId
