import Roundtable.Proofs.Session.Ancestry
import Roundtable.Proofs.Text.Places

/-!
# Ancestry follows derivation

A session is asked for its parent, the parent for its own, and so on
(`SessionId.climb`). Each answer is a shorter text, so this ends whatever the text is, and
descending from a session is being led to it in one step or more
(`SessionId.descendsFrom_iff_climb`): a strict order on all texts.

Along a chain of derived sessions **the way up is the way down backwards**
(`SessionId.climb_descend`), for each child reads back as derived from the session before
it. The depth is counted on the text and not on the way, but the marker has no border, so a
step up takes exactly one place away (`SessionId.depth_of_parent?`) and a step down adds
exactly one (`SessionId.depth_descend`).
-/

namespace Roundtable.SessionId

variable {s a b p : SessionId} {n : Nat}

/-! ### Climbing -/

theorem isRoot_iff : s.isRoot = true ↔ s.parent? = none := by simp [isRoot, parent?]

/-- The session that is `n` steps further up, if there are as many. -/
def climb : Nat → SessionId → Option SessionId
  | 0, s => some s
  | n + 1, s => s.parent?.bind (climb n)

@[simp] theorem climb_zero (s : SessionId) : climb 0 s = some s := rfl

theorem climb_succ (n : Nat) (s : SessionId) : climb (n + 1) s = s.parent?.bind (climb n) := rfl

theorem climb_add (m n : Nat) (s : SessionId) : climb (m + n) s = (climb m s).bind (climb n) := by
  induction m generalizing s with
  | zero => simp
  | succ m ih =>
    have hm : climb (m + n) = fun p => (climb m p).bind (climb n) := funext ih
    rw [Nat.add_right_comm, climb_succ, climb_succ, Option.bind_assoc, hm]

/-- **Climbing goes through the ancestors**, the nearest first. -/
theorem climb_succ_eq (n : Nat) (s : SessionId) : climb (n + 1) s = s.ancestors[n]? := by
  induction n generalizing s with
  | zero =>
    cases hp : s.parent? with
    | none => simp [climb_succ, hp, ancestors_of_isRoot (isRoot_iff.mpr hp)]
    | some p => simp [climb_succ, hp, ancestors_of_parent? hp]
  | succ n ih =>
    cases hp : s.parent? with
    | none => simp [climb_succ, hp, ancestors_of_isRoot (isRoot_iff.mpr hp)]
    | some p => rw [climb_succ, hp, Option.bind_some, ih, ancestors_of_parent? hp,
        List.getElem?_cons_succ]

/-- **To descend from a session is to be led to it** in one step or more. -/
theorem descendsFrom_iff_climb : s.descendsFrom a = true ↔ ∃ n, climb (n + 1) s = some a := by
  simp only [descendsFrom_iff, List.mem_iff_getElem?, climb_succ_eq]

/-- Each step up shortens the text. -/
theorem length_add_le_of_climb (h : climb n s = some a) : a.text.length + n ≤ s.text.length := by
  induction n generalizing s with
  | zero => rw [Option.some.inj h, Nat.add_zero]
  | succ n ih =>
    obtain ⟨p, hp, hclimb⟩ := Option.bind_eq_some_iff.mp h
    have := ih hclimb
    have := length_lt_of_parent? hp
    omega

/-- Whatever the text is, the way up ends. -/
theorem climb_length_succ (s : SessionId) : climb (s.text.length + 1) s = none := by
  refine Option.eq_none_iff_forall_ne_some.mpr fun a h => ?_
  have := length_add_le_of_climb h
  omega

/-! ### A strict order -/

theorem length_lt_of_descendsFrom (h : s.descendsFrom a = true) :
    a.text.length < s.text.length := by
  obtain ⟨n, hn⟩ := descendsFrom_iff_climb.mp h
  have := length_add_le_of_climb hn
  omega

theorem descendsFrom_irrefl (s : SessionId) : s.descendsFrom s = false :=
  Bool.eq_false_iff.mpr fun h => Nat.lt_irrefl _ (length_lt_of_descendsFrom h)

theorem descendsFrom_trans (h : s.descendsFrom a = true) (h' : a.descendsFrom b = true) :
    s.descendsFrom b = true := by
  obtain ⟨m, hm⟩ := descendsFrom_iff_climb.mp h
  obtain ⟨n, hn⟩ := descendsFrom_iff_climb.mp h'
  refine descendsFrom_iff_climb.mpr ⟨m + 1 + n, ?_⟩
  rw [Nat.add_assoc, climb_add, hm, Option.bind_some, hn]

theorem descendsFrom_asymm (h : s.descendsFrom a = true) : a.descendsFrom s = false :=
  Bool.eq_false_iff.mpr fun h' => Nat.lt_asymm (length_lt_of_descendsFrom h)
    (length_lt_of_descendsFrom h')

/-! ### Up a chain -/

theorem descend_append (s : SessionId) (os os' : List Offshoot) :
    s.descend (os ++ os') = (s.descend os).descend os' := by
  simp [descend]

/-- **As many steps up as there were down** lead back. -/
theorem climb_descend (s : SessionId) (os : List Offshoot) :
    climb os.length (s.descend os) = some s := by
  induction os using List.reverseRecOn with
  | nil => rfl
  | append_singleton os o ih =>
    rw [descend_concat, List.length_append, List.length_singleton, climb_succ, parent?_branch,
      Option.bind_some, ih]

theorem length_le_descend (s : SessionId) (os : List Offshoot) :
    s.text.length ≤ (s.descend os).text.length := by
  have := length_add_le_of_climb (climb_descend s os)
  omega

theorem descend_take_of_le (s : SessionId) (os : List Offshoot) {i j : Nat} (h : i ≤ j) :
    s.descend (os.take j) = (s.descend (os.take i)).descend ((os.take j).drop i) := by
  have htake : (os.take j).take i = os.take i := by rw [List.take_take, Nat.min_eq_left h]
  rw [← descend_append, ← htake, List.take_append_drop]

/-! ### Depth -/

theorem marker_borderless : Text.Borderless marker := by
  have hall : ∀ t ∈ marker.inits, t <:+ marker → t = [] ∨ t = marker := by decide
  exact fun t ht => hall t ((List.mem_inits t marker).mpr ht)

/-- **A step up takes one marker away**, whatever the text is. -/
theorem depth_of_parent? (h : s.parent? = some p) : s.depth = p.depth + 1 := by
  simp only [parent?, split?, Option.map_eq_some_iff, Option.bind_eq_bind] at h
  obtain ⟨⟨front, label, suffix⟩, hsplit, rfl⟩ := h
  simp only [Option.bind_eq_some_iff, Option.pure_def, Option.some.injEq, Prod.mk.injEq] at hsplit
  obtain ⟨⟨front', tail⟩, hcut, -, -, rfl, -, -⟩ := hsplit
  rw [depth, depth, String.toList_ofList]
  exact Text.occurrences_of_splitLast? marker_borderless (by decide) hcut

/-- **Each step down adds one marker.** -/
theorem depth_descend (s : SessionId) (os : List Offshoot) :
    (s.descend os).depth = s.depth + os.length := by
  induction os using List.reverseRecOn with
  | nil => rfl
  | append_singleton os o ih =>
    rw [descend_concat, depth_of_parent? (parent?_branch _ o), ih, List.length_append,
      List.length_singleton, Nat.add_assoc]

/-! ### Chains of derived sessions -/

/-- **The sessions of a chain**, that `os` derive from `s` one after another, as they stand
to each other; the one that `i` steps lead to is `s.descend (os.take i)`. -/
structure Lineage (s : SessionId) (os : List Offshoot) : Prop where
  /-- The way up from the last passes them all, the latest first, -/
  passes : ∀ i ≤ os.length, climb (os.length - i) (s.descend os) = some (s.descend (os.take i))
  /-- and goes on as from the first. -/
  beyond : ∀ n, climb (os.length + n) (s.descend os) = climb n s
  depth : (s.descend os).depth = s.depth + os.length
  /-- Each descends from those before it, and from no other. -/
  order : ∀ i ≤ os.length, ∀ j ≤ os.length,
    ((s.descend (os.take j)).descendsFrom (s.descend (os.take i)) = true ↔ i < j)

theorem lineage (s : SessionId) (os : List Offshoot) : s.Lineage os where
  passes := fun i hi => by
    have hup := climb_descend (s.descend (os.take i)) (os.drop i)
    rwa [← descend_append, List.take_append_drop, List.length_drop] at hup
  beyond := fun n => by rw [climb_add, climb_descend, Option.bind_some]
  depth := depth_descend s os
  order := fun i hi j hj => by
    refine ⟨fun h => ?_, fun hlt => ?_⟩
    · by_contra hle
      have hshort := length_lt_of_descendsFrom h
      rw [descend_take_of_le s os (Nat.not_lt.mp hle)] at hshort
      exact absurd (length_le_descend _ _) (Nat.not_le.mpr hshort)
    · obtain ⟨n, rfl⟩ := Nat.exists_eq_add_of_lt hlt
      have hup := climb_descend (s.descend (os.take i)) ((os.take (i + n + 1)).drop i)
      rw [← descend_take_of_le s os hlt.le, List.length_drop, List.length_take_of_le hj] at hup
      exact descendsFrom_iff_climb.mpr ⟨n, by rwa [show n + 1 = i + n + 1 - i by omega]⟩

/-- **Ancestry follows derivation.** Along every chain, from whatever text it starts, the way
up passes the sessions of the chain and then the ancestors of the first; each step adds one
to the depth; and each session descends from those before it and from no other of them. On
all texts the way up ends, to descend from a session is to be led to it in one step or
more, and this is a strict order. -/
theorem ancestry_follows_derivation :
    (∀ s os, Lineage s os) ∧
    (∀ s : SessionId, climb (s.text.length + 1) s = none) ∧
    (∀ s a : SessionId, s.descendsFrom a = true ↔ ∃ n, climb (n + 1) s = some a) ∧
    (∀ s : SessionId, s.descendsFrom s = false) ∧
    (∀ s a b : SessionId, s.descendsFrom a = true → a.descendsFrom b = true →
      s.descendsFrom b = true) ∧
    (∀ s a : SessionId, s.descendsFrom a = true → a.descendsFrom s = false) :=
  ⟨lineage, climb_length_succ, fun _ _ => descendsFrom_iff_climb, descendsFrom_irrefl,
    fun _ _ _ => descendsFrom_trans, fun _ _ => descendsFrom_asymm⟩

/-- From a text that itself reads as derived from the empty one, with a label and suffixes
that hold the marker, or parts of it at the joints. -/
theorem ancestry_follows_derivation_markers :
    let x : SessionId := ⟨"--sub_a_b--sub"⟩
    let os : List Offshoot := [.chosen "_--sub_-" "1--sub_2" (by decide +kernel),
      .generated "sub_--" 0xdeadbeef]
    x.Lineage os ∧ (x.descend os).text =
      "--sub_a_b--sub--sub__-sub_-_1--sub-2--sub_sub_-_deadbeef" ∧
    (x.descend os).descendsFrom x = true ∧ x.descendsFrom ⟨""⟩ = true ∧
    (x.descend os).descendsFrom ⟨""⟩ = true ∧ (⟨""⟩ : SessionId).descendsFrom x = false := by
  intro x os
  obtain ⟨hchain, -, hclimb, -, htrans, hasymm⟩ := ancestry_follows_derivation
  have hlast : (x.descend os).descendsFrom x = true :=
    ((hchain x os).order 0 (by decide) 2 (by decide)).mpr (by decide)
  have hfirst : x.descendsFrom ⟨""⟩ = true := (hclimb x ⟨""⟩).mpr ⟨0, by decide +kernel⟩
  exact ⟨hchain x os, by decide +kernel, hlast, hfirst, htrans _ _ _ hlast hfirst,
    hasymm _ _ hfirst⟩

end Roundtable.SessionId
