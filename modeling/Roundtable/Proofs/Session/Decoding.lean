import Mathlib.Data.List.Chain
import Roundtable.Proofs.Text.Cuts
import Roundtable.Session
import Roundtable.Uuid

/-!
# A session reads back as what it was derived with

The last marker of a derived text is the one `SessionId.derive` put there, whatever the
parent holds. A marker further behind would begin inside that one or inside the label,
and its underscore could be no later than the one that ends the label, for a clean suffix
has none. So its two hyphens would stand in `-sub_label`, in which no two hyphens are
neighbours (`SessionId.not_marker_isInfix`).

Hence parent, clean label and clean suffix are read back exactly (`SessionId.split?_childText`),
and, cleaning being idempotent, deriving from what was read gives the session again.
`SessionId.Offshoot` is what a child is derived with.
-/

namespace Roundtable.SessionId

variable {l x : List Char} {after : Bool}

/-! ### Labels -/

/-- No hyphen stands right behind another. -/
def HyphensApart (l : List Char) : Prop := l.IsChain fun a b => ¬ (a = '-' ∧ b = '-')

instance : DecidablePred HyphensApart := fun l =>
  inferInstanceAs (Decidable (l.IsChain fun a b => ¬ (a = '-' ∧ b = '-')))

/-- A label as sessions hold it. -/
structure CleanLabel (l : List Char) : Prop where
  ne_nil : l ≠ []
  not_blank : ∀ c ∈ l, isBlank c = false
  not_hostile : ∀ c ∈ l, c ∉ pathHostile
  apart : HyphensApart l

theorem isBlank_labelChar (c : Char) : isBlank (labelChar c) = false := by
  rw [labelChar]
  split
  · decide
  · next h => simp_all

theorem labelChar_not_mem_pathHostile (c : Char) : labelChar c ∉ pathHostile := by
  rw [labelChar]
  split
  · decide
  · next h => simp_all

theorem mem_of_mem_squeezeHyphens {c : Char} (h : c ∈ squeezeHyphens after l) : c ∈ l := by
  induction l generalizing after with
  | nil => exact h
  | cons a r ih =>
    rw [squeezeHyphens] at h
    split at h
    · split at h
      · exact List.mem_cons_of_mem _ (ih h)
      · exact List.mem_cons.mpr ((List.mem_cons.mp h).imp_right ih)
    · exact List.mem_cons.mpr ((List.mem_cons.mp h).imp_right ih)

theorem squeezeHyphens_ne_nil (h : l ≠ []) : squeezeHyphens false l ≠ [] := by
  obtain ⟨a, r, rfl⟩ := List.exists_cons_of_ne_nil h
  rw [squeezeHyphens]
  split <;> simp

/-- Squeezing keeps hyphens apart, also from the one that stood in front. -/
theorem hyphensApart_squeezeHyphens :
    HyphensApart (squeezeHyphens after l) ∧
      (after = true → (squeezeHyphens after l).head? ≠ some '-') := by
  induction l generalizing after with
  | nil => simp [squeezeHyphens, HyphensApart]
  | cons a r ih =>
    rw [squeezeHyphens]
    split
    · next ha =>
      split
      · next hafter => exact ⟨ih.1, fun _ => ih.2 rfl⟩
      · next hafter =>
        refine ⟨List.isChain_cons.mpr ⟨fun b hb hboth => ?_, ih.1⟩, fun h => absurd h hafter⟩
        exact ih.2 rfl (hboth.2 ▸ hb)
    · next ha =>
      exact ⟨List.isChain_cons.mpr ⟨fun b _ hboth => ha hboth.1, ih.1⟩, fun _ => by simpa using ha⟩

/-- Where hyphens are apart there is nothing to squeeze. -/
theorem squeezeHyphens_of_apart (h : HyphensApart l) (hhead : after = true → l.head? ≠ some '-') :
    squeezeHyphens after l = l := by
  induction l generalizing after with
  | nil => rfl
  | cons a r ih =>
    obtain ⟨hnext, hr⟩ := List.isChain_cons.mp h
    rw [squeezeHyphens]
    split
    · next ha =>
      subst ha
      have hafter : after ≠ true := fun hafter => hhead hafter rfl
      rw [if_neg hafter, ih hr fun _ hr' => hnext '-' hr' ⟨rfl, rfl⟩]
    · rw [ih hr (by simp)]

theorem genericLabel_clean : CleanLabel genericLabel where
  ne_nil := by decide
  not_blank := fun c hc => by
    have hall : genericLabel.all (!isBlank ·) = true := by decide
    simpa using List.all_eq_true.mp hall c hc
  not_hostile := fun c hc => by
    have hall : genericLabel.all (!pathHostile.contains ·) = true := by decide
    simpa using List.all_eq_true.mp hall c hc
  apart := by decide

/-- What cleaning gives is clean. -/
theorem cleanLabel_clean (label : List Char) : CleanLabel (cleanLabel label) := by
  rw [cleanLabel]
  split
  · exact genericLabel_clean
  · next hbody =>
    have hmap : (Text.trim label).map labelChar ≠ [] := by simpa using hbody
    refine ⟨squeezeHyphens_ne_nil hmap, fun c hc => ?_, fun c hc => ?_,
      hyphensApart_squeezeHyphens.1⟩
    · obtain ⟨d, -, rfl⟩ := List.mem_map.mp (mem_of_mem_squeezeHyphens hc)
      exact isBlank_labelChar d
    · obtain ⟨d, -, rfl⟩ := List.mem_map.mp (mem_of_mem_squeezeHyphens hc)
      exact labelChar_not_mem_pathHostile d

/-- A clean label stays as it is. -/
theorem CleanLabel.cleanLabel_eq (h : CleanLabel l) : cleanLabel l = l := by
  have hmap : l.map labelChar = l := by
    refine (List.map_congr_left fun c hc => ?_).trans (List.map_id l)
    have hhostile : pathHostile.contains c = false := by simpa using h.not_hostile c hc
    rw [labelChar, h.not_blank c hc, hhostile, Bool.or_self, if_neg Bool.false_ne_true, id]
  have hsqueeze : squeezeHyphens false l = l := squeezeHyphens_of_apart h.apart (by simp)
  have hempty : l.isEmpty = false := by simpa using h.ne_nil
  simp only [cleanLabel, Text.trim_of_forall_not_blank h.not_blank, hmap, hsqueeze, hempty,
    Bool.false_eq_true, if_false]

/-! ### Suffixes -/

/-- A suffix as sessions hold it. -/
structure CleanSuffix (x : List Char) : Prop where
  ne_nil : x ≠ []
  not_blank : ∀ c ∈ x, isBlank c = false
  no_underscore : '_' ∉ x

theorem suffixChar_cases (c : Char) :
    suffixChar c = '-' ∨ (suffixChar c = c ∧ c ≠ '_' ∧ isBlank c = false) := by
  rw [suffixChar]
  split
  · exact .inl rfl
  · next h => exact .inr ⟨rfl, by simpa using h⟩

/-- Something is left of a suffix that is not blank, and it is the trimmed text with its
characters replaced. -/
theorem cleanSuffix?_of_not_blank {s : String} (h : isBlankText s = false) :
    cleanSuffix? s.toList = some ((Text.trim s.toList).map suffixChar) := by
  have hne : Text.trim s.toList ≠ [] := by
    rw [ne_eq, trim_eq_nil_iff_isBlankText, h]
    exact Bool.false_ne_true
  simp [cleanSuffix?, hne]

/-- Nothing is left of a suffix that is blank. -/
theorem cleanSuffix?_of_blank {s : String} (h : isBlankText s = true) :
    cleanSuffix? s.toList = none := by
  simp [cleanSuffix?, trim_eq_nil_iff_isBlankText.mpr h]

/-- What cleaning gives is clean. -/
theorem cleanSuffix_of_cleanSuffix? {s : List Char} (h : cleanSuffix? s = some x) :
    CleanSuffix x := by
  rw [cleanSuffix?] at h
  split at h
  · simp at h
  · next hbody =>
    obtain rfl := Option.some.inj h
    refine ⟨by simpa using hbody, fun c hc => ?_, fun hc => ?_⟩
    · obtain ⟨d, -, rfl⟩ := List.mem_map.mp hc
      rcases suffixChar_cases d with hd | ⟨hd, -, hblank⟩
      · rw [hd]; decide
      · rw [hd, hblank]
    · obtain ⟨d, -, hd⟩ := List.mem_map.mp hc
      rcases suffixChar_cases d with hd' | ⟨hd', hne, -⟩
      · exact absurd (hd'.symm.trans hd) (by decide)
      · exact hne (hd'.symm.trans hd)

/-- A clean suffix stays as it is. -/
theorem CleanSuffix.cleanSuffix?_eq (h : CleanSuffix x) : cleanSuffix? x = some x := by
  have hmap : x.map suffixChar = x := by
    refine (List.map_congr_left fun c hc => ?_).trans (List.map_id x)
    have hne : c ≠ '_' := fun hc' => h.no_underscore (hc' ▸ hc)
    simp [suffixChar, hne, h.not_blank c hc]
  simp [cleanSuffix?, Text.trim_of_forall_not_blank h.not_blank, hmap, h.ne_nil]

/-- A lower case hexadecimal digit is neither blank nor an underscore. -/
theorem not_blank_of_isLowerHex {c : Char} (h : Uuid.isLowerHex c = true) :
    isBlank c = false ∧ c ≠ '_' := by
  have hcode : (48 ≤ c.toNat ∧ c.toNat ≤ 57) ∨ (97 ≤ c.toNat ∧ c.toNat ≤ 102) := by
    simp only [Uuid.isLowerHex, isDigit, Bool.or_eq_true, Bool.and_eq_true, decide_eq_true_eq] at h
    exact h
  constructor
  · simp only [isBlank, Bool.or_eq_false_iff, Bool.and_eq_false_iff, decide_eq_false_iff_not,
      beq_eq_false_iff_ne]
    omega
  · rintro rfl
    revert hcode
    decide

/-- A suffix nobody chose has the form of one. -/
theorem isSuffix_suffix (bits : Nat) : Uuid.isSuffix (Uuid.suffix bits) = true := by
  have hchar : ∀ n, Uuid.isLowerHex (hexChar n) = true := by
    intro n
    have hdigit : ∀ k < 16, Uuid.isLowerHex (hexChar k) = true := by decide
    have hmod : hexChar (n % 16) = hexChar n := by simp [hexChar]
    exact hmod ▸ hdigit (n % 16) (Nat.mod_lt _ (by decide))
  simp [Uuid.isSuffix, Uuid.suffix, Numeral.hex, hchar]

/-- Eight hexadecimal digits are a clean suffix. -/
theorem cleanSuffix_of_isSuffix {s : String} (h : Uuid.isSuffix s = true) :
    CleanSuffix s.toList := by
  obtain ⟨hlength, hhex⟩ : s.length = 8 ∧ ∀ c ∈ s.toList, Uuid.isLowerHex c = true := by
    simpa [Uuid.isSuffix] using h
  refine ⟨fun hnil => ?_, fun c hc => ?_, fun hc => ?_⟩
  · simp [← String.length_toList, hnil] at hlength
  · exact (not_blank_of_isLowerHex (hhex c hc)).1
  · exact (not_blank_of_isLowerHex (hhex _ hc)).2 rfl

/-! ### The last marker -/

/-- Behind the first character of the marker of a derived text no other begins. -/
theorem not_marker_isInfix (hl : HyphensApart l) (hx : '_' ∉ x) :
    ¬ marker <:+: marker.tail ++ (l ++ ['_'] ++ x) := by
  rintro ⟨u, v, huv⟩
  -- up to its underscore the other marker would lie in `-sub_label`
  have hapart : HyphensApart (marker.tail ++ l) := by
    refine List.IsChain.append (by decide) hl fun a ha b _ hboth => ?_
    simp [marker, hboth.1] at ha
  have hcut : (u ++ ['-', '-', 's', 'u', 'b']) ++ ('_' :: v) =
      (marker.tail ++ l) ++ ('_' :: x) := by
    simpa [marker] using huv
  have hinfix : ['-', '-'] <:+: marker.tail ++ l := by
    rcases List.append_eq_append_iff.mp hcut with ⟨w, hw, -⟩ | ⟨w, hw, hx'⟩
    · exact ⟨u, ['s', 'u', 'b'] ++ w, by simp [hw]⟩
    · cases w with
      | nil => exact ⟨u, ['s', 'u', 'b'], by simpa using hw⟩
      | cons a r =>
        obtain ⟨-, hx''⟩ := List.cons.inj hx'
        exact absurd (by simp [hx'']) hx
  have := List.IsChain.infix hapart hinfix
  simp at this

/-- **The parts of a derived text are found again.** -/
theorem split?_childText {p : List Char} (hl : HyphensApart l) (hx : '_' ∉ x) :
    split? (childText p l x) = some (p, l, x) := by
  have hmarker : Text.splitLast? marker (p ++ marker ++ (l ++ ['_'] ++ x)) =
      some (p, l ++ ['_'] ++ x) :=
    Text.splitLast?_append (by decide) (not_marker_isInfix hl hx)
  have hlabel : Text.splitLast? ['_'] (l ++ ['_'] ++ x) = some (l, x) :=
    Text.splitLast?_append_cons hx
  rw [split?, childText, List.append_assoc, List.append_assoc, ← List.append_assoc l, hmarker]
  simp only [Option.bind_eq_bind, Option.bind_some, hlabel, Option.pure_def]

/-! ### Children -/

/-- What a child is derived with: a label and perhaps a suffix. Without one, or with one
that is blank, the suffix is fresh, eight hexadecimal digits. -/
structure Offshoot where
  label : String
  suffix : Option String
  fresh : String
  sound : (∃ s, suffix = some s ∧ isBlankText s = false) ∨ Uuid.isSuffix fresh = true

namespace Offshoot

/-- A child whose suffix is chosen. -/
def chosen (label suffix : String) (h : isBlankText suffix = false) : Offshoot :=
  ⟨label, some suffix, "", .inl ⟨suffix, rfl, h⟩⟩

/-- A child whose suffix is made of random bits. -/
def generated (label : String) (bits : Nat) : Offshoot :=
  ⟨label, none, Uuid.suffix bits, .inr (isSuffix_suffix bits)⟩

/-- The label as the child holds it. -/
def cleanLabel (o : Offshoot) : String := String.ofList (SessionId.cleanLabel o.label.toList)

/-- The suffix as the child holds it. -/
def cleanSuffix (o : Offshoot) : String :=
  String.ofList ((o.suffix.bind fun s => cleanSuffix? s.toList).getD o.fresh.toList)

variable (o : Offshoot)

theorem cleanLabel_clean : CleanLabel o.cleanLabel.toList := by
  rw [cleanLabel, String.toList_ofList]
  exact SessionId.cleanLabel_clean _

/-- An explicit suffix is the child's as soon as it is not blank. -/
theorem cleanSuffix_of_not_blank {s : String} (hs : o.suffix = some s)
    (h : isBlankText s = false) :
    o.cleanSuffix = String.ofList ((Text.trim s.toList).map suffixChar) := by
  simp [cleanSuffix, hs, cleanSuffix?_of_not_blank h]

/-- Where no suffix is given, or a blank one, the child's is fresh. -/
theorem cleanSuffix_of_blank (h : ∀ s ∈ o.suffix, isBlankText s = true) :
    o.cleanSuffix = o.fresh := by
  cases hs : o.suffix with
  | none => simp [cleanSuffix, hs]
  | some s => simp [cleanSuffix, hs, cleanSuffix?_of_blank (h s hs)]

theorem cleanSuffix_clean : CleanSuffix o.cleanSuffix.toList := by
  rw [cleanSuffix, String.toList_ofList]
  cases hx : o.suffix.bind fun s => cleanSuffix? s.toList with
  | some x =>
    obtain ⟨s, -, hs⟩ := Option.bind_eq_some_iff.mp hx
    exact cleanSuffix_of_cleanSuffix? hs
  | none =>
    rcases o.sound with ⟨s, hs, hblank⟩ | hfresh
    · simp [hs, cleanSuffix?_of_not_blank hblank] at hx
    · exact cleanSuffix_of_isSuffix hfresh

end Offshoot

/-- The child of `p` that `o` gives. -/
def branch (p : SessionId) (o : Offshoot) : SessionId := p.derive o.label o.suffix o.fresh

variable (p : SessionId) (o : Offshoot)

theorem branch_eq : p.branch o =
    ⟨String.ofList (childText p.text.toList o.cleanLabel.toList o.cleanSuffix.toList)⟩ := by
  simp [branch, derive, Offshoot.cleanLabel, Offshoot.cleanSuffix]

theorem split?_branch : split? (p.branch o).text.toList =
    some (p.text.toList, o.cleanLabel.toList, o.cleanSuffix.toList) := by
  rw [branch_eq, String.toList_ofList]
  exact split?_childText o.cleanLabel_clean.apart o.cleanSuffix_clean.no_underscore

@[simp] theorem parent?_branch : (p.branch o).parent? = some p := by
  simp [parent?, split?_branch]

@[simp] theorem label?_branch : (p.branch o).label? = some o.cleanLabel := by
  simp [label?, split?_branch]

@[simp] theorem suffix?_branch : (p.branch o).suffix? = some o.cleanSuffix := by
  simp [suffix?, split?_branch]

/-- A child starts with its parent and the marker. -/
theorem text_branch : (p.branch o).text =
    p.text ++ "--sub_" ++ (o.cleanLabel ++ "_" ++ o.cleanSuffix) := by
  rw [branch_eq, ← String.toList_inj]
  simp [childText, marker]

/-- Children are told apart by parent, clean label and clean suffix. -/
theorem branch_eq_iff (q : SessionId) (o' : Offshoot) : p.branch o = q.branch o' ↔
    p = q ∧ o.cleanLabel = o'.cleanLabel ∧ o.cleanSuffix = o'.cleanSuffix := by
  constructor
  · intro h
    have hp := congrArg parent? h
    have hl := congrArg label? h
    have hx := congrArg suffix? h
    simp only [parent?_branch, label?_branch, suffix?_branch, Option.some.injEq] at hp hl hx
    exact ⟨hp, hl, hx⟩
  · rintro ⟨rfl, hl, hx⟩
    rw [branch_eq, branch_eq, hl, hx]

/-- Deriving from clean parts adds nothing to them. -/
theorem derive_clean (fresh : String) :
    p.derive o.cleanLabel (some o.cleanSuffix) fresh = p.branch o := by
  rw [derive, branch_eq, o.cleanLabel_clean.cleanLabel_eq]
  simp [o.cleanSuffix_clean.cleanSuffix?_eq]

/-- The session derived once more from the parts that are read off it. -/
def rederive? (c : SessionId) (fresh : String) : Option SessionId := do
  return (← c.parent?).derive (← c.label?) (some (← c.suffix?)) fresh

/-- A session reads back as the child of `p` with a label and a suffix. -/
structure ReadsAs (c p : SessionId) (label suffix : String) : Prop where
  starts : ∃ rest, c.text = p.text ++ "--sub_" ++ rest
  parent : c.parent? = some p
  label : c.label? = some label
  suffix : c.suffix? = some suffix
  again : ∀ fresh, c.rederive? fresh = some c

theorem branch_readsAs : (p.branch o).ReadsAs p o.cleanLabel o.cleanSuffix where
  starts := ⟨_, text_branch p o⟩
  parent := parent?_branch p o
  label := label?_branch p o
  suffix := suffix?_branch p o
  again := fun fresh => by simp [rederive?, derive_clean]

/-- **Sessions decode exactly.** A child of any parent reads back as that parent, the clean
label and the clean suffix, where the suffix is the explicit one, cleaned, unless that is
blank, and else the fresh one; it is derived again from what is read; and two children are
the same exactly if their parents, clean labels and clean suffixes are. -/
theorem decodes_exactly :
    (∀ p o, (branch p o).ReadsAs p o.cleanLabel o.cleanSuffix) ∧
    (∀ (o : Offshoot) s, o.suffix = some s → isBlankText s = false →
      o.cleanSuffix = String.ofList ((Text.trim s.toList).map suffixChar)) ∧
    (∀ o : Offshoot, (∀ s ∈ o.suffix, isBlankText s = true) → o.cleanSuffix = o.fresh) ∧
    (∀ p q o o', branch p o = branch q o' ↔
      p = q ∧ o.cleanLabel = o'.cleanLabel ∧ o.cleanSuffix = o'.cleanSuffix) :=
  ⟨branch_readsAs, fun o _ hs h => o.cleanSuffix_of_not_blank hs h,
    fun o h => o.cleanSuffix_of_blank h, fun p q o o' => branch_eq_iff p o q o'⟩

example :
    let worker : SessionId := branch ⟨"r1"⟩ (.generated " " 0xdeadbeef)
    (worker.branch (.chosen "a--sub_b c" " _1" (by decide +kernel))).text =
      "r1--sub_generic_deadbeef--sub_a-sub_b_c_-1" := by decide +kernel

end Roundtable.SessionId
