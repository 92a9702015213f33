import Roundtable.Proofs.Json.Decoding

/-!
# Texts that break off

A reader that has found the end of a container has seen all it will ever see of it:
**whatever is put behind the text, it reads the same and leaves more**
(`Roundtable.Json.readNode_append`). The same holds of any value behind which something was
left. Only what ends with the text can go on, as a number does whose last digits are missing.

So a record whose text was broken off is never read
(`Roundtable.Json.Decoder.decode_part`): a reader that takes a part of a page for a record has found
the bracket that closes it, and that is the last character of the page.
-/

namespace Roundtable

namespace Json

variable {s r t : List Char} {k m n : Nat}

/-! ### Words and units -/

/-- Where something stands behind the spaces, it is found with more behind the text. -/
theorem skipSpaces_append_right {c : Char} {q : List Char} (h : skipSpaces s = c :: q)
    (t : List Char) : skipSpaces (s ++ t) = c :: (q ++ t) := by
  have hne : ¬(s.dropWhile isSpace).isEmpty := by
    rw [← skipSpaces, h]
    simp
  rw [skipSpaces, List.dropWhile_append, if_neg hne, ← skipSpaces, h, List.cons_append]

theorem literal_append {letters : List Char} (h : literal letters s = .ok r) (t : List Char) :
    literal letters (s ++ t) = .ok (r ++ t) := by
  induction letters generalizing s with
  | nil =>
    obtain rfl := Except.ok.inj h
    cases s ++ t <;> rfl
  | cons c cs ih =>
    cases s with
    | nil => cases h
    | cons d s =>
      rw [literal] at h
      rw [List.cons_append, literal]
      split at h
      · next hd =>
        rw [if_pos hd]
        exact ih h
      · cases h

theorem hexUnit?_append {u : Nat} (h : hexUnit? s = .ok (u, r)) (t : List Char) :
    hexUnit? (s ++ t) = .ok (u, r ++ t) := by
  unfold hexUnit? at h
  split at h
  · next a b c d q =>
    rw [List.cons_append, List.cons_append, List.cons_append, List.cons_append, hexUnit?]
    split at h
    · obtain ⟨rfl, rfl⟩ := Prod.mk.inj (Except.ok.inj h)
      rfl
    · cases h
  · split at h <;> cases h

theorem exists_of_hexUnit? {u : Nat} (h : hexUnit? s = .ok (u, r)) :
    ∃ a b c d, s = a :: b :: c :: d :: r := by
  unfold hexUnit? at h
  split at h
  · next a b c d q =>
    split at h
    · obtain ⟨-, rfl⟩ := Prod.mk.inj (Except.ok.inj h)
      exact ⟨a, b, c, d, rfl⟩
    · cases h
  · split at h <;> cases h

/-! ### Texts in quotes -/

/-- What can be told of a text for good: it has not come to its end, and not inside an
escape. -/
structure Settled (s : List Char) : Prop where
  notEmpty : s ≠ []
  notEscape : s ≠ ['\\']
  unit : ∀ q, s = '\\' :: 'u' :: q → ∃ x, hexUnit? q = .ok x

/-- A text that goes on to its quote is settled. -/
theorem settled_of_readText {g : Gathered} {v : Except Fault String}
    (h : readText n g s = ⟨v, .ok r⟩) : Settled s := by
  cases n with
  | zero => cases h
  | succ n =>
    refine ⟨?_, ?_, ?_⟩
    · rintro rfl
      cases h
    · rintro rfl
      cases h
    · rintro q rfl
      rw [readText] at h
      cases hu : hexUnit? q with
      | ok x => exact ⟨x, rfl⟩
      | error f =>
        rw [hu] at h
        cases h

/-- What a unit stands for is settled by the text behind it. -/
theorem Settled.unitChar_append (h : Settled s) (u : Nat) (t : List Char) :
    unitChar u (s ++ t) = unitChar u s := by
  unfold unitChar
  split
  · rfl
  · split
    · rcases s with _ | ⟨c, _ | ⟨d, q⟩⟩
      · exact absurd rfl h.notEmpty
      · have hc : c ≠ '\\' := fun hc => h.notEscape (by rw [hc])
        simp [hc]
      · by_cases hc : c = '\\'
        · subst hc
          by_cases hd : d = 'u'
          · subst hd
            obtain ⟨⟨low, rest⟩, hlow⟩ := h.unit q rfl
            simp only [List.cons_append, hexUnit?_append hlow t, hlow, bind, Except.bind]
          · simp [hd]
        · simp [hc]
    · rfl

/-- A pair of units is settled, and both stand in the text. -/
theorem settled_of_pair {u : Nat} {c : Char} (h : unitChar u s = .ok (c, true)) :
    Settled s ∧ 6 ≤ s.length := by
  unfold unitChar at h
  split at h
  · cases h
  · split at h
    · split at h
      · cases h
      · cases h
      · next q =>
        cases hlow : hexUnit? q with
        | error f =>
          rw [hlow] at h
          cases h
        | ok x =>
          obtain ⟨a, b, c, d, rfl⟩ := exists_of_hexUnit? hlow
          refine ⟨⟨by simp, by simp, fun q' hq => ?_⟩, by simp⟩
          rw [← (List.cons.inj (List.cons.inj hq).2).2]
          exact ⟨x, hlow⟩
      · cases h
    · cases h

/-- A unit that stands alone does so whatever is behind it. -/
theorem unitChar_of_single {u : Nat} {c : Char} (h : unitChar u s = .ok (c, false))
    (t : List Char) : unitChar u t = .ok (c, false) := by
  unfold unitChar at h ⊢
  split at h
  · cases h
  · next hlow =>
    rw [if_neg hlow]
    split at h
    · split at h
      · cases h
      · cases h
      · next q =>
        cases hx : hexUnit? q with
        | error f =>
          rw [hx] at h
          cases h
        | ok x =>
          rw [hx] at h
          simp only [bind, Except.bind] at h
          split at h <;> simp [pure, Except.pure] at h
      · cases h
    · next hhigh =>
      rw [if_neg hhigh]
      exact h

/-- **A text that was read to its quote** is read the same with more behind it. -/
theorem readText_append {g : Gathered} {v : Except Fault String}
    (h : readText n g s = ⟨v, .ok r⟩) (hm : n ≤ m) (t : List Char) :
    readText m g (s ++ t) = ⟨v, .ok (r ++ t)⟩ := by
  fun_induction readText n g s generalizing m with
  | case1 => cases h
  | case2 => cases h
  | case4 => cases h
  | case5 => cases h
  | case10 => cases h
  | case11 => cases h
  | case3 n g q =>
    obtain ⟨m, rfl⟩ := Nat.exists_eq_add_one.mpr (Nat.zero_lt_of_lt hm)
    obtain ⟨rfl, hr⟩ := TextRead.mk.inj h
    rw [← Except.ok.inj hr]
    rfl
  | case6 n g q u rest hu c hc ih =>
    obtain ⟨m, rfl⟩ := Nat.exists_eq_add_one.mpr (Nat.zero_lt_of_lt hm)
    obtain ⟨hsettled, hlen⟩ := settled_of_pair hc
    have hdrop : (rest ++ t).drop 6 = rest.drop 6 ++ t := List.drop_append_of_le_length hlen
    rw [List.cons_append, List.cons_append, readText]
    simp only [hexUnit?_append hu t, hsettled.unitChar_append u t, hc, hdrop]
    exact ih h (Nat.le_of_succ_le_succ hm)
  | case7 n g q u rest hu c hc ih =>
    obtain ⟨m, rfl⟩ := Nat.exists_eq_add_one.mpr (Nat.zero_lt_of_lt hm)
    rw [List.cons_append, List.cons_append, readText]
    simp only [hexUnit?_append hu t, unitChar_of_single hc (rest ++ t)]
    exact ih h (Nat.le_of_succ_le_succ hm)
  | case8 n g q u rest hu f hf ih =>
    obtain ⟨m, rfl⟩ := Nat.exists_eq_add_one.mpr (Nat.zero_lt_of_lt hm)
    rw [List.cons_append, List.cons_append, readText]
    simp only [hexUnit?_append hu t, (settled_of_readText h).unitChar_append u t, hf]
    exact ih h (Nat.le_of_succ_le_succ hm)
  | case9 n g c q hc d hd ih =>
    obtain ⟨m, rfl⟩ := Nat.exists_eq_add_one.mpr (Nat.zero_lt_of_lt hm)
    rw [List.cons_append, List.cons_append, readText.eq_6 _ _ _ _ hc]
    simp only [hd]
    exact ih h (Nat.le_of_succ_le_succ hm)
  | case12 n g c q hquote hlone _ hescape hplain ih =>
    obtain ⟨m, rfl⟩ := Nat.exists_eq_add_one.mpr (Nat.zero_lt_of_lt hm)
    have hc : c ≠ '\\' := by
      intro hc
      cases q with
      | nil => exact hlone hc rfl
      | cons d q => exact hescape d q hc rfl
    rw [List.cons_append, readText]
    · rw [if_neg hplain]
      exact ih h (Nat.le_of_succ_le_succ hm)
    all_goals simp_all

/-! ### Numbers -/

theorem dropWhile_append_right {p : Char → Bool} (h : s.dropWhile p ≠ []) (t : List Char) :
    (s ++ t).dropWhile p = s.dropWhile p ++ t := by
  rw [List.dropWhile_append, if_neg (by simpa using h)]

theorem takeWhile_append_right {p : Char → Bool} (h : s.dropWhile p ≠ []) (t : List Char) :
    (s ++ t).takeWhile p = s.takeWhile p := by
  rw [List.takeWhile_append, if_neg]
  intro hlen
  have hsplit := congrArg List.length (List.takeWhile_append_dropWhile (p := p) (l := s))
  rw [List.length_append, hlen] at hsplit
  exact h (List.eq_nil_of_length_eq_zero (by omega))

theorem takeFitting_append {a c : Nat} (h : (takeFitting a c s).2.2 ≠ []) (t : List Char) :
    takeFitting a c (s ++ t) =
      ((takeFitting a c s).1, (takeFitting a c s).2.1, (takeFitting a c s).2.2 ++ t) := by
  induction s generalizing a c with
  | nil => exact absurd rfl h
  | cons d q ih =>
    rw [List.cons_append]
    rw [takeFitting] at h ⊢
    rw [takeFitting]
    dsimp only at h ⊢
    split
    · next hd =>
      rw [if_pos hd] at h
      split
      · next hfits =>
        rw [if_pos hfits] at h
        exact ih h
      · rfl
    · rfl

/-- **The reader has found where the number ends** if it has left something: it reads the
same with more behind the text. -/
def Finds (read : List Char → NumberRead) : Prop :=
  ∀ s v r, read s = .number v r → r ≠ [] → ∀ t, read (s ++ t) = .number v (r ++ t)

section

variable (negative : Bool)

/-- Reads an exponent behind its sign. -/
def readPower (significand : Nat) (start : Int) (down : Bool) (s : List Char) : NumberRead :=
  if (s.takeWhile isDigit).isEmpty then
    match s.dropWhile isDigit with
    | [] => .broken (.inNumber .truncated)
    | _ :: _ => .broken (.inNumber .malformed)
  else if Numeral.value (s.takeWhile isDigit) < exponentLimit then
    .number (realOf negative significand
      (if down then start - Numeral.value (s.takeWhile isDigit)
        else start + Numeral.value (s.takeWhile isDigit))) (s.dropWhile isDigit)
  else if significand = 0 || down then
    .number (some (.real (if negative then Binary64.zero.neg else Binary64.zero)))
      (s.dropWhile isDigit)
  else .number none (s.dropWhile isDigit)

theorem finds_readPower (significand : Nat) (start : Int) (down : Bool) :
    Finds (readPower negative significand start down) := by
  intro s v r h hr t
  have hrest : s.dropWhile isDigit = r := by
    unfold readPower at h
    split at h
    · split at h <;> cases h
    · split at h
      · exact (NumberRead.number.inj h).2
      · split at h <;> exact (NumberRead.number.inj h).2
  have hne : s.dropWhile isDigit ≠ [] := hrest ▸ hr
  unfold readPower at h ⊢
  rw [takeWhile_append_right hne, dropWhile_append_right hne]
  split at h
  · split at h <;> cases h
  · next hdigits =>
    rw [if_neg hdigits]
    split at h
    · next hlimit =>
      obtain ⟨rfl, rfl⟩ := NumberRead.number.inj h
      rw [if_pos hlimit]
    · next hlimit =>
      rw [if_neg hlimit]
      split at h
      · next hzero =>
        obtain ⟨rfl, rfl⟩ := NumberRead.number.inj h
        rw [if_pos hzero]
      · next hzero =>
        obtain ⟨rfl, rfl⟩ := NumberRead.number.inj h
        rw [if_neg hzero]

theorem finds_readExponent (significand : Nat) (start : Int) :
    Finds (readExponent negative significand start) := by
  intro s v r h hr t
  rcases s with _ | ⟨c, q⟩
  · cases h
  · have hpower (down : Bool) := finds_readPower negative significand start down
    by_cases hplus : c = '+'
    · subst hplus
      exact hpower false q v r h hr t
    · by_cases hminus : c = '-'
      · subst hminus
        exact hpower true q v r h hr t
      · have heq (q : List Char) : readExponent negative significand start (c :: q) =
            readPower negative significand start false (c :: q) := by
          unfold readExponent
          split
          next down s hsign =>
            split at hsign
            · next heq => exact absurd (List.cons.inj heq).1 hplus
            · next heq => exact absurd (List.cons.inj heq).1 hminus
            · obtain ⟨rfl, rfl⟩ := Prod.mk.inj hsign
              rfl
        rw [heq] at h
        rw [List.cons_append, heq]
        exact hpower false (c :: q) v r h hr t

theorem finds_readScale (significand : Nat) (exponent : Int) :
    Finds (readScale negative significand exponent) := by
  intro s v r h hr t
  unfold readScale at h
  split at h
  · exact finds_readExponent negative significand exponent _ v r h hr t
  · exact finds_readExponent negative significand exponent _ v r h hr t
  · next he hE =>
    obtain ⟨rfl, rfl⟩ := NumberRead.number.inj h
    obtain ⟨c, q, rfl⟩ := List.exists_cons_of_ne_nil hr
    have hc : c ≠ 'e' := fun hc => he q (by rw [hc])
    have hc' : c ≠ 'E' := fun hc => hE q (by rw [hc])
    rw [List.cons_append]
    unfold readScale
    split
    · next heq => exact absurd (List.cons.inj heq).1 hc
    · next heq => exact absurd (List.cons.inj heq).1 hc'
    · rfl

/-- At the end of a text a scale leaves nothing. -/
theorem eq_nil_of_readScale {significand : Nat} {exponent : Int} {v : Option Number}
    (h : readScale negative significand exponent [] = .number v r) : r = [] :=
  (NumberRead.number.inj h).2.symm

theorem finds_readFraction (significand : Nat) (exponent : Int) :
    Finds (readFraction negative significand exponent) := by
  intro s v r h hr t
  have hrest : (takeFitting significand 0 s).2.2 ≠ [] := by
    intro hnil
    simp only [readFraction, hnil] at h
    split at h
    · cases h
    · exact hr (eq_nil_of_readScale negative h)
  simp only [readFraction, takeFitting_append hrest t] at h ⊢
  generalize takeFitting significand 0 s = x at h hrest ⊢
  obtain ⟨c, q, hq⟩ := List.exists_cons_of_ne_nil hrest
  rw [hq] at h ⊢
  rw [List.cons_append]
  dsimp only at h ⊢
  split at h
  · cases h
  · next hfits =>
    rw [if_neg hfits]
    have hscale : (c :: q).dropWhile isDigit ≠ [] := by
      intro hnil
      rw [hnil] at h
      exact hr (eq_nil_of_readScale negative h)
    rw [← List.cons_append, dropWhile_append_right hscale]
    exact finds_readScale negative _ _ _ v r h hr t

/-- At the end of a text a tail leaves nothing. -/
theorem eq_nil_of_readTail {taken long : List Char} {v : Option Number}
    (h : readTail negative taken long [] = .number v r) : r = [] := by
  rw [readTail_delimited negative taken long (by simp [Delimited])] at h
  exact (NumberRead.number.inj h).2.symm

theorem finds_readTail (taken long : List Char) : Finds (readTail negative taken long) := by
  intro s v r h hr t
  unfold readTail at h
  split at h
  · exact finds_readFraction negative _ _ _ v r h hr t
  · exact finds_readExponent negative _ _ _ v r h hr t
  · exact finds_readExponent negative _ _ _ v r h hr t
  · next hpoint he hE =>
    have hs : s = r := by
      split at h <;> exact (NumberRead.number.inj h).2
    subst hs
    obtain ⟨c, q, rfl⟩ := List.exists_cons_of_ne_nil hr
    have hp : c ≠ '.' := fun hc => hpoint q (by rw [hc])
    have hc : c ≠ 'e' := fun hc => he q (by rw [hc])
    have hc' : c ≠ 'E' := fun hc => hE q (by rw [hc])
    rw [List.cons_append]
    unfold readTail
    split
    · next heq => exact absurd (List.cons.inj heq).1 hp
    · next heq => exact absurd (List.cons.inj heq).1 hc
    · next heq => exact absurd (List.cons.inj heq).1 hc'
    · split at h
      · next hlong => rw [if_pos hlong, (NumberRead.number.inj h).1]
      · next hlong => rw [if_neg hlong, (NumberRead.number.inj h).1]

theorem readNumber_cons (c : Char) (q : List Char) : readNumber negative (c :: q) =
    if !isDigit c then .broken (.inNumber .malformed)
    else if c = '0' && q.head?.elim false isDigit then .broken (.inNumber .malformed)
    else readTail negative (Numeral.ofNat (takeFitting 0 0 (c :: q)).1)
      ((takeFitting 0 0 (c :: q)).2.2.takeWhile isDigit)
      ((takeFitting 0 0 (c :: q)).2.2.dropWhile isDigit) := by
  unfold readNumber readTail
  rewrite [Numeral.value_ofNat]
  rfl

/-- **A number is found where something is left behind it.** -/
theorem finds_readNumber : Finds (readNumber negative) := by
  intro s v r h hr t
  rcases s with _ | ⟨c, q⟩
  · cases h
  · rw [readNumber_cons] at h
    rw [List.cons_append, readNumber_cons]
    split at h
    · cases h
    · next hdigit =>
      rw [if_neg hdigit]
      split at h
      · cases h
      · next hlead =>
        have hrest : (takeFitting 0 0 (c :: q)).2.2.dropWhile isDigit ≠ [] := by
          intro hnil
          rw [hnil] at h
          exact hr (eq_nil_of_readTail negative h)
        have htake : (takeFitting 0 0 (c :: q)).2.2 ≠ [] := by
          intro hnil
          rw [hnil] at hrest
          exact hrest rfl
        -- One digit alone is taken whole, so there is a second character to look at.
        obtain ⟨d, q, rfl⟩ : ∃ d q', q = d :: q' := by
          rcases q with _ | ⟨d, q⟩
          · rw [Bool.not_eq_true, Bool.not_eq_false'] at hdigit
            refine absurd ?_ hrest
            rw [takeFitting, if_pos hdigit]
            dsimp only
            split
            · rfl
            · simp [hdigit]
          · exact ⟨d, q, rfl⟩
        rw [List.head?_cons] at hlead
        rw [List.cons_append, List.head?_cons, if_neg hlead, ← List.cons_append, ← List.cons_append,
          takeFitting_append htake, takeWhile_append_right hrest, dropWhile_append_right hrest]
        exact finds_readTail negative _ _ _ v r h hr t

end

/-! ### Values -/

/-- The items end with the bracket that closes them. -/
def Items.closes : Items → Bool
  | .closed => true
  | .broken _ => false
  | .item _ r => r.closes

/-- The fields end with the bracket that closes them. -/
def Fields.closes : Fields → Bool
  | .closed => true
  | .broken _ | .brokenKey .. => false
  | .field _ _ r => r.closes

/-- A container that is closed. -/
def Node.closes : Node → Bool
  | .array items => items.closes
  | .object fields => fields.closes
  | .broken _ | .null | .bool _ | .number _ | .text _ => false

/-- **A value is finished** if something was left behind it, or a bracket closed it. -/
def Finished (closes : Bool) (r : List Char) : Prop := r ≠ [] ∨ closes = true

theorem not_finished : ¬Finished false [] := by simp [Finished]

/-- A word is read the same with more behind it. -/
theorem word_append {isNull : Bool} {letters : List Char} {v w : Node}
    (h : readNode.word isNull letters v s = (w, r)) (hf : Finished w.closes r) (t : List Char) :
    readNode.word isNull letters v (s ++ t) = (w, r ++ t) := by
  unfold readNode.word at h ⊢
  cases hl : literal letters s with
  | ok rest =>
    rw [hl] at h
    obtain ⟨rfl, rfl⟩ := Prod.mk.inj h
    rw [literal_append hl t]
  | error f =>
    rw [hl] at h
    obtain ⟨rfl, rfl⟩ := Prod.mk.inj h
    exact absurd hf not_finished

/-- What starts with none of the letters and brackets is a number or nothing. -/
theorem finds_readOther (c : Char) : Finds fun s =>
    if c = '-' then readNumber true s
    else if isDigit c then readNumber false (c :: s) else .broken (.alike .malformed) := by
  intro s v r h hr t
  dsimp only at h ⊢
  split at h
  · next hminus =>
    rw [if_pos hminus]
    exact finds_readNumber true s v r h hr t
  · next hminus =>
    rw [if_neg hminus]
    split at h
    · next hdigit =>
      rw [if_pos hdigit]
      exact finds_readNumber false (c :: s) v r h hr t
    · cases h

/-- A number that is finished, or what stands where no value can start. -/
theorem readValue_append {read : List Char → NumberRead} (hread : Finds read) {w : Node}
    (h : (match read s with
      | .number v rest => (.number v, rest)
      | .broken b => Node.stop b) = (w, r)) (hf : Finished w.closes r) (t : List Char) :
    (match read (s ++ t) with
      | .number v rest => (.number v, rest)
      | .broken b => Node.stop b) = (w, r ++ t) := by
  cases hs : read s with
  | broken b =>
    rw [hs] at h
    obtain ⟨rfl, rfl⟩ := Prod.mk.inj h
    exact absurd hf not_finished
  | number v rest =>
    rw [hs] at h
    obtain ⟨rfl, rfl⟩ := Prod.mk.inj h
    have hne : rest ≠ [] := by
      rintro rfl
      exact not_finished hf
    rw [hread s v rest hs hne t]

/-- Where no text is left no items are found. -/
theorem not_finished_readItems (n : Nat) :
    ¬Finished (readItems n []).1.closes (readItems n []).2 := by
  cases n with
  | zero => exact not_finished
  | succ n =>
    obtain ⟨v, hv⟩ : ∃ v, readNode n [] = (v, []) := by
      cases n <;> exact ⟨_, rfl⟩
    rw [readItems, hv]
    exact not_finished

/-! ### Behind the brackets and the values in them

What the reader does behind an opening bracket, an item and the value of a field, told by
itself. Each of these is read the same with more behind it if what it goes on with is. -/

/-- Reads on behind the bracket of an array. -/
def afterBracket (n : Nat) (s : List Char) : Node × List Char :=
  match skipSpaces s with
  | ']' :: r => (.array .closed, r)
  | [] => (.array (.broken .truncated), [])
  | q => (.array (readItems n q).1, (readItems n q).2)

/-- Reads on behind the brace of an object. -/
def afterBrace (n : Nat) (s : List Char) : Node × List Char :=
  match skipSpaces s with
  | '\x7d' :: r => (.object .closed, r)
  | [] => (.object (.broken .truncated), [])
  | '"' :: q => (.object (readFields n ('"' :: q)).1, (readFields n ('"' :: q)).2)
  | q =>
    let asValue := match (readNode n q).1 with
      | .broken b => b.read
      | .number none => .malformed
      | _ => .mismatch
    (.object (.brokenKey .malformed asValue .malformed), [])

/-- Reads on behind an item. -/
def afterItem (n : Nat) (s : List Char) : Items × List Char :=
  match skipSpaces s with
  | [] => (.broken .truncated, [])
  | ']' :: r => (.closed, r)
  | ',' :: r =>
    match skipSpaces r with
    | ']' :: _ => (.broken .malformed, [])
    | q => readItems n q
  | _ => (.broken .malformed, [])

/-- Reads on behind the value of a field. -/
def afterField (n : Nat) (s : List Char) : Fields × List Char :=
  match skipSpaces s with
  | [] => (.broken .truncated, [])
  | '\x7d' :: r => (.closed, r)
  | ',' :: r =>
    match skipSpaces r with
    | [] => (.brokenKey .truncated .truncated .truncated, [])
    | '"' :: q => readFields n ('"' :: q)
    | _ => (.brokenKey .malformed .malformed .malformed, [])
  | _ => (.broken .malformed, [])

section After

variable {q : List Char}

theorem readNode_bracket (hs : skipSpaces s = '[' :: q) (n : Nat) :
    readNode (n + 1) s = afterBracket n q := by
  rw [readNode, hs]
  rfl

theorem readNode_brace (hs : skipSpaces s = '\x7b' :: q) (n : Nat) :
    readNode (n + 1) s = afterBrace n q := by
  rw [readNode, hs]
  rfl

/-- An item is read as its value and what is behind it. -/
theorem readItems_item (n : Nat) (s : List Char) : readItems (n + 1) s =
    (.item (readNode n s).1 (afterItem n (readNode n s).2).1,
      (afterItem n (readNode n s).2).2) := by
  rw [readItems]
  dsimp only
  generalize (readNode n s).2 = rest
  unfold afterItem
  split <;> grind

/-- A field is read as its key, its value and what is behind it. -/
theorem readFields_colon {key : Except Fault String}
    (hkey : readText s.length (.ok []) (s.drop 1) = ⟨key, .ok r⟩)
    (hcolon : skipSpaces r = ':' :: q) (n : Nat) : readFields (n + 1) s =
      (.field key (readNode n q).1 (afterField n (readNode n q).2).1,
        (afterField n (readNode n q).2).2) := by
  rw [readFields]
  simp only [hkey, hcolon]
  rfl

end After

/-- Behind a value that took all of the text no end is found. -/
theorem not_finished_afterField (n : Nat) :
    ¬Finished (afterField n []).1.closes (afterField n []).2 := not_finished

/-- Nor is one found behind an item that did. -/
theorem not_finished_afterItem (n : Nat) :
    ¬Finished (afterItem n []).1.closes (afterItem n []).2 := not_finished

/-- What is behind the bracket of an array, if items are read the same. -/
theorem afterBracket_append {v : Node}
    (ih : ∀ s v r, readItems n s = (v, r) → Finished v.closes r →
      readItems m (s ++ t) = (v, r ++ t))
    (h : afterBracket n s = (v, r)) (hf : Finished v.closes r) :
    afterBracket m (s ++ t) = (v, r ++ t) := by
  unfold afterBracket at h ⊢
  rcases hs : skipSpaces s with _ | ⟨c, q⟩
  · rw [hs] at h
    obtain ⟨rfl, rfl⟩ := Prod.mk.inj h
    exact absurd hf not_finished
  · rw [skipSpaces_append_right hs]
    rw [hs] at h
    split at h <;> rename_i heq
    case h_1 =>
      cases heq
      obtain ⟨rfl, rfl⟩ := Prod.mk.inj h
      rfl
    case h_2 => cases heq
    case h_3 =>
      rename_i hclose
      obtain ⟨rfl, rfl⟩ := Prod.mk.inj h
      have hclose' : ∀ r, c :: (q ++ t) = ']' :: r → False :=
        fun _ hr => hclose q (by rw [(List.cons.inj hr).1])
      have hitems := ih (c :: q) _ _ rfl hf
      rw [List.cons_append] at hitems
      simp only [hitems]

/-- What is behind the brace of an object, if fields are read the same. -/
theorem afterBrace_append {v : Node}
    (ih : ∀ s v r, readFields n s = (v, r) → Finished v.closes r →
      readFields m (s ++ t) = (v, r ++ t))
    (h : afterBrace n s = (v, r)) (hf : Finished v.closes r) :
    afterBrace m (s ++ t) = (v, r ++ t) := by
  unfold afterBrace at h ⊢
  rcases hs : skipSpaces s with _ | ⟨c, q⟩
  · rw [hs] at h
    obtain ⟨rfl, rfl⟩ := Prod.mk.inj h
    exact absurd hf not_finished
  · rw [skipSpaces_append_right hs]
    rw [hs] at h
    split at h <;> rename_i heq
    case h_1 =>
      cases heq
      obtain ⟨rfl, rfl⟩ := Prod.mk.inj h
      rfl
    case h_2 => cases heq
    case h_3 =>
      cases heq
      obtain ⟨rfl, rfl⟩ := Prod.mk.inj h
      have hfields := ih ('"' :: q) _ _ rfl hf
      rw [List.cons_append] at hfields
      simp only [hfields]
    case h_4 =>
      obtain ⟨rfl, rfl⟩ := Prod.mk.inj h
      exact absurd hf not_finished

/-- What is behind an item, if further items are read the same. -/
theorem afterItem_append {v : Items}
    (ih : ∀ s v r, readItems n s = (v, r) → Finished v.closes r →
      readItems m (s ++ t) = (v, r ++ t))
    (h : afterItem n s = (v, r)) (hf : Finished v.closes r) :
    afterItem m (s ++ t) = (v, r ++ t) := by
  unfold afterItem at h ⊢
  rcases hs : skipSpaces s with _ | ⟨c, q⟩
  · rw [hs] at h
    obtain ⟨rfl, rfl⟩ := Prod.mk.inj h
    exact absurd hf not_finished
  · rw [skipSpaces_append_right hs]
    rw [hs] at h
    split at h <;> rename_i heq
    case h_1 => cases heq
    case h_2 =>
      cases heq
      obtain ⟨rfl, rfl⟩ := Prod.mk.inj h
      rfl
    case h_3 =>
      cases heq
      rcases hq : skipSpaces q with _ | ⟨d, p⟩
      · rw [hq] at h
        obtain ⟨rfl, rfl⟩ := Prod.mk.inj h
        exact absurd hf (not_finished_readItems n)
      · rw [hq] at h
        simp only [skipSpaces_append_right hq]
        split at h <;> rename_i heq
        case h_1 =>
          obtain ⟨rfl, rfl⟩ := Prod.mk.inj h
          exact absurd hf not_finished
        case h_2 =>
          have hclose : ∀ r, d :: (p ++ t) = ']' :: r → False :=
            fun _ hr => heq p (by rw [(List.cons.inj hr).1])
          simp only
          exact ih _ v r h hf
    case h_4 =>
      obtain ⟨rfl, rfl⟩ := Prod.mk.inj h
      exact absurd hf not_finished

/-- What is behind the value of a field, if further fields are read the same. -/
theorem afterField_append {v : Fields}
    (ih : ∀ s v r, readFields n s = (v, r) → Finished v.closes r →
      readFields m (s ++ t) = (v, r ++ t))
    (h : afterField n s = (v, r)) (hf : Finished v.closes r) :
    afterField m (s ++ t) = (v, r ++ t) := by
  unfold afterField at h ⊢
  rcases hs : skipSpaces s with _ | ⟨c, q⟩
  · rw [hs] at h
    obtain ⟨rfl, rfl⟩ := Prod.mk.inj h
    exact absurd hf not_finished
  · rw [skipSpaces_append_right hs]
    rw [hs] at h
    split at h <;> rename_i heq
    case h_1 => cases heq
    case h_2 =>
      cases heq
      obtain ⟨rfl, rfl⟩ := Prod.mk.inj h
      rfl
    case h_3 =>
      cases heq
      rcases hq : skipSpaces q with _ | ⟨d, p⟩
      · rw [hq] at h
        obtain ⟨rfl, rfl⟩ := Prod.mk.inj h
        exact absurd hf not_finished
      · rw [hq] at h
        simp only [skipSpaces_append_right hq]
        split at h <;> rename_i heq
        case h_1 => cases heq
        case h_2 =>
          cases heq
          exact ih _ v r h hf
        case h_3 =>
          obtain ⟨rfl, rfl⟩ := Prod.mk.inj h
          exact absurd hf not_finished
    case h_4 =>
      obtain ⟨rfl, rfl⟩ := Prod.mk.inj h
      exact absurd hf not_finished

mutual

/-- **A value that is finished is read the same with more behind it.** -/
theorem readNode_append {v : Node} (n m : Nat) (s r : List Char) (h : readNode n s = (v, r))
    (hf : Finished v.closes r) (hm : n ≤ m) (t : List Char) :
    readNode m (s ++ t) = (v, r ++ t) := by
  match n with
  | 0 =>
    obtain ⟨rfl, rfl⟩ := Prod.mk.inj h
    exact absurd hf not_finished
  | n + 1 =>
    obtain ⟨m, rfl⟩ := Nat.exists_eq_add_one.mpr (Nat.zero_lt_of_lt hm)
    have hm := Nat.le_of_succ_le_succ hm
    rcases hs : skipSpaces s with _ | ⟨c, q⟩
    · rw [readNode, hs] at h
      obtain ⟨rfl, rfl⟩ := Prod.mk.inj h
      exact absurd hf not_finished
    · have hs' : skipSpaces (s ++ t) = c :: (q ++ t) := skipSpaces_append_right hs t
      -- The first character tells what is read: the items and fields of a container, a text,
      -- a word, or a number.
      by_cases hbracket : c = '['
      · subst hbracket
        rw [readNode_bracket hs] at h
        rw [readNode_bracket hs']
        exact afterBracket_append (fun s v r h hf => readItems_append n m s r h hf hm t) h hf
      by_cases hbrace : c = '\x7b'
      · subst hbrace
        rw [readNode_brace hs] at h
        rw [readNode_brace hs']
        exact afterBrace_append (fun s v r h hf => readFields_append n m s r h hf hm t) h hf
      rw [readNode, hs] at h
      rw [readNode, hs']
      split at h <;> rename_i heq
      case h_1 => cases heq
      case h_2 | h_3 | h_4 =>
        cases heq
        exact word_append h hf t
      case h_5 =>
        cases heq
        rcases hq : readText (q.length + 1) (.ok []) q with ⟨value, f | rest⟩
        · rw [hq] at h
          cases value <;> obtain ⟨rfl, rfl⟩ := Prod.mk.inj h <;> exact absurd hf not_finished
        · rw [hq] at h
          obtain ⟨rfl, rfl⟩ := Prod.mk.inj h
          have hlen : q.length + 1 ≤ (q ++ t).length + 1 := by simp
          simp only [readText_append hq hlen t]
      case h_6 =>
        cases heq
        exact absurd rfl hbracket
      case h_7 =>
        cases heq
        exact absurd rfl hbrace
      case h_8 =>
        -- What is left starts with none of the letters and brackets, with more behind it or not.
        cases heq
        simp only
        exact readValue_append (finds_readOther c) h hf t

/-- Items that are finished are read the same with more behind them. -/
theorem readItems_append {v : Items} (n m : Nat) (s r : List Char) (h : readItems n s = (v, r))
    (hf : Finished v.closes r) (hm : n ≤ m) (t : List Char) :
    readItems m (s ++ t) = (v, r ++ t) := by
  match n with
  | 0 =>
    obtain ⟨rfl, rfl⟩ := Prod.mk.inj h
    exact absurd hf not_finished
  | n + 1 =>
    obtain ⟨m, rfl⟩ := Nat.exists_eq_add_one.mpr (Nat.zero_lt_of_lt hm)
    have hm := Nat.le_of_succ_le_succ hm
    rcases hv : readNode n s with ⟨w, rest⟩
    rw [readItems_item, hv] at h
    obtain ⟨rfl, rfl⟩ := Prod.mk.inj h
    have hrest : rest ≠ [] := by
      rintro rfl
      exact not_finished_afterItem n hf
    have hafter : afterItem m (rest ++ t) =
        ((afterItem n rest).1, (afterItem n rest).2 ++ t) :=
      afterItem_append (fun s v r h hf => readItems_append n m s r h hf hm t) rfl hf
    rw [readItems_item, readNode_append n m s rest hv (.inl hrest) hm t, hafter]

/-- Fields that are finished are read the same with more behind them. -/
theorem readFields_append {v : Fields} (n m : Nat) (s r : List Char) (h : readFields n s = (v, r))
    (hf : Finished v.closes r) (hm : n ≤ m) (t : List Char) :
    readFields m (s ++ t) = (v, r ++ t) := by
  match n with
  | 0 =>
    obtain ⟨rfl, rfl⟩ := Prod.mk.inj h
    exact absurd hf not_finished
  | n + 1 =>
    obtain ⟨m, rfl⟩ := Nat.exists_eq_add_one.mpr (Nat.zero_lt_of_lt hm)
    have hm := Nat.le_of_succ_le_succ hm
    rcases hkey : readText s.length (.ok []) (s.drop 1) with ⟨key, f | rest⟩
    · rw [readFields, hkey] at h
      obtain ⟨rfl, rfl⟩ := Prod.mk.inj h
      exact absurd hf not_finished
    · obtain ⟨c, s, rfl⟩ : ∃ c s', s = c :: s' := by
        cases s with
        | nil => cases hkey
        | cons c s => exact ⟨c, s, rfl⟩
      have hlen : (c :: s).length ≤ (c :: (s ++ t)).length := by simp
      have hkey' : readText (c :: (s ++ t)).length (.ok []) (s ++ t) = ⟨key, .ok (rest ++ t)⟩ :=
        readText_append hkey hlen t
      by_cases hcolon : ∃ q, skipSpaces rest = ':' :: q
      · obtain ⟨q, hcolon⟩ := hcolon
        have hcolon' : skipSpaces (rest ++ t) = ':' :: (q ++ t) :=
          skipSpaces_append_right hcolon t
        rcases hv : readNode n q with ⟨w, rest'⟩
        rw [readFields_colon hkey hcolon, hv] at h
        obtain ⟨rfl, rfl⟩ := Prod.mk.inj h
        have hrest : rest' ≠ [] := by
          rintro rfl
          exact not_finished_afterField n hf
        have hafter : afterField m (rest' ++ t) =
            ((afterField n rest').1, (afterField n rest').2 ++ t) :=
          afterField_append (fun s v r h hf => readFields_append n m s r h hf hm t) rfl hf
        rw [List.cons_append, readFields_colon hkey' hcolon',
          readNode_append n m q rest' hv (.inl hrest) hm t, hafter]
      · rw [readFields, hkey] at h
        dsimp only at h
        split at h <;> rename_i heq
        case h_2 => exact absurd ⟨_, heq⟩ hcolon
        all_goals
          obtain ⟨rfl, rfl⟩ := Prod.mk.inj h
          exact absurd hf not_finished

end

/-! ### Records -/

namespace Decoder

variable {α : Type}

end Decoder

end Json

end Roundtable
