import Roundtable.Json.Node
import Roundtable.Json.Printer
import Roundtable.Proofs.Text.Numerals

/-!
# Numbers that are read back

A number is written as a row of digits, with a fraction and a power of ten behind it if
need be (`Roundtable.Json.IsMagnitude`). **What reads it stops where it ends**, whatever
delimits it there, and what it makes of the number does not depend on that
(`Roundtable.Json.Number.read_print`).

What it makes of it, `Roundtable.Json.Number.reread`, is not always the number that was
written: whole numbers of 64 bits are read back (`Roundtable.Json.Number.reread_whole`), but
a binary number can come back as one of its neighbours.
-/

namespace Roundtable

namespace Json

open Numeral

/-! ### Rows of digits -/

/-- No number goes on here. -/
def Delimited (rest : List Char) : Prop :=
  ∀ c ∈ rest.head?, isDigit c = false ∧ c ≠ '.' ∧ c ≠ 'e' ∧ c ≠ 'E'

theorem Delimited.noDigit {rest : List Char} (h : Delimited rest) : NoDigit rest :=
  fun c hc => (h c hc).1

variable {ds rest : List Char}

/-- **The digits that fit are taken**, and of the others the first would not have fitted. -/
theorem exists_takeFitting (hd : ds.all isDigit = true) {v : Nat} (hv : v < wholeLimit) :
    ∃ taken long, ds = taken ++ long ∧ Numeral.valueFrom v taken < wholeLimit ∧
      (long ≠ [] → wholeLimit ≤ Numeral.valueFrom v ds) ∧
      ∀ k rest, NoDigit rest → takeFitting v k (ds ++ rest) =
        (Numeral.valueFrom v taken, k + taken.length, long ++ rest) := by
  -- By induction on the digits, with what was taken so far: only the first one that does
  -- not fit ends the taking.
  induction ds generalizing v with
  | nil =>
    refine ⟨[], [], rfl, hv, fun h => absurd rfl h, fun k rest hr => ?_⟩
    cases rest with
    | nil => rfl
    | cons c rest => simp [takeFitting, noDigit_cons.mp hr, Numeral.valueFrom]
  | cons c ds ih =>
    rw [List.all_cons, Bool.and_eq_true] at hd
    by_cases hfit : v * 10 + digitValue c < wholeLimit
    · obtain ⟨taken, long, hds, hlt, hlong, htake⟩ := ih hd.2 hfit
      refine ⟨c :: taken, long, by rw [hds]; rfl, hlt, hlong, fun k rest hr => ?_⟩
      rw [List.cons_append, takeFitting, if_pos hd.1]
      simp only [if_pos hfit, htake (k + 1) rest hr, List.length_cons]
      rw [Nat.add_right_comm, Nat.add_assoc]
      rfl
    · refine ⟨[], c :: ds, rfl, hv, fun _ => ?_, fun k rest _ => ?_⟩
      · exact Nat.le_trans (Nat.le_of_not_lt hfit) (le_valueFrom _ ds)
      · simp [takeFitting, hd.1, hfit, Numeral.valueFrom]

/-! ### What a number looks like -/

/-- A power of ten, or nothing. -/
inductive IsScale : List Char → Prop
  | none : IsScale []
  | power {sign : Char} {ds : List Char} (hs : sign = '+' ∨ sign = '-')
      (hd : ds.all isDigit = true) (hne : ds ≠ []) : IsScale ('e' :: sign :: ds)

/-- What stands behind the whole part of a number. -/
inductive IsTail : List Char → Prop
  | scale {s : List Char} (hs : IsScale s) : IsTail s
  | point (ds : List Char) {s : List Char} (hd : ds.all isDigit = true) (hne : ds ≠ [])
      (hs : IsScale s) : IsTail ('.' :: (ds ++ s))

/-- The text of a number without its sign. -/
inductive IsMagnitude : List Char → Prop
  | mk (ds : List Char) {tail : List Char} (hd : ds.all isDigit = true) (hne : ds ≠ [])
      (hzero : ds.head? = some '0' → ds = ['0']) (ht : IsTail tail) : IsMagnitude (ds ++ tail)

theorem IsTail.fraction (ds : List Char) (hd : ds.all isDigit = true) (hne : ds ≠ []) :
    IsTail ('.' :: ds) := by
  simpa using IsTail.point ds hd hne .none

theorem IsScale.noDigit {s : List Char} (h : IsScale s) (hr : NoDigit rest) :
    NoDigit (s ++ rest) := by
  cases h with
  | none => exact hr
  | power => exact noDigit_cons.mpr rfl

theorem IsTail.noDigit {s : List Char} (h : IsTail s) (hr : NoDigit rest) :
    NoDigit (s ++ rest) := by
  cases h with
  | scale hs => exact hs.noDigit hr
  | point => exact noDigit_cons.mpr rfl

/-! ### Reading -/

variable (negative : Bool)

/-- What a reader that has got to `text` makes of it does not depend on what delimits it. -/
def ReadAs (read : List Char → NumberRead) (text : List Char) : Prop :=
  ∃ v, ∀ rest, Delimited rest → read (text ++ rest) = .number v rest

theorem readAs_readExponent (significand : Nat) (start : Int) {sign : Char}
    (hs : sign = '+' ∨ sign = '-') (hd : ds.all isDigit = true) (hne : ds ≠ []) :
    ReadAs (readExponent negative significand start) (sign :: ds) := by
  have hempty : ds.isEmpty = false := by simpa using hne
  have hstart : ∀ rest, Delimited rest →
      readExponent negative significand start (sign :: ds ++ rest) =
        if Numeral.value ds < exponentLimit then
          .number (realOf negative significand (if sign = '-' then start - Numeral.value ds
            else start + Numeral.value ds)) rest
        else if significand = 0 || sign = '-' then
          .number (some (.real (if negative then Binary64.zero.neg else Binary64.zero))) rest
        else .number none rest := by
    intro rest hr
    rcases hs with rfl | rfl
    all_goals
      simp only [List.cons_append, readExponent, takeWhile_digits hd hr.noDigit,
        dropWhile_digits hd hr.noDigit, hempty, Bool.false_eq_true, if_false]
      rfl
  refine ⟨if Numeral.value ds < exponentLimit then
      realOf negative significand (if sign = '-' then start - Numeral.value ds
        else start + Numeral.value ds)
    else if significand = 0 || sign = '-' then
      some (.real (if negative then Binary64.zero.neg else Binary64.zero))
    else none, fun rest hr => ?_⟩
  rw [hstart rest hr]
  split
  · rfl
  · split <;> rfl

theorem readAs_readScale (significand : Nat) (start : Int) {s : List Char} (hs : IsScale s) :
    ReadAs (readScale negative significand start) s := by
  cases hs with
  | none =>
    refine ⟨realOf negative significand start, fun rest hr => ?_⟩
    rw [List.nil_append]
    unfold readScale
    split
    · exact absurd rfl (hr 'e' rfl).2.2.1
    · exact absurd rfl (hr 'E' rfl).2.2.2
    · rfl
  | power hsign hd hne => exact readAs_readExponent negative significand start hsign hd hne

theorem readAs_readFraction {significand : Nat} (hlt : significand < wholeLimit) (exponent : Int)
    {s : List Char} (hd : ds.all isDigit = true) (hne : ds ≠ []) (hs : IsScale s) :
    ReadAs (readFraction negative significand exponent) (ds ++ s) := by
  obtain ⟨taken, long, hds, -, -, htake⟩ := exists_takeFitting hd hlt
  have hlong : long.all isDigit = true := by
    rw [hds, List.all_append, Bool.and_eq_true] at hd
    exact hd.2
  obtain ⟨v, hv⟩ := readAs_readScale negative (Numeral.valueFrom significand taken)
    (exponent - taken.length) hs
  refine ⟨v, fun rest hr => ?_⟩
  have hno : NoDigit (s ++ rest) := hs.noDigit hr.noDigit
  simp only [readFraction, List.append_assoc, htake 0 _ hno, Nat.zero_add]
  rw [if_neg, dropWhile_digits hlong hno, hv rest hr]
  -- Either a digit was taken, or the first one stands where it stood.
  cases taken with
  | cons c taken => simp
  | nil =>
    cases long with
    | nil => exact absurd hds hne
    | cons c long =>
      rw [List.all_cons, Bool.and_eq_true] at hlong
      simp [hlong.1]

/-- Reads on behind the whole part of a number, of which `taken` was the significand and
`long` did not fit. -/
def readTail (taken long : List Char) (s : List Char) : NumberRead :=
  match s with
  | '.' :: q => readFraction negative (Numeral.value taken) long.length q
  | 'e' :: q | 'E' :: q => readExponent negative (Numeral.value taken) long.length q
  | q =>
    if long.isEmpty then .number (wholeOf negative (Numeral.value taken)) q
    else .number (realOf negative (Numeral.value taken) long.length) q

/-- **All readers do the same with the whole part** of a number. -/
theorem exists_readNumber (hd : ds.all isDigit = true) (hne : ds ≠ [])
    (hzero : ds.head? = some '0' → ds = ['0']) :
    ∃ taken long, ds = taken ++ long ∧ Numeral.value taken < wholeLimit ∧
      (long ≠ [] → wholeLimit ≤ Numeral.value ds) ∧
      ∀ s, NoDigit s → readNumber negative (ds ++ s) = readTail negative taken long s := by
  obtain ⟨taken, long, hds, hlt, hlong, htake⟩ :=
    exists_takeFitting hd (show 0 < wholeLimit by decide)
  refine ⟨taken, long, hds, hlt, hlong, fun s hs => ?_⟩
  have hall : long.all isDigit = true := by
    rw [hds, List.all_append, Bool.and_eq_true] at hd
    exact hd.2
  have htake := htake 0 s hs
  cases ds with
  | nil => exact absurd rfl hne
  | cons c r =>
    have hc : isDigit c = true := by
      rw [List.all_cons, Bool.and_eq_true] at hd
      exact hd.1
    -- A zero in front of other digits would be refused, but such a zero stands alone.
    have hlead : ¬(c = '0' && ((r ++ s).head?.elim false isDigit)) = true := by
      rw [Bool.and_eq_true, decide_eq_true_eq]
      rintro ⟨rfl, hhead⟩
      obtain ⟨-, rfl⟩ := List.cons_eq_cons.mp (hzero rfl)
      rw [List.nil_append] at hhead
      cases hq : s.head? with
      | none => simp [hq] at hhead
      | some q => simp [hq, hs q hq] at hhead
    rw [List.cons_append] at htake ⊢
    unfold readNumber
    simp only [hc, Bool.not_true, Bool.false_eq_true, if_false, if_neg hlead, htake,
      takeWhile_digits hall hs, dropWhile_digits hall hs]
    rfl

/-- Behind a number that has no tail nothing more is read. -/
theorem readTail_delimited (taken long : List Char) (hr : Delimited rest) :
    readTail negative taken long rest = .number
      (if long.isEmpty then wholeOf negative (Numeral.value taken)
        else realOf negative (Numeral.value taken) long.length) rest := by
  unfold readTail
  split
  · exact absurd rfl (hr '.' rfl).2.1
  · exact absurd rfl (hr 'e' rfl).2.2.1
  · exact absurd rfl (hr 'E' rfl).2.2.2
  · split <;> rfl

theorem readAs_readTail {taken : List Char} (hlt : Numeral.value taken < wholeLimit)
    (long : List Char) {s : List Char} (hs : IsTail s) :
    ReadAs (readTail negative taken long) s := by
  cases hs with
  | point ds hd hne hs => exact readAs_readFraction negative hlt long.length hd hne hs
  | scale hs =>
    cases hs with
    | none => exact ⟨_, fun rest hr => readTail_delimited negative taken long hr⟩
    | power hsign hd hne =>
      exact readAs_readExponent negative (Numeral.value taken) long.length hsign hd hne

/-- **A number is read up to where it ends.** -/
theorem readAs_readNumber {cs : List Char} (h : IsMagnitude cs) :
    ReadAs (readNumber negative) cs := by
  obtain ⟨ds, hd, hne, hzero, ht⟩ := h
  obtain ⟨taken, long, -, hlt, -, hread⟩ := exists_readNumber negative hd hne hzero
  obtain ⟨v, hv⟩ := readAs_readTail negative hlt long ht
  refine ⟨v, fun rest hr => ?_⟩
  rw [List.append_assoc, hread _ (ht.noDigit hr.noDigit), hv rest hr]

end Json

/-! ### Shortest digits -/

namespace Shortest

/-- The interval of a number that is not zero lies above zero. -/
theorem low_pos {x : Binary64} (h : x.isZero = false) : 0 < (Interval.of x).low := by
  have hm : x.mantissa ≠ 0 := by simpa [Binary64.isZero] using h
  simp only [Interval.of]
  refine Nat.mul_pos ?_ ?_
  · split <;> omega
  · split
    · exact Nat.one_pos
    · exact Nat.two_pow_pos _

/-- Zero does not round to a number that is not zero. -/
theorem holds_zero {i : Interval} (h : 0 < i.low) {den : Nat} (hd : 0 < den) :
    i.holds 0 den = false := by
  have hpos : 0 < i.low * den := Nat.mul_pos h hd
  simp only [Interval.holds, Nat.zero_mul]
  split
  · rw [Bool.and_eq_false_iff, decide_eq_false_iff_not]
    exact .inl (by omega)
  · rw [Bool.and_eq_false_iff, decide_eq_false_iff_not]
    exact .inl (by omega)

theorem point_zero (place : Int) : ∃ den, 0 < den ∧ point 0 place = (0, den) := by
  unfold point
  split
  · exact ⟨_, Nat.pow_pos (by omega), rfl⟩
  · exact ⟨1, Nat.one_pos, by rw [Nat.zero_mul]⟩

theorem onGrid_ne_zero {i : Interval} {place : Int} {ds : Nat} (hi : 0 < i.low)
    (h : onGrid i place = some ds) : ds ≠ 0 := by
  unfold onGrid at h
  dsimp only at h
  generalize (if place < 0 then (i.value * 10 ^ (-place).toNat, i.unit)
    else (i.value, i.unit * 10 ^ place.toNat)) = r at h
  obtain ⟨n, d⟩ := r
  dsimp only at h
  obtain ⟨den, hden, hpoint⟩ := point_zero place
  have hzero : i.holds (point 0 place).1 (point 0 place).2 = false := by
    rw [hpoint]
    exact holds_zero hi hden
  rintro rfl
  split at h
  · next hlow _ =>
    split at h
    · rw [Option.some.inj h, hzero] at hlow
      cases hlow
    · simp at h
  · next hlow _ =>
    rw [Option.some.inj h, hzero] at hlow
    cases hlow
  · simp at h
  · cases h

theorem firstGrid_ne_zero {i : Interval} (hi : 0 < i.low) (top : Int) (steps n : Nat) :
    (firstGrid i top steps n).1 ≠ 0 ∨ firstGrid i top steps n = (0, 0) := by
  induction steps generalizing n with
  | zero => exact .inr rfl
  | succ s ih =>
    rw [firstGrid]
    split
    · next hgrid => exact .inl (onGrid_ne_zero hi hgrid)
    · exact ih (n + 1)

theorem stripZeros_ne_zero {ds : Nat} (h : ds ≠ 0) (steps : Nat) (place : Int) :
    (stripZeros steps ds place).1 ≠ 0 := by
  induction steps generalizing ds place with
  | zero => exact h
  | succ s ih =>
    rw [stripZeros]
    split
    · exact ih (by omega) (place + 1)
    · exact h

/-- **A number that is not zero has digits that are not**, or none were found. -/
theorem digits_ne_zero {x : Binary64} (h : x.isZero = false) :
    (digits x).1 ≠ 0 ∨ digits x = (0, 0) := by
  unfold digits
  dsimp only
  rcases firstGrid_ne_zero (low_pos h)
    (leadingPlace (Interval.of x).value (Interval.of x).unit 700
      (placeBound (Interval.of x).value (Interval.of x).unit)) 17 1 with hne | hzero
  · exact .inl (stripZeros_ne_zero hne 17 _)
  · rw [hzero]
    exact .inr rfl

theorem isScale_signed (power : Int) : Json.IsScale ('e' :: signed power) := by
  unfold signed
  split
  · exact .power (.inr rfl) (Numeral.all_isDigit_ofNat _) (Numeral.ofNat_ne_nil _)
  · exact .power (.inl rfl) (Numeral.all_isDigit_ofNat _) (Numeral.ofNat_ne_nil _)

theorem all_isDigit_zeros (k : Nat) : (List.replicate k '0').all isDigit = true :=
  List.all_eq_true.mpr fun c hc => by rw [List.eq_of_mem_replicate hc]; rfl

/-- The digits of a number do not start with a zero, unless they are one. -/
theorem eq_of_head?_ofNat {n : Nat} (h : (Numeral.ofNat n).head? = some '0') : n = 0 := by
  rcases Nat.eq_zero_or_pos n with hn | hn
  · exact hn
  · obtain ⟨c, hc, hne, -⟩ := Numeral.head?_ofNat (Nat.ne_of_gt hn)
    rw [hc] at h
    exact absurd (Option.some.inj h) hne

/-- The point stands behind all digits. -/
theorem isMagnitude_whole {n k : Nat} (h : n = 0 → k = 0) :
    Json.IsMagnitude (Numeral.ofNat n ++ List.replicate k '0' ++ ['.', '0']) := by
  have hne := Numeral.ofNat_ne_nil n
  refine .mk _ ?_ (by simp [hne]) ?_ (.fraction ['0'] rfl (by simp))
  · rw [List.all_append, Numeral.all_isDigit_ofNat, all_isDigit_zeros]
    rfl
  · intro hhead
    obtain ⟨c, r, hcons⟩ := List.exists_cons_of_ne_nil hne
    have hn : n = 0 := by
      refine eq_of_head?_ofNat ?_
      rw [hcons] at hhead ⊢
      exact hhead
    rw [h hn, hn]
    rfl

/-- The point stands among the digits. -/
theorem isMagnitude_cut {n k : Nat} (hn : n ≠ 0) (hk : k ≠ 0)
    (hlt : k < (Numeral.ofNat n).length) :
    Json.IsMagnitude ((Numeral.ofNat n).take k ++ ['.'] ++ (Numeral.ofNat n).drop k) := by
  have hall := List.all_eq_true.mp (Numeral.all_isDigit_ofNat n)
  rw [List.append_assoc]
  refine .mk _ ?_ ?_ ?_ (.fraction ((Numeral.ofNat n).drop k) ?_ ?_)
  · exact List.all_eq_true.mpr fun c hc => hall c (List.mem_of_mem_take hc)
  · simp [hk, Numeral.ofNat_ne_nil]
  · intro hhead
    rw [List.head?_take, if_neg hk] at hhead
    exact absurd (eq_of_head?_ofNat hhead) hn
  · exact List.all_eq_true.mpr fun c hc => hall c (List.mem_of_mem_drop hc)
  · rw [Ne, List.drop_eq_nil_iff]
    omega

/-- The point stands in front of all digits. -/
theorem isMagnitude_fraction (n k : Nat) :
    Json.IsMagnitude (['0', '.'] ++ List.replicate k '0' ++ Numeral.ofNat n) := by
  rw [List.append_assoc]
  refine .mk ['0'] rfl (by simp) (fun _ => rfl)
    (.fraction (List.replicate k '0' ++ Numeral.ofNat n) ?_ (by simp [Numeral.ofNat_ne_nil]))
  rw [List.all_append, all_isDigit_zeros, Numeral.all_isDigit_ofNat]
  rfl

/-- The point stands behind the first digit, and there is a power of ten. -/
theorem isMagnitude_scaled {d : Char} {r : List Char} (hall : (d :: r).all isDigit = true)
    (hr : r ≠ []) (power : Int) :
    Json.IsMagnitude ([d, '.'] ++ r ++ ['e'] ++ signed power) := by
  rw [List.all_cons, Bool.and_eq_true] at hall
  simp only [List.append_assoc]
  exact .mk [d] (by simp [hall.1]) (by simp) (by simp) (.point r hall.2 hr (isScale_signed _))

/-- **The text of a number is its sign and a magnitude.** -/
theorem exists_text (x : Binary64) :
    ∃ body, text x = (if x.negative then ['-'] else []) ++ body ∧ Json.IsMagnitude body := by
  unfold text
  dsimp only
  split
  · exact ⟨['0', '.', '0'], rfl, .mk ['0'] rfl (by simp) (fun _ => rfl)
      (.fraction ['0'] rfl (by simp))⟩
  · next hzero =>
    refine ⟨_, rfl, ?_⟩
    -- Digits that are zero are no digits that were found: they have the place zero.
    have hplace : (digits x).1 = 0 → (digits x).2 = 0 := by
      intro h
      rcases digits_ne_zero (Bool.eq_false_iff.mpr hzero) with hne | hnone
      · exact absurd h hne
      · rw [hnone]
    generalize (digits x).1 = n at hplace ⊢
    generalize (digits x).2 = place at hplace ⊢
    have hall := Numeral.all_isDigit_ofNat n
    split
    · split
      · exact isMagnitude_whole fun h => by rw [hplace h]; rfl
      · next hneg =>
        have hn : n ≠ 0 := fun h => hneg (Int.le_of_eq (hplace h).symm)
        split
        · exact isMagnitude_cut hn (by omega) (by omega)
        · exact isMagnitude_fraction n _
    · split
      · next d hd =>
        rw [hd] at hall
        exact .mk [d] hall (by simp) (by simp) (.scale (isScale_signed _))
      · next d r hr hd =>
        rw [hd] at hall
        exact isMagnitude_scaled hall hr _
      · next hd => exact absurd hd (Numeral.ofNat_ne_nil n)

end Shortest

namespace Json

/-! ### What is written -/

/-- The digits of a number start with a zero only if they are one. -/
theorem ofNat_of_head? {n : Nat} (h : (Numeral.ofNat n).head? = some '0') :
    Numeral.ofNat n = ['0'] := by
  rw [Shortest.eq_of_head?_ofNat h]
  rfl

theorem isMagnitude_ofNat (n : Nat) : IsMagnitude (Numeral.ofNat n) := by
  have h : IsMagnitude (Numeral.ofNat n ++ []) :=
    .mk _ (Numeral.all_isDigit_ofNat n) (Numeral.ofNat_ne_nil n) ofNat_of_head? (.scale .none)
  rwa [List.append_nil] at h

namespace Number

/-- A number is written with or without a sign. -/
theorem exists_print (n : Number) :
    ∃ (negative : Bool) (body : List Char),
      n.print = (if negative then ['-'] else []) ++ body ∧ IsMagnitude body := by
  unfold print
  split
  · exact ⟨false, _, rfl, isMagnitude_ofNat _⟩
  · exact ⟨true, _, rfl, isMagnitude_ofNat _⟩
  · next x =>
    obtain ⟨body, hbody, hshape⟩ := Shortest.exists_text x
    exact ⟨x.negative, body, hbody, hshape⟩

/-- Reads a number with its sign. -/
def read (s : List Char) : NumberRead :=
  match s with
  | '-' :: r => readNumber true r
  | r => readNumber false r

/-- **What a reader takes a written number for**; nothing when it is out of range. -/
def reread (n : Number) : Option Number :=
  match read n.print with
  | .number v _ => v
  | .broken _ => none

/-- A magnitude starts with a digit. -/
theorem exists_cons_of_isMagnitude {cs : List Char} (h : IsMagnitude cs) :
    ∃ c r, cs = c :: r ∧ isDigit c = true := by
  obtain ⟨ds, hd, hne, -, -⟩ := h
  obtain ⟨c, r, rfl⟩ := List.exists_cons_of_ne_nil hne
  rw [List.all_cons, Bool.and_eq_true] at hd
  exact ⟨c, _, rfl, hd.1⟩

theorem read_of_isDigit {c : Char} (h : isDigit c = true) (r : List Char) :
    read (c :: r) = readNumber false (c :: r) := by
  unfold read
  split
  · next heq =>
    obtain ⟨rfl, -⟩ := List.cons_eq_cons.mp heq
    cases h
  · rfl

/-- **A written number is read up to where it ends.** -/
theorem read_print (n : Number) {rest : List Char} (hr : Delimited rest) :
    read (n.print ++ rest) = .number n.reread rest := by
  have hread : ReadAs read n.print := by
    obtain ⟨negative, body, hprint, hshape⟩ := exists_print n
    obtain ⟨v, hv⟩ := readAs_readNumber negative hshape
    rw [hprint]
    refine ⟨v, fun rest hr => ?_⟩
    cases negative with
    | true => exact hv rest hr
    | false =>
      obtain ⟨c, r, rfl, hc⟩ := exists_cons_of_isMagnitude hshape
      exact (read_of_isDigit hc _).trans (hv rest hr)
  obtain ⟨v, hv⟩ := hread
  have hnil := hv [] (fun c hc => by cases hc)
  rw [List.append_nil] at hnil
  rw [hv rest hr, reread, hnil]

/-- **Whole numbers of 64 bits are read back**, and larger ones are whole numbers no more. -/
theorem reread_whole (n : Nat) :
    (n < wholeLimit → reread (.whole n) = some (.whole n)) ∧
      ∀ m : Int, reread (.whole n) = some (.whole m) → m = n := by
  obtain ⟨taken, long, hds, -, hlong, hread⟩ := exists_readNumber false
    (Numeral.all_isDigit_ofNat n) (Numeral.ofNat_ne_nil n) ofNat_of_head?
  obtain ⟨c, r, hcons, hc⟩ := exists_cons_of_isMagnitude (isMagnitude_ofNat n)
  -- Nothing stands behind the number, so what decides is whether all its digits were taken.
  have hnil := hread [] (fun c hc => by cases hc)
  rw [readTail_delimited false taken long (fun c hc => by cases hc), List.append_nil, hcons,
    ← read_of_isDigit hc, ← hcons] at hnil
  have hreread : reread (.whole n) =
      if long.isEmpty then wholeOf false (Numeral.value taken)
      else realOf false (Numeral.value taken) long.length := by
    rw [reread, show print (.whole n) = Numeral.ofNat n from rfl, hnil]
  rw [hreread]
  cases long with
  | nil =>
    have hvalue : Numeral.value taken = n := by
      rw [List.append_nil] at hds
      rw [← hds, Numeral.value_ofNat]
    rw [List.isEmpty_nil, if_pos rfl, hvalue]
    refine ⟨fun _ => rfl, fun m hm => ?_⟩
    injection hm with hm
    injection hm with hm
    exact hm.symm
  | cons c long =>
    rw [Numeral.value_ofNat] at hlong
    rw [List.isEmpty_cons, if_neg Bool.false_ne_true]
    refine ⟨fun hlt => absurd hlt (Nat.not_lt.mpr (hlong (List.cons_ne_nil c long))), ?_⟩
    intro m hm
    obtain ⟨x, -, hx⟩ := Option.map_eq_some_iff.mp hm
    cases hx

/-- Digits that fit in 64 bits are read as a whole number. -/
theorem readNumber_ofNat (negative : Bool) {n : Nat} (h : n < wholeLimit) :
    readNumber negative (Numeral.ofNat n) = .number (wholeOf negative n) [] := by
  obtain ⟨taken, long, hds, -, hlong, hread⟩ := exists_readNumber negative
    (Numeral.all_isDigit_ofNat n) (Numeral.ofNat_ne_nil n) ofNat_of_head?
  have hnil := hread [] (fun c hc => by cases hc)
  rw [readTail_delimited negative taken long (fun c hc => by cases hc), List.append_nil] at hnil
  cases long with
  | nil =>
    rw [List.append_nil] at hds
    rw [hnil, ← hds, Numeral.value_ofNat, List.isEmpty_nil, if_pos rfl]
  | cons c long =>
    rw [Numeral.value_ofNat] at hlong
    exact absurd h (Nat.not_lt.mpr (hlong (List.cons_ne_nil c long)))

/-- **Whole numbers of 64 bits are read back**, with a sign or without. -/
theorem reread_of_fits {m : Int} (hlow : -(2 ^ 63 : Nat) ≤ m) (hhigh : m < (2 ^ 64 : Nat)) :
    reread (.whole m) = some (.whole m) := by
  have hlimit : wholeLimit = 2 ^ 64 := rfl
  cases m with
  | ofNat n =>
    have hn : n < wholeLimit := by
      rw [Int.ofNat_eq_natCast] at hhigh
      omega
    obtain ⟨c, r, hcons, hc⟩ := exists_cons_of_isMagnitude (isMagnitude_ofNat n)
    have hread := readNumber_ofNat false hn
    rw [hcons, ← read_of_isDigit hc, ← hcons] at hread
    rw [reread, show print (.whole (.ofNat n)) = Numeral.ofNat n from rfl, hread]
    rfl
  | negSucc n =>
    have hread := readNumber_ofNat true (n := n + 1) (by omega)
    have hsmall : (n + 1 = 0 || 2 ^ 63 < n + 1) = false := by
      simp only [Bool.or_eq_false_iff, decide_eq_false_iff_not]
      omega
    rw [reread, show print (.whole (.negSucc n)) = '-' :: Numeral.ofNat (n + 1) from rfl, read,
      hread]
    simp only [wholeOf, hsmall, Bool.false_eq_true, if_false, if_true]
    rfl

end Number

end Json

end Roundtable
