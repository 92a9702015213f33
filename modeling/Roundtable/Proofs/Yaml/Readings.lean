import Mathlib.Data.List.Forall2
import Roundtable.Proofs.Lists
import Roundtable.Yaml.Decoder
import Roundtable.Yaml.Printer

/-!
# What a document says

A document says a value if its scalars, read one by one, are the texts and numbers of the
value and its mappings have the fields of the value, in any order and no others
(`Roundtable.Yaml.Value.saidBy`). A text counts only where it cannot be taken for
something else, and a number where it is written as one. Nothing here depends on what the
value is read into.

**A decoder reads a value as something** (`Roundtable.Yaml.Reads`) if it does so from every
document that says the value. Each of the decoders for scalars and for mappings of texts
has its lemma; those of records follow from them.
-/

namespace Roundtable.Yaml

/-! ### Values in documents -/

section Saying

variable (d : Document)

/-- The node is the text `s`, and nothing but a text. -/
def textSaidBy (s : String) (v : Node) : Bool :=
  match v.resolve? d with
  | some (.scalar t style none) => t == s && (style != .plain || !isAmbiguous s)
  | _ => false

/-- The node is the number `n`, written plainly. -/
def numberSaidBy (n : Nat) (v : Node) : Bool :=
  match v.resolve? d with
  | some (.scalar t .plain none) => wholeBelow? (n + 1) t == some n
  | _ => false

/-- The value of the first field of a name, and the other fields. -/
def takeField (name : String) : List (Node × Node) → Option (Node × List (Node × Node))
  | [] => none
  | (k, v) :: r =>
    if textSaidBy d name k then some (v, r)
    else (takeField name r).map fun (u, others) => (u, (k, v) :: others)

mutual

/-- **The node says the value.** -/
def Value.saidBy : Value → Node → Bool
  | .text s, v => textSaidBy d s v
  | .number n, v => numberSaidBy d n v
  | .mapping fields, v =>
    match v.resolve? d with
    | some (.mapping kvs none) => Value.allSaidBy fields kvs
    | _ => false

/-- The fields of a mapping say these fields in some order, and no others. -/
def Value.allSaidBy : List (String × Value) → List (Node × Node) → Bool
  | [], kvs => kvs.isEmpty
  | (name, value) :: r, kvs =>
    match takeField d name kvs with
    | some (v, others) => value.saidBy v && Value.allSaidBy r others
    | none => false

end

end Saying

/-- **The text holds one document, and it says a mapping of these fields.** -/
def declares (text : String) (fields : List (String × Value)) : Bool :=
  (Document.ofText? text).any fun d => (Value.mapping fields).saidBy d d.root

/-- **YAML carries these fields**: the text that is printed for them says them. -/
def carries (fields : List (String × Value)) : Bool := declares (page fields) fields

variable {d : Document} {v : Node} {s name : String} {n limit : Nat}

theorem resolve?_of_textSaidBy (h : textSaidBy d s v = true) :
    ∃ style, v.resolve? d = some (.scalar s style none) ∧
      (style = .plain → isAmbiguous s = false) := by
  unfold textSaidBy at h
  split at h
  · next t style heq =>
    rw [Bool.and_eq_true, beq_iff_eq] at h
    obtain ⟨rfl, hstyle⟩ := h
    refine ⟨style, heq, fun hplain => ?_⟩
    simpa [hplain] using hstyle
  · exact absurd h Bool.false_ne_true

theorem resolve?_of_numberSaidBy (h : numberSaidBy d n v = true) :
    ∃ t, v.resolve? d = some (.scalar t .plain none) ∧ wholeBelow? (n + 1) t = some n := by
  unfold numberSaidBy at h
  split at h
  · next t heq => exact ⟨t, heq, by simpa using h⟩
  · exact absurd h Bool.false_ne_true

theorem perm_of_takeField {kvs others : List (Node × Node)}
    (h : takeField d name kvs = some (v, others)) :
    ∃ k, textSaidBy d name k = true ∧ kvs.Perm ((k, v) :: others) := by
  induction kvs generalizing others with
  | nil => cases h
  | cons kv r ih =>
    obtain ⟨k, u⟩ := kv
    rw [takeField] at h
    split at h
    · next hk =>
      obtain ⟨rfl, rfl⟩ := Prod.mk.inj (Option.some.inj h)
      exact ⟨k, hk, .refl _⟩
    · obtain ⟨⟨w, others'⟩, htake, heq⟩ := Option.map_eq_some_iff.mp h
      obtain ⟨rfl, rfl⟩ := Prod.mk.inj heq
      obtain ⟨k', hk', hperm⟩ := ih htake
      exact ⟨k', hk', (hperm.cons _).trans (.swap _ _ _)⟩

/-- A field of a value, and the field of a mapping that says it. -/
def SaidField (d : Document) (field : String × Value) (kv : Node × Node) : Prop :=
  textSaidBy d field.1 kv.1 = true ∧ field.2.saidBy d kv.2 = true

/-- **Fields that are said stand in the mapping in some order.** -/
theorem exists_perm_of_allSaidBy {fields : List (String × Value)} {kvs : List (Node × Node)}
    (h : Value.allSaidBy d fields kvs = true) :
    ∃ kvs', kvs.Perm kvs' ∧ List.Forall₂ (SaidField d) fields kvs' := by
  induction fields generalizing kvs with
  | nil =>
    obtain rfl : kvs = [] := by simpa [Value.allSaidBy] using h
    exact ⟨[], .refl _, .nil⟩
  | cons field fields ih =>
    obtain ⟨name, value⟩ := field
    rw [Value.allSaidBy] at h
    split at h
    · next v others htake =>
      rw [Bool.and_eq_true] at h
      obtain ⟨k, hk, hperm⟩ := perm_of_takeField htake
      obtain ⟨kvs', hperm', hall⟩ := ih h.2
      exact ⟨(k, v) :: kvs', hperm.trans (hperm'.cons _), .cons ⟨hk, h.1⟩ hall⟩
    · exact absurd h Bool.false_ne_true

theorem exists_of_saidBy_mapping {fields : List (String × Value)}
    (h : (Value.mapping fields).saidBy d v = true) :
    ∃ kvs kvs', v.resolve? d = some (.mapping kvs none) ∧ kvs.Perm kvs' ∧
      List.Forall₂ (SaidField d) fields kvs' := by
  rw [Value.saidBy] at h
  split at h
  · next kvs heq =>
    obtain ⟨kvs', hperm, hall⟩ := exists_perm_of_allSaidBy h
    exact ⟨kvs, kvs', heq, hperm, hall⟩
  · exact absurd h Bool.false_ne_true

/-! ### Numbers -/

theorem bind_below_eq_some {x : Option Nat} :
    (x.bind fun k => if k < limit then some k else none) = some n ↔ x = some n ∧ n < limit := by
  cases x with
  | none => simp
  | some k =>
    rw [Option.bind_some, Option.some.injEq]
    constructor
    · intro h
      split at h
      · next hk => exact ⟨Option.some.inj h, Option.some.inj h ▸ hk⟩
      · cases h
    · rintro ⟨rfl, hk⟩
      rw [if_pos hk]

/-- What announces a base is no number in base ten. -/
theorem inBase?_of_announced {cs ds : List Char} {base : Nat}
    (h : announcedBase? cs = some (base, ds)) : inBase? 10 cs = none := by
  unfold announcedBase? at h
  split at h
  · rfl
  · rfl
  · rfl
  · cases h

/-- A number below a limit is announced, or written in base ten. -/
theorem magnitude?_eq_some {cs body : List Char} : magnitude? limit cs body = some n ↔
    n < limit ∧ (((announcedBase? body).bind fun (base, ds) => inBase? base ds) = some n ∨
      (startsSigned body || hasIdleZero cs) = false ∧ inBase? 10 body = some n) := by
  unfold magnitude?
  cases hbase : announcedBase? body with
  | none =>
    simp only [Option.bind_none, reduceCtorEq, false_or]
    split
    · next hsigned => simp [hsigned]
    · next hsigned =>
      rw [bind_below_eq_some, Bool.not_eq_true] at *
      simp [hsigned, and_comm]
  | some p =>
    obtain ⟨base, ds⟩ := p
    simp only [Option.bind_some, inBase?_of_announced hbase, Option.bind_none, ite_self,
      reduceCtorEq, and_false, or_false]
    rw [and_comm, ← bind_below_eq_some]
    cases (inBase? base ds).bind fun k => if k < limit then some k else none with
    | none => rfl
    | some k => rfl

theorem magnitude?_of_lt {limit' : Nat} {cs body : List Char}
    (h : magnitude? limit cs body = some n) (hn : n < limit') :
    magnitude? limit' cs body = some n :=
  magnitude?_eq_some.mpr ⟨hn, (magnitude?_eq_some.mp h).2⟩

/-- A number is read the same under every limit above it. -/
theorem wholeBelow?_of_lt (h : wholeBelow? (n + 1) s = some n) (hn : n < limit) :
    wholeBelow? limit s = some n := by
  unfold wholeBelow? at h ⊢
  split at h
  · exact magnitude?_of_lt h hn
  · have hzero := (magnitude?_eq_some.mp h).1
    exact magnitude?_of_lt h (by omega)
  · exact magnitude?_of_lt h hn

theorem wholeBelow?_lt (h : wholeBelow? limit s = some n) : n < limit := by
  unfold wholeBelow? at h
  split at h
  · exact (magnitude?_eq_some.mp h).1
  · have hmin := (magnitude?_eq_some.mp h).1
    omega
  · exact (magnitude?_eq_some.mp h).1

/-! ### Decoders -/

section Decoders

open Decoder

variable {α β : Type} {r : Decoder α} {value : Value} {a : α} {b : β}

/-- **From every node that says the value, the decoder takes `a`.** -/
def Reads (r : Decoder α) (value : Value) (a : α) : Prop :=
  ∀ d v, value.saidBy d v = true → r d v = some a

theorem Reads.congr {a' : α} (h : Reads r value a) (heq : a = a') : Reads r value a' := heq ▸ h

theorem decode?_of_declares {fields : List (String × Value)} {text : String}
    (h : Reads r (.mapping fields) a) (ht : declares text fields = true) :
    decode? r text = some a := by
  rw [declares, Option.any_eq_true] at ht
  obtain ⟨d, hd, hroot⟩ := ht
  rw [decode?, hd]
  exact h d d.root hroot

theorem text_of_textSaidBy (h : textSaidBy d s v = true) : text d v = some s := by
  obtain ⟨style, hv, -⟩ := resolve?_of_textSaidBy h
  simp [text, hv]

theorem reads_text (s : String) : Reads text (.text s) s :=
  fun _ _ h => text_of_textSaidBy h

theorem reads_natBelow (h : n < limit) : Reads (natBelow limit) (.number n) n := by
  intro d v hv
  obtain ⟨t, hres, hwhole⟩ := resolve?_of_numberSaidBy hv
  simpa [natBelow, hres] using wholeBelow?_of_lt hwhole h

theorem natBelow_lt (h : natBelow limit d v = some n) : n < limit := by
  obtain ⟨u, -, h⟩ := Option.bind_eq_some_iff.mp h
  split at h
  · exact wholeBelow?_lt h
  · split at h
    · exact wholeBelow?_lt h
    · cases h
  · cases h

theorem reads_check {f : α → Option β} (h : Reads r value a) (hf : f a = some b) :
    Reads (check r f) value b := by
  intro d v hv
  rw [check, h d v hv]
  exact hf

theorem reads_name {meaning : String → Option α} (h : meaning s = some a) :
    Reads (Decoder.name meaning) (.text s) a := by
  intro d v hv
  obtain ⟨style, hres, -⟩ := resolve?_of_textSaidBy hv
  simpa [Decoder.name, hres] using h

/-- Texts and mappings are not null. -/
theorem exists_of_saidBy (hvalue : ∀ n, value ≠ .number n) (h : value.saidBy d v = true) :
    ∃ u, v.resolve? d = some u ∧ isNull? u = some false ∧ value.saidBy d u = true := by
  cases value with
  | text s =>
    obtain ⟨style, hres, hstyle⟩ := resolve?_of_textSaidBy h
    have hsame : Node.resolve? d (.scalar s style none) = v.resolve? d := by rw [hres]; rfl
    refine ⟨_, hres, ?_, ?_⟩
    · cases style with
      | plain =>
        have hplain := hstyle rfl
        simp only [isAmbiguous, Bool.or_eq_false_iff] at hplain
        simp [isNull?, hplain]
      | _ => rfl
    · rw [Value.saidBy, textSaidBy, hsame, ← textSaidBy]
      exact h
  | number n => exact absurd rfl (hvalue n)
  | mapping fields =>
    obtain ⟨kvs, -, hres, -, -⟩ := exists_of_saidBy_mapping h
    have hsame : Node.resolve? d (.mapping kvs none) = v.resolve? d := by rw [hres]; rfl
    refine ⟨_, hres, rfl, ?_⟩
    rw [Value.saidBy, hsame]
    rw [Value.saidBy] at h
    exact h

/-- Where a value is said, an option holds what is taken from it. -/
theorem exists_option_eq (hvalue : ∀ n, value ≠ .number n) (h : value.saidBy d v = true) :
    ∃ u, value.saidBy d u = true ∧ option r d v = (r d u).map some := by
  obtain ⟨u, hres, hnull, hu⟩ := exists_of_saidBy hvalue h
  refine ⟨u, hu, ?_⟩
  cases hr : r d u <;> simp [option, hres, hnull, hr]

theorem reads_option (h : Reads r value a) (hvalue : ∀ n, value ≠ .number n) :
    Reads (option r) value (some a) := by
  intro d v hv
  obtain ⟨u, hu, heq⟩ := exists_option_eq hvalue hv
  rw [heq, h d u hu]
  rfl

theorem mapM_of_saidFields {l : List (String × String)} {kvs : List (Node × Node)}
    (h : List.Forall₂ (SaidField d) (l.map fun (k, s) => (k, .text s)) kvs) :
    kvs.mapM (fun (k, v) => do return (← text d k, ← text d v)) = some l := by
  induction l generalizing kvs with
  | nil =>
    cases h
    rfl
  | cons p l ih =>
    cases h with
    | @cons _ kv _ kvs hp hl =>
      have hkey : text d kv.1 = some p.1 := text_of_textSaidBy hp.1
      have hvalue : text d kv.2 = some p.2 := text_of_textSaidBy hp.2
      rw [List.mapM_cons, ih hl]
      simp [hkey, hvalue]

/-- A mapping of texts is taken in the order it is written in. -/
theorem exists_pairs_of_saidBy {l : List (String × String)}
    (h : (Value.mapping (l.map fun (k, s) => (k, .text s))).saidBy d v = true) :
    ∃ l', pairs text d v = some l' ∧ l'.Perm l := by
  obtain ⟨kvs, kvs', hres, hperm, hall⟩ := exists_of_saidBy_mapping h
  obtain ⟨l', hl', hperm'⟩ := exists_mapM_of_perm hperm (mapM_of_saidFields hall)
  refine ⟨l', ?_, hperm'⟩
  rw [pairs, hres]
  exact hl'

end Decoders

end Roundtable.Yaml
