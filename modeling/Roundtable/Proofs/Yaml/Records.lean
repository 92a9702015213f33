import Mathlib.Data.List.Pairwise
import Roundtable.Proofs.Lists
import Roundtable.Proofs.Yaml.Readings

/-!
# Records in a document

A record is read field by field, in the order of the document. **The order does not matter**
as long as the fields of the record set different parts of it
(`Roundtable.Yaml.Decoder.readFields_perm`), so that a record is what the fields that are
given make of the blank one, taken in the order of their declaration
(`Roundtable.Yaml.Decoder.reads_record`). Fields that are not given, where they may be missing,
leave the blank as it is.
-/

namespace Roundtable.Yaml

/-- The fields of a mapping that are given. -/
def present (fields : List (String × Option Value)) : List (String × Value) :=
  fields.filterMap fun (name, value) => value.map fun v => (name, v)

/-- A value, unless it is left out. -/
def unlessLeft (isLeft : Bool) (value : Value) : Option Value :=
  if isLeft then none else some value

namespace Decoder

variable {α β γ : Type} {fields fs : List (Field α)} {d : Document} {seen seen' : List String}
  {acc blank a : α} {kvs kvs' : List (Node × Node)}

theorem readFields_cons (fields : List (Field α)) (d : Document) (seen : List String) (acc : α)
    (k v : Node) (r : List (Node × Node)) :
    readFields fields d seen acc ((k, v) :: r) = (text d k).bind fun name =>
      match fields.find? (·.name == name) with
      | none => readFields fields d seen acc r
      | some f =>
        if seen.contains name then none
        else (f.read d v).bind fun change => readFields fields d (name :: seen) (change acc) r := by
  rw [readFields]
  rfl

/-! ### The order of the fields -/

/-- The two fields set different parts: it does not matter which comes first. -/
def Apart (f f' : Field α) : Prop :=
  ∀ d v v' change change', f.read d v = some change → f'.read d v' = some change' →
    ∀ a, change (change' a) = change' (change a)

instance : Std.Symm (@Apart α) where
  symm _ _ h d v v' change change' hread hread' a :=
    (h d v' v change' change hread' hread a).symm

theorem apart_of {name name' : String} {optional optional' : Bool} {r : Decoder β}
    {r' : Decoder γ} {set : β → α → α} {set' : γ → α → α}
    (h : ∀ x y a, set x (set' y a) = set' y (set x a)) :
    Apart ⟨name, optional, fun d v => (r d v).map set⟩
      ⟨name', optional', fun d v => (r' d v).map set'⟩ := by
  intro d v v' change change' hread hread' a
  obtain ⟨x, -, rfl⟩ := Option.map_eq_some_iff.mp hread
  obtain ⟨y, -, rfl⟩ := Option.map_eq_some_iff.mp hread'
  exact h x y a

/-- Of the names that stood in front only which they are matters. -/
theorem readFields_congr (h : ∀ name, name ∈ seen ↔ name ∈ seen') :
    readFields fields d seen acc kvs = readFields fields d seen' acc kvs := by
  induction kvs generalizing seen seen' acc with
  | nil =>
    have hcontains : ∀ name, seen.contains name = seen'.contains name := fun name => by
      rw [Bool.eq_iff_iff, List.contains_iff_mem, List.contains_iff_mem, h]
    simp only [readFields, hcontains]
  | cons kv r ih =>
    obtain ⟨k, v⟩ := kv
    rw [readFields_cons, readFields_cons]
    refine congrArg _ (funext fun name => ?_)
    have hname : seen.contains name = seen'.contains name := by
      rw [Bool.eq_iff_iff, List.contains_iff_mem, List.contains_iff_mem, h]
    have hmore : ∀ x, x ∈ name :: seen ↔ x ∈ name :: seen' := fun x => by
      rw [List.mem_cons, List.mem_cons, h]
    cases fields.find? (·.name == name) with
    | none => exact ih h
    | some f =>
      simp only [hname]
      split
      · rfl
      · exact congrArg _ (funext fun change => ih hmore)

/-- **The fields of a record**: their names differ, and they set different parts. -/
structure Distinct (fields : List (Field α)) : Prop where
  names : (fields.map (·.name)).Nodup
  apart : fields.Pairwise Apart

theorem Distinct.apart_of_ne (h : Distinct fields) {f f' : Field α} (hf : f ∈ fields)
    (hf' : f' ∈ fields) (hne : f.name ≠ f'.name) : Apart f f' :=
  h.apart.forall hf hf' fun heq => hne (congrArg Field.name heq)

/-- Two fields of a document, one in front of the other. -/
theorem readFields_swap (h : Distinct fields) (x y : Node × Node) :
    readFields fields d seen acc (y :: x :: kvs) =
      readFields fields d seen acc (x :: y :: kvs) := by
  obtain ⟨k, v⟩ := x
  obtain ⟨k', v'⟩ := y
  simp only [readFields_cons]
  cases text d k with
  | none =>
    cases text d k' with
    | none => rfl
    | some n' =>
      simp only [Option.bind_none, Option.bind_some]
      cases fields.find? (·.name == n') <;> simp
  | some n =>
  cases text d k' with
  | none =>
    simp only [Option.bind_none, Option.bind_some]
    cases fields.find? (·.name == n) <;> simp
  | some n' =>
  simp only [Option.bind_some]
  cases hf : fields.find? (·.name == n) with
  | none => rfl
  | some f =>
  cases hf' : fields.find? (·.name == n') with
  | none => rfl
  | some f' =>
  simp only
  by_cases hne : n = n'
  · -- A name that stands twice is refused, whichever comes first.
    subst hne
    simp
  · have hname : f.name = n := by simpa using List.find?_some hf
    have hname' : f'.name = n' := by simpa using List.find?_some hf'
    have hapart : Apart f f' := h.apart_of_ne (List.mem_of_find?_eq_some hf)
      (List.mem_of_find?_eq_some hf') (by rwa [hname, hname'])
    have hfront : (n' :: seen).contains n = seen.contains n := by simp [hne]
    have hfront' : (n :: seen).contains n' = seen.contains n' := by simp [Ne.symm hne]
    rw [hfront, hfront']
    rcases seen.contains n with _ | _ <;> rcases seen.contains n' with _ | _
    · rcases hread : f.read d v with _ | change <;> rcases hread' : f'.read d v' with _ | change'
      · rfl
      · rfl
      · rfl
      · simp only [Option.bind_some, Bool.false_eq_true, if_false]
        rw [hapart d v v' change change' hread hread']
        exact readFields_congr fun name => by simp only [List.mem_cons]; tauto
    · simp
    · simp
    · rfl

/-- **The order of the fields does not matter.** -/
theorem readFields_perm (h : Distinct fields) (hperm : kvs.Perm kvs') :
    readFields fields d seen acc kvs = readFields fields d seen acc kvs' := by
  induction hperm generalizing seen acc with
  | nil => rfl
  | cons x _ ih =>
    obtain ⟨k, v⟩ := x
    rw [readFields_cons, readFields_cons]
    refine congrArg _ (funext fun name => ?_)
    cases fields.find? (·.name == name) with
    | none => exact ih
    | some f => simp only [ih]
  | swap x y r => exact readFields_swap h x y
  | trans _ _ ih ih' => exact ih.trans ih'

/-! ### Fields that are given, and fields that are not -/

/-- **What the fields of a record make of it**, given these values: a value is read into the
record, and a field without one may be missing. -/
inductive Fills : List (Field α) → List (String × Option Value) → (α → α) → Prop
  | nil : Fills [] [] id
  | given {f : Field α} {fs : List (Field α)} {value : Value} {change rest : α → α}
      {values : List (String × Option Value)} :
      (∀ d v, value.saidBy d v = true → f.read d v = some change) → Fills fs values rest →
      Fills (f :: fs) ((f.name, some value) :: values) (rest ∘ change)
  | left {f : Field α} {fs : List (Field α)} {rest : α → α}
      {values : List (String × Option Value)} :
      f.optional = true → Fills fs values rest → Fills (f :: fs) ((f.name, none) :: values) rest

variable {name : String} {r : Decoder β} {set : β → α → α} {value : Value} {x : β}
  {values : List (String × Option Value)} {rest : α → α}

theorem Fills.required (hr : Reads r value x) (h : Fills fs values rest) :
    Fills (.required name r set :: fs) ((name, some value) :: values) (rest ∘ set x) := by
  refine Fills.given (f := .required name r set) (fun d v hv => ?_) h
  exact congrArg (Option.map set) (hr d v hv)

/-- A field with a default that is given or left out. -/
theorem Fills.defaulted (isLeft : Bool) (hr : Reads r value x) (h : Fills fs values rest) :
    Fills (.defaulted name r set :: fs) ((name, unlessLeft isLeft value) :: values)
      (fun a => rest (if isLeft then a else set x a)) := by
  cases isLeft with
  | true => exact Fills.left (f := .defaulted name r set) rfl h
  | false =>
    refine Fills.given (f := .defaulted name r set) (fun d v hv => ?_) h
    exact congrArg (Option.map set) (hr d v hv)

/-- A field that holds an option, written where there is something in it. -/
theorem Fills.optional {f : Field α} {y : Option γ} {toValue : γ → Value} {change : γ → α → α}
    (hf : f.optional = true)
    (hread : ∀ c d v, y = some c → (toValue c).saidBy d v = true → f.read d v = some (change c))
    (h : Fills fs values rest) :
    Fills (f :: fs) ((f.name, y.map toValue) :: values)
      (fun a => rest (y.elim a fun c => change c a)) := by
  cases y with
  | none => exact Fills.left hf h
  | some c => exact Fills.given (fun d v hv => hread c d v rfl hv) h

/-- Fields in the order of their declaration. -/
theorem readFields_fills {values : List (String × Option Value)} {change : α → α}
    (h : Fills fs values change) (hnames : (fields.map (·.name)).Nodup)
    (hfs : (fs.map (·.name)).Nodup) (hnew : ∀ f ∈ fs, f ∈ fields ∧ f.name ∉ seen)
    (hall : ∀ f ∈ fields, f.optional = true ∨ f.name ∈ seen ∨ f ∈ fs)
    (hkvs : List.Forall₂ (SaidField d) (present values) kvs) :
    readFields fields d seen acc kvs = some (change acc) := by
  induction h generalizing seen acc kvs with
  | nil =>
    cases hkvs
    have hdone : (fields.all fun f => f.optional || seen.contains f.name) = true := by
      rw [List.all_eq_true]
      intro f hf
      rcases hall f hf with hopt | hseen | hnil
      · simp [hopt]
      · simp [hseen]
      · cases hnil
    rw [readFields, if_pos hdone]
    rfl
  | @given f fs value change rest values hread _ ih =>
    rw [List.map_cons, List.nodup_cons] at hfs
    rw [List.forall_mem_cons] at hnew
    cases hkvs with
    | @cons _ kv _ kvs hkv hkvs =>
      obtain ⟨k, v⟩ := kv
      have hname : text d k = some f.name := text_of_textSaidBy hkv.1
      have hvalue : f.read d v = some change := hread d v hkv.2
      have hunseen : seen.contains f.name = false := by simpa using hnew.1.2
      have hrest : readFields fields d (f.name :: seen) (change acc) kvs =
          some (rest (change acc)) := by
        refine ih hfs.2 (fun g hg => ⟨(hnew.2 g hg).1, ?_⟩) (fun g hg => ?_) hkvs
        · rw [List.mem_cons, not_or]
          exact ⟨fun heq => hfs.1 (heq ▸ List.mem_map_of_mem hg), (hnew.2 g hg).2⟩
        · rcases hall g hg with hopt | hseen | hmem
          · exact .inl hopt
          · exact .inr (.inl (List.mem_cons_of_mem _ hseen))
          · rcases List.mem_cons.mp hmem with rfl | hmem
            · exact .inr (.inl List.mem_cons_self)
            · exact .inr (.inr hmem)
      rw [readFields_cons, hname, Option.bind_some, find?_key hnames hnew.1.1]
      simp only [hunseen, Bool.false_eq_true, if_false, hvalue, Option.bind_some, hrest]
      rfl
  | @left f fs rest values hopt _ ih =>
    rw [List.map_cons, List.nodup_cons] at hfs
    rw [List.forall_mem_cons] at hnew
    refine ih hfs.2 hnew.2 (fun g hg => ?_) hkvs
    rcases hall g hg with hgopt | hseen | hmem
    · exact .inl hgopt
    · exact .inr (.inl hseen)
    · rcases List.mem_cons.mp hmem with rfl | hmem
      · exact .inl hopt
      · exact .inr (.inr hmem)

/-- **A record is what the fields that are given make of the blank one.** -/
theorem reads_record {values : List (String × Option Value)} {change : α → α}
    (h : Fills fields values change) (hfields : Distinct fields) :
    Reads (record blank fields) (.mapping (present values)) (change blank) := by
  intro d v hv
  obtain ⟨kvs, kvs', hres, hperm, hall⟩ := exists_of_saidBy_mapping hv
  have hread : readFields fields d [] blank kvs = some (change blank) := by
    rw [readFields_perm hfields hperm]
    exact readFields_fills h hfields.names hfields.names (fun f hf => ⟨hf, List.not_mem_nil⟩)
      (fun f hf => .inr (.inr hf)) hall
  rw [record, hres]
  exact hread

/-! ### What every record has -/

theorem keeps_of {P : α → Prop} {name : String} {optional : Bool} {r : Decoder β}
    {set : β → α → α} (h : ∀ v x, r d v = some x → ∀ a, P a → P (set x a)) (v : Node)
    (change : α → α)
    (hread : (⟨name, optional, fun d v => (r d v).map set⟩ : Field α).read d v = some change) :
    ∀ a, P a → P (change a) := by
  obtain ⟨x, hx, rfl⟩ := Option.map_eq_some_iff.mp hread
  exact h v x hx

theorem readFields_keeps {P : α → Prop}
    (hfields : ∀ f ∈ fields, ∀ v change, f.read d v = some change → ∀ a, P a → P (change a))
    (hacc : P acc) (h : readFields fields d seen acc kvs = some a) : P a := by
  induction kvs generalizing seen acc with
  | nil =>
    rw [readFields] at h
    split at h
    · exact Option.some.inj h ▸ hacc
    · cases h
  | cons kv r ih =>
    obtain ⟨k, v⟩ := kv
    rw [readFields_cons] at h
    obtain ⟨name, -, h⟩ := Option.bind_eq_some_iff.mp h
    split at h
    · exact ih hacc h
    · next f hf =>
      split at h
      · cases h
      · obtain ⟨change, hchange, h⟩ := Option.bind_eq_some_iff.mp h
        exact ih (hfields f (List.mem_of_find?_eq_some hf) v change hchange acc hacc) h

/-- What the blank record has and every field keeps, every record has that is read. -/
theorem record_keeps {P : α → Prop} {v : Node} (hblank : P blank)
    (hfields : ∀ f ∈ fields, ∀ v change, f.read d v = some change → ∀ a, P a → P (change a))
    (h : record blank fields d v = some a) : P a := by
  obtain ⟨u, -, h⟩ := Option.bind_eq_some_iff.mp h
  obtain ⟨kvs, -, h⟩ := Option.bind_eq_some_iff.mp h
  exact readFields_keeps hfields hblank h

end Decoder

end Roundtable.Yaml
