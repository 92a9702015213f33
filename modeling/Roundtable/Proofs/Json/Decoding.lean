import Mathlib.Data.List.Forall2
import Roundtable.Proofs.Json.Reading
import Roundtable.SubAgent

/-!
# What a decoder takes from a page

For each kind of decoder there is one lemma that says **when it answers and what**
(`Roundtable.Json.Decoder.Reads`). When: if the containers in the value are not nested deeper
than its place allows (`Roundtable.Json.Place.Fits`), and what stands in it is of the kind
that is wanted. What: the text, the name or the number that was written, the items of a list,
the parts of a record (`Roundtable.Json.Decoder.Fills`).

The one decoder that can answer something else than was written is that of arbitrary values,
and what it answers is their echo (`Roundtable.Json.echo`): the numbers in them are read anew.
-/

namespace Roundtable

namespace Json

/-- What one reader after the other takes. -/
theorem bind_eq_ok {ε α β : Type} {x : Except ε α} {f : α → Except ε β} {b : β} :
    (x >>= f) = .ok b ↔ ∃ a, x = .ok a ∧ f a = .ok b := by
  cases x <;> simp [bind, Except.bind]

theorem ok_inj {ε α : Type} {a b : α} : (.ok a : Except ε α) = .ok b ↔ a = b := by
  rw [Except.ok.injEq]

theorem pure_eq_ok {ε α : Type} {a b : α} : (pure a : Except ε α) = .ok b ↔ a = b := ok_inj

/-- What one reader takes of one thing after the other. -/
theorem mapM_eq_ok {ε α β : Type} {f : α → Except ε β} {xs : List α} {ys : List β} :
    xs.mapM f = .ok ys ↔ List.Forall₂ (fun x y => f x = .ok y) xs ys := by
  induction xs generalizing ys with
  | nil =>
    rw [List.mapM_nil, List.forall₂_nil_left_iff]
    exact ⟨fun h => (Except.ok.inj h).symm, fun h => h ▸ rfl⟩
  | cons x xs ih =>
    rw [List.mapM_cons, bind_eq_ok, List.forall₂_cons_left_iff]
    refine exists_congr fun y => ?_
    rw [bind_eq_ok]
    constructor
    · rintro ⟨hy, zs, hzs, h⟩
      exact ⟨zs, hy, ih.mp hzs, (Except.ok.inj h).symm⟩
    · rintro ⟨zs, hy, hzs, rfl⟩
      exact ⟨hy, zs, ih.mpr hzs, rfl⟩

/-! ### Echoes -/

mutual

/-- **What is heard of a value that was written and read**: its numbers anew, and its
objects in the order of their keys. Nothing if a number is out of range. -/
def echo : Json → Option Json
  | .null => some .null
  | .bool b => some (.bool b)
  | .number n => n.reread.map .number
  | .text s => some (.text s)
  | .array items => (echoItems items).map .array
  | .object fields => (echoFields fields).map ofFields

/-- What is heard of items. -/
def echoItems : List Json → Option (List Json)
  | [] => some []
  | v :: r => do
    let v ← echo v
    return v :: (← echoItems r)

/-- What is heard of fields. -/
def echoFields : List (String × Json) → Option (List (String × Json))
  | [] => some []
  | (k, v) :: r => do
    let v ← echo v
    return (k, v) :: (← echoFields r)

end

/-! ### Depth -/

mutual

/-- **How many containers stand in a value one inside the other.** -/
def depth : Json → Nat
  | .null | .bool _ | .number _ | .text _ => 0
  | .array items => depthItems items + 1
  | .object fields => depthFields fields + 1

/-- How deep the deepest item is. -/
def depthItems : List Json → Nat
  | [] => 0
  | v :: r => max (depth v) (depthItems r)

/-- How deep the deepest field is. -/
def depthFields : List (String × Json) → Nat
  | [] => 0
  | (_, v) :: r => max (depth v) (depthFields r)

end

/-- **So many containers may open here**, one inside the other. -/
def Place.Fits (p : Place) (n : Nat) : Prop := p.settled = true ∨ n = 0 ∨ n < p.room

namespace Place

variable {p : Place} {m n : Nat}

@[simp] theorem fits_zero : p.Fits 0 := .inr (.inl rfl)

@[simp] theorem fits_max : p.Fits (max m n) ↔ p.Fits m ∧ p.Fits n := by
  unfold Fits
  rcases p.settled with _ | _
  · simp only [Bool.false_eq_true, false_or]
    omega
  · simp

/-- A container fits if it may open and what is in it fits there. -/
theorem fits_succ : p.Fits (n + 1) ↔ ∃ q, p.enter = .ok q ∧ q.Fits n := by
  obtain ⟨room, settled⟩ := p
  unfold Fits enter
  cases settled with
  | true => simp
  | false =>
    by_cases hroom : room ≤ 1
    · simp only [Bool.false_eq_true, if_false, if_pos hroom, reduceCtorEq, false_and, exists_false,
        false_or, iff_false]
      omega
    · simp only [Bool.false_eq_true, if_false, if_neg hroom, Except.ok.injEq, exists_eq_left',
        false_or]
      omega

/-- A document may nest 127 containers. -/
theorem fits_top : top.Fits n ↔ n ≤ 127 := by
  unfold Fits top
  simp only [Bool.false_eq_true, false_or]
  omega

end Place

namespace Decoder

variable {α β γ : Type} {p : Place} {d : Decoder β} {v : Json} {S : β → Prop} {f : α → Json}
  {R : α → β → Prop}

/-- **What a decoder takes from a value**: it answers where the value fits its place, and its
answers are those of which `S` holds. -/
def Takes (d : Decoder β) (v : Json) (S : β → Prop) : Prop :=
  ∀ p y, d p (mirror v) = .ok y ↔ p.Fits v.depth ∧ S y

/-- **What a decoder reads of the values that `f` writes**: its answers stand in the relation
`R` to what was written. -/
def Reads (d : Decoder β) (f : α → Json) (R : α → β → Prop) : Prop :=
  ∀ x, Takes d (f x) (R x)

theorem Takes.congr (h : Takes d v S) {S' : β → Prop} (hS : ∀ y, S y ↔ S' y) : Takes d v S' :=
  fun p y => (h p y).trans (and_congr_right fun _ => hS y)

/-! ### Leaves -/

theorem takes_text (s : String) : Takes text (.text s) fun t => t = s := by
  intro p t
  rw [depth, mirror, text, Except.ok.injEq]
  simp [eq_comm]

theorem takes_bool (b : Bool) : Takes bool (.bool b) fun c => c = b := by
  intro p c
  rw [depth, mirror, bool, Except.ok.injEq]
  simp [eq_comm]

/-- A whole number is what was written, if it is one of those wanted. -/
theorem takes_natBelow {limit : Nat} (hlimit : limit ≤ wholeLimit) (n : Nat) :
    Takes (natBelow limit) (.nat n) fun m => n < limit ∧ m = n := by
  intro p m
  have hdepth : (Json.nat n).depth = 0 := by rw [nat, depth]
  obtain ⟨hsame, hother⟩ := Number.reread_whole n
  rw [hdepth, nat, mirror]
  simp only [Place.fits_zero, true_and]
  by_cases hn : n < limit
  · rw [hsame (Nat.lt_of_lt_of_le hn hlimit)]
    change (if n < limit then Except.ok n else _) = _ ↔ _
    rw [if_pos hn, Except.ok.injEq]
    exact ⟨fun h => ⟨hn, h.symm⟩, fun h => h.2.symm⟩
  · refine ⟨fun h => absurd h ?_, fun h => absurd h.1 hn⟩
    unfold natBelow
    split
    · next k heq =>
      injection heq with heq
      obtain rfl : k = n := Int.ofNat_inj.mp (hother k heq)
      rw [if_neg hn]
      exact fun h => by cases h
    · exact fun h => by cases h

theorem takes_nat32 (n : Nat) : Takes nat32 (.nat n) fun m => n < 2 ^ 32 ∧ m = n :=
  takes_natBelow (by decide) n

theorem takes_nat64 (n : Nat) : Takes nat64 (.nat n) fun m => n < 2 ^ 64 ∧ m = n :=
  takes_natBelow (Nat.le_refl _) n

theorem check_eq_ok {g : β → Option γ} {u : Node} {c : γ} :
    check d g p u = .ok c ↔ ∃ b, d p u = .ok b ∧ g b = some c := by
  rw [check, bind_eq_ok]
  refine exists_congr fun b => and_congr_right fun _ => ?_
  cases g b <;> simp [pure, Except.pure]

theorem map_eq_ok {g : β → γ} {u : Node} {c : γ} :
    map g d p u = .ok c ↔ ∃ b, d p u = .ok b ∧ g b = c := by
  unfold map
  cases d p u <;> simp [Except.map]

/-- A value that has to pass a check is read if it passes. -/
theorem Takes.check (h : Takes d v S) (g : β → Option γ) :
    Takes (d.check g) v fun c => ∃ b, S b ∧ g b = some c := by
  intro p c
  simp only [check_eq_ok, h p, and_assoc, exists_and_left]

/-- A value is read and changed. -/
theorem Takes.map (h : Takes d v S) (g : β → γ) :
    Takes (map g d) v fun c => ∃ b, S b ∧ g b = c := by
  intro p c
  simp only [map_eq_ok, h p, and_assoc, exists_and_left]

/-- A value that is there is read as such. -/
theorem Takes.option (h : Takes d v S) (hnull : v.isNull = false) :
    Takes d.option v fun o => ∃ y, S y ∧ some y = o := by
  intro p o
  have hmap : Decoder.option d p (mirror v) = Decoder.map some d p (mirror v) := by
    cases v with
    | null => cases hnull
    | bool | number | text | array | object => rfl
  rw [hmap, h.map some p o]

/-- A name is what it means. -/
theorem takes_name (meaning : String → Option α) (s : String) :
    Takes (name meaning) (.text s) fun a => meaning s = some a := by
  intro p a
  rw [depth, mirror]
  simp only [name, choice, bind, Except.bind, Place.fits_zero, true_and]
  cases meaning s <;> simp

/-! ### Lists -/

theorem items_mirror (h : d.Reads f R) {xs : List α} {ys : List β} :
    items d p (mirrorItems (xs.map f)) = .ok ys ↔
      p.Fits (depthItems (xs.map f)) ∧ List.Forall₂ R xs ys := by
  induction xs generalizing ys with
  | nil => simp [mirrorItems, items, depthItems, eq_comm]
  | cons x xs ih =>
    simp only [List.map_cons, mirrorItems, items, depthItems, bind_eq_ok, h x p, pure_eq_ok, ih,
      Place.fits_max, List.forall₂_cons_left_iff]
    constructor
    · rintro ⟨y, ⟨hfit, hy⟩, ys, ⟨hfits, hys⟩, rfl⟩
      exact ⟨⟨hfit, hfits⟩, y, ys, hy, hys, rfl⟩
    · rintro ⟨⟨hfit, hfits⟩, y, ys, hy, hys, rfl⟩
      exact ⟨y, ⟨hfit, hy⟩, ys, ⟨hfits, hys⟩, rfl⟩

/-- **A list is read item by item.** -/
theorem Reads.list (h : d.Reads f R) :
    d.list.Reads (fun xs => .array (xs.map f)) (List.Forall₂ R) := by
  intro xs p ys
  rw [mirror, Decoder.list, bind_eq_ok, depth, Place.fits_succ]
  simp only [items_mirror h]
  constructor
  · rintro ⟨q, hq, hfits, hys⟩
    exact ⟨⟨q, hq, hfits⟩, hys⟩
  · rintro ⟨⟨q, hq, hfits⟩, hys⟩
    exact ⟨q, hq, hfits, hys⟩

/-! ### Any value -/

mutual

/-- **A reader of any value hears its echo.** -/
theorem takes_any (j : Json) : Takes any j fun j' => j.echo = some j' := by
  intro p j'
  match j with
  | .null => simp [mirror, any, depth, echo]
  | .bool b => simp [mirror, any, depth, echo]
  | .text s => simp [mirror, any, depth, echo, Except.map]
  | .number n => cases h : n.reread <;> simp [mirror, any, depth, echo, h]
  | .array items =>
    rw [mirror, any, bind_eq_ok, depth, Place.fits_succ, echo]
    simp only [bind_eq_ok, pure_eq_ok, anyItems_mirror items, Option.map_eq_some_iff]
    constructor
    · rintro ⟨q, hq, js, ⟨hfits, hjs⟩, rfl⟩
      exact ⟨⟨q, hq, hfits⟩, js, hjs, rfl⟩
    · rintro ⟨⟨q, hq, hfits⟩, js, hjs, rfl⟩
      exact ⟨q, hq, js, ⟨hfits, hjs⟩, rfl⟩
  | .object fields =>
    rw [mirror, any, bind_eq_ok, depth, Place.fits_succ, echo]
    simp only [bind_eq_ok, pure_eq_ok, anyFields_mirror fields, Option.map_eq_some_iff]
    constructor
    · rintro ⟨q, hq, fs, ⟨hfits, hfs⟩, rfl⟩
      exact ⟨⟨q, hq, hfits⟩, fs, hfs, rfl⟩
    · rintro ⟨⟨q, hq, hfits⟩, fs, hfs, rfl⟩
      exact ⟨q, hq, fs, ⟨hfits, hfs⟩, rfl⟩

theorem anyItems_mirror (items : List Json) (p : Place) (js : List Json) :
    anyItems p (mirrorItems items) = .ok js ↔
      p.Fits (depthItems items) ∧ echoItems items = some js := by
  match items with
  | [] => simp [mirrorItems, anyItems, depthItems, echoItems]
  | v :: r =>
    simp only [mirrorItems, anyItems, depthItems, echoItems, bind_eq_ok, pure_eq_ok,
      takes_any v _ _, anyItems_mirror r, Place.fits_max, Option.bind_eq_bind,
      Option.bind_eq_some_iff, Option.pure_def, Option.some.injEq]
    constructor
    · rintro ⟨w, ⟨hfit, hw⟩, ws, ⟨hfits, hws⟩, rfl⟩
      exact ⟨⟨hfit, hfits⟩, w, hw, ws, hws, rfl⟩
    · rintro ⟨⟨hfit, hfits⟩, w, hw, ws, hws, rfl⟩
      exact ⟨w, ⟨hfit, hw⟩, ws, ⟨hfits, hws⟩, rfl⟩

theorem anyFields_mirror (fields : List (String × Json)) (p : Place) (fs : List (String × Json)) :
    anyFields p (mirrorFields fields) = .ok fs ↔
      p.Fits (depthFields fields) ∧ echoFields fields = some fs := by
  match fields with
  | [] => simp [mirrorFields, anyFields, depthFields, echoFields]
  | (k, v) :: r =>
    simp only [mirrorFields, anyFields, depthFields, echoFields, bind_eq_ok, pure_eq_ok, ok_inj,
      exists_eq_left', takes_any v _ _, anyFields_mirror r, Place.fits_max, Option.bind_eq_bind,
      Option.bind_eq_some_iff, Option.pure_def, Option.some.injEq]
    constructor
    · rintro ⟨w, ⟨hfit, hw⟩, ws, ⟨hfits, hws⟩, rfl⟩
      exact ⟨⟨hfit, hfits⟩, w, hw, ws, hws, rfl⟩
    · rintro ⟨⟨hfit, hfits⟩, w, hw, ws, hws, rfl⟩
      exact ⟨w, ⟨hfit, hw⟩, ws, ⟨hfits, hws⟩, rfl⟩

end

/-! ### Records -/

variable {ρ : Type} {fields : List (Field ρ)} {seen keys : List String} {acc a : ρ}
  {fs r : List (String × Json)} {k : String}

/-- **Every field will be there, and none twice**, when `keys` are read behind `seen`. -/
def Ready (fields : List (Field ρ)) (seen keys : List String) : Prop :=
  (seen ++ keys).Nodup ∧ ∀ f ∈ fields, f.presence = .required → f.name ∈ seen ++ keys

instance : Decidable (Ready fields seen keys) := inferInstanceAs (Decidable (_ ∧ _))

/-- A key that was read is one that was seen. -/
theorem Ready.cons (h : Ready fields seen (k :: keys)) :
    k ∉ seen ∧ Ready fields (k :: seen) keys := by
  obtain ⟨hnodup, hall⟩ := h
  have hperm : (seen ++ k :: keys).Perm (k :: seen ++ keys) := List.perm_middle
  rw [hperm.nodup_iff] at hnodup
  refine ⟨fun hmem => ?_, hnodup, fun f hf hreq => hperm.mem_iff.mp (hall f hf hreq)⟩
  rw [List.cons_append, List.nodup_cons] at hnodup
  exact hnodup.1 (List.mem_append_left keys hmem)

/-- **What a record is filled with** by the fields of an object, from what it is so far. -/
def Fills (fields : List (Field ρ)) (acc : ρ) (fs : List (String × Json)) (Q : ρ → Prop) : Prop :=
  ∀ p seen a, Ready fields seen (fs.map (·.1)) →
    (object fields p seen acc (mirrorFields fs) = .ok a ↔ p.Fits (depthFields fs) ∧ Q a)

/-- At the end of the fields the record is what was read. -/
theorem fills_nil : Fills fields acc [] fun a => a = acc := by
  intro p seen a hready
  have hall : (fields.all fun f => f.presence != .required || seen.contains f.name) = true := by
    rw [List.all_eq_true]
    intro f hf
    rw [Bool.or_eq_true, bne_iff_ne, List.contains_iff_mem, ← imp_iff_not_or]
    simpa using hready.2 f hf
  rw [mirrorFields, object, if_pos hall, ok_inj]
  simp [depthFields, eq_comm]

/-- **A field is read into its part of the record.** -/
theorem Fills.field {set : β → ρ → ρ} {presence : Presence} {Q : β → ρ → Prop}
    (hf : fields.find? (·.name == k) = some (.of k d set presence)) (hd : Takes d v S)
    (h : ∀ y, S y → Fills fields (set y acc) r (Q y)) :
    Fills fields acc ((k, v) :: r) fun a => ∃ y, S y ∧ Q y a := by
  intro p seen a hready
  obtain ⟨hnew, hready⟩ := hready.cons
  have hread (g : ρ → ρ) : (Field.of k d set presence).read p (mirror v) = .ok g ↔
      p.Fits v.depth ∧ ∃ y, S y ∧ set y = g := hd.map set p g
  rw [mirrorFields, object, bind_eq_ok, depthFields, Place.fits_max]
  simp only [ok_inj, exists_eq_left', hf, List.contains_iff_mem, if_neg hnew, bind_eq_ok, hread]
  constructor
  · rintro ⟨g, ⟨hfit, y, hy, rfl⟩, hobj⟩
    obtain ⟨hfits, hQ⟩ := (h y hy p _ a hready).mp hobj
    exact ⟨⟨hfit, hfits⟩, y, hy, hQ⟩
  · rintro ⟨⟨hfit, hfits⟩, y, hy, hQ⟩
    exact ⟨set y, ⟨hfit, y, hy, rfl⟩, (h y hy p _ a hready).mpr ⟨hfits, hQ⟩⟩

/-- A field that is left out when it has no value is read if it is there. -/
theorem Fills.optional {set : Option β → ρ → ρ} {o : Option α} {Q : Option β → ρ → Prop}
    (hf : fields.find? (·.name == k) = some (.defaulted k (.option d) set))
    (hd : d.Reads f R) (hnull : ∀ x, (f x).isNull = false) (hset : set none acc = acc)
    (h : ∀ y, Option.Rel R o y → Fills fields (set y acc) r (Q y)) :
    Fills fields acc (optionalField k (o.map f) ++ r) fun a => ∃ y, Option.Rel R o y ∧ Q y a := by
  cases o with
  | none =>
    intro p seen a hready
    have hrest := h none .none p seen a hready
    rw [hset] at hrest
    rw [show optionalField k (Option.map f none) ++ r = r from rfl, hrest]
    refine and_congr_right fun _ => ⟨fun hQ => ⟨none, .none, hQ⟩, ?_⟩
    rintro ⟨y, hy, hQ⟩
    cases hy
    exact hQ
  | some x =>
    intro p seen a hready
    have hfield : Fills fields acc ((k, f x) :: r) _ :=
      Fills.field hf ((hd x).option (hnull x)) fun y hy => h y <| by
        obtain ⟨z, hz, rfl⟩ := hy
        exact .some hz
    refine (hfield p seen a hready).trans (and_congr_right fun _ => ⟨?_, ?_⟩)
    · rintro ⟨y, ⟨z, hz, rfl⟩, hQ⟩
      exact ⟨some z, .some hz, hQ⟩
    · rintro ⟨y, hy, hQ⟩
      cases hy with
      | some hz => exact ⟨_, ⟨_, hz, rfl⟩, hQ⟩

/-- A field that the record does not know is passed over. -/
theorem Fills.unknown {s : String} {Q : ρ → Prop} (hf : fields.find? (·.name == k) = none)
    (h : Fills fields acc r Q) : Fills fields acc ((k, .text s) :: r) Q := by
  intro p seen a hready
  have hready' : Ready fields seen (r.map (·.1)) := by
    obtain ⟨hnodup, hall⟩ := hready
    refine ⟨hnodup.sublist ((List.sublist_cons_self _ _).append_left seen), fun g hg hreq => ?_⟩
    have hmem := hall g hg hreq
    have hne : g.name ≠ k := by simpa using List.find?_eq_none.mp hf g hg
    simpa [hne] using hmem
  rw [mirrorFields, object, bind_eq_ok, depthFields, Place.fits_max, depth]
  simp only [ok_inj, exists_eq_left', hf, mirror, skip, bind_eq_ok, exists_const, Place.fits_zero,
    true_and]
  exact h p seen a hready'

/-- **A record is read from the object that its parts were written to.** -/
theorem Fills.record {blank : ρ} {Q : ρ → Prop} (h : Fills fields blank fs Q)
    (hready : Ready fields [] (fs.map (·.1))) : Takes (record blank fields) (.object fs) Q := by
  intro p a
  rw [mirror, Decoder.record, bind_eq_ok, depth, Place.fits_succ]
  constructor
  · rintro ⟨q, hq, hobj⟩
    obtain ⟨hfits, hQ⟩ := (h q [] a hready).mp hobj
    exact ⟨⟨q, hq, hfits⟩, hQ⟩
  · rintro ⟨⟨q, hq, hfits⟩, hQ⟩
    exact ⟨q, hq, (h q [] a hready).mpr ⟨hfits, hQ⟩⟩

/-! ### Records that name their own kind -/

variable {κ : Type} {tag name : String} {meaning : String → Option κ} {kind : κ}

/-- Behind its kind the fields of a record are read through. -/
theorem taggedFields_mirror (hr : ∀ x ∈ r, x.1 ≠ tag) {kind' : κ} :
    taggedFields tag meaning p (some kind) (mirrorFields r) = .ok kind' ↔
      p.Fits (depthFields r) ∧ (∃ r', echoFields r = some r') ∧ kind' = kind := by
  induction r with
  | nil => simp [mirrorFields, taggedFields, depthFields, echoFields, eq_comm]
  | cons x r ih =>
    obtain ⟨k, v⟩ := x
    rw [List.forall_mem_cons] at hr
    simp only [mirrorFields, taggedFields, bind_eq_ok, ok_inj, exists_eq_left', if_neg hr.1,
      takes_any v _ _, ih hr.2, depthFields, Place.fits_max, echoFields, Option.bind_eq_bind,
      Option.bind_eq_some_iff, Option.pure_def, Option.some.injEq]
    constructor
    · rintro ⟨w, ⟨hfit, hw⟩, hfits, ⟨ws, hws⟩, rfl⟩
      exact ⟨⟨hfit, hfits⟩, ⟨_, w, hw, ws, hws, rfl⟩, rfl⟩
    · rintro ⟨⟨hfit, hfits⟩, ⟨_, w, hw, ws, hws, -⟩, rfl⟩
      exact ⟨w, ⟨hfit, hw⟩, hfits, ⟨ws, hws⟩, rfl⟩

/-- **A record that names its kind first is read as one of that kind**, if all of it can be
read through. -/
theorem Takes.tagged {fields : κ → Decoder β} (hkind : meaning name = some kind)
    (hr : ∀ x ∈ r, x.1 ≠ tag) (h : Takes (fields kind) (.object ((tag, .text name) :: r)) S) :
    Takes (tagged tag meaning fields) (.object ((tag, .text name) :: r))
      fun a => (∃ r', echoFields r = some r') ∧ S a := by
  intro p a
  have hsettled (n : Nat) : Place.Fits ⟨0, true⟩ n := .inl rfl
  have hobject := h ⟨0, true⟩ a
  rw [mirror] at hobject
  have hcheck (q : Place) (k : κ) :
      Decoder.check Decoder.text meaning q (mirror (.text name)) = .ok k ↔ kind = k := by
    rw [mirror, check_eq_ok]
    simp [Decoder.text, hkind]
  have hkinds (q : Place) (k : κ) :
      Decoder.taggedFields tag meaning q none (mirrorFields ((tag, .text name) :: r)) = .ok k ↔
        q.Fits (depthFields r) ∧ (∃ r', echoFields r = some r') ∧ k = kind := by
    simp only [mirrorFields, taggedFields, bind_eq_ok, ok_inj, exists_eq_left', if_true,
      Option.isSome_none, Bool.false_eq_true, if_false, hcheck, taggedFields_mirror hr]
  rw [mirror, Decoder.tagged, bind_eq_ok, depth, Place.fits_succ]
  simp only [bind_eq_ok, hkinds, depthFields, depth, Nat.zero_max]
  constructor
  · rintro ⟨q, hq, k, ⟨hfits, hecho, rfl⟩, ha⟩
    exact ⟨⟨q, hq, hfits⟩, hecho, (hobject.mp ha).2⟩
  · rintro ⟨⟨q, hq, hfits⟩, hecho, ha⟩
    exact ⟨q, hq, kind, ⟨hfits, hecho, rfl⟩, hobject.mpr ⟨hsettled _, ha⟩⟩

end Decoder

end Json

end Roundtable
