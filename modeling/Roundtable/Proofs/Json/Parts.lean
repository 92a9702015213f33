import Roundtable.Proofs.Json.Decoding
import Roundtable.Proofs.Lists

/-!
# Where the parts of a record stand

A record is read from an object, where its parts stand under their names, or from an array,
where they stand in order. Either way **a part that must be there is what its decoder took
from the place it stands in** (`Roundtable.Json.Decoder.exists_part`): nothing that was read
later replaces it, and it is never made up.
-/

namespace Roundtable.Json

/-! ### Places in a tree -/

/-- The value of the first field of a name. -/
def Fields.find? (name : String) : Fields → Option Node
  | .field (.ok k) v r => if k = name then some v else r.find? name
  | .field (.error _) _ r => r.find? name
  | .closed | .broken _ | .brokenKey .. => none

/-- The item at an index. -/
def Items.get? : Items → Nat → Option Node
  | .item v _, 0 => some v
  | .item _ r, i + 1 => r.get? i
  | .closed, _ | .broken _, _ => none

/-- **A part of a record**: the field of its name, or the item at its index. -/
def Node.part? (name : String) (index : Nat) : Node → Option Node
  | .object fields => fields.find? name
  | .array items => items.get? index
  | _ => none

/-- The text at the end of a path of parts. -/
def Node.textAt : List (String × Nat) → Node → Option String
  | [], .text (.ok s) => some s
  | [], _ => none
  | (name, index) :: path, v => do textAt path (← v.part? name index)

namespace Decoder

variable {α β γ : Type} {p : Place} {fields : List (Field α)} {name : String} {acc a : α}
  {d : Decoder β} {set : β → α → α} {get : α → β}

/-- Reading the field leaves a part of the record as it is. -/
def Field.Keeps (f : Field α) (get : α → β) : Prop :=
  ∀ p v change, f.read p v = .ok change → ∀ acc, get (change acc) = get acc

/-- A field that is set leaves the parts alone that its setting leaves alone. -/
theorem keeps_of {δ : Decoder γ} {put : γ → α → α} {presence : Presence}
    (h : ∀ y acc, get (put y acc) = get acc) : (Field.of name δ put presence).Keeps get := by
  intro p v change hread acc
  obtain ⟨y, -, rfl⟩ := map_eq_ok.mp (show map put δ p v = .ok change from hread)
  exact h y acc

/-- **The field `name` of a record sets a part of it**, and no other field does. -/
structure Owns (fields : List (Field α)) (index : Nat) (name : String) (d : Decoder β)
    (get : α → β) : Prop where
  field : ∃ set : β → α → α, (∀ y acc, get (set y acc) = y) ∧
    fields[index]? = some (.of name d set .required)
  others : ∀ f ∈ fields, f.name ≠ name → f.Keeps get
  names : (fields.map (·.name)).Nodup

variable {index : Nat}

/-- **In an object** the part stands under its name, unless it was read before. -/
theorem exists_part_object (h : Owns fields index name d get) {seen : List String} {acc : α}
    {fs : Fields} (hobj : object fields p seen acc fs = .ok a) :
    (name ∈ seen → get a = get acc) ∧
      (name ∉ seen → ∃ v, fs.find? name = some v ∧ d p v = .ok (get a)) := by
  obtain ⟨set, hset, hfield⟩ := h.field
  have hmem := List.mem_of_getElem? hfield
  have hfind : fields.find? (·.name == name) = some (.of name d set .required) :=
    find?_key h.names hmem
  -- By recursion on the fields: each is of the part, or keeps it, or is passed over.
  match fs with
  | .closed =>
    rw [object] at hobj
    split at hobj
    · next hall =>
      obtain rfl := Except.ok.inj hobj
      refine ⟨fun _ => rfl, fun hseen => absurd (List.all_eq_true.mp hall _ hmem) ?_⟩
      simpa [Field.of] using hseen
    · cases hobj
  | .broken f => cases hobj
  | .brokenKey _ _ _ => cases hobj
  | .field k v r =>
    rw [object, bind_eq_ok] at hobj
    obtain ⟨key, rfl, hobj⟩ := hobj
    rw [Fields.find?]
    split at hobj
    · next hnone =>
      have hne : key ≠ name := by
        rintro rfl
        rw [hfind] at hnone
        cases hnone
      obtain ⟨-, -, hobj⟩ := bind_eq_ok.mp hobj
      rw [if_neg hne]
      exact exists_part_object h hobj
    · next f hf =>
      split at hobj
      · cases hobj
      · next hnew =>
        rw [List.contains_iff_mem] at hnew
        obtain ⟨change, hchange, hobj⟩ := bind_eq_ok.mp hobj
        obtain ⟨hold, hlater⟩ := exists_part_object h hobj
        by_cases heq : key = name
        · subst heq
          rw [hfind] at hf
          obtain rfl := Option.some.inj hf
          obtain ⟨y, hy, rfl⟩ := map_eq_ok.mp
            (show map set d p v = .ok change from hchange)
          have hget := hold List.mem_cons_self
          rw [hset] at hget
          rw [if_pos rfl]
          exact ⟨fun hseen => absurd hseen hnew, fun _ => ⟨v, rfl, hget ▸ hy⟩⟩
        · have hname : f.name = key := by simpa using List.find?_some hf
          have hkeep := h.others f (List.mem_of_find?_eq_some hf) (hname ▸ heq) p v change hchange
          rw [hkeep acc] at hold
          rw [if_neg heq]
          refine ⟨fun hseen => hold (List.mem_cons_of_mem key hseen), fun hseen => hlater ?_⟩
          rw [List.mem_cons, not_or]
          exact ⟨Ne.symm heq, hseen⟩

theorem get_positional (hkeeps : ∀ f ∈ fields, f.Keeps get) {acc : α} {is : Items}
    (hpos : positional p fields acc is = .ok a) : get a = get acc := by
  induction fields generalizing acc is with
  | nil =>
    cases is with
    | closed => rw [← Except.ok.inj hpos]
    | broken | item => cases hpos
  | cons f fs ih =>
    rw [List.forall_mem_cons] at hkeeps
    cases is with
    | closed =>
      rw [positional] at hpos
      split at hpos
      · exact ih hkeeps.2 hpos
      · cases hpos
    | broken => cases hpos
    | item v r =>
      rw [positional, bind_eq_ok] at hpos
      obtain ⟨change, hchange, hpos⟩ := hpos
      rw [ih hkeeps.2 hpos, hkeeps.1 p v change hchange]

/-- **In an array** the part stands at its index. -/
theorem exists_part_positional (h : Owns fields index name d get) {acc : α} {is : Items}
    (hpos : positional p fields acc is = .ok a) :
    ∃ v, is.get? index = some v ∧ d p v = .ok (get a) := by
  obtain ⟨⟨set, hset, hfield⟩, hothers, hnames⟩ := h
  induction fields generalizing index acc is with
  | nil => cases hfield
  | cons f fs ih =>
    rw [List.forall_mem_cons] at hothers
    rw [List.map_cons, List.nodup_cons] at hnames
    cases index with
    | zero =>
      obtain rfl := Option.some.inj hfield
      cases is with
      | closed | broken => cases hpos
      | item v r =>
        rw [positional, bind_eq_ok] at hpos
        obtain ⟨change, hchange, hpos⟩ := hpos
        obtain ⟨y, hy, rfl⟩ := map_eq_ok.mp (show map set d p v = .ok change from hchange)
        have hkeeps : ∀ f ∈ fs, f.Keeps get := fun f hf => hothers.2 f hf fun heq =>
          hnames.1 (List.mem_map.mpr ⟨f, hf, heq⟩)
        have hget := get_positional hkeeps hpos
        rw [hset] at hget
        exact ⟨v, rfl, hget ▸ hy⟩
    | succ index =>
      cases is with
      | closed =>
        rw [positional] at hpos
        split at hpos
        · obtain ⟨v, hv, -⟩ := ih hpos hothers.2 hnames.2 hfield
          cases index <;> cases hv
        · cases hpos
      | broken => cases hpos
      | item v r =>
        rw [positional, bind_eq_ok] at hpos
        obtain ⟨change, -, hpos⟩ := hpos
        obtain ⟨u, hu, hd⟩ := ih hpos hothers.2 hnames.2 hfield
        exact ⟨u, hu, hd⟩

/-- **A part of a record is what its decoder took** from where it stands. -/
theorem exists_part (h : Owns fields index name d get) {blank : α} {v : Node}
    (hrec : record blank fields p v = .ok a) :
    ∃ q u, v.part? name index = some u ∧ d q u = .ok (get a) := by
  unfold record at hrec
  split at hrec
  · obtain ⟨q, -, hobj⟩ := bind_eq_ok.mp hrec
    obtain ⟨u, hu, hd⟩ := (exists_part_object h hobj).2 List.not_mem_nil
    exact ⟨q, u, hu, hd⟩
  · obtain ⟨q, -, hpos⟩ := bind_eq_ok.mp hrec
    obtain ⟨u, hu, hd⟩ := exists_part_positional h hpos
    exact ⟨q, u, hu, hd⟩
  · cases hrec

/-- A record that names its kind is one of its kind, behind the kind if it is an array. -/
theorem exists_of_tagged {κ : Type} {tag : String} {meaning : String → Option κ}
    {fields : κ → Decoder α} {v : Node} (h : tagged tag meaning fields p v = .ok a) :
    ∃ kind, (∃ fs, v = .object fs ∧ fields kind ⟨0, true⟩ (.object fs) = .ok a) ∨
      ∃ u is, v = .array (.item u is) ∧ fields kind ⟨0, true⟩ (.array is) = .ok a := by
  unfold tagged at h
  split at h
  · next fs =>
    obtain ⟨q, -, h⟩ := bind_eq_ok.mp h
    obtain ⟨kind, -, h⟩ := bind_eq_ok.mp h
    exact ⟨kind, .inl ⟨fs, rfl, h⟩⟩
  · obtain ⟨-, -, h⟩ := bind_eq_ok.mp h
    cases h
  · obtain ⟨-, -, h⟩ := bind_eq_ok.mp h
    cases h
  · next u is =>
    obtain ⟨q, -, h⟩ := bind_eq_ok.mp h
    obtain ⟨kind, -, h⟩ := bind_eq_ok.mp h
    obtain ⟨-, -, h⟩ := bind_eq_ok.mp h
    exact ⟨kind, .inr ⟨u, is, rfl, h⟩⟩
  · cases h

/-- What is decoded from a text is decoded from its tree. -/
theorem exists_of_decode {text : String} {d : Decoder α} (h : decode d text = .ok a) :
    d .top (document text.toList).1 = .ok a := by
  unfold decode at h
  rcases hdoc : document text.toList with ⟨v, trailing⟩
  rw [hdoc] at h
  obtain ⟨x, hx, h⟩ := bind_eq_ok.mp h
  cases trailing with
  | true => cases h
  | false => rw [hx, pure_eq_ok.mp h]

end Decoder

end Roundtable.Json
