import Roundtable.Json.Decoder
import Roundtable.Proofs.Json.Numbers
import Roundtable.Proofs.Json.Texts

/-!
# Pages that are read back

However a value is laid out (`Roundtable.Json.Layout`), it is read as a tree of the same shape
(`Roundtable.Json.Layout.readNode_lay`): **nothing breaks off, nothing is left, and only a number
can have changed on the way** (`Roundtable.Json.mirror`). So what a decoder makes of a page
is what it makes of the mirror image of the value (`Roundtable.Json.decode_page`), and so is
what it makes of a line.
-/

namespace Roundtable

namespace Json

/-! ### Mirror images -/

mutual

/-- **The tree that a value is read back as.** -/
def mirror : Json → Node
  | .null => .null
  | .bool b => .bool b
  | .number n => .number n.reread
  | .text s => .text (.ok s)
  | .array items => .array (mirrorItems items)
  | .object fields => .object (mirrorFields fields)

/-- What items are read back as. -/
def mirrorItems : List Json → Items
  | [] => .closed
  | v :: r => .item (mirror v) (mirrorItems r)

/-- What fields are read back as. -/
def mirrorFields : List (String × Json) → Fields
  | [] => .closed
  | (k, v) :: r => .field (.ok k) (mirror v) (mirrorFields r)

end

/-! ### Spaces -/

variable {s rest : List Char}

theorem skipSpaces_append {spaces : List Char} (h : ∀ c ∈ spaces, isSpace c = true)
    (s : List Char) : skipSpaces (spaces ++ s) = skipSpaces s :=
  List.dropWhile_append_of_pos h

theorem skipSpaces_cons {c : Char} (h : isSpace c = false) (r : List Char) :
    skipSpaces (c :: r) = c :: r := by
  simp [skipSpaces, h]

/-- A reader of values passes over spaces. -/
theorem readNode_spaces {spaces : List Char} (h : ∀ c ∈ spaces, isSpace c = true) (n : Nat)
    (s : List Char) : readNode n (spaces ++ s) = readNode n s := by
  cases n with
  | zero => rfl
  | succ n => rw [readNode, readNode, skipSpaces_append h]

theorem delimited_cons {c : Char} {s : List Char}
    (h : isDigit c = false ∧ c ≠ '.' ∧ c ≠ 'e' ∧ c ≠ 'E') : Delimited (c :: s) := by
  intro d hd
  obtain rfl := Option.some.inj hd
  exact h

/-! ### Layouts -/

/-- **A way to lay out a value**: the spaces in front of an item or a bracket that closes, by
their depth, and those behind a colon. -/
structure Layout where
  gap : Nat → List Char
  colon : List Char
  isSpace_gap : ∀ depth, ∀ c ∈ gap depth, isSpace c = true
  isSpace_colon : ∀ c ∈ colon, isSpace c = true

/-- Every item and field on a line of its own. -/
def Layout.page : Layout where
  gap := newline
  colon := [' ']
  isSpace_gap depth c hc := by
    rcases List.mem_cons.mp hc with rfl | hc
    · rfl
    · rw [List.eq_of_mem_replicate hc]
      rfl
  isSpace_colon := List.forall_mem_singleton.mpr rfl

/-- All on one line. -/
def Layout.line : Layout where
  gap _ := []
  colon := []
  isSpace_gap _ := List.forall_mem_nil _
  isSpace_colon := List.forall_mem_nil _

namespace Layout

variable (l : Layout)

mutual

/-- **The text of a value in a layout**; `depth` is that of the line it starts on. -/
def lay (depth : Nat) : Json → List Char
  | .null => "null".toList
  | .bool true => "true".toList
  | .bool false => "false".toList
  | .number n => n.print
  | .text s => quote s
  | .array [] => ['[', ']']
  | .array (v :: r) =>
    '[' :: (l.gap (depth + 1) ++ (lay (depth + 1) v ++ (moreItems (depth + 1) r ++
      (l.gap depth ++ [']']))))
  | .object [] => ['\x7b', '\x7d']
  | .object ((k, v) :: r) =>
    '\x7b' :: (l.gap (depth + 1) ++ (quote k ++ ':' :: (l.colon ++ (lay (depth + 1) v ++
      (moreFields (depth + 1) r ++ (l.gap depth ++ ['\x7d']))))))

/-- Items, each behind a comma. -/
def moreItems (depth : Nat) : List Json → List Char
  | [] => []
  | v :: r => ',' :: (l.gap depth ++ (lay depth v ++ moreItems depth r))

/-- Fields, each behind a comma. -/
def moreFields (depth : Nat) : List (String × Json) → List Char
  | [] => []
  | (k, v) :: r =>
    ',' :: (l.gap depth ++ (quote k ++ ':' :: (l.colon ++ (lay depth v ++ moreFields depth r))))

end

/-- All items. -/
def items (depth : Nat) : List Json → List Char
  | [] => []
  | v :: r => l.gap depth ++ (l.lay depth v ++ l.moreItems depth r)

/-- All fields. -/
def fields (depth : Nat) : List (String × Json) → List Char
  | [] => []
  | (k, v) :: r =>
    l.gap depth ++ (quote k ++ ':' :: (l.colon ++ (l.lay depth v ++ l.moreFields depth r)))

end Layout

/-! ### Pages and lines -/

mutual

/-- **A page is a layout.** -/
theorem pretty_eq (depth : Nat) (v : Json) : pretty depth v = Layout.page.lay depth v := by
  match v with
  | .null | .bool true | .bool false | .number _ | .text _ | .array [] | .object [] => rfl
  | .array (w :: r) =>
    rw [pretty, prettyItems_eq (depth + 1) (w :: r), Layout.lay, Layout.items]
    · simp [Layout.page]
    · exact List.cons_ne_nil w r
  | .object (x :: r) =>
    rw [pretty, prettyFields_eq (depth + 1) (x :: r), Layout.lay, Layout.fields]
    · simp [Layout.page]
    · exact List.cons_ne_nil x r

theorem prettyItems_eq (depth : Nat) (items : List Json) :
    prettyItems depth items = Layout.page.items depth items := by
  match items with
  | [] => rfl
  | [v] => simp [prettyItems, pretty_eq depth v, Layout.items, Layout.moreItems, Layout.page]
  | v :: w :: r =>
    rw [prettyItems, pretty_eq depth v, prettyItems_eq depth (w :: r), Layout.items,
      Layout.items, Layout.moreItems]
    · simp [Layout.page]
    · exact List.cons_ne_nil w r

theorem prettyFields_eq (depth : Nat) (fields : List (String × Json)) :
    prettyFields depth fields = Layout.page.fields depth fields := by
  match fields with
  | [] => rfl
  | [(k, v)] =>
    simp [prettyFields, pretty_eq depth v, Layout.fields, Layout.moreFields, Layout.page]
  | (k, v) :: (j, w) :: r =>
    rw [prettyFields, pretty_eq depth v, prettyFields_eq depth ((j, w) :: r), Layout.fields,
      Layout.fields, Layout.moreFields]
    · simp [Layout.page]
    · exact List.cons_ne_nil (j, w) r

end

mutual

/-- **A line is a layout.** -/
theorem compact_eq (depth : Nat) (v : Json) : compact v = Layout.line.lay depth v := by
  match v with
  | .null | .bool true | .bool false | .number _ | .text _ | .array [] | .object [] => rfl
  | .array (w :: r) =>
    rw [compact, compactItems_eq (depth + 1) (w :: r), Layout.lay, Layout.items]
    simp [Layout.line]
  | .object (x :: r) =>
    rw [compact, compactFields_eq (depth + 1) (x :: r), Layout.lay, Layout.fields]
    simp [Layout.line]

theorem compactItems_eq (depth : Nat) (items : List Json) :
    compactItems items = Layout.line.items depth items := by
  match items with
  | [] => rfl
  | [v] => simp [compactItems, compact_eq depth v, Layout.items, Layout.moreItems, Layout.line]
  | v :: w :: r =>
    rw [compactItems, compact_eq depth v, compactItems_eq depth (w :: r), Layout.items,
      Layout.items, Layout.moreItems]
    · simp [Layout.line]
    · exact List.cons_ne_nil w r

theorem compactFields_eq (depth : Nat) (fields : List (String × Json)) :
    compactFields fields = Layout.line.fields depth fields := by
  match fields with
  | [] => rfl
  | [(k, v)] =>
    simp [compactFields, compact_eq depth v, Layout.fields, Layout.moreFields, Layout.line]
  | (k, v) :: (j, w) :: r =>
    rw [compactFields, compact_eq depth v, compactFields_eq depth ((j, w) :: r), Layout.fields,
      Layout.fields, Layout.moreFields]
    · simp [Layout.line]
    · exact List.cons_ne_nil (j, w) r

end

/-! ### Leaves -/

/-- What a value starts with. -/
def Opens (s : List Char) : Prop :=
  ∃ c r, s = c :: r ∧ isSpace c = false ∧ c ≠ ']'

theorem Opens.append (h : Opens s) (t : List Char) : Opens (s ++ t) := by
  obtain ⟨c, r, rfl, hc, hne⟩ := h
  exact ⟨c, r ++ t, rfl, hc, hne⟩

theorem Opens.skipSpaces (h : Opens s) : Json.skipSpaces s = s := by
  obtain ⟨c, r, rfl, hc, -⟩ := h
  exact skipSpaces_cons hc r

/-- A number starts with a digit or a minus sign. -/
theorem Number.exists_cons_print (n : Number) :
    ∃ c r, n.print = c :: r ∧ (c = '-' ∨ isDigit c = true) := by
  obtain ⟨negative, body, hprint, hshape⟩ := n.exists_print
  rw [hprint]
  cases negative with
  | true => exact ⟨'-', body, rfl, .inl rfl⟩
  | false =>
    obtain ⟨c, r, rfl, hc⟩ := exists_cons_of_isMagnitude hshape
    exact ⟨c, r, rfl, .inr hc⟩

theorem isSpace_of_isDigit {c : Char} (h : isDigit c = true) : isSpace c = false := by
  simp only [isSpace, Bool.or_eq_false_iff, beq_eq_false_iff_ne]
  refine ⟨⟨⟨?_, ?_⟩, ?_⟩, ?_⟩ <;> rintro rfl <;> cases h

theorem readNode_number {c : Char} (hc : c = '-' ∨ isDigit c = true) (n : Nat) (r : List Char) :
    readNode (n + 1) (c :: r) = match Number.read (c :: r) with
      | .number v rest => (.number v, rest)
      | .broken b => Node.stop b := by
  have hspace : isSpace c = false := by
    rcases hc with rfl | hc
    · rfl
    · exact isSpace_of_isDigit hc
  have hread : Number.read (c :: r) = if c = '-' then readNumber true r
      else if isDigit c then readNumber false (c :: r) else .broken (.alike .malformed) := by
    by_cases hminus : c = '-'
    · rw [if_pos hminus, hminus]
      rfl
    · have hdigit := hc.resolve_left hminus
      rw [if_neg hminus, if_pos hdigit, Number.read_of_isDigit hdigit]
  rw [readNode, skipSpaces_cons hspace, hread]
  have hother : ∀ d, d ≠ '-' → isDigit d = false → c ≠ d := by
    rintro d hd hdigit rfl
    rcases hc with hc | hc
    · exact hd hc
    · rw [hdigit] at hc
      cases hc
  split <;> rename_i heq
  all_goals cases heq
  case h_8 => rfl
  all_goals exact absurd rfl (hother _ (by decide) (by decide))

theorem readNode_text (t : String) {n : Nat} (rest : List Char) :
    readNode (n + 1) (quote t ++ rest) = (.text (.ok t), rest) := by
  have hread := readText_quote t (n := (t.toList.flatMap escapeChar ++ '"' :: rest).length + 1)
    (by
      have := length_le_flatMap_escapeChar t.toList
      rw [List.length_append]
      omega) rest
  have hquote : quote t ++ rest = '"' :: (t.toList.flatMap escapeChar ++ '"' :: rest) := by
    simp [quote]
  rw [hquote, readNode, skipSpaces_cons rfl]
  simp only [hread]

/-! ### Containers -/

theorem readNode_array {q : List Char} (hs : skipSpaces s = q) (ho : Opens q) (n : Nat) :
    readNode (n + 1) ('[' :: s) = (.array (readItems n q).1, (readItems n q).2) := by
  obtain ⟨c, r, rfl, -, hc⟩ := ho
  rw [readNode, skipSpaces_cons rfl]
  simp only [hs]
  split
  · next heq => exact absurd (List.cons_eq_cons.mp heq).1 hc
  · next heq => cases heq
  · rfl

theorem readNode_object {r : List Char} (hs : skipSpaces s = '"' :: r) (n : Nat) :
    readNode (n + 1) ('\x7b' :: s) =
      (.object (readFields n ('"' :: r)).1, (readFields n ('"' :: r)).2) := by
  rw [readNode, skipSpaces_cons rfl]
  simp only [hs]

variable {n : Nat} {v : Node} {r : List Char}

/-- An item that a bracket follows is the last one. -/
theorem readItems_last (hv : readNode n s = (v, rest)) (hs : skipSpaces rest = ']' :: r) :
    readItems (n + 1) s = (.item v .closed, r) := by
  simp only [readItems, hv, hs]

/-- An item that a comma follows is not. -/
theorem readItems_comma (hv : readNode n s = (v, rest)) (hs : skipSpaces rest = ',' :: r)
    (ho : Opens (skipSpaces r)) : readItems (n + 1) s =
      (.item v (readItems n (skipSpaces r)).1, (readItems n (skipSpaces r)).2) := by
  simp only [readItems, hv, hs]
  obtain ⟨c, t, ht, -, hne⟩ := ho
  rw [ht]
  split
  · next heq => exact absurd (List.cons_eq_cons.mp heq).1 hne
  · rfl

theorem readText_key (k : String) (t : List Char) :
    readText (quote k ++ ':' :: t).length (.ok []) ((quote k ++ ':' :: t).drop 1) =
      ⟨.ok k, .ok (':' :: t)⟩ := by
  have hquote : quote k ++ ':' :: t = '"' :: (k.toList.flatMap escapeChar ++ '"' :: ':' :: t) := by
    simp [quote]
  rw [hquote]
  refine readText_quote k ?_ (':' :: t)
  have := length_le_flatMap_escapeChar k.toList
  simp only [List.length_cons, List.length_append]
  omega

/-- A field that a bracket follows is the last one. -/
theorem readFields_last {k : String} {t : List Char} (hv : readNode n t = (v, rest))
    (hs : skipSpaces rest = '\x7d' :: r) :
    readFields (n + 1) (quote k ++ ':' :: t) = (.field (.ok k) v .closed, r) := by
  simp only [readFields, readText_key, skipSpaces_cons (show isSpace ':' = false from rfl), hv, hs]

/-- A field that a comma follows is not. -/
theorem readFields_comma {k : String} {t q : List Char} {f : Fields × List Char}
    (hv : readNode n t = (v, rest)) (hs : skipSpaces rest = ',' :: r)
    (hq : skipSpaces r = '"' :: q) (hf : readFields n ('"' :: q) = f) :
    readFields (n + 1) (quote k ++ ':' :: t) = (.field (.ok k) v f.1, f.2) := by
  simp only [readFields, readText_key, skipSpaces_cons (show isSpace ':' = false from rfl), hv, hs,
    hq, hf]

/-! ### Values -/

namespace Layout

variable (l : Layout)

theorem opens_lay (depth : Nat) (v : Json) : Opens (l.lay depth v) := by
  cases v with
  | null => exact ⟨'n', _, rfl, rfl, by decide⟩
  | bool b =>
    cases b with
    | true => exact ⟨'t', _, rfl, rfl, by decide⟩
    | false => exact ⟨'f', _, rfl, rfl, by decide⟩
  | number n =>
    obtain ⟨c, r, hcons, hc⟩ := n.exists_cons_print
    refine ⟨c, r, by rw [lay, hcons], ?_, ?_⟩
    · rcases hc with rfl | hc
      · rfl
      · exact isSpace_of_isDigit hc
    · rintro rfl
      rcases hc with hc | hc <;> cases hc
  | text t => exact ⟨'"', _, by rw [lay, quote]; rfl, rfl, by decide⟩
  | array items => cases items <;> exact ⟨'[', _, by rw [lay], rfl, by decide⟩
  | object fields => cases fields <;> exact ⟨'\x7b', _, by rw [lay], rfl, by decide⟩

theorem skipSpaces_gap (depth : Nat) (s : List Char) :
    skipSpaces (l.gap depth ++ s) = skipSpaces s :=
  skipSpaces_append (l.isSpace_gap depth) s

/-- What stands in front of an item is passed over. -/
theorem skipSpaces_lay (depth at' : Nat) (v : Json) (s : List Char) :
    skipSpaces (l.gap at' ++ (l.lay depth v ++ s)) = l.lay depth v ++ s := by
  rw [skipSpaces_gap, ((l.opens_lay depth v).append s).skipSpaces]

/-- No number goes on over spaces. -/
theorem delimited_gap (depth : Nat) (h : Delimited s) : Delimited (l.gap depth ++ s) := by
  intro c hc
  cases hgap : l.gap depth with
  | nil =>
    rw [hgap] at hc
    exact h c hc
  | cons d r =>
    rw [hgap] at hc
    obtain rfl := Option.some.inj hc
    have hspace := l.isSpace_gap depth d (by rw [hgap]; exact List.mem_cons_self)
    simp only [isSpace, Bool.or_eq_true, beq_iff_eq] at hspace
    rcases hspace with ((rfl | rfl) | rfl) | rfl <;> decide

mutual

/-- **A value is read back as its mirror image**, and what stands behind it is left. -/
theorem readNode_lay (v : Json) (depth n : Nat) (hn : 2 * (l.lay depth v).length ≤ n)
    (rest : List Char) (hr : Delimited rest) :
    readNode n (l.lay depth v ++ rest) = (mirror v, rest) := by
  obtain ⟨c, r, hcons, -, -⟩ := l.opens_lay depth v
  -- Two steps are allowed for each character: one for the value, one for its place in a list.
  obtain ⟨n, rfl⟩ : ∃ k, n = k + 1 := ⟨n - 1, by rw [hcons, List.length_cons] at hn; omega⟩
  match v with
  | .null | .bool true | .bool false => rfl
  | .number x =>
    obtain ⟨c, r, hx, hc⟩ := x.exists_cons_print
    have hread := x.read_print hr
    rw [hx] at hread
    rw [lay, hx, List.cons_append, readNode_number hc, ← List.cons_append, hread]
    rfl
  | .text t =>
    rw [lay, readNode_text]
    rfl
  | .array [] | .object [] => rfl
  | .array (w :: items) =>
    have htext : l.lay depth (.array (w :: items)) ++ rest =
        '[' :: (l.gap (depth + 1) ++ (l.lay (depth + 1) w ++ (l.moreItems (depth + 1) items ++
          (l.gap depth ++ ']' :: rest)))) := by
      simp [lay]
    have hlen : 2 * (l.lay (depth + 1) w ++ l.moreItems (depth + 1) items).length + 1 ≤ n := by
      have := congrArg List.length htext
      simp only [List.length_append, List.length_cons] at this ⊢
      omega
    have hs := l.skipSpaces_lay (depth + 1) (depth + 1) w
      (l.moreItems (depth + 1) items ++ (l.gap depth ++ ']' :: rest))
    have hitems := readItems_lay w items (depth + 1) depth n hlen rest
    rw [htext, readNode_array hs ((l.opens_lay (depth + 1) w).append _), hitems]
    rfl
  | .object ((k, w) :: fields) =>
    have htext : l.lay depth (.object ((k, w) :: fields)) ++ rest =
        '\x7b' :: (l.gap (depth + 1) ++ (quote k ++ ':' :: (l.colon ++ (l.lay (depth + 1) w ++
          (l.moreFields (depth + 1) fields ++ (l.gap depth ++ '\x7d' :: rest)))))) := by
      simp [lay]
    have hlen : 2 * (l.lay (depth + 1) w ++ l.moreFields (depth + 1) fields).length + 1 ≤ n := by
      have := congrArg List.length htext
      simp only [List.length_append, List.length_cons] at this ⊢
      omega
    have hfields := readFields_lay k w fields (depth + 1) depth n hlen rest
    rw [quote, List.cons_append, List.cons_append] at hfields
    rw [htext, quote, List.cons_append, List.cons_append, readNode_object, hfields]
    · rfl
    · rw [skipSpaces_gap, skipSpaces_cons rfl]
termination_by n

/-- Items are read back one by one, up to the bracket that closes them. -/
theorem readItems_lay (v : Json) (items : List Json) (depth close n : Nat)
    (hn : 2 * (l.lay depth v ++ l.moreItems depth items).length + 1 ≤ n) (rest : List Char) :
    readItems n (l.lay depth v ++ (l.moreItems depth items ++ (l.gap close ++ ']' :: rest))) =
      (mirrorItems (v :: items), rest) := by
  obtain ⟨n, rfl⟩ : ∃ k, n = k + 1 := ⟨n - 1, by omega⟩
  rw [List.length_append] at hn
  match items with
  | [] =>
    have hv := readNode_lay v depth n (by omega) (l.gap close ++ ']' :: rest)
      (l.delimited_gap close (delimited_cons (by decide)))
    refine readItems_last hv ?_
    rw [skipSpaces_gap, skipSpaces_cons rfl]
  | w :: items =>
    simp only [moreItems, List.length_append, List.length_cons] at hn
    have hv := readNode_lay v depth n (by omega)
      (l.moreItems depth (w :: items) ++ (l.gap close ++ ']' :: rest))
      (delimited_cons (by decide))
    have hrest := readItems_lay w items depth close n
      (by rw [List.length_append]; omega) rest
    have hs := l.skipSpaces_lay depth depth w
      (l.moreItems depth items ++ (l.gap close ++ ']' :: rest))
    have hmore : l.moreItems depth (w :: items) ++ (l.gap close ++ ']' :: rest) =
        ',' :: (l.gap depth ++ (l.lay depth w ++ (l.moreItems depth items ++
          (l.gap close ++ ']' :: rest)))) := by
      simp [moreItems]
    rw [hmore] at hv ⊢
    rw [readItems_comma hv (skipSpaces_cons rfl _), hs, hrest]
    · rfl
    · rw [hs]
      exact (l.opens_lay depth w).append _
termination_by n

/-- Fields are read back one by one, up to the bracket that closes them. -/
theorem readFields_lay (k : String) (v : Json) (fields : List (String × Json))
    (depth close n : Nat) (hn : 2 * (l.lay depth v ++ l.moreFields depth fields).length + 1 ≤ n)
    (rest : List Char) :
    readFields n (quote k ++ ':' :: (l.colon ++ (l.lay depth v ++ (l.moreFields depth fields ++
        (l.gap close ++ '\x7d' :: rest))))) = (mirrorFields ((k, v) :: fields), rest) := by
  obtain ⟨n, rfl⟩ : ∃ k, n = k + 1 := ⟨n - 1, by omega⟩
  rw [List.length_append] at hn
  match fields with
  | [] =>
    have hv := readNode_lay v depth n (by omega) (l.gap close ++ '\x7d' :: rest)
      (l.delimited_gap close (delimited_cons (by decide)))
    rw [← readNode_spaces l.isSpace_colon] at hv
    refine readFields_last hv ?_
    rw [skipSpaces_gap, skipSpaces_cons rfl]
  | (j, w) :: fields =>
    simp only [moreFields, List.length_append, List.length_cons] at hn
    have hv := readNode_lay v depth n (by omega)
      (l.moreFields depth ((j, w) :: fields) ++ (l.gap close ++ '\x7d' :: rest))
      (delimited_cons (by decide))
    have hrest := readFields_lay j w fields depth close n
      (by rw [List.length_append]; omega) rest
    have hmore : l.moreFields depth ((j, w) :: fields) ++ (l.gap close ++ '\x7d' :: rest) =
        ',' :: (l.gap depth ++ (quote j ++ ':' :: (l.colon ++ (l.lay depth w ++
          (l.moreFields depth fields ++ (l.gap close ++ '\x7d' :: rest)))))) := by
      simp [moreFields]
    rw [← readNode_spaces l.isSpace_colon, hmore] at hv
    rw [hmore, readFields_comma hv (skipSpaces_cons rfl _) (l.skipSpaces_gap depth _) hrest]
    rfl
termination_by n

end

/-- **A text is read through**, however it is laid out. -/
theorem document_lay (v : Json) : document (l.lay 0 v) = (mirror v, false) := by
  have hread := l.readNode_lay v 0 (2 * (l.lay 0 v).length + 2) (by omega) []
    (fun c hc => by cases hc)
  rw [List.append_nil] at hread
  rw [document, hread]
  rfl

end Layout

theorem decode_of_document {α : Type} (d : Decoder α) {v : Json} {text : String}
    (h : document text.toList = (mirror v, false)) : decode d text = d .top (mirror v) := by
  rw [decode, h]
  dsimp only
  cases d .top (mirror v) <;> rfl

/-- **What a decoder makes of a page is what it makes of the mirror image of its value.** -/
theorem decode_page {α : Type} (d : Decoder α) (v : Json) :
    decode d v.page = d .top (mirror v) :=
  decode_of_document d (by rw [page, String.toList_ofList, pretty_eq, Layout.document_lay])

/-- **What a decoder makes of a line is what it makes of the mirror image of its value.** -/
theorem decode_line {α : Type} (d : Decoder α) (v : Json) :
    decode d v.line = d .top (mirror v) :=
  decode_of_document d (by rw [line, String.toList_ofList, compact_eq 0, Layout.document_lay])

end Json

end Roundtable
