import Interchain.Proofs.Fields.Arranged
import Interchain.Proofs.Json.Numeral
import Interchain.Proofs.Json.Quoted

/-! # Reading a written tree

A tree of plain data has safe whole numbers and arranged fields. Its text is read back as the tree
itself (`parse?_text`). The text of a value is read off the front of any text that closes behind it
(`value?_text`), and the induction goes through the elements and members of containers in the same
way. The fuel that is left always covers twice the text that is still to be read: a container uses
one unit for its bracket and one for each element, and each element has a comma or a bracket of its
own.
-/

namespace Interchain.Json

mutual

/-- A tree with safe whole numbers and arranged fields. -/
def Plain : Json → Prop
  | .number x => ∃ n, Number.isSafe n = true ∧ x = .ofInt n
  | .array items => PlainItems items
  | .object fields => Fields.Arranged fields ∧ PlainFields fields
  | .null | .bool _ | .string _ => True

def PlainItems : List Json → Prop
  | [] => True
  | item :: rest => Plain item ∧ PlainItems rest

def PlainFields : List (Text × Json) → Prop
  | [] => True
  | (_, value) :: rest => Plain value ∧ PlainFields rest

end

/-! ### The first unit of a text -/

/-- A unit that can begin a value, unlike a blank and the end of a container. -/
def Begins (u : UInt16) : Prop :=
  isBlank u = false ∧ u ≠ Text.unit ']' ∧ u ≠ Text.unit '}'

/-- A unit that begins neither a string nor a container. -/
def BeginsScalar (u : UInt16) : Prop :=
  isBlank u = false ∧ u ≠ quoteMark ∧ u ≠ Text.unit '[' ∧ u ≠ Text.unit '{'

instance (u : UInt16) : Decidable (Begins u) := inferInstanceAs (Decidable (_ ∧ _))

instance (u : UInt16) : Decidable (BeginsScalar u) := inferInstanceAs (Decidable (_ ∧ _))

section FirstUnit

variable {u w : UInt16} {rest : Text}

theorem skipBlanks_cons (h : isBlank u = false) : skipBlanks (u :: rest) = u :: rest := by
  unfold skipBlanks
  rw [List.dropWhile_cons_of_neg (by simp [h])]

theorem ne_of_beginsNumber (h : BeginsNumber u) (hw : ¬BeginsNumber w) : u ≠ w := by
  rintro rfl
  exact hw h

theorem not_isBlank_of_beginsNumber (h : BeginsNumber u) : isBlank u = false := by
  rw [Bool.eq_false_iff]
  intro hblank
  simp only [isBlank, Bool.or_eq_true, decide_eq_true_eq] at hblank
  rcases hblank with ((hu | hu) | hu) | hu <;> exact ne_of_beginsNumber h (by decide) hu

theorem beginsScalar_of_beginsNumber (h : BeginsNumber u) : BeginsScalar u := by
  refine ⟨not_isBlank_of_beginsNumber h, ?_, ?_, ?_⟩ <;> exact ne_of_beginsNumber h (by decide)

theorem begins_of_beginsNumber (h : BeginsNumber u) : Begins u := by
  refine ⟨not_isBlank_of_beginsNumber h, ?_, ?_⟩ <;> exact ne_of_beginsNumber h (by decide)

theorem text_begins {j : Json} (h : j.Plain) : ∃ u after, j.text = u :: after ∧ Begins u := by
  cases j with
  | null => exact ⟨_, _, rfl, by decide⟩
  | bool b => cases b <;> exact ⟨_, _, rfl, by decide⟩
  | number x =>
    obtain ⟨n, hn, rfl⟩ := h
    obtain ⟨u, after, hu, hfirst⟩ := head_text_ofInt hn
    exact ⟨u, after, by rw [text, hu], begins_of_beginsNumber hfirst⟩
  | string t => exact ⟨quoteMark, _, by rw [text, quoted]; rfl, by decide⟩
  | array items => exact ⟨Text.unit '[', _, by rw [text]; rfl, by decide⟩
  | object fields => exact ⟨Text.unit '{', _, by rw [text]; rfl, by decide⟩

end FirstUnit

/-! ### Scalars -/

section Scalars

variable {fuel : Nat} {u w : UInt16} {rest : Text}

theorem skipWord?_append (word rest : Text) : skipWord? word (word ++ rest) = some rest := by
  unfold skipWord?
  simp

theorem skipWord?_of_ne (word : Text) (h : u ≠ w) : skipWord? (w :: word) (u :: rest) = none := by
  unfold skipWord?
  simp [List.isPrefixOf, Ne.symm h]

theorem value?_of_beginsScalar (h : BeginsScalar u) :
    value? (fuel + 1) (u :: rest) = scalar? (u :: rest) := by
  obtain ⟨hblank, hquote, hbracket, hbrace⟩ := h
  rw [value?, skipBlanks_cons hblank]
  simp only [if_neg hquote, if_neg hbracket, if_neg hbrace]

theorem value?_null (fuel : Nat) (rest : Text) :
    value? (fuel + 1) (Text.ofString "null" ++ rest) = some (.null, rest) := by
  have hscalar : value? (fuel + 1) (Text.ofString "null" ++ rest) =
      scalar? (Text.ofString "null" ++ rest) :=
    value?_of_beginsScalar (u := Text.unit 'n') (by decide)
  rw [hscalar, scalar?, skipWord?_append]

theorem value?_bool (fuel : Nat) (b : Bool) (rest : Text) :
    value? (fuel + 1) (Text.ofString (if b then "true" else "false") ++ rest) =
      some (.bool b, rest) := by
  cases b with
  | true =>
    have hscalar : value? (fuel + 1) (Text.ofString "true" ++ rest) =
        scalar? (Text.ofString "true" ++ rest) :=
      value?_of_beginsScalar (u := Text.unit 't') (by decide)
    have hnull : skipWord? (Text.ofString "null") (Text.ofString "true" ++ rest) = none :=
      skipWord?_of_ne (u := Text.unit 't') _ (by decide)
    show value? (fuel + 1) (Text.ofString "true" ++ rest) = _
    rw [hscalar, scalar?, hnull, skipWord?_append]
  | false =>
    have hscalar : value? (fuel + 1) (Text.ofString "false" ++ rest) =
        scalar? (Text.ofString "false" ++ rest) :=
      value?_of_beginsScalar (u := Text.unit 'f') (by decide)
    have hnull : skipWord? (Text.ofString "null") (Text.ofString "false" ++ rest) = none :=
      skipWord?_of_ne (u := Text.unit 'f') _ (by decide)
    have htrue : skipWord? (Text.ofString "true") (Text.ofString "false" ++ rest) = none :=
      skipWord?_of_ne (u := Text.unit 'f') _ (by decide)
    show value? (fuel + 1) (Text.ofString "false" ++ rest) = _
    rw [hscalar, scalar?, hnull, htrue, skipWord?_append]

theorem scalar?_of_beginsNumber (h : BeginsNumber u) :
    scalar? (u :: rest) = (number? (u :: rest)).map fun p => (.number p.1, p.2) := by
  have hnull : skipWord? (Text.ofString "null") (u :: rest) = none :=
    skipWord?_of_ne _ (ne_of_beginsNumber h (by decide))
  have htrue : skipWord? (Text.ofString "true") (u :: rest) = none :=
    skipWord?_of_ne _ (ne_of_beginsNumber h (by decide))
  have hfalse : skipWord? (Text.ofString "false") (u :: rest) = none :=
    skipWord?_of_ne _ (ne_of_beginsNumber h (by decide))
  rw [scalar?, hnull, htrue, hfalse]

theorem value?_number (fuel : Nat) {n : Int} (hn : Number.isSafe n = true) (h : Closes rest) :
    value? (fuel + 1) ((Number.ofInt n).text ++ rest) = some (.number (.ofInt n), rest) := by
  have hread := number?_text hn h
  obtain ⟨u, after, hu, hfirst⟩ := head_text_ofInt hn
  rw [hu, List.cons_append] at hread ⊢
  rw [value?_of_beginsScalar (beginsScalar_of_beginsNumber hfirst),
    scalar?_of_beginsNumber hfirst, hread]
  rfl

theorem quoted_append (t rest : Text) :
    quoted t ++ rest = quoteMark :: (writtenUnits t ++ quoteMark :: rest) := by
  simp [quoted]

theorem value?_string (fuel : Nat) (t rest : Text) :
    value? (fuel + 1) (quoted t ++ rest) = some (.string t, rest) := by
  have hblank : isBlank quoteMark = false := by decide
  rw [quoted_append, value?, skipBlanks_cons hblank]
  simp only [if_true, string?_writtenUnits]
  rfl

end Scalars

/-! ### Containers, one element at a time -/

section Containers

variable {fuel : Nat} {u : UInt16} {t after rest : Text} {item value : Json} {items : List Json}
  {pairs : List (Text × Json)}

theorem value?_array_nil (fuel : Nat) (rest : Text) :
    value? (fuel + 1) (Text.unit '[' :: Text.unit ']' :: rest) = some (.array [], rest) := by
  rw [value?, skipBlanks_cons (by decide)]
  simp only [if_neg (show Text.unit '[' ≠ quoteMark by decide), if_true,
    skipBlanks_cons (show isBlank (Text.unit ']') = false by decide)]

theorem value?_array (hu : Begins u) (h : items? fuel (u :: after) = some (items, rest)) :
    value? (fuel + 1) (Text.unit '[' :: u :: after) = some (.array items, rest) := by
  obtain ⟨hblank, hbracket, -⟩ := hu
  rw [value?, skipBlanks_cons (by decide)]
  simp only [if_neg (show Text.unit '[' ≠ quoteMark by decide), if_true, skipBlanks_cons hblank,
    if_neg hbracket, h]
  rfl

theorem value?_object_nil (fuel : Nat) (rest : Text) :
    value? (fuel + 1) (Text.unit '{' :: Text.unit '}' :: rest) = some (.object [], rest) := by
  rw [value?, skipBlanks_cons (by decide)]
  simp only [if_neg (show Text.unit '{' ≠ quoteMark by decide),
    if_neg (show Text.unit '{' ≠ Text.unit '[' by decide), if_true,
    skipBlanks_cons (show isBlank (Text.unit '}') = false by decide)]

theorem value?_object (hu : Begins u) (h : pairs? fuel (u :: after) = some (pairs, rest)) :
    value? (fuel + 1) (Text.unit '{' :: u :: after) =
      some (.object (Fields.ofPairs pairs), rest) := by
  obtain ⟨hblank, -, hbrace⟩ := hu
  rw [value?, skipBlanks_cons (by decide)]
  simp only [if_neg (show Text.unit '{' ≠ quoteMark by decide),
    if_neg (show Text.unit '{' ≠ Text.unit '[' by decide), if_true, skipBlanks_cons hblank,
    if_neg hbrace, h]
  rfl

theorem items?_last (h : value? fuel t = some (item, Text.unit ']' :: rest)) :
    items? (fuel + 1) t = some ([item], rest) := by
  rw [items?, h]
  simp [skipBlanks_cons (show isBlank (Text.unit ']') = false by decide)]

theorem items?_more (h : value? fuel t = some (item, Text.unit ',' :: after))
    (hafter : items? fuel after = some (items, rest)) :
    items? (fuel + 1) t = some (item :: items, rest) := by
  have hne : Text.unit ',' ≠ Text.unit ']' := by decide
  rw [items?, h]
  simp [skipBlanks_cons (show isBlank (Text.unit ',') = false by decide), hne, hafter]

/-- A member begins with its key and a colon. -/
theorem member_in_front (key t : Text) :
    skipWord? [quoteMark] (skipBlanks (quoted key ++ Text.unit ':' :: t)) =
        some (writtenUnits key ++ quoteMark :: Text.unit ':' :: t) ∧
      string? (writtenUnits key ++ quoteMark :: Text.unit ':' :: t) =
        some (key, Text.unit ':' :: t) ∧
      skipWord? [Text.unit ':'] (skipBlanks (Text.unit ':' :: t)) = some t := by
  refine ⟨?_, string?_writtenUnits key _, ?_⟩
  · rw [quoted_append, skipBlanks_cons (by decide)]
    exact skipWord?_append [quoteMark] _
  · rw [skipBlanks_cons (by decide)]
    exact skipWord?_append [Text.unit ':'] _

theorem pairs?_last (key : Text) (h : value? fuel t = some (value, Text.unit '}' :: rest)) :
    pairs? (fuel + 1) (quoted key ++ Text.unit ':' :: t) = some ([(key, value)], rest) := by
  obtain ⟨hquote, hkey, hcolon⟩ := member_in_front key t
  rw [pairs?, hquote]
  simp [hkey, hcolon, h, skipBlanks_cons (show isBlank (Text.unit '}') = false by decide)]

theorem pairs?_more (key : Text) (h : value? fuel t = some (value, Text.unit ',' :: after))
    (hafter : pairs? fuel after = some (pairs, rest)) :
    pairs? (fuel + 1) (quoted key ++ Text.unit ':' :: t) = some ((key, value) :: pairs, rest) := by
  have hne : Text.unit ',' ≠ Text.unit '}' := by decide
  obtain ⟨hquote, hkey, hcolon⟩ := member_in_front key t
  rw [pairs?, hquote]
  simp [hkey, hcolon, h, skipBlanks_cons (show isBlank (Text.unit ',') = false by decide), hne,
    hafter]

end Containers

/-! ### Whole trees -/

section Trees

variable {rest : Text}

theorem closes_comma (t : Text) : Closes (Text.unit ',' :: t) := closes_cons (Or.inl rfl)

theorem closes_bracket (t : Text) : Closes (Text.unit ']' :: t) := closes_cons (Or.inr (Or.inl rfl))

theorem closes_brace (t : Text) : Closes (Text.unit '}' :: t) := closes_cons (Or.inr (Or.inr rfl))

theorem array_append (items : List Json) (rest : Text) :
    (Json.array items).text ++ rest =
      Text.unit '[' :: (Text.join comma (itemTexts items) ++ Text.unit ']' :: rest) := by
  simp [text]

theorem object_append (fields : List (Text × Json)) (rest : Text) :
    (Json.object fields).text ++ rest =
      Text.unit '{' :: (Text.join comma (fieldTexts fields) ++ Text.unit '}' :: rest) := by
  simp [text]

theorem length_text_pos {j : Json} (h : j.Plain) : 0 < j.text.length := by
  obtain ⟨u, after, hu, -⟩ := text_begins h
  rw [hu]
  exact Nat.succ_pos _

/-- The texts of elements begin as the text of the first does. -/
theorem join_begins (parts : List Text) {t : Text} (h : ∃ u after, t = u :: after ∧ Begins u) :
    ∃ u after, Text.join comma (t :: parts) = u :: after ∧ Begins u := by
  obtain ⟨u, after, rfl, hu⟩ := h
  unfold Text.join
  rw [List.intercalate_cons_cons_left]
  exact ⟨u, _, rfl, hu⟩

theorem join_cons_cons (t next : Text) (parts : List Text) :
    Text.join comma (t :: next :: parts) =
      t ++ Text.unit ',' :: Text.join comma (next :: parts) := by
  unfold Text.join
  rw [List.intercalate_cons_cons, List.append_assoc]
  rfl

mutual

/-- **The text of a value is read off the front of what closes behind it.** -/
theorem value?_text : ∀ (j : Json) (fuel : Nat) (rest : Text), j.Plain → Closes rest →
    2 * j.text.length ≤ fuel → value? fuel (j.text ++ rest) = some (j, rest)
  | j, 0, rest, hj, _, hfuel => by
    have := length_text_pos hj
    omega
  | .null, fuel + 1, rest, _, _, _ => by
    rw [text]
    exact value?_null fuel rest
  | .bool b, fuel + 1, rest, _, _, _ => by
    rw [text]
    exact value?_bool fuel b rest
  | .number x, fuel + 1, rest, hj, hrest, _ => by
    obtain ⟨n, hn, rfl⟩ := hj
    rw [text]
    exact value?_number fuel hn hrest
  | .string t, fuel + 1, rest, _, _, _ => by
    rw [text]
    exact value?_string fuel t rest
  | .array [], fuel + 1, rest, _, _, _ => by
    rw [text, itemTexts]
    exact value?_array_nil fuel rest
  | .array (item :: more), fuel + 1, rest, hj, _, hfuel => by
    have hlength : 2 * (Text.join comma (itemTexts (item :: more))).length + 1 ≤ fuel := by
      rw [text, List.length_append, List.length_cons, List.length_singleton] at hfuel
      omega
    have hitems := items?_texts (item :: more) fuel rest (List.cons_ne_nil _ _) hj hlength
    obtain ⟨u, after, hu, hbegins⟩ := join_begins (itemTexts more) (text_begins hj.1)
    rw [itemTexts, hu, List.cons_append] at hitems
    rw [array_append, itemTexts, hu]
    exact value?_array hbegins hitems
  | .object [], fuel + 1, rest, _, _, _ => by
    rw [text, fieldTexts]
    exact value?_object_nil fuel rest
  | .object ((key, value) :: more), fuel + 1, rest, hj, _, hfuel => by
    have hlength : 2 * (Text.join comma (fieldTexts ((key, value) :: more))).length + 1 ≤ fuel := by
      rw [text, List.length_append, List.length_cons, List.length_singleton] at hfuel
      omega
    have hpairs := pairs?_texts ((key, value) :: more) fuel rest (List.cons_ne_nil _ _) hj.2 hlength
    have hfirst : ∃ u after, quoted key ++ Text.unit ':' :: value.text = u :: after ∧ Begins u :=
      ⟨quoteMark, _, rfl, by decide⟩
    obtain ⟨u, after, hu, hbegins⟩ := join_begins (fieldTexts more) hfirst
    rw [fieldTexts, hu, List.cons_append] at hpairs
    rw [object_append, fieldTexts, hu]
    have hread := value?_object hbegins hpairs
    rw [Fields.ofPairs_of_arranged hj.1] at hread
    exact hread

theorem items?_texts : ∀ (items : List Json) (fuel : Nat) (rest : Text), items ≠ [] →
    PlainItems items → 2 * (Text.join comma (itemTexts items)).length + 1 ≤ fuel →
      items? fuel (Text.join comma (itemTexts items) ++ Text.unit ']' :: rest) = some (items, rest)
  | _, 0, _, _, _, hfuel => by omega
  | [], _, _, hne, _, _ => absurd rfl hne
  | [item], fuel + 1, rest, _, hitems, hfuel => by
    have hjoin : Text.join comma (itemTexts [item]) = item.text := List.intercalate_singleton
    rw [hjoin] at hfuel ⊢
    exact items?_last (value?_text item fuel _ hitems.1 (closes_bracket rest) (by omega))
  | item :: next :: more, fuel + 1, rest, _, hitems, hfuel => by
    have hjoin : Text.join comma (itemTexts (item :: next :: more)) =
        item.text ++ Text.unit ',' :: Text.join comma (itemTexts (next :: more)) :=
      join_cons_cons _ _ _
    rw [hjoin, List.length_append, List.length_cons] at hfuel
    rw [hjoin, List.append_assoc, List.cons_append]
    exact items?_more (value?_text item fuel _ hitems.1 (closes_comma _) (by omega))
      (items?_texts (next :: more) fuel rest (List.cons_ne_nil _ _) hitems.2 (by omega))

theorem pairs?_texts : ∀ (fields : List (Text × Json)) (fuel : Nat) (rest : Text), fields ≠ [] →
    PlainFields fields → 2 * (Text.join comma (fieldTexts fields)).length + 1 ≤ fuel →
      pairs? fuel (Text.join comma (fieldTexts fields) ++ Text.unit '}' :: rest) =
        some (fields, rest)
  | _, 0, _, _, _, hfuel => by omega
  | [], _, _, hne, _, _ => absurd rfl hne
  | [(key, value)], fuel + 1, rest, _, hfields, hfuel => by
    have hjoin : Text.join comma (fieldTexts [(key, value)]) =
        quoted key ++ Text.unit ':' :: value.text := List.intercalate_singleton
    rw [hjoin, List.length_append, List.length_cons] at hfuel
    rw [hjoin, List.append_assoc, List.cons_append]
    exact pairs?_last key (value?_text value fuel _ hfields.1 (closes_brace rest) (by omega))
  | (key, value) :: next :: more, fuel + 1, rest, _, hfields, hfuel => by
    have hjoin : Text.join comma (fieldTexts ((key, value) :: next :: more)) =
        quoted key ++ Text.unit ':' :: value.text ++
          Text.unit ',' :: Text.join comma (fieldTexts (next :: more)) :=
      join_cons_cons _ _ _
    rw [hjoin, List.length_append, List.length_append, List.length_cons, List.length_cons] at hfuel
    rw [hjoin, List.append_assoc, List.append_assoc, List.cons_append, List.cons_append]
    exact pairs?_more key (value?_text value fuel _ hfields.1 (closes_comma _) (by omega))
      (pairs?_texts (next :: more) fuel rest (List.cons_ne_nil _ _) hfields.2 (by omega))

end

/-- **A written tree is read back.** -/
theorem parse?_text {j : Json} (h : j.Plain) : parse? j.text = some j := by
  have hread := value?_text j (2 * j.text.length + 2) [] h closes_nil (Nat.le_add_right _ 2)
  rw [List.append_nil] at hread
  unfold parse?
  rw [hread]
  rfl

end Trees

end Interchain.Json
