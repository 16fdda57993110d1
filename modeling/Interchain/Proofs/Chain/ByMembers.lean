import Interchain.Chain.ByMembers
import Interchain.Proofs.Chain.Grammar

/-! # Reading member by member

What is no text is touched in a few places before it is given up: it is asked for its length, twice,
and then searched or cut as a text would be. Its length decides which code of the caller's this comes
to first, if any (`firstCode?`). Where it comes to none, one of the steps fails
(`parseByMembers_of_no_code`); where it comes to some, the code decides: what it throws is thrown
(`parseByMembers_of_thrown`), and if it finds a word, the object is read as that word
(`parseByMembers_of_found`). A value has no code, and is read as the operation on values reads it
(`parseByMembers_value`).
-/

namespace Interchain

namespace Value

theorem isLength_number {m n : Nat} : (Value.number (.ofNat m)).isLength n = true ↔ m = n :=
  Number.equal_ofNat

theorem length?_eq (v : Value) :
    v.length? = .error .wrongKind ∨ ∃ length, v.length? = .ok length := by
  unfold length?
  split
  · exact Or.inl rfl
  · exact Or.inl rfl
  all_goals exact Or.inr ⟨_, rfl⟩

end Value

namespace Handed

/-- Whether something shows the length of a word. -/
def isAsLong (word : Text) (x : Handed) : Bool :=
  match x.length? with
  | .ok length => length.isLength word.length
  | .error _ => false

/-- The code that reading this comes to first: that of the search where the length is that of one of
the two words, and that of the cut elsewhere. -/
def firstCode? : Handed → Option Code
  | .imitation i =>
    let x := Handed.imitation i
    if x.isAsLong (Text.ofString "any") || x.isAsLong (Text.ofString "solana") then i.replace
    else i.split
  | _ => none

variable {x : Handed} {word s : Text}

theorem length?_eq (x : Handed) :
    x.length? = .error .wrongKind ∨ ∃ length, x.length? = .ok length := by
  cases x with
  | value v => exact v.length?_eq
  | _ => exact Or.inr ⟨_, rfl⟩

/-- Only what has the length of the word is searched. -/
theorem isWord_eq {length : Value} (h : x.length? = .ok length) (word : Text) :
    x.isWord word =
      if x.isAsLong word then (do let t ← x.lowered; pure (t.isText word)) else pure false := by
  unfold isWord isAsLong
  rw [h]
  rfl

/-- A word in either case has as many units as the word. -/
theorem isWord_text : (ofText s).isWord word = pure (s.lower == word) := by
  have hlong : (ofText s).isAsLong word = true ↔ s.length = word.length := Value.isLength_number
  rw [isWord_eq rfl]
  by_cases hlength : s.length = word.length
  · rw [if_pos (hlong.2 hlength)]
    rfl
  · have hne : (s.lower == word) = false := by
      refine beq_false_of_ne fun hword => hlength ?_
      rw [← hword, Text.lower, List.length_map]
    rw [if_neg fun h => hlength (hlong.1 h), hne]

/-- **What cannot be searched is no word**, whatever it shows as its length. -/
theorem isWord_of_lowered (h : x.lowered = throw (.raised .wrongKind)) (word : Text) :
    x.isWord word = throw (.raised .wrongKind) ∨ x.isWord word = pure false := by
  rcases x.length?_eq with hlength | ⟨length, hlength⟩
  · refine Or.inl ?_
    unfold isWord
    rw [hlength]
    rfl
  · rw [isWord_eq hlength, h]
    by_cases hword : x.isAsLong word = true
    · exact Or.inl (if_pos hword)
    · exact Or.inr (if_neg hword)

end Handed

namespace Chain

open Handed (ofText)

variable {colour : Colour} {r r' : Registry} {x : Handed} {v : Value} {i : Imitation Handed}

theorem parseByMembers_of_throw {t : Thrown} (h : x.isWord (Text.ofString "any") = throw t) :
    parseByMembers colour x = throw t := by
  unfold parseByMembers
  rw [h]
  rfl

theorem parseByMembers_of_not_any (h : x.isWord (Text.ofString "any") = pure false) :
    parseByMembers colour x = (do
      if ← x.isWord (Text.ofString "solana") then pure solana
      else
        let (word, number) ← x.pieces
        ofPieces colour x word number) := by
  unfold parseByMembers
  rw [h]
  rfl

/-- What is none of the two words is cut. -/
theorem parseByMembers_of_no_word (hany : x.isWord (Text.ofString "any") = pure false)
    (hsolana : x.isWord (Text.ofString "solana") = pure false) :
    parseByMembers colour x = x.pieces >>= fun p => ofPieces colour x p.1 p.2 := by
  rw [parseByMembers_of_not_any hany, hsolana]
  rfl

/-! ### What is no text -/

/-- What can neither be searched nor cut fails where either is tried. -/
theorem parseByMembers_of_unsearchable (hlowered : x.lowered = throw (.raised .wrongKind))
    (hpieces : x.pieces = throw (.raised .wrongKind)) :
    parseByMembers colour x = throw (.raised .wrongKind) := by
  rcases Handed.isWord_of_lowered hlowered (Text.ofString "any") with hany | hany
  · exact parseByMembers_of_throw hany
  · rcases Handed.isWord_of_lowered hlowered (Text.ofString "solana") with hsolana | hsolana
    · rw [parseByMembers_of_not_any hany, hsolana]
      rfl
    · rw [parseByMembers_of_no_word hany hsolana, hpieces]
      rfl

/-- **The length of an object decides what is called first**, and that is called before anything else
can fail. -/
theorem parseByMembers_imitation (colour : Colour) (i : Imitation Handed) :
    ∃ rest : Handed → Reading Chain,
      parseByMembers colour (.imitation i) =
        Reading.call (Handed.imitation i).firstCode? >>= rest := by
  have hword := fun word => Handed.isWord_eq (rfl : (Handed.imitation i).length? = _) word
  unfold Handed.firstCode?
  by_cases hany : (Handed.imitation i).isAsLong (Text.ofString "any") = true
  · unfold parseByMembers
    rw [hword, if_pos hany]
    simp only [hany, Bool.true_or, if_true]
    exact ⟨_, bind_assoc _ _ _⟩
  · have hanyWord : (Handed.imitation i).isWord (Text.ofString "any") = pure false := by
      rw [hword, if_neg hany]
    by_cases hsolana : (Handed.imitation i).isAsLong (Text.ofString "solana") = true
    · rw [parseByMembers_of_not_any hanyWord, hword, if_pos hsolana]
      simp only [hsolana, Bool.or_true, if_true]
      exact ⟨_, bind_assoc _ _ _⟩
    · have hsolanaWord : (Handed.imitation i).isWord (Text.ofString "solana") = pure false := by
        rw [hword, if_neg hsolana]
      rw [parseByMembers_of_no_word hanyWord hsolanaWord]
      simp only [hany, hsolana]
      exact ⟨_, bind_assoc _ _ _⟩

/-- **What is no text fails where it is searched or cut**, if not before, where that comes to no
code. -/
theorem parseByMembers_of_no_code (hno : ∀ s, x ≠ ofText s) (h : x.firstCode? = none) :
    parseByMembers colour x = throw (.raised .wrongKind) := by
  cases x with
  | value v =>
    cases v with
    | string s => exact absurd rfl (hno s)
    | _ => exact parseByMembers_of_unsearchable rfl rfl
  | list items => exact parseByMembers_of_unsearchable rfl rfl
  | imitation i =>
    obtain ⟨rest, hrest⟩ := parseByMembers_imitation colour i
    rw [hrest, h]
    rfl

/-- **What the code throws is thrown.** -/
theorem parseByMembers_of_thrown {code : Code} (hcode : x.firstCode? = some code)
    {y : Handed} (hthrown : code r = (.error y, r')) :
    parseByMembers colour x r = (.error (.handed y), r') := by
  cases x with
  | imitation i =>
    obtain ⟨rest, hrest⟩ := parseByMembers_imitation colour i
    rw [hrest, hcode, Action.bind_apply]
    simp only [Reading.call, hthrown]
    rfl
  | _ => cases hcode

/-- **An object passes for a word** if its code finds the word in it. -/
theorem parseByMembers_of_found {code : Code} (hcode : i.replace = some code)
    (hlong : (Handed.imitation i).isAsLong (Text.ofString "any") = true)
    (hfound : code r = (.ok (ofText (Text.ofString "any")), r')) :
    parseByMembers colour (.imitation i) r = (.ok any, r') := by
  unfold parseByMembers
  rw [Handed.isWord_eq rfl, if_pos hlong]
  simp only [Handed.lowered, Action.bind_apply, Reading.call, hcode, hfound]
  rfl

/-! ### Texts and other values -/

theorem ofPieces_texts (x : Handed) (word number : Text) :
    ofPieces colour x (ofText word) (ofText number) =
      if word.lower = Text.ofString "unknown" ∧ isUnsigned number = true ∧
          (Value.number (.ofText number)).isU16 = true then
        Reading.ofAction (ofValue colour (.number (.ofText number)))
      else throw (x.refusal colour) := by
  unfold ofPieces
  rw [Handed.isWord_text]
  by_cases hword : word.lower = Text.ofString "unknown"
  · rw [beq_iff_eq.2 hword]
    change (if (isUnsigned number && (Value.number (.ofText number)).isU16) = true then
      Reading.ofAction (ofValue colour (.number (.ofText number)))
      else throw (x.refusal colour)) = _
    simp only [Bool.and_eq_true, hword, true_and]
  · rw [beq_false_of_ne hword]
    exact (if_neg fun h => hword h.1).symm

/-- A text without a bracket has no second piece. -/
theorem ofPieces_undefined (x : Handed) (word : Text) :
    ofPieces colour x (ofText word) .undefined = throw (x.refusal colour) := by
  unfold ofPieces
  rw [Handed.isWord_text]
  cases word.lower == Text.ofString "unknown" <;> rfl

/-- A text of neither word, cut at its brackets. -/
theorem ofPieces_segments (colour : Colour) (s : Text) :
    ofPieces colour (ofText s) (ofText (segments s).1) (((segments s).2.map ofText).getD .undefined) =
      Reading.ofAction
        (match spelledNumber? s with
          | none => throw (Failure.raise (unreadable colour s))
          | some x =>
            if (Value.number x).isU16 then ofValue colour (.number x)
            else throw (Failure.raise (unreadable colour s))) := by
  unfold spelledNumber?
  rcases segments s with ⟨word, _ | number⟩
  · exact ofPieces_undefined (ofText s) word
  · refine (ofPieces_texts (ofText s) word number).trans ?_
    by_cases hspelled : word.lower = Text.ofString "unknown" ∧ isUnsigned number = true
    · by_cases hu : (Value.number (.ofText number)).isU16 = true
      · rw [if_pos ⟨hspelled.1, hspelled.2, hu⟩]
        simp only [if_pos hspelled, if_pos hu]
      · rw [if_neg fun h => hu h.2.2]
        simp only [if_pos hspelled, if_neg hu]
        rfl
    · rw [if_neg fun h => hspelled ⟨h.1, h.2.1⟩]
      simp only [if_neg hspelled]
      rfl

theorem parseByMembers_text (colour : Colour) (s : Text) :
    parseByMembers colour (ofText s) = Reading.ofAction (parse colour s) := by
  by_cases hany : s.lower = Text.ofString "any"
  · unfold parseByMembers parse
    rw [Handed.isWord_text, beq_iff_eq.2 hany, if_pos hany]
    rfl
  · rw [parseByMembers_of_not_any (by rw [Handed.isWord_text, beq_false_of_ne hany])]
    unfold parse
    rw [Handed.isWord_text, if_neg hany]
    by_cases hsolana : s.lower = Text.ofString "solana"
    · rw [beq_iff_eq.2 hsolana, if_pos hsolana]
      rfl
    · rw [beq_false_of_ne hsolana, if_neg hsolana]
      exact ofPieces_segments colour s

theorem parseValue_of_not_text (h : ∀ s, v ≠ .string s) :
    parseValue colour v = throw .wrongKind := by
  cases v with
  | string s => exact absurd rfl (h s)
  | _ => rfl

/-- **Read member by member, every value gives what it gives when it is read as a text.** -/
theorem parseByMembers_value (colour : Colour) (v : Value) :
    parseByMembers colour (.value v) = Reading.ofAction (parseValue colour v) := by
  by_cases h : ∃ s, v = .string s
  · obtain ⟨s, rfl⟩ := h
    exact parseByMembers_text colour s
  · have hno : ∀ s, v ≠ .string s := fun s hs => h ⟨s, hs⟩
    rw [parseByMembers_of_no_code (fun s hs => hno s (Handed.value.inj hs)) rfl,
      parseValue_of_not_text hno]
    rfl

/-- Pieces that are no texts are taken for the texts they have. -/
example :
    let i : Imitation Handed := ⟨[], none, some fun r =>
      (.ok (.list [ofText (Text.ofString "Unknown"), .value (.bigint 7)]), r)⟩
    (parseByMembers .plain (.imitation i) .initial).1.toOption.map Chain.value =
      some (.ofNat 7) := by
  decide +kernel

end Chain

end Interchain
