import Interchain.Failure.Basic
import Interchain.Proofs.Text.Printable

/-! # Failures that can be shown

The text of an envelope exists as soon as each value of its context has a JSON text and its cause
can be shown: there is none, or its name, code and message are texts (`causeLines?_of_texts`), as
those of the safe part of a caught value always are. A failure with such an envelope is raised as
itself and never as `unprintable`.
-/

namespace Interchain

namespace Value

/-- A value has a JSON text, big integers being spelt out. -/
def Written (v : Value) : Prop := ∃ json, v.toJson? .spelt = .ok (some json)

/-- Name, code and message of a value are texts, as far as they are there. -/
def ShowsTexts (v : Value) : Prop :=
  ∀ name ∈ ["name", "code", "message"], ∃ t, v.member name = .ofOption t

theorem isObject_shapeCause (v : Value) : v.shapeCause.isObject = true := by
  unfold shapeCause
  split <;> rfl

/-- The safe part of an object has those of its members that are texts. -/
theorem member_shapeCause {v : Value} (h : v.isObject = true) :
    ∀ name ∈ ["name", "code", "message"], v.shapeCause.member name = v.textMember name := by
  unfold shapeCause
  rw [if_pos h]
  simp only [List.forall_mem_cons]
  exact ⟨rfl, rfl, rfl, List.forall_mem_nil _⟩

theorem showsTexts_shapeCause (v : Value) : v.shapeCause.ShowsTexts := by
  by_cases h : v.isObject = true
  · intro name hname
    exact ⟨_, member_shapeCause h name hname⟩
  · unfold shapeCause ShowsTexts
    rw [if_neg h]
    simp only [List.forall_mem_cons]
    exact ⟨⟨none, rfl⟩, ⟨none, rfl⟩, ⟨v.describe?, rfl⟩, List.forall_mem_nil _⟩

end Value

namespace Envelope

/-! ### Contexts -/

/-- An entry of the context and a part of the cause have the units of their name and their text. -/
theorem not_mem_equals {u : UInt16} (hu : u ≠ Text.unit '=') {name t : Text} (hname : u ∉ name)
    (ht : u ∉ t) : u ∉ name ++ Text.unit '=' :: t := by
  simp [hu, hname, ht]

theorem contextText?_of_written {v : Value} (h : v.Written) : ∃ t, contextText? v = some t := by
  obtain ⟨json, hj⟩ := h
  exact ⟨json.text.elide contextLimit, by simp [contextText?, Value.jsonText?, hj, Except.map]⟩

theorem entryTexts_of_written {entries : List (Text × Value)} (h : ∀ p ∈ entries, p.2.Written) :
    ∃ ts, entries.mapM entryText? = some ts := by
  induction entries with
  | nil => exact ⟨[], rfl⟩
  | cons p rest ih =>
    obtain ⟨t, ht⟩ := contextText?_of_written (h p (by simp))
    obtain ⟨ts, hts⟩ := ih fun q hq => h q (by simp [hq])
    exact ⟨(p.1 ++ Text.unit '=' :: t) :: ts, by simp [entryText?, ht, hts]⟩

/-- Each text comes from an entry of its own. -/
theorem exists_entry_of_mem {entries : List (Text × Value)} {ts : List Text}
    (h : entries.mapM entryText? = some ts) {t : Text} (ht : t ∈ ts) :
    ∃ p ∈ entries, entryText? p = some t := by
  induction entries generalizing ts with
  | nil =>
    cases h
    cases ht
  | cons p rest ih =>
    simp only [List.mapM_cons, bind, Option.bind_eq_some_iff, pure, Option.some.injEq] at h
    obtain ⟨u, hu, us, hus, rfl⟩ := h
    rcases List.mem_cons.1 ht with rfl | ht
    · exact ⟨p, List.mem_cons_self, hu⟩
    · obtain ⟨q, hq, hqt⟩ := ih hus ht
      exact ⟨q, List.mem_cons_of_mem p hq, hqt⟩

theorem contextLines?_of_written {entries : List (Text × Value)} (h : ∀ p ∈ entries, p.2.Written)
    (colour : Colour) : ∃ lines, contextLines? colour (some entries) = some lines := by
  cases entries with
  | nil => exact ⟨[], rfl⟩
  | cons p rest =>
    obtain ⟨ts, hts⟩ := entryTexts_of_written h
    exact ⟨[labelled colour "Context" (Text.join contextSeparator ts)], by
      simp [contextLines?, hts]⟩

/-! ### Causes -/

/-- The text that a member of a cause has; empty if there is none. -/
def causeText (cause : Value) (name : String) : Text := (cause.member name).text?.getD []

/-- A text with its name, if it is not empty. -/
def named (name : String) (t : Text) : List Text :=
  if t = [] then [] else [Text.ofString name ++ Text.unit '=' :: t]

/-- The line with name and code of a cause, if it has either. -/
def causeHead (colour : Colour) (name code : Text) : List Text :=
  let parts := named "name" name ++ named "code" code
  if parts = [] then [] else [labelled colour "Cause" (Text.join indent parts)]

/-- The line with the message of a cause, as far as it is shown. -/
def causeTail (shown : Text) : List Text :=
  if shown = [] then [] else [Text.ofString "              message=" ++ shown]

/-- What an object shows as a cause is its name and code in one line and its message in another. -/
theorem causeLines?_eq_some_iff {cause : Value} (h : cause.isObject = true) {colour : Colour}
    {lines : List Text} :
    causeLines? colour cause = some lines ↔ ∃ name code message,
      causePart? cause "name" = some name ∧ causePart? cause "code" = some code ∧
      causeMessageLines? cause = some message ∧
      (if name ++ code = [] then []
        else [labelled colour "Cause" (Text.join indent (name ++ code))]) ++ message = lines := by
  unfold causeLines?
  rw [if_pos h]
  cases causePart? cause "name" <;> cases causePart? cause "code" <;>
    cases causeMessageLines? cause <;> simp

section

variable {cause : Value}

theorem causePart?_eq {name : String} {t : Option Text} (h : cause.member name = .ofOption t) :
    causePart? cause name = some (named name (causeText cause name)) := by
  unfold causePart? causeText
  rw [h]
  rcases t with _ | _ | ⟨u, rest⟩ <;> rfl

theorem causeMessageLines?_eq {t : Option Text} (h : cause.member "message" = .ofOption t) :
    causeMessageLines? cause =
      some (causeTail ((causeText cause "message").elide messageLimit)) := by
  unfold causeMessageLines? causeTail causeText
  rw [h]
  simp only [Text.elide_eq_nil_iff]
  rcases t with _ | _ | ⟨u, rest⟩ <;> rfl

/-- **An object whose name, code and message are texts can be shown as a cause**, and nothing else
of it is seen. -/
theorem causeLines?_of_texts (hobject : cause.isObject = true) (htexts : cause.ShowsTexts)
    (colour : Colour) :
    causeLines? colour cause =
      some (causeHead colour (causeText cause "name") (causeText cause "code")
        ++ causeTail ((causeText cause "message").elide messageLimit)) := by
  obtain ⟨_, hname⟩ := htexts "name" (by simp)
  obtain ⟨_, hcode⟩ := htexts "code" (by simp)
  obtain ⟨_, hmessage⟩ := htexts "message" (by simp)
  exact (causeLines?_eq_some_iff hobject).2 ⟨_, _, _, causePart?_eq hname, causePart?_eq hcode,
    causeMessageLines?_eq hmessage, rfl⟩

end

/-- **The safe part of a caught value can be shown as a cause.** -/
theorem causeLines?_shapeCause (colour : Colour) (v : Value) :
    ∃ lines, causeLines? colour v.shapeCause = some lines :=
  ⟨_, causeLines?_of_texts v.isObject_shapeCause v.showsTexts_shapeCause colour⟩

/-! ### The whole text -/

/-- The text of an envelope is there if those of its context and its cause are. -/
theorem text?_eq_some_iff {e : Envelope Value} {colour : Colour} {t : Text} :
    e.text? colour = some t ↔ ∃ context cause,
      contextLines? colour e.context = some context ∧ causeLines? colour e.cause = some cause ∧
      Text.join [Style.lineFeed] (e.leadingLines colour
        ++ (if context ++ cause = [] then [] else [[]]) ++ (context ++ cause)) = t := by
  unfold text?
  cases contextLines? colour e.context <;> cases causeLines? colour e.cause <;> simp

/-- **An envelope with written context and a cause that can be shown has a text.** -/
theorem text?_of_written {e : Envelope Value} {entries : List (Text × Value)} {colour : Colour}
    (hcontext : e.context = some entries)
    (hcause : ∃ lines, causeLines? colour e.cause = some lines)
    (h : ∀ p ∈ entries, p.2.Written) : ∃ t, e.text? colour = some t := by
  obtain ⟨lines, hlines⟩ := contextLines?_of_written h colour
  obtain ⟨lines', hlines'⟩ := hcause
  rw [text?, hcontext, hlines, hlines']
  exact ⟨_, rfl⟩

end Envelope

namespace Failure

/-- A failure that is raised as itself: its envelope could be laid out, and the layout is its
message. -/
def RaisedAs (colour : Colour) (kind : FailureKind) (e : Envelope Value) (raised : Raised) :
    Prop :=
  ∃ message, e.text? colour = some message ∧ raised = .failure ⟨kind, e, message⟩

theorem build_of_text? {colour : Colour} {kind : FailureKind} {e : Envelope Value} {t : Text}
    (h : e.text? colour = some t) : build colour kind e = .ok ⟨kind, e, t⟩ := by
  unfold build
  rw [h]

theorem raisedAs_of_text? {colour : Colour} {kind : FailureKind} {e : Envelope Value} {t : Text}
    (h : e.text? colour = some t) : RaisedAs colour kind e (raise (build colour kind e)) := by
  refine ⟨t, h, ?_⟩
  rw [build_of_text? h]
  rfl

theorem raisedAs_of_written {colour : Colour} {kind : FailureKind} {e : Envelope Value}
    {entries : List (Text × Value)} (hcontext : e.context = some entries)
    (hcause : ∃ lines, Envelope.causeLines? colour e.cause = some lines)
    (h : ∀ p ∈ entries, p.2.Written) : RaisedAs colour kind e (raise (build colour kind e)) := by
  obtain ⟨t, ht⟩ := Envelope.text?_of_written hcontext hcause h
  exact raisedAs_of_text? ht

end Failure

end Interchain
