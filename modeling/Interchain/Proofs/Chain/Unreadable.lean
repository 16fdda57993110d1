import Interchain.Proofs.Chain.Parse
import Interchain.Proofs.Json.Printable

/-! # Messages of unreadable texts

The message of a text that is no chain holds the text as it is, then some fixed lines, and then the
text once more, quoted and cut in the middle when long (`text?_parseRejection`). The text may have
line feeds and may imitate all the lines that follow it, and the copy may have lost its middle part.
But the copy is printable. So the last line feed of the message is one of the fixed lines', what
stands before these lines is the text, and no two texts share a message (`message_parse_eq_iff`).
-/

namespace Interchain

open Style (lineFeed)

namespace Text

/-- Texts that are the same are the same on both sides of their last line feed. -/
theorem append_lineFeed_inj {front front' last last' : Text} (hlast : lineFeed ∉ last)
    (hlast' : lineFeed ∉ last') (h : front ++ lineFeed :: last = front' ++ lineFeed :: last') :
    front = front' ∧ last = last' := by
  rcases List.append_eq_append_iff.1 h with ⟨more, hfront, hmore⟩ | ⟨more, hfront, hmore⟩
  · cases more with
    | nil =>
      rw [List.append_nil] at hfront
      exact ⟨hfront.symm, (List.cons.inj hmore).2⟩
    | cons u more =>
      refine absurd ?_ hlast
      rw [(List.cons.inj hmore).2]
      exact List.mem_append_right more List.mem_cons_self
  · cases more with
    | nil =>
      rw [List.append_nil] at hfront
      exact ⟨hfront, (List.cons.inj hmore).2.symm⟩
    | cons u more =>
      refine absurd ?_ hlast'
      rw [(List.cons.inj hmore).2]
      exact List.mem_append_right more List.mem_cons_self

end Text

namespace Envelope

theorem labelled_append (colour : Colour) (label : String) (s t : Text) :
    labelled colour label (s ++ t) = labelled colour label s ++ t := by
  simp only [labelled, List.append_assoc]

end Envelope

namespace Chain

open Envelope (labelled)

variable {colour : Colour} {r r' : Registry} {s t : Text}

/-- What a message has before the text. -/
def beforeInput (colour : Colour) : Text :=
  Envelope.header colour Envelope.validation
    ++ lineFeed :: labelled colour "Message" (Text.ofString "invalid chain: ")

/-- The lines from the text to its copy, without the last line feed. -/
def afterInput (colour : Colour) : Text :=
  lineFeed :: lineFeed :: labelled colour "Operation" (operation "parse")
    ++ lineFeed :: labelled colour "Resource" resource ++ [lineFeed]

/-- What the last line has before the copy. -/
def beforeCopy (colour : Colour) : Text := labelled colour "Context" (Text.ofString "input=")

/-- The text once more, quoted and cut. -/
def inputCopy (s : Text) : Text := (Json.quoted s).elide Envelope.contextLimit

/-- The message of a text that is no chain. -/
def unreadableMessage (colour : Colour) (s : Text) : Text :=
  beforeInput colour ++ s ++ afterInput colour ++ lineFeed :: (beforeCopy colour ++ inputCopy s)

theorem contextLines?_parseRejection (colour : Colour) (s : Text) :
    Envelope.contextLines? colour (parseRejection s).context =
      some [beforeCopy colour ++ inputCopy s] := by
  have hentry : Envelope.entryText? (Text.ofString "input", .string s) =
      some (Text.ofString "input=" ++ inputCopy s) := rfl
  have hparts : [(Text.ofString "input", Value.string s)].mapM Envelope.entryText? =
      some [Text.ofString "input=" ++ inputCopy s] := by
    simp [hentry]
  rw [parseRejection, Envelope.contextLines?, hparts]
  · simp [Text.join, beforeCopy, Envelope.labelled_append]
  · intro hnil
    cases hnil

/-- **The text stands in its message twice**, as it is and as a copy. -/
theorem text?_parseRejection (colour : Colour) (s : Text) :
    (parseRejection s).text? colour = some (unreadableMessage colour s) := by
  refine Envelope.text?_eq_some_iff.2
    ⟨_, [], contextLines?_parseRejection colour s, rfl, ?_⟩
  have hmessage : labelled colour "Message" (parseRejection s).message =
      labelled colour "Message" (Text.ofString "invalid chain: ") ++ s :=
    Envelope.labelled_append colour "Message" _ s
  simp only [Envelope.leadingLines, hmessage, unreadableMessage]
  simp [Text.join, beforeInput, afterInput, parseRejection]

theorem lineFeed_not_mem_copy (colour : Colour) (s : Text) :
    lineFeed ∉ beforeCopy colour ++ inputCopy s := by
  have hlabel : lineFeed ∉ beforeCopy colour := by
    cases colour <;> decide
  have hcopy : lineFeed ∉ inputCopy s :=
    ((Json.printable_quoted s).elide Envelope.contextLimit).not_mem (by decide)
  simp [hlabel, hcopy]

/-- **Different texts have different messages.** -/
theorem unreadableMessage_inj :
    unreadableMessage colour s = unreadableMessage colour t ↔ s = t := by
  constructor
  · intro h
    have hfront := (Text.append_lineFeed_inj (lineFeed_not_mem_copy colour s)
      (lineFeed_not_mem_copy colour t) h).1
    exact List.append_cancel_left (List.append_cancel_right hfront)
  · rintro rfl
    rfl

/-! ### Refused texts -/

/-- The texts that give no chain are those that spell no number. -/
theorem refused_iff (h : r.Valid) (colour : Colour) (s : Text) :
    (∀ c, (parse colour s r).1 ≠ .ok c) ↔ read? s = none := by
  rw [parse_apply h, parsed]
  cases read? s with
  | none => exact ⟨fun _ => rfl, fun _ c hc => by cases hc⟩
  | some n =>
    constructor
    · intro hs
      exact absurd rfl (hs (r.chainOf (.ofNat n)).1)
    · intro hread
      cases hread

/-- A text that gives no chain raises a failure with its message. -/
theorem parse_refused (h : r.Valid) (hs : ∀ c, (parse colour s r).1 ≠ .ok c) :
    (parse colour s r).1 =
      .error (.failure ⟨.invalidText s, parseRejection s, unreadableMessage colour s⟩) := by
  rw [parse_apply h, parsed, (refused_iff h colour s).1 hs]
  simp only [Action.issue, unreadable, Failure.build, text?_parseRejection, Failure.raise]

/-- **Refused texts can be told apart by their messages.** Of any two texts that give no chain, each
raises a failure of its own. Both messages have the same parts in front of the text and between the
text and its copy, which is quoted and cut to 120 units; and they are the same only if the texts
are. -/
theorem message_parse_eq_iff (hr : r.Reachable) (hr' : r'.Reachable) (colour : Colour)
    {s t : Text} (hs : ∀ c, (parse colour s r).1 ≠ .ok c)
    (ht : ∀ c, (parse colour t r').1 ≠ .ok c) :
    ∃ f g, (parse colour s r).1 = .error (.failure f) ∧
      (parse colour t r').1 = .error (.failure g) ∧
      f.kind = .invalidText s ∧ g.kind = .invalidText t ∧
      (∃ front between, f.message = front ++ s ++ between ++ Text.elide 120 (Json.quoted s) ∧
        g.message = front ++ t ++ between ++ Text.elide 120 (Json.quoted t)) ∧
      (f.message = g.message ↔ s = t) := by
  have hsplit : ∀ u, unreadableMessage colour u = beforeInput colour ++ u
      ++ (afterInput colour ++ lineFeed :: beforeCopy colour)
      ++ Text.elide 120 (Json.quoted u) := by
    intro u
    simp [unreadableMessage, inputCopy, Envelope.contextLimit]
  exact ⟨_, _, parse_refused hr.valid hs, parse_refused hr'.valid ht, rfl, rfl,
    ⟨_, _, hsplit s, hsplit t⟩, unreadableMessage_inj⟩

/-- The second text goes on as the whole message of the first one does. -/
def imitation : Text := Text.ofString
  ("x\n\n  Operation : chain.parse\n  Resource  : chain\n\n  Context   : input=\"x\"")

theorem message_parse_eq_iff_imitation :
    Registry.initial.Reachable ∧
    (∀ c, (parse .plain (Text.ofString "x") .initial).1 ≠ .ok c) ∧
    (∀ c, (parse .plain imitation .initial).1 ≠ .ok c) ∧
    ∃ f g, (parse .plain (Text.ofString "x") .initial).1 = .error (.failure f) ∧
      (parse .plain imitation .initial).1 = .error (.failure g) ∧
      f.message <+: g.message ∧ f.message ≠ g.message := by
  have hreachable : Registry.initial.Reachable := .initial
  have hx := (refused_iff hreachable.valid .plain (Text.ofString "x")).2 (by decide)
  have himitation := (refused_iff hreachable.valid .plain imitation).2 (by decide)
  obtain ⟨f, g, hf, hg, -, -, -, hmessage⟩ :=
    message_parse_eq_iff hreachable hreachable .plain hx himitation
  refine ⟨hreachable, hx, himitation, f, g, hf, hg, ?_, ?_⟩
  · rw [parse_refused hreachable.valid hx] at hf
    rw [parse_refused hreachable.valid himitation] at hg
    cases hf
    cases hg
    exact List.isPrefixOf_iff_prefix.1 (by decide +kernel)
  · rw [ne_eq, hmessage]
    decide

end Chain

end Interchain
