import Interchain.Proofs.Failure.Serialised
import Interchain.Proofs.Failure.Shown

/-! # Causes that are safe to attach

A caught value may be anything, and attached as it is it may spoil the failure: its name may have no
text, so that the failure cannot be laid out, or it may hold something that keeps the failure from
being written as JSON. So only its safe part is attached. That is an object that has texts under
`name`, `code` and `message` and nothing else (`showsTexts_shapeCause`), and a cause with texts
alone is always shown (`causeLines?_of_texts`) and always written (`not_treeless_shapeCause`).

What is shown of a cause hangs on these texts only (`causeLines?_congr`). An object that has texts
under the three names keeps them in its safe part (`member_shapeCause_of_texts`), so nothing that it
would show is lost, and the safe part is a safe part of itself.
-/

namespace Interchain

open Style (lineFeed)

namespace Value

variable {v : Value}

/-- Nothing but an object can refuse to be described. -/
theorem describe?_of_not_isObject (h : v.isObject = false) : ∃ t, v.describe? = some t := by
  cases v with
  | array _ | object _ | chain _ | error _ _ _ | failure _ _ _ | circular _ => cases h
  | _ => exact ⟨_, rfl⟩

theorem textMember_of_eq_ofOption {name : String} {t : Option Text}
    (h : v.member name = .ofOption t) : v.textMember name = v.member name := by
  rw [textMember, h]
  cases t <;> rfl

/-- **An object with texts under the three names keeps them** in its safe part. -/
theorem member_shapeCause_of_texts (hobject : v.isObject = true) (htexts : v.ShowsTexts) :
    ∀ name ∈ ["name", "code", "message"], v.shapeCause.member name = v.member name := by
  intro name hname
  obtain ⟨t, ht⟩ := htexts name hname
  rw [member_shapeCause hobject name hname, textMember_of_eq_ofOption ht]

theorem not_treeless_ofOption (t : Option Text) : ¬(Value.ofOption t).Treeless := by
  cases t with
  | none => exact Failure.not_treeless_undefined
  | some t => exact Failure.not_treeless_string t

/-- The safe part of a value holds nothing that stops the writing of JSON. -/
theorem not_treeless_shapeCause (v : Value) : ¬v.shapeCause.Treeless := by
  unfold shapeCause
  split <;> simp [treeless_object_iff, textMember, not_treeless_ofOption]

end Value

namespace Envelope

/-- An envelope without context, and with a cause. -/
def causedBy (e : Envelope Value) (cause : Value) : Envelope Value :=
  { e with context := none, cause := cause }

/-- The lines of an envelope without context whose cause has texts, its message being shown so. -/
def causedLines (colour : Colour) (e : Envelope Value) (shown : Text) : List Text :=
  let cause := causeHead colour (causeText e.cause "name") (causeText e.cause "code")
    ++ causeTail shown
  e.leadingLines colour ++ (if cause = [] then [] else [[]]) ++ cause

/-- How the message of a cause is shown: the whole of it if it has 600 units at most, and otherwise
its two ends of 299 units around the ellipsis. -/
structure ShownAs (message shown : Text) : Prop where
  whole : message.length ≤ 600 → shown = message
  cut : 600 < message.length →
    shown = message.take 299 ++ Text.ofString "…" ++ message.drop (message.length - 299)
  length_le : shown.length ≤ 600

theorem shownAs_elide (message : Text) : ShownAs message (message.elide messageLimit) :=
  ⟨Text.elide_of_le, Text.elide_of_lt, Text.length_elide_le (by decide) message⟩

/-- A cause with texts shows the same as any other with the same ones. -/
theorem causeLines?_congr {cause cause' : Value} (hobject : cause.isObject = true)
    (htexts : cause.ShowsTexts) (hobject' : cause'.isObject = true)
    (h : ∀ name ∈ ["name", "code", "message"], cause'.member name = cause.member name)
    (colour : Colour) : causeLines? colour cause' = causeLines? colour cause := by
  have htexts' : cause'.ShowsTexts := by
    intro name hname
    rw [h name hname]
    exact htexts name hname
  have hsame : ∀ name ∈ ["name", "code", "message"],
      causeText cause' name = causeText cause name := by
    intro name hname
    rw [causeText, causeText, h name hname]
  rw [causeLines?_of_texts hobject htexts, causeLines?_of_texts hobject' htexts',
    hsame "name" (by simp), hsame "code" (by simp), hsame "message" (by simp)]

theorem text?_causedBy (e : Envelope Value) {cause : Value} (hobject : cause.isObject = true)
    (htexts : cause.ShowsTexts) (colour : Colour) :
    (e.causedBy cause).text? colour =
      some (Text.join [lineFeed] (causedLines colour (e.causedBy cause)
        ((causeText cause "message").elide messageLimit))) :=
  text?_eq_some_iff.2 ⟨[], _, rfl, causeLines?_of_texts hobject htexts colour, rfl⟩

end Envelope

namespace Failure

open Envelope (causeLines? causeText causedLines ShownAs)

/-- A failure whose cause is the safe part of a value, and that has no context, is written as JSON
in whatever order its members stand. -/
theorem stringify_causedBy {v : Value} {e : Envelope Value} {colour : Colour} {f : Failure}
    (h : build colour .general (e.causedBy v.shapeCause) = .ok f) {members : Fields Value}
    (horder : members.Perm f.fields) (shade : Colour) :
    ∃ t, (Query.stringify (.failure f.kind f.message members)).answer shade = .ok (.text t) := by
  have hwritten : ¬(Value.failure f.kind f.message members).Treeless := by
    rw [treeless_members_iff (.general h) horder, carries_treeless_iff]
    obtain ⟨message, -, rfl⟩ := eq_of_build h
    rintro (⟨p, hp, -⟩ | hcause)
    · cases hp
    · exact v.not_treeless_shapeCause hcause
  obtain ⟨tree, htree⟩ := Value.exists_tree hwritten nofun
  exact ⟨_, stringify_of_hasTree htree⟩

/-- **The safe part of any value can be attached, and loses nothing that would be shown.** It is an
object whose name, code and message are texts as far as they are there; of a value that is no object
it has the text, and there always is one. The safe part of the safe part has the same three members.
With it as the cause and without context a failure is always made, in every colour; what follows the
label of the cause's message is that message, cut in the middle if it has more than 600 units; and
the failure can be written as JSON. If the value is an object and itself has texts under the three
names, the safe part shows the same lines as the value does, under every envelope. -/
theorem shapeCause_attached (v : Value) :
    (v.isObject = false → ∃ t, v.describe? = some t ∧
      v.shapeCause = .object [(Text.ofString "message", .string t)]) ∧
    v.shapeCause.isObject = true ∧ v.shapeCause.ShowsTexts ∧
    (∀ name ∈ ["name", "code", "message"],
      v.shapeCause.shapeCause.member name = v.shapeCause.member name) ∧
    (∀ (e : Envelope Value) (colour : Colour), ∃ f shown,
      build colour .general (e.causedBy v.shapeCause) = .ok f ∧
      f.message = Text.join [lineFeed] (causedLines colour (e.causedBy v.shapeCause) shown) ∧
      ShownAs (causeText v.shapeCause "message") shown ∧
      ∀ members : Fields Value, members.Perm f.fields → ∀ shade, ∃ t,
        (Query.stringify (.failure f.kind f.message members)).answer shade = .ok (.text t)) ∧
    (v.isObject = true → v.ShowsTexts → ∀ colour,
      (∃ lines, causeLines? colour v.shapeCause = some lines ∧
        causeLines? colour v = some lines) ∧
      ∀ e : Envelope Value, Envelope.text? colour { e with cause := v.shapeCause } =
        Envelope.text? colour { e with cause := v }) := by
  have hobject := v.isObject_shapeCause
  have htexts := v.showsTexts_shapeCause
  refine ⟨?_, hobject, htexts, Value.member_shapeCause_of_texts hobject htexts, ?_, ?_⟩
  · intro hprimitive
    obtain ⟨t, ht⟩ := Value.describe?_of_not_isObject hprimitive
    refine ⟨t, ht, ?_⟩
    rw [Value.shapeCause, if_neg (Bool.eq_false_iff.1 hprimitive), ht]
    rfl
  · intro e colour
    have hbuild : build colour .general (e.causedBy v.shapeCause) = _ :=
      build_of_text? (e.text?_causedBy hobject htexts colour)
    exact ⟨_, _, hbuild, rfl, Envelope.shownAs_elide _,
      fun members horder shade => stringify_causedBy hbuild horder shade⟩
  · intro hown htexts' colour
    have hsame := Envelope.causeLines?_congr hown htexts' hobject
      (Value.member_shapeCause_of_texts hown htexts') colour
    obtain ⟨lines, hlines⟩ := Envelope.causeLines?_shapeCause colour v
    refine ⟨⟨lines, hlines, hsame.symm.trans hlines⟩, ?_⟩
    intro e
    unfold Envelope.text?
    rw [hsame]
    rfl

/-- An error whose name has no text, with a long message and a big integer as its code. -/
def unruly : Value :=
  .error (.array [.symbol (Text.ofString "s")]) (List.replicate 700 (Text.unit 'x')) (.bigint 7)

/-- An error with a name and a message. -/
def orderly : Value :=
  .error (.string (Text.ofString "TypeError")) (Text.ofString "bad") .undefined

/-- The error without a text under its name spoils the failure as it is, and its safe part does not:
the message is cut, and nothing else is shown. A symbol becomes a message, and the other error shows
what its safe part shows. -/
theorem shapeCause_attached_unruly :
    build .plain .general ((enveloping [] .undefined).causedBy unruly) = .error .unprintable ∧
    (∃ f, build .plain .general ((enveloping [] .undefined).causedBy unruly.shapeCause) = .ok f ∧
      f.message = Text.join [lineFeed]
        [Text.ofString "✖ ChainIdError [VALIDATION]",
          Text.ofString "  Message   : bad",
          [],
          Text.ofString "  Operation : make",
          Text.ofString "  Resource  : core.chain",
          [],
          Text.ofString "              message=" ++ List.replicate 299 (Text.unit 'x')
            ++ Text.ofString "…" ++ List.replicate 299 (Text.unit 'x')] ∧
      ∃ t, (Query.stringify f.toValue).answer .plain = .ok (.text t)) ∧
    (Value.symbol (Text.ofString "s")).isObject = false ∧
    (Value.symbol (Text.ofString "s")).shapeCause =
      .object [(Text.ofString "message", .string (Text.ofString "Symbol(s)"))] ∧
    orderly.isObject = true ∧ orderly.ShowsTexts ∧
    causeLines? .plain orderly.shapeCause =
      some [Text.ofString "  Cause     : name=TypeError",
        Text.ofString "              message=bad"] := by
  have hsymbol : (Value.symbol (Text.ofString "s")).isObject = false := rfl
  have horderly : orderly.isObject = true := rfl
  have htexts : orderly.ShowsTexts := by
    simp only [Value.ShowsTexts, List.forall_mem_cons]
    exact ⟨⟨some _, rfl⟩, ⟨none, rfl⟩, ⟨some _, rfl⟩, nofun⟩
  have hmessage : causeText unruly.shapeCause "message" = List.replicate 700 (Text.unit 'x') := rfl
  obtain ⟨-, -, -, -, hbuilt, -⟩ := shapeCause_attached unruly
  obtain ⟨f, shown, hbuild, hlines, hshown, hwritten⟩ := hbuilt (enveloping [] .undefined) .plain
  obtain ⟨hprimitive, -⟩ := shapeCause_attached (.symbol (Text.ofString "s"))
  obtain ⟨t, ht, hshaped⟩ := hprimitive hsymbol
  obtain ⟨-, -, -, -, -, hsame⟩ := shapeCause_attached orderly
  obtain ⟨⟨lines, hsafe, hown⟩, -⟩ := hsame horderly htexts .plain
  refine ⟨rfl, ⟨f, hbuild, ?_, hwritten f.fields (List.Perm.refl _) .plain⟩, hsymbol, ?_, horderly,
    htexts, ?_⟩
  · have hcut := hshown.cut (by rw [hmessage, List.length_replicate]; decide)
    rw [hlines, hcut, hmessage]
    decide +kernel
  · rw [hshaped]
    cases ht
    rfl
  · rw [hsafe, ← hown]
    rfl

end Failure

end Interchain
