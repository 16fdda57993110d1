import Interchain.Proofs.Failure.Shown
import Interchain.Proofs.Json.Printable
import Interchain.Proofs.Value.Unshowable
import Mathlib.Data.List.Forall2

/-! # The lines of a text

Without colour, and with no line feed in the texts of an envelope, its keys and its cause, splitting
the text at line feeds gives the lines that were laid out (`text?_lines`). The values of the context
may hold any units: each is shown by its JSON text, which is printable, also where it is cut in the
middle, so no value brings in a line of its own.
-/

namespace Interchain

open Style (lineFeed)

namespace Value

/-- A value without circular parts has a JSON text unless it is nothing at all or a symbol. -/
theorem written_of_acyclic {v : Value} (hacyclic : ¬∃ shape, v.Meets (.circular shape))
    (hundefined : v ≠ .undefined) (hsymbol : ∀ description, v ≠ .symbol description) :
    v.Written := by
  cases hv : v.toJson? .spelt with
  | error e => exact absurd (toJson?_spelt_eq_error_iff.1 ⟨e, hv⟩) hacyclic
  | ok j =>
    cases j with
    | some json => exact ⟨json, hv⟩
    | none =>
      rcases omitted_of_toJson?_eq_none hv with h | ⟨description, h⟩
      · exact absurd h hundefined
      · exact absurd h (hsymbol description)

/-- What counts as false is no object. -/
theorem isObject_of_isTruthy {v : Value} (h : v.isTruthy = false) : v.isObject = false := by
  cases v with
  | array _ | object _ | chain _ | error _ _ _ | failure _ _ _ | circular _ => cases h
  | _ => rfl

theorem member_of_isObject {v : Value} (h : v.isObject = false) (name : String) :
    v.member name = .undefined := by
  cases v with
  | object _ | error _ _ _ | failure _ _ _ => cases h
  | _ => rfl

end Value

namespace Envelope

/-! ### Values of the context -/

/-- **A value with a JSON text is shown on one line**, and cut to a limit. -/
theorem contextText?_printable {v : Value} (h : v.Written) :
    ∃ t, contextText? v = some t ∧ t.Printable ∧ t.length ≤ contextLimit := by
  obtain ⟨json, hj⟩ := h
  refine ⟨json.text.elide contextLimit, ?_, json.printable_text.elide contextLimit,
    Text.length_elide_le (by decide) json.text⟩
  simp [contextText?, Value.jsonText?, hj, Except.map]

theorem exists_values {entries : Fields Value} (h : ∀ p ∈ entries, p.2.Written) :
    ∃ values, List.Forall₂ (fun p s => contextText? p.2 = some s) entries values ∧
      ∀ s ∈ values, s.Printable ∧ s.length ≤ contextLimit := by
  induction entries with
  | nil => exact ⟨[], .nil, nofun⟩
  | cons p rest ih =>
    rw [List.forall_mem_cons] at h
    obtain ⟨s, hs, hprintable⟩ := contextText?_printable h.1
    obtain ⟨ss, hss, hprintables⟩ := ih h.2
    exact ⟨s :: ss, .cons hs hss, List.forall_mem_cons.2 ⟨hprintable, hprintables⟩⟩

/-! ### What is laid out -/

/-- The line of the context, of entries with the texts of their values. -/
def contextLayout (entries : Fields Value) (values : List Text) : List Text :=
  if entries.isEmpty then []
  else
    let parts := (entries.zip values).map fun (p, t) => p.1 ++ Text.unit '=' :: t
    [Text.ofString "  Context   : " ++ Text.join (Text.ofString "  •  ") parts]

/-- The line with name and code of a cause, and the line with its message. -/
def causeLayout (name code message : Text) : List Text :=
  (if name = [] ∧ code = [] then []
    else
      let parts := named "name" name ++ named "code" code
      [Text.ofString "  Cause     : " ++ Text.join (Text.ofString "  ") parts])
  ++ if message = [] then []
    else [Text.ofString "              message=" ++ message.elide messageLimit]

/-- The lines that show context and cause. -/
def details (e : Envelope Value) (values : List Text) : List Text :=
  contextLayout (e.context.getD []) values
    ++ causeLayout (causeText e.cause "name") (causeText e.cause "code")
      (causeText e.cause "message")

/-- The lines of an envelope, the values of its context being shown by the given texts. -/
def layout (e : Envelope Value) (values : List Text) : List Text :=
  [Text.ofString "✖ ChainIdError [" ++ e.type ++ Text.ofString "]",
    Text.ofString "  Message   : " ++ e.message,
    [],
    Text.ofString "  Operation : " ++ e.operation,
    Text.ofString "  Resource  : " ++ e.resource]
  ++ (if (e.context.getD []).isEmpty ∧ causeText e.cause "name" = [] ∧
        causeText e.cause "code" = [] ∧ causeText e.cause "message" = [] then []
      else [[]])
  ++ e.details values

/-- No text of an envelope outside its context has a line feed, nor has a key; a value of the
context has a JSON text; and the cause counts as false or is an object with texts at most. -/
structure Lined (e : Envelope Value) : Prop where
  type : lineFeed ∉ e.type
  message : lineFeed ∉ e.message
  operation : lineFeed ∉ e.operation
  resource : lineFeed ∉ e.resource
  context : ∀ p ∈ e.context.getD [], lineFeed ∉ p.1 ∧
    (¬∃ shape, p.2.Meets (.circular shape)) ∧ p.2 ≠ .undefined ∧
      ∀ description, p.2 ≠ .symbol description
  cause : e.cause.isTruthy = false ∨ e.cause.isObject = true ∧
    ∀ name ∈ ["name", "code", "message"],
      ∃ t, e.cause.member name = .ofOption t ∧ ∀ s, t = some s → lineFeed ∉ s

theorem leadingLines_plain (e : Envelope Value) : e.leadingLines .plain =
    [Text.ofString "✖ ChainIdError [" ++ e.type ++ Text.ofString "]",
      Text.ofString "  Message   : " ++ e.message,
      [],
      Text.ofString "  Operation : " ++ e.operation,
      Text.ofString "  Resource  : " ++ e.resource] := rfl

/-- Each entry of the context is shown with the text of its value. -/
theorem entryTexts_eq {entries : Fields Value} {values : List Text}
    (h : List.Forall₂ (fun p t => contextText? p.2 = some t) entries values) :
    entries.mapM entryText? =
      some ((entries.zip values).map fun (p, t) => p.1 ++ Text.unit '=' :: t) := by
  induction h with
  | nil => rfl
  | cons hp _ ih => simp [entryText?, hp, ih]

theorem contextLines?_eq {context : Option (Fields Value)} {values : List Text}
    (h : List.Forall₂ (fun p t => contextText? p.2 = some t) (context.getD []) values) :
    contextLines? .plain context = some (contextLayout (context.getD []) values) := by
  cases context with
  | none => rfl
  | some entries =>
    cases entries with
    | nil => rfl
    | cons p rest =>
      have hparts : (p :: rest).mapM entryText? = _ := entryTexts_eq h
      rw [contextLines?, hparts]
      · rfl
      · intro hnil
        cases hnil

section

variable {cause : Value}

theorem named_append_eq_nil_iff {name code : Text} :
    named "name" name ++ named "code" code = [] ↔ name = [] ∧ code = [] := by
  unfold named
  split <;> split <;> simp_all

/-- What counts as false shows nothing. -/
theorem causeText_of_isTruthy (h : cause.isTruthy = false) (name : String) :
    causeText cause name = [] := by
  rw [causeText, Value.member_of_isObject (Value.isObject_of_isTruthy h)]
  rfl

theorem causeLines?_eq (h : cause.isTruthy = false ∨ cause.isObject = true ∧ cause.ShowsTexts) :
    causeLines? .plain cause = some (causeLayout (causeText cause "name") (causeText cause "code")
      (causeText cause "message")) := by
  rcases h with hfalse | ⟨hobject, htexts⟩
  · simp [causeLines?, Value.isObject_of_isTruthy hfalse, hfalse, causeText_of_isTruthy hfalse,
      causeLayout]
  · rw [causeLines?_of_texts hobject htexts]
    simp only [causeHead, causeTail, named_append_eq_nil_iff, Text.elide_eq_nil_iff]
    rfl

end

theorem details_eq_nil_iff {e : Envelope Value} {values : List Text} :
    e.details values = [] ↔ (e.context.getD []).isEmpty ∧ causeText e.cause "name" = [] ∧
      causeText e.cause "code" = [] ∧ causeText e.cause "message" = [] := by
  have hcontext : contextLayout (e.context.getD []) values = [] ↔ (e.context.getD []).isEmpty := by
    unfold contextLayout
    split <;> simp_all
  have hcause : ∀ name code message : Text, causeLayout name code message = [] ↔
      name = [] ∧ code = [] ∧ message = [] := by
    intro name code message
    unfold causeLayout
    split <;> split <;> simp_all
  rw [details, List.append_eq_nil_iff, hcontext, hcause]

/-- **The text without colour is the layout**, one line after the other. -/
theorem text?_eq_layout {e : Envelope Value} {values : List Text}
    (hcontext : List.Forall₂ (fun p t => contextText? p.2 = some t) (e.context.getD []) values)
    (hcause : e.cause.isTruthy = false ∨ e.cause.isObject = true ∧ e.cause.ShowsTexts) :
    e.text? .plain = some (Text.join [lineFeed] (e.layout values)) := by
  refine text?_eq_some_iff.2 ⟨_, _, contextLines?_eq hcontext, causeLines?_eq hcause, ?_⟩
  rw [leadingLines_plain, layout]
  simp only [← @details_eq_nil_iff e values]
  rfl

/-! ### Line feeds -/

/-- A text that fills a line. -/
def IsLine (t : Text) : Prop := lineFeed ∉ t ∧ t ≠ []

instance (t : Text) : Decidable (IsLine t) := inferInstanceAs (Decidable (_ ∧ _))

theorem IsLine.append {label t : Text} (hlabel : IsLine label) (ht : lineFeed ∉ t) :
    IsLine (label ++ t) := by
  refine ⟨?_, List.append_ne_nil_of_left_ne_nil hlabel.2 t⟩
  rw [List.mem_append, not_or]
  exact ⟨hlabel.1, ht⟩

theorem isLine_of_mem_contextLayout {entries : Fields Value} {values : List Text}
    (hkeys : ∀ p ∈ entries, lineFeed ∉ p.1) (hvalues : ∀ t ∈ values, Text.Printable t) :
    ∀ line ∈ contextLayout entries values, IsLine line := by
  have hlabel : IsLine (Text.ofString "  Context   : ") := by decide
  unfold contextLayout
  split
  · exact nofun
  · intro line hline
    rw [List.mem_singleton.1 hline]
    refine hlabel.append (Text.not_mem_join (by decide) fun part hpart => ?_)
    obtain ⟨⟨p, t⟩, hpt, rfl⟩ := List.mem_map.1 hpart
    obtain ⟨hp, ht⟩ := List.of_mem_zip hpt
    exact not_mem_equals (by decide) (hkeys p hp) ((hvalues t ht).not_mem (by decide))

theorem not_mem_named {name : String} (hname : lineFeed ∉ Text.ofString name) {t : Text}
    (ht : lineFeed ∉ t) : ∀ part ∈ named name t, lineFeed ∉ part := by
  unfold named
  split
  · exact nofun
  · intro part hpart
    rw [List.mem_singleton.1 hpart]
    exact not_mem_equals (by decide) hname ht

theorem isLine_of_mem_causeLayout {name code message : Text} (hname : lineFeed ∉ name)
    (hcode : lineFeed ∉ code) (hmessage : lineFeed ∉ message) :
    ∀ line ∈ causeLayout name code message, IsLine line := by
  have hcause : IsLine (Text.ofString "  Cause     : ") := by decide
  have hlabel : IsLine (Text.ofString "              message=") := by decide
  intro line hline
  rcases List.mem_append.1 hline with hline | hline
  · split at hline
    · cases hline
    · rw [List.mem_singleton.1 hline]
      refine hcause.append (Text.not_mem_join (by decide) fun part hpart => ?_)
      rcases List.mem_append.1 hpart with hpart | hpart
      · exact not_mem_named (by decide) hname part hpart
      · exact not_mem_named (by decide) hcode part hpart
  · split at hline
    · cases hline
    · rw [List.mem_singleton.1 hline]
      exact hlabel.append (Text.not_mem_elide (by decide) hmessage messageLimit)

namespace Lined

variable {e : Envelope Value} {values : List Text}

theorem not_mem_causeText (h : e.Lined) {name : String}
    (hname : name ∈ ["name", "code", "message"]) : lineFeed ∉ causeText e.cause name := by
  rcases h.cause with hfalse | ⟨-, htexts⟩
  · rw [causeText_of_isTruthy hfalse]
    exact List.not_mem_nil
  · obtain ⟨t, ht, hlineFeed⟩ := htexts name hname
    rw [causeText, ht]
    cases t with
    | none => exact List.not_mem_nil
    | some s => exact hlineFeed s rfl

theorem isLine_of_mem_details (h : e.Lined) (hvalues : ∀ t ∈ values, Text.Printable t) :
    ∀ line ∈ e.details values, IsLine line := by
  have hkeys : ∀ p ∈ e.context.getD [], lineFeed ∉ p.1 := fun p hp => (h.context p hp).1
  intro line hline
  rcases List.mem_append.1 hline with hline | hline
  · exact isLine_of_mem_contextLayout hkeys hvalues line hline
  · exact isLine_of_mem_causeLayout (h.not_mem_causeText (by simp)) (h.not_mem_causeText (by simp))
      (h.not_mem_causeText (by simp)) line hline

/-- No line of the layout has a line feed, so that no other lines come about. -/
theorem not_mem_layout (h : e.Lined) (hvalues : ∀ t ∈ values, Text.Printable t) :
    ∀ line ∈ e.layout values, lineFeed ∉ line := by
  have hmark : IsLine (Text.ofString "✖ ChainIdError [") := by decide
  have hmessage : IsLine (Text.ofString "  Message   : ") := by decide
  have hoperation : IsLine (Text.ofString "  Operation : ") := by decide
  have hresource : IsLine (Text.ofString "  Resource  : ") := by decide
  have hheader := (hmark.append h.type).append (show lineFeed ∉ Text.ofString "]" by decide)
  have hleading : ∀ line ∈ [Text.ofString "✖ ChainIdError [" ++ e.type ++ Text.ofString "]",
      Text.ofString "  Message   : " ++ e.message, [],
      Text.ofString "  Operation : " ++ e.operation,
      Text.ofString "  Resource  : " ++ e.resource], lineFeed ∉ line := by
    simp only [List.forall_mem_cons]
    exact ⟨hheader.1, (hmessage.append h.message).1, List.not_mem_nil,
      (hoperation.append h.operation).1, (hresource.append h.resource).1, nofun⟩
  intro line hline
  rcases List.mem_append.1 hline with hline | hline
  · rcases List.mem_append.1 hline with hline | hline
    · exact hleading line hline
    · split at hline
      · cases hline
      · rw [List.mem_singleton.1 hline]
        exact List.not_mem_nil
  · exact (h.isLine_of_mem_details hvalues line hline).1

/-- The last line is one of the details, or the resource where there are none. -/
theorem exists_last (h : e.Lined) (hvalues : ∀ t ∈ values, Text.Printable t) :
    ∃ front last, e.layout values = front ++ [last] ∧ IsLine last := by
  have hresource : IsLine (Text.ofString "  Resource  : ") := by decide
  unfold layout
  rcases List.eq_nil_or_concat (e.details values) with hnil | ⟨front, last, hlast⟩
  · rw [if_pos (details_eq_nil_iff.1 hnil), hnil]
    exact ⟨[_, _, _, _], _, rfl, hresource.append h.resource⟩
  · have hline := h.isLine_of_mem_details hvalues last (by simp [hlast])
    rw [hlast, List.concat_eq_append, ← List.append_assoc]
    exact ⟨_, last, rfl, hline⟩

end Lined

/-- **The text without colour has the lines laid out and no others**: the five leading ones; if
anything is shown of context or cause, an empty one; and the lines of context and cause, each only
where there is something to show. No value of the context has a unit below U+0020 in it. -/
theorem text?_lines {e : Envelope Value} (h : e.Lined) : ∃ values t,
    e.text? .plain = some t ∧
    List.Forall₂ (fun p s => contextText? p.2 = some s) (e.context.getD []) values ∧
    (∀ s ∈ values, s.Printable ∧ s.length ≤ contextLimit) ∧
    t.splitOn lineFeed = e.layout values ∧ t.getLast? ≠ some lineFeed := by
  have hwritten : ∀ p ∈ e.context.getD [], p.2.Written := by
    intro p hp
    obtain ⟨-, hacyclic, hundefined, hsymbol⟩ := h.context p hp
    exact Value.written_of_acyclic hacyclic hundefined hsymbol
  obtain ⟨values, hshown, hvalues⟩ := exists_values hwritten
  have hprintable : ∀ s ∈ values, Text.Printable s := fun s hs => (hvalues s hs).1
  have hcause : e.cause.isTruthy = false ∨ e.cause.isObject = true ∧ e.cause.ShowsTexts := by
    refine h.cause.imp_right fun hobject => ⟨hobject.1, fun name hname => ?_⟩
    obtain ⟨t, ht, -⟩ := hobject.2 name hname
    exact ⟨t, ht⟩
  have htext := text?_eq_layout hshown hcause
  obtain ⟨front, last, hlayout, hlast⟩ := h.exists_last hprintable
  refine ⟨values, _, htext, hshown, hvalues, ?_, ?_⟩
  · refine List.splitOn_intercalate lineFeed (h.not_mem_layout hprintable) ?_
    rw [hlayout]
    exact List.append_ne_nil_of_right_ne_nil front (List.cons_ne_nil last [])
  · rw [hlayout, Text.getLast?_join hlast.2]
    exact fun hend => hlast.1 (List.mem_of_getLast? hend)

/-- A text that would be a line of its own, a key with a line feed, and a cause without a code. -/
def forgingEnvelope : Envelope Value where
  resource := Text.ofString "wire"
  operation := Text.ofString "wire.decodeChainHex"
  type := Text.ofString "VALIDATION"
  message := Text.ofString "Malformed hex for chain id."
  context := some
    [(Text.ofString "input", .string (Text.ofString "x\n  Cause     : name=\"none\"")),
      (Text.ofString "more", .object [(Text.ofString "a\nb", .bigint (-7))])]
  cause := .object [(Text.ofString "name", .string (Text.ofString "TypeError")),
    (Text.ofString "message", .string (Text.ofString "bad digit"))]

theorem text?_lines_forging : forgingEnvelope.Lined ∧ ∃ t, forgingEnvelope.text? .plain = some t ∧
    t.splitOn lineFeed = [Text.ofString "✖ ChainIdError [VALIDATION]",
      Text.ofString "  Message   : Malformed hex for chain id.",
      [],
      Text.ofString "  Operation : wire.decodeChainHex",
      Text.ofString "  Resource  : wire",
      [],
      Text.ofString "  Context   : input=\"x\\n  Cause     : name=\\\"none\\\"\""
        ++ Text.ofString "  •  more=\x7b\"a\\nb\":\"-7n\"\x7d",
      Text.ofString "  Cause     : name=TypeError",
      Text.ofString "              message=bad digit"] ∧
    t.getLast? ≠ some lineFeed := by
  have hlined : forgingEnvelope.Lined := by
    refine ⟨by decide, by decide, by decide, by decide, ?_, Or.inr ⟨rfl, ?_⟩⟩
    · intro p hp
      rw [← Value.toJson?_spelt_eq_error_iff]
      rcases List.mem_cons.1 hp with rfl | hp
      · exact ⟨by decide, nofun, nofun, nofun⟩
      · rw [List.mem_singleton.1 hp]
        exact ⟨by decide, nofun, nofun, nofun⟩
    · simp only [List.forall_mem_cons]
      refine ⟨⟨some (Text.ofString "TypeError"), rfl, ?_⟩, ⟨none, rfl, nofun⟩,
        ⟨some (Text.ofString "bad digit"), rfl, ?_⟩, nofun⟩ <;>
      · rintro _ ⟨rfl⟩
        decide
  refine ⟨hlined, ?_⟩
  obtain ⟨values, t, ht, hshown, -, hlines, hend⟩ := text?_lines hlined
  refine ⟨t, ht, ?_, hend⟩
  obtain _ | ⟨hfirst, _ | ⟨hsecond, _ | _⟩⟩ := hshown
  cases hfirst
  cases hsecond
  rw [hlines]
  decide +kernel

end Envelope

end Interchain
