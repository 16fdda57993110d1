import Interchain.Proofs.Failure.Painted
import Interchain.Proofs.Failure.Shown
import Interchain.Proofs.Json.Printable
import Interchain.Proofs.Value.Unshowable
import Mathlib.Data.List.Forall2

/-! # Colour is decoration

Where no text of an envelope holds the escape unit, neither does the text of any value in it: a
JSON text is printable, and the plain text of a value is put together from its own texts
(`not_mem_describe?`). So each line of the envelope is a painting of the line without colour, and
deleting the control sequences from the whole text gives the text without colour
(`text?_unpainted`).
-/

namespace Interchain

open Style (escapeUnit Paints)

namespace Value

mutual

/-- No text inside a value holds the escape unit, and no failure, whose message may be painted, is
inside. The keys of objects do not count: they are shown in JSON only, where they are escaped. -/
def Unstyled : Value → Prop
  | .string t => escapeUnit ∉ t
  | .symbol description => escapeUnit ∉ description
  | .array items => UnstyledItems items
  | .object fields => UnstyledFields fields
  | .error name message code => name.Unstyled ∧ escapeUnit ∉ message ∧ code.Unstyled
  | .failure .. => False
  | _ => True

def UnstyledItems : List Value → Prop
  | [] => True
  | item :: rest => item.Unstyled ∧ UnstyledItems rest

def UnstyledFields : List (Text × Value) → Prop
  | [] => True
  | (_, value) :: rest => value.Unstyled ∧ UnstyledFields rest

end

theorem unstyled_of_mem {items : List Value} (h : UnstyledItems items) {item : Value}
    (hmem : item ∈ items) : item.Unstyled := by
  induction items with
  | nil => cases hmem
  | cons first rest ih =>
    rcases List.mem_cons.1 hmem with rfl | hmem
    · exact h.1
    · exact ih h.2 hmem

theorem unstyled_of_get? {fields : List (Text × Value)} (h : UnstyledFields fields) {key : Text}
    {v : Value} (hget : Fields.get? key fields = some v) : v.Unstyled := by
  induction fields with
  | nil => cases hget
  | cons p rest ih =>
    obtain ⟨k, w⟩ := p
    rw [Fields.get?, List.lookup_cons] at hget
    split at hget
    · cases hget
      exact h.1
    · exact ih h.2 hget

/-- A member is inside the value that shows it. -/
theorem unstyled_member {v : Value} (h : v.Unstyled) (name : String) :
    (v.member name).Unstyled := by
  cases v with
  | object fields =>
    show ((Fields.get? (Text.ofString name) fields).getD .undefined).Unstyled
    cases hget : Fields.get? (Text.ofString name) fields with
    | none => exact trivial
    | some v => exact unstyled_of_get? h hget
  | error own message code =>
    rw [member]
    split
    · exact h.1
    · split
      · exact h.2.1
      · split
        · exact h.2.2
        · exact trivial
  | failure kind message envelope => exact h.elim
  | _ => exact trivial

/-! ### Plain texts -/

/-- The text of an element is empty where the element is nothing, and otherwise its own. -/
theorem mem_convertItems? {items : List Value} {ts : List Text}
    (h : convertItems? items = some ts) {t : Text} (ht : t ∈ ts) :
    t = [] ∨ ∃ item ∈ items, item.convert? = some t := by
  induction items generalizing ts with
  | nil =>
    cases h
    cases ht
  | cons item rest ih =>
    have hrest : ∀ {us : List Text}, convertItems? rest = some us → t ∈ us →
        t = [] ∨ ∃ item' ∈ item :: rest, item'.convert? = some t := by
      intro us hus htus
      refine (ih hus htus).imp_right ?_
      rintro ⟨item', hmem, hitem'⟩
      exact ⟨item', List.mem_cons_of_mem item hmem, hitem'⟩
    have hnothing : (convertItems? rest).map ([] :: ·) = some ts →
        t = [] ∨ ∃ item' ∈ item :: rest, item'.convert? = some t := by
      intro hmap
      obtain ⟨us, hus, rfl⟩ := Option.map_eq_some_iff.1 hmap
      rcases List.mem_cons.1 ht with rfl | ht
      · exact Or.inl rfl
      · exact hrest hus ht
    cases item with
    | undefined => exact hnothing h
    | null => exact hnothing h
    | _ =>
      rw [convertItems?] at h
      · split at h
        · next u us hu hus =>
          cases h
          rcases List.mem_cons.1 ht with rfl | ht
          · exact Or.inr ⟨_, List.mem_cons_self, hu⟩
          · exact hrest hus ht
        · cases h
      all_goals
        intro hitem
        cases hitem

theorem not_mem_errorText {name message : Text} (hname : escapeUnit ∉ name)
    (hmessage : escapeUnit ∉ message) : escapeUnit ∉ errorText name message := by
  have hcolon : escapeUnit ∉ colon := by decide
  unfold errorText
  split
  · exact hmessage
  · split
    · exact hname
    · simp [hname, hcolon, hmessage]

theorem printable_chain_text (c : Chain) : c.text.Printable := by
  have hname : ∀ kind : Chain.Kind, kind.name.Printable := by
    intro kind
    cases kind <;> decide
  unfold Chain.text
  split
  · exact (((hname _).append (by decide)).append c.value.printable_text).append (by decide)
  · exact hname _

theorem escapeUnit_lt : escapeUnit < 0x20 := by decide

/-- **The plain text of a value has no units but those of its own texts and printable ones.** -/
theorem not_mem_convert? (v : Value) : v.Unstyled → ∀ t, v.convert? = some t → escapeUnit ∉ t := by
  induction v using parts_induction with
  | undefined => exact fun _ t h => by cases h; decide
  | null => exact fun _ t h => by cases h; decide
  | bool b => exact fun _ t h => by cases h; cases b <;> decide
  | number x => exact fun _ t h => by cases h; exact x.printable_text.not_mem escapeUnit_lt
  | bigint n => exact fun _ t h => by cases h; exact (Text.printable_ofInt n).not_mem escapeUnit_lt
  | string s => exact fun hs t h => by cases h; exact hs
  | symbol description => exact fun _ t h => by cases h
  | array items ih =>
    intro hitems t h hescape
    rw [convert?, Option.map_eq_some_iff] at h
    obtain ⟨ts, hts, rfl⟩ := h
    rcases Text.mem_join hescape with hcomma | ⟨u, hu, hescape⟩
    · exact absurd hcomma (by decide)
    · rcases mem_convertItems? hts hu with rfl | ⟨item, hmem, hitem⟩
      · cases hescape
      · exact ih item hmem (unstyled_of_mem hitems hmem) u hitem hescape
  | object fields _ =>
    intro _ t h
    rw [convert?] at h
    split at h
    · cases h
    · cases h
      decide
  | chain c => exact fun _ t h => by cases h; exact (printable_chain_text c).not_mem escapeUnit_lt
  | error name message code ih _ =>
    intro herror t h
    cases name with
    | undefined =>
      cases h
      exact not_mem_errorText (by decide) herror.2.1
    | _ =>
      rw [convert?, Option.map_eq_some_iff] at h
      · obtain ⟨s, hs, rfl⟩ := h
        exact not_mem_errorText (ih herror.1 s hs) herror.2.1
      · intro hname
        cases hname
  | failure kind message fields _ => exact fun hfailure => hfailure.elim
  | circular shape => exact fun _ t h => by cases shape <;> cases h <;> decide

theorem not_mem_describe? {v : Value} (hv : v.Unstyled) {t : Text} (h : v.describe? = some t) :
    escapeUnit ∉ t := by
  cases v with
  | symbol description =>
    have hopen : escapeUnit ∉ Text.ofString "Symbol(" := by decide
    have hclose : escapeUnit ∉ Text.ofString ")" := by decide
    have hdescription : escapeUnit ∉ description := hv
    cases h
    simp [hopen, hclose, hdescription]
  | _ => exact not_mem_convert? _ hv t h

end Value

namespace Envelope

theorem not_mem_contextText? {v : Value} (hv : v.Unstyled) {t : Text}
    (h : contextText? v = some t) : escapeUnit ∉ t := by
  unfold contextText? Value.jsonText? at h
  cases hj : v.toJson? .spelt with
  | error e =>
    rw [hj] at h
    exact Value.not_mem_describe? hv h
  | ok j =>
    rw [hj] at h
    cases j with
    | none => exact Value.not_mem_describe? hv h
    | some j =>
      cases h
      exact (j.printable_text.elide contextLimit).not_mem Value.escapeUnit_lt

theorem not_mem_entryText? {p : Text × Value} (hkey : escapeUnit ∉ p.1) (hvalue : p.2.Unstyled)
    {t : Text} (h : entryText? p = some t) : escapeUnit ∉ t := by
  obtain ⟨s, hs, rfl⟩ := Option.map_eq_some_iff.1 h
  exact not_mem_equals (by decide) hkey (not_mem_contextText? hvalue hs)

/-! ### Lines -/

section

variable {colour : Colour}

theorem paints_labelled {label : String} (hlabel : escapeUnit ∉ Text.ofString label) {t : Text}
    (ht : escapeUnit ∉ t) : Paints (labelled colour label t) (labelled .plain label t) := by
  have hindent : Paints indent indent := Style.paints_self (by decide)
  have hcolon : Paints (Text.ofString ": ") (Text.ofString ": ") := Style.paints_self (by decide)
  have hcolumn : escapeUnit ∉ Text.ofString label
      ++ List.replicate (labelWidth - (Text.ofString label).length) (Text.unit ' ') := by
    have hblank : escapeUnit ≠ Text.unit ' ' := by decide
    simp [hlabel, hblank, List.mem_replicate]
  simp only [labelled, Style.paint_plain]
  exact ((hindent.append (Style.paints_paint colour Style.dim hcolumn)).append hcolon).append
    (Style.paints_self ht)

theorem paints_header {type : Text} (h : escapeUnit ∉ type) :
    Paints (header colour type) (header .plain type) := by
  have hmark := Style.paints_paint colour Style.red
    (show escapeUnit ∉ Text.ofString "✖" by decide)
  have htitle := Style.paints_paint colour Style.bold (show escapeUnit ∉ title by decide)
  have htype := Style.paints_paint colour Style.yellow h
  have hfixed : ∀ s : Text, escapeUnit ∉ s → Paints s s := fun _ hs => Style.paints_self hs
  unfold header
  simp only [Style.paint_plain]
  exact ((((hmark.append (hfixed _ (by decide))).append htitle).append
    (hfixed _ (by decide))).append htype).append (hfixed _ (by decide))

variable (colour)

theorem paints_leadingLines {e : Envelope Value} (htype : escapeUnit ∉ e.type)
    (hmessage : escapeUnit ∉ e.message) (hoperation : escapeUnit ∉ e.operation)
    (hresource : escapeUnit ∉ e.resource) :
    List.Forall₂ Paints (e.leadingLines colour) (e.leadingLines .plain) :=
  .cons (paints_header htype) <|
    .cons (paints_labelled (by decide) hmessage) <|
      .cons Style.paints_nil <|
        .cons (paints_labelled (by decide) hoperation) <|
          .cons (paints_labelled (by decide) hresource) .nil

theorem paints_contextLines? {context : Option (Fields Value)}
    (h : ∀ p ∈ context.getD [], escapeUnit ∉ p.1 ∧ p.2.Unstyled)
    {lines : List Text} (hlines : contextLines? .plain context = some lines) :
    ∃ painted, contextLines? colour context = some painted ∧ List.Forall₂ Paints painted lines := by
  cases context with
  | none =>
    cases hlines
    exact ⟨[], rfl, .nil⟩
  | some entries =>
    cases entries with
    | nil =>
      cases hlines
      exact ⟨[], rfl, .nil⟩
    | cons p rest =>
      obtain ⟨parts, hparts, rfl⟩ := Option.map_eq_some_iff.1 hlines
      have hescape : escapeUnit ∉ Text.join contextSeparator parts := by
        refine Text.not_mem_join (by decide) fun t ht => ?_
        obtain ⟨q, hq, hqt⟩ := exists_entry_of_mem hparts ht
        exact not_mem_entryText? (h q hq).1 (h q hq).2 hqt
      refine ⟨_, Option.map_eq_some_iff.2 ⟨parts, hparts, rfl⟩, ?_⟩
      exact .cons (paints_labelled (by decide) hescape) .nil

/-! ### Causes -/

theorem not_mem_causePart? {cause : Value} (h : cause.Unstyled) {name : String}
    (hname : escapeUnit ∉ Text.ofString name) {parts : List Text}
    (hparts : causePart? cause name = some parts) : ∀ t ∈ parts, escapeUnit ∉ t := by
  simp only [causePart?] at hparts
  split at hparts
  · obtain ⟨shown, hshown, rfl⟩ := Option.map_eq_some_iff.1 hparts
    have hmember := Value.not_mem_describe? (Value.unstyled_member h name) hshown
    intro t ht
    rw [List.mem_singleton.1 ht]
    exact not_mem_equals (by decide) hname hmember
  · cases hparts
    exact nofun

theorem not_mem_causeMessageLines? {cause : Value} (h : cause.Unstyled) {lines : List Text}
    (hlines : causeMessageLines? cause = some lines) : ∀ t ∈ lines, escapeUnit ∉ t := by
  simp only [causeMessageLines?] at hlines
  split at hlines
  · obtain ⟨shown, hshown, rfl⟩ := Option.map_eq_some_iff.1 hlines
    have hlabel : escapeUnit ∉ Text.ofString "              message=" := by decide
    have hmember := Value.not_mem_describe? (Value.unstyled_member h "message") hshown
    have hcut := Text.not_mem_elide (by decide) hmember messageLimit
    simp [hlabel, hcut]
  · cases hlines
    exact nofun

theorem paints_causeLines? {cause : Value} (h : cause.Unstyled) {lines : List Text}
    (hlines : causeLines? .plain cause = some lines) :
    ∃ painted, causeLines? colour cause = some painted ∧ List.Forall₂ Paints painted lines := by
  by_cases hobject : cause.isObject = true
  · obtain ⟨name, code, message, hname, hcode, hmessage, rfl⟩ :=
      (causeLines?_eq_some_iff hobject).1 hlines
    refine ⟨_, (causeLines?_eq_some_iff hobject).2 ⟨_, _, _, hname, hcode, hmessage, rfl⟩, ?_⟩
    refine List.rel_append ?_ (List.forall₂_same.2 fun t ht =>
      Style.paints_self (not_mem_causeMessageLines? h hmessage t ht))
    split
    · exact .nil
    · refine .cons (paints_labelled (by decide) ?_) .nil
      refine Text.not_mem_join (by decide) fun t ht => ?_
      rcases List.mem_append.1 ht with ht | ht
      · exact not_mem_causePart? h (by decide) hname t ht
      · exact not_mem_causePart? h (by decide) hcode t ht
  · unfold causeLines? at hlines ⊢
    rw [if_neg hobject] at hlines ⊢
    split at hlines
    · next htruthy =>
      obtain ⟨shown, hshown, rfl⟩ := Option.map_eq_some_iff.1 hlines
      rw [if_pos htruthy, hshown]
      exact ⟨_, rfl, .cons (paints_labelled (by decide) (Value.not_mem_describe? h hshown)) .nil⟩
    · next hfalsy =>
      cases hlines
      rw [if_neg hfalsy]
      exact ⟨[], rfl, .nil⟩

end

/-! ### The whole text -/

/-- No text of the envelope, of its context or of its cause holds the escape unit, and neither
context nor cause holds a failure. -/
structure Unstyled (e : Envelope Value) : Prop where
  type : escapeUnit ∉ e.type
  message : escapeUnit ∉ e.message
  operation : escapeUnit ∉ e.operation
  resource : escapeUnit ∉ e.resource
  context : ∀ p ∈ e.context.getD [], escapeUnit ∉ p.1 ∧ p.2.Unstyled
  cause : e.cause.Unstyled

/-- **Colour is decoration.** An envelope that has a text without colour has one in every colour,
and deleting its control sequences gives the text without colour. -/
theorem text?_unpainted {e : Envelope Value} (h : e.Unstyled) {t : Text}
    (ht : e.text? .plain = some t) (colour : Colour) :
    ∃ painted, e.text? colour = some painted ∧ Style.unpainted painted = t := by
  obtain ⟨context, cause, hcontext, hcause, rfl⟩ := text?_eq_some_iff.1 ht
  obtain ⟨context', hcontext', hcontexts⟩ := paints_contextLines? colour h.context hcontext
  obtain ⟨cause', hcause', hcauses⟩ := paints_causeLines? colour h.cause hcause
  have hdetails := List.rel_append hcontexts hcauses
  have hblank : context' ++ cause' = [] ↔ context ++ cause = [] := by
    rw [← List.length_eq_zero_iff, ← List.length_eq_zero_iff, hdetails.length_eq]
  have hgap : List.Forall₂ Paints (if context' ++ cause' = [] then [] else [[]])
      (if context ++ cause = [] then [] else [[]]) := by
    simp only [hblank]
    split
    · exact .nil
    · exact .cons Style.paints_nil .nil
  have hleading := paints_leadingLines colour h.type h.message h.operation h.resource
  have hlines := List.rel_append (List.rel_append hleading hgap) hdetails
  refine ⟨_, text?_eq_some_iff.2 ⟨context', cause', hcontext', hcause', rfl⟩, ?_⟩
  exact (Style.paints_join (by decide) hlines).unpainted_eq

/-- Line breaks of both sorts in the type, a container in itself and a symbol in the context, and an
error as the cause. -/
def brokenEnvelope : Envelope Value where
  resource := Text.ofString "registry"
  operation := Text.ofString "register"
  type := Text.ofString "A\r\nB\n"
  message := []
  context := some
    [(Text.ofString "list", .array [.string (Text.ofString "x\ny"), .circular .array]),
      (Text.ofString "mark", .symbol (Text.ofString "s"))]
  cause := .error (.string (Text.ofString "TypeError")) (Text.ofString "bad") (.bigint 7)

def brokenText : Text :=
  Text.join [Style.lineFeed]
    [Text.ofString "✖ ChainIdError [A\r\nB\n]",
      Text.ofString "  Message   : ",
      [],
      Text.ofString "  Operation : register",
      Text.ofString "  Resource  : registry",
      [],
      Text.ofString "  Context   : list=x\ny,  •  mark=Symbol(s)",
      Text.ofString "  Cause     : name=TypeError  code=7",
      Text.ofString "              message=bad"]

theorem text?_unpainted_broken : brokenEnvelope.Unstyled ∧
    brokenEnvelope.text? .plain = some brokenText ∧
    ∃ painted, brokenEnvelope.text? .full = some painted ∧
      Style.unpainted painted = brokenText := by
  have hstring : ∀ s, escapeUnit ∉ Text.ofString s → (Value.string (Text.ofString s)).Unstyled :=
    fun _ h => h
  have hcause : brokenEnvelope.cause.Unstyled := ⟨hstring _ (by decide), by decide, trivial⟩
  have hunstyled : brokenEnvelope.Unstyled := by
    refine ⟨by decide, by decide, by decide, by decide, ?_, hcause⟩
    intro p hp
    rcases List.mem_cons.1 hp with rfl | hp
    · exact ⟨by decide, hstring _ (by decide), trivial, trivial⟩
    · rw [List.mem_singleton.1 hp]
      have hmark : escapeUnit ∉ Text.ofString "s" := by decide
      exact ⟨by decide, hmark⟩
  have hplain : brokenEnvelope.text? .plain = some brokenText := by decide +kernel
  exact ⟨hunstyled, hplain, text?_unpainted hunstyled hplain .full⟩

end Envelope

end Interchain
