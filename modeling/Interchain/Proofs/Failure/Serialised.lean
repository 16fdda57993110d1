import Interchain.Chain.Parse
import Interchain.Proofs.Value.Tree
import Interchain.Session.Query

/-! # Failures as JSON

A failure is shown to a reader even where its context holds big integers or something circular, but
it is not written as JSON then. Its JSON is the tree of an object, the name of the failure in front
of the members of its envelope, and the only members that may have no tree are the context and the
cause (`treeless_fields_iff`). So a failure can be written exactly if nothing treeless was put into
either of them (`stringify_built`).
-/

namespace Interchain.Failure

/-- The failures that are made: those of any envelope, and those of texts that are no chain. -/
inductive Built (colour : Colour) : Failure → Prop
  | general {e : Envelope Value} {f : Failure} : build colour .general e = .ok f → Built colour f
  | unreadable {s : Text} {f : Failure} : Chain.unreadable colour s = .ok f → Built colour f

/-- The values of the context and the cause. -/
def Carries (f : Failure) (v : Value) : Prop :=
  (∃ key, (key, v) ∈ f.envelope.context.getD []) ∨ v = f.envelope.cause

variable {colour : Colour} {kind : FailureKind} {e : Envelope Value} {f : Failure}

theorem eq_of_build (h : build colour kind e = .ok f) :
    ∃ message, e.text? colour = some message ∧ f = ⟨kind, e, message⟩ := by
  unfold build at h
  split at h
  · next message hmessage =>
    cases h
    exact ⟨message, hmessage, rfl⟩
  · cases h

/-! ### Members without a tree -/

theorem not_treeless_string (t : Text) : ¬(Value.string t).Treeless := by
  rw [Value.treeless_iff]
  rintro ⟨e, he⟩
  cases he

theorem not_treeless_undefined : ¬Value.undefined.Treeless := by
  rw [Value.treeless_iff]
  rintro ⟨e, he⟩
  cases he

theorem carries_treeless_iff : (∃ v, f.Carries v ∧ v.Treeless) ↔
    (∃ p ∈ f.envelope.context.getD [], p.2.Treeless) ∨ f.envelope.cause.Treeless := by
  constructor
  · rintro ⟨v, ⟨key, hmem⟩ | rfl, hv⟩
    · exact Or.inl ⟨_, hmem, hv⟩
    · exact Or.inr hv
  · rintro (⟨p, hmem, hp⟩ | hcause)
    · exact ⟨p.2, Or.inl ⟨p.1, hmem⟩, hp⟩
    · exact ⟨_, Or.inr rfl, hcause⟩

/-- **A member has no tree exactly if something in the context, or the cause, has none.** The other
members are texts, and a failure of a text that is no chain has no cause. -/
theorem treeless_fields_iff (h : Built colour f) :
    (∃ p ∈ f.fields, p.2.Treeless) ↔ ∃ v, f.Carries v ∧ v.Treeless := by
  rw [carries_treeless_iff]
  cases h with
  | general h =>
    obtain ⟨message, -, rfl⟩ := eq_of_build h
    simp only [fields]
    cases Envelope.context _ with
    | none => simp [not_treeless_string]
    | some entries => simp [not_treeless_string, Value.treeless_object_iff]
  | unreadable h =>
    obtain ⟨message, -, rfl⟩ := eq_of_build h
    simp [fields, Chain.parseRejection, not_treeless_string, not_treeless_undefined,
      Value.treeless_object_iff]

/-- The members of the envelope may stand in any order. -/
theorem treeless_members_iff (h : Built colour f) {members : Fields Value}
    (horder : members.Perm f.fields) :
    (Value.failure f.kind f.message members).Treeless ↔ ∃ v, f.Carries v ∧ v.Treeless := by
  rw [Value.treeless_failure_iff, ← treeless_fields_iff h]
  simp only [horder.mem_iff]

/-! ### JSON texts -/

section

variable {v : Value}

theorem stringify_eq_unwritable_iff :
    (Query.stringify v).answer colour = .error .unwritable ↔ v.Treeless := by
  rw [Value.treeless_iff]
  show Query.stringified v = _ ↔ _
  unfold Query.stringified Value.jsonText?
  cases v.toJson? .refused with
  | error e => exact ⟨fun _ => ⟨e, rfl⟩, fun _ => rfl⟩
  | ok written =>
    constructor
    · intro h
      cases h
    · rintro ⟨e, he⟩
      cases he

theorem stringify_of_hasTree {tree : Json} (h : v.HasTree tree) :
    (Query.stringify v).answer colour = .ok (.text tree.text) := by
  show Query.stringified v = _
  rw [Query.stringified, Value.jsonText?, Value.written_of_hasTree h]
  rfl

end

/-- **When a failure is written as JSON, and as what.** Let a failure be made, and let the members of
its envelope stand in any order. Writing it fails exactly if a big integer or something circular is
come across in a value of its context or in its cause. Otherwise its JSON is the text of the one
tree of an object with the name of the failure as its first member and those of the envelope behind
it. -/
theorem stringify_built (h : Built colour f) {members : Fields Value}
    (horder : members.Perm f.fields) (shade : Colour) :
    ((Query.stringify (.failure f.kind f.message members)).answer shade = .error .unwritable ↔
      ∃ v, f.Carries v ∧
        ((∃ n, v.Meets (.bigint n)) ∨ ∃ shape, v.Meets (.circular shape))) ∧
    ((¬∃ v, f.Carries v ∧
        ((∃ n, v.Meets (.bigint n)) ∨ ∃ shape, v.Meets (.circular shape))) →
      ∃ tree,
        (∀ other, Value.HasTree
          (.object ((Text.ofString "name", .string f.kind.name) :: members)) other ↔
            other = tree) ∧
        (Query.stringify (.failure f.kind f.message members)).answer shade =
          .ok (.text tree.text)) := by
  have htreeless := treeless_members_iff h horder
  refine ⟨stringify_eq_unwritable_iff.trans htreeless, ?_⟩
  intro hno
  obtain ⟨tree, htree⟩ := Value.exists_tree (fun hv => hno (htreeless.1 hv)) nofun
  refine ⟨tree, ?_, stringify_of_hasTree htree⟩
  intro other
  have hsame : (Value.failure f.kind f.message members).HasTree other ↔
      (Value.object ((Text.ofString "name", .string f.kind.name) :: members)).HasTree other :=
    Value.hasTree_failure_iff
  rw [← hsame]
  constructor
  · exact htree.unique
  · rintro rfl
    exact htree

/-- An envelope with this context and this cause. -/
def enveloping (context : Fields Value) (cause : Value) : Envelope Value where
  resource := Text.ofString "core.chain"
  operation := Text.ofString "make"
  type := Envelope.validation
  message := Text.ofString "bad"
  context := some context
  cause := cause

/-- The big integer is the name of an error, which is not written. -/
def hidden : Envelope Value :=
  enveloping
    [(Text.ofString "list",
        .array [.undefined, .symbol (Text.ofString "s"), .chain Chain.solana]),
      (Text.ofString "note", .undefined)]
    (.error (.bigint 7) (Text.ofString "bad") .undefined)

/-- Its members as JSON: the chain as its number, and nothing to be seen of the error. -/
def hiddenTree : Json :=
  .object
    [(Text.ofString "name", .string (Text.ofString "ChainIdError")),
      (Text.ofString "resource", .string (Text.ofString "core.chain")),
      (Text.ofString "operation", .string (Text.ofString "make")),
      (Text.ofString "message", .string (Text.ofString "bad")),
      (Text.ofString "context",
        .object [(Text.ofString "list", .array [.null, .null, .number Chain.solana.value])]),
      (Text.ofString "cause", .object []),
      (Text.ofString "type", .string Envelope.validation)]

theorem hasTree_hidden (message : Text) :
    Value.HasTree (.failure .general message (fields ⟨.general, hidden, message⟩)) hiddenTree := by
  have hlist : Value.HasTree
      (.array [.undefined, .symbol (Text.ofString "s"), .chain Chain.solana])
      (.array [.null, .null, .number Chain.solana.value]) :=
    .array (.omitted .undefined (.omitted (.symbol _) (.item (.chain (.number rfl)) .nil)))
  have hcause : Value.HasTree (.error (.bigint 7) (Text.ofString "bad") .undefined) (.object []) :=
    .error (.omitted .undefined .nil)
  refine .failure (.member (.string _) ?_)
  refine .member (.string _) (.member (.string _) (.member (.string _) (.member ?_ ?_)))
  · exact .object (.member hlist (.omitted .undefined .nil))
  · exact .member hcause (.member (.string _) .nil)

/-- The big integer is in the envelope of the failure that is the cause. -/
def nested : Envelope Value :=
  enveloping [] (.failure .general [] [(Text.ofString "context", .array [.bigint 7])])

/-- A failure that is written although a big integer is hidden in its cause, and one that is not
written. -/
theorem stringify_built_hidden :
    (∃ f, build .plain .general hidden = .ok f ∧
      (¬∃ v, f.Carries v ∧
        ((∃ n, v.Meets (.bigint n)) ∨ ∃ shape, v.Meets (.circular shape))) ∧
      (∀ other, Value.HasTree
        (.object ((Text.ofString "name", .string f.kind.name) :: f.fields)) other ↔
          other = hiddenTree) ∧
      (Query.stringify (.failure f.kind f.message f.fields)).answer .plain =
        .ok (.text hiddenTree.text)) ∧
    ∃ f, build .plain .general nested = .ok f ∧
      f.Carries nested.cause ∧ nested.cause.Meets (.bigint 7) ∧
      (Query.stringify (.failure f.kind f.message f.fields)).answer .plain =
        .error .unwritable := by
  constructor
  · obtain ⟨message, hmessage⟩ := Option.isSome_iff_exists.1
      (show (hidden.text? .plain).isSome = true by decide +kernel)
    have hbuild : build .plain .general hidden = .ok ⟨.general, hidden, message⟩ := by
      rw [build, hmessage]
    have hwritten := stringify_built (.general hbuild) (List.Perm.refl _) .plain
    have hno : ¬∃ v, Carries ⟨.general, hidden, message⟩ v ∧ v.Treeless := by
      refine mt hwritten.1.2 ?_
      rw [stringify_of_hasTree (hasTree_hidden message)]
      intro h
      cases h
    obtain ⟨tree, htree, hanswer⟩ := hwritten.2 hno
    have hhidden : hiddenTree = tree :=
      (htree hiddenTree).1 (Value.hasTree_failure_iff.1 (hasTree_hidden message))
    rw [← hhidden] at htree hanswer
    exact ⟨_, hbuild, hno, htree, hanswer⟩
  · obtain ⟨message, hmessage⟩ := Option.isSome_iff_exists.1
      (show (nested.text? .plain).isSome = true by decide +kernel)
    have hbuild : build .plain .general nested = .ok ⟨.general, nested, message⟩ := by
      rw [build, hmessage]
    have hcause : Carries ⟨.general, nested, message⟩ nested.cause := Or.inr rfl
    have hmeets : nested.cause.Meets (.bigint 7) :=
      .envelope List.mem_cons_self (.item List.mem_cons_self (.self _))
    refine ⟨_, hbuild, hcause, hmeets, ?_⟩
    exact (stringify_built (.general hbuild) (List.Perm.refl _) .plain).1.2
      ⟨_, hcause, Or.inl ⟨_, hmeets⟩⟩

end Interchain.Failure
