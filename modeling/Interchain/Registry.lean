import Interchain.Failure.Basic

/-! # The registry

Every chain is issued by a registry, which keeps one chain for each number it was asked for. So two
chains of one registry have the same number exactly if they are the same object. An operation runs
against the registry and may raise; what it issued before that stays issued.
-/

namespace Interchain

structure Registry where
  /-- The kept chains under their numbers, in the order in which the numbers were first used. -/
  entries : List (Number × Chain)
  /-- How many chains were ever made. The next one has this serial. -/
  issued : Nat

abbrev Action := ExceptT Raised (StateM Registry)

namespace Registry

/-- The chain that is kept under a number; both zeros are one key. -/
def find? (r : Registry) (key : Number) : Option Chain := r.entries.lookup key.unsignZero

/-- Keeps a chain under a key. A chain that was there before loses its place to it. -/
def put (key : Number) (c : Chain) : List (Number × Chain) → List (Number × Chain)
  | [] => [(key, c)]
  | (k, d) :: rest => if k = key then (key, c) :: rest else (k, d) :: put key c rest

/-- Makes a chain and keeps it. -/
def issue (r : Registry) (kind : Chain.Kind) (value : Number) : Chain × Registry :=
  let c : Chain := ⟨kind, value, r.issued⟩
  (c, ⟨put value.unsignZero c r.entries, r.issued + 1⟩)

def empty : Registry := ⟨[], 0⟩

/-- The two chains of a kind of their own are issued from the start. -/
def initial : Registry := ((empty.issue .any (.ofNat 0)).2.issue .solana (.ofNat 1)).2

/-- The chain of a number, issued now if it was not before. -/
def chainOf (r : Registry) (x : Number) : Chain × Registry :=
  match r.find? x with
  | some c => (c, r)
  | none => r.issue .unknown x

end Registry

namespace Action

/-- A step that leaves the registry alone. -/
def ofExcept {α : Type} (x : Except Raised α) : Action α := fun r => (x, r)

/-- The chain of a number. -/
def chainOf (x : Number) : Action Chain := fun r => (.ok (r.chainOf x).1, (r.chainOf x).2)

/-! ### What the steps do to a registry -/

variable {ε α β : Type}

@[simp] theorem pure_apply (x : α) (r : Registry) :
    (pure x : ExceptT ε (StateM Registry) α) r = (.ok x, r) := rfl

theorem bind_apply (a : ExceptT ε (StateM Registry) α) (f : α → ExceptT ε (StateM Registry) β)
    (r : Registry) :
    (a >>= f) r =
      match a r with
      | (.ok x, r') => f x r'
      | (.error e, r') => (.error e, r') := by
  simp only [bind, ExceptT.bind, ExceptT.mk, StateT.bind]
  rcases a r with ⟨_ | _, _⟩ <;> rfl

theorem map_apply (f : α → β) (a : ExceptT ε (StateM Registry) α) (r : Registry) :
    (f <$> a) r = ((a r).1.map f, (a r).2) := by
  simp only [Functor.map, ExceptT.map, ExceptT.mk, bind, StateT.bind]
  rcases a r with ⟨_ | _, _⟩ <;> rfl

theorem tryCatch_apply (a : ExceptT ε (StateM Registry) α)
    (handle : ε → ExceptT ε (StateM Registry) α) (r : Registry) :
    (tryCatch a handle) r =
      match a r with
      | (.ok x, r') => (.ok x, r')
      | (.error e, r') => handle e r' := by
  simp only [tryCatch, tryCatchThe, MonadExceptOf.tryCatch, ExceptT.tryCatch, ExceptT.mk, bind,
    StateT.bind]
  rcases a r with ⟨_ | _, _⟩ <;> rfl

end Action

end Interchain
