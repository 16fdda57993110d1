import Interchain.Number.Arithmetic
import Interchain.Number.Shortest

/-! # Chains

A chain identifies a network by a number of 16 bits. Two numbers have a kind of their own, all
others are kept as unknown. A chain also carries the serial under which it was issued; two chains
are the same object if they have the same serial.
-/

namespace Interchain

inductive Chain.Kind where
  | any
  | solana
  | unknown
  deriving DecidableEq

def Chain.Kind.name : Chain.Kind → Text
  | .any => Text.ofString "Any"
  | .solana => Text.ofString "Solana"
  | .unknown => Text.ofString "Unknown"

structure Chain where
  kind : Chain.Kind
  value : Number
  serial : Nat
  deriving DecidableEq

namespace Chain

/-- Not bound to a network. -/
def any : Chain := ⟨.any, .ofNat 0, 0⟩

def solana : Chain := ⟨.solana, .ofNat 1, 1⟩

def default : Chain := any

/-- The canonical text: the name of the kind, and after `Unknown` the number in brackets. -/
def text (c : Chain) : Text :=
  match c.kind with
  | .unknown => c.kind.name ++ [Text.unit '('] ++ c.value.text ++ [Text.unit ')']
  | kind => kind.name

/-- Whether two chains have the same number. -/
def equals (a b : Chain) : Bool := a.value.equal b.value

/-- Whether two chains are the same object. -/
def same (a b : Chain) : Bool := a.serial == b.serial

/-- Negative, zero or positive as the first number is below, at or above the second. -/
def compare (a b : Chain) : Number := a.value.sub b.value

def isKnown (c : Chain) : Bool := c.kind != .unknown

/-- The chains in ascending order of their numbers. -/
def sort (chains : List Chain) : List Chain := chains.mergeSort fun a b => !(compare a b).isPositive

end Chain

end Interchain
