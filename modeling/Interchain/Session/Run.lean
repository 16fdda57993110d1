import Interchain.Session.Request

/-! # Sessions

A session carries out requests in turn against one registry. A request that fails does not stop
it. For each chain that comes out, the reply also tells which request was the first to give out the
same object.
-/

namespace Interchain

structure Session where
  registry : Registry
  results : Results

structure Reply where
  outcome : Except Raised Answer
  /-- The first request that answered with the object of this answer. -/
  first : Option Nat
  /-- For each chain that was given out, the first request that gave out the same object, as its
  answer or inside it. -/
  origins : List Nat

namespace Session

def initial : Session := ⟨Registry.initial, []⟩

/-- What an outcome gives out. -/
def given : Except Raised Answer → Given Chain
  | .ok answer => ⟨answer.chain?, answer.inside⟩
  | .error _ => ⟨none, []⟩

/-- The first request that answered with an object, counting the latest one last. -/
def firstReturn (results : Results) (c : Chain) : Nat :=
  results.findIdx fun given => given.chain?.any (Chain.same c)

/-- The first request that gave out an object, counting the latest one last. -/
def origin (results : Results) (c : Chain) : Nat :=
  results.findIdx fun given => given.all.any (Chain.same c)

def step (colour : Colour) (s : Session) (request : Request) : Reply × Session :=
  let (outcome, registry) := request.perform colour s.results s.registry
  let given := given outcome
  (⟨outcome, given.chain?.map (firstReturn s.results), given.all.map (origin s.results)⟩,
    ⟨registry, s.results ++ [given]⟩)

/-- The replies to requests in turn. -/
def run (colour : Colour) (s : Session) : List Request → List Reply
  | [] => []
  | request :: rest =>
    let (reply, s) := step colour s request
    reply :: run colour s rest

end Session

end Interchain
