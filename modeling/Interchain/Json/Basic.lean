import Interchain.Fields
import Interchain.Number.Shortest

/-! # JSON trees

The tree of a JSON document. Its objects hold ordered fields. Its numbers are rounded to double
precision, so the number of a huge literal is infinite; only finite numbers have a JSON text.
-/

namespace Interchain

inductive Json where
  | null
  | bool (b : Bool)
  | number (x : Number)
  | string (t : Text)
  | array (items : List Json)
  | object (fields : List (Text × Json))

end Interchain
