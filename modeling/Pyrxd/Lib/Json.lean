import Mathlib.Data.Rat.Defs

/-!
# JSON values

What `json.loads` gives back and `json.dumps` is handed. The text itself is read
and written by the standard library, which a model takes as a parameter.
-/

namespace Pyrxd.Lib

inductive Json where
  | null
  | bool (b : Bool)
  | int (n : Int)
  | float (q : ℚ)
  /-- Python reads and writes these as well. -/
  | nan
  | infinity (negative : Bool)
  | str (s : String)
  | arr (xs : List Json)
  | obj (entries : List (String × Json))

namespace Json

/-- `d.get(k)`. -/
def get (entries : List (String × Json)) (k : String) : Json :=
  (entries.lookup k).getD null

/-- The number that a dict key or a comparison sees in an `isinstance(x, int)`;
a `bool` is one. -/
def asInt : Json → Option Int
  | int n => some n
  | bool b => some (if b then 1 else 0)
  | _ => none

end Json

end Pyrxd.Lib
