/-
The collection of a user, `routers/collections.py`.
-/
import RollPig.Models
import Mathlib.Data.List.Dedup
import Mathlib.Data.List.Sort
import Mathlib.Data.String.Basic

namespace RollPig

/-- `get_collection`. -/
def Collections.getCollection (userId : String) (db : Db) : List String :=
  (((db.collections.filter fun row => row.userId = userId).map (·.pigId)).dedup).insertionSort
    (· ≤ ·)

end RollPig
