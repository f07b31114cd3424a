/-!
Sets and maps as lists in ascending order without repetitions, so that equal sets are equal
lists. The order is a parameter; it is asked both ways, so it need not decide equality.
-/

namespace Terminology.Ordered

variable {α β : Type}

def insert (lt : α → α → Bool) (x : α) : List α → List α
  | [] => [x]
  | y :: ys =>
      if lt x y then x :: y :: ys
      else if lt y x then y :: insert lt x ys
      else y :: ys

def insertAll (lt : α → α → Bool) (set xs : List α) : List α :=
  xs.foldl (fun set x => insert lt x set) set

def ofList (lt : α → α → Bool) (xs : List α) : List α := insertAll lt [] xs

/-- Changes the value at a key of an ascending map, which is `none` before the key is there. -/
def alter (lt : α → α → Bool) (key : α) (f : Option β → β) : List (α × β) → List (α × β)
  | [] => [(key, f none)]
  | (k, value) :: rest =>
      if lt key k then (key, f none) :: (k, value) :: rest
      else if lt k key then (k, value) :: alter lt key f rest
      else (k, f (some value)) :: rest

/-- The order of lists by their first difference; a list comes before its extensions. -/
def listLt (lt : α → α → Bool) : List α → List α → Bool
  | _, [] => false
  | [], _ :: _ => true
  | x :: xs, y :: ys => if lt x y then true else if lt y x then false else listLt lt xs ys

end Terminology.Ordered
