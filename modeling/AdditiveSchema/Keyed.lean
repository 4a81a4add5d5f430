/-!
# Lists in the order of a key

A list that holds at most one element per key, in ascending order of the keys. `insert` puts an
element in its place and replaces the one that has the same key; `ofList` inserts from the left,
so the last of several elements with one key stays.
-/

namespace AdditiveSchema.Keyed

variable {α κ : Type} [Ord κ]

/-- Puts an element in its place. An element with the same key gives way. -/
def insert (key : α → κ) (a : α) : List α → List α
  | [] => [a]
  | b :: bs =>
    match compare (key a) (key b) with
    | .lt => a :: b :: bs
    | .eq => a :: bs
    | .gt => b :: insert key a bs

/-- The elements in the order of their keys, the last of each key. -/
def ofList (key : α → κ) (as : List α) : List α :=
  as.foldl (fun bs a => insert key a bs) []

/-- The element with the key. -/
def find? [BEq κ] (key : α → κ) (k : κ) (as : List α) : Option α :=
  as.find? fun a => key a == k

end AdditiveSchema.Keyed
