/-! # Sorting

Stable insertion sort by a Boolean order. -/

namespace TypeOrigins
set_option autoImplicit false

/-- The list with `a` put before the first element it is not above. -/
def insertBy {α : Type} (le : α → α → Bool) (a : α) : List α → List α
  | [] => [a]
  | b :: rest => if le a b then a :: b :: rest else b :: insertBy le a rest

/-- The list in order; elements that are level keep their order. -/
def sortBy {α : Type} (le : α → α → Bool) (l : List α) : List α :=
  l.foldr (insertBy le) []

/-- Texts in the order of their code points. -/
def sortTexts (l : List String) : List String :=
  sortBy (fun a b => decide (a ≤ b)) l

end TypeOrigins
