/-! # Type symbols

The types that a program mentions: named types with their assembly and type arguments, and the type
parameters of methods and types. A type is closed if no type parameter occurs in it. -/

namespace TypeOrigins
set_option autoImplicit false

/-- What declares a type parameter. -/
inductive OwnerKind where
  | method
  | type
deriving DecidableEq, Repr

/-- The word for an owner kind in documents. -/
def OwnerKind.word : OwnerKind → String
  | .method => "method"
  | .type => "type"

/-- A type parameter: the one at position `ordinal` of the method or type `ownerId`. -/
structure TypeParameter where
  name : String
  ownerId : String
  ownerKind : OwnerKind
  ordinal : Int
deriving DecidableEq, Repr

/-- A type as the program mentions it. -/
inductive TypeSymbol where
  | named (fullName assembly : String) (arguments : List TypeSymbol)
  | parameter (p : TypeParameter)
deriving Repr, Inhabited

namespace TypeSymbol

mutual

/-- Equality of types is decidable. -/
def decEq : (t u : TypeSymbol) → Decidable (t = u)
  | .named n a ts, .named n' a' us =>
      if hn : n = n' then
        if ha : a = a' then
          match decEqList ts us with
          | isTrue h => isTrue (by rw [hn, ha, h])
          | isFalse h => isFalse (by intro e; cases e; exact h rfl)
        else isFalse (by intro e; cases e; exact ha rfl)
      else isFalse (by intro e; cases e; exact hn rfl)
  | .parameter p, .parameter q =>
      if h : p = q then isTrue (by rw [h]) else isFalse (by intro e; cases e; exact h rfl)
  | .named _ _ _, .parameter _ => isFalse (by intro e; cases e)
  | .parameter _, .named _ _ _ => isFalse (by intro e; cases e)

/-- Equality of lists of types is decidable. -/
def decEqList : (ts us : List TypeSymbol) → Decidable (ts = us)
  | [], [] => isTrue rfl
  | [], _ :: _ => isFalse (by intro e; cases e)
  | _ :: _, [] => isFalse (by intro e; cases e)
  | t :: ts, u :: us =>
      match decEq t u with
      | isFalse h => isFalse (by intro e; cases e; exact h rfl)
      | isTrue h =>
          match decEqList ts us with
          | isTrue h' => isTrue (by rw [h, h'])
          | isFalse h' => isFalse (by intro e; cases e; exact h' rfl)

end

instance : DecidableEq TypeSymbol := decEq

mutual

/-- Whether no type parameter occurs in a type. -/
def isClosed : TypeSymbol → Bool
  | .named _ _ arguments => allClosed arguments
  | .parameter _ => false

/-- Whether no type parameter occurs in any of the types. -/
def allClosed : List TypeSymbol → Bool
  | [] => true
  | t :: rest => t.isClosed && allClosed rest

end

mutual

/-- The text of a type: a parameter's name, or a full name with its arguments between angle
brackets. -/
def display : TypeSymbol → String
  | .named fullName _ [] => fullName
  | .named fullName _ (a :: rest) => fullName ++ "<" ++ a.display ++ displayMore rest ++ ">"
  | .parameter p => p.name

/-- The texts of further type arguments, each after a comma. -/
def displayMore : List TypeSymbol → String
  | [] => ""
  | t :: rest => ", " ++ t.display ++ displayMore rest

end

end TypeSymbol

end TypeOrigins
