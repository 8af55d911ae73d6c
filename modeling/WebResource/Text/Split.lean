namespace WebResource

/-!
# Cutting text at a separator

`splitOn` cuts at every separator, so joining the pieces gives the text back; `cut` and `cutLast`
cut once, at the first and at the last separator.
-/

namespace Text

variable {α : Type} [DecidableEq α]

/-- The pieces of a list between the occurrences of `sep`; there is always at least one. -/
def splitOn (sep : α) : List α → List (List α)
  | [] => [[]]
  | a :: as =>
    if a = sep then [] :: splitOn sep as
    else
      match splitOn sep as with
      | [] => [[a]]
      | p :: ps => (a :: p) :: ps

def joinWith (sep : α) : List (List α) → List α
  | [] => []
  | [p] => p
  | p :: q :: ps => p ++ sep :: joinWith sep (q :: ps)

/-- The parts before and after the first `sep`. -/
def cut (sep : α) : List α → Option (List α × List α)
  | [] => none
  | a :: as => if a = sep then some ([], as) else (cut sep as).map fun (l, r) => (a :: l, r)

/-- The parts before and after the last `sep`. -/
def cutLast (sep : α) (as : List α) : Option (List α × List α) :=
  (cut sep as.reverse).map fun (l, r) => (r.reverse, l.reverse)

theorem splitOn_ne_nil (sep : α) (as : List α) : splitOn sep as ≠ [] := by
  cases as with
  | nil => simp [splitOn]
  | cons a as =>
      unfold splitOn
      split
      · simp
      · split <;> simp

def pieces (sep : Char) (s : String) : List String :=
  (splitOn sep s.toList).map String.ofList

def before (sep : Char) (s : String) : String :=
  match cut sep s.toList with
  | some (l, _) => String.ofList l
  | none => s

/-- The text without the occurrences of a character at its end. -/
def dropEnd (c : Char) (s : String) : String :=
  String.ofList (s.toList.reverse.dropWhile (· == c)).reverse

end Text

end WebResource
