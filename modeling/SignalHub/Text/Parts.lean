/-! A text is cut into parts at every separator, or into two halves at the first one. -/
namespace SignalHub.Parts

variable {α : Type} [DecidableEq α]

/-- The parts between separators; there is always at least one. -/
def split (separator : α) : List α → List (List α)
  | [] => [[]]
  | a :: rest =>
    if a = separator then [] :: split separator rest
    else match split separator rest with
      | part :: parts => (a :: part) :: parts
      | [] => [[a]]

/-- What comes before the first separator and, if there is one, what comes after it. -/
def cut (separator : α) : List α → List α × Option (List α)
  | [] => ([], none)
  | a :: rest =>
    if a = separator then ([], some rest)
    else let (left, right) := cut separator rest; (a :: left, right)

/-- What comes before the last separator and after it, if there is one. -/
def cutLast (separator : α) (text : List α) : Option (List α × List α) :=
  match cut separator text.reverse with
  | (right, some left) => some (left.reverse, right.reverse)
  | (_, none) => none

end SignalHub.Parts
