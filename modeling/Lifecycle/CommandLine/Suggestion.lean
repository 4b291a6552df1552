import Lifecycle.Text

/- Suggestions for misspelt words.

   The distance of two words is the least number of letters to insert, delete,
   replace or swap with a neighbour, no letter being touched twice. A word is
   suggested when it is among the nearest, within three edits, and similar in more
   than two fifths of the longer word. -/
namespace Lifecycle.CommandLine

/-! ## Distance -/

/-- The rest of a row of distances, from the previous two rows. -/
def fillRow (current : UInt16) (before : Option UInt16) :
    Option UInt16 → Nat → Text → List Nat → List Nat → List Nat
  | last, left, x :: xs, diagonal :: above :: row, older =>
    let plain := min (min (left + 1) (above + 1)) (diagonal + if x = current then 0 else 1)
    let swapped : Nat := match last, before, older with
      | some y, some b, o :: _ => if x = b ∧ y = current then min plain (o + 1) else plain
      | _, _, _ => plain
    swapped :: fillRow current before (some x) swapped xs (above :: row)
      (if last.isSome then older.drop 1 else older)
  | _, _, _, _, _ => []

/-- Rows of distances, one per letter of the second word. -/
def rows (word : Text) : Option UInt16 → List Nat → List Nat → Nat → Text → List Nat
  | _, row, _, _, [] => row
  | before, row, older, count, c :: rest =>
    rows word (some c) ((count + 1) :: fillRow c before none (count + 1) word row older) row
      (count + 1) rest

/-- How many edits a word is at most away from another to be suggested. -/
def maxDistance : Nat := 3

/-- The distance of two words; words of very different length are as far as can be. -/
def distance (a b : Text) : Nat :=
  if maxDistance < max a.length b.length - min a.length b.length then max a.length b.length
  else (rows a none (List.range (a.length + 1)) [] 0 b).getLast?.getD 0

/-! ## Suggestions -/

/-- Whether a word at a distance is similar enough. -/
def isSimilar (word candidate : Text) : Bool :=
  let length := max word.length candidate.length
  2 * length < 5 * (length - distance word candidate)

/-- The nearest of the similar candidates, within a distance. -/
def nearest (word : Text) (candidates : List Text) : List Text :=
  let similar := candidates.filter fun c => 1 < c.length && isSimilar word c
  let best := similar.foldl (fun best c => min best (distance word c)) maxDistance
  similar.filter fun c => distance word c = best

/-- The order of words, unit by unit. -/
def precedes : Text → Text → Bool
  | [], _ => true
  | _ :: _, [] => false
  | a :: as, b :: bs => if a = b then precedes as bs else a < b

def insertWord (word : Text) : List Text → List Text
  | [] => [word]
  | w :: rest => if precedes word w then word :: w :: rest else w :: insertWord word rest

/-- The words to suggest, in order. Options are compared without their dashes. -/
def suggestions (word : Text) (candidates : List Text) : List Text :=
  match Text.after? "--" word with
  | none => (nearest word candidates.eraseDups).foldr insertWord []
  | some word =>
    ((nearest word (candidates.eraseDups.map (·.drop 2))).foldr insertWord []).map ("--" ++ ·)

/-- The line that makes suggestions, if there are any. -/
def suggestionLine (word : Text) (candidates : List Text) : Text :=
  match suggestions word candidates with
  | [] => []
  | [w] => "\n(Did you mean " ++ w ++ "?)"
  | ws => "\n(Did you mean one of " ++ Text.join ", " ws ++ "?)"

end Lifecycle.CommandLine
