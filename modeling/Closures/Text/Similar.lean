/-!
# Similar words

How much two words have in common, between zero and one. Letters match when they
are equal and their places are not far apart; the measure counts the matches on
both sides, and how many of them are in the same order.
-/

set_option autoImplicit false

namespace Closures.Similar

/-- A letter of the second word, and whether it is matched. -/
abbrev Marked := Char × Bool

/-- Match a letter with the first free one that is equal and has a place from
`low` on and before `high`. `j` is the place of the first letter of the list. -/
def claim? (c : Char) (low high : Nat) (j : Nat) : List Marked → Option (List Marked)
  | [] => none
  | (d, taken) :: rest =>
    if low ≤ j && j < high && d = c && !taken then some ((d, true) :: rest)
    else (claim? c low high (j + 1) rest).map ((d, taken) :: ·)

/-- Match the letters of the first word in order: those that found a match, and
the second word. `i` is the place of the first letter, `reach` how far apart
places may be. -/
def claims (reach : Nat) (i : Nat) : List Char → List Marked → List Char × List Marked
  | [], second => ([], second)
  | c :: cs, second =>
    match claim? c (i - reach) (i + reach + 1) 0 second with
    | some second =>
      let (found, second) := claims reach (i + 1) cs second
      (c :: found, second)
    | none => claims reach (i + 1) cs second

/-- How similar two words are. -/
def measure (first second : List Char) : Float :=
  let (found, marked) :=
    claims (max first.length second.length / 2 - 1) 0 first (second.map fun c => (c, false))
  let order := (marked.filter Prod.snd).map Prod.fst
  let crossed := ((found.zip order).filter fun (c, d) => c != d).length / 2
  if first.isEmpty && second.isEmpty then 1
  else if found.isEmpty then 0
  else
    let share (n m : Nat) : Float := n.toFloat / m.toFloat
    (share found.length first.length + share found.length second.length
      + share (found.length - crossed) found.length) / 3

/-- The words that are similar to a word, the most similar last. -/
def among (word : String) (words : List String) : List String :=
  let measured := words.map fun w => (measure word.toList w.toList, w)
  ((measured.filter fun (x, _) => 0.7 < x).mergeSort fun (x, _) (y, _) => x ≤ y).map Prod.snd

end Closures.Similar
