/-!
# Splitting

Cutting a text at every occurrence of a character: into one piece more than
there are occurrences, some of which may be empty.
-/

set_option autoImplicit false

namespace Closures

namespace Split

/-- Put a character in front of a text in pieces. -/
def cons (mark c : Char) (pieces : List (List Char)) : List (List Char) :=
  if c = mark then [] :: pieces
  else
    match pieces with
    | [] => [[c]]
    | p :: ps => (c :: p) :: ps

end Split

/-- The pieces of a text between the occurrences of `mark`. -/
def split (mark : Char) (text : List Char) : List (List Char) := text.foldr (Split.cons mark) [[]]

end Closures
