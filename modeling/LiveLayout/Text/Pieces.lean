/-!
# Pieces of a text

What stands between the places where a mark occurs.
-/

namespace LiveLayout

/-- The pieces that a mark cuts a text into. There is one more than there are marks. -/
def pieces (mark : Char) : List Char → List (List Char)
  | [] => [[]]
  | c :: rest =>
    if c = mark then [] :: pieces mark rest
    else
      match pieces mark rest with
      | piece :: more => (c :: piece) :: more
      | [] => [[c]]

end LiveLayout
