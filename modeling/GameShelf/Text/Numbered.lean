import GameShelf.Numeral

namespace GameShelf.Text

/-- Each entry on a line of its own, behind its number counted from one. -/
def numbered (entries : List Text) : Text :=
  (entries.zipIdx 1).flatMap fun (entry, i) => line (Numeral.ofNat i ++ ": ".toList ++ entry)

end GameShelf.Text
