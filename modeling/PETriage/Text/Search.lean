/-!
# Words inside a text

Whether a word stands somewhere in a text, with a choice of when two characters agree.
-/
namespace PETriage.Text

def startsLike (agree : Char → Char → Bool) : List Char → List Char → Bool
  | [], _ => true
  | _ :: _, [] => false
  | w :: word, c :: cs => agree w c && startsLike agree word cs

def occursLike (agree : Char → Char → Bool) (word : List Char) : List Char → Bool
  | [] => startsLike agree word []
  | c :: cs => startsLike agree word (c :: cs) || occursLike agree word cs

def occurs (word cs : List Char) : Bool := occursLike (· == ·) word cs

def occursIn (word s : String) : Bool := occurs word.toList s.toList

end PETriage.Text
