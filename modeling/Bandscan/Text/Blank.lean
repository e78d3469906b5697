/-!
Blank characters, and the words and lines of a text. Blanks are the characters with the Unicode
property of white space.
-/

namespace Bandscan.Text

def isBlank (c : Char) : Bool :=
  let n := c.toNat
  (9 ≤ n && n ≤ 13) || n = 0x20 || n = 0x85 || n = 0xA0 || n = 0x1680
    || (0x2000 ≤ n && n ≤ 0x200A) || n = 0x2028 || n = 0x2029 || n = 0x202F || n = 0x205F
    || n = 0x3000

def dropBlanks (cs : List Char) : List Char := cs.dropWhile isBlank

def trim (cs : List Char) : List Char := (dropBlanks (dropBlanks cs).reverse).reverse

theorem length_dropWhile_le (p : Char → Bool) (cs : List Char) :
    (cs.dropWhile p).length ≤ cs.length := by
  induction cs with
  | nil => simp
  | cons c cs ih =>
    rw [List.dropWhile_cons]
    split
    · exact Nat.le_succ_of_le ih
    · exact Nat.le_refl _

def words (cs : List Char) : List (List Char) :=
  match _h : cs with
  | [] => []
  | c :: rest =>
    if isBlank c then words rest
    else (c :: rest.takeWhile (!isBlank ·)) :: words (rest.dropWhile (!isBlank ·))
  termination_by cs.length
  decreasing_by
    · simp
    · have := length_dropWhile_le (!isBlank ·) rest; simp only [List.length_cons]; omega

/-- The pieces between separators; one more than there are separators. -/
def splitAt (sep : Char) : List Char → List (List Char)
  | [] => [[]]
  | c :: cs =>
    match splitAt sep cs with
    | [] => [[c]]
    | w :: ws => if c = sep then [] :: w :: ws else (c :: w) :: ws

def lines (cs : List Char) : List (List Char) :=
  let ls := splitAt '\n' cs
  if ls.getLast? = some [] then ls.dropLast else ls

/-- At most `width` characters, and blanks up to `width`. -/
def column (width : Nat) (s : String) : String :=
  let cs := s.toList.take width
  String.ofList (cs ++ List.replicate (width - cs.length) ' ')

def cut (width : Nat) (s : String) : String := String.ofList (s.toList.take width)

def replace (old new : Char) (s : String) : String :=
  String.ofList (s.toList.map fun c => if c = old then new else c)

end Bandscan.Text
