import RecordLogic.Text.Letter

/-!
# Pieces of a text

Splitting at a separator, trimming, searching, and the two ways of comparing names.
-/

namespace RecordLogic.Text

/-- The pieces between separators. There is always one. -/
def pieces (sep : Char) : List Char → List (List Char)
  | [] => [[]]
  | c :: cs =>
    if c = sep then [] :: pieces sep cs
    else match pieces sep cs with
      | [] => [[c]]
      | p :: ps => (c :: p) :: ps

theorem pieces_ne_nil (sep : Char) : ∀ cs, pieces sep cs ≠ []
  | [] => by simp [pieces]
  | c :: cs => by
    unfold pieces
    split
    · simp
    · cases pieces sep cs <;> simp

def joined (sep : Char) : List (List Char) → List Char
  | [] => []
  | [p] => p
  | p :: ps => p ++ sep :: joined sep ps

theorem joined_pieces (sep : Char) : ∀ cs, joined sep (pieces sep cs) = cs
  | [] => rfl
  | c :: cs => by
    have ih := joined_pieces sep cs
    have hne := pieces_ne_nil sep cs
    unfold pieces
    by_cases h : c = sep
    · cases hp : pieces sep cs with
      | nil => exact absurd hp hne
      | cons p ps => simp [h, joined, ← hp, ih]
    · cases hp : pieces sep cs with
      | nil => exact absurd hp hne
      | cons p ps =>
        rw [hp] at ih
        cases ps with
        | nil => simpa [h, joined] using ih
        | cons q qs => simpa [h, joined] using ih

def split (sep : Char) (s : String) : List String := (pieces sep s.toList).map String.ofList

def segments (s : String) : List String := split '.' s

def dotted (path : List String) : String := String.intercalate "." path

def trimStart (cs : List Char) : List Char := cs.dropWhile isBlank

def trimEnd (cs : List Char) : List Char := (cs.reverse.dropWhile isBlank).reverse

def trim (cs : List Char) : List Char := trimEnd (trimStart cs)

def isPart (part : List Char) : List Char → Bool
  | [] => part.isEmpty
  | c :: cs => part.isPrefixOf (c :: cs) || isPart part cs

def isEnd (part whole : List Char) : Bool := part.reverse.isPrefixOf whole.reverse

/-- Order by code points, a shorter text before its extensions. -/
def order : List Char → List Char → Ordering
  | [], [] => .eq
  | [], _ :: _ => .lt
  | _ :: _, [] => .gt
  | a :: as, b :: bs => (compare a.toNat b.toNat).then (order as bs)

/-- Equality up to the case of the letters a to z. -/
def sameLetters (a b : String) : Bool := a.toList.map Char.toLower == b.toList.map Char.toLower

/-- How names are matched: exactly, or up to the case of the letters a to z. -/
inductive Case where
  | sensitive
  | ignored
  deriving DecidableEq, Repr

def Case.agree (mode : Case) (a b : String) : Bool :=
  match mode with
  | .sensitive => a == b
  | .ignored => sameLetters a b

end RecordLogic.Text
