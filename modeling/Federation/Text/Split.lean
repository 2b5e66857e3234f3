/-!
# Splitting texts

`Text.splitOn` cuts a text at each occurrence of a character, and `Text.join` puts the
parts together again.  `Text.afterPrefix?` cuts off what a text begins with.
-/

namespace Federation.Text

/-- The parts of a text between the occurrences of `sep`; there is at least one. -/
def splitOn (sep : Char) : List Char → List (List Char)
  | [] => [[]]
  | c :: rest =>
    match splitOn sep rest with
    | [] => [[c]]
    | part :: parts => if c = sep then [] :: part :: parts else (c :: part) :: parts

/-- The parts with `sep` between them. -/
def join (sep : Char) : List (List Char) → List Char
  | [] => []
  | [part] => part
  | part :: parts => part ++ sep :: join sep parts

/-- What follows a prefix, in a text that begins with it. -/
def afterPrefix? : List Char → List Char → Option (List Char)
  | [], cs => some cs
  | p :: ps, c :: cs => if p = c then afterPrefix? ps cs else none
  | _ :: _, [] => none

theorem splitOn_ne_nil (sep : Char) (cs : List Char) :
  splitOn sep cs ≠ []
  := by
  cases cs with
  | nil => simp [splitOn]
  | cons c rest =>
    simp only [splitOn]
    split
    · simp
    · split <;> simp

/-- Nothing is lost by a cut. -/
theorem join_splitOn (sep : Char) (cs : List Char) :
  join sep (splitOn sep cs) = cs
  := by
  induction cs with
  | nil => rfl
  | cons c rest ih =>
    simp only [splitOn]
    split
    · rename_i h
      exact absurd h (splitOn_ne_nil sep rest)
    · rename_i part parts h
      rw [h] at ih
      split
      · rename_i hc
        simp [join, hc, ih]
      · cases parts with
        | nil => simpa [join] using ih
        | cons p ps => simpa [join] using ih

end Federation.Text
