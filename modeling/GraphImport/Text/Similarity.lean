/-!
# Similar words

Two words are compared by the characters they share: the longest run that both contain, and the
same again to the left and to the right of it. Words are similar when the shared characters make
up three fifths of both together.
-/
namespace GraphImport.Text

/-- The length of the common beginning of two lists. -/
def commonLength : List Char → List Char → Nat
  | a :: as, b :: bs => if a == b then commonLength as bs + 1 else 0
  | _, _ => 0

/-- A run of characters at an index of either word. -/
structure Run where
  left : Nat := 0
  right : Nat := 0
  length : Nat := 0
deriving Repr

/-- The longest run that two words share; of several the leftmost in the first word, then in the
second. -/
def longestRun (a b : List Char) : Run :=
  let runs := (List.range a.length).flatMap fun i =>
    (List.range b.length).map fun j =>
      { left := i, right := j, length := commonLength (a.drop i) (b.drop j) : Run }
  runs.foldl (fun best run => if run.length > best.length then run else best) {}

/-- How many characters two words share. -/
def sharedLength : Nat → List Char → List Char → Nat
  | 0, _, _ => 0
  | fuel + 1, a, b =>
    let run := longestRun a b
    if run.length == 0 then 0
    else
      run.length + sharedLength fuel (a.take run.left) (b.take run.right) +
        sharedLength fuel (a.drop (run.left + run.length)) (b.drop (run.right + run.length))

/-- Words of a list with how much they share with a word, twice over the length of both. -/
def likeness (word choice : String) : Nat × Nat :=
  let a := choice.toList
  let b := word.toList
  (2 * sharedLength (a.length + 1) a b, a.length + b.length)

/-- Whether a likeness is at least three fifths. -/
def isLike (l : Nat × Nat) : Bool :=
  6 * l.2 ≤ 10 * l.1

/-- Whether the first of two words with their likeness comes before the other: the closer one, or
of two that are as close the later one in the alphabet. -/
def isCloser (x y : (Nat × Nat) × String) : Bool :=
  let a := x.1.1 * y.1.2
  let b := y.1.1 * x.1.2
  b < a || (a == b && y.2 ≤ x.2)

/-- At most three words of a list that are like a word, the closest first. -/
def similarWords (word : String) (choices : List String) : List String :=
  let rated := choices.map fun choice => (likeness word choice, choice)
  (((rated.filter fun (l, _) => isLike l).mergeSort isCloser).take 3).map (·.2)

end GraphImport.Text
