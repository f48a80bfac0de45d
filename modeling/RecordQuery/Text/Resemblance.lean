/-
How much two words resemble each other, for suggestions.

The longest stretch that two words share is taken, and then the same is done to
the left and to the right of it.  The characters in all these stretches, counted
in both words, are compared with the lengths of the words.
-/
namespace RecordQuery
namespace Text

/-- How many leading characters two words share. -/
def sharedLead : List Char → List Char → Nat
  | a :: as, b :: bs => if a = b then sharedLead as bs + 1 else 0
  | _, _ => 0

/-- A stretch that two words share: where it begins in each, and its length. -/
structure Shared where
  left : Nat
  right : Nat
  length : Nat

/-- The longest shared stretch; of several the one that begins earliest in the
first word, then earliest in the second. -/
def longestShared (a b : List Char) : Shared :=
  (List.range a.length).foldl (fun best i =>
    (List.range b.length).foldl (fun best j =>
      let length := sharedLead (a.drop i) (b.drop j)
      if best.length < length then ⟨i, j, length⟩ else best) best) ⟨0, 0, 0⟩

/-- The number of characters in all shared stretches, searched so many levels
deep. -/
def sharedWithin : Nat → List Char → List Char → Nat
  | 0, _, _ => 0
  | depth + 1, a, b =>
    let best := longestShared a b
    if best.length = 0 then 0
    else
      best.length + sharedWithin depth (a.take best.left) (b.take best.right) +
        sharedWithin depth (a.drop (best.left + best.length)) (b.drop (best.right + best.length))

/-- Every level takes at least one character of the first word. -/
def sharedChars (a b : List Char) : Nat :=
  sharedWithin a.length a b

/-- Words count as close when six tenths of their characters are shared. -/
def areClose (a b : List Char) : Bool :=
  6 * (a.length + b.length) ≤ 20 * sharedChars a b

/-- Whether a word resembles another at least as much as a third does; equal
resemblance is settled by the order of the words. -/
def closerTo (word : List Char) (a b : String) : Bool :=
  let m := sharedChars a.toList word * (b.length + word.length)
  let n := sharedChars b.toList word * (a.length + word.length)
  n < m || (m == n && decide (b ≤ a))

/-- At most three words that are close to a given one, the closest first. -/
def closeMatches (word : String) (candidates : List String) : List String :=
  let close := candidates.filter fun candidate => areClose candidate.toList word.toList
  (close.mergeSort (closerTo word.toList)).take 3

end Text
end RecordQuery
