import DesignTokens.Text.Order

/-!
Similar names. The measure of two texts is the share of characters in common stretches: the longest
common stretch, then the longest ones on its left and on its right, and so on.
-/
namespace DesignTokens.Text

/-- The length of the longest common start whose characters satisfy `test`. -/
def commonLead (test : Char → Bool) : List Char → List Char → Nat
  | a :: as, b :: bs => if a == b && test a then commonLead test as bs + 1 else 0
  | _, _ => 0

/-- A common stretch: its offsets in both texts and its length. -/
structure Stretch where
  left : Nat
  right : Nat
  length : Nat
  deriving DecidableEq, Repr

def Stretch.better (s t : Stretch) : Stretch := if s.length < t.length then t else s

/-- The lengths of the common stretches that end with `c` and with each character of `ys`; `before`
holds those that end one character earlier in the other text. -/
def stretchLengths (test : Char → Bool) (c : Char) (before : List Nat) (ys : List Char) : List Nat :=
  List.zipWith (fun n y => if y == c && test c then n + 1 else 0) (0 :: before) ys

/-- The best stretch so far, and the lengths of those that end at offset `i` of the left text. -/
def Stretch.improve (best : Stretch) (i : Nat) (lengths : List Nat) : Stretch :=
  lengths.zipIdx.foldl (fun best (n, j) => best.better ⟨i + 1 - n, j + 1 - n, n⟩) best

/-- The best of `best` and the common stretches that end at offset `i` of the left text or later. -/
def anchorFrom (test : Char → Bool) (ys : List Char) (i : Nat) (before : List Nat) (best : Stretch) :
    List Char → Stretch
  | [] => best
  | c :: cs =>
    let lengths := stretchLengths test c before ys
    anchorFrom test ys (i + 1) lengths (best.improve i lengths) cs

/-- The first of the longest common stretches of characters that satisfy `test`. -/
def anchor (test : Char → Bool) (xs ys : List Char) : Stretch :=
  anchorFrom test ys 0 (ys.map fun _ => 0) ⟨0, 0, 0⟩ xs

/-- The anchor with all that agrees on its left and on its right. -/
def longestStretch (test : Char → Bool) (xs ys : List Char) : Stretch :=
  let s := anchor test xs ys
  let before := commonLead (fun _ => true) (xs.take s.left).reverse (ys.take s.right).reverse
  let after := commonLead (fun _ => true) (xs.drop (s.left + s.length)) (ys.drop (s.right + s.length))
  ⟨s.left - before, s.right - before, before + s.length + after⟩

/-- The number of characters in common stretches; `fuel` bounds the depth of the search. -/
def commonCount (test : Char → Bool) : Nat → List Char → List Char → Nat
  | 0, _, _ => 0
  | fuel + 1, xs, ys =>
    let s := longestStretch test xs ys
    if s.length = 0 then 0
    else s.length + commonCount test fuel (xs.take s.left) (ys.take s.right) +
      commonCount test fuel (xs.drop (s.left + s.length)) (ys.drop (s.right + s.length))

/-- In a word of 200 characters or more, one that makes up more than a hundredth is no anchor. -/
def anchors (word : List Char) (c : Char) : Bool :=
  decide (word.length < 200) || decide (word.count c ≤ word.length / 100 + 1)

/-- Twice the common characters, and the characters of both texts. -/
def similarity (word other : List Char) : Nat × Nat :=
  (2 * commonCount (anchors word) (other.length + 1) other word, word.length + other.length)

/-- Whether the first share is at least the second; two empty texts are all alike. -/
def atLeast (s t : Nat × Nat) : Bool := decide (t.1 * s.2 ≤ s.1 * t.2)

/-- The share from which on two texts count as similar. -/
def similarityCutoff : Nat × Nat := (3, 5)

/-- The three most similar names, the best first; of equally good ones the greater text first. -/
def closeMatches (word : String) (names : List String) : List String :=
  let scored := names.map fun n =>
    let s := similarity word.toList n.toList
    (if s.2 = 0 then (1, 1) else s, n)
  let close := scored.filter fun (s, _) => atLeast s similarityCutoff
  let before (a b : (Nat × Nat) × String) : Bool :=
    if atLeast a.1 b.1 && atLeast b.1 a.1 then le b.2 a.2 else atLeast a.1 b.1
  ((close.mergeSort before).take 3).map (·.2)

end DesignTokens.Text
