import Snippets.Text.Basic

/-!
How much two texts resemble each other: the share of their characters that lie in common blocks,
where the longest block is found first and then the same is done on both sides of it. Names that
resemble a mistyped one enough are worth suggesting.
-/

namespace Snippets.Resemblance

/-- The length of the common beginning of two texts. -/
def commonPrefix : Text → Text → Nat
  | a :: as, b :: bs => if a = b then commonPrefix as bs + 1 else 0
  | _, _ => 0

/-- A block that two texts have in common. -/
structure Block where
  left : Nat
  right : Nat
  length : Nat

/-- The longest common block; of several, the first one. -/
def longest (a b : Text) : Block :=
  let places := (List.range a.length).flatMap fun i => (List.range b.length).map fun j => (i, j)
  places.foldl (fun best (i, j) =>
    let n := commonPrefix (a.drop i) (b.drop j)
    if best.length < n then ⟨i, j, n⟩ else best) ⟨0, 0, 0⟩

/-- The number of characters in common blocks, with blocks nested at most `depth` deep. -/
def matched : (depth : Nat) → Text → Text → Nat
  | 0, _, _ => 0
  | depth + 1, a, b =>
    let block := longest a b
    if block.length = 0 then 0
    else
      matched depth (a.take block.left) (b.take block.right) + block.length +
        matched depth (a.drop (block.left + block.length)) (b.drop (block.right + block.length))

/-- Whether at least three fifths of the characters of both texts are in common blocks. -/
def resembles (a b : Text) : Bool :=
  3 * (a.length + b.length) ≤ 10 * matched (a.length + 1) a b

/-- The names that resemble a word. -/
def suggestions (word : Text) (names : List Text) : List Text :=
  names.filter fun name => resembles name word

end Snippets.Resemblance
