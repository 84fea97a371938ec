import Nock.Noun.Basic
import Nock.Text.Decimal

/-!
# Printing nouns

An atom prints as its decimal numeral, a cell as the items of its spine between brackets, with one
blank between two: `[1 [2 3] 4]`. `Noun.written` says so by recursion. `Noun.render` writes the same
text (`render_eq_written`) with a stack of pending texts and nouns, so that long and deep nouns cost
no recursion: a cell on top is replaced by its brackets and by its items, which are put there from the
right. Whatever is pending below, the loop writes it behind what the pieces above stand for
(`join_renderPieces`).
-/

namespace Nock.Noun

mutual

/-- An atom is written as its numeral, and a cell as its items between brackets, with a blank between two. -/
def written : Noun → String
  | atom n => toString n
  | cell h t => "[" ++ " ".intercalate (written h :: itemTexts t) ++ "]"

/-- The texts of the heads on the way down the tails and of the atom at the end. -/
def itemTexts : Noun → List String
  | atom n => [toString n]
  | cell h t => written h :: itemTexts t

end

/-- Pending work of the printer: a text to write, or a noun to print. -/
inductive Piece where
  | literal (t : String)
  | noun (n : Noun)

def Piece.written : Piece → String
  | literal t => t
  | noun n => n.written

def Piece.weight : Piece → Nat
  | literal _ => 1
  -- enough for a cell to outweigh its items, its two brackets and the blanks between
  | noun n => 4 * n.size

def pendingWeight (work : List Piece) : Nat := work.foldr (fun p w => p.weight + w) 0

/-- Puts the heads on the way down the tails behind a row, and the atom at the end. -/
def rowOnto (row : Array Noun) : Noun → Array Noun
  | atom n => row.push (atom n)
  | cell h t => rowOnto (row.push h) t

/-- Puts an item of a row on the pending work, and a blank on top of it unless it is the first. -/
def pushItem (item : Noun × Nat) (work : List Piece) : List Piece :=
  let work := .noun item.1 :: work
  if item.2 = 0 then work else .literal " " :: work

/-- Puts a row on the pending work, the last item first. -/
def pushRow (row : Array Noun) (work : List Piece) : List Piece := row.zipIdx.foldr pushItem work

/-- The items of a tail, each with a blank in front of it. -/
def following : Noun → List Piece
  | atom n => [.literal " ", .noun (atom n)]
  | cell h t => .literal " " :: .noun h :: following t

variable {row : Array Noun}

theorem pushRow_push (hrow : 0 < row.size) (x : Noun) (work : List Piece) :
    pushRow (row.push x) work = pushRow row (.literal " " :: .noun x :: work) := by
  have hitem : pushItem (x, row.size) work = .literal " " :: .noun x :: work := if_neg (Nat.ne_of_gt hrow)
  rw [pushRow, pushRow, ← hitem, Array.push_eq_append, Array.zipIdx_append, Array.foldr_append, Nat.zero_add]
  rfl

theorem pushRow_rowOnto (hrow : 0 < row.size) (n : Noun) (work : List Piece) :
    pushRow (rowOnto row n) work = pushRow row (n.following ++ work) := by
  induction n generalizing row with
  | atom n => exact pushRow_push hrow (atom n) work
  | cell h t _ iht =>
    rw [rowOnto, iht (by simp), pushRow_push hrow]
    rfl

theorem pushRow_cell (h t : Noun) (work : List Piece) :
    pushRow (rowOnto #[h] t) work = .noun h :: (t.following ++ work) :=
  pushRow_rowOnto (by simp) t work

theorem pendingWeight_following (n : Noun) (work : List Piece) :
    pendingWeight (n.following ++ work) ≤ 4 * n.size + 1 + pendingWeight work := by
  induction n with
  | atom n => simp [following, pendingWeight, Piece.weight]; omega
  | cell h t _ iht =>
    simp only [following, pendingWeight, Piece.weight, List.cons_append, List.foldr_cons, size_cell] at iht ⊢
    omega

/-- Writes what is pending behind the parts that are written. -/
def renderPieces (parts : Array String) : List Piece → Array String
  | [] => parts
  | .literal t :: work => renderPieces (parts.push t) work
  | .noun (atom n) :: work => renderPieces (parts.push (Text.decimal n)) work
  | .noun (cell h t) :: work =>
    renderPieces parts (.literal "[" :: pushRow (rowOnto #[h] t) (.literal "]" :: work))
termination_by work => pendingWeight work
decreasing_by
  · simp [pendingWeight, Piece.weight]
  · simp [pendingWeight, Piece.weight]
  · have hfollowing := pendingWeight_following t (.literal "]" :: work)
    rw [pushRow_cell]
    simp only [pendingWeight, Piece.weight, List.foldr_cons, size_cell] at hfollowing ⊢
    omega

/-- The text of a noun, written without recursion on its shape. -/
def render : Noun → String
  | atom n => Text.decimal n
  | cell h t => String.join (renderPieces #[] [.noun (cell h t)]).toList

theorem intercalate_itemTexts (x : String) (n : Noun) :
    " ".intercalate (x :: n.itemTexts) = x ++ " " ++ " ".intercalate n.itemTexts := by
  cases n <;> exact String.intercalate_cons_cons

theorem join_following (n : Noun) :
    String.join (n.following.map Piece.written) = " " ++ " ".intercalate n.itemTexts := by
  induction n with
  | atom n => simp [following, Piece.written, written, itemTexts]
  | cell h t _ iht =>
    rw [itemTexts, intercalate_itemTexts]
    simp [following, Piece.written, iht, String.append_assoc]

/-- The loop writes each pending piece in turn, whatever the pieces are. -/
theorem join_renderPieces (parts : Array String) (work : List Piece) :
    String.join (renderPieces parts work).toList =
      String.join parts.toList ++ String.join (work.map Piece.written) := by
  fun_induction renderPieces parts work with
  | case1 parts => simp
  | case2 parts t work ih => simp [ih, Piece.written, String.append_assoc]
  | case3 parts n work ih =>
    rw [ih]
    simp [Piece.written, written, Text.decimal_eq, String.append_assoc]
  | case4 parts h t work ih =>
    rw [ih, pushRow_cell]
    simp [Piece.written, written, intercalate_itemTexts, join_following, String.append_assoc]

theorem render_eq_written (n : Noun) : n.render = n.written := by
  cases n with
  | atom n => rw [render, Text.decimal_eq, written]
  | cell h t =>
    rw [render, join_renderPieces]
    simp [Piece.written]

instance : ToString Noun := ⟨render⟩

end Nock.Noun
