import RobotAnalysis.Node
import RobotAnalysis.VariableToken

/-!
# What stands under a cursor

A cursor is an offset. Just after the last character of a cell it is still in the cell, and the same
holds for variables. Of variables inside each other the innermost counts.
-/
namespace RobotAnalysis

namespace Tree

mutual

/-- The bytes of every token of a tree that begins at `start`, with the cell that holds it;
`inside` is the cell around the tree. -/
def tokenCells (start : Nat) (inside : Option Cell) : Tree → List (Span × Option Cell)
  | .leaf t => [(⟨start, t.text.byteSize⟩, inside)]
  | .node kind children =>
    tokenCellsOf start (((Node.mk start kind children).cell?).or inside) children

/-- The same for consecutive trees. -/
def tokenCellsOf (start : Nat) (inside : Option Cell) : List Tree → List (Span × Option Cell)
  | [] => []
  | t :: ts => tokenCells start inside t ++ tokenCellsOf (start + t.size) inside ts

end

/-- The cell at an offset: that of the token after the offset, or else of the token before it. -/
def cellAt? (tree : Tree) (offset : Nat) : Option Cell :=
  let tokens := tree.tokenCells 0 none
  let after := tokens.find? fun t => decide (t.1.start ≤ offset) && decide (offset < t.1.stop)
  let before := tokens.find? fun t => decide (t.1.start < offset) && decide (offset ≤ t.1.stop)
  (after.bind Prod.snd).or (before.bind Prod.snd)

end Tree

namespace VariableToken

theorem length_le_of_mem_locate {offset : Nat} {ps : List Piece} {v : VariableToken}
    (h : v ∈ locate offset ps) : v.text.length ≤ (ps.flatMap Piece.text).length := by
  induction ps generalizing offset with
  | nil => simp [locate] at h
  | cons p ps ih =>
    cases p with
    | char c =>
      have bound := ih h
      simp only [List.flatMap_cons, List.length_append]
      omega
    | token t =>
      simp only [List.flatMap_cons, List.length_append]
      rcases List.mem_cons.1 h with rfl | h
      · simp [Piece.text]
      · have bound := ih h
        omega

theorem length_le_of_mem_all {t : Text} {v : VariableToken} (h : v ∈ all t) :
    v.text.length ≤ t.length := by
  have := length_le_of_mem_locate h
  rwa [pieces, flatMap_text_piecesAfter] at this

/-- The name inside a variable token: without sigil and braces. -/
def inner (v : VariableToken) : Text := (v.text.drop 2).dropLast

/-- The innermost variable of a text at an offset. -/
def innermostAt? (text : Text) (offset : Nat) : Option Span :=
  match _found : (all text).find? fun v => v.span.touches offset with
  | none => none
  | some outer =>
    if _nonempty : outer.inner = [] then some outer.span
    else
      let start := outer.span.start + 2
      if start ≤ offset ∧ offset ≤ start + outer.inner.byteSize then
        match innermostAt? outer.inner (offset - start) with
        | some nested => some (nested.shift start)
        | none => some outer.span
      else some outer.span
termination_by text.length
decreasing_by
  have bound := length_le_of_mem_all (List.mem_of_find?_eq_some _found)
  have pos := List.length_pos_iff.2 _nonempty
  simp only [inner, List.length_dropLast, List.length_drop] at pos ⊢
  omega

theorem touches_of_find? {text : Text} {offset : Nat} {v : VariableToken}
    (found : (all text).find? (fun v => v.span.touches offset) = some v) :
    v.span.touches offset = true := by
  have touches := List.find?_some found
  exact touches

/-- There is no variable at an offset that is in none of the outermost ones. -/
theorem innermostAt?_eq_none_iff {text : Text} {offset : Nat} :
    innermostAt? text offset = none ↔ ∀ v ∈ all text, v.span.touches offset = false := by
  have touched {outer : VariableToken}
      (found : (all text).find? (fun v => v.span.touches offset) = some outer) :
      ¬ ∀ v ∈ all text, v.span.touches offset = false := by
    intro apart
    have touches := touches_of_find? found
    rw [apart outer (List.mem_of_find?_eq_some found)] at touches
    cases touches
  fun_cases innermostAt? text offset with
  | case1 unfound => simpa using unfound
  | case2 outer found => exact iff_of_false nofun (touched found)
  | case3 outer found => exact iff_of_false nofun (touched found)
  | case4 outer found => exact iff_of_false nofun (touched found)
  | case5 outer found => exact iff_of_false nofun (touched found)

end VariableToken

namespace Text

/-- The part of a text after its last line feed. -/
def lastLine (t : Text) : Text := ((t.reverse).takeWhile (· != '\n')).reverse

/-- The characters before the first cell separator of a reversed line. -/
def untilSeparator : Text → Text
  | [] => []
  | c :: t =>
    if c = '\t' then []
    else if c = ' ' && t.head? == some ' ' then []
    else c :: untilSeparator t

/-- The text typed so far in the cell that ends at an offset; an offset inside a character counts as
the one before it. -/
def typedBefore (t : Text) (offset : Nat) : Text :=
  trimStart (untilSeparator (lastLine (t.takeBytes offset)).reverse).reverse

end Text

end RobotAnalysis
