import RobotAnalysis.Proofs.CellGaps
import RobotAnalysis.Proofs.CellVisibility

/-!
# The cell under a cursor

Wherever an offset touches a cell of a parsed tree, it is this cell that is found there. Inside the
cell the token after the offset belongs to it. At its end the token before the offset does, and the
token after the offset belongs to no cell, since cells do not touch.
-/
namespace RobotAnalysis

/-- The only element of a list that satisfies `p` is found. -/
theorem find?_eq_some_of_pairwise {α : Type} {l : List α} {p : α → Bool} {a : α} (mem : a ∈ l)
    (holds : p a = true) (once : l.Pairwise fun b c => p b = true → p c = false) :
    l.find? p = some a := by
  obtain ⟨before, behind, rfl⟩ := List.append_of_mem mem
  refine List.find?_eq_some_iff_append.2 ⟨holds, before, behind, rfl, fun b hb => ?_⟩
  have apart := (List.pairwise_append.1 once).2.2 b hb a List.mem_cons_self
  cases pb : p b with
  | false => rfl
  | true =>
    rw [apart pb] at holds
    cases holds

namespace Tree

mutual

theorem within_of_mem_tokenCells (start : Nat) (inside : Option Cell) {x : Span × Option Cell} :
    ∀ t : Tree, x ∈ tokenCells start inside t → start ≤ x.1.start ∧ x.1.stop ≤ start + t.size
  | .leaf t, h => by
    cases List.mem_singleton.1 h
    refine ⟨Nat.le_refl _, ?_⟩
    simp [Span.stop, size, leaves, Token.sizeOf, Token.textOf]
  | .node kind children, h => within_of_mem_tokenCellsOf start _ children h

theorem within_of_mem_tokenCellsOf (start : Nat) (inside : Option Cell) {x : Span × Option Cell} :
    ∀ ts : List Tree, x ∈ tokenCellsOf start inside ts →
      start ≤ x.1.start ∧ x.1.stop ≤ start + Token.sizeOf (leavesOf ts)
  | [], h => by cases h
  | t :: ts, h => by
    rw [sizeOf_leavesOf_cons]
    rcases List.mem_append.1 h with h | h
    · have := within_of_mem_tokenCells start inside t h
      omega
    · have := within_of_mem_tokenCellsOf (start + t.size) inside ts h
      omega

end

mutual

/-- The tokens of a tree lie one behind the other. -/
theorem pairwise_tokenCells (start : Nat) (inside : Option Cell) : ∀ t : Tree,
    (tokenCells start inside t).Pairwise fun x y => x.1.stop ≤ y.1.start
  | .leaf _ => List.pairwise_singleton _ _
  | .node _ children => pairwise_tokenCellsOf start _ children

theorem pairwise_tokenCellsOf (start : Nat) (inside : Option Cell) : ∀ ts : List Tree,
    (tokenCellsOf start inside ts).Pairwise fun x y => x.1.stop ≤ y.1.start
  | [] => .nil
  | t :: ts => by
    refine List.pairwise_append.2
      ⟨pairwise_tokenCells start inside t, pairwise_tokenCellsOf _ inside ts, ?_⟩
    intro x hx y hy
    have first := within_of_mem_tokenCells start inside t hx
    have rest := within_of_mem_tokenCellsOf (start + t.size) inside ts hy
    omega

end

mutual

/-- The tokens of a cell are listed with it. -/
theorem subset_tokenCells_of_cell (start : Nat) (inside : Option Cell) {n : Node} {c : Cell}
    (cell : n.cell? = some c) : ∀ t : Tree, n ∈ nodesIn start t →
      tokenCellsOf n.start (some c) n.children ⊆ tokenCells start inside t
  | .leaf _, h => by cases h
  | .node kind children, h => by
    rcases List.mem_cons.1 h with rfl | h
    · rw [tokenCells, cell]
      exact List.Subset.refl _
    · exact subset_tokenCellsOf_of_cell start _ cell children h

theorem subset_tokenCellsOf_of_cell (start : Nat) (inside : Option Cell) {n : Node} {c : Cell}
    (cell : n.cell? = some c) : ∀ ts : List Tree, n ∈ nodesInAll start ts →
      tokenCellsOf n.start (some c) n.children ⊆ tokenCellsOf start inside ts
  | [], h => by cases h
  | t :: ts, h => by
    rcases List.mem_append.1 h with h | h
    · exact List.subset_append_of_subset_left _ (subset_tokenCells_of_cell start inside cell t h)
    · exact List.subset_append_of_subset_right _
        (subset_tokenCellsOf_of_cell (start + t.size) inside cell ts h)

end

/-- Among consecutive tokens one covers the byte at an offset. -/
theorem exists_token_at (start : Nat) (inside : Option Cell) {offset : Nat} (ts : List Token)
    (lower : start ≤ offset) (upper : offset < start + Token.sizeOf ts) :
    ∃ span, (span, inside) ∈ tokenCellsOf start inside (ts.map .leaf) ∧
      span.start ≤ offset ∧ offset < span.stop := by
  induction ts generalizing start with
  | nil =>
    simp [Token.sizeOf, Token.textOf] at upper
    omega
  | cons t ts ih =>
    have size : (leaf t).size = t.text.byteSize := by
      simp [Tree.size, leaves, Token.sizeOf, Token.textOf]
    by_cases here : offset < start + t.text.byteSize
    · exact ⟨⟨start, t.text.byteSize⟩, List.mem_append_left _ List.mem_cons_self, lower, here⟩
    · have rest : offset < start + t.text.byteSize + Token.sizeOf ts := by
        simp only [Token.sizeOf, Token.textOf, List.flatMap_cons, Text.byteSize_append] at upper ⊢
        omega
      obtain ⟨span, mem, covers⟩ := ih (start + t.text.byteSize) (by omega) rest
      exact ⟨span, List.mem_append_right _ (by rwa [size]), covers⟩

/-- A token is found by a condition that says which byte it covers. -/
theorem find?_tokenCells {tree : Tree} {x : Span × Option Cell} (mem : x ∈ tree.tokenCells 0 none)
    {p : Span × Option Cell → Bool} (byte : Nat)
    (covers : ∀ y, p y = true ↔ y.1.start ≤ byte ∧ byte < y.1.stop)
    (covered : x.1.start ≤ byte ∧ byte < x.1.stop) :
    (tree.tokenCells 0 none).find? p = some x := by
  refine find?_eq_some_of_pairwise mem ((covers x).2 covered) ?_
  refine (pairwise_tokenCells 0 none tree).imp fun {y z} behind py => ?_
  rw [Bool.eq_false_iff, ne_eq, covers]
  have first := (covers y).1 py
  omega

/-- Some cell is found where the token after the offset or the one before it belongs to a cell. -/
theorem isSome_cellAt? {tree : Tree} {offset byte : Nat} {span : Span} {c : Cell}
    (mem : (span, some c) ∈ tree.tokenCells 0 none)
    (covered : span.start ≤ byte ∧ byte < span.stop)
    (next : byte = offset ∨ byte + 1 = offset) : (tree.cellAt? offset).isSome := by
  rw [cellAt?, Option.isSome_or, Bool.or_eq_true]
  rcases next with rfl | rfl
  · refine .inl ?_
    rw [find?_tokenCells mem byte (fun y => by simp only [Bool.and_eq_true, decide_eq_true_eq])
      covered]
    rfl
  · refine .inr ?_
    rw [find?_tokenCells mem byte (fun y => by simp only [Bool.and_eq_true, decide_eq_true_eq,
      Nat.lt_add_one_iff, Nat.add_one_le_iff]) covered]
    rfl

end Tree

namespace Node

variable {text : Text} {n m : Node} {c d : Cell} {offset : Nat}

theorem isCell_of_cell? (h : n.cell? = some c) : n.kind.isCell = true := by
  rw [kind_of_cell? h]
  rfl

/-- An offset touches one cell at most. -/
theorem eq_of_touches (hn : n ∈ (parse text).value.allNodes) (hc : n.cell? = some c)
    (hm : m ∈ (parse text).value.allNodes) (hd : m.cell? = some d)
    (first : c.span.touches offset = true) (second : d.span.touches offset = true) : n = m := by
  rw [span_of_cell? hc, Span.touches_iff, start_span] at first
  rw [span_of_cell? hd, Span.touches_iff, start_span] at second
  rcases eq_or_apart_of_cells hn (isCell_of_cell? hc) hm (isCell_of_cell? hd) with same | apart
  · exact same
  · omega

/-- A cell is a node around tokens. -/
theorem exists_leaves_of_cell (h : n ∈ (parse text).value.allNodes)
    (cell : n.kind.isCell = true) : ∃ ts : List Token, n.children = ts.map .leaf := by
  have piece := isPiece_of_cell h cell
  obtain ⟨start, kind, children⟩ := n
  cases piece with
  | cell _ ts | comment ts => exact ⟨ts, rfl⟩

theorem start_lt_stop_of_cell (h : n ∈ (parse text).value.allNodes)
    (cell : n.kind.isCell = true) : n.start < n.span.stop := by
  have filled : ∀ t ∈ Tree.leavesOf n.children, t.text ≠ [] := fun t ht =>
    Token.text_ne_nil_of_mem_tokenize (mem_tokenize_of_mem_leavesOf h ht)
  have pos := Token.sizeOf_pos filled (tokens_of_cell h cell).1
  exact Nat.lt_add_of_pos_right pos

/-- Every byte of a cell is that of a token which is listed with the cell. -/
theorem exists_token_of_cell (h : n ∈ (parse text).value.allNodes) (hc : n.cell? = some c)
    {byte : Nat} (lower : n.start ≤ byte) (upper : byte < n.span.stop) :
    ∃ span, (span, some c) ∈ (parse text).value.tokenCells 0 none ∧
      span.start ≤ byte ∧ byte < span.stop := by
  obtain ⟨ts, leaves⟩ := exists_leaves_of_cell h (isCell_of_cell? hc)
  rw [span_eq, leaves, Tree.leavesOf_map_leaf] at upper
  obtain ⟨span, mem, covers⟩ := Tree.exists_token_at n.start (some c) ts lower upper
  rw [← leaves] at mem
  exact ⟨span, Tree.subset_tokenCells_of_cell 0 none hc _ h mem, covers⟩

/-- The cell that an offset touches is found there. -/
theorem cellAt?_eq_some (hn : n ∈ (parse text).value.allNodes) (hc : n.cell? = some c)
    (touches : c.span.touches offset = true) : (parse text).value.cellAt? offset = some c := by
  have unique {d : Cell} (found : (parse text).value.cellAt? offset = some d) : d = c := by
    obtain ⟨m, hm, hd, lower, upper⟩ := Tree.exists_of_cellAt? found
    have same := eq_of_touches hn hc hm hd touches ((Span.touches_iff _ _).2 ⟨lower, upper⟩)
    rw [same, hd] at hc
    exact Option.some.inj hc
  suffices some : ((parse text).value.cellAt? offset).isSome by
    obtain ⟨d, found⟩ := Option.isSome_iff_exists.1 some
    rw [found, unique found]
  rw [span_of_cell? hc, Span.touches_iff, start_span] at touches
  by_cases inside : offset < n.span.stop
  · obtain ⟨span, mem, covered⟩ := exists_token_of_cell hn hc touches.1 inside
    exact Tree.isSome_cellAt? mem covered (.inl rfl)
  · have filled : n.start < n.span.stop := start_lt_stop_of_cell hn (isCell_of_cell? hc)
    obtain ⟨span, mem, covered⟩ :=
      exists_token_of_cell hn hc (by omega : n.start ≤ offset - 1) (by omega)
    exact Tree.isSome_cellAt? mem covered (.inr (by omega))

end Node

end RobotAnalysis
