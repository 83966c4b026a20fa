import RobotAnalysis.Proofs.SymbolOrder

/-!
# Where the cells of a document are

A cell is a run of words with single spaces between them. Cells hold no other nodes and do not touch
each other, so an offset touches one of them at most, and this is the one that is found there.
-/
namespace RobotAnalysis

namespace Part

variable {ts cs : List Token}

/-- A cell does not end with a blank. -/
theorem isTrivia_of_mem_getLast?_cell (h : .cell cs ∈ ofTokens ts) :
    ∀ t ∈ cs.getLast?, t.isTrivia = false := by
  obtain ⟨t, us, word, rfl⟩ := exists_restOfCell h
  exact Sequence.getLast?_cons_dropTrailing word _

end Part

namespace Node

variable {text : Text} {n : Node}

/-- Whether a node is made of words with blanks between them and of nothing else. -/
structure IsWords (n : Node) : Prop where
  /-- It covers some bytes. -/
  filled : n.span.start < n.span.stop
  /-- It holds no other node. -/
  flat : n.below = []
  /-- It goes beyond no separator and no line break. -/
  whole : ∀ t ∈ Tree.leavesOf n.children, t.kind ≠ .separator ∧ t.kind ≠ .newline
  /-- It begins with a word. -/
  first : ∃ t, (Tree.leavesOf n.children).head? = some t ∧ t.isTrivia = false
  /-- It ends with a word. -/
  last : ∃ t, (Tree.leavesOf n.children).getLast? = some t ∧ t.isTrivia = false

theorem isWords_of_cell (h : n ∈ (parse text).value.allNodes) (cell : n.kind.isCell = true) :
    n.IsWords := by
  obtain ⟨ts, mem⟩ := exists_line_of_cell h cell
  obtain ⟨filled, -⟩ := tokens_of_cell h cell
  exact {
    filled := start_lt_stop_of_cell h cell
    flat := below_eq_nil (isPiece_of_cell h cell)
    whole := fun t ht => by simpa [Part.endsCell] using Part.endsCell_of_mem_cell mem t ht
    first := ⟨_, List.head?_eq_some_head filled, Part.isTrivia_of_mem_head?_cell mem _
      (List.head?_eq_some_head filled)⟩
    last := ⟨_, List.getLast?_eq_some_getLast filled, Part.isTrivia_of_mem_getLast?_cell mem _
      (List.getLast?_eq_some_getLast filled)⟩ }

end Node

namespace Tree

/-- Exactly the cell that an offset touches is found there. The cells of a document lie one behind
the other and do not touch, so it is the only one, and each is made of words. -/
theorem cellAt?_eq_some_iff (text : Text) :
    let tree := (parse text).value
    (∀ offset c, tree.cellAt? offset = some c ↔
      c ∈ tree.allCells ∧ c.span.start ≤ offset ∧ offset ≤ c.span.stop) ∧
    (∀ offset, ∀ c ∈ tree.allCells, ∀ d ∈ tree.allCells, c.span.touches offset = true →
      d.span.touches offset = true → c = d) ∧
    tree.allCells.Pairwise (fun c d => c.span.stop < d.span.start) ∧
    ∀ n ∈ tree.allNodes, n.kind.isCell = true → n.IsWords := by
  intro tree
  refine ⟨fun offset c => ⟨fun found => ?_, ?_⟩, ?_, pairwise_cells text,
    fun n hn cell => Node.isWords_of_cell hn cell⟩
  · obtain ⟨n, hn, cell, touched⟩ := exists_of_cellAt? found
    exact ⟨List.mem_filterMap.2 ⟨n, hn, cell⟩, touched⟩
  · rintro ⟨mem, touched⟩
    obtain ⟨n, hn, cell⟩ := List.mem_filterMap.1 mem
    exact Node.cellAt?_eq_some hn cell ((Span.touches_iff _ _).2 touched)
  · intro offset c hc d hd first second
    obtain ⟨n, hn, cell⟩ := List.mem_filterMap.1 hc
    obtain ⟨m, hm, other⟩ := List.mem_filterMap.1 hd
    have same := Node.eq_of_touches hn cell hm other first second
    rw [same, other] at cell
    exact (Option.some.inj cell).symm

end Tree

end RobotAnalysis
