import RobotAnalysis.Cursor
import RobotAnalysis.Proofs.PlacedNodes

/-!
# What nodes cover

A node covers the bytes of the tokens inside it. Nodes inside another one stay within its bytes, and
two nodes of which neither is inside the other share no byte. A cell that is found at an offset is
that of a node which the offset touches.
-/
namespace RobotAnalysis

namespace Token

theorem sizeOf_append (ts us : List Token) : sizeOf (ts ++ us) = sizeOf ts + sizeOf us := by
  simp [sizeOf, textOf]

theorem sizeOf_pos {ts : List Token} (filled : ∀ t ∈ ts, t.text ≠ []) (h : ts ≠ []) :
    0 < sizeOf ts := by
  obtain ⟨t, rest, rfl⟩ := List.exists_cons_of_ne_nil h
  obtain ⟨c, text, chars⟩ := List.exists_cons_of_ne_nil (filled t List.mem_cons_self)
  have := c.utf8Size_pos
  simp only [sizeOf, textOf, List.flatMap_cons, chars, List.cons_append, Text.byteSize_cons]
  omega

theorem text_ne_nil_of_mem_tokenize {text : Text} {t : Token} (h : t ∈ tokenize text) :
    t.text ≠ [] := by
  induction text using tokenize.induct with
  | case1 => simp at h
  | case2 c rest scanned ih =>
    rw [tokenize] at h
    rcases List.mem_cons.1 h with rfl | h
    · exact text_scan_ne_nil c rest
    · exact ih h

/-- Where no token is empty, the tokens before an offset are known by their size. -/
theorem eq_of_sizeOf_eq {tokens ts us : List Token} (filled : ∀ t ∈ tokens, t.text ≠ [])
    (hts : ts <+: tokens) (hus : us <+: tokens) (h : sizeOf ts = sizeOf us) : ts = us := by
  have same {vs ws : List Token} (hws : ws <+: tokens) (longer : vs <+: ws)
      (h : sizeOf vs = sizeOf ws) : vs = ws := by
    obtain ⟨rest, rfl⟩ := longer
    by_cases none : rest = []
    · rw [none, List.append_nil]
    · have inside : ∀ t ∈ rest, t.text ≠ [] := fun t ht =>
        filled t (hws.subset (List.mem_append_right _ ht))
      have pos := sizeOf_pos inside none
      rw [sizeOf_append] at h
      omega
  rcases List.prefix_or_prefix_of_prefix hts hus with longer | longer
  · exact same hus longer h
  · exact (same hts longer h.symm).symm

end Token

namespace Node

/-- Whether a node begins where another one has ended. -/
def IsBehind (n m : Node) : Prop := m.span.stop ≤ n.start

/-- Whether a node covers no bytes that another one does not cover. -/
def IsWithin (n m : Node) : Prop := m.start ≤ n.start ∧ n.span.stop ≤ m.span.stop

theorem span_eq (n : Node) : n.span = ⟨n.start, Token.sizeOf (Tree.leavesOf n.children)⟩ := rfl

@[simp] theorem start_span (n : Node) : n.span.start = n.start := rfl

/-- The cell that a node is. -/
theorem of_cell? {n : Node} {c : Cell} (h : n.cell? = some c) :
    n.kind = .cell c.kind ∧ c.text = n.text ∧ c.span = n.span := by
  obtain ⟨start, kind, children⟩ := n
  cases kind with
  | cell role =>
    cases h
    exact ⟨rfl, rfl, rfl⟩
  | _ => cases h

theorem kind_of_cell? {n : Node} {c : Cell} (h : n.cell? = some c) : n.kind = .cell c.kind :=
  (of_cell? h).1

theorem span_of_cell? {n : Node} {c : Cell} (h : n.cell? = some c) : c.span = n.span :=
  (of_cell? h).2.2

end Node

namespace Tree

theorem sizeOf_leavesOf_cons (t : Tree) (ts : List Tree) :
    Token.sizeOf (leavesOf (t :: ts)) = t.size + Token.sizeOf (leavesOf ts) := by
  simp [leavesOf, size, Token.sizeOf, Token.textOf]

mutual

theorem within_of_mem_nodesIn (start : Nat) : ∀ t : Tree, ∀ n ∈ nodesIn start t,
    start ≤ n.start ∧ n.span.stop ≤ start + t.size
  | .leaf _, n, h => by cases h
  | .node kind children, n, h => by
    rcases List.mem_cons.1 h with rfl | h
    · exact ⟨Nat.le_refl _, Nat.le_refl _⟩
    · exact within_of_mem_nodesInAll start children n h

theorem within_of_mem_nodesInAll (start : Nat) : ∀ ts : List Tree, ∀ n ∈ nodesInAll start ts,
    start ≤ n.start ∧ n.span.stop ≤ start + Token.sizeOf (leavesOf ts)
  | [], n, h => by cases h
  | t :: ts, n, h => by
    rw [sizeOf_leavesOf_cons]
    rcases List.mem_append.1 h with h | h
    · have := within_of_mem_nodesIn start t n h
      omega
    · have := within_of_mem_nodesInAll (start + t.size) ts n h
      omega

end

end Tree

namespace Node

theorem isWithin_of_mem_below {n m : Node} (h : n ∈ m.below) : n.IsWithin m :=
  Tree.within_of_mem_nodesInAll m.start m.children n h

end Node

namespace Tree

mutual

theorem mem_nodesIn_of_mem_below (start : Nat) {m : Node} : ∀ t : Tree, ∀ n ∈ nodesIn start t,
    m ∈ n.below → m ∈ nodesIn start t
  | .leaf _, n, hn, _ => by cases hn
  | .node kind children, n, hn, hm => by
    rcases List.mem_cons.1 hn with rfl | hn
    · exact List.mem_cons_of_mem _ hm
    · exact List.mem_cons_of_mem _ (mem_nodesInAll_of_mem_below start children n hn hm)

theorem mem_nodesInAll_of_mem_below (start : Nat) {m : Node} : ∀ ts : List Tree,
    ∀ n ∈ nodesInAll start ts, m ∈ n.below → m ∈ nodesInAll start ts
  | [], n, hn, _ => by cases hn
  | t :: ts, n, hn, hm => by
    rcases List.mem_append.1 hn with hn | hn
    · exact List.mem_append_left _ (mem_nodesIn_of_mem_below start t n hn hm)
    · exact List.mem_append_right _ (mem_nodesInAll_of_mem_below _ ts n hn hm)

end

end Tree

namespace Node

theorem mem_below_of_mem_nodes {n m : Node} (h : m ∈ n.nodes) : m ∈ n.below := by
  rw [below_eq]
  exact List.mem_flatMap.2 ⟨m, h, List.mem_cons_self⟩

/-- The children of a node of a tree are nodes of the tree. -/
theorem mem_allNodes_of_mem_nodes {t : Tree} {n m : Node} (hn : n ∈ t.allNodes) (hm : m ∈ n.nodes) :
    m ∈ t.allNodes :=
  Tree.mem_nodesIn_of_mem_below 0 t n hn (mem_below_of_mem_nodes hm)

/-- How two nodes of a tree lie to each other. -/
inductive Apart (n m : Node) : Prop
  | same (h : n = m)
  | inside (h : n ∈ m.below)
  | around (h : m ∈ n.below)
  | before (h : m.IsBehind n)
  | behind (h : n.IsBehind m)

end Node

namespace Tree

mutual

theorem apart_of_mem_nodesIn (start : Nat) : ∀ t : Tree,
    ∀ n ∈ nodesIn start t, ∀ m ∈ nodesIn start t, n.Apart m
  | .leaf _, n, hn, _, _ => by cases hn
  | .node kind children, n, hn, m, hm => by
    rcases List.mem_cons.1 hn with rfl | hn
    · rcases List.mem_cons.1 hm with rfl | hm
      · exact .same rfl
      · exact .around hm
    · rcases List.mem_cons.1 hm with rfl | hm
      · exact .inside hn
      · exact apart_of_mem_nodesInAll start children n hn m hm

theorem apart_of_mem_nodesInAll (start : Nat) : ∀ ts : List Tree,
    ∀ n ∈ nodesInAll start ts, ∀ m ∈ nodesInAll start ts, n.Apart m
  | [], n, hn, _, _ => by cases hn
  | t :: ts, n, hn, m, hm => by
    rcases List.mem_append.1 hn with hn | hn
    · rcases List.mem_append.1 hm with hm | hm
      · exact apart_of_mem_nodesIn start t n hn m hm
      · have first := within_of_mem_nodesIn start t n hn
        have second := within_of_mem_nodesInAll (start + t.size) ts m hm
        exact .before (Nat.le_trans first.2 second.1)
    · rcases List.mem_append.1 hm with hm | hm
      · have first := within_of_mem_nodesIn start t m hm
        have second := within_of_mem_nodesInAll (start + t.size) ts n hn
        exact .behind (Nat.le_trans first.2 second.1)
      · exact apart_of_mem_nodesInAll (start + t.size) ts n hn m hm

end

/-- Of two nodes of a tree one is inside the other, or they share no byte. -/
theorem apart_of_mem_allNodes {t : Tree} {n m : Node} (hn : n ∈ t.allNodes) (hm : m ∈ t.allNodes) :
    n.Apart m :=
  apart_of_mem_nodesIn 0 t n hn m hm

mutual

/-- The tokens before a node, its own, and those behind it. -/
theorem exists_split_of_mem_nodesIn (start : Nat) : ∀ t : Tree, ∀ n ∈ nodesIn start t,
    ∃ before behind, t.leaves = before ++ (leavesOf n.children ++ behind) ∧
      n.start = start + Token.sizeOf before
  | .leaf _, n, h => by cases h
  | .node kind children, n, h => by
    rcases List.mem_cons.1 h with rfl | h
    · exact ⟨[], [], by simp [leaves], rfl⟩
    · exact exists_split_of_mem_nodesInAll start children n h

theorem exists_split_of_mem_nodesInAll (start : Nat) : ∀ ts : List Tree, ∀ n ∈ nodesInAll start ts,
    ∃ before behind, leavesOf ts = before ++ (leavesOf n.children ++ behind) ∧
      n.start = start + Token.sizeOf before
  | [], n, h => by cases h
  | t :: ts, n, h => by
    rcases List.mem_append.1 h with h | h
    · obtain ⟨before, behind, leaves, place⟩ := exists_split_of_mem_nodesIn start t n h
      exact ⟨before, behind ++ leavesOf ts, by simp [leavesOf, leaves], place⟩
    · obtain ⟨before, behind, leaves, place⟩ :=
        exists_split_of_mem_nodesInAll (start + t.size) ts n h
      refine ⟨t.leaves ++ before, behind, by simp [leavesOf, leaves], ?_⟩
      rw [place, Token.sizeOf_append, size, Nat.add_assoc]

end

/-- The trees before a child, and those behind it. -/
theorem exists_split_of_mem_nodesFrom {start : Nat} {ts : List Tree} {n : Node}
    (h : n ∈ nodesFrom start ts) :
    ∃ before behind, ts = before ++ n.tree :: behind ∧
      n.start = start + Token.sizeOf (leavesOf before) := by
  induction ts generalizing start with
  | nil => cases h
  | cons t ts ih =>
    have later {size : Nat} (h : n ∈ nodesFrom (start + size) ts) (same : size = t.size) :
        ∃ before behind, t :: ts = before ++ n.tree :: behind ∧
          n.start = start + Token.sizeOf (leavesOf before) := by
      obtain ⟨before, behind, rfl, place⟩ := ih h
      refine ⟨t :: before, behind, rfl, ?_⟩
      rw [place, sizeOf_leavesOf_cons, same, Nat.add_assoc]
    cases t with
    | leaf token => exact later h (by simp [size, leaves, Token.sizeOf, Token.textOf])
    | node kind children =>
      rcases List.mem_cons.1 h with rfl | h
      · exact ⟨[], ts, rfl, rfl⟩
      · exact later h rfl

/-- Where the cell around a token comes from: from around the tree, or from a node in it that covers
the token. -/
inductive CellSource (inside : Option Cell) (start size : Nat) (nodes : List Node) (token : Span)
    (c : Cell) : Prop
  | around (h : inside = some c) (lower : start ≤ token.start) (upper : token.stop ≤ start + size)
  | node (n : Node) (mem : n ∈ nodes) (cell : n.cell? = some c) (lower : n.start ≤ token.start)
      (upper : token.stop ≤ n.span.stop)

mutual

theorem source_of_mem_tokenCells (start : Nat) (inside : Option Cell) {token : Span} {c : Cell} :
    ∀ t : Tree, (token, some c) ∈ tokenCells start inside t →
      CellSource inside start t.size (nodesIn start t) token c
  | .leaf t, h => by
    cases List.mem_singleton.1 h
    refine .around rfl (Nat.le_refl _) ?_
    simp [Span.stop, size, leaves, Token.sizeOf, Token.textOf]
  | .node kind children, h => by
    cases source_of_mem_tokenCells_all start _ children h with
    | around found lower upper =>
      rcases Option.or_eq_some_iff.1 found with cell | ⟨-, found⟩
      · exact .node _ List.mem_cons_self cell lower upper
      · exact .around found lower upper
    | node n mem cell lower upper =>
      exact .node n (List.mem_cons_of_mem _ mem) cell lower upper

theorem source_of_mem_tokenCells_all (start : Nat) (inside : Option Cell) {token : Span}
    {c : Cell} : ∀ ts : List Tree, (token, some c) ∈ tokenCellsOf start inside ts →
      CellSource inside start (Token.sizeOf (leavesOf ts)) (nodesInAll start ts) token c
  | [], h => by cases h
  | t :: ts, h => by
    rw [sizeOf_leavesOf_cons]
    rcases List.mem_append.1 h with h | h
    · cases source_of_mem_tokenCells start inside t h with
      | around found lower upper => exact .around found lower (by omega)
      | node n mem cell lower upper =>
        exact .node n (List.mem_append_left _ mem) cell lower upper
    · cases source_of_mem_tokenCells_all (start + t.size) inside ts h with
      | around found lower upper => exact .around found (by omega) (by omega)
      | node n mem cell lower upper =>
        exact .node n (List.mem_append_right _ mem) cell lower upper

end

/-- The cell at an offset is that of a node that the offset touches. -/
theorem exists_of_cellAt? {tree : Tree} {offset : Nat} {c : Cell}
    (h : tree.cellAt? offset = some c) :
    ∃ n ∈ tree.allNodes, n.cell? = some c ∧ c.span.start ≤ offset ∧ offset ≤ c.span.stop := by
  have touched {token : Span} (mem : (token, some c) ∈ tree.tokenCells 0 none)
      (lower : token.start ≤ offset) (upper : offset ≤ token.stop) :
      ∃ n ∈ tree.allNodes, n.cell? = some c ∧ c.span.start ≤ offset ∧ offset ≤ c.span.stop := by
    cases source_of_mem_tokenCells 0 none tree mem with
    | around found => cases found
    | node n inTree cell first last =>
      rw [Node.span_of_cell? cell]
      exact ⟨n, inTree, cell, Nat.le_trans first lower, Nat.le_trans upper last⟩
  rw [cellAt?, Option.or_eq_some_iff] at h
  rcases h with h | ⟨-, h⟩
  · obtain ⟨⟨token, cell⟩, found, rfl⟩ := Option.bind_eq_some_iff.1 h
    have holds := List.find?_some found
    simp only [Bool.and_eq_true, decide_eq_true_eq] at holds
    exact touched (List.mem_of_find?_eq_some found) holds.1 (Nat.le_of_lt holds.2)
  · obtain ⟨⟨token, cell⟩, found, rfl⟩ := Option.bind_eq_some_iff.1 h
    have holds := List.find?_some found
    simp only [Bool.and_eq_true, decide_eq_true_eq] at holds
    exact touched (List.mem_of_find?_eq_some found) (Nat.le_of_lt holds.1) holds.2

end Tree

end RobotAnalysis
