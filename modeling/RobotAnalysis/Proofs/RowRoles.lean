import RobotAnalysis.Proofs.PlacedNodes
import RobotAnalysis.Row

/-!
# The roles of the cells of a row

Which trees a row becomes depends on its parts, but which roles its cells get depends on their texts
alone: the machine that gives out roles is run over the cells of the row, the marks of continuation
lines left out. What holds of a single step of the machine is then carried along the whole row.
-/
namespace RobotAnalysis

namespace Roles

def after (r : Roles) (cells : List Text) : Roles := cells.foldl (fun r cell => (r.next cell).2) r

/-- The roles given to some cells, with their texts. -/
def given (r : Roles) : List Text → List (CellKind × Text)
  | [] => []
  | cell :: cells => ((r.next cell).1.toList.map (·, cell)) ++ (r.next cell).2.given cells

/-- The machine counts the cells. -/
theorem index_after (r : Roles) (cells : List Text) :
    (r.after cells).index = r.index + cells.length := by
  induction cells generalizing r with
  | nil => rfl
  | cons cell cells ih =>
    have next : (r.next cell).2.index = r.index + 1 := rfl
    rw [after, List.foldl_cons, ← after, ih, next, List.length_cons, Nat.add_assoc,
      Nat.add_comm 1]

theorem after_append (r : Roles) (cells more : List Text) :
    r.after (cells ++ more) = (r.after cells).after more := List.foldl_append

theorem given_append (r : Roles) (cells more : List Text) :
    r.given (cells ++ more) = r.given cells ++ (r.after cells).given more := by
  induction cells generalizing r with
  | nil => rfl
  | cons cell cells ih => simp only [List.cons_append, given, ih, after, List.foldl_cons,
      List.append_assoc]

/-- A row that is not interpreted gives no roles. -/
theorem given_of_other {r : Roles} (h : r.shape = .other) (cells : List Text) :
    r.given cells = [] := by
  induction cells generalizing r with
  | nil => rfl
  | cons cell cells ih =>
    have none : (r.next cell).1 = none ∧ (r.next cell).2.shape = .other := by
      simp [next, h]
    rw [given, none.1, ih none.2]
    rfl

end Roles

namespace Tree

theorem cellTexts_append (ts us : List Tree) :
    cellTexts (ts ++ us) = cellTexts ts ++ cellTexts us :=
  List.filterMap_append

theorem cellTexts_of_isGap {ts : List Tree} (h : ∀ t ∈ ts, IsGap t) : cellTexts ts = [] := by
  rw [cellTexts, List.filterMap_eq_nil_iff]
  intro t ht
  cases h t ht <;> rfl

end Tree

namespace Part

/-- Without a role a cell is only its tokens. -/
theorem isGap_of_mem_bare {p : Part} {t : Tree} (h : t ∈ p.bare) : t.IsGap := by
  cases p with
  | gap token =>
    rw [bare, List.mem_singleton] at h
    exact h ▸ .leaf token
  | cell ts =>
    obtain ⟨token, -, rfl⟩ := List.mem_map.1 h
    exact .leaf token
  | comment ts =>
    rw [bare, List.mem_singleton] at h
    exact h ▸ .comment ts

theorem isPiece_of_mem_ofCell {kind? : Option CellKind} {ts : List Token} {t : Tree}
    (h : t ∈ ofCell kind? ts) : t.IsPiece := by
  cases kind? with
  | none =>
    obtain ⟨token, -, rfl⟩ := List.mem_map.1 h
    exact .leaf token
  | some kind =>
    rw [ofCell, List.mem_singleton] at h
    exact h ▸ .cell kind ts

theorem cellTexts_ofCell (kind? : Option CellKind) (ts : List Token) :
    Tree.cellTexts (ofCell kind? ts) = kind?.toList.map (·, Token.textOf ts) := by
  cases kind? with
  | none =>
    refine Tree.cellTexts_of_isGap fun t ht => ?_
    obtain ⟨token, -, rfl⟩ := List.mem_map.1 ht
    exact .leaf token
  | some kind => simp [ofCell, Tree.cellTexts, Tree.cellText?]

end Part

theorem Line.isGap_of_mem_bare {l : Line} {t : Tree} (h : t ∈ l.bare) : t.IsGap := by
  obtain ⟨p, -, ht⟩ := List.mem_flatMap.1 h
  exact Part.isGap_of_mem_bare ht

namespace Roles

theorem isPiece_of_mem_assign {r : Roles} {ps : List Part} {t : Tree} (h : t ∈ (r.assign ps).1) :
    t.IsPiece := by
  induction ps generalizing r with
  | nil => cases h
  | cons p ps ih =>
    cases p with
    | cell ts =>
      rcases List.mem_append.1 h with h | h
      · exact Part.isPiece_of_mem_ofCell h
      · exact ih h
    | gap token =>
      rcases List.mem_cons.1 h with rfl | h
      · exact .leaf token
      · exact ih h
    | comment ts =>
      rcases List.mem_cons.1 h with rfl | h
      · exact .comment ts
      · exact ih h

theorem isPiece_of_mem_assignContinuations {r : Roles} {ls : List Line} {t : Tree}
    (h : t ∈ r.assignContinuations ls) : t.IsPiece := by
  induction ls generalizing r with
  | nil => cases h
  | cons l ls ih =>
    rw [assignContinuations, List.mem_append, List.mem_append] at h
    rcases h with (h | h) | h
    · obtain ⟨p, -, ht⟩ := List.mem_flatMap.1 h
      exact (Part.isGap_of_mem_bare ht).isPiece
    · exact isPiece_of_mem_assign h
    · exact ih h

theorem snd_assign (r : Roles) (ps : List Part) :
    (r.assign ps).2 = r.after (ps.filterMap Part.cellText?) := by
  induction ps generalizing r with
  | nil => rfl
  | cons p ps ih => cases p <;> exact ih _

theorem cellTexts_assign (r : Roles) (ps : List Part) :
    Tree.cellTexts (r.assign ps).1 = r.given (ps.filterMap Part.cellText?) := by
  induction ps generalizing r with
  | nil => rfl
  | cons p ps ih =>
    cases p with
    | cell ts =>
      have rest := ih (r.next (Token.textOf ts)).2
      simp only [assign, Tree.cellTexts_append, Part.cellTexts_ofCell, rest]
      rfl
    | gap token => exact ih r
    | comment ts => exact ih r

end Roles

namespace Line

/-- The parts after the first cell hold the other cells. -/
theorem cells_splitAfterFirstCell (l : Line) :
    l.splitAfterFirstCell.2.filterMap Part.cellText? = l.cells.tail := by
  rw [splitAfterFirstCell, cells]
  induction l.parts with
  | nil => rfl
  | cons p ps ih =>
    cases p with
    | cell ts => rfl
    | gap token => exact ih
    | comment ts => exact ih

end Line

theorem Roles.cellTexts_assignContinuations (r : Roles) (ls : List Line) :
    Tree.cellTexts (r.assignContinuations ls) = r.given (ls.flatMap fun l => l.cells.tail) := by
  induction ls generalizing r with
  | nil => rfl
  | cons l ls ih =>
    have mark : Tree.cellTexts (l.splitAfterFirstCell.1.flatMap Part.bare) = [] := by
      refine Tree.cellTexts_of_isGap fun t ht => ?_
      obtain ⟨p, -, ht⟩ := List.mem_flatMap.1 ht
      exact Part.isGap_of_mem_bare ht
    simp only [assignContinuations, Tree.cellTexts_append, mark, List.nil_append, cellTexts_assign,
      Line.cells_splitAfterFirstCell, ih, snd_assign, List.flatMap_cons, given_append]

namespace Row

/-- The cells of a row, the marks of continuation lines left out. -/
def cells (r : Row) : List Text := r.head.cells ++ r.continuations.flatMap fun l => l.cells.tail

theorem length_cells (r : Row) : r.cells.length = r.cellCount := by
  have marks (n : Nat) (ls : List Line) :
      n + (ls.flatMap fun l => l.cells.tail).length =
        ls.foldl (fun n l => n + (l.cells.length - 1)) n := by
    induction ls generalizing n with
    | nil => rfl
    | cons l ls ih =>
      rw [List.foldl_cons, ← ih, List.flatMap_cons, List.length_append, List.length_tail,
        Nat.add_assoc]
  rw [cells, List.length_append, marks, cellCount]

theorem isPiece_of_mem_trees {shape : RowShape} {r : Row} {t : Tree} (h : t ∈ r.trees shape) :
    t.IsPiece := by
  rcases List.mem_append.1 h with h | h
  · exact Roles.isPiece_of_mem_assign h
  · exact Roles.isPiece_of_mem_assignContinuations h

/-- The cells of the tree of a row are the cells of the row with the roles given to them. -/
theorem cellTexts_trees (shape : RowShape) (r : Row) :
    Tree.cellTexts (r.trees shape) = (Roles.start shape).given r.cells := by
  simp only [trees, cells, Tree.cellTexts_append, Roles.cellTexts_assign,
    Roles.cellTexts_assignContinuations, Roles.snd_assign, Line.cells, Roles.given_append]

theorem cells_eq_cons {r : Row} (h : r.head.isBlank = false) :
    ∃ rest, r.cells = r.name :: rest := by
  rw [cells, name]
  cases cells : r.head.cells with
  | nil => simp [Line.isBlank, cells] at h
  | cons c cs => exact ⟨_, rfl⟩

end Row

namespace RowShape

/-- Rows that have the role of a keyword call to give. -/
def mayCall : RowShape → Bool
  | .setting fixture => fixture
  | .bracket fixture arguments => fixture && !arguments
  | .call => true
  | .importing | .variableRow | .control | .other => false

end RowShape

namespace Roles

/-- The number of keyword calls that a row can still get. -/
def callsLeft (r : Roles) : Nat := if r.shape.mayCall && !r.called then 1 else 0

/-- One step of the machine gives a keyword call only where one is left, and uses it up. -/
theorem callsLeft_next (r : Roles) (cell : Text) :
    ((r.next cell).1.toList.count .keywordCall) + (r.next cell).2.callsLeft ≤ r.callsLeft := by
  obtain ⟨shape, index, called, inLoopVariables⟩ := r
  cases shape with
  | setting fixture | bracket fixture arguments =>
    cases fixture <;> cases called <;> try cases arguments
    all_goals by_cases first : index = 0 <;>
      simp [next, afterName, callsLeft, RowShape.mayCall, first]
  | importing | variableRow =>
    by_cases first : index = 0 <;> simp [next, callsLeft, RowShape.mayCall, first]
  | call =>
    cases called <;> by_cases whole : VariableToken.isWholeCell cell = true <;>
      simp [next, ofCall, callsLeft, RowShape.mayCall, whole]
  | control =>
    simp only [next, ofControl, callsLeft, RowShape.mayCall]
    split_ifs <;> simp_all
  | other => simp [next, callsLeft, RowShape.mayCall]

theorem length_calls_given_le (r : Roles) (cells : List Text) :
    ((r.given cells).filter fun c => c.1 == .keywordCall).length ≤ r.callsLeft := by
  induction cells generalizing r with
  | nil => simp [given]
  | cons cell cells ih =>
    have step := r.callsLeft_next cell
    have rest := ih (r.next cell).2
    have here : ((r.next cell).1.toList.map (·, cell)).filter (fun c => c.1 == .keywordCall) =
        ((r.next cell).1.toList.filter (· == .keywordCall)).map (·, cell) := by
      rw [List.filter_map]
      rfl
    rw [given, List.filter_append, List.length_append, here, List.length_map,
      ← List.countP_eq_length_filter]
    rw [List.count] at step
    omega

end Roles

namespace Row

/-- A row gets at most one keyword call, and none where its shape has none to give. -/
theorem length_calls_le (shape : RowShape) (r : Row) :
    ((Tree.cellTexts (r.trees shape)).filter fun c => c.1 == .keywordCall).length ≤
      if shape.mayCall then 1 else 0 := by
  rw [cellTexts_trees]
  have bound := (Roles.start shape).length_calls_given_le r.cells
  simpa [Roles.callsLeft, Roles.start] using bound

/-- The first cell of an import is the name of the setting. -/
theorem head?_importing {r : Row} (h : r.head.isBlank = false) :
    (Tree.cellTexts (r.trees .importing)).head? = some (.settingName, r.name) := by
  obtain ⟨rest, cells⟩ := cells_eq_cons h
  rw [cellTexts_trees, cells]
  rfl

end Row

end RobotAnalysis
