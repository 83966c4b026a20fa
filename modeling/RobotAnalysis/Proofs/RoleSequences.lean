import RobotAnalysis.Proofs.TreeGrammar

/-!
# The sequences of roles

Which cells a row of each kind may have. The first cell of a row decides how the others are read: a
setting has a name and arguments, and where it is a fixture a keyword call before them; a call has
the variables it assigns, the keyword and its arguments; a control structure has its marker, and a
loop its variables up to the word `IN`. The machine that gives out roles produces these sequences
and no others.
-/
namespace RobotAnalysis

/-- Cells that all play the same role. -/
def CellKind.all (kind : CellKind) (cells : List Text) : List (CellKind × Text) :=
  cells.map (kind, ·)

/-- The role of a cell of a control structure that is neither its marker nor a variable. -/
def CellKind.inControl (cell : Text) : CellKind :=
  if Reserved.isLoopInMarker cell || Reserved.isControlMarker cell then .controlMarker
  else .argument

/-- The cells of a fixture after its name: a keyword call with its arguments. -/
def fixtureCells : List Text → List (CellKind × Text)
  | [] => []
  | call :: arguments => (.keywordCall, call) :: CellKind.argument.all arguments

/-- The cells that a row of some kind may have, with the roles they play. -/
inductive RowCells : NodeKind → List (CellKind × Text) → Prop
  | setting {name : Text} (noImport : Reserved.isImportSetting name = false)
      (noFixture : Reserved.isFixtureSetting name = false) (values : List Text) :
      RowCells .setting ((.settingName, name) :: CellKind.argument.all values)
  | fixtureSetting {name : Text} (noImport : Reserved.isImportSetting name = false)
      (fixture : Reserved.isFixtureSetting name = true) (values : List Text) :
      RowCells .setting ((.settingName, name) :: fixtureCells values)
  | importing {name : Text} (h : Reserved.isImportSetting name = true) (values : List Text) :
      RowCells .importing ((.settingName, name) :: CellKind.argument.all values)
  | variableRow (name : Text) (values : List Text) :
      RowCells .variableRow ((.variableName, name) :: CellKind.argument.all values)
  | bracket {name : Text} (bracketed : Reserved.isBracketed name = true)
      (noArguments : Reserved.isArgumentsBracketSetting name = false)
      (noFixture : Reserved.isFixtureBracketSetting name = false) (values : List Text) :
      RowCells .bracketRow ((.settingName, name) :: CellKind.argument.all values)
  | fixtureBracket {name : Text} (bracketed : Reserved.isBracketed name = true)
      (noArguments : Reserved.isArgumentsBracketSetting name = false)
      (fixture : Reserved.isFixtureBracketSetting name = true) (values : List Text) :
      RowCells .bracketRow ((.settingName, name) :: fixtureCells values)
  | arguments {name : Text} (bracketed : Reserved.isBracketed name = true)
      (h : Reserved.isArgumentsBracketSetting name = true) (declared : List Text) :
      RowCells .bracketRow ((.settingName, name) :: CellKind.assignment.all declared)
  /-- Variables that nothing is assigned to. -/
  | assignments {targets : List Text} (h : ∀ c ∈ targets, VariableToken.isWholeCell c = true) :
      RowCells .callRow (CellKind.assignment.all targets)
  | call {targets : List Text} (h : ∀ c ∈ targets, VariableToken.isWholeCell c = true) {name : Text}
      (noVariable : VariableToken.isWholeCell name = false) (values : List Text) :
      RowCells .callRow (CellKind.assignment.all targets ++
        (.keywordCall, name) :: CellKind.argument.all values)
  | control {marker : Text} (h : Reserved.isControlMarker marker = true)
      (noLoop : Reserved.isLoopMarker marker = false) (rest : List Text) :
      RowCells .controlRow ((.controlMarker, marker) :: rest.map fun c => (.inControl c, c))
  /-- A loop assigns its variables up to the first cell such as `IN`. -/
  | loop {marker : Text} (h : Reserved.isLoopMarker marker = true) {targets rest : List Text}
      (before : ∀ c ∈ targets, Reserved.isLoopInMarker c = false)
      (after : ∀ c ∈ rest.head?, Reserved.isLoopInMarker c = true) :
      RowCells .controlRow ((.controlMarker, marker) ::
        (CellKind.assignment.all targets ++ rest.map fun c => (.inControl c, c)))
  | other : RowCells .otherRow []

namespace Roles

/-- Where every step of the machine gives the role that a cell has by itself, so does a run. -/
theorem given_eq_map {P : Roles → Prop} {role : Text → CellKind}
    (step : ∀ r, P r → ∀ cell, (r.next cell).1 = some (role cell) ∧ P (r.next cell).2) {r : Roles}
    (h : P r) (cells : List Text) : r.given cells = cells.map fun c => (role c, c) := by
  induction cells generalizing r with
  | nil => rfl
  | cons cell cells ih =>
    obtain ⟨here, kept⟩ := step r h cell
    rw [given, here, ih kept]
    rfl

variable {r : Roles}

/-- Whether a row has nothing but arguments left to give. -/
def OnlyArguments (r : Roles) : Prop :=
  match r.shape with
  | .importing | .variableRow => r.index ≠ 0
  | .setting fixture | .bracket fixture false => r.index ≠ 0 ∧ (fixture = true → r.called = true)
  | .call => r.called = true
  | .bracket _ true | .control | .other => False

theorem OnlyArguments.next (h : r.OnlyArguments) (cell : Text) :
    (r.next cell).1 = some .argument ∧ (r.next cell).2.OnlyArguments := by
  obtain ⟨shape, index, called, inLoopVariables⟩ := r
  cases shape with
  | setting fixture =>
    obtain ⟨named, done⟩ := h
    cases fixture <;> simp_all [Roles.next, afterName, OnlyArguments]
  | bracket fixture arguments =>
    cases arguments with
    | true => cases h
    | false =>
      obtain ⟨named, done⟩ := h
      cases fixture <;> simp_all [Roles.next, afterName, OnlyArguments]
  | importing | variableRow => simp_all [Roles.next, OnlyArguments]
  | call => simp_all [Roles.next, ofCall, OnlyArguments]
  | control | other => cases h

theorem OnlyArguments.given (h : r.OnlyArguments) (cells : List Text) :
    r.given cells = CellKind.argument.all cells :=
  given_eq_map (fun _ h => h.next) h cells

/-- After its name a fixture gives a keyword call and arguments. -/
theorem given_fixture (named : r.index ≠ 0)
    (shape : r.shape = .setting true ∨ r.shape = .bracket true false) (uncalled : r.called = false)
    (cells : List Text) : r.given cells = fixtureCells cells := by
  obtain ⟨shape', index, called, inLoopVariables⟩ := r
  dsimp only at named shape uncalled
  subst uncalled
  cases cells with
  | nil => rfl
  | cons call arguments =>
    have called : OnlyArguments ⟨shape', index + 1, true, inLoopVariables⟩ := by
      rcases shape with rfl | rfl <;> simp [OnlyArguments]
    have rest := called.given arguments
    rcases shape with rfl | rfl <;> simp [given, next, afterName, named, rest, fixtureCells]

/-- Whether a row declares an argument in every cell that is left. -/
def OnlyDeclares (r : Roles) : Prop :=
  r.index ≠ 0 ∧ ∃ fixture, r.shape = .bracket fixture true

theorem OnlyDeclares.next (h : r.OnlyDeclares) (cell : Text) :
    (r.next cell).1 = some .assignment ∧ (r.next cell).2.OnlyDeclares := by
  obtain ⟨shape, index, called, inLoopVariables⟩ := r
  obtain ⟨named, fixture, shape⟩ := h
  dsimp only at named shape
  subst shape
  simp [Roles.next, named, OnlyDeclares]

theorem OnlyDeclares.given (h : r.OnlyDeclares) (cells : List Text) :
    r.given cells = CellKind.assignment.all cells :=
  given_eq_map (fun _ h => h.next) h cells

/-- Up to the first cell that is no variable a call assigns, with that cell it calls. -/
theorem given_call (shape : r.shape = .call) (uncalled : r.called = false) (cells : List Text) :
    r.given cells =
      CellKind.assignment.all (cells.takeWhile VariableToken.isWholeCell) ++
        match cells.dropWhile VariableToken.isWholeCell with
        | [] => []
        | name :: values => (.keywordCall, name) :: CellKind.argument.all values := by
  induction cells generalizing r with
  | nil => rfl
  | cons cell cells ih =>
    obtain ⟨shape', index, called, inLoopVariables⟩ := r
    dsimp only at shape uncalled
    subst shape uncalled
    cases whole : VariableToken.isWholeCell cell with
    | true =>
      have rest := ih (r := ⟨.call, index + 1, false, inLoopVariables⟩) rfl rfl
      simp [given, next, ofCall, whole, rest, CellKind.all]
    | false =>
      have called : OnlyArguments ⟨.call, index + 1, true, inLoopVariables⟩ := rfl
      have rest := called.given cells
      simp [given, next, ofCall, whole, rest, CellKind.all]

theorem rowCells_call (shape : r.shape = .call) (uncalled : r.called = false)
    (cells : List Text) : RowCells .callRow (r.given cells) := by
  have whole : ∀ c ∈ cells.takeWhile VariableToken.isWholeCell,
      VariableToken.isWholeCell c = true :=
    List.all_eq_true.1 List.all_takeWhile
  rw [given_call shape uncalled]
  have stops := List.head?_dropWhile_not VariableToken.isWholeCell cells
  cases rest : cells.dropWhile VariableToken.isWholeCell with
  | nil =>
    rw [List.append_nil]
    exact .assignments whole
  | cons name values =>
    rw [rest] at stops
    exact .call whole (by simpa using stops) values

/-- Whether a control structure has its marker and the variables of its loop, if it is one. -/
def PastVariables (r : Roles) : Prop :=
  r.shape = .control ∧ r.index ≠ 0 ∧ r.inLoopVariables = false

/-- From there on every cell has its role by itself. -/
theorem PastVariables.next (h : r.PastVariables) (cell : Text) :
    (r.next cell).1 = some (.inControl cell) ∧ (r.next cell).2.PastVariables := by
  obtain ⟨shape, index, called, inLoopVariables⟩ := r
  obtain ⟨shape, named, outside⟩ := h
  dsimp only at shape named outside
  subst shape outside
  cases within : Reserved.isLoopInMarker cell <;>
    cases marker : Reserved.isControlMarker cell <;>
    simp [Roles.next, ofControl, CellKind.inControl, named, within, marker, PastVariables]

theorem PastVariables.given (h : r.PastVariables) (cells : List Text) :
    r.given cells = cells.map fun c => (.inControl c, c) :=
  given_eq_map (fun _ h => h.next) h cells

theorem given_loop (shape : r.shape = .control) (named : r.index ≠ 0)
    (inside : r.inLoopVariables = true) (cells : List Text) : r.given cells =
      CellKind.assignment.all (cells.takeWhile fun c => !Reserved.isLoopInMarker c) ++
        (cells.dropWhile fun c => !Reserved.isLoopInMarker c).map fun c => (.inControl c, c) := by
  induction cells generalizing r with
  | nil => rfl
  | cons cell cells ih =>
    obtain ⟨shape', index, called, inLoopVariables⟩ := r
    dsimp only at shape named inside
    subst shape inside
    cases within : Reserved.isLoopInMarker cell with
    | true =>
      have past : PastVariables ⟨.control, index + 1, called, false⟩ :=
        ⟨rfl, Nat.succ_ne_zero _, rfl⟩
      have rest := past.given cells
      simp [given, next, ofControl, named, within, rest, CellKind.all, CellKind.inControl]
    | false =>
      have rest := ih (r := ⟨.control, index + 1, called, true⟩) rfl (Nat.succ_ne_zero _) rfl
      simp [given, next, ofControl, named, within, rest, CellKind.all]

theorem rowCells_control {marker : Text} (h : Reserved.isControlMarker marker = true)
    (cells : List Text) : RowCells .controlRow ((start .control).given (marker :: cells)) := by
  have first : (start .control).given (marker :: cells) = (.controlMarker, marker) ::
      given ⟨.control, 1, false, Reserved.isLoopMarker marker⟩ cells := rfl
  rw [first]
  cases loop : Reserved.isLoopMarker marker with
  | false =>
    have past : PastVariables ⟨.control, 1, false, false⟩ := ⟨rfl, Nat.succ_ne_zero 0, rfl⟩
    rw [past.given]
    exact .control h loop cells
  | true =>
    rw [given_loop rfl (Nat.succ_ne_zero 0) rfl]
    refine .loop loop ?_ ?_
    · intro c hc
      have before := List.all_eq_true.1 List.all_takeWhile c hc
      simpa using before
    · have stops := List.head?_dropWhile_not (fun c => !Reserved.isLoopInMarker c) cells
      intro c hc
      rw [Option.mem_def.1 hc] at stops
      simpa using stops

end Roles

/-- A row that begins with its name. -/
theorem Roles.given_start (shape : RowShape) (name : Text) (values : List Text) {kind : CellKind}
    (first : (start shape).next name = (some kind, ⟨shape, 1, false, false⟩)) :
    (start shape).given (name :: values) =
      (kind, name) :: given ⟨shape, 1, false, false⟩ values := by
  rw [given, first]
  rfl

namespace RowForm

/-- The cells of a row of a settings section. -/
theorem rowCells_ofSetting (r : Row) (values : List Text) :
    RowCells (ofSetting r).kind ((Roles.start (ofSetting r).shape).given (r.name :: values)) := by
  rw [ofSetting]
  split
  · rw [plain, Roles.given_of_other rfl]
    exact .other
  split
  · rename_i importing
    have left : Roles.OnlyArguments ⟨.importing, 1, false, false⟩ := Nat.succ_ne_zero 0
    rw [Roles.given_start .importing _ values rfl, left.given]
    exact .importing importing values
  · rename_i noImport
    have noImport := Bool.eq_false_iff.2 noImport
    cases fixture : Reserved.isFixtureSetting r.name with
    | false =>
      have left : Roles.OnlyArguments ⟨.setting false, 1, false, false⟩ :=
        ⟨Nat.succ_ne_zero 0, nofun⟩
      rw [Roles.given_start (.setting false) _ values rfl, left.given]
      exact .setting noImport fixture values
    | true =>
      have rest := Roles.given_fixture (r := ⟨.setting true, 1, false, false⟩) (Nat.succ_ne_zero 0)
        (.inl rfl) rfl values
      rw [Roles.given_start (.setting true) _ values rfl, rest]
      exact .fixtureSetting noImport fixture values

/-- The cells of a row of a variables section. -/
theorem rowCells_ofVariable (r : Row) (values : List Text) :
    RowCells (ofVariable r).kind ((Roles.start (ofVariable r).shape).given (r.name :: values)) := by
  rw [ofVariable]
  split
  · rw [plain, Roles.given_of_other rfl]
    exact .other
  · have left : Roles.OnlyArguments ⟨.variableRow, 1, false, false⟩ := Nat.succ_ne_zero 0
    rw [Roles.given_start .variableRow _ values rfl, left.given]
    exact .variableRow r.name values

theorem rowCells_bracket {name : Text} (bracketed : Reserved.isBracketed name = true)
    (values : List Text) :
    RowCells .bracketRow ((Roles.start (.bracket (Reserved.isFixtureBracketSetting name)
      (Reserved.isArgumentsBracketSetting name))).given (name :: values)) := by
  cases arguments : Reserved.isArgumentsBracketSetting name with
  | true =>
    generalize Reserved.isFixtureBracketSetting name = fixture
    have left : Roles.OnlyDeclares ⟨.bracket fixture true, 1, false, false⟩ :=
      ⟨Nat.succ_ne_zero 0, fixture, rfl⟩
    rw [Roles.given_start (.bracket fixture true) _ values rfl, left.given]
    exact .arguments bracketed arguments values
  | false =>
    cases fixture : Reserved.isFixtureBracketSetting name with
    | false =>
      have left : Roles.OnlyArguments ⟨.bracket false false, 1, false, false⟩ :=
        ⟨Nat.succ_ne_zero 0, nofun⟩
      rw [Roles.given_start (.bracket false false) _ values rfl, left.given]
      exact .bracket bracketed arguments fixture values
    | true =>
      have rest := Roles.given_fixture (r := ⟨.bracket true false, 1, false, false⟩)
        (Nat.succ_ne_zero 0) (.inr rfl) rfl values
      rw [Roles.given_start (.bracket true false) _ values rfl, rest]
      exact .fixtureBracket bracketed arguments fixture values

/-- The cells of a row of a body. -/
theorem rowCells_shapeInBody (first : Text) (values : List Text) :
    RowCells (shapeInBody first).1
      ((Roles.start (shapeInBody first).2).given (first :: values)) := by
  rw [shapeInBody]
  split
  · rw [Roles.given_of_other rfl]
    exact .other
  split
  · rename_i bracketed
    exact rowCells_bracket bracketed values
  split
  · rename_i marker
    exact Roles.rowCells_control marker values
  · exact Roles.rowCells_call rfl rfl _

/-- Every row that is read in some way has the cells that its kind allows. -/
theorem InUse.rowCells {form : Row → RowForm} (used : InUse form) {r : Row}
    (filled : r.head.isBlank = false) :
    RowCells (form r).kind (Tree.cellTexts (r.trees (form r).shape)) := by
  obtain ⟨values, cells⟩ := Row.cells_eq_cons filled
  rw [Row.cellTexts_trees, cells]
  cases used with
  | ofSetting => exact rowCells_ofSetting r values
  | ofVariable => exact rowCells_ofVariable r values
  | ofBody => exact rowCells_shapeInBody r.name values
  | plain =>
    rw [Roles.given_of_other rfl]
    exact .other

end RowForm

end RobotAnalysis
