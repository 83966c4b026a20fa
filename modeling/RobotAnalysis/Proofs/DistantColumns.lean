import RobotAnalysis.Proofs.CacheTransparency
import RobotAnalysis.Proofs.LinePositions

/-!
# Columns far behind a line

An editor may ask at any column, and a column behind the text counts as its end. The start of the
line and the column are added as words before the sum is compared with the size of the text, so a
place is refused where the column is so large that the sum is no word, and so is every query at this
place. A place inside of a text with a 32-bit size is never refused.
-/
namespace RobotAnalysis

variable {t line : Text} {start : Nat} {p : Position}

namespace LineIndex

theorem offset?_eq_some_none_iff_isLine :
    (ofText t).offset? p = some none ↔ ∀ start line, ¬ t.IsLine p.line.toNat start line := by
  rw [offset?_eq_some_none_iff, ← Nat.not_lt, lt_lineCount_iff]
  push Not
  rfl

theorem offset?_eq_none_iff_of_isLine (h : t.IsLine p.line.toNat start line) :
    (ofText t).offset? p = none ↔ UInt32.size ≤ start + p.column.toNat := by
  rw [offset?_of_isLine h, Option.map_eq_none_iff, Checked.add_eq_none_iff]

/-- On a line the smaller of the sum and the size of the text is the only possible answer. -/
theorem offset?_eq_min_iff (h : t.IsLine p.line.toNat start line) :
    (ofText t).offset? p = some (some (min (start + p.column.toNat) t.byteSize)) ↔
      start + p.column.toNat < UInt32.size := by
  constructor
  · intro exact
    by_contra wide
    have refused := (offset?_eq_none_iff_of_isLine h).2 (Nat.le_of_not_lt wide)
    exact Option.some_ne_none _ (exact.symm.trans refused)
  · intro word
    rw [offset?_of_isLine h, Checked.add_eq word, Option.map_some]

end LineIndex

/-- A query is asked at the offset of its place, and without one it is not asked. -/
theorem Workspace.askAt_of_holds {β : Type} {ws : Workspace} {file : FileId} {d : Document}
    (found : ws.document? file = some d) (holds : d.source.Holds t) (nothing : β)
    (query : Document → Nat → β) : ws.askAt file p nothing query =
      ((LineIndex.ofText t).offset? p).map fun offset? => offset?.elim nothing (query d) := by
  obtain ⟨version, same⟩ := holds
  have lines : d.source.lines = .ofText t := by rw [same]; rfl
  simp only [askAt, found, lines]
  rcases (LineIndex.ofText t).offset? p with _ | _ | offset <;> rfl

namespace LineIndex

/-- A place has no offset exactly where it has no line. On a line its offset is the smaller of line
start plus column and the size of the text exactly where the sum is a word, and otherwise the place
is refused, which no place inside of the text is. Every query about a document is asked at this
offset, and refused with its place. -/
theorem offset?_exact_iff (short : t.byteSize < UInt32.size) (p : Position) :
    ((ofText t).offset? p = some none ↔ ∀ start line, ¬ t.IsLine p.line.toNat start line) ∧
    (∀ start line, t.IsLine p.line.toNat start line →
      ((ofText t).offset? p = some (some (min (start + p.column.toNat) t.byteSize)) ↔
        start + p.column.toNat < UInt32.size) ∧
      ((ofText t).offset? p = none ↔ UInt32.size ≤ start + p.column.toNat) ∧
      (start + p.column.toNat ≤ t.byteSize →
        (ofText t).offset? p = some (some (start + p.column.toNat)))) ∧
    (∀ (ws : Workspace) (file : FileId) (d : Document), ws.document? file = some d →
      d.source.Holds t → ∀ (β : Type) (nothing : β) (query : Document → Nat → β),
        ws.askAt file p nothing query =
          ((ofText t).offset? p).map fun offset? => offset?.elim nothing (query d)) :=
  ⟨offset?_eq_some_none_iff_isLine,
    fun _ _ h => ⟨offset?_eq_min_iff h, offset?_eq_none_iff_of_isLine h,
      offset?_of_isLine_of_le short h⟩,
    fun _ _ _ found holds _ nothing query => Workspace.askAt_of_holds found holds nothing query⟩

/-- On the second line the largest column is refused, and so is a query there; one that still adds up
to a word leads to the end of the text. -/
theorem offset?_exact_iff_largest :
    let t : Text := "a\nb".toList
    let d : Document := .ofSource ⟨0⟩ (.ofText t)
    let ws : Workspace := ⟨[(⟨"/a.robot".toList⟩, ⟨0⟩)], [d], 1, .empty, {}⟩
    t.byteSize < UInt32.size ∧ t.IsLine 1 2 ['b'] ∧
      (ofText t).offset? ⟨1, 4294967293⟩ = some (some 3) ∧
      (ofText t).offset? ⟨1, 4294967295⟩ = none ∧
      ws.askAt ⟨0⟩ ⟨1, 4294967295⟩ none (fun d offset => d.runMarkerAt? offset) = none := by
  intro t d ws
  have short : t.byteSize < UInt32.size := by decide
  have isLine : t.IsLine 1 2 ['b'] :=
    ⟨['a', '\n'], [], rfl, rfl, rfl, by decide, .inr ⟨['a'], rfl⟩, .inl rfl⟩
  obtain ⟨exact, -, -⟩ := (offset?_exact_iff short ⟨1, 4294967293⟩).2.1 2 ['b'] isLine
  obtain ⟨-, onLine, asked⟩ := offset?_exact_iff short ⟨1, 4294967295⟩
  have refused := (onLine 2 ['b'] isLine).2.1.2 (by decide)
  refine ⟨short, isLine, exact.2 (by decide), refused, ?_⟩
  rw [asked ws ⟨0⟩ d rfl ⟨0, rfl⟩, refused, Option.map_none]

end LineIndex

end RobotAnalysis
