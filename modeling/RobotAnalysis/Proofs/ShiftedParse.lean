import RobotAnalysis.Parse
import RobotAnalysis.Proofs.LineSeam

/-!
# Parsing lines elsewhere

Trees have no positions, and how lines are grouped into rows, definitions and sections follows from
what they hold. So lines that begin `n` bytes later are parsed to the same trees, and all that moves
is the places of the errors.
-/
namespace RobotAnalysis

variable {n : Nat}

namespace Line

variable (n) (l : Line)

@[simp] theorem isBlank_shift : (l.shift n).isBlank = l.isBlank := rfl

@[simp] theorem isContinuation_shift : (l.shift n).isContinuation = l.isContinuation := rfl

@[simp] theorem isHeading_shift : (l.shift n).isHeading = l.isHeading := rfl

theorem flatMap_bare_shift (ls : List Line) : (ls.map (shift n)).flatMap bare = ls.flatMap bare :=
  List.flatMap_map (shift n) bare ls

end Line

/-- The same error in a document with `n` more bytes in front. -/
def SyntaxError.shift (n : Nat) (e : SyntaxError) : SyntaxError := { e with span := e.span.shift n }

namespace Parsed

variable {α : Type}

/-- The same trees with the errors at their places behind `n` more bytes. -/
def shift (n : Nat) (p : Parsed α) : Parsed α :=
  { p with errors := p.errors.map (SyntaxError.shift n) }

@[simp] theorem value_shift (p : Parsed α) : (p.shift n).value = p.value := rfl

theorem sequence_map_shift (ps : List (Parsed α)) :
    sequence (ps.map (shift n)) = (sequence ps).shift n := by
  induction ps with
  | nil => rfl
  | cons p ps ih => simp [sequence, ih, shift]

theorem sequence_append (ps qs : List (Parsed α)) :
    sequence (ps ++ qs) =
      ⟨(sequence ps).value ++ (sequence qs).value,
        (sequence ps).errors ++ (sequence qs).errors⟩ := by
  induction ps with
  | nil => rfl
  | cons p ps ih => simp [sequence, ih]

/-- What is parsed one after the other moves if every part of it does. -/
theorem sequence_shift {β : Type} {f : β → Parsed α} {g : β → β}
    (h : ∀ b, f (g b) = (f b).shift n) (bs : List β) :
    sequence ((bs.map g).map f) = (sequence (bs.map f)).shift n := by
  rw [← sequence_map_shift, List.map_map, List.map_map]
  exact congrArg sequence (List.map_congr_left fun b _ => h b)

end Parsed

namespace Roles

theorem assignContinuations_shift (r : Roles) (ls : List Line) :
    r.assignContinuations (ls.map (Line.shift n)) = r.assignContinuations ls := by
  induction ls generalizing r with
  | nil => rfl
  | cons l ls ih =>
    rw [List.map_cons, assignContinuations, assignContinuations]
    exact congrArg _ (ih _)

end Roles

namespace Row

def shift (n : Nat) (r : Row) : Row := ⟨r.head.shift n, r.continuations.map (Line.shift n)⟩

variable (r : Row)

theorem trees_shift (shape : RowShape) : (r.shift n).trees shape = r.trees shape :=
  congrArg (_ ++ ·) (Roles.assignContinuations_shift _ _)

@[simp] theorem name_shift : (r.shift n).name = r.name := rfl

@[simp] theorem cellCount_shift : (r.shift n).cellCount = r.cellCount :=
  List.foldl_map

end Row

namespace RowForm

/-- Whether the form of a row does not depend on where the row stands. -/
def IsPlaceless (form : Row → RowForm) : Prop := ∀ n r, form (Row.shift n r) = form r

theorem isPlaceless_plain : IsPlaceless fun _ => plain [] := fun _ _ => rfl

theorem isPlaceless_ofSetting : IsPlaceless ofSetting := by
  intro n r
  simp only [ofSetting, Row.name_shift, Row.cellCount_shift]
  rfl

theorem isPlaceless_ofVariable : IsPlaceless ofVariable := fun _ _ => rfl

theorem isPlaceless_ofBody : IsPlaceless ofBody := fun _ _ => rfl

theorem parse_shift {form : Row → RowForm} (h : IsPlaceless form) (r : Row) :
    parse form (r.shift n) = (parse form r).shift n := by
  simp only [parse, h n r, r.trees_shift, Parsed.shift, List.map_map]
  rfl

end RowForm

namespace Item

def shift (n : Nat) : Item → Item
  | .blank l => .blank (l.shift n)
  | .row r => .row (r.shift n)

theorem ofLines_shift (ls : List Line) :
    ofLines (ls.map (Line.shift n)) = (ofLines ls).map (shift n) := by
  induction ls with
  | nil => rfl
  | cons l ls ih =>
    rw [List.map_cons, ofLines, ofLines, ih, Line.isBlank_shift]
    split
    · rfl
    · cases ofLines ls with
      | nil => rfl
      | cons item items =>
        cases item with
        | blank l' => rfl
        | row r =>
          cases continues : r.head.isContinuation with
          | true => simp [shift, Row.shift, continues]
          | false => simp [shift, Row.shift, continues]

theorem parse_shift {form : Row → RowForm} (h : RowForm.IsPlaceless form) (item : Item) :
    parse form (item.shift n) = (parse form item).shift n := by
  cases item with
  | blank l => rfl
  | row r =>
    rw [shift, parse, RowForm.parse_shift h]
    rfl

theorem parseAll_shift {form : Row → RowForm} (h : RowForm.IsPlaceless form) (ls : List Line) :
    parseAll form (ofLines (ls.map (Line.shift n))) = (parseAll form (ofLines ls)).shift n := by
  rw [ofLines_shift, parseAll, Parsed.sequence_shift (parse_shift h)]
  rfl

end Item

namespace Definition

def shift (n : Nat) (d : Definition) : Definition :=
  ⟨d.first.shift n, d.body.map (Line.shift n)⟩

theorem ofLines_shift (ls : List Line) :
    ofLines (ls.map (Line.shift n)) =
      ((ofLines ls).1.map (Line.shift n), (ofLines ls).2.map (shift n)) := by
  have sameBlank : Line.isBlank ∘ Line.shift n = Line.isBlank := rfl
  rw [ofLines, ofLines, List.dropWhile_map, List.takeWhile_map, sameBlank]
  cases ls.dropWhile Line.isBlank with
  | nil => rfl
  | cons first rest =>
    have groups := Sequence.groupAt_map (f := Line.shift n) (p := begins) (q := begins)
      (fun _ => rfl) rest
    simp only [List.map_cons, groups, List.map_map]
    rfl

theorem parse_shift (kind : NodeKind) (d : Definition) :
    parse kind (d.shift n) = (parse kind d).shift n := by
  cases indented : d.first.isIndented with
  | true =>
    have indented' : (d.shift n).first.isIndented = true := indented
    have whole : (d.shift n).first :: (d.shift n).body = (d.first :: d.body).map (Line.shift n) :=
      rfl
    rw [parse, if_pos indented', parse, if_pos indented, whole,
      Item.parseAll_shift RowForm.isPlaceless_ofBody]
    rfl
  | false =>
    have indented' : (d.shift n).first.isIndented = false := indented
    have body : (d.shift n).body = d.body.map (Line.shift n) := rfl
    rw [parse, if_neg (by simp [indented']), parse, if_neg (by simp [indented]), body,
      Item.parseAll_shift RowForm.isPlaceless_ofBody]
    rfl

theorem parseAll_shift (kind : NodeKind) (ls : List Line) :
    parseAll kind (ls.map (Line.shift n)) = (parseAll kind ls).shift n := by
  rw [parseAll, ofLines_shift]
  simp only [Parsed.sequence_shift (parse_shift kind), Line.flatMap_bare_shift]
  rfl

end Definition

namespace SectionLines

def shift (n : Nat) (s : SectionLines) : SectionLines :=
  ⟨s.heading.shift n, s.body.map (Line.shift n)⟩

variable (s : SectionLines)

theorem parseBody_shift : (s.shift n).parseBody = s.parseBody.shift n := by
  have sameKind : (s.shift n).kind = s.kind := rfl
  have body : (s.shift n).body = s.body.map (Line.shift n) := rfl
  rw [parseBody, parseBody, sameKind, body]
  cases s.kind with
  | settings => exact Item.parseAll_shift RowForm.isPlaceless_ofSetting _
  | variableTable => exact Item.parseAll_shift RowForm.isPlaceless_ofVariable _
  | testCases | tasks => exact Definition.parseAll_shift .testCase _
  | keywords => exact Definition.parseAll_shift .userKeyword _
  | comments | unknown => exact Item.parseAll_shift RowForm.isPlaceless_plain _

theorem parse_shift : (s.shift n).parse = s.parse.shift n := by
  have sameKind : (s.shift n).kind = s.kind := rfl
  rw [parse, parse, parseBody_shift, sameKind]
  generalize s.parseBody = body
  by_cases unknown : s.kind = .unknown
  · rw [if_pos unknown, if_pos unknown]
    rfl
  · rw [if_neg unknown, if_neg unknown]
    rfl

end SectionLines

end RobotAnalysis
