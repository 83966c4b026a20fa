import RobotAnalysis.Proofs.Lossless
import RobotAnalysis.Proofs.PlacedNodes
import RobotAnalysis.Proofs.ShiftedParse
import RobotAnalysis.Proofs.ShiftedReading

/-!
# Sections are read one by one

A heading ends whatever stands before it: no row, definition or section reaches over it. So a text
that begins with a heading is parsed and read behind complete lines as it is alone, only later in
the document.
-/
namespace RobotAnalysis

namespace Node

mutual

theorem nodesIn_add {n : Nat} (start : Nat) : ∀ t : Tree,
    Tree.nodesIn (n + start) t = (Tree.nodesIn start t).map (shift n)
  | .leaf _ => rfl
  | .node _ children => congrArg _ (nodesInAll_add start children)

theorem nodesInAll_add {n : Nat} (start : Nat) : ∀ ts : List Tree,
    Tree.nodesInAll (n + start) ts = (Tree.nodesInAll start ts).map (shift n)
  | [] => rfl
  | t :: ts => by
    rw [Tree.nodesInAll, Tree.nodesInAll, nodesIn_add start t, Nat.add_assoc,
      nodesInAll_add _ ts, List.map_append]

end

theorem below_shift (n : Nat) (m : Node) : (m.shift n).below = m.below.map (shift n) :=
  nodesInAll_add m.start m.children

end Node

/-- Whether a text begins with the line of a heading. -/
def Text.BeginsSection (t : Text) : Prop :=
  (linesOf (tokenize t)).head?.any Line.isHeading = true

section

variable {a b : Text} (ends : a.EndsLine) (begins : b.BeginsSection)

include ends begins

/-- The lines of both texts, grouped by their headings. -/
theorem groupAt_linesOf_append :
    Sequence.groupAt Line.isHeading (linesOf (tokenize (a ++ b))) =
      (SectionLines.linesBefore a,
        (Sequence.groupAt Line.isHeading (linesOf (tokenize a))).2 ++
          (Sequence.groupAt Line.isHeading (linesOf (tokenize b))).2.map fun g =>
            (g.1.shift a.byteSize, g.2.map (Line.shift a.byteSize))) := by
  have first : ∀ l ∈ ((linesOf (tokenize b)).map (Line.shift a.byteSize)).head?,
      l.isHeading = true := by
    intro l hl
    obtain ⟨l', hl', rfl⟩ := Option.map_eq_some_iff.1 (List.head?_map ▸ hl)
    rw [Line.isHeading_shift]
    simpa [Text.BeginsSection, hl'] using begins
  rw [linesOf_tokenize_append ends, Sequence.groupAt_append first,
    Sequence.groupAt_map (f := Line.shift a.byteSize) (q := Line.isHeading)
      fun l => l.isHeading_shift a.byteSize]
  rfl

theorem linesBefore_append : SectionLines.linesBefore (a ++ b) = SectionLines.linesBefore a := by
  rw [SectionLines.linesBefore, groupAt_linesOf_append ends begins]

theorem ofText_append :
    SectionLines.ofText (a ++ b) =
      SectionLines.ofText a ++ (SectionLines.ofText b).map (SectionLines.shift a.byteSize) := by
  rw [SectionLines.ofText, groupAt_linesOf_append ends begins, List.map_append, List.map_map,
    SectionLines.ofText, SectionLines.ofText, List.map_map]
  rfl

end

/-- Nothing stands before the first heading of a text that begins with it. -/
theorem linesBefore_of_beginsSection {b : Text} (begins : b.BeginsSection) :
    SectionLines.linesBefore b = [] := by
  rw [SectionLines.linesBefore]
  rw [Text.BeginsSection] at begins
  cases lines : linesOf (tokenize b) with
  | nil => rfl
  | cons l ls =>
    rw [lines] at begins
    rw [Sequence.groupAt_cons_of_pos (by simpa using begins)]

/-- What a document has that is made of two texts: the trees of both, each with everything inside it
at its place, the errors of both and the sections of both, where what comes from the second text
begins later by the size of the first one. -/
structure IsReadInParts (file : FileId) (a b : Text) : Prop where
  tree : (parse (a ++ b)).value =
    .node .document ((parse a).value.root.children ++ (parse b).value.root.children)
  nodes : (parse (a ++ b)).value.root.nodes =
    (parse a).value.root.nodes ++ (parse b).value.root.nodes.map (Node.shift a.byteSize)
  below : (parse (a ++ b)).value.root.below =
    (parse a).value.root.below ++ (parse b).value.root.below.map (Node.shift a.byteSize)
  errors : (parse (a ++ b)).errors =
    (parse a).errors ++ (parse b).errors.map (SyntaxError.shift a.byteSize)
  sections : SectionModel.ofTree file (parse (a ++ b)).value =
    SectionModel.ofTree file (parse a).value ++
      (SectionModel.ofTree file (parse b).value).map (SectionModel.shift a.byteSize)

theorem errors_parse (text : Text) :
    (parse text).errors =
      (Parsed.sequence ((SectionLines.ofText text).map SectionLines.parse)).errors := by
  rw [SectionLines.ofText, List.map_map]
  rfl

/-- The trees of a document: that of the lines before its sections, and those of its sections. -/
def documentTrees (text : Text) : List Tree :=
  preambleTrees (SectionLines.linesBefore text) ++
    (SectionLines.ofText text).map fun s => s.parse.value

theorem sizeOf_documentTrees (text : Text) :
    Token.sizeOf (Tree.leavesOf (documentTrees text)) = text.byteSize := by
  have leaves := leaves_parse text
  rw [value_parse, Tree.leaves] at leaves
  rw [documentTrees, leaves, Token.sizeOf, textOf_tokenize]

theorem documentTrees_append {a b : Text} (ends : a.EndsLine) (begins : b.BeginsSection) :
    documentTrees (a ++ b) = documentTrees a ++ documentTrees b := by
  have shifted : ((SectionLines.ofText b).map (SectionLines.shift a.byteSize)).map
      (fun s => s.parse.value) = (SectionLines.ofText b).map fun s => s.parse.value := by
    simp only [List.map_map, Function.comp_def, SectionLines.parse_shift, Parsed.value_shift]
  have nothing : preambleTrees [] = [] := rfl
  rw [documentTrees, linesBefore_append ends begins, ofText_append ends begins, List.map_append,
    shifted, documentTrees, documentTrees, linesBefore_of_beginsSection begins, nothing,
    List.append_assoc, List.nil_append]

/-- The nodes of a document that is made of the trees of two. -/
theorem Tree.nodes_root_append (ts us : List Tree) :
    (root (.node .document (ts ++ us))).nodes =
      (root (.node .document ts)).nodes ++
        (root (.node .document us)).nodes.map (Node.shift (Token.sizeOf (leavesOf ts))) := by
  change nodesFrom 0 (ts ++ us) = nodesFrom 0 ts ++ (nodesFrom 0 us).map _
  rw [nodesFrom_append, Nat.add_comm, nodesFrom_add]

theorem Tree.below_root_append (ts us : List Tree) :
    (root (.node .document (ts ++ us))).below =
      (root (.node .document ts)).below ++
        (root (.node .document us)).below.map (Node.shift (Token.sizeOf (leavesOf ts))) := by
  simp only [Node.below_eq (root _), nodes_root_append, List.flatMap_append, List.flatMap_map,
    List.map_flatMap, Node.below_shift, List.map_cons]

/-- A text that begins with a heading is parsed and read behind complete lines as it is alone. -/
theorem parse_append {a b : Text} (ends : a = [] ∨ a.getLast? = some '\n')
    (begins : (linesOf (tokenize b)).head?.any Line.isHeading = true) (file : FileId) :
    IsReadInParts file a b := by
  have whole : (parse (a ++ b)).value = .node .document (documentTrees a ++ documentTrees b) := by
    rw [← documentTrees_append ends begins]
    exact value_parse (a ++ b)
  have first : (parse a).value = .node .document (documentTrees a) := value_parse a
  have second : (parse b).value = .node .document (documentTrees b) := value_parse b
  refine ⟨?_, ?_, ?_, ?_, ?_⟩
  · rw [whole, first, second]
    rfl
  · rw [whole, first, second, ← sizeOf_documentTrees a, Tree.nodes_root_append]
  · rw [whole, first, second, ← sizeOf_documentTrees a, Tree.below_root_append]
  · rw [errors_parse, ofText_append ends begins, List.map_append, Parsed.sequence_append,
      Parsed.sequence_shift SectionLines.parse_shift, errors_parse, errors_parse]
    rfl
  · rw [whole, first, second, ← sizeOf_documentTrees a, SectionModel.ofTree_append]

/-- A section of keywords behind a section of settings with an error. -/
theorem parse_append_keywords :
    let a : Text := "*** Settings ***\nResource\n".toList
    let b : Text := "*** Keywords ***\nOpen\n    Log    ${SITE}\n".toList
    (a = [] ∨ a.getLast? = some '\n') ∧
      (linesOf (tokenize b)).head?.any Line.isHeading = true ∧ IsReadInParts ⟨0⟩ a b := by
  intro a b
  have ends : a = [] ∨ a.getLast? = some '\n' := .inr (by decide)
  have begins : (linesOf (tokenize b)).head?.any Line.isHeading = true := by decide +kernel
  exact ⟨ends, begins, parse_append ends begins ⟨0⟩⟩

end RobotAnalysis
