import RobotAnalysis.Proofs.NodeExtents
import RobotAnalysis.Proofs.Lossless

/-!
# What spans show

A span shows a piece of a text when the text falls into a part as long as its start, the piece, and
the rest. Then both ends lie between characters, and cutting at them gives the piece. A node of a
parsed tree shows its text in the document, a variable token shows its text in the cell, and what is
shown in a piece is shown in the whole text by the span moved to where the piece begins.
-/
namespace RobotAnalysis

namespace Text

/-- Whether an offset lies between two characters of a text, or at one of its ends. -/
def IsBoundary (t : Text) (offset : Nat) : Prop :=
  ∃ before after, t = before ++ after ∧ offset = byteSize before

/-- Whether a span of a text covers exactly the bytes of a piece. -/
def Shows (t : Text) (s : Span) (piece : Text) : Prop :=
  ∃ before after, t = before ++ (piece ++ after) ∧ s = ⟨byteSize before, byteSize piece⟩

variable {t piece inner : Text} {s r : Span}

namespace Shows

theorem slice_eq (h : t.Shows s piece) : t.slice s = piece := by
  obtain ⟨before, after, rfl, rfl⟩ := h
  exact slice_append before piece after

theorem start (h : t.Shows s piece) : t.IsBoundary s.start := by
  obtain ⟨before, after, rfl, rfl⟩ := h
  exact ⟨before, piece ++ after, rfl, rfl⟩

theorem stop (h : t.Shows s piece) : t.IsBoundary s.stop := by
  obtain ⟨before, after, rfl, rfl⟩ := h
  exact ⟨before ++ piece, after, by simp, by simp [Span.stop]⟩

theorem size_eq (h : t.Shows s piece) : s.size = byteSize piece := by
  obtain ⟨before, after, -, rfl⟩ := h
  rfl

theorem stop_le (h : t.Shows s piece) : s.stop ≤ byteSize t := by
  obtain ⟨before, after, rfl, rfl⟩ := h
  simp only [Span.stop, byteSize_append]
  omega

/-- What a piece shows is shown by the text around it. -/
theorem trans (h : t.Shows s piece) (inside : piece.Shows r inner) :
    t.Shows (r.shift s.start) inner := by
  obtain ⟨before, after, rfl, rfl⟩ := h
  obtain ⟨front, back, rfl, rfl⟩ := inside
  exact ⟨before ++ front, back ++ after, by simp, by simp [Span.shift]⟩

end Shows

end Text

/-- Whether a span covers all bytes of another one. -/
def Span.Covers (outer inner : Span) : Prop :=
  outer.start ≤ inner.start ∧ inner.stop ≤ outer.stop

theorem Span.Covers.trans {a b c : Span} (h : a.Covers b) (k : b.Covers c) : a.Covers c :=
  ⟨Nat.le_trans h.1 k.1, Nat.le_trans k.2 h.2⟩

/-- What a piece shows stays inside the piece. -/
theorem Text.Shows.covers {t piece inner : Text} {s r : Span} (h : t.Shows s piece)
    (inside : piece.Shows r inner) : s.Covers (r.shift s.start) := by
  refine ⟨Nat.le_add_right _ _, ?_⟩
  have fits : r.stop ≤ s.size := h.size_eq ▸ inside.stop_le
  rw [Span.stop_shift]
  exact Nat.add_le_add_left fits _

namespace VariableToken

theorem getLast?_of_closing? {depth : Nat} {t body rest : Text}
    (h : closing? depth t = some (body, rest)) : body.getLast? = some '}' := by
  induction t generalizing depth body with
  | nil => cases h
  | cons c t ih =>
    have later {d : Nat}
        (h : ((closing? d t).map fun found => (c :: found.1, found.2)) = some (body, rest)) :
        body.getLast? = some '}' := by
      obtain ⟨⟨b, r⟩, found, same⟩ := Option.map_eq_some_iff.1 h
      cases same
      rw [List.getLast?_cons, ih found]
      rfl
    unfold closing? at h
    split at h
    · exact later h
    · split at h
      · rename_i brace
        cases depth with
        | zero =>
          cases h
          rw [brace]
          rfl
        | succ d => exact later h
      · exact later h

/-- What a variable token looks like: a sigil and a text in braces. -/
def IsToken (t : Text) : Prop := ∃ c name, isSigil c = true ∧ t = c :: '{' :: (name ++ ['}'])

theorem isToken_of_atStart? {t token rest : Text} (h : atStart? t = some (token, rest)) :
    IsToken token := by
  unfold atStart? at h
  split at h
  · split at h
    · rename_i c t sigil
      obtain ⟨⟨body, r⟩, found, same⟩ := Option.map_eq_some_iff.1 h
      cases same
      obtain ⟨name, rfl⟩ := List.getLast?_eq_some_iff.1 (getLast?_of_closing? found)
      exact ⟨c, name, sigil, rfl⟩
    · cases h
  · cases h

theorem isToken_of_mem_piecesAfter {escaped : Bool} {t token : Text}
    (h : .token token ∈ piecesAfter escaped t) : IsToken token := by
  fun_induction piecesAfter escaped t with
  | case1 => cases h
  | case2 escaped c t found rest unescaped ih =>
    rcases List.mem_cons.1 h with same | h
    · cases same
      rw [unescaped?] at unescaped
      split at unescaped
      · cases unescaped
      · exact isToken_of_atStart? unescaped
    · exact ih h
  | case3 escaped c t _ ih =>
    rcases List.mem_cons.1 h with same | h
    · cases same
    · exact ih h

/-- A token that is located shows its text in that of all pieces. -/
theorem shows_of_mem_locate {offset : Nat} {ps : List Piece} {v : VariableToken}
    (h : v ∈ locate offset ps) :
    ∃ s, v.span = s.shift offset ∧ Text.Shows (ps.flatMap Piece.text) s v.text ∧
      .token v.text ∈ ps := by
  induction ps generalizing offset with
  | nil => cases h
  | cons p ps ih =>
    have later {size : Nat} (same : size = p.text.byteSize) (h : v ∈ locate (offset + size) ps) :
        ∃ s, v.span = s.shift offset ∧ Text.Shows ((p :: ps).flatMap Piece.text) s v.text ∧
          .token v.text ∈ p :: ps := by
      obtain ⟨s, place, ⟨before, after, text, rfl⟩, mem⟩ := ih h
      refine ⟨⟨p.text.byteSize + before.byteSize, v.text.byteSize⟩, ?_,
        ⟨p.text ++ before, after, ?_, ?_⟩, List.mem_cons_of_mem _ mem⟩
      · simp [place, same, Span.shift, Nat.add_assoc]
      · simp [text]
      · simp
    cases p with
    | char c => exact later (by simp [Piece.text]) h
    | token t =>
      rcases List.mem_cons.1 h with rfl | h
      · exact ⟨⟨0, t.byteSize⟩, rfl, ⟨[], ps.flatMap Piece.text, rfl, rfl⟩, List.mem_cons_self⟩
      · exact later rfl h

/-- A variable of a text shows its token. -/
theorem shows_of_mem_all {t : Text} {v : VariableToken} (h : v ∈ all t) :
    t.Shows v.span v.text := by
  obtain ⟨s, place, shown, -⟩ := shows_of_mem_locate h
  rw [pieces, flatMap_text_piecesAfter] at shown
  have same : v.span = s := by simp [place, Span.shift]
  exact same ▸ shown

theorem isToken_of_mem_all {t : Text} {v : VariableToken} (h : v ∈ all t) : IsToken v.text :=
  have ⟨_, _, _, mem⟩ := shows_of_mem_locate h
  isToken_of_mem_piecesAfter mem

theorem isBlank_of_isSigil {c : Char} (h : isSigil c = true) : CharClass.isBlank c = false := by
  simp only [isSigil, Bool.or_eq_true, beq_iff_eq] at h
  rcases h with ((rfl | rfl) | rfl) | rfl <;> decide

/-- Around a text that begins with a sigil nothing is trimmed that the mark of an assignment is not
taken off with. -/
theorem withoutAssignment_trim {c : Char} {t : Text} (h : isSigil c = true) :
    withoutAssignment (Text.trim (c :: t)) = withoutAssignment (c :: t) := by
  have start : Text.trimStart (c :: t) = c :: t := by
    rw [Text.trimStart, List.dropWhile_cons_of_neg (by simp [isBlank_of_isSigil h])]
  have once : Text.trimEnd (Text.trimEnd (c :: t)) = Text.trimEnd (c :: t) :=
    Sequence.dropTrailing_dropTrailing _ _
  rw [Text.trim, start, withoutAssignment, withoutAssignment, once]

theorem withoutAssignment_trim_of_isToken {t : Text} (h : IsToken t) :
    withoutAssignment t.trim = withoutAssignment t := by
  obtain ⟨c, name, sigil, rfl⟩ := h
  exact withoutAssignment_trim sigil

theorem withoutAssignment_isPrefix (cell : Text) : withoutAssignment cell <+: cell :=
  ((Sequence.dropTrailing_isPrefix _ _).trans (Sequence.dropTrailing_isPrefix _ _)).trans
    (Sequence.dropTrailing_isPrefix _ _)

theorem withoutAssignment_trim_of_isWholeCell {cell : Text} (h : isWholeCell cell = true) :
    withoutAssignment cell.trim = withoutAssignment cell := by
  rw [isWholeCell] at h
  split at h
  · rename_i token only
    have spelled := flatMap_text_piecesAfter false (withoutAssignment cell)
    rw [← pieces, only] at spelled
    have mem : .token token ∈ pieces (withoutAssignment cell) := only ▸ List.mem_cons_self
    obtain ⟨c, name, sigil, rfl⟩ := isToken_of_mem_piecesAfter mem
    obtain ⟨rest, whole⟩ := withoutAssignment_isPrefix cell
    rw [← whole, ← spelled]
    exact withoutAssignment_trim sigil
  · cases h

end VariableToken

namespace Node

variable {text : Text} {n m row : Node} {c : Cell}

/-- A node of a parsed tree shows its text. -/
theorem shows_of_mem_allNodes (h : n ∈ (parse text).value.allNodes) : text.Shows n.span n.text := by
  obtain ⟨before, behind, leaves, place⟩ := Tree.exists_split_of_mem_nodesIn 0 _ n h
  rw [leaves_parse] at leaves
  have spelled := textOf_tokenize text
  rw [leaves] at spelled
  refine ⟨Token.textOf before, Token.textOf behind, ?_, ?_⟩
  · rw [← spelled]
    simp [Token.textOf, Node.text]
  · rw [span_eq, place, Nat.zero_add]
    rfl

theorem shows_of_cell? (h : n ∈ (parse text).value.allNodes) (cell : n.cell? = some c) :
    text.Shows c.span c.text := by
  obtain ⟨-, same, span⟩ := of_cell? cell
  rw [same, span]
  exact shows_of_mem_allNodes h

/-- The cells of a row are nodes of the tree inside the row. -/
theorem exists_of_mem_cells (h : row ∈ (parse text).value.allNodes) (hc : c ∈ row.cells) :
    ∃ n ∈ (parse text).value.allNodes, n.cell? = some c ∧ row.span.Covers c.span := by
  obtain ⟨n, mem, cell⟩ := List.mem_filterMap.1 hc
  refine ⟨n, mem_allNodes_of_mem_nodes h mem, cell, ?_⟩
  rw [span_of_cell? cell]
  exact isWithin_of_mem_below (mem_below_of_mem_nodes mem)

end Node

end RobotAnalysis
