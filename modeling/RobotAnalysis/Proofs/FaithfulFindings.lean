import RobotAnalysis.Proofs.CellVisibility
import RobotAnalysis.Proofs.ShownSpans

/-!
# Findings are faithful

Every call, usage, import and test case that is found in a section has the text that its bytes have
in the document, and a keyword or variable is read from the bytes it is located at. Offsets are put
together on the way: those of variables start at their cell, those in the default value of an
argument at the equals sign before it. All of these bytes begin and end between characters inside
the section, and a variable that is confined is so to the definition around the bytes it is read
from.
-/
namespace RobotAnalysis

/-- Whether a span inside another one begins and ends between characters of a text. -/
structure Span.IsCutIn (s : Span) (t : Text) (outer : Span) : Prop where
  start : t.IsBoundary s.start
  stop : t.IsBoundary s.stop
  inside : outer.Covers s

/-- Whether the bytes of a span inside another one are a piece of a text. -/
structure Text.Quotes (t : Text) (outer s : Span) (piece : Text) : Prop
    extends s.IsCutIn t outer where
  slice_eq : t.slice s = piece

theorem Text.Shows.quotes {t piece : Text} {outer s : Span} (h : t.Shows s piece)
    (inside : outer.Covers s) : t.Quotes outer s piece :=
  { start := h.start, stop := h.stop, inside, slice_eq := h.slice_eq }

/-- What is found in a piece of a text is quoted from the whole text. -/
theorem Text.Shows.quotes_inner {t piece inner : Text} {outer s r : Span} (h : t.Shows s piece)
    (inside : outer.Covers s) (found : piece.Shows r inner) :
    t.Quotes outer (r.shift s.start) inner :=
  (h.trans found).quotes (inside.trans (h.covers found))

namespace Node

/-- Whether a definition is the only one of a text around some bytes. -/
structure IsDefinitionAround (body : Node) (text : Text) (place : Span) : Prop where
  mem : body ∈ (parse text).value.allNodes
  isDefinition : body.kind.isDefinition = true
  covers : body.span.Covers place
  unique : ∀ other ∈ (parse text).value.allNodes, other.kind.isDefinition = true →
    other.span.Covers place → other = body

variable {text : Text} {outer : Span} {n m : Node} {c : Cell}

/-- No definition stands inside another one. -/
theorem isDefinition_eq_false_of_mem_below (hn : n ∈ (parse text).value.allNodes)
    (isDefinition : n.kind.isDefinition = true) (hm : m ∈ n.below) :
    m.kind.isDefinition = false := by
  have noPiece (h : n.tree.IsPiece) : m.kind.isDefinition = false := by
    rw [isDefinition_of_isPiece h] at isDefinition
    cases isDefinition
  have noRow {form : Row → RowForm} (used : RowForm.InUse form) (row : n.IsRow form) :
      m.kind.isDefinition = false := by
    rw [row.isDefinition_eq_false used] at isDefinition
    cases isDefinition
  cases form_of_mem_allNodes hn with
  | frame h => rcases h with h | h | h | h <;> (rw [h] at isDefinition; cases isDefinition)
  | row form used row => exact noRow used row
  | piece h => exact noPiece h
  | definition kind d _ tree =>
    obtain ⟨children, node, holds⟩ := Definition.exists_parse kind d
    obtain ⟨-, same⟩ := children_of_tree (tree.trans node)
    obtain ⟨k, hk, hm⟩ := mem_below_iff.1 hm
    have inside := holds _ (same ▸ tree_mem_of_mem_nodes hk)
    have ofPiece (h : k.tree.IsPiece) : m.kind.isDefinition = false := by
      rcases hm with rfl | hm
      · exact isDefinition_of_isPiece h
      · rw [below_eq_nil h] at hm
        cases hm
    generalize here : k.tree = t at inside
    cases inside with
    | gap gap => exact ofPiece (here ▸ gap.isPiece)
    | name ts => exact ofPiece (here ▸ .cell _ ts)
    | row r filled =>
      have row : k.IsRow RowForm.ofBody := ⟨r, filled, here⟩
      rcases hm with rfl | hm
      · exact row.isDefinition_eq_false .ofBody
      · exact isDefinition_of_isPiece (isPiece_of_mem_below row.pieces hm)

/-- Two definitions of a text are the same or share no byte. -/
theorem eq_or_apart_of_isDefinition (hn : n ∈ (parse text).value.allNodes)
    (hm : m ∈ (parse text).value.allNodes) (first : n.kind.isDefinition = true)
    (second : m.kind.isDefinition = true) :
    n = m ∨ n.span.stop ≤ m.start ∨ m.span.stop ≤ n.start := by
  cases Tree.apart_of_mem_allNodes hn hm with
  | same h => exact .inl h
  | inside h =>
    rw [isDefinition_eq_false_of_mem_below hm second h] at first
    cases first
  | around h =>
    rw [isDefinition_eq_false_of_mem_below hn first h] at second
    cases second
  | before h => exact .inr (.inl h)
  | behind h => exact .inr (.inr h)

theorem isDefinitionAround (h : n ∈ (parse text).value.allNodes)
    (isDefinition : n.kind.isDefinition = true) {place : Span} (covers : n.span.Covers place)
    (filled : 0 < place.size) : n.IsDefinitionAround text place where
  mem := h
  isDefinition := isDefinition
  covers := covers
  unique other hother itself around := by
    have here : n.start ≤ place.start ∧ place.stop ≤ n.span.stop := covers
    have there : other.start ≤ place.start ∧ place.stop ≤ other.span.stop := around
    have size : place.stop = place.start + place.size := rfl
    rcases eq_or_apart_of_isDefinition hother h itself isDefinition with same | apart
    · exact same
    · omega

/-- Whether a node of a text stands inside a span. -/
structure LiesIn (n : Node) (text : Text) (outer : Span) : Prop where
  mem : n ∈ (parse text).value.allNodes
  inside : outer.Covers n.span

namespace LiesIn

theorem self (h : n ∈ (parse text).value.allNodes) : n.LiesIn text n.span :=
  ⟨h, Nat.le_refl _, Nat.le_refl _⟩

theorem of_mem_nodes (h : n.LiesIn text outer) (hm : m ∈ n.nodes) : m.LiesIn text outer :=
  ⟨mem_allNodes_of_mem_nodes h.mem hm,
    h.inside.trans (isWithin_of_mem_below (mem_below_of_mem_nodes hm))⟩

theorem isCutIn (h : n.LiesIn text outer) : n.span.IsCutIn text outer :=
  ((shows_of_mem_allNodes h.mem).quotes h.inside).toIsCutIn

theorem shows (h : n.LiesIn text outer) (hc : c ∈ n.cells) :
    text.Shows c.span c.text ∧ outer.Covers c.span := by
  obtain ⟨m, hm, cell, covers⟩ := exists_of_mem_cells h.mem hc
  exact ⟨shows_of_cell? hm cell, h.inside.trans covers⟩

theorem quotes (h : n.LiesIn text outer) (hc : c ∈ n.cells) : text.Quotes outer c.span c.text :=
  (h.shows hc).1.quotes (h.shows hc).2

end LiesIn

theorem mem_cells_of_cellsOf {role : CellKind} (h : c ∈ n.cellsOf role) : c ∈ n.cells :=
  List.mem_of_mem_filter h

theorem mem_cells_of_firstCell? {role : CellKind} (h : n.firstCell? role = some c) :
    c ∈ n.cells :=
  mem_cells_of_cellsOf (List.mem_of_head? h)

end Node

/-- Whether a keyword is named by the cell of a text that it is located at. -/
def Keyword.IsFaithful (k : Keyword) (text : Text) (file : FileId) (outer : Span) : Prop :=
  ∃ n ∈ (parse text).value.allNodes, ∃ c, n.cell? = some c ∧
    k.location = .document file c.span ∧ text.Quotes outer c.span c.text ∧
    Name.ofFunction c.text = k.name

/-- Whether a variable is what its place in a text shows, and is confined to nothing or to the
definition around that place. -/
def Variable.IsFaithful (v : Variable) (text : Text) (file : FileId) (outer : Span) : Prop :=
  ∃ place, v.location = .document file place ∧ place.IsCutIn text outer ∧
    VariableToken.withoutAssignment (text.slice place) = v.text ∧
    (v.visibility = .everywhere ∨
      ∃ body : Node, body.IsDefinitionAround text place ∧ v.visibility = .within file body.span)

namespace Findings

/-- Whether everything that is found has been read from the bytes of a text that it carries. -/
structure AreFaithful (f : Findings) (text : Text) (file : FileId) (outer : Span) : Prop where
  keywords : ∀ k ∈ f.keywords, k.IsFaithful text file outer
  testCases : ∀ t ∈ f.testCases,
    text.Quotes t.body t.span t.name ∧ t.body.IsCutIn text outer
  vars : ∀ v ∈ f.vars, v.IsFaithful text file outer
  imports : ∀ i ∈ f.imports, text.Quotes outer i.span i.target
  calls : ∀ c ∈ f.calls, text.Quotes outer c.span c.text
  usages : ∀ u ∈ f.usages, text.Quotes outer u.span u.text

variable {text : Text} {file : FileId} {outer : Span} {row : Node} {c : Cell} {u : Mention}
  {v : Variable}

/-- The usages in a piece of a text are quoted. -/
theorem quotes_of_mem_usagesIn {s : Span} {piece : Text} (shown : text.Shows s piece)
    (inside : outer.Covers s) (h : u ∈ usagesIn s.start piece) :
    text.Quotes outer u.span u.text := by
  obtain ⟨token, mem, rfl⟩ := List.mem_map.1 h
  exact shown.quotes_inner inside (VariableToken.shows_of_mem_all mem)

/-- A default value is shown behind the first equals sign of its cell. -/
theorem shows_of_splitOnce? {t before after : Text} {p : Char → Bool}
    (h : Sequence.splitOnce? p t = some (before, after)) :
    ∃ c, p c = true ∧ t = before ++ c :: after := by
  induction t generalizing before with
  | nil => cases h
  | cons d t ih =>
    rw [Sequence.splitOnce?] at h
    split at h
    · rename_i here
      cases h
      exact ⟨d, here, rfl⟩
    · obtain ⟨⟨front, back⟩, found, same⟩ := Option.map_eq_some_iff.1 h
      cases same
      obtain ⟨c, here, rfl⟩ := ih found
      exact ⟨c, here, rfl⟩

/-- The usages in the default value of an argument are quoted. -/
theorem quotes_of_mem_defaultUsages (h : row.LiesIn text outer) (hc : c ∈ row.cells)
    (hu : u ∈ defaultUsages c) : text.Quotes outer u.span u.text := by
  obtain ⟨shown, inside⟩ := h.shows hc
  rw [defaultUsages] at hu
  split at hu
  · rename_i before default found
    obtain ⟨sign, equals, split⟩ := shows_of_splitOnce? found
    have size : sign.utf8Size = 1 := by
      rw [beq_iff_eq.1 equals]
      rfl
    have value : c.text.Shows ⟨Text.byteSize before + 1, Text.byteSize default⟩ default := by
      refine ⟨before ++ [sign], [], by simp [split], ?_⟩
      simp [size]
    exact quotes_of_mem_usagesIn (shown.trans value) (inside.trans (shown.covers value)) hu
  · cases hu

/-- A cell that is a variable declares it for everyone. -/
theorem isFaithful_of_mem_declaredBy (h : row.LiesIn text outer) (hc : c ∈ row.cells)
    {scope : VariableScope} (hv : v ∈ declaredBy file scope c) : v.IsFaithful text file outer := by
  obtain ⟨shown, inside⟩ := h.shows hc
  rw [declaredBy] at hv
  split at hv
  · rename_i whole
    rw [List.mem_singleton.1 hv]
    refine ⟨c.span, rfl, (h.quotes hc).toIsCutIn, ?_, .inl rfl⟩
    rw [shown.slice_eq]
    exact (VariableToken.withoutAssignment_trim_of_isWholeCell whole).symm
  · cases hv

/-- An assigned cell declares its first variable for the definition around it. -/
theorem isFaithful_of_mem_assignedBy {body : Node} (h : body.LiesIn text outer)
    (isDefinition : body.kind.isDefinition = true) (hrow : row ∈ body.nodes) (hc : c ∈ row.cells)
    {scope : VariableScope} (hv : v ∈ assignedBy file scope body.span c) :
    v.IsFaithful text file outer := by
  obtain ⟨shown, inside⟩ := ((Node.LiesIn.self h.mem).of_mem_nodes hrow).shows hc
  obtain ⟨token, mem, rfl⟩ := List.mem_map.1 hv
  have mem : token ∈ VariableToken.all c.text := List.mem_of_head? (Option.mem_toList.1 mem)
  have found := VariableToken.shows_of_mem_all mem
  have isToken := VariableToken.isToken_of_mem_all mem
  have covers := inside.trans (shown.covers found)
  have quoted := (shown.trans found).quotes (h.inside.trans covers)
  refine ⟨_, rfl, quoted.toIsCutIn, ?_, .inr ⟨body, ?_, rfl⟩⟩
  · rw [quoted.slice_eq]
    exact (VariableToken.withoutAssignment_trim_of_isToken isToken).symm
  · refine Node.isDefinitionAround h.mem isDefinition covers ?_
    obtain ⟨sigil, name, -, text⟩ := isToken
    have pos := sigil.utf8Size_pos
    have size : (token.span.shift c.span.start).size = token.text.byteSize := found.size_eq
    rw [size, text, Text.byteSize_cons]
    omega

theorem isFaithful_of_mem_setBy (h : row.LiesIn text outer) (hv : v ∈ setBy file row) :
    v.IsFaithful text file outer := by
  rw [setBy] at hv
  split at hv
  · rename_i first found
    split at hv
    · exact isFaithful_of_mem_declaredBy h (Node.mem_cells_of_firstCell? found) hv
    · cases hv
  · cases hv

namespace AreFaithful

variable {f g : Findings}

theorem none : Findings.none.AreFaithful text file outer := by
  constructor <;> exact fun _ h => by cases h

theorem append (hf : f.AreFaithful text file outer) (hg : g.AreFaithful text file outer) :
    (f ++ g).AreFaithful text file outer where
  keywords k hk := (List.mem_append.1 hk).elim (hf.keywords k) (hg.keywords k)
  testCases t ht := (List.mem_append.1 ht).elim (hf.testCases t) (hg.testCases t)
  vars v hv := (List.mem_append.1 hv).elim (hf.vars v) (hg.vars v)
  imports i hi := (List.mem_append.1 hi).elim (hf.imports i) (hg.imports i)
  calls c hc := (List.mem_append.1 hc).elim (hf.calls c) (hg.calls c)
  usages u hu := (List.mem_append.1 hu).elim (hf.usages u) (hg.usages u)

theorem concat_map {α : Type} {l : List α} {r : α → Findings}
    (h : ∀ a ∈ l, (r a).AreFaithful text file outer) :
    (concat (l.map r)).AreFaithful text file outer := by
  induction l with
  | nil => exact none
  | cons a l ih =>
    obtain ⟨first, rest⟩ := List.forall_mem_cons.1 h
    exact first.append (ih rest)

theorem of_usages {us : List Mention} (h : ∀ u ∈ us, text.Quotes outer u.span u.text) :
    AreFaithful { Findings.none with usages := us } text file outer :=
  { none with usages := h }

theorem usagesOf (h : row.LiesIn text outer) {cells : List Cell} (hc : cells ⊆ row.cells) :
    (Findings.usagesOf cells).AreFaithful text file outer := by
  refine of_usages fun u hu => ?_
  obtain ⟨c, mem, hu⟩ := List.mem_flatMap.1 hu
  obtain ⟨shown, inside⟩ := h.shows (hc mem)
  exact quotes_of_mem_usagesIn shown inside hu

theorem callOf (h : row.LiesIn text outer) {role : CellKind} :
    (Findings.callOf (row.firstCell? role)).AreFaithful text file outer := by
  refine { none with calls := fun call hcall => ?_ }
  obtain ⟨c, mem, rfl⟩ := List.mem_map.1 hcall
  exact h.quotes (Node.mem_cells_of_firstCell? (Option.mem_toList.1 mem))

theorem ofImport (h : row.LiesIn text outer) :
    (Findings.ofImport row).AreFaithful text file outer := by
  have usages : (Findings.usagesOf (row.cellsOf .argument)).AreFaithful text file outer :=
    usagesOf h fun _ => Node.mem_cells_of_cellsOf
  rw [Findings.ofImport]
  split
  · rename_i kind target _ first
    refine { usages with imports := fun i hi => ?_ }
    rw [List.mem_singleton.1 hi]
    exact h.quotes (Node.mem_cells_of_cellsOf (List.mem_of_head? first))
  · exact usages

theorem ofSetting (h : row.LiesIn text outer) :
    (Findings.ofSetting row).AreFaithful text file outer :=
  (callOf h).append (usagesOf h fun _ => Node.mem_cells_of_cellsOf)

theorem ofVariableRow (h : row.LiesIn text outer) :
    (Findings.ofVariableRow file row).AreFaithful text file outer := by
  have usages : (Findings.usagesOf (row.cellsOf .argument)).AreFaithful text file outer :=
    usagesOf h fun _ => Node.mem_cells_of_cellsOf
  refine { usages with vars := fun v hv => ?_ }
  obtain ⟨c, mem, hv⟩ := List.mem_flatMap.1 hv
  exact isFaithful_of_mem_declaredBy h (Node.mem_cells_of_firstCell? (Option.mem_toList.1 mem)) hv

theorem ofBodyRow {body : Node} (h : body.LiesIn text outer)
    (isDefinition : body.kind.isDefinition = true) (hrow : row ∈ body.nodes)
    (scope : VariableScope) :
    (Findings.ofBodyRow file scope body.span row).AreFaithful text file outer := by
  have lies := h.of_mem_nodes hrow
  let vars := (row.cellsOf .assignment).flatMap (assignedBy file scope body.span) ++ setBy file row
  have declared : AreFaithful { Findings.none with vars } text file outer := by
    refine { none with vars := fun v hv => ?_ }
    rcases List.mem_append.1 hv with hv | hv
    · obtain ⟨c, mem, hv⟩ := List.mem_flatMap.1 hv
      exact isFaithful_of_mem_assignedBy h isDefinition hrow (Node.mem_cells_of_cellsOf mem) hv
    · exact isFaithful_of_mem_setBy lies hv
  refine ((declared.append (callOf lies)).append
    (usagesOf lies fun _ => Node.mem_cells_of_cellsOf)).append (of_usages fun u hu => ?_)
  split at hu
  · obtain ⟨c, mem, hu⟩ := List.mem_flatMap.1 hu
    exact quotes_of_mem_defaultUsages lies (Node.mem_cells_of_cellsOf mem) hu
  · cases hu

/-- A definition is quoted by its name. -/
theorem ofName {body : Node} (h : body.LiesIn text outer)
    (hc : body.firstCell? .definitionName = some c) :
    (Findings.ofName file body c).AreFaithful text file outer := by
  have mem := Node.mem_cells_of_firstCell? hc
  rw [Findings.ofName]
  split
  · refine { none with testCases := fun t ht => ?_ }
    rw [List.mem_singleton.1 ht]
    exact ⟨(Node.LiesIn.self h.mem).quotes mem, h.isCutIn⟩
  · refine { none with keywords := fun k hk => ?_ }
    rw [List.mem_singleton.1 hk]
    obtain ⟨n, hn, cell, -⟩ := Node.exists_of_mem_cells h.mem mem
    exact ⟨n, hn, c, cell, rfl, h.quotes mem, rfl⟩

theorem ofDefinition {body : Node} (h : body.LiesIn text outer)
    (isDefinition : body.kind.isDefinition = true) :
    (Findings.ofDefinition file body).AreFaithful text file outer := by
  refine append (concat_map fun c hc => ofName h (Option.mem_toList.1 hc)) (concat_map ?_)
  exact fun row hrow => ofBodyRow h isDefinition (List.mem_of_mem_filter hrow) _

theorem ofSection {sec : Node} (h : sec.LiesIn text outer) :
    (Findings.ofSection file sec).AreFaithful text file outer := by
  have definitions : (concat (sec.definitions.map (Findings.ofDefinition file))).AreFaithful
      text file outer := by
    refine concat_map fun body hbody => ?_
    obtain ⟨mem, isDefinition⟩ := List.mem_filter.1 hbody
    exact ofDefinition (h.of_mem_nodes mem) isDefinition
  have rows {kind : NodeKind} {r : Node → Findings}
      (hr : ∀ row : Node, row.LiesIn text outer → (r row).AreFaithful text file outer) :
      (concat ((sec.nodesOf kind).map r)).AreFaithful text file outer :=
    concat_map fun row hrow => hr row (h.of_mem_nodes (List.mem_of_mem_filter hrow))
  rw [Findings.ofSection]
  split
  · exact (rows fun _ => ofImport).append (rows fun _ => ofSetting)
  · exact rows fun _ => ofVariableRow
  iterate 3 exact definitions
  iterate 2 exact none

end AreFaithful

end Findings

namespace SectionModel

/-- In every section of every text all that is found has been read from the bytes it carries, and
these lie in the section. -/
theorem areFaithful_of_mem_ofTree (text : Text) (file : FileId) {s : SectionModel}
    (h : s ∈ ofTree file (parse text).value) :
    s.found.AreFaithful text file s.span ∧ s.span.IsCutIn text ⟨0, Text.byteSize text⟩ := by
  obtain ⟨sec, hsec, rfl⟩ := List.mem_map.1 h
  have mem := Node.mem_allNodes_of_mem_sections hsec
  have shown := Node.shows_of_mem_allNodes mem
  have within : Span.Covers ⟨0, Text.byteSize text⟩ sec.span := by
    refine ⟨Nat.zero_le _, ?_⟩
    simpa only [Span.stop, Nat.zero_add] using shown.stop_le
  exact ⟨.ofSection (.self mem), (shown.quotes within).toIsCutIn⟩

/-- A variable in the default value of an argument, behind characters of more than one byte. -/
theorem areFaithful_of_mem_ofTree_argumentDefault :
    let text : Text := "*** Keywords ***\nÖffne\n    [Arguments]    ${a}=é${b}\n".toList
    ∃ s ∈ ofTree ⟨0⟩ (parse text).value, s.found.usages = [⟨"${b}".toList, ⟨50, 4⟩⟩] ∧
      s.found.AreFaithful text ⟨0⟩ s.span := by
  intro text
  have found : (ofTree ⟨0⟩ (parse text).value).head?.map (fun s => s.found.usages) =
      some [⟨"${b}".toList, ⟨50, 4⟩⟩] := by decide +kernel
  obtain ⟨s, first, usages⟩ := Option.map_eq_some_iff.1 found
  have mem := List.mem_of_head? first
  exact ⟨s, mem, usages, (areFaithful_of_mem_ofTree text ⟨0⟩ mem).1⟩

end SectionModel

end RobotAnalysis
