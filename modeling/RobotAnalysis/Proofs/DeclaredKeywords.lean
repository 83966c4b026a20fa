import RobotAnalysis.Proofs.FaithfulFindings
import RobotAnalysis.Proofs.SymbolOrder
import RobotAnalysis.Proofs.TokenSpelling

/-!
# How the keywords of a document are declared

A document declares its keywords by the names of its definitions, under no qualifier. A name is a
cell, and so it stands on one line.
-/
namespace RobotAnalysis

/-- The cells of a parsed tree stand on one line. -/
theorem Node.notMem_newline_of_cell? {text : Text} {n : Node} {c : Cell}
    (h : n ∈ (parse text).value.allNodes) (cell : n.cell? = some c) : '\n' ∉ c.text := by
  obtain ⟨kind, same, -⟩ := of_cell? cell
  have noBreak := (tokens_of_cell h (by rw [kind]; rfl)).2
  obtain ⟨before, behind, leaves, -⟩ := Tree.exists_split_of_mem_nodesIn 0 _ n h
  rw [leaves_parse] at leaves
  rw [same, Node.text]
  intro feed
  obtain ⟨t, ht, inside⟩ := List.mem_flatMap.1 feed
  have mem : t ∈ tokenize text := by
    rw [leaves]
    exact List.mem_append_right _ (List.mem_append_left _ ht)
  exact ((Token.separate_tokenize text).isSpelled t mem).notMem_newline (noBreak t ht) inside

namespace Findings

variable {file : FileId} {k : Keyword}

/-- A definition declares a keyword by its name. -/
theorem exists_declare_of_mem_ofDefinition {definition : Node}
    (h : k ∈ (ofDefinition file definition).keywords) :
    ∃ c takesArguments, definition.firstCell? .definitionName = some c ∧
      k = .declare Option.none c.text takesArguments (.document file c.span) := by
  have rows (scope : VariableScope) (row : Node) :
      (ofBodyRow file scope definition.span row).keywords = [] :=
    congrArg Findings.keywords (symbols_ofBodyRow file scope definition.span row)
  change k ∈ (concat _).keywords ++ (concat _).keywords at h
  rw [part_concat_map_eq_nil keywords rfl (fun _ _ => rfl) (rows _), List.append_nil,
    part_concat_map keywords rfl fun _ _ => rfl] at h
  obtain ⟨c, hc, mem⟩ := List.mem_flatMap.1 h
  rw [ofName] at mem
  split at mem
  · cases mem
  · exact ⟨c, _, Option.mem_toList.1 hc, List.mem_singleton.1 mem⟩

/-- A section declares keywords by the names of its definitions. -/
theorem exists_declare_of_mem_ofSection {sec : Node} (h : k ∈ (ofSection file sec).keywords) :
    ∃ definition ∈ sec.definitions, ∃ c takesArguments,
      definition.firstCell? .definitionName = some c ∧
        k = .declare Option.none c.text takesArguments (.document file c.span) := by
  have definitions (h : k ∈ (concat (sec.definitions.map (ofDefinition file))).keywords) :
      ∃ definition ∈ sec.definitions, ∃ c takesArguments,
        definition.firstCell? .definitionName = some c ∧
          k = .declare Option.none c.text takesArguments (.document file c.span) := by
    rw [part_concat_map keywords rfl fun _ _ => rfl] at h
    obtain ⟨definition, mem, h⟩ := List.mem_flatMap.1 h
    exact ⟨definition, mem, exists_declare_of_mem_ofDefinition h⟩
  have imports (row : Node) : (ofImport row).keywords = [] := by
    rw [ofImport]
    split <;> rfl
  rw [ofSection] at h
  split at h
  · change k ∈ (concat _).keywords ++ (concat _).keywords at h
    rw [part_concat_map_eq_nil keywords rfl (fun _ _ => rfl) imports,
      part_concat_map_eq_nil keywords rfl (fun _ _ => rfl) fun _ => rfl] at h
    cases h
  · rw [part_concat_map_eq_nil keywords rfl (fun _ _ => rfl) fun _ => rfl] at h
    cases h
  iterate 3 exact definitions h
  iterate 2 cases h

end Findings

/-- The keywords of a parsed text are declared by names in one line. -/
theorem SectionModel.exists_declare_of_mem_ofTree {file : FileId} {text : Text} {k : Keyword}
    (h : k ∈ (ofTree file (parse text).value).flatMap fun s => s.found.keywords) :
    ∃ name takesArguments location, '\n' ∉ name ∧
      k = .declare none name takesArguments location := by
  rw [ofTree, List.flatMap_map] at h
  obtain ⟨sec, hsec, h⟩ := List.mem_flatMap.1 h
  obtain ⟨definition, mem, c, takesArguments, named, rfl⟩ :=
    Findings.exists_declare_of_mem_ofSection h
  have inTree := Node.mem_allNodes_of_mem_nodes (Node.mem_allNodes_of_mem_sections hsec)
    (List.mem_of_mem_filter mem)
  obtain ⟨n, hn, cell, -⟩ :=
    Node.exists_of_mem_cells inTree (Node.mem_cells_of_firstCell? named)
  exact ⟨c.text, takesArguments, _, Node.notMem_newline_of_cell? hn cell, rfl⟩

end RobotAnalysis
