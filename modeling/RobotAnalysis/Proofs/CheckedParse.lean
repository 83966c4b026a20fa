import RobotAnalysis.Checked.Parse
import RobotAnalysis.Proofs.CheckedVariables
import RobotAnalysis.Proofs.EmittedDocument
import RobotAnalysis.Proofs.LineCells
import RobotAnalysis.Proofs.LineSeam

/-!
# Parsing asks for tokens that exist

An index that runs over the tokens of a text finds the table of its lines. A cell that is open has a
first token and a last one before the index, and what the index has passed of a line is never
nothing, so no token is asked for that is not there, and a cell is cut out where its tokens begin
and end.
-/
namespace RobotAnalysis

namespace Token

theorem length_locate (offset : Nat) (ts : List Token) : (locate offset ts).length = ts.length := by
  induction ts generalizing offset with
  | nil => rfl
  | cons t ts ih => exact congrArg (· + 1) (ih _)

theorem sizeOf_cons (t : Token) (ts : List Token) :
    sizeOf (t :: ts) = t.text.byteSize + sizeOf ts := by
  simp [sizeOf, textOf]

/-- A token begins where the tokens before it end. -/
theorem getElem?_locate (before : List Token) (t : Token) (after : List Token) (offset : Nat) :
    (locate offset (before ++ t :: after))[before.length]? = some (offset + sizeOf before, t) := by
  induction before generalizing offset with
  | nil => rfl
  | cons u before ih =>
    have moved := ih (offset + u.text.byteSize)
    simpa [locate, sizeOf_cons, Nat.add_assoc] using moved

end Token

namespace Checked

variable {text : Text} {tokens ts before after : List Token} {t : Token}

theorem locate_eq {offset : Nat} (short : offset + Token.sizeOf ts < UInt32.size) :
    locate offset ts = some (Token.locate offset ts) := by
  induction ts generalizing offset with
  | nil => rfl
  | cons t ts ih =>
    rw [Token.sizeOf_cons] at short
    have rest : locate (offset + t.text.byteSize) ts =
        some (Token.locate (offset + t.text.byteSize) ts) := ih (by omega)
    simp only [locate, add_eq (show offset + t.text.byteSize < UInt32.size by omega), rest,
      Option.bind_eq_bind, Option.bind_some]
    rfl

variable {i : Nat} {more : List Token}

/-- The tokens from some number on, behind the tokens before it. -/
theorem take_append_of_drop (h : tokens.drop i = ts ++ more) :
    tokens = tokens.take i ++ (ts ++ more) := by
  rw [← h, List.take_append_drop]

theorem length_take_of_drop (h : tokens.drop i = ts ++ more) (filled : ts ≠ []) :
    (tokens.take i).length = i := by
  have inside : i < tokens.length := by
    by_contra beyond
    rw [List.drop_eq_nil_of_le (Nat.le_of_not_lt beyond)] at h
    exact filled (List.append_eq_nil_iff.1 h.symm).1
  rw [List.length_take, Nat.min_eq_left (Nat.le_of_lt inside)]

theorem exists_first (h : tokens.drop i = ts ++ more) (filled : ts ≠ []) :
    ∃ t, ts.head? = some t ∧
      (Token.locate 0 tokens)[i]? = some (Token.sizeOf (tokens.take i), t) := by
  obtain ⟨t, us, rfl⟩ := List.exists_cons_of_ne_nil filled
  have place := Token.getElem?_locate (tokens.take i) t (us ++ more) 0
  rw [← List.cons_append, ← take_append_of_drop h, length_take_of_drop h filled,
    Nat.zero_add] at place
  exact ⟨t, rfl, place⟩

theorem exists_last (h : tokens.drop i = ts ++ more) (filled : ts ≠ [])
    (short : Token.sizeOf tokens < UInt32.size) :
    ∃ last, (Token.locate 0 tokens)[i + ts.length - 1]? = some last ∧
      stopOf last = some (Token.sizeOf (tokens.take i) + Token.sizeOf ts) := by
  rcases List.eq_nil_or_concat ts with rfl | ⟨init, t, rfl⟩
  · exact absurd rfl filled
  · rw [List.concat_eq_append] at *
    have place := Token.getElem?_locate (tokens.take i ++ init) t more 0
    have whole : tokens = tokens.take i ++ init ++ t :: more := by
      conv => lhs; rw [take_append_of_drop h]
      simp
    have number : (tokens.take i ++ init).length = i + (init ++ [t]).length - 1 := by
      rw [List.length_append, length_take_of_drop h filled]
      simp
    have one : Token.sizeOf [t] = t.text.byteSize := by simp [Token.sizeOf, Token.textOf]
    have stop : 0 + Token.sizeOf (tokens.take i ++ init) + t.text.byteSize =
        Token.sizeOf (tokens.take i) + Token.sizeOf (init ++ [t]) := by
      rw [Token.sizeOf_append, Token.sizeOf_append, one]
      omega
    have fits := congrArg Token.sizeOf (take_append_of_drop h)
    rw [Token.sizeOf_append, Token.sizeOf_append] at fits
    rw [← whole, number] at place
    refine ⟨_, place, ?_⟩
    simp only [stopOf]
    rw [add_eq (by omega), stop]

/-- Tokens in a row cover the bytes of their texts. -/
theorem spanOf_eq {t : Token} {last : Nat × Token}
    (stop : stopOf last = some (Token.sizeOf (tokens.take i) + Token.sizeOf ts)) :
    spanOf (Token.sizeOf (tokens.take i), t) last =
      some ⟨Token.sizeOf (tokens.take i), Token.sizeOf ts⟩ := by
  simp only [spanOf, stop, range_eq (Nat.le_add_right _ _), Span.between, Nat.add_sub_cancel_left,
    Option.bind_eq_bind, Option.bind_some]

/-- The tokens of a text that is short enough for its offsets to be words. -/
structure Spells (tokens : List Token) (text : Text) : Prop where
  text_eq : Token.textOf tokens = text
  short : text.byteSize < UInt32.size

theorem Spells.sizeOf_lt (h : Spells tokens text) : Token.sizeOf tokens < UInt32.size := by
  rw [Token.sizeOf, h.text_eq]
  exact h.short

/-- A cell of some tokens in a row is cut out of the text that they spell. -/
theorem cellRange_eq (spells : Spells tokens text) (h : tokens.drop i = ts ++ more)
    (filled : ts ≠ []) :
    cellRange text (Token.locate 0 tokens) i (i + ts.length) =
      some ⟨i, i + ts.length, Token.textOf ts⟩ := by
  obtain ⟨t, -, first⟩ := exists_first h filled
  obtain ⟨last, found, stop⟩ := exists_last h filled spells.sizeOf_lt
  have shown : text.Shows ⟨Token.sizeOf (tokens.take i), Token.sizeOf ts⟩ (Token.textOf ts) := by
    refine ⟨Token.textOf (tokens.take i), Token.textOf more, ?_, rfl⟩
    rw [← spells.text_eq]
    conv => lhs; rw [take_append_of_drop h]
    simp [Token.textOf]
  have pos := List.length_pos_iff.2 filled
  simp only [cellRange, first, found, sub_eq (show 1 ≤ i + ts.length by omega), spanOf_eq stop,
    cut_of_shows shown, Option.bind_eq_bind, Option.bind_some]
  rfl

/-! ## One line -/

/-- Whether the open cell of a scan has tokens, all of them before a number. -/
def OpensBefore (s : LineScan) (index : Nat) : Prop :=
  ∀ start stop, s.open? = some (start, stop) → start < stop ∧ stop ≤ index

theorem close_eq {s : LineScan} {index : Nat} (spells : Spells tokens text)
    (opens : OpensBefore s index) (inside : index ≤ tokens.length) :
    close text (Token.locate 0 tokens) s = some (s.close tokens) := by
  rw [close, LineScan.close]
  cases cell : s.open? with
  | none => rfl
  | some range =>
    obtain ⟨start, stop⟩ := range
    obtain ⟨ordered, bound⟩ := opens start stop cell
    have split : tokens.drop start = Token.slice tokens start stop ++ tokens.drop stop := by
      have rest : (tokens.drop start).drop (stop - start) = tokens.drop stop := by
        rw [List.drop_drop, Nat.add_sub_cancel' (Nat.le_of_lt ordered)]
      rw [Token.slice, List.drop_take, ← rest, List.take_append_drop]
    have length : (Token.slice tokens start stop).length = stop - start := by
      rw [Token.slice, List.length_drop, List.length_take]
      omega
    have found := cellRange_eq spells split (List.length_pos_iff.1 (by omega))
    rw [length, Nat.add_sub_cancel' (Nat.le_of_lt ordered)] at found
    simp only [found, Option.bind_eq_bind, Option.bind_some]
    rfl

theorem opensBefore_close (s : LineScan) (index : Nat) : OpensBefore (s.close tokens) index := by
  intro start stop cell
  rw [LineScan.open?_close] at cell
  cases cell

theorem OpensBefore.next {s : LineScan} {index : Nat} (h : OpensBefore s index) (t : Token) :
    OpensBefore (s.next tokens index t) (index + 1) := by
  have same : OpensBefore s (index + 1) := fun start stop cell =>
    ⟨(h start stop cell).1, Nat.le_succ_of_le (h start stop cell).2⟩
  have taken : OpensBefore (s.word index t) (index + 1) := by
    intro start stop cell
    unfold LineScan.word at cell
    split at cell
    · exact same start stop cell
    · rename_i start' stop' _ opened
      cases cell
      exact ⟨Nat.lt_succ_of_lt (Nat.lt_of_lt_of_le (h _ _ opened).1 (h _ _ opened).2),
        Nat.le_refl _⟩
    · split at cell
      · rename_i closed _
        rw [closed] at cell
        cases cell
      · cases cell
        exact ⟨Nat.lt_succ_self _, Nat.le_refl _⟩
  rw [LineScan.next]
  cases t.kind with
  | space => exact same
  | separator | newline => exact opensBefore_close s _
  | word | stray => exact taken

theorem lt_length_of_drop {body rest : List Token} {index : Nat}
    (h : tokens.drop index = t :: body ++ rest) : index < tokens.length := by
  have filled := congrArg List.length h
  simp only [List.length_drop, List.length_append, List.length_cons] at filled
  omega

/-- The scan of a line stops at its line break or behind the last token, and has then taken all
tokens of the line before. -/
theorem scanLine_eq (spells : Spells tokens text) {body rest : List Token} {index : Nat}
    (h : tokens.drop index = body ++ rest) (inLine : ∀ t ∈ body, t.kind ≠ .newline)
    (atBreak : ∀ t ∈ rest.head?, t.kind = .newline) {s : LineScan} (opens : OpensBefore s index) :
    scanLine text (Token.locate 0 tokens) s index =
        some (LineScan.run tokens s index body, index + body.length) ∧
      OpensBefore (LineScan.run tokens s index body) (index + body.length) := by
  induction body generalizing index s with
  | nil =>
    refine ⟨?_, opens⟩
    rw [scanLine]
    split
    · rename_i inside
      cases rest with
      | nil =>
        rw [Token.length_locate] at inside
        have beyond := List.drop_eq_nil_iff.1 h
        omega
      | cons t rest =>
        have here : tokens.drop index = [t] ++ rest := h
        obtain ⟨u, same, found⟩ := exists_first here (List.cons_ne_nil t [])
        cases same
        rw [found]
        simp only [atBreak t (by simp)]
        rfl
    · rfl
  | cons t body ih =>
    have here := inLine t List.mem_cons_self
    have first : tokens.drop index = [t] ++ (body ++ rest) := h
    have behind : tokens.drop (index + 1) = body ++ rest := Token.drop_add_of_drop first
    have onward {s : LineScan} (opens : OpensBefore s (index + 1)) :=
      ih behind (fun u hu => inLine u (List.mem_cons_of_mem _ hu)) opens
    obtain ⟨u, same, found⟩ := exists_first h (List.cons_ne_nil t body)
    cases same
    have inside := lt_length_of_drop h
    have opensBehind : OpensBefore (LineScan.next tokens s index t) (index + 1) := opens.next t
    have moved := onward opensBehind
    rw [LineScan.run, List.length_cons, Nat.add_comm body.length, ← Nat.add_assoc]
    refine ⟨?_, moved.2⟩
    rw [scanLine, if_pos (by rwa [Token.length_locate]), found, ← moved.1, LineScan.next]
    cases kind : t.kind with
    | newline => exact absurd kind here
    | separator => simp only [kind, close_eq spells opens (Nat.le_of_lt inside)]
    | space | word | stray => simp only [kind]

/-! ## All lines -/

/-- The first line of some tokens, and whether a line break ends it. -/
theorem exists_splitLines (t : Token) (ts : List Token) :
    ∃ body stop rest, t :: ts = body ++ stop ++ rest ∧ body ++ stop ≠ [] ∧
      splitLines (t :: ts) = (body ++ stop) :: splitLines rest ∧
      (∀ u ∈ body, u.kind ≠ .newline) ∧
      ((stop = [] ∧ rest = []) ∨ ∃ u, u.kind = .newline ∧ stop = [u]) := by
  induction ts generalizing t with
  | nil =>
    by_cases newline : t.kind = .newline
    · exact ⟨[], [t], [], rfl, by simp, by simp [splitLines, newline], by simp,
        .inr ⟨t, newline, rfl⟩⟩
    · exact ⟨[t], [], [], rfl, by simp, by simp [splitLines, newline], by simpa using newline,
        .inl ⟨rfl, rfl⟩⟩
  | cons t' ts ih =>
    by_cases newline : t.kind = .newline
    · refine ⟨[], [t], t' :: ts, rfl, by simp, ?_, by simp, .inr ⟨t, newline, rfl⟩⟩
      rw [splitLines, if_pos newline]
      rfl
    · obtain ⟨body, stop, rest, whole, -, lines, inLine, ends⟩ := ih t'
      refine ⟨t :: body, stop, rest, by rw [whole]; rfl, by simp, ?_, ?_, ends⟩
      · rw [splitLines_cons newline lines]
        rfl
      · exact List.forall_mem_cons.2 ⟨newline, inLine⟩

/-- The line at a token is read off the tokens from there on. -/
theorem lineAt_eq (spells : Spells tokens text) {body stop rest : List Token} {index : Nat}
    (h : tokens.drop index = body ++ stop ++ rest) (filled : body ++ stop ≠ [])
    (inLine : ∀ t ∈ body, t.kind ≠ .newline)
    (ends : (stop = [] ∧ rest = []) ∨ ∃ u, u.kind = .newline ∧ stop = [u]) :
    lineAt text (Token.locate 0 tokens) index =
      some (.ofTokens tokens index (Token.sizeOf (tokens.take index)) (body ++ stop)) := by
  have atBreak : ∀ t ∈ (stop ++ rest).head?, t.kind = .newline := by
    rcases ends with ⟨rfl, rfl⟩ | ⟨u, newline, rfl⟩
    · simp
    · simpa using newline
  have sizes := congrArg List.length h
  simp only [List.length_drop, List.length_append] at sizes
  have pos := List.length_pos_iff.2 filled
  rw [List.length_append] at pos
  obtain ⟨scanned, opens⟩ := scanLine_eq spells (s := ⟨[], none, none⟩)
    (h.trans (List.append_assoc ..)) inLine atBreak nofun
  have closed := close_eq spells opens (by omega)
  have passed : (if index + body.length < (Token.locate 0 tokens).length then
      index + body.length + 1 else index + body.length) = index + (body ++ stop).length := by
    rw [Token.length_locate, List.length_append]
    rcases ends with ⟨rfl, rfl⟩ | ⟨u, -, rfl⟩
    · rw [if_neg (by simp only [List.length_nil] at sizes; omega)]
      rfl
    · rw [if_pos (by simp only [List.length_singleton] at sizes; omega)]
      rfl
  have found : LineScan.ofTokens tokens index (body ++ stop) =
      (LineScan.run tokens ⟨[], none, none⟩ index body).close tokens := by
    rcases ends with ⟨rfl, -⟩ | ⟨u, newline, rfl⟩
    · rw [List.append_nil]
      rfl
    · have last (s : LineScan) (i : Nat) : LineScan.run tokens s i [u] = s.close tokens := by
        rw [LineScan.run, LineScan.next, newline]
        rfl
      rw [LineScan.ofTokens, LineScan.run_append, last,
        LineScan.close_of_closed (LineScan.open?_close _)]
  obtain ⟨t, head, first⟩ := exists_first h filled
  obtain ⟨last, final, ends⟩ := exists_last h filled spells.sizeOf_lt
  simp only [lineAt, scanned, closed, passed, first, final, spanOf_eq ends,
    sub_eq (show 1 ≤ index + (body ++ stop).length by rw [List.length_append]; omega),
    Option.bind_eq_bind, Option.bind_some, LineEntry.ofTokens, found, head, Option.any_some]
  rfl

theorem linesFrom_eq (spells : Spells tokens text) {rest : List Token} {index : Nat}
    (h : tokens.drop index = rest) :
    linesFrom text (Token.locate 0 tokens) index =
      some (LineEntry.table.locate tokens index (Token.sizeOf (tokens.take index))
        (splitLines rest)) := by
  induction length : rest.length using Nat.strong_induction_on generalizing rest index with
  | _ n ih =>
    cases rest with
    | nil =>
      have beyond := List.drop_eq_nil_iff.1 h
      rw [linesFrom, if_neg (by rw [Token.length_locate]; omega)]
      rfl
    | cons t ts =>
      obtain ⟨body, stop, rest, whole, filled, lines, inLine, ends⟩ := exists_splitLines t ts
      rw [whole] at h
      have line := lineAt_eq spells h filled inLine ends
      have behind := Token.drop_add_of_drop h
      have pos := List.length_pos_iff.2 filled
      have next : Token.sizeOf (tokens.take (index + (body ++ stop).length)) =
          Token.sizeOf (tokens.take index) + Token.sizeOf (body ++ stop) := by
        rw [List.take_add, h, List.take_left, Token.sizeOf_append]
      have later := ih rest.length (by rw [← length, whole, List.length_append]; omega) behind rfl
      have sizes := congrArg List.length h
      rw [List.length_drop, List.length_append] at sizes
      have further : index < (LineEntry.ofTokens tokens index (Token.sizeOf (tokens.take index))
          (body ++ stop)).stop := Nat.lt_add_of_pos_right pos
      rw [linesFrom, if_pos (by rw [Token.length_locate]; omega), line, lines]
      simp only [if_pos further]
      have behind : (LineEntry.ofTokens tokens index (Token.sizeOf (tokens.take index))
          (body ++ stop)).stop = index + (body ++ stop).length := rfl
      rw [behind, later, next]
      rfl

/-- The index finds the table of the lines. -/
theorem linesFrom_zero (spells : Spells tokens text) :
    linesFrom text (Token.locate 0 tokens) 0 = some (LineEntry.table tokens) :=
  linesFrom_eq spells rfl

end Checked

/-! ## What is asked of a line -/

namespace Part

theorem bounds_of_mem_cellRanges {index : Nat} {ps : List Part} {c : CellRange}
    (h : c ∈ cellRanges index ps) :
    index ≤ c.start ∧ c.start ≤ c.stop ∧ c.stop ≤ index + (ps.flatMap tokens).length ∧
      c.text.byteSize ≤ Token.sizeOf (ps.flatMap tokens) := by
  induction ps generalizing index with
  | nil => cases h
  | cons p ps ih =>
    rw [List.flatMap_cons, List.length_append, Token.sizeOf_append]
    cases p with
    | gap t =>
      have bounds := ih h
      simp only [tokens, List.length_singleton]
      omega
    | comment ts =>
      have bounds := ih h
      simp only [tokens]
      omega
    | cell ts =>
      simp only [tokens]
      rcases List.mem_cons.1 h with rfl | h
      · simp only [Token.sizeOf]
        omega
      · have bounds := ih h
        omega

/-- The cells of a line come one after the other. -/
theorem pairwise_cellRanges (index : Nat) (ps : List Part) :
    (cellRanges index ps).Pairwise fun c d => c.start ≤ d.stop := by
  induction ps generalizing index with
  | nil => exact .nil
  | cons p ps ih =>
    cases p with
    | gap t => exact ih _
    | comment ts => exact ih _
    | cell ts =>
      refine .cons (fun d hd => ?_) (ih _)
      have bounds := bounds_of_mem_cellRanges hd
      simp only
      omega

end Part

namespace LineEntry

/-- Where the line of an entry of a table stands. -/
theorem exists_of_mem_ofLines {tokens : List Token} {ls : List Line} {index : Nat} {e : LineEntry}
    (h : tokens.drop index = ls.flatMap Line.tokens) (inside : index ≤ tokens.length)
    (mem : e ∈ ofLines index ls) :
    ∃ i l more, e = ofLine i l ∧ i + l.tokens.length ≤ tokens.length ∧
      tokens.drop i = l.tokens ++ more := by
  induction ls generalizing index with
  | nil => cases mem
  | cons l ls ih =>
    rw [List.flatMap_cons] at h
    have sizes := congrArg List.length h
    rw [List.length_drop, List.length_append] at sizes
    have room : index + l.tokens.length ≤ tokens.length := by omega
    rcases List.mem_cons.1 mem with rfl | mem
    · exact ⟨index, l, _, rfl, room, h⟩
    · exact ih (Token.drop_add_of_drop h) room mem

end LineEntry

namespace Checked

variable {text : Text}

theorem exists_mapM {α β : Type} {l : List α} {f : α → Checked β}
    (h : ∀ a ∈ l, ∃ b, f a = some b) : ∃ bs, l.mapM f = some bs := by
  induction l with
  | nil => exact ⟨[], rfl⟩
  | cons a l ih =>
    obtain ⟨b, here⟩ := h a List.mem_cons_self
    obtain ⟨bs, rest⟩ := ih fun a ha => h a (List.mem_cons_of_mem _ ha)
    exact ⟨b :: bs, by rw [List.mapM_cons, here, rest]; rfl⟩

theorem exists_askLine (short : text.byteSize < UInt32.size) {e : LineEntry}
    (mem : e ∈ LineEntry.table (tokenize text)) :
    ∃ answers, askLine (Token.locate 0 (tokenize text)) e = some answers := by
  rw [LineEntry.table_eq] at mem
  obtain ⟨i, l, more, rfl, room, place⟩ :=
    LineEntry.exists_of_mem_ofLines (flatMap_tokens_linesOf _).symm (Nat.zero_le _) mem
  have fits : Token.sizeOf l.tokens ≤ text.byteSize := by
    have whole := congrArg Token.sizeOf (take_append_of_drop place)
    rw [Token.sizeOf_append, Token.sizeOf_append, Token.sizeOf, textOf_tokenize] at whole
    omega
  have bounds {c : CellRange} (hc : c ∈ (LineEntry.ofLine i l).cells) :=
    Part.bounds_of_mem_cellRanges hc
  have heading : ∃ t, cellsText (Token.locate 0 (tokenize text)) (.ofLine i l) = some t := by
    rw [cellsText]
    split
    · rename_i first last head final
      have ordered : first.start ≤ last.stop := by
        have pairs : (LineEntry.ofLine i l).cells.Pairwise fun c d => c.start ≤ d.stop :=
          Part.pairwise_cellRanges i l.parts
        have isLast := List.mem_of_getLast? final
        have itself := (bounds isLast).2.1
        obtain ⟨rest, cells⟩ := List.head?_eq_some_iff.1 head
        rw [cells] at pairs isLast
        rcases List.mem_cons.1 isLast with rfl | later
        · exact itself
        · exact List.rel_of_pairwise_cons pairs later
      have stop := (bounds (List.mem_of_getLast? final)).2.2.1
      rw [Token.length_locate]
      exact ⟨_, if_pos ⟨ordered, Nat.le_trans stop room⟩⟩
    · exact ⟨_, rfl⟩
  obtain ⟨t, named⟩ := heading
  obtain ⟨kinds, told⟩ := exists_mapM (l := (LineEntry.ofLine i l).cells)
    (f := fun c => isWholeCell c.text) fun c hc => by
      have size := (bounds hc).2.2.2
      have less := Text.byteSize_le_of_sublist
        (VariableToken.withoutAssignment_isPrefix c.text).sublist
      exact ⟨_, VariableToken.isWholeCell_checked (VariableToken.fitWords_of_byteSize (by
        have total : Token.sizeOf (l.parts.flatMap Part.tokens) = Token.sizeOf l.tokens := rfl
        omega))⟩
  refine ⟨(t, kinds), ?_⟩
  simp only [askLine, named, told, Option.bind_eq_bind, Option.bind_some]
  rfl

/-- Parsing a text asks for nothing that is not there. -/
theorem parse_eq (short : text.byteSize < UInt32.size) : parse text = Emission.ofText text := by
  have spells : Spells (tokenize text) text := ⟨textOf_tokenize text, short⟩
  have located : locate 0 (tokenize text) = some (Token.locate 0 (tokenize text)) :=
    locate_eq (by rw [Nat.zero_add]; exact spells.sizeOf_lt)
  obtain ⟨answers, asked⟩ := exists_mapM fun e he => exists_askLine short (e := e) he
  simp only [parse, located, linesFrom_zero spells, asked, Option.bind_eq_bind, Option.bind_some]
  rfl

end Checked

end RobotAnalysis
