import RobotAnalysis.Emission
import RobotAnalysis.Proofs.LineCells
import RobotAnalysis.Proofs.RowRoles

/-!
# Emitting the rows of a document

The token cursor lags behind: what stands between two cells is emitted on the way to the next place
where a node begins or ends. `CaughtUp` says what has been emitted once the cursor is moved to a
place in the line, and `Stands` describes the state between two lines. A line, a row and a run of
rows each pass the lines they read and emit the trees that parsing makes of them.
-/
namespace RobotAnalysis

namespace Tree

/-- Without comments, parts that take no role are emitted token by token. -/
theorem callsOf_flatMap_bare {ps : List Part} (h : ∀ p ∈ ps, ∀ ts, p ≠ .comment ts) :
    callsOf (ps.flatMap Part.bare) = (ps.flatMap Part.tokens).map .token := by
  induction ps with
  | nil => rfl
  | cons p ps ih =>
    obtain ⟨first, rest⟩ := List.forall_mem_cons.1 h
    rw [List.flatMap_cons, List.flatMap_cons, callsOf_append, List.map_append, ih rest]
    cases p with
    | gap t => rfl
    | cell ts => rw [Part.bare, Part.tokens, callsOf_map_leaf]
    | comment ts => exact absurd rfl (first ts)

end Tree

/-- Parts without a cell change no role. -/
theorem Roles.assign_of_noCell {ps : List Part} (h : ∀ p ∈ ps, p.isCell = false) (roles : Roles) :
    roles.assign ps = (ps.flatMap Part.bare, roles) := by
  induction ps with
  | nil => rfl
  | cons p ps ih =>
    obtain ⟨first, rest⟩ := List.forall_mem_cons.1 h
    cases p with
    | gap t => rw [assign, ih rest]; rfl
    | cell ts => cases first
    | comment ts => rw [assign, ih rest]; rfl

namespace LineEntry

variable {tokens more : List Token} {line : LineEntry} {i : Nat}

/-- The parts `ps` are left of a line, the first one begins with the token `i`, and `more` are the
tokens of the lines that follow. -/
structure Remains (tokens : List Token) (line : LineEntry) (i : Nat) (ps : List Part)
    (more : List Token) : Prop where
  order : Part.InOrder ps
  comment : line.comment? = Part.commentRange? i ps
  stop : line.stop = i + (ps.flatMap Part.tokens).length
  ahead : tokens.drop i = ps.flatMap Part.tokens ++ more

/-- At the start of a line all of its parts are left. -/
theorem remains_ofLine {l : Line} (ordered : l.IsOrdered)
    (ahead : tokens.drop i = l.tokens ++ more) : (ofLine i l).Remains tokens i l.parts more :=
  ⟨ordered.inOrder, rfl, rfl, ahead⟩

/-- What is left behind parts without a comment. -/
theorem Remains.of_append {ps qs : List Part} (h : line.Remains tokens i (ps ++ qs) more)
    (noComment : ∀ p ∈ ps, ∀ ts, p ≠ .comment ts) :
    line.Remains tokens (i + (ps.flatMap Part.tokens).length) qs more := by
  have ahead := h.ahead
  rw [List.flatMap_append, List.append_assoc] at ahead
  constructor
  · exact h.order.of_append noComment
  · rw [h.comment, Part.commentRange?_append i qs noComment]
  · rw [h.stop, List.flatMap_append, List.length_append, Nat.add_assoc]
  · exact Token.drop_add_of_drop ahead

theorem Remains.of_cons {p : Part} {ps : List Part} (h : line.Remains tokens i (p :: ps) more)
    (noComment : ∀ ts, p ≠ .comment ts) :
    line.Remains tokens (i + p.tokens.length) ps more := by
  have whole : line.Remains tokens i ([p] ++ ps) more := h
  have behind := whole.of_append (List.forall_mem_singleton.2 noComment)
  rw [List.flatMap_singleton] at behind
  exact behind

/-- The tokens of the next part come next. -/
theorem Remains.ahead_cons {p : Part} {ps : List Part} (h : line.Remains tokens i (p :: ps) more) :
    tokens.drop i = p.tokens ++ (ps.flatMap Part.tokens ++ more) := by
  rw [h.ahead, List.flatMap_cons, List.append_assoc]

end LineEntry

namespace Emission

variable {tokens : List Token} {e : Emission} {i : Nat} {done : List BuilderCall}

section Loops

variable {σ : Type} {rest : σ → List LineEntry} {condition : LineEntry → Bool}
  {step : LineEntry → σ → Option σ} {s s' : σ} {line : LineEntry} {lines : List LineEntry}

theorem whileLine_nil (h : rest s = []) : whileLine rest condition step s = some s := by
  rw [whileLine, h]

theorem whileLine_stop (h : rest s = line :: lines) (no : condition line = false) :
    whileLine rest condition step s = some s := by
  rw [whileLine, h]
  simp only [no, Bool.false_eq_true, if_false]

/-- A round that passes a line is followed by the rest of the loop. -/
theorem whileLine_step (h : rest s = line :: lines) (yes : condition line = true)
    (stepped : step line s = some s') (fewer : (rest s').length < (rest s).length) :
    whileLine rest condition step s = whileLine rest condition step s' := by
  rw [whileLine, h]
  simp only [yes, if_true, stepped]
  rw [if_pos (h ▸ fewer)]

end Loops

theorem bumpUntil_of_drop {ts more : List Token} (h : tokens.drop e.pos = ts ++ more) :
    e.bumpUntil tokens (e.pos + ts.length) =
      some { e with pos := e.pos + ts.length, calls := e.calls ++ ts.map .token } := by
  induction ts generalizing e with
  | nil =>
    rw [bumpUntil, if_neg (by simp)]
    simp
  | cons t ts ih =>
    have next : tokens[e.pos]? = some t := by
      rw [← List.head?_drop, h]
      rfl
    have here : tokens.drop e.pos = [t] ++ (ts ++ more) := h
    have behind : tokens.drop (e.pos + 1) = ts ++ more := Token.drop_add_of_drop here
    have rest := ih (e := { e with pos := e.pos + 1, calls := e.calls ++ [.token t] }) behind
    rw [bumpUntil, if_pos (by simp), next, List.length_cons, Nat.add_comm ts.length,
      ← Nat.add_assoc]
    simpa using rest

/-- Moving the cursor to the token `i` makes the emitted calls `done`. -/
def CaughtUp (tokens : List Token) (e : Emission) (i : Nat) (done : List BuilderCall) : Prop :=
  ∃ ts, i = e.pos + ts.length ∧ tokens.drop e.pos = ts ++ tokens.drop i ∧
    done = e.calls ++ ts.map .token

theorem caughtUp_pos (tokens : List Token) (e : Emission) : CaughtUp tokens e e.pos e.calls :=
  ⟨[], rfl, rfl, by simp⟩

namespace CaughtUp

theorem bump (h : CaughtUp tokens e i done) {us more : List Token}
    (ahead : tokens.drop i = us ++ more) :
    CaughtUp tokens e (i + us.length) (done ++ us.map .token) := by
  obtain ⟨ts, rfl, pending, rfl⟩ := h
  have behind := Token.drop_add_of_drop ahead
  refine ⟨ts ++ us, ?_, ?_, ?_⟩
  · rw [List.length_append, Nat.add_assoc]
  · rw [behind, pending, ahead, List.append_assoc]
  · rw [List.map_append, List.append_assoc]

theorem bumpUntil (h : CaughtUp tokens e i done) :
    e.bumpUntil tokens i = some { e with pos := i, calls := done } := by
  obtain ⟨ts, rfl, pending, rfl⟩ := h
  exact bumpUntil_of_drop pending

theorem emitRange (h : CaughtUp tokens e i done) {us more : List Token}
    (ahead : tokens.drop i = us ++ more) (kind : NodeKind) :
    e.emitRange tokens kind i (i + us.length) =
      some { e with
        pos := i + us.length
        calls := done ++ Tree.callsOf [.node kind (us.map .leaf)] } := by
  have inside := ((caughtUp_pos tokens
    (Emission.start kind { e with pos := i, calls := done })).bump ahead).bumpUntil
  rw [pos_start] at inside
  rw [Emission.emitRange, h.bumpUntil]
  simp only [Option.bind_eq_bind, Option.bind_some, inside, Tree.callsOf_singleton, Tree.calls,
    Tree.callsOf_map_leaf]
  simp [start, finish]

/-- The end of a line is emitted up to its line break, its comment as a node. -/
theorem finishLine {line : LineEntry} {ps : List Part} {more : List Token}
    (h : CaughtUp tokens e i done) (left : line.Remains tokens i ps more) :
    e.finishLine tokens line = some { e with
      pos := line.stop
      rest := e.rest.tail
      calls := done ++ Tree.callsOf (ps.flatMap Part.bare) } := by
  induction ps generalizing i done with
  | nil =>
    have here : i = line.stop := left.stop.symm
    rw [Emission.finishLine, left.comment, Part.commentRange?]
    simp only [Option.bind_eq_bind, Option.bind_some, ← here, h.bumpUntil, List.flatMap_nil,
      Tree.callsOf, List.append_nil]
    rfl
  | cons p ps ih =>
    have ahead := left.ahead_cons
    cases p with
    | gap t =>
      rw [ih (h.bump ahead) (left.of_cons (by simp)), List.flatMap_cons, Tree.callsOf_append,
        List.append_assoc]
      rfl
    | cell ts =>
      rw [ih (h.bump ahead) (left.of_cons (by simp)), List.flatMap_cons, Tree.callsOf_append,
        List.append_assoc, Part.bare, Tree.callsOf_map_leaf]
      rfl
    | comment ts =>
      -- The comment is a node of its own, and only gaps are left behind it.
      have gaps : ∀ p ∈ ps, ∀ us, p ≠ .comment us := by
        intro p hp us same
        obtain ⟨t, rfl⟩ := left.order p hp
        cases same
      have mark : line.comment? = some (i, i + ts.length) := left.comment
      have ahead : tokens.drop i = ts ++ (ps.flatMap Part.tokens ++ more) := ahead
      have node := h.emitRange ahead .comment
      have stop : i + ts.length + (ps.flatMap Part.tokens).length = line.stop := by
        rw [left.stop, List.flatMap_cons, List.length_append, Nat.add_assoc]
        rfl
      have behind := Token.drop_add_of_drop ahead
      have rest := ((caughtUp_pos tokens { e with
        pos := i + ts.length
        calls := done ++ Tree.callsOf [.node .comment (ts.map .leaf)] }).bump behind).bumpUntil
      rw [stop] at rest
      rw [Emission.finishLine, mark]
      simp only [Option.bind_eq_bind, node, Option.bind_some, rest]
      rw [List.flatMap_cons, Tree.callsOf_append, Tree.callsOf_flatMap_bare gaps, List.append_assoc]
      rfl

/-- A line is emitted as the trees of its parts, with the roles given out from left to right. -/
theorem emitCells_finishLine {line : LineEntry} {ps : List Part} {more : List Token} {r : Roles}
    (h : CaughtUp tokens e i done) (left : line.Remains tokens i ps more) :
    ((e.emitCells tokens r (Part.cellRanges i ps)).bind fun s =>
        (s.2.finishLine tokens line).map fun e => (s.1, e)) =
      some ((r.assign ps).2, { e with
        pos := line.stop
        rest := e.rest.tail
        calls := done ++ Tree.callsOf (r.assign ps).1 }) := by
  induction ps generalizing i done e r with
  | nil =>
    rw [Part.cellRanges, emitCells, Option.bind_some, h.finishLine left]
    rfl
  | cons p ps ih =>
    have ahead := left.ahead_cons
    cases p with
    | gap t =>
      have rest := ih (r := r) (h.bump ahead) (left.of_cons (by simp))
      rw [List.append_assoc] at rest
      exact rest
    | cell ts =>
      have behind := left.of_cons (by simp)
      cases next : r.next (Token.textOf ts) with
      | mk role r' =>
        cases role with
        | none =>
          have rest := ih (r := r') (h.bump ahead) behind
          rw [Part.cellRanges, emitCells]
          simp only [next, Roles.assign, Part.ofCell, Tree.callsOf_append, Tree.callsOf_map_leaf]
          rw [List.append_assoc] at rest
          exact rest
        | some kind =>
          have ahead : tokens.drop i = ts ++ (ps.flatMap Part.tokens ++ more) := ahead
          have node := h.emitRange ahead (.cell kind)
          have rest := ih (r := r') (caughtUp_pos tokens { e with
            pos := i + ts.length
            calls := done ++ Tree.callsOf [.node (.cell kind) (ts.map .leaf)] }) behind
          rw [Part.cellRanges, emitCells]
          simp only [next, Roles.assign, Part.ofCell, Tree.callsOf_append]
          rw [List.append_assoc] at rest
          simp only [Option.bind_eq_bind, node, Option.bind_some]
          exact rest
    | comment ts =>
      have noCell : ∀ p ∈ Part.comment ts :: ps, p.isCell = false := by
        refine List.forall_mem_cons.2 ⟨rfl, fun p hp => ?_⟩
        obtain ⟨t, rfl⟩ := left.order p hp
        rfl
      rw [Part.cellRanges_eq_nil i noCell, emitCells, Option.bind_some, h.finishLine left,
        Roles.assign_of_noCell noCell]
      rfl

theorem emitLine {line : LineEntry} {skipped : Nat} {ps : List Part} {more : List Token}
    (h : CaughtUp tokens e i done) (left : line.Remains tokens i ps more)
    (cells : line.cells.drop skipped = Part.cellRanges i ps) (roles : Roles) :
    e.emitLine tokens skipped line roles = some ((roles.assign ps).2, { e with
      pos := line.stop
      rest := e.rest.tail
      calls := done ++ Tree.callsOf (roles.assign ps).1 }) := by
  rw [Emission.emitLine, cells, ← h.emitCells_finishLine left]
  simp only [Option.map_eq_bind]
  rfl

/-- Parts that take no role need no step of their own. -/
theorem bare (h : CaughtUp tokens e i done) {ps : List Part} {more : List Token}
    (noComment : ∀ p ∈ ps, ∀ ts, p ≠ .comment ts)
    (ahead : tokens.drop i = ps.flatMap Part.tokens ++ more) :
    CaughtUp tokens e (i + (ps.flatMap Part.tokens).length)
      (done ++ Tree.callsOf (ps.flatMap Part.bare)) := by
  rw [Tree.callsOf_flatMap_bare noComment]
  exact h.bump ahead

end CaughtUp

/-- The state before some lines, after some calls and errors. -/
structure Stands (tokens : List Token) (e : Emission) (ls : List Line) (done : List BuilderCall)
    (errors : List SyntaxError) : Prop where
  ahead : tokens.drop e.pos = ls.flatMap Line.tokens
  rest : e.rest = LineEntry.ofLines e.pos ls
  ordered : ∀ l ∈ ls, l.IsOrdered
  calls : e.calls = done
  errors : e.errors = errors

namespace Stands

variable {l : Line} {ls : List Line} {errors : List SyntaxError}

theorem caughtUp (h : Stands tokens e ls done errors) : CaughtUp tokens e e.pos done := by
  have here := caughtUp_pos tokens e
  rw [h.calls] at here
  exact here

theorem call (h : Stands tokens e ls done errors) (calls : List BuilderCall) :
    Stands tokens { e with calls := e.calls ++ calls } ls (done ++ calls) errors :=
  ⟨h.ahead, h.rest, h.ordered, by rw [h.calls], h.errors⟩

theorem start (h : Stands tokens e ls done errors) (kind : NodeKind) :
    Stands tokens (e.start kind) ls (done ++ [.start kind]) errors := h.call _

theorem finish (h : Stands tokens e ls done errors) :
    Stands tokens e.finish ls (done ++ [.finish]) errors := h.call _

theorem report (h : Stands tokens e ls done errors) (fault : SyntaxFault) (i : Nat) (m : Line) :
    Stands tokens (e.report fault (LineEntry.ofLine i m)) ls done (errors ++ [⟨fault, m.span⟩]) :=
  ⟨h.ahead, h.rest, h.ordered, h.calls, by rw [Emission.report, h.errors]; rfl⟩

/-- Passing a line. -/
theorem pass (h : Stands tokens e (l :: ls) done errors) {e' : Emission}
    (pos : e'.pos = e.pos + l.tokens.length) (rest : e'.rest = e.rest.tail)
    (same : e'.errors = e.errors) : Stands tokens e' ls e'.calls errors := by
  constructor
  · have ahead := h.ahead
    rw [List.flatMap_cons] at ahead
    rw [pos, Token.drop_add_of_drop ahead]
  · rw [rest, h.rest, pos]
    rfl
  · exact (List.forall_mem_cons.1 h.ordered).2
  · rfl
  · rw [same, h.errors]

/-- All parts of the next line are left. -/
theorem remains (h : Stands tokens e (l :: ls) done errors) :
    (LineEntry.ofLine e.pos l).Remains tokens e.pos l.parts (ls.flatMap Line.tokens) :=
  LineEntry.remains_ofLine (h.ordered l List.mem_cons_self) h.ahead

/-- A line whose cells take no role. -/
theorem finishLine (h : Stands tokens e (l :: ls) done errors) :
    ∃ e', e.finishLine tokens (LineEntry.ofLine e.pos l) = some e' ∧
      Stands tokens e' ls (done ++ Tree.callsOf l.bare) errors :=
  ⟨_, h.caughtUp.finishLine h.remains, h.pass rfl rfl rfl⟩

/-- A line whose cells take roles from the first one on. -/
theorem emitLine (h : Stands tokens e (l :: ls) done errors) (roles : Roles) :
    ∃ e', e.emitLine tokens 0 (LineEntry.ofLine e.pos l) roles =
        some ((roles.assign l.parts).2, e') ∧
      Stands tokens e' ls (done ++ Tree.callsOf (roles.assign l.parts).1) errors :=
  ⟨_, h.caughtUp.emitLine h.remains rfl roles, h.pass rfl rfl rfl⟩

/-- A line whose cells take roles after the first one. -/
theorem emitLine_one (h : Stands tokens e (l :: ls) done errors) (filled : l.isBlank = false)
    (roles : Roles) :
    ∃ e', e.emitLine tokens 1 (LineEntry.ofLine e.pos l) roles =
        some ((roles.assign l.splitAfterFirstCell.2).2, e') ∧
      Stands tokens e' ls
        (done ++ Tree.callsOf (l.splitAfterFirstCell.1.flatMap Part.bare ++
          (roles.assign l.splitAfterFirstCell.2).1)) errors := by
  obtain ⟨mark, rest, split, whole, noComment, oneCell⟩ :=
    (h.ordered l List.mem_cons_self).exists_split filled
  obtain ⟨c, oneCell⟩ := oneCell e.pos
  have left := h.remains
  rw [whole] at left
  have ahead := left.ahead
  rw [List.flatMap_append, List.append_assoc] at ahead
  have cells : (LineEntry.ofLine e.pos l).cells.drop 1 =
      Part.cellRanges (e.pos + (mark.flatMap Part.tokens).length) rest := by
    rw [LineEntry.ofLine, whole, Part.cellRanges_append, oneCell]
    rfl
  have caught := h.caughtUp.bare noComment ahead
  rw [split, Tree.callsOf_append, ← List.append_assoc]
  exact ⟨_, caught.emitLine (left.of_append noComment) cells roles, h.pass rfl rfl rfl⟩

theorem rest_nil (h : Stands tokens e [] done errors) : e.rest = [] := h.rest

theorem rest_cons (h : Stands tokens e (l :: ls) done errors) :
    e.rest = LineEntry.ofLine e.pos l :: LineEntry.ofLines (e.pos + l.tokens.length) ls := h.rest

theorem length_rest (h : Stands tokens e ls done errors) : e.rest.length = ls.length := by
  rw [h.rest, LineEntry.length_ofLines]

/-- Continuation lines are emitted as far as they reach, with the roles that are left. -/
theorem emitContinuations (h : Stands tokens e ls done errors) (roles : Roles) :
    ∃ e', Emission.emitContinuations tokens (roles, e) =
        some (roles.after ((ls.takeWhile Line.isContinuation).flatMap fun l => l.cells.tail), e') ∧
      Stands tokens e' (ls.dropWhile Line.isContinuation)
        (done ++ Tree.callsOf (roles.assignContinuations (ls.takeWhile Line.isContinuation)))
        errors := by
  induction ls generalizing e done roles with
  | nil =>
    refine ⟨e, whileLine_nil h.rest_nil, ?_⟩
    simpa [Roles.assignContinuations, Tree.callsOf] using h
  | cons l ls ih =>
    cases continues : l.isContinuation with
    | false =>
      have no : (LineEntry.ofLine e.pos l).isContinuation = false := by
        rw [LineEntry.isContinuation_ofLine, continues]
      rw [List.takeWhile_cons_of_neg (by simp [continues]),
        List.dropWhile_cons_of_neg (by simp [continues])]
      refine ⟨e, whileLine_stop h.rest_cons no, ?_⟩
      simpa [Roles.assignContinuations, Tree.callsOf] using h
    | true =>
      have yes : (LineEntry.ofLine e.pos l).isContinuation = true := by
        rw [LineEntry.isContinuation_ofLine, continues]
      obtain ⟨e', emitted, after⟩ := h.emitLine_one (Line.isBlank_of_isContinuation continues) roles
      obtain ⟨e'', rest, final⟩ := ih after (roles.assign l.splitAfterFirstCell.2).2
      have fewer : e'.rest.length < e.rest.length := by
        rw [after.length_rest, h.length_rest]
        exact Nat.lt_succ_self _
      have round : Emission.emitContinuations tokens (roles, e) =
          Emission.emitContinuations tokens ((roles.assign l.splitAfterFirstCell.2).2, e') :=
        whileLine_step h.rest_cons yes emitted fewer
      rw [List.takeWhile_cons_of_pos continues, List.dropWhile_cons_of_pos continues]
      refine ⟨e'', ?_, ?_⟩
      · rw [round, rest, Roles.snd_assign, Line.cells_splitAfterFirstCell, List.flatMap_cons,
          Roles.after_append]
      · rw [Roles.assignContinuations, Tree.callsOf_append, ← List.append_assoc]
        exact final

/-- A row passes its lines and becomes the node that parsing makes of it. -/
theorem emitRow (h : Stands tokens e (l :: ls) done errors) (kind : NodeKind) (shape : RowShape) :
    ∃ e', e.emitRow tokens kind shape (LineEntry.ofLine e.pos l) =
        some ((Roles.start shape).after (Row.mk l (ls.takeWhile Line.isContinuation)).cells, e') ∧
      Stands tokens e' (ls.dropWhile Line.isContinuation)
        (done ++ Tree.callsOf
          [.node kind ((Row.mk l (ls.takeWhile Line.isContinuation)).trees shape)]) errors := by
  obtain ⟨e₁, head, first⟩ := (h.start kind).emitLine (.start shape)
  obtain ⟨e₂, rest, last⟩ := first.emitContinuations ((Roles.start shape).assign l.parts).2
  refine ⟨e₂.finish, ?_, ?_⟩
  · rw [pos_start] at head
    rw [Emission.emitRow, head]
    simp only [Option.bind_eq_bind, Option.bind_some]
    rw [rest, Roles.snd_assign, Row.cells, Roles.after_append]
    rfl
  · have final := last.finish
    simpa [Tree.callsOf_singleton, Tree.calls, Row.trees, Tree.callsOf_append] using final

end Stands

end Emission

end RobotAnalysis
