import RobotAnalysis.Proofs.AlignedNames
import RobotAnalysis.Proofs.CheckedVariables

/-!
# The outermost variables of a text

A variable is a sigil and a balanced text in braces, with no backslash before it. Two variables of a
text are nested or apart, as a balanced text closes every brace that it opens. A scan from left to
right therefore finds the ones that are inside no other: it passes a character only where no
variable begins, and the variables that it skips with a token are inside of the token.
-/
namespace RobotAnalysis

namespace Text

variable {depth : Nat} {t s : Text} {c : Char}

/-- Whether a text closes all braces that it opens and `depth` braces that are open before it. -/
structure Settles (depth : Nat) (t : Text) : Prop where
  /-- Nowhere more braces have been closed than opened. -/
  opened : ∀ p, p <+: t → p.count '}' ≤ p.count '{' + depth
  /-- At the end none of the braces is open. -/
  settled : t.count '}' = t.count '{' + depth

/-- Whether the braces of a text close each other. -/
abbrev Balanced (t : Text) : Prop := Settles 0 t

theorem settles_nil_iff : Settles depth [] ↔ depth = 0 := by
  constructor
  · intro h
    simpa using h.settled.symm
  · rintro rfl
    exact ⟨fun p hp => by simp [List.prefix_nil.1 hp], rfl⟩

/-- Whether a text settles is decided one character at a time. -/
theorem settles_cons_iff : Settles depth (c :: t) ↔
    (∀ p, p <+: t → (c :: p).count '}' ≤ (c :: p).count '{' + depth) ∧
      (c :: t).count '}' = (c :: t).count '{' + depth := by
  constructor
  · intro h
    exact ⟨fun p hp => h.opened _ (List.cons_prefix_cons.2 ⟨rfl, hp⟩), h.settled⟩
  · rintro ⟨opened, settled⟩
    refine ⟨fun p hp => ?_, settled⟩
    rcases List.prefix_cons_iff.1 hp with rfl | ⟨q, rfl, hq⟩
    · simp
    · exact opened q hq

theorem settles_open_iff : Settles depth ('{' :: t) ↔ Settles (depth + 1) t := by
  have shift (p : Text) : ('{' :: p).count '}' = p.count '}' ∧
      ('{' :: p).count '{' + depth = p.count '{' + (depth + 1) := by
    rw [List.count_cons_self, List.count_cons_of_ne (by decide)]
    exact ⟨rfl, by omega⟩
  rw [settles_cons_iff]
  simp only [shift]
  exact ⟨fun h => ⟨h.1, h.2⟩, fun h => ⟨h.opened, h.settled⟩⟩

theorem settles_close_iff : Settles (depth + 1) ('}' :: t) ↔ Settles depth t := by
  have shift (p : Text) : ('}' :: p).count '}' = p.count '}' + 1 ∧
      ('}' :: p).count '{' = p.count '{' := by
    rw [List.count_cons_self, List.count_cons_of_ne (by decide)]
    exact ⟨rfl, rfl⟩
  rw [settles_cons_iff]
  simp only [shift, ← Nat.add_assoc, Nat.add_le_add_iff_right, Nat.add_right_cancel_iff]
  exact ⟨fun h => ⟨h.1, h.2⟩, fun h => ⟨h.opened, h.settled⟩⟩

/-- A text that closes a brace first has been given one to close. -/
theorem not_settles_close : ¬ Settles 0 ('}' :: t) := fun h => by
  simpa using h.opened ['}'] (List.cons_prefix_cons.2 ⟨rfl, List.nil_prefix⟩)

theorem settles_cons_of_ne (opening : c ≠ '{') (closing : c ≠ '}') :
    Settles depth (c :: t) ↔ Settles depth t := by
  have shift (p : Text) : (c :: p).count '}' = p.count '}' ∧ (c :: p).count '{' = p.count '{' :=
    ⟨List.count_cons_of_ne closing, List.count_cons_of_ne opening⟩
  rw [settles_cons_iff]
  simp only [shift]
  exact ⟨fun h => ⟨h.1, h.2⟩, fun h => ⟨h.opened, h.settled⟩⟩

/-- Behind any part of a balanced text at least as many braces are closed as opened. -/
theorem Balanced.count_le (h : Balanced (s ++ t)) : t.count '{' ≤ t.count '}' := by
  have before := h.opened s (List.prefix_append s t)
  have whole := h.settled
  rw [List.count_append, List.count_append] at whole
  omega

/-- A balanced text that begins behind an open brace ends before more is closed than opened, so the
brace is closed in any text that closes as much as it opens. -/
theorem Balanced.exists_of_open {behind rest : Text} (h : Balanced s)
    (whole : t ++ rest = '{' :: (s ++ '}' :: behind)) (filled : t ≠ [])
    (closes : t.count '{' ≤ t.count '}') : ∃ u, t = '{' :: (s ++ '}' :: u) := by
  rw [← List.cons_append] at whole
  rcases List.append_eq_append_iff.1 whole with ⟨u, short, -⟩ | ⟨u, long, last⟩
  · obtain ⟨c, t, rfl⟩ := List.exists_cons_of_ne_nil filled
    obtain ⟨rfl, rfl⟩ := List.cons.inj short
    have inner := h.opened t (List.prefix_append t u)
    rw [List.count_cons_self, List.count_cons_of_ne (by decide)] at closes
    omega
  · cases u with
    | nil =>
      have inner := h.settled
      rw [long, List.append_nil, List.count_cons_self, List.count_cons_of_ne (by decide)] at closes
      omega
    | cons c u =>
      obtain ⟨rfl, -⟩ := List.cons.inj last
      exact ⟨u, by rw [long]; rfl⟩

end Text

namespace VariableToken

variable {depth : Nat} {escaped : Bool} {t body name token rest front behind before : Text}

theorem settles_of_closing? (h : closing? depth t = some (body, rest)) :
    ∃ name, Text.Settles depth name ∧ body = name ++ ['}'] ∧ t = name ++ '}' :: rest := by
  induction t generalizing depth body with
  | nil => cases h
  | cons c t ih =>
    have later {d : Nat} (step : ∀ {name}, Text.Settles d name → Text.Settles depth (c :: name))
        (h : ((closing? d t).map fun found => (c :: found.1, found.2)) = some (body, rest)) :
        ∃ name, Text.Settles depth name ∧ body = name ++ ['}'] ∧ c :: t = name ++ '}' :: rest := by
      obtain ⟨⟨inner, r⟩, found, same⟩ := Option.map_eq_some_iff.1 h
      cases same
      obtain ⟨name, settles, rfl, rfl⟩ := ih found
      exact ⟨c :: name, step settles, rfl, rfl⟩
    by_cases opens : c = '{'
    · subst opens
      rw [closing?_brace] at h
      exact later Text.settles_open_iff.2 h
    · by_cases closes : c = '}'
      · subst closes
        cases depth with
        | zero =>
          rw [closing?_zero] at h
          cases h
          exact ⟨[], Text.settles_nil_iff.2 rfl, rfl, rfl⟩
        | succ d =>
          rw [closing?_succ] at h
          exact later Text.settles_close_iff.2 h
      · rw [closing?_of_ne opens closes] at h
        exact later (Text.settles_cons_of_ne opens closes).2 h

theorem closing?_of_settles (h : Text.Settles depth name) (rest : Text) :
    closing? depth (name ++ '}' :: rest) = some (name ++ ['}'], rest) := by
  induction name generalizing depth with
  | nil =>
    obtain rfl := Text.settles_nil_iff.1 h
    exact closing?_zero rest
  | cons c name ih =>
    rw [List.cons_append]
    by_cases opens : c = '{'
    · subst opens
      rw [closing?_brace, ih (Text.settles_open_iff.1 h)]
      rfl
    · by_cases closes : c = '}'
      · subst closes
        cases depth with
        | zero => exact absurd h Text.not_settles_close
        | succ d =>
          rw [closing?_succ, ih (Text.settles_close_iff.1 h)]
          rfl
      · rw [closing?_of_ne opens closes, ih ((Text.settles_cons_of_ne opens closes).1 h)]
        rfl

/-- What a variable looks like: a sigil and a balanced text in braces. -/
def IsVariable (token : Text) : Prop :=
  ∃ sigil name, isSigil sigil = true ∧ Text.Balanced name ∧ token = sigil :: '{' :: (name ++ ['}'])

theorem IsVariable.ne_nil (h : IsVariable token) : token ≠ [] := by
  obtain ⟨sigil, name, -, -, rfl⟩ := h
  exact List.cons_ne_nil _ _

theorem IsVariable.getLast? (h : IsVariable token) (before : Text) :
    (before ++ token).getLast? ≠ some '\\' := by
  obtain ⟨sigil, name, -, -, rfl⟩ := h
  have ends : before ++ sigil :: '{' :: (name ++ ['}']) =
      (before ++ sigil :: '{' :: name) ++ ['}'] := by simp
  rw [ends, List.getLast?_concat]
  decide

/-- A token begins a text where a variable does. -/
theorem atStart?_eq_some_iff :
    atStart? t = some (token, rest) ↔ IsVariable token ∧ t = token ++ rest := by
  constructor
  · intro h
    refine ⟨?_, append_of_atStart? h⟩
    unfold atStart? at h
    split at h
    · split at h
      · rename_i sigil t announces
        obtain ⟨⟨body, r⟩, found, same⟩ := Option.map_eq_some_iff.1 h
        cases same
        obtain ⟨name, balanced, rfl, -⟩ := settles_of_closing? found
        exact ⟨sigil, name, announces, balanced, rfl⟩
      · cases h
    · cases h
  · rintro ⟨⟨sigil, name, announces, balanced, rfl⟩, rfl⟩
    have whole : sigil :: '{' :: (name ++ ['}']) ++ rest =
        sigil :: '{' :: (name ++ '}' :: rest) := by simp
    rw [whole, atStart?_brace announces, closing?_of_settles balanced]
    rfl

theorem unescaped?_eq_some_iff : unescaped? escaped t = some (token, rest) ↔
    escaped = false ∧ IsVariable token ∧ t = token ++ rest := by
  rw [unescaped?]
  cases escaped with
  | true => simp
  | false => simp [atStart?_eq_some_iff]

/-- A variable that begins inside of another one ends there too. -/
theorem IsVariable.inside {inner : Text} (outer : IsVariable (front ++ t)) (begun : front ≠ [])
    (filled : t ≠ []) (variable_ : IsVariable inner) (whole : t ++ rest = inner ++ behind) :
    ∃ u, u ≠ [] ∧ t = inner ++ u := by
  obtain ⟨sigil, name, -, balanced, same⟩ := outer
  obtain ⟨sigil', name', announces, balanced', rfl⟩ := variable_
  obtain ⟨c, front, rfl⟩ := List.exists_cons_of_ne_nil begun
  obtain ⟨d, t, rfl⟩ := List.exists_cons_of_ne_nil filled
  simp only [List.cons_append, List.cons.injEq] at same whole
  obtain ⟨-, same⟩ := same
  obtain ⟨rfl, whole⟩ := whole
  -- Neither brace of the outer variable is the sigil of the inner one.
  have opens : d ≠ '{' := by
    rintro rfl
    cases announces
  have closes : d ≠ '}' := by
    rintro rfl
    cases announces
  cases front with
  | nil => exact absurd (List.cons.inj same).1 opens
  | cons e front =>
    obtain ⟨rfl, tail⟩ := List.cons.inj same
    rcases List.eq_nil_or_concat t with rfl | ⟨t, e, rfl⟩
    · exact absurd (List.cons.inj (List.append_inj' tail rfl).2).1 closes
    · rw [List.concat_eq_append] at tail whole ⊢
      have parts : (front ++ d :: t) ++ [e] = name ++ ['}'] := by simpa using tail
      obtain ⟨rfl, last⟩ := List.append_inj' parts rfl
      cases last
      have bound : t.count '{' ≤ t.count '}' := by
        have bound := balanced.count_le
        rwa [List.count_cons_of_ne opens, List.count_cons_of_ne closes] at bound
      have next : t ++ '}' :: rest = '{' :: (name' ++ '}' :: behind) := by simpa using whole
      have some_left : t ≠ [] := by
        rintro rfl
        cases (List.cons.inj next).1
      obtain ⟨u, rfl⟩ := balanced'.exists_of_open next some_left bound
      exact ⟨u ++ ['}'], by simp, by simp⟩

end VariableToken

/-- Whether a span begins before another one and ends behind it. -/
def Span.Encloses (outer inner : Span) : Prop :=
  outer.start < inner.start ∧ inner.stop < outer.stop

namespace Text

theorem byteSize_pos {t : Text} (h : t ≠ []) : 0 < t.byteSize := by
  obtain ⟨c, rest, rfl⟩ := List.exists_cons_of_ne_nil h
  exact Nat.lt_of_lt_of_le c.utf8Size_pos (Nat.le_add_right _ _)

/-- Whether a variable stands at some bytes of a text. A backslash before it takes its meaning
away. -/
def HasVariable (t : Text) (s : Span) : Prop :=
  ∃ before token after, t = before ++ (token ++ after) ∧ s = ⟨before.byteSize, token.byteSize⟩ ∧
    before.getLast? ≠ some '\\' ∧ VariableToken.IsVariable token

end Text

namespace VariableToken

variable {escaped : Bool} {t token before front behind : Text} {v : VariableToken}

/-- What the scan finds from the end of any of its pieces on is a variable. -/
theorem hasVariable_of_mem_locate (after : escaped = (before.getLast? == some '\\'))
    (h : v ∈ locate before.byteSize (piecesAfter escaped t)) :
    Text.HasVariable (before ++ t) v.span := by
  fun_induction piecesAfter escaped t generalizing before with
  | case1 => cases h
  | case2 escaped c t token rest found ih =>
    obtain ⟨rfl, isVariable, whole⟩ := unescaped?_eq_some_iff.1 found
    rw [whole]
    rcases List.mem_cons.1 h with rfl | h
    · exact ⟨before, token, rest, rfl, rfl, by simpa using after.symm, isVariable⟩
    · have last : (before ++ token).getLast? ≠ some '\\' := isVariable.getLast? before
      rw [← List.append_assoc]
      exact ih (beq_eq_false_iff_ne.2 last).symm (by rwa [Text.byteSize_append])
  | case3 escaped c t unfound ih =>
    rw [← List.singleton_append, ← List.append_assoc]
    exact ih (by simp) (by simpa [locate] using h)

/-- A variable that begins behind the end of any of the pieces of the scan is found by it, or inside
of one that is found. -/
theorem exists_around (after : escaped = (before.getLast? == some '\\'))
    (whole : t = front ++ (token ++ behind)) (live : (before ++ front).getLast? ≠ some '\\')
    (isVariable : IsVariable token) : ∃ v ∈ locate before.byteSize (piecesAfter escaped t),
      v.span = ⟨(before ++ front).byteSize, token.byteSize⟩ ∨
        v.span.Encloses ⟨(before ++ front).byteSize, token.byteSize⟩ := by
  fun_induction piecesAfter escaped t generalizing before front with
  | case1 => simp [isVariable.ne_nil] at whole
  | case2 escaped c t found rest first ih =>
    obtain ⟨rfl, outer, same⟩ := unescaped?_eq_some_iff.1 first
    have later {u : Text} (follows : front = found ++ u) (tail : rest = u ++ (token ++ behind)) :
        ∃ v ∈ locate (before.byteSize + found.byteSize) (piecesAfter false rest),
          v.span = ⟨(before ++ front).byteSize, token.byteSize⟩ ∨
            v.span.Encloses ⟨(before ++ front).byteSize, token.byteSize⟩ := by
      have last : (before ++ found).getLast? ≠ some '\\' := outer.getLast? before
      have next : before ++ front = before ++ found ++ u := by simp [follows]
      rw [next] at live ⊢
      rw [← Text.byteSize_append]
      exact ih (beq_eq_false_iff_ne.2 last).symm tail live
    rw [locate]
    rcases List.append_eq_append_iff.1 (same.symm.trans whole) with
      ⟨u, follows, tail⟩ | ⟨u, begins, tail⟩
    · obtain ⟨v, hv, around⟩ := later follows tail
      exact ⟨v, List.mem_cons_of_mem _ hv, around⟩
    · cases front with
      | nil =>
        have again := unescaped?_eq_some_iff.2 ⟨rfl, isVariable, whole⟩
        rw [first] at again
        cases again
        exact ⟨_, List.mem_cons_self, .inl (by rw [List.append_nil])⟩
      | cons d front =>
        by_cases nothing : u = []
        · subst nothing
          obtain ⟨v, hv, around⟩ := @later [] (by simp [begins]) tail.symm
          exact ⟨v, List.mem_cons_of_mem _ hv, around⟩
        · obtain ⟨w, some_left, rfl⟩ :=
            IsVariable.inside (begins ▸ outer) (List.cons_ne_nil _ _) nothing isVariable tail.symm
          refine ⟨_, List.mem_cons_self, .inr ⟨?_, ?_⟩⟩
          · have pos := Text.byteSize_pos (List.cons_ne_nil d front)
            simp only [Text.byteSize_append]
            omega
          · have pos := Text.byteSize_pos some_left
            simp only [begins, Span.stop, Text.byteSize_append]
            omega
  | case3 escaped c t unfound ih =>
    cases front with
    | nil =>
      have found : unescaped? escaped (c :: t) = some (token, behind) := by
        refine unescaped?_eq_some_iff.2 ⟨?_, isVariable, whole⟩
        rw [after]
        simpa using live
      rw [unfound] at found
      cases found
    | cons d front =>
      obtain ⟨rfl, tail⟩ := List.cons.inj whole
      have next : before ++ c :: front = before ++ [c] ++ front := by simp
      rw [next] at live ⊢
      have around := ih (by simp) tail live
      rwa [Text.byteSize_append before [c]] at around

/-- Tokens lie one behind the other. -/
theorem pairwise_locate (offset : Nat) (ps : List Piece) :
    (locate offset ps).Pairwise fun v w => v.span.stop ≤ w.span.start := by
  induction ps generalizing offset with
  | nil => exact .nil
  | cons p ps ih =>
    cases p with
    | char c => exact ih _
    | token t => exact .cons (fun w hw => le_start_of_mem_locate hw) (ih _)

/-- The places of the variable tokens of a text. -/
abbrev places (t : Text) : List Span := (all t).map span

variable {r s : Span}

theorem hasVariable_of_mem_places (h : s ∈ places t) : t.HasVariable s := by
  obtain ⟨v, hv, rfl⟩ := List.mem_map.1 h
  exact @hasVariable_of_mem_locate false t [] v rfl hv

theorem exists_place_around (h : t.HasVariable s) :
    s ∈ places t ∨ ∃ r ∈ places t, r.Encloses s := by
  obtain ⟨before, token, after, whole, rfl, live, isVariable⟩ := h
  obtain ⟨v, hv, same | around⟩ :=
    @exists_around false t token [] before after rfl whole live isVariable
  · exact .inl (List.mem_map.2 ⟨v, hv, same⟩)
  · exact .inr ⟨v.span, List.mem_map.2 ⟨v, hv, rfl⟩, around⟩

theorem start_lt_stop_of_hasVariable (h : t.HasVariable s) : s.start < s.stop := by
  obtain ⟨before, token, after, -, rfl, -, isVariable⟩ := h
  exact Nat.lt_add_of_pos_right (Text.byteSize_pos isVariable.ne_nil)

theorem pairwise_places (t : Text) : (places t).Pairwise fun r s => r.stop ≤ s.start :=
  List.pairwise_map.2 (pairwise_locate 0 (pieces t))

/-- Of two tokens of a text neither covers the other one. -/
theorem eq_of_covers (hr : r ∈ places t) (hs : s ∈ places t) (covers : r.Covers s) : r = s := by
  have filled := start_lt_stop_of_hasVariable (hasVariable_of_mem_places hs)
  have ordered := pairwise_places t
  obtain ⟨begins, ends⟩ := covers
  obtain ⟨before, behind, split⟩ := List.append_of_mem hr
  rw [split] at ordered hs
  obtain ⟨-, rest, apart⟩ := List.pairwise_append.1 ordered
  rcases List.mem_append.1 hs with first | later
  · have := apart s first r List.mem_cons_self
    omega
  · rcases List.mem_cons.1 later with same | last
    · exact same.symm
    · have := (List.pairwise_cons.1 rest).1 s last
      omega

/-- The tokens of a text lie one behind the other between its characters, and each is a variable. A
variable that is not among them lies inside of one, hence the tokens are the variables that no
other variable covers. A scan of the bytes finds the same ones. -/
theorem places_outermost (t : Text) :
    (places t).Pairwise (fun r s => r.stop ≤ s.start) ∧
    (∀ s ∈ places t, t.IsBoundary s.start ∧ t.IsBoundary s.stop ∧ t.HasVariable s) ∧
    (∀ s, t.HasVariable s → s ∈ places t ∨ ∃ r ∈ places t, r.Encloses s) ∧
    (∀ s, s ∈ places t ↔ t.HasVariable s ∧ ∀ r, t.HasVariable r → r.Covers s → r = s) ∧
    (t.byteSize < UInt32.size → Checked.spans t = some (places t)) := by
  refine ⟨pairwise_places t, fun s hs => ?_, fun s hs => exists_place_around hs,
    fun s => ⟨fun hs => ⟨hasVariable_of_mem_places hs, fun r hr covers => ?_⟩, ?_⟩,
    fun short => spans_eq (fitWords_of_byteSize short)⟩
  · obtain ⟨v, hv, rfl⟩ := List.mem_map.1 hs
    have shown := shows_of_mem_all hv
    exact ⟨shown.start, shown.stop, hasVariable_of_mem_places hs⟩
  · rcases exists_place_around hr with found | ⟨w, hw, around⟩
    · exact eq_of_covers found hs covers
    · have wide : w.Covers s := Span.Covers.trans ⟨around.1.le, around.2.le⟩ covers
      rw [eq_of_covers hw hs wide] at around
      exact absurd covers.1 (Nat.not_le.2 around.1)
  · rintro ⟨hs, outermost⟩
    rcases exists_place_around hs with found | ⟨w, hw, around⟩
    · exact found
    · have same := outermost w (hasVariable_of_mem_places hw) ⟨around.1.le, around.2.le⟩
      exact absurd around.1 (by rw [same]; exact Nat.lt_irrefl _)

end VariableToken

end RobotAnalysis
