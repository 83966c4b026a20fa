import RobotAnalysis.Checked.Variables
import RobotAnalysis.Proofs.CheckedText

/-!
# Variables are found among bytes

Sigils, braces and the backslash are single bytes, and no byte of a longer character looks like one
of them. A scan of bytes therefore finds the tokens that a text falls into, and steps over the bytes
of every other character. Before each closing brace that it counts, a brace is open.
-/
namespace RobotAnalysis

namespace Text

@[simp] theorem bytes_nil : bytes [] = [] := rfl

@[simp] theorem bytes_cons (c : Char) (t : Text) :
    bytes (c :: t) = String.utf8EncodeChar c ++ bytes t := rfl

@[simp] theorem bytes_append (s t : Text) : bytes (s ++ t) = bytes s ++ bytes t :=
  List.flatMap_append

@[simp] theorem length_bytes (t : Text) : t.bytes.length = t.byteSize := by
  induction t with
  | nil => rfl
  | cons c t ih =>
    rw [bytes_cons, List.length_append, String.length_utf8EncodeChar, ih, byteSize_cons]

end Text

namespace Checked

/-! ## Bytes of characters -/

variable {c d : Char} {b : UInt8}

/-- The characters that are single bytes. -/
def IsByte (c : Char) : Prop := c.toNat < 128

instance (c : Char) : Decidable (IsByte c) := inferInstanceAs (Decidable (c.toNat < 128))

theorem toNat_ofUInt8 (b : UInt8) : (Char.ofUInt8 b).toNat = b.toNat := by
  change b.toUInt32.toNat = b.toNat
  exact UInt8.toNat_toUInt32 b

theorem exists_of_isByte (h : IsByte c) :
    ∃ b, String.utf8EncodeChar c = [b] ∧ Char.ofUInt8 b = c := by
  have low : c.val.toNat ≤ 127 := Nat.le_of_lt_succ h
  refine ⟨UInt8.ofNat c.val.toNat, by simp only [String.utf8EncodeChar, if_pos low], ?_⟩
  apply Char.ext
  apply UInt32.toNat_inj.1
  refine (toNat_ofUInt8 _).trans ?_
  rw [UInt8.toNat_ofNat']
  omega

/-- No byte of a longer character is a character by itself. -/
theorem not_isByte_of_mem (h : ¬ IsByte c) (hb : b ∈ String.utf8EncodeChar c) :
    ¬ IsByte (Char.ofUInt8 b) := by
  have high : ¬ c.val.toNat ≤ 127 := fun low => h (Nat.lt_succ_of_le low)
  rw [IsByte, toNat_ofUInt8]
  simp only [String.utf8EncodeChar, high, if_false] at hb
  split at hb
  · simp only [List.mem_cons, List.not_mem_nil, or_false] at hb
    rcases hb with rfl | rfl <;> simp only [UInt8.toNat_ofNat'] <;> omega
  · split at hb
    · simp only [List.mem_cons, List.not_mem_nil, or_false] at hb
      rcases hb with rfl | rfl | rfl <;> simp only [UInt8.toNat_ofNat'] <;> omega
    · simp only [List.mem_cons, List.not_mem_nil, or_false] at hb
      rcases hb with rfl | rfl | rfl | rfl <;> simp only [UInt8.toNat_ofNat'] <;> omega

theorem ofUInt8_ne_of_mem (hb : b ∈ String.utf8EncodeChar c) (single : IsByte d) (other : c ≠ d) :
    Char.ofUInt8 b ≠ d := by
  by_cases h : IsByte c
  · obtain ⟨b', bytes, same⟩ := exists_of_isByte h
    rw [bytes, List.mem_singleton] at hb
    rwa [hb, same]
  · intro same
    exact not_isByte_of_mem h hb (same ▸ single)

theorem isByte_of_isSigil (h : VariableToken.isSigil c = true) : IsByte c := by
  simp only [VariableToken.isSigil, Bool.or_eq_true, beq_iff_eq] at h
  rcases h with ((rfl | rfl) | rfl) | rfl <;> decide

theorem spells_of_mem (hb : b ∈ String.utf8EncodeChar c) (single : IsByte d) (other : c ≠ d) :
    spells b d = false :=
  beq_eq_false_iff_ne.2 (ofUInt8_ne_of_mem hb single other)

theorem spellsSigil_of_mem (hb : b ∈ String.utf8EncodeChar c)
    (other : VariableToken.isSigil c = false) : spellsSigil b = false := by
  by_contra sigil
  have announces : VariableToken.isSigil (Char.ofUInt8 b) = true := by
    simpa [spellsSigil] using sigil
  refine ofUInt8_ne_of_mem hb (isByte_of_isSigil announces) ?_ rfl
  rintro rfl
  rw [announces] at other
  cases other

theorem utf8EncodeChar_ne_nil (c : Char) : String.utf8EncodeChar c ≠ [] := by
  intro nothing
  have size := String.length_utf8EncodeChar c
  rw [nothing] at size
  exact absurd size.symm (Nat.ne_of_gt c.utf8Size_pos)

/-- Whether any of the bytes of a character spells another one is decided by the characters. -/
theorem spells_eq (hb : b ∈ String.utf8EncodeChar c) (single : IsByte d) :
    spells b d = (c == d) := by
  by_cases same : c = d
  · obtain ⟨b', bytes, back⟩ := exists_of_isByte (same ▸ single)
    rw [bytes, List.mem_singleton] at hb
    rw [spells, hb, back]
  · rw [spells_of_mem hb single same, beq_eq_false_iff_ne.2 same]

theorem any_head?_bytes (t : Text) :
    (t.bytes.head?.any fun b => spells b '{') = (t.head? == some '{') := by
  cases t with
  | nil => rfl
  | cons c t =>
    have filled := utf8EncodeChar_ne_nil c
    rw [Text.bytes_cons, List.head?_append_of_ne_nil _ filled, List.head?_eq_some_head filled,
      Option.any_some, spells_eq (List.head_mem filled) (by decide)]
    rfl

/-- The byte before the end of some text is a backslash when the last character is one. -/
theorem any_getLast?_bytes (t : Text) :
    (t.bytes.getLast?.any fun b => spells b '\\') = (t.getLast? == some '\\') := by
  rcases List.eq_nil_or_concat t with rfl | ⟨init, c, rfl⟩
  · rfl
  · have filled := utf8EncodeChar_ne_nil c
    rw [List.concat_eq_append, List.getLast?_concat, Text.bytes_append, Text.bytes_cons,
      Text.bytes_nil, List.append_nil, List.getLast?_append_of_ne_nil _ filled,
      List.getLast?_eq_some_getLast filled, Option.any_some,
      spells_eq (List.getLast_mem filled) (by decide)]
    rfl

/-! ## The closing brace -/

variable {t : Text}

/-- Bytes that are no braces are passed. -/
theorem closing_append {skipped : List UInt8}
    (other : ∀ b ∈ skipped, spells b '{' = false ∧ spells b '}' = false) (index depth : Nat)
    (bytes : List UInt8) :
    closing index depth (skipped ++ bytes) = closing (index + skipped.length) depth bytes := by
  induction skipped generalizing index with
  | nil => rfl
  | cons b skipped ih =>
    have here := other b List.mem_cons_self
    rw [List.cons_append, closing, if_neg (by simp [here.1]), if_neg (by simp [here.2]),
      ih (fun b hb => other b (List.mem_cons_of_mem _ hb)), List.length_cons, Nat.add_right_comm,
      Nat.add_assoc]

/-- After an open brace a further one is always open when a closing one is counted, and the place of
the brace that closes the first one is found. -/
theorem closing_eq (t : Text) (index depth : Nat) :
    closing index (depth + 1) t.bytes =
      some ((VariableToken.closing? depth t).map fun found => index + found.1.byteSize - 1) := by
  induction t generalizing index depth with
  | nil => rfl
  | cons c t ih =>
    have later {d : Nat} {skipped : List UInt8}
        (h : closing index (depth + 1) (skipped ++ Text.bytes t) =
          closing (index + c.utf8Size) (d + 1) (Text.bytes t)) :
        closing index (depth + 1) (skipped ++ Text.bytes t) =
          some (((VariableToken.closing? d t).map fun found => (c :: found.1, found.2)).map
            fun found => index + Text.byteSize found.1 - 1) := by
      rw [h, ih, Option.map_map]
      simp [Function.comp_def, Nat.add_assoc]
    rw [Text.bytes_cons]
    unfold VariableToken.closing?
    by_cases opens : c = '{'
    · subst opens
      rw [if_pos rfl]
      exact later rfl
    · rw [if_neg opens]
      by_cases closes : c = '}'
      · subst closes
        rw [if_pos rfl]
        cases depth with
        | zero => simp [String.utf8EncodeChar]; rfl
        | succ d => exact later rfl
      · rw [if_neg closes]
        refine later ?_
        rw [closing_append, String.length_utf8EncodeChar]
        intro b hb
        exact ⟨spells_of_mem hb (by decide) opens, spells_of_mem hb (by decide) closes⟩

/-! ## The scan -/

variable {front back skipped : List UInt8} {sigil brace : UInt8}

theorem opensAt_eq (front back : List UInt8) (sigil brace : UInt8) :
    opensAt (front ++ sigil :: brace :: back) front.length =
      some (spellsSigil sigil && spells brace '{' &&
        !(front.getLast?.any fun b => spells b '\\')) := by
  have escaped : isEscaped (front ++ sigil :: brace :: back) front.length =
      some (front.getLast?.any fun b => spells b '\\') := by
    rcases List.eq_nil_or_concat front with rfl | ⟨init, last, rfl⟩
    · rfl
    · simp [isEscaped, sub]
  simp [opensAt, escaped]

/-- A byte where no variable begins is passed. -/
theorem spansFrom_next (h : ¬ (spellsSigil sigil = true ∧ back.head?.any (spells · '{') = true ∧
      (front.getLast?.any fun b => spells b '\\') = false)) :
    spansFrom (front ++ sigil :: back) front.length =
      spansFrom (front ++ sigil :: back) (front ++ [sigil]).length := by
  cases back with
  | nil =>
    rw [spansFrom, if_neg (by simp), spansFrom, if_neg (by simp)]
  | cons brace back =>
    have closed : opensAt (front ++ sigil :: brace :: back) front.length = some false := by
      rw [opensAt_eq]
      simpa [Bool.and_assoc] using h
    rw [spansFrom, if_pos (by simp), closed, List.length_append]
    rfl

/-- Bytes that announce no variable are passed. -/
theorem spansFrom_append (other : ∀ b ∈ skipped, spellsSigil b = false) (front : List UInt8) :
    spansFrom (front ++ (skipped ++ back)) front.length =
      spansFrom (front ++ (skipped ++ back)) (front ++ skipped).length := by
  induction skipped generalizing front with
  | nil => rw [List.append_nil]
  | cons b skipped ih =>
    have here := other b List.mem_cons_self
    have rest := ih (fun b hb => other b (List.mem_cons_of_mem _ hb)) (front ++ [b])
    rw [List.cons_append, spansFrom_next (by simp [here])]
    simpa using rest

theorem spansFrom_open {bytes : List UInt8} {place : Nat} (long : place + 1 < bytes.length)
    (opens : opensAt bytes place = some true)
    (unclosed : closing (place + 1) 0 (bytes.drop (place + 1)) = some none) :
    spansFrom bytes place = spansFrom bytes (place + 1) := by
  rw [spansFrom, if_pos long, opens]
  simp only
  split
  · rename_i found
    rw [unclosed] at found
    cases found
  · rfl
  · rename_i found
    rw [unclosed] at found
    cases found

theorem spansFrom_token {bytes : List UInt8} {place stop : Nat} (long : place + 1 < bytes.length)
    (opens : opensAt bytes place = some true)
    (closed : closing (place + 1) 0 (bytes.drop (place + 1)) = some (some stop))
    (short : stop + 1 < UInt32.size) (ordered : place ≤ stop + 1) :
    spansFrom bytes place =
      (spansFrom bytes (stop + 1)).map (.between place (stop + 1) :: ·) := by
  rw [spansFrom, if_pos long, opens]
  simp only
  split
  · rename_i found
    rw [closed] at found
    cases found
  · rename_i found
    rw [closed] at found
    cases found
  · rename_i found
    rw [closed] at found
    cases found
    simp only [word_eq short, word_eq (Nat.lt_of_le_of_lt ordered short), range_eq ordered,
      Option.bind_eq_bind, Option.bind_some]
    cases spansFrom bytes (stop + 1) <;> rfl

/-- A sigil before an open brace begins a token, unless a backslash stands before it, and the token
ends at the brace that closes the open one. -/
theorem opensAt_bytes (sigil : VariableToken.isSigil c = true) (before t : Text) :
    opensAt (Text.bytes (before ++ c :: '{' :: t)) before.byteSize =
      some (!(before.getLast? == some '\\')) := by
  obtain ⟨b, bytes, rfl⟩ := exists_of_isByte (isByte_of_isSigil sigil)
  have whole : Text.bytes (before ++ Char.ofUInt8 b :: '{' :: t) =
      before.bytes ++ b :: '{'.toUInt8 :: t.bytes := by
    simp [bytes]
    rfl
  have opens : spells '{'.toUInt8 '{' = true := by decide
  rw [whole, ← Text.length_bytes, opensAt_eq, any_getLast?_bytes, spellsSigil, sigil, opens]
  rfl

theorem closing_bytes (sigil : VariableToken.isSigil c = true) (before t : Text) :
    closing (before.byteSize + 1) 0
        ((Text.bytes (before ++ c :: '{' :: t)).drop (before.byteSize + 1)) =
      some ((VariableToken.closing? 0 t).map fun found =>
        before.byteSize + 1 + 1 + Text.byteSize found.1 - 1) := by
  obtain ⟨b, bytes, -⟩ := exists_of_isByte (isByte_of_isSigil sigil)
  have whole : Text.bytes (before ++ c :: '{' :: t) =
      (before.bytes ++ [b]) ++ '{'.toUInt8 :: t.bytes := by
    simp [bytes]
    rfl
  have place : before.byteSize + 1 = (before.bytes ++ [b]).length := by simp
  rw [whole, place, List.drop_left, closing, if_pos (by decide), closing_eq]

theorem utf8Size_of_isByte (h : IsByte c) : c.utf8Size = 1 := by
  obtain ⟨b, bytes, -⟩ := exists_of_isByte h
  rw [← String.length_utf8EncodeChar, bytes]
  rfl

theorem byteSize_opening (sigil : VariableToken.isSigil c = true) (t : Text) :
    Text.byteSize (c :: '{' :: t) = 1 + 1 + t.byteSize := by
  rw [Text.byteSize_cons, Text.byteSize_cons, utf8Size_of_isByte (isByte_of_isSigil sigil),
    utf8Size_of_isByte (by decide), Nat.add_assoc]

theorem lt_length_bytes (sigil : VariableToken.isSigil c = true) (before t : Text) :
    before.byteSize + 1 < (Text.bytes (before ++ c :: '{' :: t)).length := by
  rw [Text.length_bytes, Text.byteSize_append, byteSize_opening sigil]
  omega

theorem exists_of_unescaped? {escaped : Bool} {t token rest : Text}
    (h : VariableToken.unescaped? escaped (c :: t) = some (token, rest)) :
    escaped = false ∧ VariableToken.isSigil c = true ∧ ∃ u body, t = '{' :: u ∧
      VariableToken.closing? 0 u = some (body, rest) ∧ token = c :: '{' :: body := by
  unfold VariableToken.unescaped? at h
  split at h
  · cases h
  · rename_i live
    unfold VariableToken.atStart? at h
    split at h
    · rename_i c' u same
      cases same
      split at h
      · rename_i sigil
        obtain ⟨⟨body, rest'⟩, closed, whole⟩ := Option.map_eq_some_iff.1 h
        cases whole
        exact ⟨Bool.eq_false_iff.2 live, sigil, u, body, rfl, closed, rfl⟩
      · cases h
    · cases h

/-- Where no token begins, the scan passes a character. -/
theorem spansFrom_char {escaped : Bool} {before t : Text}
    (after : escaped = (before.getLast? == some '\\'))
    (unfound : VariableToken.unescaped? escaped (c :: t) = none) :
    spansFrom (Text.bytes (before ++ c :: t)) before.byteSize =
      spansFrom (Text.bytes (before ++ c :: t)) (before ++ [c]).byteSize := by
  by_cases sigil : VariableToken.isSigil c = true
  · obtain ⟨b, bytes, same⟩ := exists_of_isByte (isByte_of_isSigil sigil)
    have whole : Text.bytes (before ++ c :: t) = before.bytes ++ b :: t.bytes := by simp [bytes]
    have next : (before ++ [c]).byteSize = before.byteSize + 1 := by
      simp [utf8Size_of_isByte (isByte_of_isSigil sigil)]
    by_cases live : t.head? = some '{' ∧ escaped = false
    · obtain ⟨begins, rfl⟩ := live
      obtain ⟨u, rfl⟩ := List.head?_eq_some_iff.1 begins
      have unclosed : VariableToken.closing? 0 u = none := by
        simpa [VariableToken.unescaped?, VariableToken.atStart?, sigil] using unfound
      have opens := opensAt_bytes sigil before u
      have closes := closing_bytes sigil before u
      rw [← after] at opens
      rw [unclosed] at closes
      rw [next]
      exact spansFrom_open (lt_length_bytes sigil before u) opens closes
    · have harmless : ¬ (spellsSigil b = true ∧ t.bytes.head?.any (spells · '{') = true ∧
          (before.bytes.getLast?.any fun b => spells b '\\') = false) := by
        rw [any_head?_bytes, any_getLast?_bytes, ← after]
        simpa using fun _ => not_and.1 live
      rw [whole, next]
      simpa using spansFrom_next harmless
  · have harmless : ∀ b ∈ String.utf8EncodeChar c, spellsSigil b = false :=
      fun b hb => spellsSigil_of_mem hb (Bool.eq_false_iff.2 sigil)
    simpa using spansFrom_append harmless before.bytes

/-- The scan finds the tokens of a text, from the end of any of its pieces on. -/
theorem spansFrom_eq (escaped : Bool) (rest before : Text)
    (after : escaped = (before.getLast? == some '\\'))
    (short : ∀ v ∈ VariableToken.locate before.byteSize (VariableToken.piecesAfter escaped rest),
      v.span.stop < UInt32.size) :
    spansFrom (Text.bytes (before ++ rest)) before.byteSize =
      some ((VariableToken.locate before.byteSize
        (VariableToken.piecesAfter escaped rest)).map VariableToken.span) := by
  fun_induction VariableToken.piecesAfter escaped rest generalizing before with
  | case1 =>
    rw [spansFrom, if_neg (by simp)]
    rfl
  | case2 escaped c t token rest found ih =>
    obtain ⟨rfl, sigil, u, body, rfl, closed, rfl⟩ := exists_of_unescaped? found
    have size := byteSize_opening sigil body
    have stop : before.byteSize + 1 + 1 + body.byteSize - 1 + 1 =
        before.byteSize + Text.byteSize (c :: '{' :: body) := by omega
    have last : (before ++ c :: '{' :: body).getLast? ≠ some '\\' := by
      obtain ⟨init, rfl⟩ := List.getLast?_eq_some_iff.1 (VariableToken.getLast?_of_closing? closed)
      have ends : before ++ c :: '{' :: (init ++ ['}']) =
          (before ++ c :: '{' :: init) ++ ['}'] := by simp
      rw [ends, List.getLast?_concat]
      decide
    have moved := ih (before ++ c :: '{' :: body) (beq_eq_false_iff_ne.2 last).symm
      (by simpa [VariableToken.locate] using fun v hv => short v (List.mem_cons_of_mem _ hv))
    have here := short _ List.mem_cons_self
    have opens := opensAt_bytes sigil before u
    have closes := closing_bytes sigil before u
    rw [← after] at opens
    rw [closed, Option.map_some] at closes
    rw [spansFrom_token (lt_length_bytes sigil before u) opens closes
      (Nat.lt_of_le_of_lt (Nat.le_of_eq stop) here) (by simp only; omega)]
    have whole : before ++ c :: '{' :: u = before ++ c :: '{' :: body ++ rest := by
      rw [VariableToken.append_of_closing? closed]
      simp
    simp only [stop]
    rw [whole, VariableToken.locate, ← Text.byteSize_append, moved, Option.map_some]
    simp [Span.between]
  | case3 escaped c t unfound ih =>
    have size : (before ++ [c]).byteSize = before.byteSize + c.utf8Size := by simp
    have moved := ih (before ++ [c]) (by simp) (by simpa [size, VariableToken.locate] using short)
    rw [List.append_assoc, List.singleton_append, size] at moved
    rw [VariableToken.locate, ← moved, ← size]
    exact spansFrom_char after unfound

end Checked

namespace VariableToken

variable {t : Text}

/-- Whether the variable tokens of a text stop at offsets that are words. -/
def FitWords (t : Text) : Prop := ∀ v ∈ all t, v.span.stop < UInt32.size

theorem fitWords_of_byteSize (h : t.byteSize < UInt32.size) : FitWords t := fun _ hv =>
  Nat.lt_of_le_of_lt (shows_of_mem_all hv).stop_le h

/-- A text without open braces has no variables. -/
theorem fitWords_of_notMem (h : '{' ∉ t) : FitWords t := by
  intro v hv
  obtain ⟨c, name, -, token⟩ := isToken_of_mem_all hv
  obtain ⟨before, after, whole, -⟩ := shows_of_mem_all hv
  exact absurd (by simp [whole, token]) h

/-- The tokens of a text are found among its bytes. -/
theorem spans_eq (fits : FitWords t) : Checked.spans t = some ((all t).map span) :=
  Checked.spansFrom_eq false t [] rfl fits

end VariableToken

end RobotAnalysis
