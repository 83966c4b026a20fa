import Mathlib.Data.List.SplitBy
import RobotAnalysis.Sequence
import RobotAnalysis.Token

/-!
# The pieces of a line

Cells and comments can be read off the characters of a line, with no tokens at all. The line is cut
at every run of blanks that is longer than one character or has a tab in it, a single space is taken
off each end of a piece, and empty pieces are dropped. A piece that begins with `#` begins the
comment; the pieces before it are the cells.

The characters carry their offsets, so that equal pieces are at the same place.
-/
namespace RobotAnalysis

/-- A text with the offset at which each of its characters begins. -/
abbrev PlacedText := List (Nat × Char)

/-- A text whose first character is at `offset`. -/
def Text.place (offset : Nat) : Text → PlacedText
  | [] => []
  | c :: t => (offset, c) :: place (offset + c.utf8Size) t

namespace PlacedText

/-- The lines of a text. Each ends with a line feed, the last one perhaps without. -/
def lines : PlacedText → List PlacedText
  | [] => []
  | c :: t =>
    if c.2 = '\n' then [c] :: lines t
    else
      match lines t with
      | [] => [[c]]
      | l :: ls => (c :: l) :: ls

/-- A line without its line break, which is a line feed with the carriage return before it if there
is one. -/
def content (line : PlacedText) : PlacedText :=
  match line.reverse with
  | (_, '\n') :: (_, '\r') :: front => front.reverse
  | (_, '\n') :: front => front.reverse
  | _ => line

/-- Whether a character is a space or a tab. -/
def isBlank (c : Nat × Char) : Bool := Token.isGap c.2

/-- The longest stretches of blanks only, or of other characters only. -/
def runs (line : PlacedText) : List PlacedText :=
  line.splitBy fun c d => isBlank c == isBlank d

/-- Whether a line is cut at a run: it is made of two or more blanks, or of blanks with a tab among
them. -/
def cuts (run : PlacedText) : Bool :=
  run.all isBlank && (decide (2 ≤ run.length) || run.any fun c => c.2 == '\t')

/-- What is left of a line when it is cut. -/
def pieces (line : PlacedText) : List PlacedText :=
  (Sequence.splitBy cuts (runs line)).map List.flatten

/-- A piece without the space at its front. -/
def stripFront : PlacedText → PlacedText
  | (_, ' ') :: t => t
  | t => t

/-- A piece without the spaces at its two ends. -/
def strip (piece : PlacedText) : PlacedText := (stripFront (stripFront piece).reverse).reverse

/-- The pieces of a line that are not empty. -/
def filled (line : PlacedText) : List PlacedText :=
  ((pieces line).map strip).filter fun p => !p.isEmpty

/-- Whether a piece begins with the mark of a comment. -/
def isMarked (piece : PlacedText) : Bool := piece.head?.any fun c => c.2 == '#'

def cells (line : PlacedText) : List PlacedText := (filled line).takeWhile fun p => !isMarked p

/-- The mark at which the comment of a line begins. -/
def mark? (line : PlacedText) : Option (Nat × Char) :=
  ((filled line).find? isMarked).bind List.head?

/-- A line from a mark to its last character that is no blank. -/
def tail (line : PlacedText) (mark : Nat × Char) : PlacedText :=
  Sequence.dropTrailing isBlank (line.dropWhile fun c => decide (c.1 < mark.1))

def comment? (line : PlacedText) : Option PlacedText := (mark? line).map (tail line)

end PlacedText

namespace Text

theorem place_append (offset : Nat) (s t : Text) :
    place offset (s ++ t) = place offset s ++ place (offset + s.byteSize) t := by
  induction s generalizing offset with
  | nil => rfl
  | cons c s ih =>
    rw [List.cons_append, place, place, ih, byteSize_cons, Nat.add_assoc, List.cons_append]

theorem map_snd_place (offset : Nat) (t : Text) : (place offset t).map Prod.snd = t := by
  induction t generalizing offset with
  | nil => rfl
  | cons c t ih => rw [place, List.map_cons, ih]

theorem place_ne_nil {t : Text} (offset : Nat) (h : t ≠ []) : place offset t ≠ [] := by
  cases t with
  | nil => exact absurd rfl h
  | cons c t => exact List.cons_ne_nil _ _

/-- The characters of a placed text are those of the text. -/
theorem snd_mem_of_mem_place {offset : Nat} {t : Text} {c : Nat × Char} (h : c ∈ place offset t) :
    c.2 ∈ t := by
  have mem := List.mem_map_of_mem (f := Prod.snd) h
  rwa [map_snd_place] at mem

/-- Offsets are inside the bytes of a text. -/
theorem fst_of_mem_place {offset : Nat} {t : Text} {c : Nat × Char} (h : c ∈ place offset t) :
    offset ≤ c.1 ∧ c.1 < offset + t.byteSize := by
  induction t generalizing offset with
  | nil => cases h
  | cons d t ih =>
    have pos := d.utf8Size_pos
    rw [place] at h
    rw [byteSize_cons]
    rcases List.mem_cons.1 h with rfl | h
    · show offset ≤ offset ∧ offset < _
      omega
    · have inside := ih h
      omega

/-- The first character is at the offset of the text. -/
theorem head?_place {offset : Nat} {t : Text} {c : Nat × Char} (h : c ∈ (place offset t).head?) :
    t.head? = some c.2 ∧ c.1 = offset := by
  cases t with
  | nil => cases h
  | cons d t =>
    obtain rfl := Option.some.inj h
    exact ⟨rfl, rfl⟩

end Text

namespace PlacedText

/-! ## Lines -/

theorem flatten_lines (t : PlacedText) : (lines t).flatten = t := by
  induction t with
  | nil => rfl
  | cons c t ih =>
    rw [lines]
    split
    · rw [List.flatten_cons, ih, List.singleton_append]
    · cases found : lines t with
      | nil =>
        rw [found] at ih
        rw [← ih]
        rfl
      | cons l ls =>
        rw [found, List.flatten_cons] at ih
        show ((c :: l) :: ls).flatten = c :: t
        rw [List.flatten_cons, List.cons_append, ih]

theorem lines_append_feed {l : PlacedText} {feed : Nat × Char} (isFeed : feed.2 = '\n')
    (noFeed : ∀ c ∈ l, c.2 ≠ '\n') (t : PlacedText) :
    lines (l ++ feed :: t) = (l ++ [feed]) :: lines t := by
  induction l with
  | nil => rw [List.nil_append, lines, if_pos isFeed, List.nil_append]
  | cons c l ih =>
    obtain ⟨first, others⟩ := List.forall_mem_cons.1 noFeed
    rw [List.cons_append, lines, if_neg first, ih others]
    rfl

theorem lines_of_noFeed {l : PlacedText} (some : l ≠ []) (noFeed : ∀ c ∈ l, c.2 ≠ '\n') :
    lines l = [l] := by
  induction l with
  | nil => exact absurd rfl some
  | cons c l ih =>
    obtain ⟨first, others⟩ := List.forall_mem_cons.1 noFeed
    rw [lines, if_neg first]
    cases l with
    | nil => rfl
    | cons d l => rw [ih (List.cons_ne_nil _ _) others]

/-! ## Line breaks -/

theorem content_of_noFeed {l : PlacedText} (noFeed : ∀ c ∈ l, c.2 ≠ '\n') : content l = l := by
  unfold content
  split
  · rename_i offset _ _ reversed
    exact absurd rfl (noFeed (offset, '\n') (List.mem_reverse.1 (by simp [reversed])))
  · rename_i offset _ _ reversed
    exact absurd rfl (noFeed (offset, '\n') (List.mem_reverse.1 (by simp [reversed])))
  · rfl

theorem content_append_feed {l : PlacedText} (offset : Nat)
    (unpaired : ∀ c ∈ l.getLast?, c.2 ≠ '\r') : content (l ++ [(offset, '\n')]) = l := by
  rw [content, List.reverse_append]
  cases reversed : l.reverse with
  | nil =>
    obtain rfl := List.reverse_eq_nil_iff.1 reversed
    rfl
  | cons c front =>
    have last : l.getLast? = some c := by rw [← List.head?_reverse, reversed]; rfl
    obtain ⟨place, char⟩ := c
    have notReturn : char ≠ '\r' := unpaired _ last
    have back : (⟨place, char⟩ :: front).reverse = l := by rw [← reversed, List.reverse_reverse]
    rw [List.reverse_singleton, List.singleton_append]
    split
    · rename_i same
      cases same
      exact absurd rfl notReturn
    · rename_i same
      cases same
      exact back
    · rename_i other
      exact absurd rfl (other offset _)

theorem content_append_break (l : PlacedText) (offset offset' : Nat) :
    content (l ++ [(offset, '\r'), (offset', '\n')]) = l := by
  rw [content, List.reverse_append]
  show l.reverse.reverse = l
  exact List.reverse_reverse l

/-! ## Pieces -/

variable {line rest run : PlacedText} {c : Nat × Char}

/-- Runs do not go beyond a place where a blank stands next to another character. -/
theorem runs_append {l m : PlacedText}
    (apart : ∀ c ∈ l.getLast?, ∀ d ∈ m.head?, isBlank c ≠ isBlank d) :
    runs (l ++ m) = runs l ++ runs m :=
  List.splitBy_append fun c hc d hd => beq_false_of_ne (apart c hc d hd)

/-- Characters of one sort are one run. -/
theorem runs_of_uniform {l : PlacedText} {blank : Bool} (some : l ≠ [])
    (uniform : ∀ c ∈ l, isBlank c = blank) : runs l = [l] := by
  refine List.splitBy_of_isChain some (List.isChain_iff_forall_rel_of_append_cons_cons.2 ?_)
  rintro c d front back rfl
  rw [uniform c (by simp), uniform d (by simp)]
  exact beq_self_eq_true blank

theorem ne_space_of_not_blank (h : isBlank c = false) : c.2 ≠ ' ' := by
  intro space
  rw [isBlank, space] at h
  cases h

/-- A run that is not cut belongs to the piece that goes on behind it. -/
theorem pieces_append_run {l m : PlacedText} {blank : Bool} (uniform : ∀ c ∈ l, isBlank c = blank)
    (kept : cuts l = false) (apart : ∀ c ∈ l.getLast?, ∀ d ∈ m.head?, isBlank c ≠ isBlank d) :
    pieces (l ++ m) = (pieces m).modifyHead (l ++ ·) := by
  by_cases some : l = []
  · rw [some]
    show pieces m = (pieces m).modifyHead id
    rw [List.modifyHead_id, id]
  · rw [pieces, runs_append apart, runs_of_uniform some uniform, List.singleton_append,
      Sequence.splitBy_cons_of_neg kept, pieces]
    cases Sequence.splitBy cuts (runs m) <;> rfl

theorem isBlank_of_cuts (h : cuts run = true) : ∀ c ∈ run, isBlank c = true := by
  rw [cuts, Bool.and_eq_true] at h
  exact List.all_eq_true.1 h.1

/-- A line is cut at the blanks in front of it. -/
theorem pieces_append_cut (h : cuts run = true) (ends : ∀ d ∈ rest.head?, isBlank d = false) :
    pieces (run ++ rest) = [] :: pieces rest := by
  have blank := isBlank_of_cuts h
  have some : run ≠ [] := by
    rintro rfl
    cases h
  have apart : ∀ c ∈ run.getLast?, ∀ d ∈ rest.head?, isBlank c ≠ isBlank d := by
    intro c hc d hd
    rw [blank c (List.mem_of_getLast? hc), ends d hd]
    decide
  rw [pieces, runs_append apart, runs_of_uniform some blank, List.singleton_append,
    Sequence.splitBy, if_pos h]
  rfl

/-- A single space belongs to the piece behind it. -/
theorem pieces_cons_space (offset : Nat) (ends : ∀ d ∈ rest.head?, isBlank d = false) :
    pieces ((offset, ' ') :: rest) = (pieces rest).modifyHead ((offset, ' ') :: ·) := by
  have blank : ∀ c ∈ [(offset, ' ')], isBlank c = true := by
    intro c hc
    rw [List.mem_singleton.1 hc]
    rfl
  refine pieces_append_run blank rfl fun c hc d hd => ?_
  rw [blank c (List.mem_of_getLast? hc), ends d hd]
  decide

theorem cuts_of_words {l : PlacedText} (words : ∀ c ∈ l, isBlank c = false) : cuts l = false := by
  cases l with
  | nil => rfl
  | cons c l => rw [cuts, List.all_cons, words c List.mem_cons_self, Bool.false_and, Bool.false_and]

/-- Characters that are no blanks belong to the piece behind them. -/
theorem pieces_append_words {l : PlacedText} (words : ∀ c ∈ l, isBlank c = false)
    (rest : PlacedText) : pieces (l ++ rest) = (pieces rest).modifyHead (l ++ ·) := by
  -- The run of these characters may go on behind them, up to the next blank.
  let more := rest.takeWhile fun c => !isBlank c
  let behind := rest.dropWhile fun c => !isBlank c
  have whole : more ++ behind = rest := List.takeWhile_append_dropWhile
  have noBlank : ∀ c ∈ more, isBlank c = false := by
    intro c hc
    simpa using List.all_eq_true.1 List.all_takeWhile c hc
  have ends : ∀ d ∈ behind.head?, isBlank d = true := by
    intro d hd
    have stops := List.head?_dropWhile_not (fun c => !isBlank c) rest
    rw [Option.mem_def.1 hd] at stops
    simpa using stops
  have passed {m : PlacedText} (h : ∀ c ∈ m, isBlank c = false) :
      pieces (m ++ behind) = (pieces behind).modifyHead (m ++ ·) := by
    refine pieces_append_run h (cuts_of_words h) fun c hc d hd => ?_
    rw [h c (List.mem_of_getLast? hc), ends d hd]
    decide
  have both : ∀ c ∈ l ++ more, isBlank c = false := by
    intro c hc
    exact (List.mem_append.1 hc).elim (words c) (noBlank c)
  rw [← whole, ← List.append_assoc, passed both, passed noBlank, List.modifyHead_modifyHead]
  congr 1
  funext piece
  exact List.append_assoc l more piece

/-! ## Strips -/

theorem stripFront_of_ne {l : PlacedText} (h : ∀ c ∈ l.head?, c.2 ≠ ' ') : stripFront l = l := by
  unfold stripFront
  split
  · exact absurd rfl (h _ rfl)
  · rfl

/-- The space in front of a piece makes no difference. -/
theorem strip_cons_space {piece : PlacedText} (offset : Nat) (h : ∀ c ∈ piece.head?, c.2 ≠ ' ') :
    strip ((offset, ' ') :: piece) = strip piece := by
  show (stripFront piece.reverse).reverse = strip piece
  rw [strip, stripFront_of_ne h]

variable {piece : PlacedText}

/-- A piece with other characters at its ends stays as it is. -/
theorem strip_of_ne (first : ∀ c ∈ piece.head?, c.2 ≠ ' ')
    (last : ∀ c ∈ piece.getLast?, c.2 ≠ ' ') :
    strip piece = piece := by
  have back : stripFront piece.reverse = piece.reverse := by
    apply stripFront_of_ne
    rw [List.head?_reverse]
    exact last
  rw [strip, stripFront_of_ne first, back, List.reverse_reverse]

/-- The space behind a piece is taken off. -/
theorem strip_append_space (offset : Nat) (some : piece ≠ [])
    (first : ∀ c ∈ piece.head?, c.2 ≠ ' ') : strip (piece ++ [(offset, ' ')]) = piece := by
  have front : ∀ c ∈ (piece ++ [(offset, ' ')]).head?, c.2 ≠ ' ' := by
    rw [List.head?_append_of_ne_nil _ some]
    exact first
  rw [strip, stripFront_of_ne front, List.reverse_append]
  exact List.reverse_reverse piece

/-- A piece still begins with a first character that is no space. -/
theorem head?_strip (h : c.2 ≠ ' ') (piece : PlacedText) : (strip (c :: piece)).head? = some c := by
  have front : stripFront (c :: piece) = c :: piece := by
    apply stripFront_of_ne
    rintro _ ⟨⟩
    exact h
  rw [strip, front]
  cases reversed : (c :: piece).reverse with
  | nil => cases List.reverse_eq_nil_iff.1 reversed
  | cons d back =>
    have whole : back.reverse ++ [d] = c :: piece := by
      rw [← List.reverse_cons, ← reversed, List.reverse_reverse]
    by_cases space : d.2 = ' '
    · -- Something is left in front of the space, since the first character is none.
      have left : stripFront (d :: back) = back := by
        obtain ⟨place, char⟩ := d
        obtain rfl : char = ' ' := space
        rfl
      rw [left]
      cases front : back.reverse with
      | nil =>
        rw [front] at whole
        obtain ⟨rfl, -⟩ := List.cons.inj whole
        exact absurd space h
      | cons e more =>
        rw [front] at whole
        exact congrArg some (List.cons.inj whole).1
    · have kept : stripFront (d :: back) = d :: back := by
        apply stripFront_of_ne
        rintro _ ⟨⟩
        exact space
      rw [kept, List.reverse_cons, whole]
      rfl

/-! ## Pieces that are not empty -/

/-- Nothing is left of the blanks at which a line is cut. -/
theorem filled_append_cut (h : cuts run = true) (ends : ∀ d ∈ rest.head?, isBlank d = false) :
    filled (run ++ rest) = filled rest := by
  rw [filled, pieces_append_cut h ends, List.map_cons]
  exact List.filter_cons_of_neg (by decide)

/-- The first piece that is not empty begins with a first character that is no blank. -/
theorem exists_filled_cons (h : isBlank c = false) (rest : PlacedText) :
    ∃ piece more, filled (c :: rest) = piece :: more ∧ piece.head? = some c := by
  have word : ∀ d ∈ [c], isBlank d = false := by
    intro d hd
    rw [List.mem_singleton.1 hd]
    exact h
  have notSpace : c.2 ≠ ' ' := ne_space_of_not_blank h
  obtain ⟨piece, more, cut⟩ : ∃ piece more, pieces rest = piece :: more :=
    List.exists_cons_of_ne_nil fun none => Sequence.splitBy_ne_nil _ _ (List.map_eq_nil_iff.1 none)
  have begins := head?_strip notSpace piece
  have whole : pieces (c :: rest) = (c :: piece) :: more := by
    rw [← List.singleton_append, pieces_append_words word, cut]
    rfl
  refine ⟨strip (c :: piece), (more.map strip).filter fun p => !p.isEmpty, ?_, begins⟩
  have some : strip (c :: piece) ≠ [] := by
    intro none
    rw [none] at begins
    cases begins
  rw [filled, whole, List.map_cons]
  exact List.filter_cons_of_pos (by simpa using some)

/-- A single space in front of a line makes no difference. -/
theorem filled_cons_space (offset : Nat) (ends : ∀ d ∈ rest.head?, isBlank d = false) :
    filled ((offset, ' ') :: rest) = filled rest := by
  rw [filled, pieces_cons_space offset ends, filled]
  cases rest with
  | nil => rfl
  | cons d rest =>
    have word : ∀ e ∈ [d], isBlank e = false := by
      intro e he
      rw [List.mem_singleton.1 he]
      exact ends d rfl
    rw [← List.singleton_append, pieces_append_words word]
    cases pieces rest with
    | nil => rfl
    | cons piece more =>
      have notSpace : ∀ e ∈ (d :: piece).head?, e.2 ≠ ' ' := by
        rintro _ ⟨⟩
        exact ne_space_of_not_blank (ends d rfl)
      show ((strip ((offset, ' ') :: d :: piece)) :: more.map strip).filter _ =
        ((strip (d :: piece)) :: more.map strip).filter _
      rw [strip_cons_space offset notSpace]

/-- What ends with no blank is a piece, if a cut or nothing but a space comes behind it. -/
theorem filled_append {l behind : PlacedText}
    (joined : pieces (l ++ behind) = (pieces behind).modifyHead (l ++ ·)) (some : l ≠ [])
    (first : ∀ c ∈ l.head?, c.2 ≠ ' ') (last : ∀ c ∈ l.getLast?, c.2 ≠ ' ')
    (ends : (∃ more, pieces behind = [] :: more) ∨ ∃ offset, behind = [(offset, ' ')]) :
    filled (l ++ behind) = l :: filled behind := by
  have kept : (!l.isEmpty) = true := by simpa using some
  rcases ends with ⟨more, cut⟩ | ⟨offset, rfl⟩
  · have whole : pieces (l ++ behind) = l :: more := by
      rw [joined, cut]
      show (l ++ []) :: more = l :: more
      rw [List.append_nil]
    have dropped : filled behind = (more.map strip).filter fun p => !p.isEmpty := by
      rw [filled, cut, List.map_cons]
      exact List.filter_cons_of_neg (by decide)
    rw [dropped, filled, whole, List.map_cons, strip_of_ne first last]
    exact List.filter_cons_of_pos kept
  · have whole : pieces (l ++ [(offset, ' ')]) = [l ++ [(offset, ' ')]] := joined
    rw [filled, whole, List.map_singleton, strip_append_space offset some first]
    exact List.filter_cons_of_pos kept

/-! ## Cells and comments -/

variable {more : List PlacedText} {mark : Nat × Char}

/-- A line whose first piece begins with the mark of a comment. -/
theorem of_filled_marked {offset : Nat} (h : filled line = piece :: more)
    (begins : piece.head? = some (offset, '#')) :
    cells line = [] ∧ mark? line = some (offset, '#') := by
  have marked : isMarked piece = true := by
    rw [isMarked, begins]
    rfl
  constructor
  · rw [cells, h]
    exact List.takeWhile_cons_of_neg (by simp [marked])
  · rw [mark?, h, List.find?_cons_of_pos marked]
    exact begins

/-- A line whose first piece is a cell. -/
theorem of_filled_cell (h : filled line = piece :: filled rest) (noMark : isMarked piece = false) :
    cells line = piece :: cells rest ∧ mark? line = mark? rest := by
  constructor
  · rw [cells, h]
    exact List.takeWhile_cons_of_pos (by simp [noMark])
  · rw [mark?, h, List.find?_cons_of_neg (by simp [noMark])]
    rfl


/-- What is in front of a mark is not part of the comment. -/
theorem tail_append {front l : PlacedText}
    (before : ∀ c ∈ front, c.1 < mark.1) (begins : ∀ c ∈ l.head?, mark.1 ≤ c.1) :
    tail (front ++ l) mark = Sequence.dropTrailing isBlank l := by
  have passed : ∀ c ∈ front, decide (c.1 < mark.1) = true :=
    fun c hc => decide_eq_true (before c hc)
  rw [tail, List.dropWhile_append_of_pos passed]
  cases l with
  | nil => rfl
  | cons c l =>
    have stops : ¬ decide (c.1 < mark.1) = true := by simpa using begins c rfl
    exact congrArg _ (List.dropWhile_cons_of_neg stops)

end PlacedText

end RobotAnalysis
