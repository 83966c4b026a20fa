/-!
# Texts and spans

A text is the list of its characters. Offsets, sizes and columns count the bytes of its UTF-8 form,
so that a span found here can be used on the encoded document. Cutting at an offset inside a
character keeps the whole character out of the part before the cut.
-/
namespace RobotAnalysis

/-- A piece of a document, or a name taken from one. -/
abbrev Text := List Char

/-- The bytes from `start` up to but not including `start + size`. -/
structure Span where
  start : Nat
  size : Nat
  deriving DecidableEq, Repr, Inhabited

namespace Span

/-- The offset just after the last byte. -/
def stop (s : Span) : Nat := s.start + s.size

/-- The span from `a` up to `b`, empty where `b` is not after `a`. -/
def between (a b : Nat) : Span := ⟨a, b - a⟩

/-- The same span in a text with `n` more bytes in front. -/
def shift (n : Nat) (s : Span) : Span := ⟨n + s.start, s.size⟩

/-- Whether an offset is in the span or just after it. -/
def touches (s : Span) (offset : Nat) : Bool :=
  decide (s.start ≤ offset) && decide (offset ≤ s.stop)

@[simp] theorem start_shift (n : Nat) (s : Span) : (s.shift n).start = n + s.start := rfl

@[simp] theorem stop_shift (n : Nat) (s : Span) : (s.shift n).stop = n + s.stop := by
  simp [shift, stop, Nat.add_assoc]

theorem touches_iff (s : Span) (offset : Nat) :
    s.touches offset = true ↔ s.start ≤ offset ∧ offset ≤ s.stop := by
  simp [touches]

end Span

namespace Text

/-- The number of bytes of the UTF-8 form. -/
def byteSize : Text → Nat
  | [] => 0
  | c :: t => c.utf8Size + byteSize t

@[simp] theorem byteSize_nil : byteSize [] = 0 := rfl

@[simp] theorem byteSize_cons (c : Char) (t : Text) :
    byteSize (c :: t) = c.utf8Size + byteSize t := rfl

@[simp] theorem byteSize_append (s t : Text) : byteSize (s ++ t) = byteSize s + byteSize t := by
  induction s with
  | nil => simp
  | cons c s ih => simp [ih, Nat.add_assoc]

/-- The longest initial part of at most `n` bytes. -/
def takeBytes : Nat → Text → Text
  | _, [] => []
  | n, c :: t => if c.utf8Size ≤ n then c :: takeBytes (n - c.utf8Size) t else []

/-- What `takeBytes n` leaves. -/
def dropBytes : Nat → Text → Text
  | _, [] => []
  | n, c :: t => if c.utf8Size ≤ n then dropBytes (n - c.utf8Size) t else c :: t

theorem takeBytes_append_dropBytes (n : Nat) (t : Text) : takeBytes n t ++ dropBytes n t = t := by
  induction t generalizing n with
  | nil => rfl
  | cons c t ih => by_cases h : c.utf8Size ≤ n <;> simp [takeBytes, dropBytes, h, ih]

theorem takeBytes_byteSize_append (s t : Text) : takeBytes (byteSize s) (s ++ t) = s := by
  induction s with
  | nil =>
    cases t with
    | nil => rfl
    | cons c t => simp [takeBytes, Nat.not_le.2 c.utf8Size_pos]
  | cons c s ih => simp [takeBytes, ih]

theorem dropBytes_byteSize_append (s t : Text) : dropBytes (byteSize s) (s ++ t) = t := by
  induction s with
  | nil =>
    cases t with
    | nil => rfl
    | cons c t => simp [dropBytes, Nat.not_le.2 c.utf8Size_pos]
  | cons c s ih => simp [dropBytes, ih]

/-- The part of a text that a span covers. -/
def slice (s : Span) (t : Text) : Text :=
  takeBytes s.size (dropBytes s.start t)

/-- A span that starts after `a` and is as long as `b` cuts `b` out of `a ++ b ++ c`. -/
theorem slice_append (a b c : Text) : slice ⟨byteSize a, byteSize b⟩ (a ++ (b ++ c)) = b := by
  simp [slice, dropBytes_byteSize_append, takeBytes_byteSize_append]

end Text

end RobotAnalysis
