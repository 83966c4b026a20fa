import Mathlib.Data.List.Forall2
import RobotAnalysis.Proofs.PlainParse

/-!
# Separators and line breaks carry no meaning

A separator may be written as any other separator and a line feed with a carriage return before it.
The tokens of the new text are the respelled ones, since the characters that a token could take up
behind itself are the same for every separator, and a carriage return is among them for none. What
is written differently is the same in its plainest writing, so both texts are parsed alike.
-/
namespace RobotAnalysis

namespace Token

/-- The ways in which a token may be written anew: any separator for a separator, and a line feed
with a carriage return before it for a line feed alone. -/
inductive Respelled : Token → Token → Prop
  | same (t : Token) : Respelled t t
  | separator (old : Text) {new : Text} (h : IsSeparator new) :
      Respelled ⟨.separator, old⟩ ⟨.separator, new⟩
  | newline : Respelled ⟨.newline, ['\n']⟩ ⟨.newline, ['\r', '\n']⟩

variable {t u : Token} {ts us : List Token}

theorem IsSpelled.text_ne_nil (h : t.IsSpelled) : t.text ≠ [] := by
  obtain ⟨kind, text⟩ := t
  cases kind with
  | word => exact h.1
  | space => exact List.ne_nil_of_mem (h ▸ List.mem_singleton_self ' ')
  | separator => exact IsSeparator.ne_nil h
  | newline => rcases h with rfl | rfl <;> simp
  | stray => exact List.ne_nil_of_mem (h ▸ List.mem_singleton_self '\r')

namespace Respelled

theorem kind_eq (h : t.Respelled u) : u.kind = t.kind := by
  cases h <;> rfl

theorem isSpelled (h : t.Respelled u) (spelled : t.IsSpelled) : u.IsSpelled := by
  cases h with
  | same t => exact spelled
  | separator old new => exact new
  | newline => exact .inr rfl

theorem plain_eq (h : t.Respelled u) (spelled : t.IsSpelled) : u.plain = t.plain := by
  cases h with
  | same t => rfl
  | separator old new =>
    have wasSeparator : IsSeparator old := spelled
    simp [plain, new, wasSeparator]
  | newline => decide

/-- A character of a separator belongs to the same tokens as any other. -/
theorem takes_eq_of_isGap {c d : Char} (hc : isGap c = true) (hd : isGap d = true)
    (kind : TokenKind) : kind.takes c = kind.takes d := by
  have noBreak {e : Char} (he : isGap e = true) : (e == '\n') = false := by
    refine beq_false_of_ne ?_
    rintro rfl
    cases he
  cases kind with
  | word => simp [TokenKind.takes, isWordChar, hc, hd]
  | space => exact hc.trans hd.symm
  | separator => exact hc.trans hd.symm
  | newline => rfl
  | stray => exact (noBreak hc).trans (noBreak hd).symm

/-- What cannot be taken up by the token before it cannot be taken up when it is written anew. -/
theorem ends (h : t.Respelled u) (spelled : t.IsSpelled) {kind : TokenKind}
    (ends : ∀ c ∈ t.text.head?, kind.takes c = false) :
    ∀ c ∈ u.text.head?, kind.takes c = false := by
  cases h with
  | same t => exact ends
  | newline =>
    intro c hc
    cases hc
    cases kind <;> rfl
  | separator old new =>
    have wasSeparator : IsSeparator old := spelled
    obtain ⟨c, run, rfl⟩ := List.exists_cons_of_ne_nil wasSeparator.ne_nil
    intro d hd
    have gap := new.gaps d (List.mem_of_mem_head? hd)
    rw [takes_eq_of_isGap gap (wasSeparator.gaps c List.mem_cons_self)]
    exact ends c rfl

end Respelled

theorem head?_textOf_cons (h : t.IsSpelled) : (textOf (t :: ts)).head? = t.text.head? := by
  obtain ⟨c, rest, text⟩ := List.exists_cons_of_ne_nil h.text_ne_nil
  rw [textOf, List.flatMap_cons, text, List.cons_append, List.head?_cons, List.head?_cons]

theorem separate_of_respelled (h : List.Forall₂ Respelled ts us) (separate : Separate ts) :
    Separate us := by
  induction h with
  | nil => trivial
  | cons first rest ih =>
    obtain ⟨spelled, ends, others⟩ := separate
    refine ⟨first.isSpelled spelled, ?_, ih others⟩
    rw [first.kind_eq]
    cases rest with
    | nil => nofun
    | cons next _ =>
      have nextSpelled := others.1
      rw [head?_textOf_cons nextSpelled] at ends
      rw [head?_textOf_cons (next.isSpelled nextSpelled)]
      exact next.ends nextSpelled ends

theorem map_plain_of_respelled (h : List.Forall₂ Respelled ts us) (separate : Separate ts) :
    us.map plain = ts.map plain := by
  induction h with
  | nil => rfl
  | cons first rest ih =>
    obtain ⟨spelled, -, others⟩ := separate
    rw [List.map_cons, List.map_cons, first.plain_eq spelled, ih others]

end Token

/-- A text with its separators and line breaks written anew is parsed to the same tree, apart from
the texts of these, and with the same messages in the same order. -/
theorem parse_respelled {text : Text} {ts : List Token}
    (h : List.Forall₂ Token.Respelled (tokenize text) ts) :
    (parse (Token.textOf ts)).value.outline = (parse text).value.outline ∧
      ((parse (Token.textOf ts)).errors.map fun e => e.fault.message) =
        (parse text).errors.map fun e => e.fault.message := by
  have separate := Token.separate_tokenize text
  have tokens : tokenize (Token.textOf ts) = ts :=
    Token.tokenize_textOf (Token.separate_of_respelled h separate)
  have lines : (linesOf ts).map Line.plain = (linesOf (tokenize text)).map Line.plain := by
    rw [map_plain_linesOf, map_plain_linesOf, Token.map_plain_of_respelled h separate]
  have alike : (parse (Token.textOf ts)).outline Tree.outline =
      (parse text).outline Tree.outline := by
    rw [parse, parse, tokens, ← outline_parseLines_plain, lines, outline_parseLines_plain]
  obtain ⟨trees, faults⟩ := Prod.mk.inj alike
  refine ⟨trees, ?_⟩
  have messages := congrArg (List.map SyntaxFault.message) faults
  rwa [List.map_map, List.map_map] at messages

/-- A tab separates as two spaces do, and the tree of the text with other line breaks is the same
apart from them. -/
theorem parse_respelled_tab :
    let text := "* Settings\nLibrary  A\n".toList
    let respelled := "* Settings\r\nLibrary\tA\r\n".toList
    List.Forall₂ Token.Respelled (tokenize text) (tokenize respelled) ∧
      (parse respelled).value.outline = (parse text).value.outline := by
  intro text respelled
  have tokens : tokenize text = [⟨.word, ['*']⟩, ⟨.space, [' ']⟩, ⟨.word, "Settings".toList⟩,
      ⟨.newline, ['\n']⟩, ⟨.word, "Library".toList⟩, ⟨.separator, [' ', ' ']⟩, ⟨.word, ['A']⟩,
      ⟨.newline, ['\n']⟩] := by decide +kernel
  have tokens' : tokenize respelled = [⟨.word, ['*']⟩, ⟨.space, [' ']⟩,
      ⟨.word, "Settings".toList⟩, ⟨.newline, ['\r', '\n']⟩, ⟨.word, "Library".toList⟩,
      ⟨.separator, ['\t']⟩, ⟨.word, ['A']⟩, ⟨.newline, ['\r', '\n']⟩] := by decide +kernel
  have tab : Token.IsSeparator ['\t'] := ⟨List.all_eq_true.1 rfl, .inr (List.mem_singleton_self _)⟩
  have anew : List.Forall₂ Token.Respelled (tokenize text) (tokenize respelled) := by
    rw [tokens, tokens']
    exact .cons (.same _) (.cons (.same _) (.cons (.same _) (.cons .newline (.cons (.same _)
      (.cons (.separator _ tab) (.cons (.same _) (.cons .newline .nil)))))))
  refine ⟨anew, ?_⟩
  have alike := (parse_respelled anew).1
  rwa [textOf_tokenize] at alike

end RobotAnalysis
