import Keyfile.Proofs.ScannedTokens

/-! Scans and reports line by line. Nothing that was read before a line break, however broken, has an effect
on what is found or said after it. -/
namespace Keyfile
open Adjacency

/-- The token of a line break. -/
def lineBreakToken (offset : Nat) : Token := ⟨.lineBreak, ⟨offset, offset + 1⟩, "\n"⟩

lemma tokens_append_lineBreak (cs below : List Char) :
    tokens 0 (lexemes .fresh (cs ++ '\n' :: below)) =
      (tokens 0 (lexemes .fresh cs) ++ [lineBreakToken (Text.bytes cs)]) ++
        (tokens 0 (lexemes .fresh below)).map (·.relocate (· + (Text.bytes cs + 1))) := by
  rw [lexemes_append_lineBreak, tokens_append, charsOf_lexemes, Nat.zero_add, lineBreakLexeme, tokens_kind,
    ← tokens_add, Nat.zero_add, List.append_assoc]
  rfl

/-- The nodes of a text are those of its first lines, a line break, and those of the other lines moved
behind it. -/
theorem scan_append_line (a b : String) :
    (scan (a ++ "\n" ++ b)).content =
      (scan a).content ++ ⟨.lineBreak, ⟨Text.bytes a.toList, Text.bytes a.toList + 1⟩, []⟩ ::
        (scan b).content.map fun n => { n with span := n.span.shift (Text.bytes a.toList + 1) } := by
  have whole : (a ++ "\n" ++ b).toList = a.toList ++ '\n' :: b.toList := by simp
  have moved : ∀ ts : List Token, (ts.map (·.relocate (· + (Text.bytes a.toList + 1)))).map Token.node =
      (ts.map Token.node).map fun n => { n with span := n.span.shift (Text.bytes a.toList + 1) } := by
    intro ts
    simp only [List.map_map]
    rfl
  rw [content_scan, content_scan, content_scan, whole, tokens_append_lineBreak, List.map_append,
    List.map_append, moved, List.append_assoc]
  rfl

/-- The tokens of a line and its line break, and what they add to the report. -/
lemma lint_append_lineBreak (schema : Schema) (size offset : Nat) (ts us : List Token) :
    lint schema size none none ((ts ++ [lineBreakToken offset]) ++ us) =
      remarks schema none none (ts ++ [lineBreakToken offset]) ++ lint schema size none none us := by
  apply lint_append_of_settled
  apply settled_of_lineStart
  simp [lineBreakToken]

/-- The report of a text is that of its first lines followed by that of the others. -/
theorem diagnose_scan_append_line (schema : Schema) (a b : String) :
    diagnose schema (scan (a ++ "\n" ++ b)) =
      diagnose schema (scan (a ++ "\n")) ++
        (diagnose schema (scan b)).map (·.relocate (· + (Text.bytes a.toList + 1))) := by
  have whole : (a ++ "\n" ++ b).toList = a.toList ++ '\n' :: b.toList := by simp
  have upper : (a ++ "\n").toList = a.toList ++ '\n' :: [] := by simp
  have size : Text.bytes (a.toList ++ '\n' :: b.toList) = Text.bytes b.toList + (Text.bytes a.toList + 1) := by
    rw [Text.bytes_append, Text.bytes_cons, show '\n'.utf8Size = 1 from rfl]
    omega
  have first : diagnose schema (scan (a ++ "\n")) =
      remarks schema none none
        (tokens 0 (lexemes .fresh a.toList) ++ [lineBreakToken (Text.bytes a.toList)]) := by
    rw [diagnose_scan, upper, tokens_append_lineBreak, lint_append_lineBreak]
    simp [lexemes, closing_eq]
  rw [first, diagnose_scan, diagnose_scan, whole, tokens_append_lineBreak, lint_append_lineBreak, size,
    ← lint_relocate]
  rfl

end Keyfile
