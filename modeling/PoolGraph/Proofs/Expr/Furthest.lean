import PoolGraph.Proofs.Expr.Viable

/-!
# Where a parse error is reported

A file that is no expression gives one diagnostic.  If it is about an unexpected character, it is at
the furthest offset that was reached.  The text in front of it can go on to a file that is parsed,
since the grammar was explored that far; it cannot go on with the character that is there, since the
run has seen no other (`Expr.parse_furthest`).
-/

namespace PoolGraph

open Grammar

namespace Expr

/-- Whether a text can be continued to a file that is parsed. -/
def Viable (file : Nat) (text : List Char) : Prop :=
  ∃ rest source e, source.data = (text ++ rest).utf8Encode ∧ parse file source = .ok e

theorem viable_of_documents {file : Nat} {text rest : List Char}
    (h : Parser.documents file maxDepth (text ++ rest) 0) :
  Viable file text
  := by
  generalize whole : text ++ rest = t at h
  obtain ⟨hbefore, ⟨⟨e, expression, depth⟩, hafter⟩⟩ := h
  next before inner after =>
  rw [Nat.zero_add] at expression
  let source : Source := ⟨"", (text ++ rest).utf8Encode⟩
  have hdata : source.data = (before ++ inner ++ after).utf8Encode := by
    rw [List.append_assoc, ← whole]
  have parsed := parse_of_file hdata (.mk hbefore expression hafter) depth
  exact ⟨rest, source, e, rfl, parsed⟩

section

variable {file : Nat} {source : Source} {r? : Option Expr} {s : Progress}
  (hrun : Parser.outcome (Parser.document file maxDepth) (Progress.start source) = (r?, s))

include hrun

theorem eq_complaint_of_run {diagnostic : Diagnostic} (h : parse file source = .error diagnostic) :
  diagnostic = parse.complaint file s
  := by
  rw [parse_eq_document, hrun] at h
  cases r? with
  | none => apply (Except.error.inj h).symm
  | some e =>
    dsimp only at h
    split at h
    · cases h
    · apply (Except.error.inj h).symm

/-- In front of the furthest offset the text is stuck nowhere but at an escape. -/
theorem stuck_of_run (kept : s.refused = none) :
  ∃ before after, charactersFrom source.data 0 = before ++ after ∧ textSize before = s.reach
    ∧ (Viable file before ∨ BadEscape file before 0)
  := by
  obtain ⟨-, ⟨text, took, good⟩, marked⟩ :=
    Parser.explores_document file maxDepth (Progress.start source) r? s hrun kept
  have stuck : Stuck file (Parser.documents file maxDepth) text 0 := by
    cases r? with
    | none => apply good
    | some e => apply Stuck.of_mem good
  have found : ∃ before after, charactersFrom source.data 0 = before ++ after
      ∧ textSize before = s.reach ∧ Stuck file (Parser.documents file maxDepth) before 0 := by
    rcases marked.recover took stuck s.cursor with least | ⟨before, after, furthest, stuck⟩
    · use [], charactersFrom source.data 0, rfl, least.symm
      apply Stuck.nil (Parser.anywhere_documents file maxDepth)
    · obtain ⟨characters, offset⟩ := furthest
      use before, after, characters
      constructor
      · apply (Nat.zero_add _).symm.trans offset.symm
      · apply stuck
  obtain ⟨before, after, characters, size, stuck⟩ := found
  use before, after, characters, size
  apply stuck.imp_left
  rintro ⟨rest, h⟩
  apply viable_of_documents h

/-- No text that is parsed goes on with the character at the furthest offset: on such a text the run
would be the same, and it would end in front of that character. -/
theorem not_viable_of_run {before after : List Char} {c : Char}
    (characters : charactersFrom source.data 0 = before ++ c :: after)
    (furthest : textSize before = s.reach) :
  ¬ Viable file (before ++ [c])
  := by
  rintro ⟨rest, other, e, hdata, hparse⟩
  obtain ⟨t, hother, ends, -⟩ := parse_eq_ok.mp hparse
  have early : s.reach < textSize (before ++ [c]) := by
    have advances := c.utf8Size_pos
    rw [textSize_append, textSize_cons, furthest]
    omega
  have alike : (Progress.start source).Alike (textSize (before ++ [c])) after rest
      (Progress.start other) := by
    refine ⟨rfl, rfl, before ++ [c], ⟨?_, (Nat.zero_add _).symm⟩, ?_, (Nat.zero_add _).symm⟩
    · rw [List.append_assoc]
      apply characters
    · apply (charactersFrom_zero_eq_iff.mpr hdata).1
  -- The run on the other text has read all of it, so it stands behind `c`, which is behind what
  -- the run on this text has reached.
  obtain ⟨t', same, alike'⟩ := (Parser.local_document file maxDepth).agrees alike r? s hrun early
  obtain ⟨-, rfl⟩ := Prod.mk.inj (hother.symm.trans same)
  obtain ⟨shared, ⟨-, offset⟩, ⟨left, -⟩⟩ := alike'.cursors
  rw [ends] at left
  rw [(List.append_eq_nil_iff.mp left.symm).1, textSize_nil] at offset
  have reached := s.offset_le_reach
  dsimp only at offset
  omega

end

/-- A file is parsed, or gives one diagnostic.  If that is about an unexpected character, it is at
the end of the longest text that can go on to a file that is parsed, or behind an escape that there
is not. -/
theorem parse_furthest (file : Nat) (source : Source) :
  (∃ e, parse file source = .ok e)
    ∨ ∃ offset message, parse file source = .error ⟨⟨file, offset, offset + 1⟩, message⟩
      ∧ (message = "nesting too deep"
        ∨ message = "unexpected character" ∧ offset ≤ source.data.size
          ∧ ∃ before, source.data.extract 0 offset = before.utf8Encode
            ∧ (Viable file before ∨ BadEscape file before 0)
            ∧ ∀ c, source.data.utf8DecodeChar? offset = some c → ¬ Viable file (before ++ [c]))
  := by
  rcases hparse : parse file source with diagnostic | e
  · right
    rcases hrun : Parser.outcome (Parser.document file maxDepth) (Progress.start source)
      with ⟨r?, s⟩
    obtain rfl := eq_complaint_of_run hrun hparse
    rcases kept : s.refused with _ | offset
    · use s.reach, "unexpected character"
      constructor
      · rw [parse.complaint, kept]
        rfl
      · refine .inr ⟨rfl, ?_⟩
        obtain ⟨before, after, characters, furthest, stuck⟩ := stuck_of_run hrun kept
        obtain ⟨bytes, inside, behind⟩ := extract_of_charactersFrom (Nat.zero_le _) characters
        rw [Nat.zero_add, furthest] at bytes inside behind
        constructor
        · apply inside
        use before, bytes, stuck
        intro c hc
        rw [charactersFrom.eq_def] at behind
        split at behind
        · next none =>
          rw [none] at hc
          cases hc
        · next c' hc' =>
          obtain rfl := Option.some.inj (hc'.symm.trans hc)
          rw [← behind] at characters
          apply not_viable_of_run hrun characters furthest
    · use offset, "nesting too deep"
      constructor
      · rw [parse.complaint, kept]
      · left
        rfl
  · exact .inl ⟨e, rfl⟩

end Expr

end PoolGraph
