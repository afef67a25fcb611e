import Exclaim.Proofs.Parse.Language
import Exclaim.Proofs.Parse.RoundTrip

/-! A program that a source spells can be written again, and is read back from what was written. -/
namespace Exclaim

lemma kind_of_unary {t : Token}
    (h : (t.kind, t.value) ∈
      [(TokenKind.subtract, "-"), (.logicalNot, ";"), (.bitwiseNot, "~")]) :
    t.kind ∈ [TokenKind.subtract, .logicalNot, .bitwiseNot] :=
  List.mem_map_of_mem (f := Prod.fst) h

mutual

lemma Expression.writable_of_regular : ∀ e : Expression, Regular e.nodes → e.Writable
  | .assignment target value, h => by
      simp only [Expression.nodes, regular_cons, regular_append] at h
      exact ⟨target.writable_of_regular h.2.1, value.writable_of_regular h.2.2⟩
  | .unary operator operand, h => by
      simp only [Expression.nodes, regular_cons] at h
      exact ⟨kind_of_unary h.1, operand.writable_of_regular h.2⟩
  | .state operator argument, h => by
      simp only [Expression.nodes, regular_cons] at h
      refine ⟨?_, argument.writable_of_regular h.2⟩
      rcases h.1 with hword | ⟨hmark, -⟩
      · exact .inl hword
      · simpa [IsStateOperator] using Or.inr hmark
  | .binary left operator right, h => by
      simp only [Expression.nodes, regular_cons, regular_append] at h
      exact ⟨h.1.1, left.writable_of_regular h.2.1, right.writable_of_regular h.2.2⟩
  | .number value, h => by
      simp only [Expression.nodes, regular_cons] at h
      exact h.1
  | .string value, _ => trivial
  | .symbol name, h => by
      simp only [Expression.nodes, regular_cons] at h
      exact h.1
  | .member object property computed, h => by
      simp only [Expression.nodes, regular_cons, regular_append] at h
      exact ⟨object.writable_of_regular h.2.1, property.writable_of_regular h.2.2, h.1⟩
  | .call callee arguments, h => by
      simp only [Expression.nodes, regular_cons, regular_append] at h
      exact ⟨callee.writable_of_regular h.2.1, Expression.writableList_of_regular arguments h.2.2⟩
  | .object _, h | .array _, h | .branching _, h => by
      simp [Expression.nodes, Expression.InLanguage] at h

lemma Reference.writable_of_regular : ∀ r : Reference, Regular r.nodes → r.Writable
  | .symbol name, h => by
      simp only [Reference.nodes, regular_cons] at h
      exact h.1
  | .member object property computed, h => by
      simp only [Reference.nodes, regular_cons, regular_append] at h
      exact ⟨object.writable_of_regular h.2.1, property.writable_of_regular h.2.2, h.1⟩

lemma Expression.writableList_of_regular : ∀ es : List Expression,
    Regular (Expression.allNodes es) → Expression.WritableList es
  | [], _ => trivial
  | e :: es, h => by
      rw [Expression.allNodes, regular_append] at h
      exact ⟨e.writable_of_regular h.1, Expression.writableList_of_regular es h.2⟩

end

mutual

lemma Statement.writable_of_regular : ∀ s : Statement, Regular s.nodes → s.Writable
  | .expression e, h => by
      simp only [Statement.nodes, regular_cons] at h
      exact e.writable_of_regular h.2
  | .block body, h => by
      simp only [Statement.nodes, regular_cons] at h
      exact Statement.writableList_of_regular body h.2
  | .variableDeclaration name modifiers value lifetime, h => by
      simp only [Statement.nodes, regular_cons] at h
      refine ⟨fun e he => e.writable_of_regular ?_, h.1⟩
      obtain rfl : value = some e := he
      simpa using h.2
  | .functionDeclaration identifier parameters isAsync body, h => by
      simp only [Statement.nodes, regular_cons] at h
      exact ⟨h.1.1, h.1.2, body.writable_of_regular h.2⟩
  | .returning argument, h => by
      simp only [Statement.nodes, regular_cons] at h
      exact argument.writable_of_regular h.2
  | .conditional branch, h => by
      simp only [Statement.nodes, regular_cons] at h
      exact branch.writable_of_regular h.2
  | .when test consequent, h => by
      simp only [Statement.nodes, regular_cons, regular_append] at h
      exact ⟨test.writable_of_regular h.2.1, Statement.writableList_of_regular consequent h.2.2⟩
  | .classDeclaration, h | .delete, h | .reverse, h | .importing, h | .exporting, h
  | .branching _, h | .endOfFile, h | .endOfBlock, h => by
      simp [Statement.nodes, Statement.InLanguage] at h

lemma FunctionBody.writable_of_regular : ∀ b : FunctionBody, Regular b.nodes → b.Writable
  | .block body, h => Statement.writableList_of_regular body h
  | .expression e, h => e.writable_of_regular h

lemma Conditional.writable_of_regular : ∀ c : Conditional, Regular c.nodes → c.Writable
  | .mk test consequent alternate, h => by
      rw [Conditional.nodes, regular_append, regular_append] at h
      exact ⟨test.writable_of_regular h.1.1,
        Statement.writableList_of_regular consequent h.1.2, alternate.writable_of_regular h.2⟩

lemma Alternate.writable_of_regular : ∀ a : Alternate, Regular a.nodes → a.Writable
  | .none, _ => trivial
  | .conditional branch, h => branch.writable_of_regular h
  | .block body, h => Statement.writableList_of_regular body h

lemma Statement.writableList_of_regular : ∀ ss : List Statement,
    Regular (Statement.allNodes ss) → Statement.WritableList ss
  | [], _ => trivial
  | s :: ss, h => by
      rw [Statement.allNodes, regular_append] at h
      exact ⟨s.writable_of_regular h.1, Statement.writableList_of_regular ss h.2⟩

end

/-- Writing what was read and reading it again changes nothing, in whatever style it is written. -/
theorem parseTokens_written_of_parseSource {source : String} {program : Block}
    (h : parseSource source = .ok program) (style : Style) {last : Token}
    (hlast : last.kind = .endOfFile) :
    parseTokens .stock (program.written style ++ [last]) = .ok program := by
  obtain ⟨e, he⟩ | ⟨found, hfound, hregular⟩ | ⟨e, he, -⟩ := Parse.parseSource_cases source
  · exact absurd (h.symm.trans he) (by simp)
  · obtain rfl := Except.ok.inj (h.symm.trans hfound)
    have hwritable : program.Writable := Statement.writableList_of_regular program hregular
    obtain ⟨s, hrun, -⟩ := Parse.run_parseProgram_written style hwritable hlast
    rw [parseTokens, hrun]
  · exact absurd (h.symm.trans he) (by simp)

end Exclaim
