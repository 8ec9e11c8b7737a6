import RecordLogic.Proofs.Diagnostics

/-!
# The mark of the end

The scanner finds the end of a text by stepping over its characters, and a parser without a mark of the end finds it
by the line breaks and the last line of the text. Both come to the same place, so tokens may be handed on without their
last one.
-/

namespace RecordLogic

theorem Layout.ends_at {start : Location} {parts : List (List Char × Token)} {text : List Char}
    (h : Layout start parts text) : ∃ words stop, parts.map (·.2) = words ++ [stop] ∧ stop.kind = .stop ∧
      stop.location = start.past text ∧ ∀ t ∈ words, t.kind ≠ .stop := by
  obtain ⟨words, blanks, stop, hparts, hkind, hraw, hwords⟩ := h.ends
  have htext : text = written words ++ blanks := by
    rw [h.text_eq, hparts]
    simp [written, hraw]
  refine ⟨words.map (·.2), stop, by simp [hparts], hkind, ?_, fun t ht => ?_⟩
  · rw [htext]
    exact h.location words blanks stop [] hparts
  · obtain ⟨p, hp, rfl⟩ := List.mem_map.mp ht
    exact (hwords p hp).1

theorem tokenize_ends {source : String} {tokens : List Token} (h : tokenize source = .ok tokens) :
    ∃ words stop, tokens = words ++ [stop] ∧ stop.kind = .stop ∧ stop.location = .endOf source ∧
      ∀ t ∈ words, t.kind ≠ .stop := by
  obtain ⟨parts, rfl, hparts⟩ := Scanner.tokensWithin_layout (Nat.lt_succ_self _) h
  obtain ⟨words, stop, hwords, hkind, hlocation, hno⟩ := hparts.ends_at
  have hend : stop.location = .behind source.toList := by
    rw [← Location.past_start]
    exact hlocation
  exact ⟨words, stop, hwords, hkind, by rw [hend, Location.endOf_eq_behind], hno⟩

/-- A mark where the text ends says nothing that the text does not. -/
theorem Parser.ofTokens_append_stop {words : List Token} {stop : Token} {source : String} (hkind : stop.kind = .stop)
    (hlocation : stop.location = .endOf source) (hno : ∀ t ∈ words, t.kind ≠ .stop) :
    ofTokens (words ++ [stop]) source = ofTokens words source := by
  have hfind : words.find? (·.kind = .stop) = none := by
    rw [List.find?_eq_none]
    simpa using hno
  have hwords : ∀ t ∈ words, decide (t.kind ≠ .stop) = true := by
    intro t ht
    exact decide_eq_true (hno t ht)
  have htake : words.takeWhile (·.kind ≠ .stop) = words := by
    rw [List.takeWhile_eq_self_iff]
    exact hwords
  unfold ofTokens
  rw [List.takeWhile_append_of_pos hwords, List.find?_append, hfind, htake]
  simp [hkind, hlocation]

def Parser.shown (p : Parser) : Except String Expr := p.whole.1.mapError fun m => (m.diagnose p.source).text

/-- **The mark of the end may be left out.** The last token of a text is its only mark of the end and stands where the
text ends. Without it the tokens make the same parser, which gives the same tree, or the same mistake at the same
place, as the text itself, and shows the mistake in the same words. -/
theorem parse_without_end {source : String} {tokens : List Token} (h : tokenize source = .ok tokens) :
    (∃ stop, tokens = tokens.dropLast ++ [stop] ∧ stop.kind = .stop ∧ stop.location = .endOf source ∧
      ∀ t ∈ tokens.dropLast, t.kind ≠ .stop) ∧
    Parser.ofTokens tokens.dropLast source = Parser.ofTokens tokens source ∧
    ((Parser.ofTokens tokens.dropLast source).whole).1 = parse source ∧
    (Parser.ofTokens tokens.dropLast source).shown = (parse source).mapError fun m => (m.diagnose source).text := by
  obtain ⟨words, stop, rfl, hkind, hlocation, hno⟩ := tokenize_ends h
  have hsame : Parser.ofTokens words source = Parser.ofTokens (words ++ [stop]) source :=
    (Parser.ofTokens_append_stop hkind hlocation hno).symm
  have hparse : parse source = ((Parser.ofTokens words source).whole).1 := by
    unfold parse
    rw [h, hsame]
    rfl
  rw [List.dropLast_concat]
  refine ⟨⟨stop, rfl, hkind, hlocation, hno⟩, hsame, hparse.symm, ?_⟩
  rw [hparse]
  rfl

/-- Behind an operator and a line break the operand is missing on the next line, at its second column. -/
theorem parse_without_end_lines :
    let source := "'\n' ==\n "
    let tokens : List Token := [⟨.string, some (.string "\n"), "'\n'", ⟨1, 1⟩⟩, ⟨.equal, none, "==", ⟨2, 3⟩⟩]
    tokenize source = .ok (tokens ++ [⟨.stop, none, "", ⟨3, 2⟩⟩]) ∧
      ((Parser.ofTokens tokens source).whole).1 = .error ⟨.unexpectedEnd .operand, ⟨3, 2⟩⟩ ∧
      parse source = .error ⟨.unexpectedEnd .operand, ⟨3, 2⟩⟩ ∧
      (Parser.ofTokens tokens source).shown = .error ("Parse error on line 3, last column: Expected \"null\", bool, " ++
        "number, string, func, property or \"(\". Unexpected end of expression.") := by
  intro source tokens
  have h : tokenize "'\n' ==\n " = .ok [⟨.string, some (.string "\n"), "'\n'", ⟨1, 1⟩⟩, ⟨.equal, none, "==", ⟨2, 3⟩⟩,
    ⟨.stop, none, "", ⟨3, 2⟩⟩] := rfl
  have hwhole : ((Parser.ofTokens tokens source).whole).1 = .error ⟨.unexpectedEnd .operand, ⟨3, 2⟩⟩ := by
    have hend : Location.endOf "'\n' ==\n " = ⟨3, 2⟩ := rfl
    have hparser : Parser.ofTokens tokens source = ⟨source, tokens, ⟨3, 2⟩, 100⟩ := by
      rw [← hend]
      rfl
    rw [hparser]
    unfold Parser.whole Parser.expression
    rw [Parser.conditional]
    simp [tokens, Parser.binary, Parser.chain, Parser.unary, Parser.operand, Parser.unaryOp?, BinaryOp.atLevel?,
      BinaryOp.ofKind?, BinaryOp.level, Relation.isOrder, Option.filter, Parser.unexpected, bind, Except.bind, pure,
      Except.pure]
  obtain ⟨-, -, hparse, hshown⟩ := parse_without_end h
  have hparse : parse source = .error ⟨.unexpectedEnd .operand, ⟨3, 2⟩⟩ := hparse.symm.trans hwhole
  refine ⟨h, hwhole, hparse, hshown.trans ?_⟩
  rw [hparse]
  exact congrArg Except.error (by decide +kernel)

end RecordLogic
