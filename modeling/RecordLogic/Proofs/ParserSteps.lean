import RecordLogic.Proofs.Grammar

/-!
# What the parser reads, part by part

A function of the parser succeeds exactly when its parts do. Each equivalence here says for one of them which
parts those are, so that nothing later has to open the parser.
-/

namespace RecordLogic

namespace Parser

open Grammar (Operator Sign IsLiteral)

def Reads {α : Type} {tokens : List Token} (x : Except Failure (Parsed α tokens)) (a : α) (rest : List Token) : Prop :=
  ∃ h, x = .ok ⟨a, rest, h⟩

def Extends {tokens : List Token} (x : Except Failure (Expr × { rest : List Token // rest.length ≤ tokens.length }))
    (e : Expr) (rest : List Token) : Prop :=
  ∃ h, x = .ok (e, ⟨rest, h⟩)

section
variable {α β : Type} {tokens us rest : List Token} {a : α} {b : β}

theorem Reads.shorter {x : Except Failure (Parsed α tokens)} (h : Reads x a rest) : rest.length < tokens.length :=
  h.1

theorem not_reads_error {f : Failure} : ¬ @Reads α tokens (.error f) a rest := by
  intro h
  obtain ⟨_, h⟩ := h
  cases h

theorem not_extends_error {f : Failure} {e : Expr} : ¬ @Extends tokens (.error f) e rest := by
  intro h
  obtain ⟨_, h⟩ := h
  cases h

theorem reads_ok {p : Parsed α tokens} : Reads (.ok p) a rest ↔ p.value = a ∧ p.rest = rest := by
  obtain ⟨b, r, hless⟩ := p
  refine ⟨fun h => ?_, fun h => ?_⟩
  · obtain ⟨_, h⟩ := h
    cases h
    exact ⟨rfl, rfl⟩
  · obtain ⟨rfl, rfl⟩ := h
    exact ⟨hless, rfl⟩

theorem reads_bind {x : Except Failure (Parsed α us)} {f : Parsed α us → Except Failure (Parsed β tokens)} :
    Reads (x >>= f) b rest ↔ ∃ a mid h, x = .ok ⟨a, mid, h⟩ ∧ Reads (f ⟨a, mid, h⟩) b rest := by
  cases x with
  | error g =>
    refine ⟨fun h => ?_, fun h => ?_⟩
    · exact absurd h not_reads_error
    · obtain ⟨_, _, _, h, _⟩ := h
      cases h
  | ok p =>
    obtain ⟨a, mid, h⟩ := p
    refine ⟨fun hf => ?_, fun h => ?_⟩
    · exact ⟨a, mid, h, rfl, hf⟩
    · obtain ⟨_, _, _, he, hf⟩ := h
      cases he
      exact hf

theorem extends_bind {x : Except Failure (Parsed α us)} {e : Expr}
    {f : Parsed α us → Except Failure (Expr × { rest : List Token // rest.length ≤ tokens.length })} :
    Extends (x >>= f) e rest ↔ ∃ a mid h, x = .ok ⟨a, mid, h⟩ ∧ Extends (f ⟨a, mid, h⟩) e rest := by
  cases x with
  | error g =>
    refine ⟨fun h => ?_, fun h => ?_⟩
    · exact absurd h not_extends_error
    · obtain ⟨_, _, _, h, _⟩ := h
      cases h
  | ok p =>
    obtain ⟨a, mid, h⟩ := p
    refine ⟨fun hf => ?_, fun h => ?_⟩
    · exact ⟨a, mid, h, rfl, hf⟩
    · obtain ⟨_, _, _, he, hf⟩ := h
      cases he
      exact hf

end

/-! ## Kinds of tokens -/

theorem unaryOp?_eq_some {k : Token.Kind} {op : UnaryOp} : unaryOp? k = some op ↔ Sign k op := by
  refine ⟨fun h => ?_, fun h => ?_⟩
  · cases k <;> simp only [unaryOp?, Option.some.injEq, reduceCtorEq] at h <;> subst h <;> constructor
  · cases h <;> rfl

theorem unaryOp?_eq_none {k : Token.Kind} : unaryOp? k = none ↔ ∀ op, ¬ Sign k op := by
  simp only [Option.eq_none_iff_forall_ne_some, ne_eq, unaryOp?_eq_some]

theorem operator_of_ofKind? {k : Token.Kind} {op : BinaryOp} (h : BinaryOp.ofKind? k = some op) :
    Operator (6 - op.level) k op := by
  cases k <;> simp only [BinaryOp.ofKind?, Option.some.injEq, reduceCtorEq] at h <;> subst h <;> constructor

theorem atLevel?_eq_some {rank : Nat} (hr : rank ≤ 5) {k : Token.Kind} {op : BinaryOp} :
    BinaryOp.atLevel? (5 - rank) k = some op ↔ Operator (rank + 1) k op := by
  refine ⟨fun h => ?_, fun h => ?_⟩
  · obtain ⟨hk, hl⟩ := Option.filter_eq_some_iff.mp h
    have hrank : rank + 1 = 6 - op.level := by
      rw [beq_iff_eq] at hl
      omega
    rw [hrank]
    exact operator_of_ofKind? hk
  · cases h <;> rfl

theorem atLevel?_eq_none {rank : Nat} (hr : rank ≤ 5) {k : Token.Kind} :
    BinaryOp.atLevel? (5 - rank) k = none ↔ ∀ op, ¬ Operator (rank + 1) k op := by
  simp only [Option.eq_none_iff_forall_ne_some, ne_eq, atLevel?_eq_some hr]

/-! ## The parts of each phrase -/

section
variable {stop : Location} {budget : Nat} {tokens rest : List Token} {e : Expr}

theorem expect_reads {kind : Token.Kind} : Reads (expect stop kind budget tokens) () rest ↔
    ∃ t, tokens = t :: rest ∧ t.kind = kind := by
  cases tokens with
  | nil =>
    refine ⟨fun h => absurd h not_reads_error, fun h => ?_⟩
    obtain ⟨_, h, _⟩ := h
    cases h
  | cons t ts =>
    by_cases h : t.kind = kind
    · simp only [expect, h, ite_true]
      refine ⟨fun hr => ?_, fun hr => ?_⟩
      · obtain ⟨-, rfl⟩ := reads_ok.mp hr
        exact ⟨t, rfl, h⟩
      · obtain ⟨_, ht, _⟩ := hr
        cases ht
        exact reads_ok.mpr ⟨rfl, rfl⟩
    · simp only [expect, h, ite_false]
      refine ⟨fun hr => absurd hr not_reads_error, fun hr => ?_⟩
      obtain ⟨_, ht, hk⟩ := hr
      cases ht
      exact absurd hk h

theorem conditional_reads : Reads (conditional stop budget tokens) e rest ↔
    ∃ c mid, Reads (binary stop 6 budget tokens) c mid ∧
      ((∀ t ∈ mid.head?, t.kind ≠ .question) ∧ e = c ∧ rest = mid ∨
        ∃ b q us y colon vs z, budget = b + 1 ∧ mid = q :: us ∧ q.kind = .question ∧
          Reads (conditional stop b us) y (colon :: vs) ∧ colon.kind = .colon ∧
          Reads (conditional stop b vs) z rest ∧ e = .conditional c y z q.location) := by
  rw [conditional, reads_bind]
  refine ⟨fun h => ?_, fun h => ?_⟩
  · obtain ⟨c, mid, hm, hc, h⟩ := h
    refine ⟨c, mid, ⟨hm, hc⟩, ?_⟩
    cases mid with
    | nil =>
      obtain ⟨rfl, rfl⟩ := reads_ok.mp h
      exact .inl ⟨by simp, rfl, rfl⟩
    | cons q us =>
      dsimp only at h
      split at h
      · rename_i hq
        split at h
        · exact absurd h not_reads_error
        · rename_i b
          obtain ⟨y, ws, hw, hy, h⟩ := reads_bind.mp h
          obtain ⟨_, vs, hv, hcolon, h⟩ := reads_bind.mp h
          obtain ⟨z, _, hz, hn, h⟩ := reads_bind.mp h
          obtain ⟨rfl, rfl⟩ := reads_ok.mp h
          obtain ⟨colon, rfl, hk⟩ := expect_reads.mp ⟨hv, hcolon⟩
          exact .inr ⟨b, q, us, y, colon, vs, z, rfl, rfl, hq, ⟨hw, hy⟩, hk, ⟨hz, hn⟩, rfl⟩
      · rename_i hq
        obtain ⟨rfl, rfl⟩ := reads_ok.mp h
        exact .inl ⟨by simpa using hq, rfl, rfl⟩
  · obtain ⟨c, mid, ⟨hm, hc⟩, h⟩ := h
    refine ⟨c, mid, hm, hc, ?_⟩
    obtain ⟨hk, rfl, rfl⟩ | ⟨b, q, us, y, colon, vs, z, rfl, rfl, hq, ⟨hw, hy⟩, hk, ⟨hz, hn⟩, rfl⟩ := h
    · cases rest with
      | nil => exact reads_ok.mpr ⟨rfl, rfl⟩
      | cons q us =>
        dsimp only
        rw [if_neg (hk q rfl)]
        exact reads_ok.mpr ⟨rfl, rfl⟩
    · dsimp only
      rw [if_pos hq]
      have hexpect : Reads (expect stop .colon b (colon :: vs)) () vs := expect_reads.mpr ⟨colon, rfl, hk⟩
      obtain ⟨hv, hcolon⟩ := hexpect
      refine reads_bind.mpr ⟨y, _, hw, hy, reads_bind.mpr ⟨(), vs, hv, hcolon, ?_⟩⟩
      exact reads_bind.mpr ⟨z, rest, hz, hn, reads_ok.mpr ⟨rfl, rfl⟩⟩

theorem binary_zero : binary stop 0 budget tokens = unary stop budget tokens := by
  rw [binary]

theorem binary_reads {rank : Nat} : Reads (binary stop (rank + 1) budget tokens) e rest ↔
    ∃ left mid, Reads (binary stop rank budget tokens) left mid ∧ Extends (chain stop rank budget left mid) e rest := by
  rw [binary, reads_bind]
  refine ⟨fun h => ?_, fun h => ?_⟩
  · obtain ⟨left, mid, hm, hl, h⟩ := h
    refine ⟨left, mid, ⟨hm, hl⟩, ?_⟩
    dsimp only at h
    cases hc : chain stop rank budget left mid with
    | error f =>
      rw [hc] at h
      exact absurd h not_reads_error
    | ok all =>
      rw [hc] at h
      obtain ⟨rfl, rfl⟩ := reads_ok.mp h
      exact ⟨all.2.2, rfl⟩
  · obtain ⟨left, mid, ⟨hm, hl⟩, hle, hc⟩ := h
    refine ⟨left, mid, hm, hl, ?_⟩
    dsimp only
    rw [hc]
    exact reads_ok.mpr ⟨rfl, rfl⟩

theorem chain_extends {rank : Nat} {left : Expr} : Extends (chain stop rank budget left tokens) e rest ↔
    (∀ t ∈ tokens.head?, BinaryOp.atLevel? (5 - rank) t.kind = none) ∧ e = left ∧ rest = tokens ∨
      ∃ b t us op right mid, budget = b + 1 ∧ tokens = t :: us ∧ BinaryOp.atLevel? (5 - rank) t.kind = some op ∧
        Reads (binary stop rank b us) right mid ∧
        Extends (chain stop rank b (.binary op left right t.location) mid) e rest := by
  cases tokens with
  | nil =>
    rw [chain]
    refine ⟨fun h => ?_, fun h => ?_⟩
    · obtain ⟨_, h⟩ := h
      cases h
      exact .inl ⟨by simp, rfl, rfl⟩
    · obtain ⟨-, rfl, rfl⟩ | ⟨_, _, _, _, _, _, _, h, _⟩ := h
      · exact ⟨Nat.le_refl _, rfl⟩
      · cases h
  | cons t us =>
    rw [chain]
    refine ⟨fun h => ?_, fun h => ?_⟩
    · split at h
      · rename_i hop
        obtain ⟨_, h⟩ := h
        cases h
        exact .inl ⟨by simpa using hop, rfl, rfl⟩
      · rename_i op hop
        split at h
        · exact absurd h not_extends_error
        · rename_i b
          obtain ⟨right, mid, hm, hr, h⟩ := extends_bind.mp h
          dsimp only at h
          cases hc : chain stop rank b (.binary op left right t.location) mid with
          | error f =>
            rw [hc] at h
            exact absurd h not_extends_error
          | ok all =>
            rw [hc] at h
            obtain ⟨_, h⟩ := h
            cases h
            exact .inr ⟨b, t, us, op, right, mid, rfl, rfl, hop, ⟨hm, hr⟩, all.2.2, hc⟩
    · obtain ⟨hop, rfl, rfl⟩ | ⟨b, _, _, op, right, mid, rfl, h, hop, ⟨hm, hr⟩, hle, hc⟩ := h
      · rw [hop t rfl]
        exact ⟨Nat.le_refl _, rfl⟩
      · cases h
        rw [hop]
        refine extends_bind.mpr ⟨right, mid, hm, hr, ?_⟩
        dsimp only
        rw [hc]
        exact ⟨Nat.le_of_lt (Nat.lt_of_le_of_lt hle (Nat.lt_succ_of_lt hm)), rfl⟩

theorem unary_reads : Reads (unary stop budget tokens) e rest ↔
    ∃ t ts, tokens = t :: ts ∧
      (unaryOp? t.kind = none ∧ Reads (operand stop budget (t :: ts)) e rest ∨
        ∃ b op a, budget = b + 1 ∧ unaryOp? t.kind = some op ∧ Reads (unary stop b ts) a rest ∧
          e = .unary op a t.location) := by
  cases tokens with
  | nil =>
    rw [unary]
    refine ⟨fun h => absurd h not_reads_error, fun h => ?_⟩
    obtain ⟨_, _, h, _⟩ := h
    cases h
  | cons t ts =>
    rw [unary]
    refine ⟨fun h => ?_, fun h => ?_⟩
    · refine ⟨t, ts, rfl, ?_⟩
      split at h
      · rename_i hop
        exact .inl ⟨hop, h⟩
      · rename_i op hop
        split at h
        · exact absurd h not_reads_error
        · rename_i b
          obtain ⟨a, mid, hm, ha, h⟩ := reads_bind.mp h
          obtain ⟨rfl, rfl⟩ := reads_ok.mp h
          exact .inr ⟨b, op, a, rfl, hop, ⟨hm, ha⟩, rfl⟩
    · obtain ⟨_, _, h, hop⟩ := h
      cases h
      obtain ⟨hop, h⟩ | ⟨b, op, a, rfl, hop, ⟨hm, ha⟩, rfl⟩ := hop
      · rw [hop]
        exact h
      · rw [hop]
        exact reads_bind.mpr ⟨a, rest, hm, ha, reads_ok.mpr ⟨rfl, rfl⟩⟩

theorem operand_reads_literal {t : Token} (h : IsLiteral t.kind) :
    Reads (operand stop budget (t :: tokens)) e rest ↔
      e = .literal (t.literal.getD .null) t.location ∧ rest = tokens := by
  have hp : operand stop budget (t :: tokens) =
      .ok ⟨.literal (t.literal.getD .null) t.location, tokens, Nat.lt_succ_self _⟩ := by
    rw [operand.eq_def]
    dsimp only
    generalize t.kind = k at h
    cases h <;> rfl
  rw [hp, reads_ok, eq_comm, @eq_comm _ tokens]

theorem operand_reads_field {t : Token} (h : t.kind = .name) : Reads (operand stop budget (t :: tokens)) e rest ↔
    e = .field (Text.segments t.raw) t.location ∧ rest = tokens := by
  rw [operand.eq_def]
  simp only [h]
  rw [reads_ok, eq_comm, @eq_comm _ tokens]

theorem operand_reads_call {t : Token} (h : t.kind = .function) : Reads (operand stop budget (t :: tokens)) e rest ↔
    ∃ b o us es, budget = b + 1 ∧ tokens = o :: us ∧ o.kind = .openParen ∧
      Reads (arguments stop b us) es rest ∧ e = .call t.raw es t.location := by
  rw [operand.eq_def]
  simp only [h]
  rw [reads_bind]
  refine ⟨fun h => ?_, fun h => ?_⟩
  · obtain ⟨_, us, hu, ho, hr⟩ := h
    obtain ⟨o, rfl, hk⟩ := expect_reads.mp ⟨hu, ho⟩
    split at hr
    · exact absurd hr not_reads_error
    · rename_i b
      obtain ⟨es, mid, hm, hes, hr⟩ := reads_bind.mp hr
      obtain ⟨rfl, rfl⟩ := reads_ok.mp hr
      exact ⟨b, o, us, es, rfl, rfl, hk, ⟨hm, hes⟩, rfl⟩
  · obtain ⟨b, o, us, es, rfl, rfl, hk, ⟨hm, hes⟩, rfl⟩ := h
    have hexpect : Reads (expect stop .openParen (b + 1) (o :: us)) () us := expect_reads.mpr ⟨o, rfl, hk⟩
    obtain ⟨hu, ho⟩ := hexpect
    exact ⟨(), us, hu, ho, reads_bind.mpr ⟨es, rest, hm, hes, reads_ok.mpr ⟨rfl, rfl⟩⟩⟩

theorem operand_reads_parens {t : Token} (h : t.kind = .openParen) :
    Reads (operand stop budget (t :: tokens)) e rest ↔
      ∃ b c, budget = b + 1 ∧ Reads (conditional stop b tokens) e (c :: rest) ∧ c.kind = .closeParen := by
  rw [operand.eq_def]
  simp only [h]
  refine ⟨fun hr => ?_, fun h => ?_⟩
  · split at hr
    · exact absurd hr not_reads_error
    · rename_i b
      obtain ⟨a, mid, hm, ha, hr⟩ := reads_bind.mp hr
      obtain ⟨_, us, hu, hc, hr⟩ := reads_bind.mp hr
      obtain ⟨rfl, rfl⟩ := reads_ok.mp hr
      obtain ⟨c, rfl, hk⟩ := expect_reads.mp ⟨hu, hc⟩
      exact ⟨b, c, rfl, ⟨hm, ha⟩, hk⟩
  · obtain ⟨b, c, rfl, ⟨hm, ha⟩, hk⟩ := h
    have hexpect : Reads (expect stop .closeParen b (c :: rest)) () rest := expect_reads.mpr ⟨c, rfl, hk⟩
    obtain ⟨hu, hc⟩ := hexpect
    exact reads_bind.mpr ⟨e, _, hm, ha, reads_bind.mpr ⟨(), rest, hu, hc, reads_ok.mpr ⟨rfl, rfl⟩⟩⟩

/-- An operand begins in one of four ways. -/
theorem operand_begins (h : Reads (operand stop budget tokens) e rest) :
    ∃ t ts, tokens = t :: ts ∧
      (IsLiteral t.kind ∨ t.kind = .name ∨ t.kind = .function ∨ t.kind = .openParen) := by
  cases tokens with
  | nil =>
    rw [operand.eq_def] at h
    exact absurd h not_reads_error
  | cons t ts =>
    refine ⟨t, ts, rfl, ?_⟩
    rw [operand.eq_def] at h
    dsimp only at h
    split at h <;> rename_i hk
    · exact .inl (hk ▸ .bool)
    · exact .inl (hk ▸ .number)
    · exact .inl (hk ▸ .string)
    · exact .inl (hk ▸ .null)
    · exact .inr (.inl hk)
    · exact .inr (.inr (.inl hk))
    · exact .inr (.inr (.inr hk))
    · exact absurd h not_reads_error

theorem moreArguments_reads {es : List Expr} : Reads (moreArguments stop budget tokens) es rest ↔
    ∃ a t us, Reads (conditional stop budget tokens) a (t :: us) ∧
      (t.kind = .closeParen ∧ es = [a] ∧ rest = us ∨
        t.kind = .comma ∧ ∃ bs, Reads (moreArguments stop budget us) bs rest ∧ es = a :: bs) := by
  rw [moreArguments, reads_bind]
  refine ⟨fun h => ?_, fun h => ?_⟩
  · obtain ⟨a, mid, hm, ha, h⟩ := h
    cases mid with
    | nil => exact absurd h not_reads_error
    | cons t us =>
      refine ⟨a, t, us, ⟨hm, ha⟩, ?_⟩
      dsimp only at h
      split at h
      · rename_i hk
        obtain ⟨bs, mid, hb, hbs, h⟩ := reads_bind.mp h
        obtain ⟨rfl, rfl⟩ := reads_ok.mp h
        exact .inr ⟨hk, bs, ⟨hb, hbs⟩, rfl⟩
      · split at h
        · rename_i hk
          obtain ⟨rfl, rfl⟩ := reads_ok.mp h
          exact .inl ⟨hk, rfl, rfl⟩
        · exact absurd h not_reads_error
  · obtain ⟨a, t, us, ⟨hm, ha⟩, h⟩ := h
    refine ⟨a, _, hm, ha, ?_⟩
    dsimp only
    obtain ⟨hk, rfl, rfl⟩ | ⟨hk, bs, ⟨hb, hbs⟩, rfl⟩ := h
    · rw [if_neg (by simp [hk]), if_pos hk]
      exact reads_ok.mpr ⟨rfl, rfl⟩
    · rw [if_pos hk]
      exact reads_bind.mpr ⟨bs, rest, hb, hbs, reads_ok.mpr ⟨rfl, rfl⟩⟩

theorem arguments_reads {es : List Expr} : Reads (arguments stop budget tokens) es rest ↔
    (∃ c, tokens = c :: rest ∧ c.kind = .closeParen ∧ es = []) ∨
      (∀ t ∈ tokens.head?, t.kind ≠ .closeParen) ∧ Reads (moreArguments stop budget tokens) es rest := by
  cases tokens with
  | nil =>
    rw [arguments]
    refine ⟨fun h => .inr ⟨by simp, h⟩, ?_⟩
    intro h
    obtain ⟨_, h, _⟩ | ⟨-, h⟩ := h
    · cases h
    · exact h
  | cons t ts =>
    rw [arguments]
    by_cases hk : t.kind = .closeParen
    · rw [if_pos hk]
      refine ⟨fun h => ?_, fun h => ?_⟩
      · obtain ⟨rfl, rfl⟩ := reads_ok.mp h
        exact .inl ⟨t, rfl, hk, rfl⟩
      · obtain ⟨_, h, _, rfl⟩ | ⟨h, _⟩ := h
        · cases h
          exact reads_ok.mpr ⟨rfl, rfl⟩
        · exact absurd hk (h t rfl)
    · rw [if_neg hk]
      refine ⟨fun h => .inr ⟨by simpa using hk, h⟩, ?_⟩
      intro h
      obtain ⟨_, h, hc, _⟩ | ⟨-, h⟩ := h
      · cases h
        exact absurd hc hk
      · exact h

end

end Parser

end RecordLogic
