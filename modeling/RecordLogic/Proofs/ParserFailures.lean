import RecordLogic.Proofs.Outcome
import RecordLogic.Proofs.ParserSteps

/-!
# Where the parser fails

A function of the parser fails where one of its parts does, behind the parts that it has read by then, or where it
finds another token than it asks for, or where the budget is spent. The lemmas say for each function which parts
those are.
-/

namespace RecordLogic

namespace Parser

open Grammar (IsLiteral)

variable {stop : Location} {budget : Nat} {tokens : List Token} {f : Failure}

theorem expect_fails {kind : Token.Kind} (h : expect stop kind budget tokens = .error f) :
    f = unexpected stop (.kind kind) budget tokens ∧ ∀ t ∈ tokens.head?, t.kind ≠ kind := by
  cases tokens with
  | nil =>
    cases h
    exact ⟨rfl, by simp⟩
  | cons t ts =>
    unfold expect at h
    by_cases hk : t.kind = kind
    · simp [hk] at h
    · simp only [hk, ite_false, Except.error.injEq] at h
      exact ⟨h.symm, by simpa using hk⟩

theorem conditional_fails (h : conditional stop budget tokens = .error f) :
    binary stop 6 budget tokens = .error f ∨
      ∃ c q us, Reads (binary stop 6 budget tokens) c (q :: us) ∧ q.kind = .question ∧
        (f = tooDeep stop us ∨ ∃ b, conditional stop b us = .error f ∨
          ∃ y mid, Reads (conditional stop b us) y mid ∧
            (expect stop .colon b mid = .error f ∨
              ∃ colon vs, mid = colon :: vs ∧ colon.kind = .colon ∧ conditional stop b vs = .error f)) := by
  rw [conditional] at h
  obtain h | ⟨c, hc, h⟩ := bind_eq_error.mp h
  · exact .inl h
  obtain ⟨c, mid, hm⟩ := c
  cases mid with
  | nil => cases h
  | cons q us =>
    dsimp only at h
    split at h
    · rename_i hq
      refine .inr ⟨c, q, us, ⟨hm, hc⟩, hq, ?_⟩
      cases budget with
      | zero =>
        cases h
        exact .inl rfl
      | succ b =>
        refine .inr ⟨b, ?_⟩
        obtain h | ⟨y, hy, h⟩ := bind_eq_error.mp h
        · exact .inl h
        obtain ⟨y, mid, hy'⟩ := y
        refine .inr ⟨y, mid, ⟨hy', hy⟩, ?_⟩
        obtain h | ⟨colon, hcolon, h⟩ := bind_eq_error.mp h
        · exact .inl h
        obtain ⟨_, vs, hv⟩ := colon
        obtain ⟨colon, rfl, hk⟩ := expect_reads.mp ⟨hv, hcolon⟩
        obtain h | ⟨n, hn, h⟩ := bind_eq_error.mp h
        · exact .inr ⟨colon, vs, rfl, hk, h⟩
        · cases h
    · cases h

theorem binary_fails {rank : Nat} (h : binary stop (rank + 1) budget tokens = .error f) :
    binary stop rank budget tokens = .error f ∨
      ∃ left mid, Reads (binary stop rank budget tokens) left mid ∧ chain stop rank budget left mid = .error f := by
  rw [binary] at h
  obtain h | ⟨left, hleft, h⟩ := bind_eq_error.mp h
  · exact .inl h
  obtain ⟨left, mid, hm⟩ := left
  obtain h | ⟨all, hall, h⟩ := bind_eq_error.mp h
  · exact .inr ⟨left, mid, ⟨hm, hleft⟩, h⟩
  · cases h

theorem chain_fails {rank : Nat} {left : Expr} (h : chain stop rank budget left tokens = .error f) :
    ∃ t us op, tokens = t :: us ∧ BinaryOp.atLevel? (5 - rank) t.kind = some op ∧
      (f = tooDeep stop us ∨ ∃ b, binary stop rank b us = .error f ∨
        ∃ right mid, Reads (binary stop rank b us) right mid ∧
          chain stop rank b (.binary op left right t.location) mid = .error f) := by
  cases tokens with
  | nil =>
    rw [chain] at h
    cases h
  | cons t us =>
    rw [chain] at h
    split at h
    · cases h
    · rename_i op hop
      refine ⟨t, us, op, rfl, hop, ?_⟩
      split at h
      · cases h
        exact .inl rfl
      · rename_i b
        refine .inr ⟨b, ?_⟩
        obtain h | ⟨right, hright, h⟩ := bind_eq_error.mp h
        · exact .inl h
        obtain ⟨right, mid, hm⟩ := right
        obtain h | ⟨all, hall, h⟩ := bind_eq_error.mp h
        · exact .inr ⟨right, mid, ⟨hm, hright⟩, h⟩
        · cases h

theorem unary_fails (h : unary stop budget tokens = .error f) :
    tokens = [] ∧ f = unexpected stop .operand budget tokens ∨
      ∃ t us, tokens = t :: us ∧
        (unaryOp? t.kind = none ∧ operand stop budget (t :: us) = .error f ∨
          ∃ op, unaryOp? t.kind = some op ∧ (f = tooDeep stop us ∨ ∃ b, unary stop b us = .error f)) := by
  cases tokens with
  | nil =>
    rw [unary] at h
    cases h
    exact .inl ⟨rfl, rfl⟩
  | cons t us =>
    rw [unary] at h
    refine .inr ⟨t, us, rfl, ?_⟩
    split at h
    · rename_i hop
      exact .inl ⟨hop, h⟩
    · rename_i op hop
      refine .inr ⟨op, hop, ?_⟩
      split at h
      · cases h
        exact .inl rfl
      · rename_i b
        obtain h | ⟨e, he, h⟩ := bind_eq_error.mp h
        · exact .inr ⟨b, h⟩
        · cases h

theorem operand_fails {t : Token} (h : operand stop budget (t :: tokens) = .error f) :
    (¬ IsLiteral t.kind ∧ t.kind ≠ .name ∧ t.kind ≠ .function ∧ t.kind ≠ .openParen) ∧
        f = unexpected stop .operand budget (t :: tokens) ∨
      t.kind = .function ∧
        (expect stop .openParen budget tokens = .error f ∨
          ∃ o us, tokens = o :: us ∧ o.kind = .openParen ∧
            (f = tooDeep stop us ∨ ∃ b, arguments stop b us = .error f)) ∨
      t.kind = .openParen ∧
        (f = tooDeep stop tokens ∨ ∃ b, conditional stop b tokens = .error f ∨
          ∃ e mid, Reads (conditional stop b tokens) e mid ∧ expect stop .closeParen b mid = .error f) := by
  rw [operand.eq_def] at h
  dsimp only at h
  split at h
  · cases h
  · cases h
  · cases h
  · cases h
  · cases h
  · rename_i hk
    refine .inr (.inl ⟨hk, ?_⟩)
    obtain h | ⟨opened, hopened, h⟩ := bind_eq_error.mp h
    · exact .inl h
    obtain ⟨_, us, hu⟩ := opened
    obtain ⟨o, rfl, ho⟩ := expect_reads.mp ⟨hu, hopened⟩
    refine .inr ⟨o, us, rfl, ho, ?_⟩
    cases budget with
    | zero =>
      cases h
      exact .inl rfl
    | succ b =>
      obtain h | ⟨args, hargs, h⟩ := bind_eq_error.mp h
      · exact .inr ⟨b, h⟩
      · cases h
  · rename_i hk
    refine .inr (.inr ⟨hk, ?_⟩)
    split at h
    · cases h
      exact .inl rfl
    · rename_i b
      refine .inr ⟨b, ?_⟩
      obtain h | ⟨e, he, h⟩ := bind_eq_error.mp h
      · exact .inl h
      obtain ⟨e, mid, hm⟩ := e
      obtain h | ⟨closed, hclosed, h⟩ := bind_eq_error.mp h
      · exact .inr ⟨e, mid, ⟨hm, he⟩, h⟩
      · cases h
  · cases h
    refine .inl ⟨⟨?_, by assumption, by assumption, by assumption⟩, rfl⟩
    intro hl
    generalize t.kind = k at *
    cases hl <;> contradiction

theorem arguments_fails (h : arguments stop budget tokens = .error f) :
    (∀ t ∈ tokens.head?, t.kind ≠ .closeParen) ∧ moreArguments stop budget tokens = .error f := by
  cases tokens with
  | nil =>
    rw [arguments] at h
    exact ⟨by simp, h⟩
  | cons t us =>
    rw [arguments] at h
    by_cases hk : t.kind = .closeParen
    · rw [if_pos hk] at h
      cases h
    · rw [if_neg hk] at h
      exact ⟨by simpa using hk, h⟩

theorem moreArguments_fails (h : moreArguments stop budget tokens = .error f) :
    conditional stop budget tokens = .error f ∨
      ∃ a mid, Reads (conditional stop budget tokens) a mid ∧
        ((∀ t ∈ mid.head?, t.kind ≠ .comma ∧ t.kind ≠ .closeParen) ∧ f = unexpected stop .nextArgument budget mid ∨
          ∃ t us, mid = t :: us ∧ t.kind = .comma ∧ moreArguments stop budget us = .error f) := by
  rw [moreArguments] at h
  obtain h | ⟨a, ha, h⟩ := bind_eq_error.mp h
  · exact .inl h
  obtain ⟨a, mid, hm⟩ := a
  refine .inr ⟨a, mid, ⟨hm, ha⟩, ?_⟩
  cases mid with
  | nil =>
    cases h
    exact .inl ⟨by simp, rfl⟩
  | cons t us =>
    dsimp only at h
    by_cases hcomma : t.kind = .comma
    · rw [if_pos hcomma] at h
      obtain h | ⟨more, hmore, h⟩ := bind_eq_error.mp h
      · exact .inr ⟨t, us, rfl, hcomma, h⟩
      · cases h
    · rw [if_neg hcomma] at h
      by_cases hclose : t.kind = .closeParen
      · rw [if_pos hclose] at h
        cases h
      · rw [if_neg hclose] at h
        cases h
        exact .inl ⟨by simp [hcomma, hclose], rfl⟩

end Parser

end RecordLogic
