import RecordLogic.Proofs.Outcome
import RecordLogic.Proofs.ParserSound

/-!
# Exactness of the parser

Given a phrase of the grammar and something that closes it, the parser reads the phrase's tree and stops at its
end if the budget covers the nesting, and fails otherwise. With soundness this says what the parser accepts, and
that a text has at most one tree and one nesting.
-/

namespace RecordLogic

namespace Grammar

/-! ## How phrases begin -/

inductive Opens : Token.Kind → Prop
  | literal {k : Token.Kind} : IsLiteral k → Opens k
  | name : Opens .name
  | function : Opens .function
  | parens : Opens .openParen
  | sign {k : Token.Kind} {op : UnaryOp} : Sign k op → Opens k

theorem Opens.ne_closeParen {k : Token.Kind} (h : Opens k) : k ≠ .closeParen := by
  intro hk
  subst hk
  cases h with
  | literal h => cases h
  | sign h => cases h

theorem IsLiteral.not_sign {k : Token.Kind} {op : UnaryOp} (h : IsLiteral k) : ¬ Sign k op := by
  intro hs
  cases h <;> cases hs

theorem Operand.opens {ts : List Token} {e : Expr} {n : Nat} (h : Operand ts e n) :
    ∃ t us, ts = t :: us ∧ Opens t.kind ∧ ∀ op, ¬ Sign t.kind op := by
  cases h with
  | literal hk => exact ⟨_, _, rfl, .literal hk, fun _ => hk.not_sign⟩
  | field hk => exact ⟨_, _, rfl, hk ▸ .name, fun _ hs => by rw [hk] at hs; cases hs⟩
  | call hk => exact ⟨_, _, rfl, hk ▸ .function, fun _ hs => by rw [hk] at hs; cases hs⟩
  | callWith hk => exact ⟨_, _, rfl, hk ▸ .function, fun _ hs => by rw [hk] at hs; cases hs⟩
  | parens hk => exact ⟨_, _, rfl, hk ▸ .parens, fun _ hs => by rw [hk] at hs; cases hs⟩

theorem Unary.opens {ts : List Token} {e : Expr} {n : Nat} (h : Unary ts e n) :
    ∃ t us, ts = t :: us ∧ Opens t.kind := by
  cases h with
  | operand h =>
    obtain ⟨t, us, hts, ho, -⟩ := h.opens
    exact ⟨t, us, hts, ho⟩
  | signed hs _ => exact ⟨_, _, rfl, .sign hs⟩

theorem Chain.opens {rank : Nat} {ts : List Token} {e : Expr} {n k : Nat} (h : Chain rank ts e n k) :
    ∃ t us, ts = t :: us ∧ Opens t.kind := by
  match h with
  | .unary h => exact h.opens
  | .operand h => exact h.opens
  | .operator h _ _ =>
    obtain ⟨t, us, rfl, ho⟩ := h.opens
    exact ⟨t, _, rfl, ho⟩

theorem Conditional.opens {ts : List Token} {e : Expr} {n : Nat} (h : Conditional ts e n) :
    ∃ t us, ts = t :: us ∧ Opens t.kind := by
  cases h with
  | binary h => exact h.opens
  | branches h =>
    obtain ⟨t, us, rfl, ho⟩ := h.opens
    exact ⟨t, _, rfl, ho⟩

theorem Arguments.opens {ts : List Token} {es : List Expr} {n : Nat} (h : Arguments ts es n) :
    ∃ t us, ts = t :: us ∧ Opens t.kind := by
  cases h with
  | last h => exact h.opens
  | more h =>
    obtain ⟨t, us, rfl, ho⟩ := h.opens
    exact ⟨t, _, rfl, ho⟩

/-! ## What closes phrases -/

theorem Operator.stops {rank : Nat} {t : Token} {op : BinaryOp} (h : Operator (rank + 1) t.kind op)
    (ts : List Token) : Stops rank (t :: ts) := by
  intro u hu j hj op' h'
  cases hu
  have := (h.unique h').1
  omega

theorem closed_nil : Closed [] := ⟨by simp [Stops], by simp⟩

theorem closed_cons {t : Token} (hop : ∀ rank op, ¬ Operator rank t.kind op) (hq : t.kind ≠ .question)
    (ts : List Token) : Closed (t :: ts) := by
  refine ⟨?_, ?_⟩
  · intro u hu j _ op
    cases hu
    exact hop j op
  · intro u hu
    cases hu
    exact hq

theorem closed_of_colon {t : Token} (h : t.kind = .colon) (ts : List Token) : Closed (t :: ts) :=
  closed_cons (fun _ _ ho => by rw [h] at ho; cases ho) (by simp [h]) ts

theorem closed_of_comma {t : Token} (h : t.kind = .comma) (ts : List Token) : Closed (t :: ts) :=
  closed_cons (fun _ _ ho => by rw [h] at ho; cases ho) (by simp [h]) ts

theorem closed_of_closeParen {t : Token} (h : t.kind = .closeParen) (ts : List Token) : Closed (t :: ts) :=
  closed_cons (fun _ _ ho => by rw [h] at ho; cases ho) (by simp [h]) ts

theorem stops_of_question {t : Token} (h : t.kind = .question) (ts : List Token) : Stops 6 (t :: ts) := by
  intro u hu j _ op ho
  cases hu
  rw [h] at ho
  cases ho

end Grammar

namespace Parser

open Grammar

variable {stop : Location}

/-- The outcome of reading a phrase with tree `a` and nesting `n` in front of `rest`. -/
def Exactly {α : Type} {tokens : List Token} (x : Except Failure (Parsed α tokens)) (n budget : Nat) (a : α)
    (rest : List Token) : Prop :=
  ∀ b rest', Reads x b rest' ↔ n ≤ budget ∧ b = a ∧ rest' = rest

theorem chain_extends_stop {rank : Nat} (hr : rank ≤ 5) {budget : Nat} {a e : Expr} {mid rest : List Token}
    (h : Stops (rank + 1) mid) : Extends (chain stop rank budget a mid) e rest ↔ e = a ∧ rest = mid := by
  have hnone : ∀ t ∈ mid.head?, BinaryOp.atLevel? (5 - rank) t.kind = none := fun t ht =>
    (atLevel?_eq_none hr).mpr (h t ht (rank + 1) (Nat.le_refl _))
  rw [chain_extends]
  refine ⟨fun h => ?_, fun h => ?_⟩
  · obtain ⟨-, he, hrest⟩ | ⟨_, t, _, _, _, _, -, rfl, hop, -⟩ := h
    · exact ⟨he, hrest⟩
    · rw [hnone t rfl] at hop
      cases hop
  · obtain ⟨he, hrest⟩ := h
    exact .inl ⟨hnone, he, hrest⟩

def GoesOn (stop : Location) (rank : Nat) (ts : List Token) (a : Expr) (n k : Nat) : Prop :=
  ∀ budget mid e rest, Stops rank mid → (Reads (binary stop (rank + 1) budget (ts ++ mid)) e rest ↔
    n ≤ budget ∧ Extends (chain stop rank (budget - k) a mid) e rest)

theorem GoesOn.exactly {rank : Nat} (hr : rank ≤ 5) {ts : List Token} {a : Expr} {n k : Nat}
    (h : GoesOn stop rank ts a n k) (budget : Nat) {rest : List Token} (hstop : Stops (rank + 1) rest) :
    Exactly (binary stop (rank + 1) budget (ts ++ rest)) n budget a rest := by
  intro e rest'
  rw [h budget rest e rest' (hstop.mono (Nat.le_succ rank)), chain_extends_stop hr hstop]

theorem goesOn_operand {rank : Nat} {ts : List Token} {a : Expr} {n : Nat}
    (h : ∀ budget mid, Stops rank mid → Exactly (binary stop rank budget (ts ++ mid)) n budget a mid) :
    GoesOn stop rank ts a n 0 := by
  intro budget mid e rest hstop
  rw [binary_reads]
  refine ⟨fun hr => ?_, fun hr => ?_⟩
  · obtain ⟨left, mid', hl, hext⟩ := hr
    obtain ⟨hn, rfl, rfl⟩ := (h budget mid hstop _ _).mp hl
    exact ⟨hn, hext⟩
  · obtain ⟨hn, hext⟩ := hr
    exact ⟨a, mid, (h budget mid hstop _ _).mpr ⟨hn, rfl, rfl⟩, hext⟩

theorem goesOn_operator {rank : Nat} (hr : rank ≤ 5) {ts us : List Token} {t : Token} {op : BinaryOp} {a b : Expr}
    {n m k : Nat} (ha : GoesOn stop rank ts a n k) (hop : Operator (rank + 1) t.kind op)
    (hb : ∀ budget mid, Stops rank mid → Exactly (binary stop rank budget (us ++ mid)) m budget b mid) :
    GoesOn stop rank (ts ++ t :: us) (.binary op a b t.location) (max n (k + 1 + m)) (k + 1) := by
  intro budget mid e rest hstop
  have hsome := (atLevel?_eq_some hr).mpr hop
  rw [List.append_assoc, List.cons_append, ha _ _ _ _ (hop.stops _), chain_extends]
  refine ⟨fun h => ?_, fun h => ?_⟩
  · obtain ⟨hn, ⟨hnone, -⟩ | ⟨c, _, _, op', right, mid', hc, htok, hop', hright, hext⟩⟩ := h
    · rw [hnone t rfl] at hsome
      cases hsome
    · cases htok
      rw [hsome] at hop'
      cases hop'
      obtain ⟨hm, rfl, rfl⟩ := (hb c mid hstop _ _).mp hright
      rw [show budget - (k + 1) = c by omega]
      exact ⟨by omega, hext⟩
  · obtain ⟨hn, hext⟩ := h
    have hright := (hb (budget - (k + 1)) mid hstop b mid).mpr ⟨by omega, rfl, rfl⟩
    exact ⟨by omega, .inr ⟨budget - (k + 1), t, us ++ mid, op, b, mid, by omega, rfl, hsome, hright, hext⟩⟩

theorem arguments_none {budget : Nat} {c : Token} (hc : c.kind = .closeParen) (rest : List Token) :
    Exactly (arguments stop budget (c :: rest)) 0 budget [] rest := by
  intro es rest'
  rw [arguments_reads]
  refine ⟨fun h => ?_, fun h => ?_⟩
  · obtain ⟨_, h, -, rfl⟩ | ⟨h, -⟩ := h
    · cases h
      exact ⟨Nat.zero_le _, rfl, rfl⟩
    · exact absurd hc (h c rfl)
  · obtain ⟨-, rfl, rfl⟩ := h
    exact .inl ⟨c, rfl, hc, rfl⟩

theorem arguments_some {budget n : Nat} {ts rest : List Token} {es : List Expr} (hts : Arguments ts es n)
    {us : List Token} (h : Exactly (moreArguments stop budget (ts ++ us)) n budget es rest) :
    Exactly (arguments stop budget (ts ++ us)) n budget es rest := by
  obtain ⟨t, ts, rfl, ht⟩ := hts.opens
  intro bs rest'
  rw [arguments_reads, ← h]
  refine ⟨fun hr => ?_, fun hr => .inr ⟨fun u hu => ?_, hr⟩⟩
  · obtain ⟨_, htok, hk, -⟩ | ⟨-, hmore⟩ := hr
    · cases htok
      exact absurd hk ht.ne_closeParen
    · exact hmore
  · cases hu
    exact ht.ne_closeParen

theorem exactly_call {f o : Token} (hf : f.kind = .function) (ho : o.kind = .openParen) {us rest : List Token}
    {es : List Expr} {n : Nat} (h : ∀ b, Exactly (arguments stop b us) n b es rest) (budget : Nat) :
    Exactly (operand stop budget (f :: o :: us)) (n + 1) budget (.call f.raw es f.location) rest := by
  intro e rest'
  rw [operand_reads_call hf]
  refine ⟨fun hr => ?_, fun hr => ?_⟩
  · obtain ⟨b, _, _, es', rfl, htok, -, hes, rfl⟩ := hr
    cases htok
    obtain ⟨hn, rfl, rfl⟩ := (h b _ _).mp hes
    exact ⟨by omega, rfl, rfl⟩
  · obtain ⟨hn, rfl, rfl⟩ := hr
    obtain ⟨b, rfl⟩ : ∃ b, budget = b + 1 := ⟨budget - 1, by omega⟩
    exact ⟨b, o, us, es, rfl, rfl, ho, (h b _ _).mpr ⟨by omega, rfl, rfl⟩, rfl⟩

mutual

theorem operand_exact : ∀ {ts : List Token} {e : Expr} {n : Nat}, Operand ts e n →
    ∀ (budget : Nat) (rest : List Token), Exactly (operand stop budget (ts ++ rest)) n budget e rest
  | _, _, _, .literal hk, budget, rest => by
    intro e' rest'
    rw [List.singleton_append, operand_reads_literal hk]
    exact ⟨fun h => ⟨Nat.zero_le _, h⟩, fun h => h.2⟩
  | _, _, _, .field hk, budget, rest => by
    intro e' rest'
    rw [List.singleton_append, operand_reads_field hk]
    exact ⟨fun h => ⟨Nat.zero_le _, h⟩, fun h => h.2⟩
  | _, _, _, .call hk ho hc, budget, rest => exactly_call hk ho (fun _ => arguments_none hc rest) budget
  | _, _, _, @Operand.callWith _ _ c ts _ _ hk ho hargs hc, budget, rest => by
    have h : ∀ b, Exactly (arguments stop b (ts ++ c :: rest)) _ b _ rest := fun b =>
      arguments_some hargs (moreArguments_exact hargs b rest hc)
    rw [List.cons_append, List.cons_append, List.append_assoc]
    exact exactly_call hk ho h budget
  | _, _, _, .parens (c := c) hk he hc, budget, rest => by
    have h := fun b => conditional_exact he b (closed_of_closeParen hc rest)
    intro e' rest'
    rw [List.cons_append, List.append_assoc, operand_reads_parens hk]
    refine ⟨fun h => ?_, fun h => ?_⟩
    · obtain ⟨b, _, rfl, hr, -⟩ := h
      obtain ⟨hn, rfl, hrest⟩ := (h b _ _).mp hr
      cases hrest
      exact ⟨by omega, rfl, rfl⟩
    · obtain ⟨hn, rfl, rfl⟩ := h
      obtain ⟨b, rfl⟩ : ∃ b, budget = b + 1 := ⟨budget - 1, by omega⟩
      exact ⟨b, c, rfl, (h b _ _).mpr ⟨by omega, rfl, rfl⟩, hc⟩

theorem unary_exact : ∀ {ts : List Token} {e : Expr} {n : Nat}, Unary ts e n →
    ∀ (budget : Nat) (rest : List Token), Exactly (unary stop budget (ts ++ rest)) n budget e rest
  | _, _, _, .operand h, budget, rest => by
    have hread := operand_exact h budget rest
    obtain ⟨t, us, rfl, -, hsign⟩ := h.opens
    intro e' rest'
    rw [unary_reads, ← hread]
    refine ⟨fun h => ?_, fun ho => ?_⟩
    · obtain ⟨_, _, htok, ⟨-, ho⟩ | ⟨_, op, _, -, hop, -⟩⟩ := h <;> cases htok
      · exact ho
      · exact absurd (unaryOp?_eq_some.mp hop) (hsign op)
    · exact ⟨t, us ++ rest, rfl, .inl ⟨unaryOp?_eq_none.mpr hsign, ho⟩⟩
  | _, _, _, @Unary.signed t op _ e _ hs h, budget, rest => by
    have hread := fun b => unary_exact h b rest
    have hsome := unaryOp?_eq_some.mpr hs
    intro e' rest'
    rw [unary_reads]
    refine ⟨fun h => ?_, fun h => ?_⟩
    · obtain ⟨_, _, htok, ⟨hnone, -⟩ | ⟨b, op', a, rfl, hop, ha, rfl⟩⟩ := h <;> cases htok
      · rw [hsome] at hnone
        cases hnone
      · rw [hsome] at hop
        cases hop
        obtain ⟨hn, rfl, rfl⟩ := (hread b _ _).mp ha
        exact ⟨by omega, rfl, rfl⟩
    · obtain ⟨hn, rfl, rfl⟩ := h
      obtain ⟨b, rfl⟩ : ∃ b, budget = b + 1 := ⟨budget - 1, by omega⟩
      exact ⟨t, _, rfl, .inr ⟨b, op, e, rfl, hsome, (hread b _ _).mpr ⟨by omega, rfl, rfl⟩, rfl⟩⟩

theorem chain_exact : ∀ {rank : Nat} {ts : List Token} {e : Expr} {n k : Nat}, Chain rank ts e n k → rank ≤ 6 →
    (∀ budget mid, Stops rank mid → Exactly (binary stop rank budget (ts ++ mid)) n budget e mid) ∧
      ∀ r, rank = r + 1 → GoesOn stop r ts e n k
  | _, _, _, _, _, .unary h, hr => by
    have hu := fun b mid => unary_exact h b mid
    refine ⟨fun budget mid _ => ?_, fun r hr => by omega⟩
    rw [binary_zero]
    exact hu budget mid
  -- Above the lowest rank the loop is what goes through the induction, and the whole reading follows from it.
  | _, _, _, _, _, @Chain.operand rank _ _ _ _ h, hr => by
    have hon := goesOn_operand (chain_exact h (by omega)).1
    refine ⟨fun budget mid => hon.exactly (by omega) budget, fun r hr => ?_⟩
    cases hr
    exact hon
  | _, _, _, _, _, @Chain.operator rank _ _ _ _ _ _ _ _ _ _ ha hop hb, hr => by
    have hon := goesOn_operator (by omega) ((chain_exact ha hr).2 rank rfl) hop (chain_exact hb (by omega)).1
    refine ⟨fun budget mid => hon.exactly (by omega) budget, fun r hr => ?_⟩
    cases hr
    exact hon

theorem conditional_exact : ∀ {ts : List Token} {e : Expr} {n : Nat}, Conditional ts e n →
    ∀ (budget : Nat) {rest : List Token}, Closed rest → Exactly (conditional stop budget (ts ++ rest)) n budget e rest
  | _, _, _, .binary h, budget, rest, hclosed => by
    have hc := (chain_exact h (Nat.le_refl 6)).1 budget rest hclosed.1
    intro e' rest'
    rw [conditional_reads]
    refine ⟨fun h => ?_, fun h => ?_⟩
    · obtain ⟨c, mid, hr, ⟨-, rfl, rfl⟩ | ⟨_, q, _, _, _, _, _, -, rfl, hq, -⟩⟩ := h
      · exact (hc _ _).mp hr
      · obtain ⟨-, -, rfl⟩ := (hc _ _).mp hr
        exact absurd hq (hclosed.2 q rfl)
    · obtain ⟨hn, rfl, rfl⟩ := h
      exact ⟨e', rest', (hc _ _).mpr ⟨hn, rfl, rfl⟩, .inl ⟨hclosed.2, rfl, rfl⟩⟩
  | _, _, _, @Conditional.branches _ us vs q colon _ _ _ _ _ _ _ hc hq hy hk hz, budget, rest, hclosed => by
    have hc := (chain_exact hc (Nat.le_refl 6)).1 budget _ (stops_of_question hq (us ++ colon :: (vs ++ rest)))
    have hy := fun b => conditional_exact hy b (closed_of_colon hk (vs ++ rest))
    have hz := fun b => conditional_exact hz b hclosed
    intro e' rest'
    rw [List.append_assoc, List.cons_append, List.append_assoc, List.cons_append, conditional_reads]
    refine ⟨fun h => ?_, fun h => ?_⟩
    · obtain ⟨c, mid, hr, hnext⟩ := h
      obtain ⟨hn, rfl, rfl⟩ := (hc _ _).mp hr
      obtain ⟨hno, -⟩ | ⟨b, _, _, y, _, _, z, rfl, htok, -, hry, -, hrz, rfl⟩ := hnext
      · exact absurd hq (hno q rfl)
      · cases htok
        obtain ⟨hm, rfl, htok⟩ := (hy b _ _).mp hry
        cases htok
        obtain ⟨hl, rfl, rfl⟩ := (hz b _ _).mp hrz
        exact ⟨by omega, rfl, rfl⟩
    · obtain ⟨hn, rfl, rfl⟩ := h
      obtain ⟨b, rfl⟩ : ∃ b, budget = b + 1 := ⟨budget - 1, by omega⟩
      have hrc := (hc _ _).mpr ⟨by omega, rfl, rfl⟩
      have hry := (hy b _ _).mpr ⟨by omega, rfl, rfl⟩
      have hrz := (hz b _ _).mpr ⟨by omega, rfl, rfl⟩
      exact ⟨_, _, hrc, .inr ⟨b, q, _, _, colon, _, _, rfl, rfl, hq, hry, hk, hrz, rfl⟩⟩

theorem moreArguments_exact : ∀ {ts : List Token} {es : List Expr} {n : Nat}, Arguments ts es n →
    ∀ (budget : Nat) {c : Token} (rest : List Token), c.kind = .closeParen →
      Exactly (moreArguments stop budget (ts ++ c :: rest)) n budget es rest
  | _, _, _, .last h, budget, c, rest, hc => by
    have hlast := conditional_exact h budget (closed_of_closeParen hc rest)
    intro es rest'
    rw [moreArguments_reads]
    refine ⟨fun h => ?_, fun h => ?_⟩
    · obtain ⟨a, t, us, hr, hnext⟩ := h
      obtain ⟨hn, rfl, htok⟩ := (hlast _ _).mp hr
      cases htok
      obtain ⟨-, rfl, rfl⟩ | ⟨hk, -⟩ := hnext
      · exact ⟨hn, rfl, rfl⟩
      · rw [hc] at hk
        cases hk
    · obtain ⟨hn, rfl, rfl⟩ := h
      exact ⟨_, c, rest', (hlast _ _).mpr ⟨hn, rfl, rfl⟩, .inl ⟨hc, rfl, rfl⟩⟩
  | _, _, _, @Arguments.more _ us comma _ _ _ _ h hk hmore, budget, c, rest, hc => by
    have hfirst := conditional_exact h budget (closed_of_comma hk (us ++ c :: rest))
    have hothers := moreArguments_exact hmore budget rest hc
    intro es rest'
    rw [List.append_assoc, List.cons_append, moreArguments_reads]
    refine ⟨fun h => ?_, fun h => ?_⟩
    · obtain ⟨a, t, vs, hr, hnext⟩ := h
      obtain ⟨hn, rfl, htok⟩ := (hfirst _ _).mp hr
      cases htok
      obtain ⟨hk', -⟩ | ⟨-, bs, hr, rfl⟩ := hnext
      · rw [hk] at hk'
        cases hk'
      · obtain ⟨hm, rfl, rfl⟩ := (hothers _ _).mp hr
        exact ⟨by omega, rfl, rfl⟩
    · obtain ⟨hn, rfl, rfl⟩ := h
      have hrf := (hfirst _ _).mpr ⟨by omega, rfl, rfl⟩
      have hro := (hothers _ _).mpr ⟨by omega, rfl, rfl⟩
      exact ⟨_, comma, _, hrf, .inr ⟨hk, _, hro, rfl⟩⟩

end

/-! ## The parser and the grammar -/

theorem Exactly.unique {α : Type} {tokens rest : List Token} {x : Nat → Except Failure (Parsed α tokens)} {n m : Nat}
    {a b : α} (h : ∀ budget, Exactly (x budget) n budget a rest) (h' : ∀ budget, Exactly (x budget) m budget b rest) :
    a = b ∧ n = m := by
  have hn := (h n a rest).mpr ⟨Nat.le_refl n, rfl, rfl⟩
  obtain ⟨hmn, hab, -⟩ := (h' n a rest).mp hn
  have hm := (h' m b rest).mpr ⟨Nat.le_refl m, rfl, rfl⟩
  obtain ⟨hnm, -, -⟩ := (h m b rest).mp hm
  exact ⟨hab, Nat.le_antisymm hnm hmn⟩

theorem conditional_iff {budget : Nat} {tokens rest : List Token} {e : Expr} :
    Reads (conditional stop budget tokens) e rest ↔
      ∃ ts n, tokens = ts ++ rest ∧ n ≤ budget ∧ Conditional ts e n ∧ Closed rest := by
  refine ⟨fun h => ?_, fun h => ?_⟩
  · exact conditional_sound tokens h
  · obtain ⟨ts, n, rfl, hn, h, hclosed⟩ := h
    exact (conditional_exact h budget hclosed e rest).mpr ⟨hn, rfl, rfl⟩

theorem expression_eq_ok {p q : Parser} {e : Expr} : p.expression = (.ok e, q) ↔
    Reads (conditional p.stop p.budget p.tokens) e q.tokens ∧ q.stop = p.stop ∧ q.budget = p.budget ∧
      q.source = p.source := by
  obtain ⟨source, ts, at_, budget⟩ := q
  rw [expression]
  cases h : conditional p.stop p.budget p.tokens with
  | error f =>
    refine ⟨fun he => ?_, fun he => ?_⟩
    · exact nomatch he
    · exact absurd he.1 not_reads_error
  | ok r =>
    rw [reads_ok]
    refine ⟨fun he => ?_, fun h => ?_⟩
    · cases he
      exact ⟨⟨rfl, rfl⟩, rfl, rfl, rfl⟩
    · obtain ⟨⟨rfl, rfl⟩, rfl, rfl, rfl⟩ := h
      rfl

theorem whole_eq_ok {p : Parser} {e : Expr} :
    p.whole.1 = .ok e ↔ Reads (conditional p.stop p.budget p.tokens) e [] := by
  have hread : Reads (conditional p.stop p.budget p.tokens) e [] ↔ ∃ q, p.expression = (.ok e, q) ∧ q.tokens = [] := by
    refine ⟨fun h => ?_, fun h => ?_⟩
    · exact ⟨⟨p.source, [], p.stop, p.budget⟩, expression_eq_ok.mpr ⟨h, rfl, rfl, rfl⟩, rfl⟩
    · obtain ⟨q, h, hq⟩ := h
      exact hq ▸ (expression_eq_ok.mp h).1
  rw [hread, whole]
  obtain ⟨r, q⟩ := p.expression
  cases r with
  | error m => simp
  | ok e' =>
    by_cases hq : q.tokens = []
    · simp only [hq, List.isEmpty_nil, ite_true, Except.ok.injEq, Prod.mk.injEq]
      exact ⟨fun h => ⟨q, ⟨h, rfl⟩, hq⟩, fun ⟨_, h, _⟩ => h.1⟩
    · simp [hq]

theorem whole_ofTokens {tokens : List Token} {source : String} {e : Expr} :
    ((ofTokens tokens source).whole).1 = .ok e ↔
      ∃ n ≤ nestingLimit, Conditional (tokens.takeWhile (·.kind ≠ .stop)) e n := by
  rw [whole_eq_ok, conditional_iff]
  refine ⟨fun h => ?_, fun h => ?_⟩
  · obtain ⟨ts, n, hts, hn, he, -⟩ := h
    obtain rfl : _ = ts := hts.trans (List.append_nil ts)
    exact ⟨n, hn, he⟩
  · obtain ⟨n, hn, he⟩ := h
    exact ⟨_, n, (List.append_nil _).symm, hn, he, closed_nil⟩

theorem expression_iff {p q : Parser} {e : Expr} : p.expression = (.ok e, q) ↔
    ∃ ts n, p.tokens = ts ++ q.tokens ∧ n ≤ p.budget ∧ Conditional ts e n ∧ Closed q.tokens ∧
      q.stop = p.stop ∧ q.budget = p.budget ∧ q.source = p.source := by
  rw [expression_eq_ok, conditional_iff]
  refine ⟨fun h => ?_, fun h => ?_⟩
  · obtain ⟨⟨ts, n, hts, hn, he, hclosed⟩, hkept⟩ := h
    exact ⟨ts, n, hts, hn, he, hclosed, hkept⟩
  · obtain ⟨ts, n, hts, hn, he, hclosed, hkept⟩ := h
    exact ⟨⟨ts, n, hts, hn, he, hclosed⟩, hkept⟩

theorem conditional_unique {ts : List Token} {e e' : Expr} {n n' : Nat} (h : Conditional ts e n)
    (h' : Conditional ts e' n') : e = e' ∧ n = n' :=
  Exactly.unique (fun budget => @conditional_exact .start _ _ _ h budget [] closed_nil)
    fun budget => conditional_exact h' budget closed_nil

/-- **What the parser accepts.** A parser over tokens answers with the one tree that the tokens before the end
form, if its nesting is within the limit. Wherever a parser stands, it reads a phrase within the budget that
nothing behind it goes on with, and has its budget back. -/
theorem accepts_exactly :
    (∀ tokens source e, ((ofTokens tokens source).whole).1 = .ok e ↔
      ∃ n ≤ nestingLimit, Conditional (tokens.takeWhile (·.kind ≠ .stop)) e n) ∧
    (∀ ts e n e' n', Conditional ts e n → Conditional ts e' n' → e = e' ∧ n = n') ∧
    ∀ (p q : Parser) (e : Expr), p.expression = (.ok e, q) ↔
      ∃ ts n, p.tokens = ts ++ q.tokens ∧ n ≤ p.budget ∧ Conditional ts e n ∧ Closed q.tokens ∧
        q.stop = p.stop ∧ q.budget = p.budget ∧ q.source = p.source := by
  refine ⟨fun tokens source e => ?_, fun ts e n e' n' => ?_, fun p q e => ?_⟩
  · exact whole_ofTokens
  · exact conditional_unique
  · exact expression_iff

/-- `!(a)`, with a word behind the end that plays no part. -/
theorem accepts_negation :
    let ts : List Token := [⟨.not, none, "!", ⟨1, 1⟩⟩, ⟨.openParen, none, "(", ⟨1, 2⟩⟩, ⟨.name, none, "a", ⟨1, 3⟩⟩,
      ⟨.closeParen, none, ")", ⟨1, 4⟩⟩]
    let e := Expr.unary .not (.field (Text.segments "a") ⟨1, 3⟩) ⟨1, 1⟩
    ((ofTokens (ts ++ [⟨.stop, none, "", ⟨1, 5⟩⟩, ⟨.comma, none, ",", ⟨1, 6⟩⟩]) "!(a)").whole).1 = .ok e ∧
      ∀ e' n, Conditional ts e' n → e' = e ∧ n = 2 := by
  intro ts e
  have ha : Conditional [⟨.name, none, "a", ⟨1, 3⟩⟩] (.field (Text.segments "a") ⟨1, 3⟩) 0 :=
    .binary (.operand (.operand (.operand (.operand (.operand (.operand (.unary (.operand (.field rfl)))))))))
  have he : Conditional ts e 2 :=
    .binary (.operand (.operand (.operand (.operand (.operand (.operand (.unary
      (.signed .not (.operand (.parens rfl ha rfl))))))))))
  exact ⟨(accepts_exactly.1 _ _ _).mpr ⟨2, by decide, he⟩, fun e' n h => accepts_exactly.2.1 _ _ _ _ _ h he⟩

end Parser

theorem parse_eq_ok {source : String} {e : Expr} : parse source = .ok e ↔
    ∃ tokens, tokenize source = .ok tokens ∧
      ∃ n ≤ nestingLimit, Grammar.Conditional (tokens.takeWhile (·.kind ≠ .stop)) e n := by
  unfold parse
  simp only [bind_eq_ok, Parser.whole_ofTokens]

theorem parse_name {source : String} {t stop : Token} (h : tokenize source = .ok [t, stop]) (ht : t.kind = .name)
    (hstop : stop.kind = .stop) : parse source = .ok (.field (Text.segments t.raw) t.location) := by
  have hfield : Grammar.Conditional [t] (.field (Text.segments t.raw) t.location) 0 :=
    .binary (.operand (.operand (.operand (.operand (.operand (.operand (.unary (.operand (.field ht)))))))))
  refine parse_eq_ok.mpr ⟨_, h, 0, Nat.zero_le _, ?_⟩
  rwa [List.takeWhile_cons_of_pos (by simp [ht]), List.takeWhile_cons_of_neg (by simp [hstop])]

end RecordLogic
