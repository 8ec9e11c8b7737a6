import RecordLogic.Proofs.ParserExact
import RecordLogic.Proofs.ParserFailures
import RecordLogic.Proofs.ScannerLossless

/-!
# Mistakes are met at the first impossible token

Where the parser expects something else, the tokens before go on to a sentence in some other way, and no sentence
begins with them and the token that is there. What a part reads depends on its tokens and on the one behind them only,
so a failure behind a part is a failure for every text that agrees up to the token where it was met.
-/

namespace RecordLogic

def Fault.expected? : Fault → Option Expected
  | .unexpectedToken expected _ | .unexpectedEnd expected => some expected
  | _ => none

namespace Grammar

theorem Stops.of_head {rank : Nat} {ts us : List Token} (h : Stops rank ts) (hus : us.head? = ts.head?) :
    Stops rank us := by
  unfold Stops at h ⊢
  rwa [hus]

theorem Closed.of_head {ts us : List Token} (h : Closed ts) (hus : us.head? = ts.head?) : Closed us := by
  refine ⟨h.1.of_head hus, ?_⟩
  rw [hus]
  exact h.2

/-! ## Some phrase of each sort -/

theorem exists_operand : ∃ ts e n, Operand ts e n := ⟨[⟨.name, none, "", .start⟩], _, _, .field rfl⟩

theorem exists_unary : ∃ ts e n, Unary ts e n := by
  obtain ⟨ts, e, n, h⟩ := exists_operand
  exact ⟨ts, e, n, .operand h⟩

theorem exists_conditional : ∃ ts e n, Conditional ts e n := by
  obtain ⟨ts, e, n, h⟩ := exists_unary
  exact ⟨ts, e, n, .binary (.operand (.operand (.operand (.operand (.operand (.operand (.unary h)))))))⟩

def ClosedArguments (ts : List Token) : Prop :=
  ∃ us c es n, ts = us ++ [c] ∧ c.kind = .closeParen ∧ Arguments us es n

end Grammar

namespace Parser

open Grammar

variable {stop : Location} {budget : Nat} {tokens : List Token} {f : Failure}

@[simp] theorem unexpected_rest (expected : Expected) : (unexpected stop expected budget tokens).rest = tokens := by
  cases tokens <;> rfl

@[simp] theorem unexpected_budget (expected : Expected) : (unexpected stop expected budget tokens).budget = budget := by
  cases tokens <;> rfl

def CanRead {α : Type} (x : Nat → (ts : List Token) → Except Failure (Parsed α ts)) (ts : List Token) : Prop :=
  ∃ budget a rest, Reads (x budget ts) a rest

def CanExtend (stop : Location) (rank : Nat) (left : Expr) (ts : List Token) : Prop :=
  ∃ budget e rest, Extends (chain stop rank budget left ts) e rest

/-- A failure other than for the budget. The tokens before the one where it was met begin a phrase of the first sort,
and nothing of the second sort begins with them and that one; at the end of the tokens, nothing is they alone. -/
def Stuck (P S : List Token → Prop) (stop : Location) (tokens : List Token) (f : Failure) : Prop :=
  f.mistake.fault = .nestedTooDeep ∨
    ∃ expected before, f = unexpected stop expected f.budget f.rest ∧ tokens = before ++ f.rest ∧
      (∃ more, P (before ++ more)) ∧ ∀ after, after.head? = f.rest.head? → ¬ S (before ++ after)

namespace Stuck

variable {P Q S T : List Token → Prop}

theorem here {expected : Expected} (hP : ∃ more, P more) (hS : ∀ after, after.head? = tokens.head? → ¬ S after) :
    Stuck P S stop tokens (unexpected stop expected budget tokens) := by
  refine .inr ⟨expected, [], by simp, by simp, hP, fun after hafter => ?_⟩
  rw [unexpected_rest] at hafter
  exact hS after hafter

/-- A failure behind tokens that were read, where every phrase behind them goes on to one with them, and they are
always read in the same way. -/
theorem behind (ts : List Token) {mid : List Token} (h : Stuck P S stop mid f) (hP : ∀ us, P us → ∃ more, Q (ts ++ (us ++ more)))
    (hS : ∀ us, us.head? = mid.head? → T (ts ++ us) → S us) : Stuck Q T stop (ts ++ mid) f := by
  obtain h | ⟨expected, before, hf, hmid, ⟨more, hmore⟩, hdead⟩ := h
  · exact .inl h
  refine .inr ⟨expected, ts ++ before, hf, by rw [List.append_assoc, ← hmid], ?_, fun after hafter => ?_⟩
  · obtain ⟨others, h⟩ := hP _ hmore
    exact ⟨more ++ others, by simpa using h⟩
  · intro h
    rw [List.append_assoc] at h
    have hhead : (before ++ after).head? = mid.head? := by
      rw [hmid, List.head?_append, List.head?_append, hafter]
    exact hdead after hafter (hS _ hhead h)

theorem imp (h : Stuck P S stop tokens f) (hP : ∀ us, P us → ∃ more, Q (us ++ more))
    (hS : ∀ us, us.head? = tokens.head? → T us → S us) : Stuck Q T stop tokens f :=
  h.behind [] hP hS

end Stuck

theorem expect_stuck {kind : Token.Kind} (h : expect stop kind budget tokens = .error f) :
    Stuck (fun ts => ∃ t, ts = [t] ∧ t.kind = kind) (CanRead (expect stop kind)) stop tokens f := by
  obtain ⟨rfl, hk⟩ := expect_fails h
  refine .here ⟨[⟨kind, none, "", stop⟩], _, rfl, rfl⟩ fun after hafter hread => ?_
  obtain ⟨b, _, rest, hread⟩ := hread
  obtain ⟨t, rfl, ht⟩ := expect_reads.mp hread
  exact hk t hafter.symm ht

/-! ## Part by part -/

theorem length_lt_behind (ts : List Token) (t : Token) (us : List Token) : us.length < (ts ++ t :: us).length := by
  rw [List.length_append, List.length_cons]
  omega

/-- Every failure to read a conditional from these tokens is met at the first impossible token. The lemmas below lift
this from shorter tokens, level by level. -/
def StuckOn (stop : Location) (tokens : List Token) : Prop :=
  ∀ ⦃budget : Nat⦄ ⦃f : Failure⦄, conditional stop budget tokens = .error f →
    Stuck (fun ts => ∃ e n, Conditional ts e n) (CanRead (conditional stop)) stop tokens f

/-- Behind a conditional that was read, the same one is read in front of whatever closes it. -/
theorem conditional_again {ts mid us rest : List Token} {e e' : Expr} {n b : Nat} (h : Conditional ts e n)
    (hmid : Closed mid) (hread : Reads (conditional stop b (ts ++ us)) e' rest) (hus : us.head? = mid.head?) :
    e' = e ∧ rest = us :=
  ((conditional_exact h b (hmid.of_head hus) _ _).mp hread).2

theorem moreArguments_stuck (budget : Nat) (tokens : List Token)
    (ih : ∀ us : List Token, us.length ≤ tokens.length → StuckOn stop us)
    (h : moreArguments stop budget tokens = .error f) :
    Stuck ClosedArguments (CanRead (moreArguments stop)) stop tokens f := by
  obtain h | ⟨a, mid, ha, hnext⟩ := moreArguments_fails h
  · refine (ih tokens (Nat.le_refl _) h).imp (fun us hus => ?_) fun us _ hread => ?_
    · obtain ⟨e, n, hus⟩ := hus
      exact ⟨[⟨.closeParen, none, "", stop⟩], us, _, _, _, rfl, rfl, .last hus⟩
    · obtain ⟨b, es, rest, hread⟩ := hread
      obtain ⟨a, t, vs, ha, -⟩ := moreArguments_reads.mp hread
      exact ⟨b, a, _, ha⟩
  obtain ⟨ts, n, rfl, -, hts, hclosed⟩ := conditional_sound tokens ha
  obtain ⟨hk, rfl⟩ | ⟨comma, us, rfl, hcomma, h⟩ := hnext
  · -- What closes the argument is neither a comma nor the parenthesis.
    have hend : Stuck (fun us => ∃ c, us = [c] ∧ c.kind = .closeParen)
        (fun us => ∃ t ∈ us.head?, t.kind = .comma ∨ t.kind = .closeParen) stop mid
        (unexpected stop .nextArgument budget mid) := by
      refine .here ⟨[⟨.closeParen, none, "", stop⟩], _, rfl, rfl⟩ fun after hafter hnext => ?_
      obtain ⟨t, ht, hkind⟩ := hnext
      rw [hafter] at ht
      exact hkind.elim (hk t ht).1 (hk t ht).2
    refine hend.behind ts (fun us hus => ?_) fun us hus hread => ?_
    · obtain ⟨c, rfl, hc⟩ := hus
      exact ⟨[], ts, c, _, _, by simp, hc, .last hts⟩
    · obtain ⟨b, es, rest, hread⟩ := hread
      obtain ⟨a', t, vs, ha', hkind⟩ := moreArguments_reads.mp hread
      obtain ⟨-, rfl⟩ := conditional_again hts hclosed ha' hus
      exact ⟨t, rfl, hkind.elim (fun h => .inr h.1) fun h => .inl h.1⟩
  · have hless := length_lt_behind ts comma us
    have hmore := moreArguments_stuck budget us (fun vs hvs => ih vs (Nat.le_of_lt (Nat.lt_of_le_of_lt hvs hless))) h
    rw [List.append_cons]
    refine hmore.behind (ts ++ [comma]) (fun vs hvs => ?_) fun vs _ hread => ?_
    · obtain ⟨ws, c, es, m, rfl, hc, hws⟩ := hvs
      exact ⟨[], ts ++ comma :: ws, c, _, _, by simp, hc, .more hts hcomma hws⟩
    · obtain ⟨b, es, rest, hread⟩ := hread
      rw [← List.append_cons] at hread
      obtain ⟨a', t, ws, ha', hkind⟩ := moreArguments_reads.mp hread
      obtain ⟨-, htok⟩ := conditional_again hts hclosed ha' rfl
      cases htok
      obtain ⟨hk, -⟩ | ⟨-, bs, hbs, -⟩ := hkind
      · rw [hcomma] at hk
        cases hk
      · exact ⟨b, bs, rest, hbs⟩
termination_by tokens.length

theorem arguments_stuck (budget : Nat) (tokens : List Token)
    (ih : ∀ us : List Token, us.length ≤ tokens.length → StuckOn stop us) (h : arguments stop budget tokens = .error f) :
    Stuck ClosedArguments (CanRead (arguments stop)) stop tokens f := by
  obtain ⟨hk, h⟩ := arguments_fails h
  refine (moreArguments_stuck budget tokens ih h).imp (fun us hus => ⟨[], by simpa using hus⟩) fun us hus hread => ?_
  obtain ⟨b, es, rest, hread⟩ := hread
  obtain ⟨c, rfl, hc, -⟩ | ⟨-, hread⟩ := arguments_reads.mp hread
  · exact absurd hc (hk c hus.symm)
  · exact ⟨b, es, rest, hread⟩

theorem operand_stuck (budget : Nat) (tokens : List Token)
    (ih : ∀ us : List Token, us.length < tokens.length → StuckOn stop us) (h : operand stop budget tokens = .error f) :
    Stuck (fun ts => ∃ e n, Operand ts e n) (CanRead (operand stop)) stop tokens f := by
  cases tokens with
  | nil =>
    rw [operand] at h
    cases h
    refine .here exists_operand fun after hafter hread => ?_
    obtain ⟨b, e, rest, hread⟩ := hread
    obtain ⟨t, us, rfl, -⟩ := operand_begins hread
    cases hafter
  | cons t us =>
    obtain ⟨⟨hliteral, hname, hfunction, hparen⟩, rfl⟩ | ⟨hk, h⟩ | ⟨hk, h⟩ := operand_fails h
    · refine .here exists_operand fun after hafter hread => ?_
      obtain ⟨b, e, rest, hread⟩ := hread
      obtain ⟨u, us, rfl, hbegins⟩ := operand_begins hread
      cases hafter
      obtain hu | hu | hu | hu := hbegins
      · exact hliteral hu
      · exact hname hu
      · exact hfunction hu
      · exact hparen hu
    · obtain h | ⟨o, vs, rfl, ho, rfl | ⟨b, h⟩⟩ := h
      · refine (expect_stuck h).behind [t] (fun us hus => ?_) fun us _ hread => ?_
        · obtain ⟨o, rfl, ho⟩ := hus
          exact ⟨[⟨.closeParen, none, "", stop⟩], _, _, .call hk ho rfl⟩
        · obtain ⟨b, e, rest, hread⟩ := hread
          obtain ⟨_, o, vs, es, rfl, rfl, ho, -⟩ := (operand_reads_call hk).mp hread
          exact ⟨0, _, _, expect_reads.mpr ⟨o, rfl, ho⟩⟩
      · exact .inl rfl
      · refine (arguments_stuck b vs (fun us hus => ih us ?_) h).behind [t, o] (fun us hus => ?_) fun us _ hread => ?_
        · exact Nat.lt_succ_of_lt (Nat.lt_succ_of_le hus)
        · obtain ⟨ws, c, es, n, rfl, hc, hws⟩ := hus
          exact ⟨[], _, _, by simpa using .callWith hk ho hws hc⟩
        · obtain ⟨b, e, rest, hread⟩ := hread
          obtain ⟨b, _, _, es, rfl, htok, -, hread, -⟩ := (operand_reads_call hk).mp hread
          cases htok
          exact ⟨b, es, rest, hread⟩
    · obtain rfl | ⟨b, h | ⟨e, mid, he, hexpect⟩⟩ := h
      · exact .inl rfl
      · refine (ih us (Nat.lt_succ_self _) h).behind [t] (fun us hus => ?_) fun us _ hread => ?_
        · obtain ⟨e, n, hus⟩ := hus
          exact ⟨[⟨.closeParen, none, "", stop⟩], _, _, .parens hk hus rfl⟩
        · obtain ⟨b, e, rest, hread⟩ := hread
          obtain ⟨b, c, rfl, hread, -⟩ := (operand_reads_parens hk).mp hread
          exact ⟨b, e, _, hread⟩
      · obtain ⟨ts, n, rfl, -, hts, hclosed⟩ := conditional_sound us he
        refine (expect_stuck hexpect).behind (t :: ts) (fun us hus => ?_) fun us hus hread => ?_
        · obtain ⟨c, rfl, hc⟩ := hus
          exact ⟨[], _, _, .parens hk hts hc⟩
        · obtain ⟨b, e', rest, hread⟩ := hread
          obtain ⟨b, c, rfl, hread, hc⟩ := (operand_reads_parens hk).mp hread
          obtain ⟨-, rfl⟩ := conditional_again hts hclosed hread hus
          exact ⟨0, _, _, expect_reads.mpr ⟨c, rfl, hc⟩⟩

theorem unary_stuck (budget : Nat) (tokens : List Token)
    (ih : ∀ us : List Token, us.length < tokens.length → StuckOn stop us) (h : unary stop budget tokens = .error f) :
    Stuck (fun ts => ∃ e n, Unary ts e n) (CanRead (unary stop)) stop tokens f := by
  induction tokens generalizing budget with
  | nil =>
    obtain ⟨-, rfl⟩ | ⟨_, _, h, _⟩ := unary_fails h
    · refine .here exists_unary fun after hafter hread => ?_
      obtain ⟨b, e, rest, hread⟩ := hread
      obtain ⟨t, us, rfl, -⟩ := unary_reads.mp hread
      cases hafter
    · cases h
  | cons t us ih' =>
    obtain ⟨h, -⟩ | ⟨_, _, htok, hnext⟩ := unary_fails h
    · cases h
    cases htok
    obtain ⟨hnone, h⟩ | ⟨op, hop, rfl | ⟨b, h⟩⟩ := hnext
    · refine (operand_stuck budget (t :: us) ih h).imp (fun us hus => ?_) fun us hus hread => ?_
      · obtain ⟨e, n, hus⟩ := hus
        exact ⟨[], e, n, by simpa using .operand hus⟩
      · obtain ⟨b, e, rest, hread⟩ := hread
        obtain ⟨u, vs, rfl, ⟨-, hread⟩ | ⟨_, op, _, -, hop, -⟩⟩ := unary_reads.mp hread
        · exact ⟨b, e, rest, hread⟩
        · cases hus
          rw [hnone] at hop
          cases hop
    · exact .inl rfl
    · refine (ih' b (fun vs hvs => ih vs (Nat.lt_succ_of_lt hvs)) h).behind [t] (fun us hus => ?_) fun us _ hread => ?_
      · obtain ⟨e, n, hus⟩ := hus
        exact ⟨[], _, _, by simpa using .signed (unaryOp?_eq_some.mp hop) hus⟩
      · obtain ⟨b, e, rest, hread⟩ := hread
        obtain ⟨_, _, htok, ⟨hnone, -⟩ | ⟨b, _, a, rfl, -, hread, -⟩⟩ := unary_reads.mp hread <;> cases htok
        · rw [hop] at hnone
          cases hnone
        · exact ⟨b, a, rest, hread⟩

def BinaryStuckOn (stop : Location) (rank : Nat) (tokens : List Token) : Prop :=
  ∀ ⦃budget : Nat⦄ ⦃f : Failure⦄, binary stop rank budget tokens = .error f →
    Stuck (fun ts => ∃ e n k, Chain rank ts e n k) (CanRead (binary stop rank)) stop tokens f

theorem binary_again {rank : Nat} (hr : rank ≤ 6) {ts mid us rest : List Token} {e e' : Expr} {n k b : Nat}
    (h : Chain rank ts e n k) (hmid : Stops rank mid) (hread : Reads (binary stop rank b (ts ++ us)) e' rest)
    (hus : us.head? = mid.head?) : e' = e ∧ rest = us :=
  (((chain_exact h hr).1 b us (hmid.of_head hus) _ _).mp hread).2

/-- The loop keeps: what was read is a chain, and any chain goes on behind it with the operators that come next. -/
theorem chain_stuck {rank : Nat} (hr : rank ≤ 5) (budget : Nat) (tokens : List Token) {left : Expr} {ts : List Token}
    {n k : Nat} (ih : ∀ us : List Token, us.length < tokens.length → BinaryStuckOn stop rank us)
    (hts : Chain (rank + 1) ts left n k) (h : chain stop rank budget left tokens = .error f) :
    Stuck (fun us => ∃ e m j, Chain (rank + 1) (ts ++ us) e m j) (CanExtend stop rank left) stop tokens f := by
  obtain ⟨t, us, op, rfl, hop, rfl | ⟨b, h | ⟨right, mid, hright, hchain⟩⟩⟩ := chain_fails h
  · exact .inl rfl
  · refine (ih us (Nat.lt_succ_self _) h).behind [t] (fun us hus => ?_) fun us _ hread => ?_
    · obtain ⟨a, m, j, hus⟩ := hus
      exact ⟨[], _, _, _, by simpa using .operator hts ((atLevel?_eq_some hr).mp hop) hus⟩
    · obtain ⟨b, e, rest, hread⟩ := hread
      obtain ⟨hnone, -⟩ | ⟨b, _, _, _, right, mid, rfl, htok, -, hright, -⟩ := chain_extends.mp hread
      · rw [hnone t rfl] at hop
        cases hop
      · cases htok
        exact ⟨b, right, mid, hright⟩
  · obtain ⟨vs, m, j, rfl, -, hvs, hstop⟩ := binary_sound (by omega) us (fun us _ => conditional_sound us) hright
    have hnext := Chain.operator hts ((atLevel?_eq_some hr).mp hop) hvs
    have hless : mid.length < (t :: (vs ++ mid)).length := by
      rw [List.length_cons, List.length_append]
      omega
    have hmore := chain_stuck hr b mid (fun us hus => ih us (Nat.lt_trans hus hless)) hnext hchain
    refine hmore.behind (t :: vs) (fun us hus => ?_) fun us hus hread => ?_
    · obtain ⟨e, l, i, hus⟩ := hus
      exact ⟨[], e, l, i, by simpa using hus⟩
    · obtain ⟨b, e, rest, hread⟩ := hread
      obtain ⟨hnone, -⟩ | ⟨b, _, _, op', right', mid', rfl, htok, hop', hright, hloop⟩ := chain_extends.mp hread
      · rw [hnone t rfl] at hop
        cases hop
      · cases htok
        rw [hop] at hop'
        cases hop'
        obtain ⟨rfl, rfl⟩ := binary_again (by omega) hvs hstop hright hus
        exact ⟨b, e, rest, hloop⟩
termination_by tokens.length

theorem binary_stuck {rank : Nat} (hr : rank ≤ 6) (tokens : List Token)
    (ih : ∀ us : List Token, us.length < tokens.length → StuckOn stop us) : BinaryStuckOn stop rank tokens := by
  induction rank generalizing tokens with
  | zero =>
    intro budget f h
    rw [binary_zero] at h
    refine (unary_stuck budget tokens ih h).imp (fun us hus => ?_) fun us _ hread => ?_
    · obtain ⟨e, n, hus⟩ := hus
      exact ⟨[], e, n, 0, by simpa using .unary hus⟩
    · obtain ⟨b, e, rest, hread⟩ := hread
      rw [binary_zero] at hread
      exact ⟨b, e, rest, hread⟩
  | succ rank ihr =>
    intro budget f h
    obtain h | ⟨left, mid, hleft, hchain⟩ := binary_fails h
    · refine (ihr (by omega) tokens ih h).imp (fun us hus => ?_) fun us _ hread => ?_
      · obtain ⟨e, n, k, hus⟩ := hus
        exact ⟨[], e, n, 0, by simpa using .operand hus⟩
      · obtain ⟨b, e, rest, hread⟩ := hread
        obtain ⟨left, mid, hleft, -⟩ := binary_reads.mp hread
        exact ⟨b, left, mid, hleft⟩
    · have hbelow : ∀ us : List Token, us.length < mid.length → BinaryStuckOn stop rank us := fun us hus =>
        ihr (by omega) us fun vs hvs => ih vs (Nat.lt_trans hvs (Nat.lt_trans hus hleft.shorter))
      obtain ⟨ts, n, k, rfl, -, hts, hstop⟩ :=
        binary_sound (by omega) tokens (fun us _ => conditional_sound us) hleft
      refine (chain_stuck (by omega) budget mid hbelow (.operand hts) hchain).behind ts (fun us hus => ?_)
        fun us hus hread => ?_
      · obtain ⟨e, m, j, hus⟩ := hus
        exact ⟨[], e, m, j, by simpa using hus⟩
      · obtain ⟨b, e, rest, hread⟩ := hread
        obtain ⟨left', mid', hleft, hmore⟩ := binary_reads.mp hread
        obtain ⟨rfl, rfl⟩ := binary_again (by omega) hts hstop hleft hus
        exact ⟨b, e, rest, hmore⟩

/-- What a conditional is read from that goes on behind its condition with a question mark. -/
theorem branches_again {ts us rest : List Token} {q : Token} {c e : Expr} {n k b : Nat} (hc : Chain 6 ts c n k)
    (hq : q.kind = .question) (hread : Reads (conditional stop b (ts ++ q :: us)) e rest) :
    ∃ b y colon vs z, Reads (conditional stop b us) y (colon :: vs) ∧ colon.kind = .colon ∧
      Reads (conditional stop b vs) z rest := by
  obtain ⟨c', mid, hc', hnext⟩ := conditional_reads.mp hread
  obtain ⟨-, rfl⟩ := binary_again (Nat.le_refl 6) hc (stops_of_question hq us) hc' rfl
  obtain ⟨hno, -⟩ | ⟨b, _, _, y, colon, vs, z, rfl, htok, -, hy, hcolon, hz, -⟩ := hnext
  · exact absurd hq (hno q rfl)
  · cases htok
    exact ⟨b, y, colon, vs, z, hy, hcolon, hz⟩

theorem conditional_stuck (tokens : List Token) : StuckOn stop tokens := by
  intro budget f h
  have ih : ∀ us : List Token, us.length < tokens.length → StuckOn stop us := fun us _ => conditional_stuck us
  obtain h | ⟨c, q, us, hc, hq, rfl | ⟨b, hbranches⟩⟩ := conditional_fails h
  · refine (binary_stuck (Nat.le_refl 6) tokens ih h).imp (fun us hus => ?_) fun us _ hread => ?_
    · obtain ⟨e, n, k, hus⟩ := hus
      exact ⟨[], e, n, by simpa using .binary hus⟩
    · obtain ⟨b, e, rest, hread⟩ := hread
      obtain ⟨c, mid, hc, -⟩ := conditional_reads.mp hread
      exact ⟨b, c, mid, hc⟩
  · exact .inl rfl
  have hless : us.length < tokens.length := Nat.lt_of_succ_lt hc.shorter
  obtain ⟨ts, n, k, rfl, -, hts, -⟩ := binary_sound (Nat.le_refl 6) tokens (fun us _ => conditional_sound us) hc
  obtain ⟨zs, z, l, hzs⟩ := exists_conditional
  obtain h | ⟨y, mid, hy, hcolon⟩ := hbranches
  · rw [List.append_cons]
    refine (ih us hless h).behind (ts ++ [q]) (fun us hus => ?_) fun us _ hread => ?_
    · obtain ⟨y, m, hus⟩ := hus
      exact ⟨⟨.colon, none, "", stop⟩ :: zs, _, _, by simpa using .branches hts hq hus rfl hzs⟩
    · obtain ⟨b, e, rest, hread⟩ := hread
      rw [← List.append_cons] at hread
      obtain ⟨b, y, _, _, _, hy, -⟩ := branches_again hts hq hread
      exact ⟨b, y, _, hy⟩
  obtain ⟨ys, m, rfl, -, hys, hclosed⟩ := conditional_sound us hy
  obtain h | ⟨colon, vs, rfl, hk, h⟩ := hcolon
  · rw [List.append_cons, ← List.append_assoc]
    refine (expect_stuck h).behind (ts ++ [q] ++ ys) (fun us hus => ?_) fun us hus hread => ?_
    · obtain ⟨colon, rfl, hk⟩ := hus
      exact ⟨zs, _, _, by simpa using .branches hts hq hys hk hzs⟩
    · obtain ⟨b, e, rest, hread⟩ := hread
      rw [List.append_assoc, ← List.append_cons] at hread
      obtain ⟨b, y', colon, vs, _, hy', hk, -⟩ := branches_again hts hq hread
      obtain ⟨-, rfl⟩ := conditional_again hys hclosed hy' hus
      exact ⟨0, _, _, expect_reads.mpr ⟨colon, rfl, hk⟩⟩
  · have hvs : vs.length < (ts ++ q :: (ys ++ colon :: vs)).length :=
      Nat.lt_trans (length_lt_behind ys colon vs) (length_lt_behind ts q _)
    rw [List.append_cons, List.append_cons ys, ← List.append_assoc]
    refine (ih vs hvs h).behind (ts ++ [q] ++ (ys ++ [colon])) (fun us hus => ?_) fun us _ hread => ?_
    · obtain ⟨z, l, hus⟩ := hus
      exact ⟨[], _, _, by simpa using .branches hts hq hys hk hus⟩
    · obtain ⟨b, e, rest, hread⟩ := hread
      rw [List.append_assoc, ← List.append_cons, ← List.append_cons] at hread
      obtain ⟨b, y', colon', vs', z, hy', -, hz⟩ := branches_again hts hq hread
      obtain ⟨-, htok⟩ := conditional_again hys hclosed hy' rfl
      cases htok
      exact ⟨b, z, rest, hz⟩
termination_by tokens.length

/-! ## From the beginning to the end -/

theorem expected?_unexpected (expected : Expected) (b : Nat) :
    (unexpected stop expected b tokens).mistake.fault.expected? = some expected := by
  cases tokens <;> rfl

theorem sentence_reads (stop : Location) {ts : List Token} {e : Expr} {n : Nat} (h : Conditional ts e n) :
    Reads (conditional stop n ts) e [] :=
  conditional_iff.mpr ⟨ts, n, (List.append_nil ts).symm, Nat.le_refl n, h, closed_nil⟩

/-- A parser over any tokens, wherever it fails. -/
theorem whole_stuck {p q : Parser} {m : Mistake} {expected : Expected} (h : p.whole = (.error m, q))
    (hm : m.fault.expected? = some expected) :
    ∃ before, p.tokens = before ++ q.tokens ∧ m = (unexpected p.stop expected q.budget q.tokens).mistake ∧
      (∃ more e n, Conditional (before ++ more) e n) ∧
      ∀ after, after.head? = q.tokens.head? → ∀ e n, ¬ Conditional (before ++ after) e n := by
  unfold whole expression at h
  cases hc : conditional p.stop p.budget p.tokens with
  | error f =>
    rw [hc] at h
    cases h
    obtain hdeep | ⟨other, before, hf, htokens, hmore, hdead⟩ := conditional_stuck p.tokens hc
    · rw [hdeep] at hm
      cases hm
    rw [hf, expected?_unexpected] at hm
    cases hm
    refine ⟨before, htokens, congrArg Failure.mistake hf, hmore, fun after hafter e n h => ?_⟩
    exact hdead after hafter ⟨n, e, [], sentence_reads p.stop h⟩
  | ok r =>
    obtain ⟨e, mid, hmid⟩ := r
    rw [hc] at h
    dsimp only at h
    split at h
    · cases h
    · rename_i hne
      cases h
      rw [expected?_unexpected] at hm
      cases hm
      obtain ⟨ts, n, htokens, -, hts, hclosed⟩ := conditional_sound p.tokens ⟨hmid, hc⟩
      refine ⟨ts, htokens, rfl, ⟨[], e, n, by simpa using hts⟩, fun after hafter e' n' h => ?_⟩
      obtain ⟨-, rfl⟩ := conditional_again hts hclosed (sentence_reads p.stop h) hafter
      cases mid with
      | nil => exact hne rfl
      | cons t us => cases hafter

/-- The tokens that are read end at the first mark of the end, if one is put behind them all. -/
theorem ofTokens_ends (tokens : List Token) (source : String) :
    ∃ t after, tokens ++ [⟨.stop, none, "", .endOf source⟩] = (ofTokens tokens source).tokens ++ t :: after ∧
      t.kind = .stop ∧ t.location = (ofTokens tokens source).stop := by
  unfold ofTokens
  cases hfind : tokens.find? (·.kind = .stop) with
  | none =>
    have hall : tokens.takeWhile (·.kind ≠ .stop) = tokens := by
      rw [List.takeWhile_eq_self_iff]
      simpa using hfind
    exact ⟨_, [], by rw [hall], rfl, rfl⟩
  | some t =>
    obtain ⟨ht, before, after, rfl, hbefore⟩ := List.find?_eq_some_iff_append.mp hfind
    have hkind : t.kind = .stop := by simpa using ht
    have htake : (before ++ t :: after).takeWhile (·.kind ≠ .stop) = before := by
      rw [List.takeWhile_append_of_pos (by simpa using hbefore), List.takeWhile_cons_of_neg (by simp [hkind]),
        List.append_nil]
    exact ⟨t, after ++ [⟨.stop, none, "", .endOf source⟩], by rw [htake, List.append_assoc, List.cons_append], hkind, rfl⟩

/-- **Mistakes are met at the first impossible token.** Where the parser expects something else, the tokens before go
on to a sentence of any nesting, and no sentence begins with them and the token there; or, if that one marks the end,
they are no sentence themselves. The mistake names that token and stands where it does. -/
theorem expected_at_first_impossible {tokens : List Token} {source : String} {m : Mistake} {q : Parser}
    {expected : Expected} (h : (ofTokens tokens source).whole = (.error m, q)) (hm : m.fault.expected? = some expected) :
    ∃ before t after, tokens ++ [⟨.stop, none, "", .endOf source⟩] = before ++ t :: after ∧
      (∀ u ∈ before, u.kind ≠ .stop) ∧ q.tokens = (t :: after).takeWhile (·.kind ≠ .stop) ∧
      (∃ more e n, Conditional (before ++ more) e n) ∧
      (t.kind ≠ .stop → ∀ more e n, ¬ Conditional (before ++ t :: more) e n) ∧
      (t.kind = .stop → ∀ e n, ¬ Conditional before e n) ∧
      m.fault = (if t.kind = .stop then .unexpectedEnd expected else .unexpectedToken expected t.raw) ∧
      m.location = t.location := by
  obtain ⟨before, htokens, rfl, hmore, hdead⟩ := whole_stuck h hm
  obtain ⟨last, others, hall, hkind, hlocation⟩ := ofTokens_ends tokens source
  have hno : ∀ u ∈ (ofTokens tokens source).tokens, u.kind ≠ .stop := by
    intro u hu
    simpa using List.mem_takeWhile_imp hu
  rw [htokens] at hno hall
  have hbefore : ∀ u ∈ before, u.kind ≠ .stop := fun u hu => hno u (List.mem_append_left _ hu)
  cases hq : q.tokens with
  | nil =>
    rw [hq] at hall hdead
    refine ⟨before, last, others, by simpa using hall, hbefore, by simp [hkind], hmore, fun h => absurd hkind h,
      fun _ e n h => ?_, by simp [hkind, unexpected], by simp [unexpected, hlocation]⟩
    exact hdead [] rfl e n (by simpa using h)
  | cons t us =>
    rw [hq] at hall hdead hno
    have ht : t.kind ≠ .stop := hno t (by simp)
    refine ⟨before, t, us ++ last :: others, by simpa using hall, hbefore, ?_, hmore, fun _ more => hdead _ rfl,
      fun h => absurd h ht, by simp [ht, unexpected], rfl⟩
    have hus : ∀ u ∈ t :: us, decide (u.kind ≠ .stop) = true := by
      intro u hu
      exact decide_eq_true (hno u (List.mem_append_right _ hu))
    rw [← List.cons_append, List.takeWhile_append_of_pos hus, List.takeWhile_cons_of_neg (by simp [hkind]),
      List.append_nil]

/-- In `F(a,)` the comma asks for another argument, and the parenthesis begins none. -/
theorem expected_at_closing_parenthesis :
    let ts : List Token := [⟨.function, none, "F", ⟨1, 1⟩⟩, ⟨.openParen, none, "(", ⟨1, 2⟩⟩,
      ⟨.name, none, "a", ⟨1, 3⟩⟩, ⟨.comma, none, ",", ⟨1, 4⟩⟩, ⟨.closeParen, none, ")", ⟨1, 5⟩⟩]
    let m : Mistake := ⟨.unexpectedToken .operand ")", ⟨1, 5⟩⟩
    (ofTokens ts "F(a,)").whole = (.error m, ⟨"F(a,)", [⟨.closeParen, none, ")", ⟨1, 5⟩⟩], ⟨1, 6⟩, 99⟩) ∧
      ∃ before t after, ts ++ [⟨.stop, none, "", ⟨1, 6⟩⟩] = before ++ t :: after ∧ t.location = ⟨1, 5⟩ ∧
        (∃ more e n, Conditional (before ++ more) e n) ∧ ∀ more e n, ¬ Conditional (before ++ t :: more) e n := by
  intro ts m
  have hparser : ofTokens ts "F(a,)" = ⟨"F(a,)", ts, ⟨1, 6⟩, 100⟩ := rfl
  have hlast : moreArguments ⟨1, 6⟩ 99 [⟨.closeParen, none, ")", ⟨1, 5⟩⟩] =
      .error ⟨m, [⟨.closeParen, none, ")", ⟨1, 5⟩⟩], 99⟩ := by
    rw [moreArguments, conditional]
    simp [m, binary, unary, operand, unaryOp?, bind, Except.bind, unexpected]
  have hfirst : moreArguments ⟨1, 6⟩ 99 [⟨.name, none, "a", ⟨1, 3⟩⟩, ⟨.comma, none, ",", ⟨1, 4⟩⟩,
      ⟨.closeParen, none, ")", ⟨1, 5⟩⟩] = .error ⟨m, [⟨.closeParen, none, ")", ⟨1, 5⟩⟩], 99⟩ := by
    rw [moreArguments, conditional]
    simp [binary, unary, operand, chain, unaryOp?, BinaryOp.atLevel?, BinaryOp.ofKind?, hlast, bind, Except.bind, pure,
      Except.pure]
  have h : (ofTokens ts "F(a,)").whole = (.error m, ⟨"F(a,)", [⟨.closeParen, none, ")", ⟨1, 5⟩⟩], ⟨1, 6⟩, 99⟩) := by
    rw [hparser]
    unfold whole expression
    rw [conditional]
    simp [ts, binary, unary, operand, arguments, hfirst, unaryOp?, expect, bind, Except.bind]
  obtain ⟨before, t, after, hall, -, -, hmore, hdead, -, hfault, hlocation⟩ := expected_at_first_impossible h rfl
  have hkind : t.kind ≠ .stop := by
    intro hk
    rw [if_pos hk] at hfault
    cases hfault
  exact ⟨h, before, t, after, hall, hlocation.symm, hmore, hdead hkind⟩

end Parser

end RecordLogic
