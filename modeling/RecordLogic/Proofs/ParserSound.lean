import RecordLogic.Proofs.ParserSteps

/-!
# Soundness of the parser

What the parser reads is a phrase of the grammar, as long as it can be, and needs no more nesting than the
budget allows.
-/

namespace RecordLogic

namespace Grammar

def Stops (rank : Nat) (ts : List Token) : Prop := ∀ t ∈ ts.head?, ∀ j ≤ rank, ∀ op, ¬ Operator j t.kind op

def Closed (ts : List Token) : Prop := Stops 6 ts ∧ ∀ t ∈ ts.head?, t.kind ≠ .question

theorem Operator.pos {rank : Nat} {k : Token.Kind} {op : BinaryOp} (h : Operator rank k op) : 0 < rank := by
  cases h <;> omega

theorem Operator.unique {i j : Nat} {k : Token.Kind} {op op' : BinaryOp} (h : Operator i k op)
    (h' : Operator j k op') : i = j ∧ op = op' := by
  cases h <;> cases h' <;> exact ⟨rfl, rfl⟩

theorem stops_zero (ts : List Token) : Stops 0 ts := by
  intro t _ j hj op h
  have := h.pos
  omega

theorem Stops.mono {i j : Nat} (h : i ≤ j) {ts : List Token} (hs : Stops j ts) : Stops i ts :=
  fun t ht k hk => hs t ht k (Nat.le_trans hk h)

theorem Stops.succ {rank : Nat} {ts : List Token} (h : Stops rank ts)
    (h' : ∀ t ∈ ts.head?, ∀ op, ¬ Operator (rank + 1) t.kind op) : Stops (rank + 1) ts := by
  intro t ht j hj
  rcases Nat.lt_or_ge j (rank + 1) with hlt | hge
  · exact h t ht j (by omega)
  · obtain rfl : j = rank + 1 := by omega
    exact h' t ht

end Grammar

namespace Parser

open Grammar

variable {stop : Location}

/-- What the parser reads from these tokens is sound. The lemmas below lift this from shorter tokens, level by
level, up to conditionals. -/
def SoundOn (stop : Location) (tokens : List Token) : Prop :=
  ∀ ⦃budget : Nat⦄ ⦃e : Expr⦄ ⦃rest : List Token⦄, Reads (conditional stop budget tokens) e rest →
    ∃ ts n, tokens = ts ++ rest ∧ n ≤ budget ∧ Conditional ts e n ∧ Closed rest

theorem moreArguments_sound (budget : Nat) (tokens : List Token) {es : List Expr} {rest : List Token}
    (ih : ∀ us : List Token, us.length ≤ tokens.length → SoundOn stop us)
    (h : Reads (moreArguments stop budget tokens) es rest) :
    ∃ ts c n, tokens = ts ++ c :: rest ∧ c.kind = .closeParen ∧ n ≤ budget ∧ Arguments ts es n := by
  obtain ⟨a, t, us, ha, hnext⟩ := moreArguments_reads.mp h
  have hless : us.length < tokens.length := Nat.lt_of_succ_lt ha.shorter
  obtain ⟨ts, n, hts, hn, hc, -⟩ := ih tokens (Nat.le_refl _) ha
  obtain ⟨hk, rfl, rfl⟩ | ⟨hk, bs, hbs, rfl⟩ := hnext
  · exact ⟨ts, t, n, hts, hk, hn, .last hc⟩
  · obtain ⟨vs, c, m, hvs, hck, hm, hargs⟩ := moreArguments_sound budget us
      (fun vs hvs => ih vs (Nat.le_of_lt (Nat.lt_of_le_of_lt hvs hless))) hbs
    exact ⟨ts ++ t :: vs, c, max n m, by simp [hts, hvs], hck, by omega, .more hc hk hargs⟩
termination_by tokens.length

theorem operand_sound (budget : Nat) (tokens : List Token) {e : Expr} {rest : List Token}
    (ih : ∀ us : List Token, us.length < tokens.length → SoundOn stop us)
    (h : Reads (operand stop budget tokens) e rest) :
    ∃ ts n, tokens = ts ++ rest ∧ n ≤ budget ∧ Operand ts e n := by
  obtain ⟨t, us, rfl, hk | hk | hk | hk⟩ := operand_begins h
  · obtain ⟨rfl, rfl⟩ := (operand_reads_literal hk).mp h
    exact ⟨[t], 0, rfl, Nat.zero_le _, .literal hk⟩
  · obtain ⟨rfl, rfl⟩ := (operand_reads_field hk).mp h
    exact ⟨[t], 0, rfl, Nat.zero_le _, .field hk⟩
  · obtain ⟨b, o, vs, es, rfl, rfl, ho, hes, rfl⟩ := (operand_reads_call hk).mp h
    obtain ⟨c, rfl, hc, rfl⟩ | ⟨-, hmore⟩ := arguments_reads.mp hes
    · exact ⟨[t, o, c], 1, rfl, by omega, .call hk ho hc⟩
    · obtain ⟨ts, c, n, rfl, hc, hn, hts⟩ := moreArguments_sound b vs
        (fun us hus => ih us (Nat.lt_succ_of_lt (Nat.lt_succ_of_le hus))) hmore
      exact ⟨t :: o :: (ts ++ [c]), n + 1, by simp, by omega, .callWith hk ho hts hc⟩
  · obtain ⟨b, c, rfl, he, hc⟩ := (operand_reads_parens hk).mp h
    obtain ⟨ts, n, rfl, hn, hts, -⟩ := ih us (Nat.lt_succ_self _) he
    exact ⟨t :: (ts ++ [c]), n + 1, by simp, by omega, .parens hk hts hc⟩

theorem unary_sound (budget : Nat) (tokens : List Token) {e : Expr} {rest : List Token}
    (ih : ∀ us : List Token, us.length < tokens.length → SoundOn stop us)
    (h : Reads (unary stop budget tokens) e rest) :
    ∃ ts n, tokens = ts ++ rest ∧ n ≤ budget ∧ Unary ts e n := by
  induction tokens generalizing budget e with
  | nil =>
    obtain ⟨_, _, h, _⟩ := unary_reads.mp h
    cases h
  | cons t us ih' =>
    obtain ⟨_, _, heq, ⟨-, ho⟩ | ⟨b, op, a, rfl, hop, ha, rfl⟩⟩ := unary_reads.mp h <;> cases heq
    · obtain ⟨ts, n, hts, hn, ho⟩ := operand_sound budget (t :: us) ih ho
      exact ⟨ts, n, hts, hn, .operand ho⟩
    · obtain ⟨ts, n, rfl, hn, hts⟩ := ih' b (fun vs hvs => ih vs (Nat.lt_succ_of_lt hvs)) ha
      exact ⟨t :: ts, n + 1, rfl, by omega, .signed (unaryOp?_eq_some.mp hop) hts⟩

def BinarySoundOn (stop : Location) (rank : Nat) (tokens : List Token) : Prop :=
  ∀ ⦃budget : Nat⦄ ⦃e : Expr⦄ ⦃rest : List Token⦄, Reads (binary stop rank budget tokens) e rest →
    ∃ ts n k, tokens = ts ++ rest ∧ n ≤ budget ∧ Chain rank ts e n k ∧ Stops rank rest

/-- The loop keeps: the tree so far is a chain of `k` operators, and what it needs is within the budget at its
beginning, which is the budget left and the `k` levels spent. -/
theorem chain_sound {rank : Nat} (hr : rank ≤ 5) (budget : Nat) (tokens : List Token) {left e : Expr}
    {ts rest : List Token} {n k : Nat} (ih : ∀ us : List Token, us.length < tokens.length → BinarySoundOn stop rank us)
    (hts : Chain (rank + 1) ts left n k) (hn : n ≤ budget + k) (hstop : Stops rank tokens)
    (h : Extends (chain stop rank budget left tokens) e rest) :
    ∃ us m j, tokens = us ++ rest ∧ m ≤ budget + k ∧ Chain (rank + 1) (ts ++ us) e m j ∧ Stops (rank + 1) rest := by
  obtain ⟨hop, rfl, rfl⟩ | ⟨b, t, us, op, right, mid, rfl, htok, hop, hright, hmore⟩ := chain_extends.mp h
  · refine ⟨[], n, k, rfl, hn, by simpa using hts, hstop.succ fun t ht => ?_⟩
    exact (atLevel?_eq_none hr).mp (hop t ht)
  · -- One level is spent on the operator and comes back as the chain grows by one.
    have hus : us.length < tokens.length := by simp [htok]
    have hless : mid.length < tokens.length := Nat.lt_trans hright.shorter hus
    obtain ⟨vs, m, j, hvs, hm, hright, hstop'⟩ := ih us hus hright
    have hnext := Chain.operator hts ((atLevel?_eq_some hr).mp hop) hright
    obtain ⟨ws, l, i, hws, hl, hc, hend⟩ := chain_sound hr b mid (fun us hus => ih us (Nat.lt_trans hus hless))
      hnext (by omega) hstop' hmore
    exact ⟨t :: (vs ++ ws), l, i, by simp [htok, hvs, hws], by omega, by simpa using hc, hend⟩
termination_by tokens.length

theorem binary_sound {rank : Nat} (hr : rank ≤ 6) (tokens : List Token)
    (ih : ∀ us : List Token, us.length < tokens.length → SoundOn stop us) : BinarySoundOn stop rank tokens := by
  induction rank generalizing tokens with
  | zero =>
    intro budget e rest h
    rw [binary_zero] at h
    obtain ⟨ts, n, hts, hn, hu⟩ := unary_sound budget tokens ih h
    exact ⟨ts, n, 0, hts, hn, .unary hu, stops_zero rest⟩
  | succ rank ihr =>
    intro budget e rest h
    obtain ⟨left, mid, hleft, hmore⟩ := binary_reads.mp h
    obtain ⟨ts, n, k, hts, hn, hc, hstop⟩ := ihr (by omega) tokens ih hleft
    have hbelow : ∀ us : List Token, us.length < mid.length → BinarySoundOn stop rank us := fun us hus =>
      ihr (by omega) us fun vs hvs => ih vs (Nat.lt_trans hvs (Nat.lt_trans hus hleft.shorter))
    obtain ⟨us, m, j, hus, hm, hc, hstop⟩ :=
      chain_sound (by omega) budget mid hbelow (.operand hc) hn hstop hmore
    exact ⟨ts ++ us, m, j, by simp [hts, hus], by omega, hc, hstop⟩

theorem conditional_sound (tokens : List Token) : SoundOn stop tokens := by
  intro budget e rest h
  have ih : ∀ us : List Token, us.length < tokens.length → SoundOn stop us := fun us _ => conditional_sound us
  obtain ⟨c, mid, hc, hnext⟩ := conditional_reads.mp h
  have hless := hc.shorter
  obtain ⟨ts, n, k, hts, hn, hchain, hstop⟩ := binary_sound (Nat.le_refl 6) tokens ih hc
  obtain ⟨hq, rfl, rfl⟩ | ⟨b, q, us, y, colon, vs, z, rfl, rfl, hq, hy, hcolon, hz, rfl⟩ := hnext
  · exact ⟨ts, n, hts, hn, .binary hchain, hstop, hq⟩
  · -- Both branches are conditionals again, each behind a token at least.
    have hus : us.length < tokens.length := Nat.lt_of_succ_lt hless
    have hvs : vs.length < tokens.length := Nat.lt_trans (Nat.lt_of_succ_lt hy.shorter) hus
    obtain ⟨ys, m, rfl, hm, hys, -⟩ := ih us hus hy
    obtain ⟨zs, l, rfl, hl, hzs, hclosed⟩ := ih vs hvs hz
    refine ⟨ts ++ q :: (ys ++ colon :: zs), max n (max (1 + m) (1 + l)), by simp [hts], by omega, ?_, hclosed⟩
    exact .branches hchain hq hys hcolon hzs
termination_by tokens.length

end Parser

end RecordLogic
