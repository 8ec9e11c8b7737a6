import Mathlib.Data.List.TakeWhile
import Mathlib.Tactic.Ring
import RecordLogic.Proofs.ParserExact

/-!
# How deep trees get

The nesting of a phrase is what its parts are charged where they stand, and the first operand of a chain is charged
nothing for the operators behind it. So a tree is deeper than the nesting of its phrase by the steps that lead into
first operands, as many as the six ranks of operators, the conditional around them and the call within them allow at
every level of nesting.
-/

namespace RecordLogic

mutual

def Expr.depth : Expr → Nat
  | .literal .. | .field .. => 0
  | .call _ args _ => Expr.depthOfAll args + 1
  | .unary _ e _ => e.depth + 1
  | .binary _ a b _ => max a.depth b.depth + 1
  | .conditional c y z _ => max c.depth (max y.depth z.depth) + 1

def Expr.depthOfAll : List Expr → Nat
  | [] => 0
  | e :: es => max e.depth (Expr.depthOfAll es)

end

mutual

/-- The steps on the deepest paths that lead into a first operand, or a condition, deeper than what stands behind
it. -/
def Expr.uncharged : Expr → Nat
  | .literal .. | .field .. => 0
  | .call _ args _ => Expr.unchargedOfAll args
  | .unary _ e _ => e.uncharged
  | .binary _ a b _ => if a.depth ≤ b.depth then b.uncharged else a.uncharged + 1
  | .conditional c y z _ =>
    if c.depth ≤ max y.depth z.depth then max y.uncharged z.uncharged else c.uncharged + 1

def Expr.unchargedOfAll : List Expr → Nat
  | [] => 0
  | e :: es => max e.uncharged (Expr.unchargedOfAll es)

end

namespace Grammar

/-! ## What is charged -/

mutual

theorem Operand.depth_le_charged : ∀ {ts : List Token} {e : Expr} {n : Nat}, Operand ts e n → e.depth ≤ n + e.uncharged
  | _, _, _, .literal _ | _, _, _, .field _ | _, _, _, .call _ _ _ => by
    simp [Expr.depth, Expr.depthOfAll]
  | _, _, _, .callWith _ _ hargs _ => by
    have hdepth := hargs.depth_le_charged
    rw [Expr.depth, Expr.uncharged]
    omega
  | _, _, _, .parens _ he _ => by
    have hdepth := he.depth_le_charged
    omega

theorem Unary.depth_le_charged : ∀ {ts : List Token} {e : Expr} {n : Nat}, Unary ts e n → e.depth ≤ n + e.uncharged
  | _, _, _, .operand ho => ho.depth_le_charged
  | _, _, _, .signed _ hu => by
    have hdepth := hu.depth_le_charged
    rw [Expr.depth, Expr.uncharged]
    omega

theorem Chain.depth_le_charged : ∀ {rank : Nat} {ts : List Token} {e : Expr} {n k : Nat}, Chain rank ts e n k →
    e.depth ≤ n + e.uncharged
  | _, _, _, _, _, .unary hu => hu.depth_le_charged
  | _, _, _, _, _, .operand hc => hc.depth_le_charged
  | _, _, _, _, _, .operator ha _ hb => by
    have hfirst := ha.depth_le_charged
    have hsecond := hb.depth_le_charged
    rw [Expr.depth, Expr.uncharged]
    split <;> omega

theorem Conditional.depth_le_charged : ∀ {ts : List Token} {e : Expr} {n : Nat}, Conditional ts e n →
    e.depth ≤ n + e.uncharged
  | _, _, _, .binary hc => hc.depth_le_charged
  | _, _, _, .branches hc _ hy _ hz => by
    have hcondition := hc.depth_le_charged
    have hyes := hy.depth_le_charged
    have hno := hz.depth_le_charged
    rw [Expr.depth, Expr.uncharged]
    split <;> omega

theorem Arguments.depth_le_charged : ∀ {ts : List Token} {es : List Expr} {n : Nat}, Arguments ts es n →
    Expr.depthOfAll es ≤ n + Expr.unchargedOfAll es
  | _, _, _, .last he => by
    have hdepth := he.depth_le_charged
    simpa [Expr.depthOfAll, Expr.unchargedOfAll] using hdepth
  | _, _, _, .more he _ hargs => by
    have hfirst := he.depth_le_charged
    have hothers := hargs.depth_le_charged
    rw [Expr.depthOfAll, Expr.unchargedOfAll]
    omega

end

def deepest (n : Nat) : Nat := n * (3 * n + 5)

def deepestUnary : Nat → Nat
  | 0 => 0
  | n + 1 => deepest n + 1

theorem deepest_succ (n : Nat) : deepest (n + 1) = deepest n + 6 * n + 8 := by
  unfold deepest
  ring

theorem deepest_mono {m n : Nat} (h : m ≤ n) : deepest m ≤ deepest n := by
  induction h with
  | refl => exact Nat.le_refl _
  | step _ ih =>
    rw [deepest_succ]
    omega

theorem deepestUnary_mono {m n : Nat} (h : m ≤ n) : deepestUnary m ≤ deepestUnary n := by
  cases m with
  | zero => exact Nat.zero_le _
  | succ m =>
    cases n with
    | zero => omega
    | succ n => exact Nat.succ_le_succ (deepest_mono (Nat.le_of_succ_le_succ h))

theorem deepestUnary_le (n : Nat) : deepestUnary n ≤ deepest n := by
  cases n with
  | zero => exact Nat.zero_le _
  | succ n =>
    rw [deepest_succ]
    show deepest n + 1 ≤ _
    omega

/-- Six ranks of operators and a conditional come on top of a phrase without them. -/
theorem deepest_eq {n : Nat} (h : 0 < n) : deepest n = deepestUnary n + 6 * n + 1 := by
  obtain ⟨m, rfl⟩ : ∃ m, n = m + 1 := ⟨n - 1, by omega⟩
  rw [deepest_succ]
  show _ = deepest m + 1 + _ + 1
  omega

/-! ## No tree is deeper -/

/-- Below `k` operators of the rank `r + 1` stand up to `n` of each rank below. -/
def ChainBound (rank n k : Nat) (e : Expr) : Prop :=
  k ≤ n ∧ e.depth ≤ deepestUnary n + rank * n ∧ ∀ r, rank = r + 1 → e.depth ≤ deepestUnary n + r * n + k

theorem ChainBound.operand {rank n k : Nat} {e : Expr} (h : ChainBound rank n k e) : ChainBound (rank + 1) n 0 e := by
  obtain ⟨-, hdepth, -⟩ := h
  have hmul : (rank + 1) * n = rank * n + n := Nat.succ_mul rank n
  refine ⟨Nat.zero_le n, by omega, fun r hr => ?_⟩
  cases hr
  exact hdepth

theorem ChainBound.operator {rank n m k j : Nat} {a b : Expr} (ha : ChainBound (rank + 1) n k a)
    (hb : ChainBound rank m j b) (op : BinaryOp) (l : Location) :
    ChainBound (rank + 1) (max n (k + 1 + m)) (k + 1) (.binary op a b l) := by
  obtain ⟨hk, -, hleft⟩ := ha
  obtain ⟨-, hright, -⟩ := hb
  have hleft := hleft rank rfl
  generalize hN : max n (k + 1 + m) = N
  have hn : deepestUnary n + rank * n ≤ deepestUnary N + rank * N :=
    Nat.add_le_add (deepestUnary_mono (by omega)) (Nat.mul_le_mul_left rank (by omega))
  have hm : deepestUnary m + rank * m ≤ deepestUnary N + rank * N :=
    Nat.add_le_add (deepestUnary_mono (by omega)) (Nat.mul_le_mul_left rank (by omega))
  have hdepth : (Expr.binary op a b l).depth ≤ deepestUnary N + rank * N + (k + 1) := by
    rw [Expr.depth]
    omega
  have hmul : (rank + 1) * N = rank * N + N := Nat.succ_mul rank N
  refine ⟨by omega, by omega, fun r hr => ?_⟩
  cases hr
  exact hdepth

mutual

theorem Operand.depth_le : ∀ {ts : List Token} {e : Expr} {n : Nat}, Operand ts e n → e.depth ≤ deepestUnary n
  | _, _, _, .literal _ | _, _, _, .field _ => by
    rw [Expr.depth]
    exact Nat.zero_le _
  | _, _, _, .call _ _ _ => by
    rw [Expr.depth, Expr.depthOfAll]
    exact Nat.succ_le_succ (Nat.zero_le _)
  | _, _, _, .callWith _ _ hargs _ => by
    rw [Expr.depth]
    exact Nat.succ_le_succ hargs.depth_le
  | _, _, _, .parens _ he _ => Nat.le_succ_of_le he.depth_le

theorem Unary.depth_le : ∀ {ts : List Token} {e : Expr} {n : Nat}, Unary ts e n → e.depth ≤ deepestUnary n
  | _, _, _, .operand ho => ho.depth_le
  | _, _, _, .signed _ hu => by
    rw [Expr.depth]
    exact Nat.succ_le_succ (Nat.le_trans hu.depth_le (deepestUnary_le _))

theorem Chain.depth_le : ∀ {rank : Nat} {ts : List Token} {e : Expr} {n k : Nat}, Chain rank ts e n k →
    ChainBound rank n k e
  | _, _, _, _, _, .unary hu => ⟨Nat.zero_le _, by simpa using hu.depth_le, fun r hr => by omega⟩
  | _, _, _, _, _, .operand hc => hc.depth_le.operand
  | _, _, _, _, _, .operator ha _ hb => ha.depth_le.operator hb.depth_le _ _

theorem Conditional.depth_le : ∀ {ts : List Token} {e : Expr} {n : Nat}, Conditional ts e n → e.depth ≤ deepest n
  | _, _, n, .binary hc => by
    have hdepth := hc.depth_le.2.1
    rcases Nat.eq_zero_or_pos n with rfl | hn
    · exact hdepth
    · rw [deepest_eq hn]
      omega
  | _, _, _, @Conditional.branches _ _ _ _ _ _ _ _ n m l _ hc _ hy _ hz => by
    have hcondition := hc.depth_le.2.1
    generalize hN : max n (max (1 + m) (1 + l)) = N
    have hpos : 0 < N := by omega
    have hn : deepestUnary n ≤ deepestUnary N := deepestUnary_mono (by omega)
    have hyes : _ ≤ deepest (N - 1) := Nat.le_trans hy.depth_le (deepest_mono (by omega))
    have hno : _ ≤ deepest (N - 1) := Nat.le_trans hz.depth_le (deepest_mono (by omega))
    have hbelow := deepest_succ (N - 1)
    rw [Nat.sub_add_cancel hpos] at hbelow
    have htop := deepest_eq hpos
    rw [Expr.depth]
    omega

theorem Arguments.depth_le : ∀ {ts : List Token} {es : List Expr} {n : Nat}, Arguments ts es n →
    Expr.depthOfAll es ≤ deepest n
  | _, _, _, .last he => by
    rw [Expr.depthOfAll, Expr.depthOfAll, Nat.max_zero]
    exact he.depth_le
  | _, _, _, @Arguments.more _ _ _ _ _ n m he _ hargs => by
    have hfirst := Nat.le_trans he.depth_le (deepest_mono (Nat.le_max_left n m))
    have hothers := Nat.le_trans hargs.depth_le (deepest_mono (Nat.le_max_right n m))
    rw [Expr.depthOfAll]
    exact Nat.max_le.mpr ⟨hfirst, hothers⟩

end

/-! ## Trees as deep as that -/

def bare (kind : Token.Kind) : Token := ⟨kind, none, "", .start⟩

theorem chain_leaf (rank : Nat) : Chain rank [bare .null] (.literal .null .start) 0 0 := by
  induction rank with
  | zero => exact .unary (.operand (.literal .null))
  | succ rank ih => exact .operand ih

theorem exists_operator {rank : Nat} (h : rank < 6) : ∃ k op, Operator (rank + 1) k op := by
  have hrank : rank = 0 ∨ rank = 1 ∨ rank = 2 ∨ rank = 3 ∨ rank = 4 ∨ rank = 5 := by omega
  rcases hrank with rfl | rfl | rfl | rfl | rfl | rfl
  · exact ⟨_, _, .multiply⟩
  · exact ⟨_, _, .add⟩
  · exact ⟨_, _, .less⟩
  · exact ⟨_, _, .equal⟩
  · exact ⟨_, _, .and⟩
  · exact ⟨_, _, .or⟩

/-- Up to as many operators as the phrase is nested can follow it without a deeper nesting. -/
theorem Chain.followed {rank : Nat} (hr : rank < 6) {ts : List Token} {e : Expr} {n k : Nat} (h : Chain rank ts e n k) :
    ∀ j ≤ n, ∃ us d, Chain (rank + 1) us d n j ∧ d.depth = e.depth + j := by
  intro j hj
  induction j with
  | zero => exact ⟨ts, e, .operand h, rfl⟩
  | succ j ih =>
    obtain ⟨us, d, hd, hdepth⟩ := ih (by omega)
    obtain ⟨kind, op, hop⟩ := exists_operator hr
    have hnext := Chain.operator (t := bare kind) hd hop (chain_leaf rank)
    have hn : max n (j + 1 + 0) = n := by omega
    rw [hn] at hnext
    refine ⟨_, _, hnext, ?_⟩
    simp [Expr.depth, hdepth]
    omega

theorem Unary.followed {ts : List Token} {e : Expr} {n : Nat} (h : Unary ts e n) {rank : Nat} (hr : rank ≤ 6) :
    ∃ us d k, Chain rank us d n k ∧ d.depth = e.depth + rank * n := by
  induction rank with
  | zero => exact ⟨ts, e, 0, .unary h, by simp⟩
  | succ rank ih =>
    obtain ⟨us, d, k, hd, hdepth⟩ := ih (by omega)
    obtain ⟨vs, b, hb, hdepth'⟩ := hd.followed (by omega) n (Nat.le_refl n)
    refine ⟨vs, b, n, hb, ?_⟩
    rw [hdepth', hdepth, Nat.succ_mul]
    omega

theorem exists_depth_eq (n : Nat) : ∃ ts e, Conditional ts e n ∧ e.depth = deepest n := by
  induction n with
  | zero => exact ⟨_, _, .binary (chain_leaf 6), rfl⟩
  | succ n ih =>
    obtain ⟨ts, e, he, hdepth⟩ := ih
    have hcall : Unary _ _ (n + 1) := .operand
      (.callWith (f := bare .function) (o := bare .openParen) (c := bare .closeParen) rfl rfl (.last he) rfl)
    obtain ⟨us, d, k, hd, hdepth'⟩ := hcall.followed (Nat.le_refl 6)
    have hleaf := Conditional.binary (chain_leaf 6)
    have hquestion : (bare .question).kind = .question := rfl
    have hcolon : (bare .colon).kind = .colon := rfl
    have hwhole := Conditional.branches hd hquestion hleaf hcolon hleaf
    have hn : max (n + 1) (max (1 + 0) (1 + 0)) = n + 1 := by omega
    rw [hn] at hwhole
    refine ⟨_, _, hwhole, ?_⟩
    simp only [Expr.depth, Expr.depthOfAll, hdepth, hdepth', deepest_succ]
    omega

/-! ## Where phrases end -/

theorem Operator.ne_stop {rank : Nat} {k : Token.Kind} {op : BinaryOp} (h : Operator rank k op) : k ≠ .stop := by
  cases h <;> decide

theorem Sign.ne_stop {k : Token.Kind} {op : UnaryOp} (h : Sign k op) : k ≠ .stop := by
  cases h <;> decide

theorem IsLiteral.ne_stop {k : Token.Kind} (h : IsLiteral k) : k ≠ .stop := by
  cases h <;> decide

mutual

theorem Operand.ne_stop : ∀ {ts : List Token} {e : Expr} {n : Nat}, Operand ts e n → ∀ t ∈ ts, t.kind ≠ .stop
  | _, _, _, .literal hk => by
    have hstop := hk.ne_stop
    simpa using hstop
  | _, _, _, .field hk => by simp [hk]
  | _, _, _, .call hf ho hc => by simp [hf, ho, hc]
  | _, _, _, .callWith hf ho hargs hc => by
    have hinner := hargs.ne_stop
    simpa [hf, ho, hc, or_imp, forall_and] using hinner
  | _, _, _, .parens ho he hc => by
    have hinner := he.ne_stop
    simpa [ho, hc, or_imp, forall_and] using hinner

theorem Unary.ne_stop : ∀ {ts : List Token} {e : Expr} {n : Nat}, Unary ts e n → ∀ t ∈ ts, t.kind ≠ .stop
  | _, _, _, .operand ho => ho.ne_stop
  | _, _, _, .signed hs hu => List.forall_mem_cons.mpr ⟨hs.ne_stop, hu.ne_stop⟩

theorem Chain.ne_stop : ∀ {rank : Nat} {ts : List Token} {e : Expr} {n k : Nat}, Chain rank ts e n k →
    ∀ t ∈ ts, t.kind ≠ .stop
  | _, _, _, _, _, .unary hu => hu.ne_stop
  | _, _, _, _, _, .operand hc => hc.ne_stop
  | _, _, _, _, _, .operator ha ho hb =>
    List.forall_mem_append.mpr ⟨ha.ne_stop, List.forall_mem_cons.mpr ⟨ho.ne_stop, hb.ne_stop⟩⟩

theorem Conditional.ne_stop : ∀ {ts : List Token} {e : Expr} {n : Nat}, Conditional ts e n →
    ∀ t ∈ ts, t.kind ≠ .stop
  | _, _, _, .binary hc => hc.ne_stop
  | _, _, _, .branches hc hq hy hcolon hz => by
    have hcondition := hc.ne_stop
    have hyes := hy.ne_stop
    have hno := hz.ne_stop
    simp_all [or_imp]

theorem Arguments.ne_stop : ∀ {ts : List Token} {es : List Expr} {n : Nat}, Arguments ts es n →
    ∀ t ∈ ts, t.kind ≠ .stop
  | _, _, _, .last he => he.ne_stop
  | _, _, _, .more he hc hargs =>
    List.forall_mem_append.mpr ⟨he.ne_stop, List.forall_mem_cons.mpr ⟨by simp [hc], hargs.ne_stop⟩⟩

end

/-! ## Stacked signs -/

theorem Unary.stacked {ts : List Token} {e : Expr} {n : Nat} (h : Unary ts e n) {signs : List Token}
    (hsigns : ∀ t ∈ signs, t.kind = .not) :
    ∃ d, Unary (signs ++ ts) d (n + signs.length) ∧ d.depth = e.depth + signs.length := by
  induction signs with
  | nil => exact ⟨e, h, rfl⟩
  | cons t signs ih =>
    obtain ⟨d, hd, hdepth⟩ := ih fun u hu => hsigns u (.tail _ hu)
    have hsign : Sign t.kind .not := hsigns t (.head _) ▸ .not
    refine ⟨_, .signed hsign hd, ?_⟩
    rw [Expr.depth, hdepth, List.length_cons]
    omega

/-- The signs are charged to the first operand and the operator to the second. -/
theorem exists_stacked {signs : List Token} (hsigns : ∀ t ∈ signs, t.kind = .not) {a o b : Token} (ha : a.kind = .name)
    (ho : o.kind = .and) (hb : b.kind = .name) :
    ∃ e, Conditional (signs ++ [a, o, b]) e (max signs.length 1) ∧ e.depth = signs.length + 1 := by
  obtain ⟨d, hd, hdepth⟩ := Unary.stacked (.operand (.field ha)) hsigns
  have hleft : Chain 5 (signs ++ [a]) d (0 + signs.length) 0 :=
    .operand (.operand (.operand (.operand (.operand (.unary hd)))))
  have hright : Chain 4 [b] (.field (Text.segments b.raw) b.location) 0 0 :=
    .operand (.operand (.operand (.operand (.unary (.operand (.field hb))))))
  have hand : Operator 5 o.kind .and := ho ▸ .and
  have hwhole := Conditional.binary (.operand (.operator hleft hand hright))
  refine ⟨_, by simpa using hwhole, ?_⟩
  simp [Expr.depth, hdepth]

end Grammar

open Grammar

/-- A text of stacked signs before the first of two operands. -/
theorem parse_of_kinds (source : String) {k : Nat} (hk : k ≤ nestingLimit)
    (h : (tokenize source).map (List.map Token.kind) =
      .ok (List.replicate k .not ++ [.name, .and, .name, .stop])) :
    ∃ e, parse source = .ok e ∧ e.depth = k + 1 := by
  obtain ⟨tokens, htokens, hkinds⟩ := map_eq_ok.mp h
  obtain ⟨signs, others, rfl, hsigns, hothers⟩ := List.map_eq_append_iff.mp hkinds
  obtain ⟨a, others, rfl, ha, hothers⟩ := List.map_eq_cons_iff.mp hothers
  obtain ⟨o, others, rfl, ho, hothers⟩ := List.map_eq_cons_iff.mp hothers
  obtain ⟨b, others, rfl, hb, hothers⟩ := List.map_eq_cons_iff.mp hothers
  obtain ⟨stop, others, rfl, hstop, hothers⟩ := List.map_eq_cons_iff.mp hothers
  obtain rfl := List.map_eq_nil_iff.mp hothers
  obtain ⟨hlength, hsigns⟩ := List.eq_replicate_iff.mp hsigns
  rw [List.length_map] at hlength
  obtain ⟨e, he, hdepth⟩ := exists_stacked (fun t ht => hsigns _ (List.mem_map_of_mem ht)) ha ho hb
  have htake : (signs ++ [a, o, b, stop]).takeWhile (·.kind ≠ .stop) = signs ++ [a, o, b] := by
    have hphrase := he.ne_stop
    have hsplit : signs ++ [a, o, b, stop] = (signs ++ [a, o, b]) ++ [stop] := by simp
    rw [hsplit, List.takeWhile_append_of_pos (by simpa using hphrase)]
    simp [hstop]
  have hneed : max signs.length 1 ≤ nestingLimit := Nat.max_le.mpr ⟨hlength ▸ hk, by decide⟩
  exact ⟨e, parse_eq_ok.mpr ⟨_, htokens, _, hneed, htake.symm ▸ he⟩, hlength ▸ hdepth⟩

/-- **How deep accepted trees are.** The tree of an accepted text is deeper than the limit by no more than the steps
into first operands that no nesting is charged for, and so not at all where no first operand is deeper than what
stands behind it. However many there are, six ranks of operators cannot bring it further than this. -/
theorem parse_depth_le {source : String} {e : Expr} (h : parse source = .ok e) :
    e.depth ≤ nestingLimit + e.uncharged ∧ e.depth ≤ nestingLimit * (3 * nestingLimit + 5) := by
  obtain ⟨tokens, -, n, hn, he⟩ := parse_eq_ok.mp h
  have hcharged := he.depth_le_charged
  exact ⟨by omega, Nat.le_trans he.depth_le (deepest_mono hn)⟩

example : nestingLimit * (3 * nestingLimit + 5) = 30500 := by decide

/-- One sign and one operator. -/
theorem parse_depth_le_signed :
    ∃ e, parse "!A&&B" = .ok e ∧ e.depth = 2 ∧ e.depth ≤ nestingLimit + e.uncharged ∧
      e.depth ≤ nestingLimit * (3 * nestingLimit + 5) := by
  obtain ⟨e, he, hdepth⟩ := parse_of_kinds "!A&&B" (k := 1) (by decide) (by decide +kernel)
  exact ⟨e, he, hdepth, parse_depth_le he⟩

/-- A tree deeper than the limit: a hundred signs before the first of two operands. -/
theorem parse_deeper_than_limit :
    ∃ e, parse (String.ofList (List.replicate 100 '!' ++ "A && B".toList)) = .ok e ∧ nestingLimit < e.depth := by
  obtain ⟨e, he, hdepth⟩ := parse_of_kinds (String.ofList (List.replicate 100 '!' ++ "A && B".toList)) (k := 100)
    (by decide) (by decide +kernel)
  exact ⟨e, he, by rw [hdepth]; decide⟩

/-- There are accepted tokens whose tree is as deep as that. -/
theorem exists_whole_depth_eq : ∃ tokens source e, ((Parser.ofTokens tokens source).whole).1 = .ok e ∧
    e.depth = nestingLimit * (3 * nestingLimit + 5) := by
  obtain ⟨ts, e, he, hdepth⟩ := exists_depth_eq nestingLimit
  have htake : ts.takeWhile (·.kind ≠ .stop) = ts := List.takeWhile_eq_self_iff.mpr (by simpa using he.ne_stop)
  exact ⟨ts, "", e, Parser.whole_ofTokens.mpr ⟨_, Nat.le_refl _, htake.symm ▸ he⟩, hdepth⟩

end RecordLogic
