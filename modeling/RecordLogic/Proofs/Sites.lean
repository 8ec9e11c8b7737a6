import RecordLogic.Predicate.Basic
import RecordLogic.Proofs.Reads

/-!
# Where mistakes are found

The parser finds a mistake at one of its tokens or at the end, and each part of a tree keeps the location of the
token that it was read at. So what is wrong with a tree is found at tokens as well: for a path at one of its
segments, for a call at its name.
-/

namespace RecordLogic

/-! ## What the parser finds -/

def Site (T : Token → Prop) (stop l : Location) : Prop := l = stop ∨ ∃ t, T t ∧ l = t.location

/-- Every part of the tree was read at a token with the property, a field and a call with its text. -/
inductive Expr.ReadAt (T : Token → Prop) : Expr → Prop
  | literal {t : Token} (v : Literal) : T t → ReadAt T (.literal v t.location)
  | field {t : Token} : T t → t.kind = .name → ReadAt T (.field (Text.segments t.raw) t.location)
  | call {t : Token} {args : List Expr} : T t → t.kind = .function → (∀ a ∈ args, ReadAt T a) →
      ReadAt T (.call t.raw args t.location)
  | unary {t : Token} {e : Expr} (op : UnaryOp) : T t → ReadAt T e → ReadAt T (.unary op e t.location)
  | binary {t : Token} {a b : Expr} (op : BinaryOp) : T t → ReadAt T a → ReadAt T b →
      ReadAt T (.binary op a b t.location)
  | conditional {t : Token} {c y n : Expr} : T t → ReadAt T c → ReadAt T y → ReadAt T n →
      ReadAt T (.conditional c y n t.location)

theorem Expr.ReadAt.location {T : Token → Prop} {e : Expr} (h : e.ReadAt T) : ∃ t, T t ∧ e.location = t.location := by
  cases h <;> exact ⟨_, ‹_›, rfl⟩

namespace Parser

variable {T : Token → Prop} {stop : Location} {tokens : List Token} {α : Type}

def Failure.Sited (T : Token → Prop) (stop : Location) (f : Failure) : Prop := Site T stop f.mistake.location

def Parsed.Keeps (T : Token → Prop) (P : α → Prop) (p : Parsed α tokens) : Prop := P p.value ∧ ∀ t ∈ p.rest, T t

theorem here_site (h : ∀ t ∈ tokens, T t) : Site T stop (here stop tokens) := by
  cases tokens with
  | nil => exact .inl rfl
  | cons t ts => exact .inr ⟨t, h t (.head _), rfl⟩

theorem tooDeep_sited (h : ∀ t ∈ tokens, T t) : (tooDeep stop tokens).Sited T stop := here_site h

theorem unexpected_sited (h : ∀ t ∈ tokens, T t) (expected : Expected) (budget : Nat) :
    (unexpected stop expected budget tokens).Sited T stop := by
  cases tokens with
  | nil => exact .inl rfl
  | cons t ts => exact .inr ⟨t, h t (.head _), rfl⟩

theorem expect_sited (h : ∀ t ∈ tokens, T t) (kind : Token.Kind) (budget : Nat) :
    Yields (Failure.Sited T stop) (Parsed.Keeps T fun _ => True) (expect stop kind budget tokens) := by
  unfold expect
  split
  · split
    · exact .ok ⟨trivial, fun t ht => h t (.tail _ ht)⟩
    · exact .error (unexpected_sited h _ _)
  · exact .error (unexpected_sited h _ _)

-- The recursion is that of the parser. A part that was read leaves only tokens that have the property again, so a
-- mistake behind it is at one of them.
mutual

theorem conditional_sited (budget : Nat) (tokens : List Token) (h : ∀ t ∈ tokens, T t) :
    Yields (Failure.Sited T stop) (Parsed.Keeps T (Expr.ReadAt T)) (conditional stop budget tokens) := by
  rw [conditional]
  refine (binary_sited 6 budget tokens h).bind fun c hc => ?_
  obtain ⟨c, mid, hm⟩ := c
  obtain ⟨hc, hmid⟩ := hc
  cases mid with
  | nil => exact .ok ⟨hc, hmid⟩
  | cons q us =>
    have hus : ∀ t ∈ us, T t := fun t ht => hmid t (.tail _ ht)
    have hless : us.length < tokens.length := Nat.lt_of_succ_lt hm
    dsimp only
    split
    · split
      · exact .error (tooDeep_sited hus)
      · rename_i budget
        refine (conditional_sited budget us hus).bind fun y hy => ?_
        refine (expect_sited hy.2 .colon budget).bind fun colon hcolon => ?_
        have hn : colon.rest.length < tokens.length := Nat.lt_trans colon.shorter (Nat.lt_trans y.shorter hless)
        refine (conditional_sited budget colon.rest hcolon.2).bind fun n hn => ?_
        exact .ok ⟨.conditional (hmid q (.head _)) hc hy.1 hn.1, hn.2⟩
    · exact .ok ⟨hc, hmid⟩
termination_by (tokens.length, 10)

theorem binary_sited (rank budget : Nat) (tokens : List Token) (h : ∀ t ∈ tokens, T t) :
    Yields (Failure.Sited T stop) (Parsed.Keeps T (Expr.ReadAt T)) (binary stop rank budget tokens) := by
  cases rank with
  | zero =>
    rw [binary]
    exact unary_sited budget tokens h
  | succ rank =>
    rw [binary]
    refine (binary_sited rank budget tokens h).bind fun left hleft => ?_
    have hless := left.shorter
    refine (chain_sited rank budget left.value left.rest hleft.1 hleft.2).bind fun all hall => ?_
    exact .ok hall
termination_by (tokens.length, rank + 2)

theorem chain_sited (rank budget : Nat) (left : Expr) (tokens : List Token) (hleft : left.ReadAt T)
    (h : ∀ t ∈ tokens, T t) :
    Yields (Failure.Sited T stop) (fun all => all.1.ReadAt T ∧ ∀ t ∈ all.2.1, T t)
      (chain stop rank budget left tokens) := by
  match tokens, h with
  | [], h =>
    rw [chain]
    exact .ok ⟨hleft, h⟩
  | t :: ts, h =>
    have hts : ∀ u ∈ ts, T u := fun u hu => h u (.tail _ hu)
    rw [chain]
    split
    · exact .ok ⟨hleft, h⟩
    · rename_i op _
      split
      · exact .error (tooDeep_sited hts)
      · rename_i budget
        refine (binary_sited rank budget ts hts).bind fun right hright => ?_
        have hless := Nat.lt_succ_of_lt right.shorter
        refine (chain_sited rank budget _ right.rest (.binary op (h t (.head _)) hleft hright.1) hright.2).bind
          fun all hall => ?_
        exact .ok hall
termination_by (tokens.length, rank + 3)

theorem unary_sited (budget : Nat) (tokens : List Token) (h : ∀ t ∈ tokens, T t) :
    Yields (Failure.Sited T stop) (Parsed.Keeps T (Expr.ReadAt T)) (unary stop budget tokens) := by
  match tokens, h with
  | [], h =>
    rw [unary]
    exact .error (unexpected_sited h _ _)
  | t :: ts, h =>
    have hts : ∀ u ∈ ts, T u := fun u hu => h u (.tail _ hu)
    rw [unary]
    split
    · exact operand_sited budget (t :: ts) h
    · rename_i op _
      split
      · exact .error (tooDeep_sited hts)
      · rename_i budget
        refine (unary_sited budget ts hts).bind fun e he => ?_
        exact .ok ⟨.unary op (h t (.head _)) he.1, he.2⟩
termination_by (tokens.length, 1)

theorem operand_sited (budget : Nat) (tokens : List Token) (h : ∀ t ∈ tokens, T t) :
    Yields (Failure.Sited T stop) (Parsed.Keeps T (Expr.ReadAt T)) (operand stop budget tokens) := by
  match tokens, h with
  | [], h =>
    rw [operand]
    exact .error (unexpected_sited h _ _)
  | t :: ts, h =>
    have ht : T t := h t (.head _)
    have hts : ∀ u ∈ ts, T u := fun u hu => h u (.tail _ hu)
    rw [operand.eq_def]
    dsimp only
    split
    · exact .ok ⟨.literal _ ht, hts⟩
    · exact .ok ⟨.literal _ ht, hts⟩
    · exact .ok ⟨.literal _ ht, hts⟩
    · exact .ok ⟨.literal _ ht, hts⟩
    · rename_i hk
      exact .ok ⟨.field ht hk, hts⟩
    · rename_i hk
      refine (expect_sited hts .openParen budget).bind fun opened hopened => ?_
      have hless := Nat.lt_succ_of_lt opened.shorter
      split
      · exact .error (tooDeep_sited hopened.2)
      · rename_i budget
        refine (arguments_sited budget opened.rest hopened.2).bind fun args hargs => ?_
        exact .ok ⟨.call ht hk hargs.1, hargs.2⟩
    · split
      · exact .error (tooDeep_sited hts)
      · rename_i budget
        refine (conditional_sited budget ts hts).bind fun e he => ?_
        refine (expect_sited he.2 .closeParen budget).bind fun closed hclosed => ?_
        exact .ok ⟨he.1, hclosed.2⟩
    · exact .error (unexpected_sited h _ _)
termination_by (tokens.length, 0)

theorem arguments_sited (budget : Nat) (tokens : List Token) (h : ∀ t ∈ tokens, T t) :
    Yields (Failure.Sited T stop) (Parsed.Keeps T fun es => ∀ e ∈ es, e.ReadAt T) (arguments stop budget tokens) := by
  match tokens, h with
  | [], h =>
    rw [arguments]
    exact moreArguments_sited budget [] h
  | t :: ts, h =>
    rw [arguments]
    split
    · exact .ok ⟨by simp, fun u hu => h u (.tail _ hu)⟩
    · exact moreArguments_sited budget (t :: ts) h
termination_by (tokens.length, 12)

theorem moreArguments_sited (budget : Nat) (tokens : List Token) (h : ∀ t ∈ tokens, T t) :
    Yields (Failure.Sited T stop) (Parsed.Keeps T fun es => ∀ e ∈ es, e.ReadAt T)
      (moreArguments stop budget tokens) := by
  rw [moreArguments]
  refine (conditional_sited budget tokens h).bind fun e he => ?_
  obtain ⟨e, mid, hm⟩ := e
  obtain ⟨he, hmid⟩ := he
  cases mid with
  | nil => exact .error (unexpected_sited hmid _ _)
  | cons t ts =>
    have hts : ∀ u ∈ ts, T u := fun u hu => hmid u (.tail _ hu)
    have hless : ts.length < tokens.length := Nat.lt_of_succ_lt hm
    dsimp only
    split
    · refine (moreArguments_sited budget ts hts).bind fun more hmore => ?_
      exact .ok ⟨List.forall_mem_cons.mpr ⟨he, hmore.1⟩, hmore.2⟩
    · split
      · exact .ok ⟨by simpa using he, hts⟩
      · exact .error (unexpected_sited hmid _ _)
termination_by (tokens.length, 11)

end

theorem whole_sited {p : Parser} (h : ∀ t ∈ p.tokens, T t) :
    Yields (fun m => Site T p.stop m.location) (Expr.ReadAt T) (p.whole).1 := by
  have hexpression : Yields (Failure.Sited T p.stop) (Parsed.Keeps T (Expr.ReadAt T))
      (conditional p.stop p.budget p.tokens) := conditional_sited p.budget p.tokens h
  unfold whole expression
  cases hc : conditional p.stop p.budget p.tokens with
  | error f =>
    rw [hc] at hexpression
    exact .error hexpression.of_error
  | ok e =>
    rw [hc] at hexpression
    obtain ⟨he, hrest⟩ := hexpression.of_ok
    dsimp only
    split
    · exact .ok he
    · exact .error (unexpected_sited hrest _ _)

end Parser

/-! ## Objections to a tree -/

/-- An objection stands at a token with the property: at the segment of a path that it names, at the name of a call,
or at any token. -/
def Objection.Sited (T : Token → Prop) (o : Objection) : Prop :=
  match o.problem with
  | .unknownField u => ∃ t, T t ∧ t.kind = .name ∧ (Text.segments t.raw)[u.depth]? = some u.segment ∧
      o.location = Lowering.segmentLocation t.location (Text.segments t.raw) u.depth
  | .noOverload name _ | .noFunction name _ => ∃ t, T t ∧ t.raw = name ∧ o.location = t.location
  | _ => ∃ t, T t ∧ o.location = t.location

def Typed.Sited (T : Token → Prop) : Typed → Prop
  | .numeral n => ∃ t, T t ∧ n.location = t.location
  | .part _ _ => True

theorem Model.walk_error {mode : Text.Case} {type : ValueType} {path : List String} {depth : Nat} {segment : String}
    (h : walk mode type path = .error (depth, segment)) : path[depth]? = some segment := by
  induction path generalizing type depth with
  | nil => cases h
  | cons first rest ih =>
    rw [walk] at h
    split at h
    · cases h
      rfl
    · split at h
      · rename_i hrest
        cases h
        exact ih hrest
      · cases h

theorem Model.resolve_error {m : Model} {mode : Text.Case} {path : List String} {u : UnknownSegment}
    (h : m.resolve mode path = .error u) (hpath : path ≠ []) : path[u.depth]? = some u.segment := by
  unfold resolve at h
  rw [if_neg (by simpa using hpath)] at h
  split at h
  · rename_i hwalk
    cases h
    exact walk_error hwalk
  · cases h

namespace Lowering

variable {T : Token → Prop} {s : Scope} {t : Token} {a b c : Typed}

theorem literal_sited (v : Literal) (ht : T t) : (literal v t.location).Sited T := by
  cases v with
  | number f text => exact ⟨t, ht, rfl⟩
  | bool b => trivial
  | string s => trivial
  | null => trivial

theorem field_sited (ht : T t) (hk : t.kind = .name) :
    Yields (Objection.Sited T) (Typed.Sited T) (field s (Text.segments t.raw) t.location) := by
  unfold field
  split
  · exact .ok trivial
  · rename_i u hu
    split
    · rename_i member hmember
      obtain ⟨_, e, n, -, -, -, -, rfl⟩ := member?_eq_some.mp hmember
      exact .ok trivial
    · exact .error ⟨t, ht, hk, Model.resolve_error hu (by simp [Text.segments, Text.split, Text.pieces_ne_nil]), rfl⟩

theorem call_sited (ht : T t) (args : List Typed) :
    Yields (Objection.Sited T) (Typed.Sited T) (call s t.raw args t.location) := by
  unfold call
  dsimp only
  split
  · exact .ok trivial
  · split <;> exact .error ⟨t, ht, rfl, rfl⟩

theorem coerce_sited (ha : a.Sited T) (kind : NumericKind) :
    Yields (Objection.Sited T) (fun _ => True) (coerce a kind) := by
  unfold coerce
  dsimp only
  split
  · exact .ok trivial
  · split
    · exact .ok trivial
    · split
      · split
        · exact .ok trivial
        · exact .error ha
      · split <;> exact .ok trivial

theorem negateNumber_sited (ha : a.Sited T) (kind : NumericKind) :
    Yields (Objection.Sited T) (Typed.Sited T) (negateNumber a kind) := by
  unfold negateNumber
  exact (coerce_sited ha _).bind fun node _ => .ok trivial

theorem negated?_sited {n m : Numeral} (hn : Typed.Sited T (.numeral n)) (h : n.negated? = some m) :
    Typed.Sited T (.numeral m) := by
  unfold Numeral.negated? at h
  dsimp only at h
  split at h
  · obtain ⟨kind, -, rfl⟩ := Option.map_eq_some_iff.mp h
    exact hn
  · cases h
    exact hn

theorem unary_sited (op : UnaryOp) (ht : T t) (ha : a.Sited T) :
    Yields (Objection.Sited T) (Typed.Sited T) (unary op a t.location) := by
  cases op with
  | not =>
    unfold unary
    dsimp only
    split
    · exact .ok trivial
    · exact .error ⟨t, ht, rfl⟩
  | negate =>
    show Yields _ _ (negate a t.location)
    unfold negate
    split
    · split
      · split
        · rename_i hm
          exact .ok (negated?_sited ha hm)
        · exact negateNumber_sited ha _
      · exact negateNumber_sited ha _
    · exact .ok trivial
    · exact .error ⟨t, ht, rfl⟩

theorem unify_sited (symbol : String) (ht : T t) (ha : a.Sited T) (hb : b.Sited T) :
    Yields (Objection.Sited T) (fun _ => True) (unify symbol a b t.location) := by
  unfold unify
  dsimp only
  split
  · exact .ok trivial
  · exact .ok trivial
  · exact .ok trivial
  · exact (coerce_sited ha _).bind fun _ _ => (coerce_sited hb _).bind fun _ _ => .ok trivial
  · split
    · exact .ok trivial
    · exact .error ⟨t, ht, rfl⟩
  · split
    · exact .ok trivial
    · exact .error ⟨t, ht, rfl⟩

theorem operation_sited (o : Operation) (ht : T t) (ha : a.Sited T) (hb : b.Sited T) :
    Yields (Objection.Sited T) (Typed.Sited T) (operation o a b t.location) := by
  unfold operation
  dsimp only
  split
  · exact .ok trivial
  · split
    · exact (coerce_sited ha _).bind fun _ _ => (coerce_sited hb _).bind fun _ _ => .ok trivial
    · split
      · exact .ok trivial
      · exact .error ⟨t, ht, rfl⟩

theorem relation_sited (r : Relation) (ht : T t) (ha : a.Sited T) (hb : b.Sited T) :
    Yields (Objection.Sited T) (Typed.Sited T) (relation r a b t.location) := by
  unfold relation
  refine (unify_sited _ ht ha hb).bind fun m _ => ?_
  split
  · exact .error ⟨t, ht, rfl⟩
  · exact .ok trivial

theorem logical_sited (op : BinaryOp) (make : Node → Node → Node) (ht : T t) :
    Yields (Objection.Sited T) (Typed.Sited T) (logical op make a b t.location) := by
  unfold logical
  split
  · exact .ok trivial
  · exact .error ⟨t, ht, rfl⟩

theorem binary_sited (op : BinaryOp) (ht : T t) (ha : a.Sited T) (hb : b.Sited T) :
    Yields (Objection.Sited T) (Typed.Sited T) (binary op a b t.location) := by
  cases op with
  | and => exact logical_sited _ _ ht
  | or => exact logical_sited _ _ ht
  | relation r => exact relation_sited r ht ha hb
  | operation o => exact operation_sited o ht ha hb

theorem conditional_sited (ht : T t) (ha : a.Sited T) (hb : b.Sited T) :
    Yields (Objection.Sited T) (Typed.Sited T) (conditional c a b t.location) := by
  unfold conditional
  exact (unify_sited _ ht ha hb).bind fun m _ => .ok trivial

theorem lowerAll_sited {es : List Expr}
    (h : ∀ e ∈ es, Yields (Objection.Sited T) (Typed.Sited T) (lower s e)) :
    Yields (Objection.Sited T) (fun _ => True) (lowerAll s es) := by
  induction es with
  | nil =>
    rw [lowerAll]
    exact .ok trivial
  | cons e es ih =>
    rw [lowerAll]
    refine (h e (.head _)).bind fun t ht => ?_
    exact (ih fun d hd => h d (.tail _ hd)).bind fun ts _ => .ok trivial

theorem lower_sited {e : Expr} (h : e.ReadAt T) : Yields (Objection.Sited T) (Typed.Sited T) (lower s e) := by
  induction h with
  | literal v ht =>
    rw [lower]
    exact .ok (literal_sited v ht)
  | field ht hk =>
    rw [lower]
    exact field_sited ht hk
  | call ht hk hargs ih =>
    rw [lower]
    exact (lowerAll_sited ih).bind fun args _ => call_sited ht args
  | unary op ht he ih =>
    rw [lower]
    exact ih.bind fun a ha => unary_sited op ht ha
  | binary op ht ha hb iha ihb =>
    rw [lower]
    exact iha.bind fun a ha => ihb.bind fun b hb => binary_sited op ht ha hb
  | @conditional t _ _ _ ht hc hy hn ihc ihy ihn =>
    rw [lower]
    refine ihc.bind fun c _ => ?_
    split
    · exact ihy.bind fun y hy => ihn.bind fun n hn => conditional_sited ht hy hn
    · exact .error ⟨t, ht, rfl⟩

end Lowering

end RecordLogic
