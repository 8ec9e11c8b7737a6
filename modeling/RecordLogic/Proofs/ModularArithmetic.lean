import RecordLogic.Proofs.IntegralBounds
import RecordLogic.Proofs.Wrapping

/-!
# Arithmetic modulo two to the width

Sums, differences, products and negatives are wrapped at every operator. Wrapping keeps the residue modulo two to the
width of the kind, and the residue of a result depends on the residues of the operands only. So a tree comes to the one
number of its kind that agrees with its exact value, however far the exact values below it leave the kind.
-/

namespace RecordLogic

open Number

namespace Operation

def isRing : Operation → Bool
  | .add | .subtract | .multiply => true
  | .divide | .modulo => false

def exact : Operation → Int → Int → Int
  | .add, m, n => m + n
  | .subtract, m, n => m - n
  | .multiply, m, n => m * n
  | .divide, m, n => m.tdiv n
  | .modulo, m, n => m.tmod n

theorem exact_modEq {o : Operation} {m m' n n' d : Int} (ho : o.isRing) (hm : m ≡ m' [ZMOD d])
    (hn : n ≡ n' [ZMOD d]) : o.exact m n ≡ o.exact m' n' [ZMOD d] := by
  cases o with
  | add => exact hm.add hn
  | subtract => exact hm.sub hn
  | multiply => exact hm.mul hn
  | divide => cases ho
  | modulo => cases ho

end Operation

namespace NumericKind

variable {i j k : NumericKind}

theorem isIntegral_of_promote (h : j.promote = k) (hk : k.isIntegral) : j.isIntegral := by
  subst h
  cases j <;> first | rfl | cases hk

theorem isIntegral_of_isSigned (h : k.isSigned) : k.isIntegral := by
  cases k <;> first | rfl | cases h

theorem promote_of_promote (h : j.promote = k) : k.promote = k := by
  subst h
  cases j <;> rfl

theorem fits_promote {n : Int} (h : j.fits n) : j.promote.fits n := by
  have h31 : twoTo 31 = 2147483648 := by decide
  cases j with
  | i8 | u8 | i16 | u16 =>
    apply fits_i32
    simp [fits, bounds, integral?] at h
    omega
  | _ => exact h

theorem promote_widen (hi : i.promote = k) (hj : j.promote = k) : (i.widen j).promote = k := by
  unfold widen
  split
  · exact hi
  · exact hj

theorem negationKind_of_promote (h : j.promote = k) (hk : k.isSigned) : Lowering.negationKind j = k := by
  unfold Lowering.negationKind
  rw [h]
  cases k <;> first | rfl | cases hk

end NumericKind

/-! ## Residues of values -/

namespace Value

variable {v w : Value} {k : NumericKind} {p q : Prop} {m n : Int}

def Agrees (v : Value) (k : NumericKind) (p : Prop) (n : Int) : Prop :=
  p ∧ v = .null ∨ ¬ p ∧ ∃ m, v = .int m ∧ m ≡ n [ZMOD twoTo k.width]

theorem wrap_carry_modEq (hk : k.isIntegral) (n : Int) : k.wrap (carry n) ≡ n [ZMOD twoTo k.width] :=
  (NumericKind.wrap_modEq hk (carry n)).trans (NumericKind.carry_modEq k n)

theorem Agrees.negate (hk : k.isIntegral) (h : v.Agrees k p n) : (v.negate (some k)).Agrees k p (-n) := by
  obtain ⟨hp, rfl⟩ | ⟨hp, m, rfl, hm⟩ := h
  · exact .inl ⟨hp, rfl⟩
  · refine .inr ⟨hp, _, rfl, ?_⟩
    calc k.wrap (carry (-m)) ≡ -m [ZMOD twoTo k.width] := wrap_carry_modEq hk (-m)
      _ ≡ -n [ZMOD twoTo k.width] := hm.neg

theorem onIntegers_of_isRing {o : Operation} (ho : o.isRing) (m n : Int) :
    onIntegers o m n = some (carry (o.exact m n)) := by
  cases o with
  | add | subtract | multiply => rfl
  | divide | modulo => cases ho

theorem Agrees.operate {o : Operation} (hk : k.isIntegral) (ho : o.isRing) (hv : v.Agrees k p m)
    (hw : w.Agrees k q n) : (v.operate o k w).Agrees k (p ∨ q) (o.exact m n) := by
  obtain ⟨hp, rfl⟩ | ⟨hp, i, rfl, hi⟩ := hv
  · exact .inl ⟨.inl hp, rfl⟩
  obtain ⟨hq, rfl⟩ | ⟨hq, j, rfl, hj⟩ := hw
  · exact .inl ⟨.inr hq, rfl⟩
  refine .inr ⟨not_or.mpr ⟨hp, hq⟩, k.wrap (carry (o.exact i j)), ?_, ?_⟩
  · rw [Value.operate, onIntegers_of_isRing ho]
    rfl
  · calc k.wrap (carry (o.exact i j)) ≡ o.exact i j [ZMOD twoTo k.width] := wrap_carry_modEq hk _
      _ ≡ o.exact m n [ZMOD twoTo k.width] := Operation.exact_modEq ho hi hj

end Value

/-! ## Arithmetic trees -/

def Scope.read (s : Scope) (r : Record) (path : List String) : Value :=
  match s.model.resolve s.mode path with
  | .ok q => r.follow q.steps
  | .error _ => .null

namespace Expr

variable {s : Scope} {r : Record} {k : NumericKind} {a b e : Expr}

/-- Sums, differences and products, and negatives under a signed kind, of fields whose kind is promoted to `k`: of kind
`k` itself or, for `i32`, of a narrower one. For `i32` there are also integer literals among them. -/
inductive Arithmetic (s : Scope) (k : NumericKind) : Expr → Prop
  | field {path : List String} {q : Resolved} {j : NumericKind} (l : Location)
      (hq : s.model.resolve s.mode path = .ok q) (hj : q.type.kind? = some j) (hjk : j.promote = k) :
      Arithmetic s k (.field path l)
  | literal {v : Float} {text : String} {n : Nat} (l : Location) (hk : k = .i32) (htext : natural? text.toList = some n)
      (hn : n < twoTo 31) : Arithmetic s k (.literal (.number v text) l)
  | negate {e : Expr} (l : Location) (hk : k.isSigned) (he : Arithmetic s k e) : Arithmetic s k (.unary .negate e l)
  | operation {o : Operation} {a b : Expr} (l : Location) (ho : o.isRing) (ha : Arithmetic s k a)
      (hb : Arithmetic s k b) : Arithmetic s k (.binary (.operation o) a b l)

/-- The value without wrapping, a field being the integer that it reads. -/
def exact (s : Scope) (r : Record) : Expr → Int
  | .field path _ => (s.read r path).asInt?.getD 0
  | .literal (.number _ text) _ => (natural? text.toList).getD 0
  | .unary .negate e _ => -e.exact s r
  | .binary (.operation o) a b _ => o.exact (a.exact s r) (b.exact s r)
  | _ => 0

def HasNull (s : Scope) (r : Record) (e : Expr) : Prop :=
  ∃ path l, .field path l ∈ e.parts ∧ s.read r path = .null

@[simp] theorem hasNull_field (path : List String) (l : Location) :
    HasNull s r (.field path l) ↔ s.read r path = .null := by
  simp [HasNull, parts]

@[simp] theorem hasNull_literal (v : Literal) (l : Location) : ¬ HasNull s r (.literal v l) := by
  simp [HasNull, parts]

@[simp] theorem hasNull_unary (op : UnaryOp) (l : Location) : HasNull s r (.unary op e l) ↔ e.HasNull s r := by
  simp [HasNull, parts]

@[simp] theorem hasNull_binary (op : BinaryOp) (l : Location) :
    HasNull s r (.binary op a b l) ↔ a.HasNull s r ∨ b.HasNull s r := by
  simp [HasNull, parts, or_and_right, exists_or]

end Expr

namespace Lowering

variable {C : Catalogue} {r : Record} {s : Scope} {t a b : Typed} {location : Location} {i j k : NumericKind}
  {p q : Prop} {m n : Int}

structure Modular (r : Record) (k : NumericKind) (p : Prop) (n : Int) (t : Typed) : Prop where
  kind : ∃ j, t.type.kind? = some j ∧ j.promote = k
  small : ∀ m, t = .numeral m → ∃ i, m.amount = .whole i .i32 ∧ i.natAbs < twoTo 31
  agrees : (t.node.valueOn r).Agrees k p n

theorem modular_part {node : Node} {b : Bool} (hk : k.promote = k) (h : (node.valueOn r).Agrees k p n) :
    Modular r k p n (.part node ((ValueType.number k).orNullIf b)) := by
  refine ⟨⟨k, ValueType.kind?_orNullIf b _, hk⟩, ?_, h⟩
  intro m hm
  cases hm

theorem modular_numeral {text : String} (hi : n.natAbs < twoTo 31) (h : (Value.int n).Agrees .i32 p m) :
    Modular r .i32 p m (.numeral ⟨text, location, .whole n .i32⟩) := by
  refine ⟨⟨.i32, rfl, rfl⟩, ?_, h⟩
  intro m hm
  cases hm
  exact ⟨n, rfl, hi⟩

theorem coerce_modular (hk : k.isIntegral) (h : Modular r k p n t) : coerce t k = .ok t.node := by
  obtain ⟨j, hj, hjk⟩ := h.kind
  exact coerce_of_integral hj (NumericKind.isIntegral_of_promote hjk hk) hk

theorem negateNumber_modular (hk : k.isSigned) (h : Modular r k p n t) (hj : j.promote = k) :
    ∃ u, negateNumber t j = .ok u ∧ Modular r k p (-n) u := by
  have hi : k.isIntegral := NumericKind.isIntegral_of_isSigned hk
  have hpromote : k.promote = k := NumericKind.promote_of_promote hj
  unfold negateNumber
  rw [NumericKind.negationKind_of_promote hj hk]
  dsimp only
  rw [coerce_modular hi h]
  exact ⟨_, rfl, modular_part hpromote (h.agrees.negate hi)⟩

theorem negate_modular (hk : k.isSigned) (h : Modular r k p n t) :
    ∃ u, negate t location = .ok u ∧ Modular r k p (-n) u := by
  obtain ⟨j, hj, hjk⟩ := h.kind
  cases t with
  | part node type =>
    unfold negate
    rw [ValueType.kind?_eq_some.mp hj]
    exact negateNumber_modular hk h hjk
  | numeral m =>
    obtain ⟨i, hi, hsmall⟩ := h.small m rfl
    obtain ⟨text, l, amount⟩ := m
    subst hi
    obtain rfl : .i32 = j := Option.some.inj hj
    subst hjk
    have hneg : (-i).natAbs < twoTo 31 := by simpa using hsmall
    refine ⟨_, negate_numeral location (NumericKind.ofLiteral?_small hneg), modular_numeral hneg ?_⟩
    obtain ⟨hp, hnull⟩ | ⟨hp, i, hvalue, hmod⟩ := h.agrees
    · cases hnull
    · cases hvalue
      exact .inr ⟨hp, _, rfl, hmod.neg⟩

theorem operation_modular {o : Operation} (hk : k.isIntegral) (ho : o.isRing) (ha : Modular r k p m a)
    (hb : Modular r k q n b) :
    ∃ t, operation o a b location = .ok t ∧ Modular r k (p ∨ q) (o.exact m n) t := by
  obtain ⟨i, hi, hik⟩ := ha.kind
  obtain ⟨j, hj, hjk⟩ := hb.kind
  have hcommon : commonKind? a.type b.type = some k := by
    unfold commonKind?
    rw [ValueType.kind?_eq_some.mp hi, ValueType.kind?_eq_some.mp hj]
    dsimp only
    rw [NumericKind.promote_widen hik hjk]
  unfold operation
  rw [isText_of_kind? hi, isText_of_kind? hj, hcommon]
  simp only [Bool.or_self, Bool.false_eq_true, and_false, ↓reduceIte]
  rw [coerce_modular hk ha, coerce_modular hk hb]
  exact ⟨_, rfl, modular_part (NumericKind.promote_of_promote hik) (ha.agrees.operate hk ho hb.agrees)⟩

theorem literal_modular {v : Float} {text : String} {n : Nat} (htext : natural? text.toList = some n)
    (hn : n < twoTo 31) (hp : ¬ p) : Modular r .i32 p n (literal (.number v text) location) := by
  have hsmall : (n : Int).natAbs < twoTo 31 := by simpa using hn
  rw [literal_natural location htext (NumericKind.ofLiteral?_small hsmall)]
  exact modular_numeral hsmall (.inr ⟨hp, n, rfl, Int.ModEq.refl _⟩)

theorem field_modular {path : List String} {q : Resolved} (hr : r.Sound) (hm : r.model = s.model)
    (hk : k.isIntegral) (hq : s.model.resolve s.mode path = .ok q) (hj : q.type.kind? = some j)
    (hjk : j.promote = k) : ∃ t, field s path location = .ok t ∧
      Modular r k (s.read r path = .null) ((s.read r path).asInt?.getD 0) t := by
  have hread : s.read r path = r.follow q.steps := by
    unfold Scope.read
    rw [hq]
  have hfits : (r.follow q.steps).Fits (.number j) :=
    (hr.follow (hm ▸ hq)).congr (ValueType.shape_of_underlying (ValueType.kind?_eq_some.mp hj))
  have hagrees : (r.follow q.steps).Agrees k (r.follow q.steps = .null) ((r.follow q.steps).asInt?.getD 0) := by
    obtain h | ⟨i, h⟩ := hfits.integral (NumericKind.isIntegral_of_promote hjk hk)
    · exact .inl ⟨h, h⟩
    · rw [h]
      exact .inr ⟨nofun, i, rfl, Int.ModEq.refl i⟩
  unfold field
  rw [hq, hread]
  refine ⟨_, rfl, ⟨j, hj, hjk⟩, ?_, hagrees⟩
  intro m hm
  cases hm

/-- By induction on the tree, of which every operator keeps the residue. -/
theorem lower_modular (hr : r.Sound) (hm : r.model = s.model) (hk : k.isIntegral) {e : Expr}
    (he : e.Arithmetic s k) : ∃ t, lower s e = .ok t ∧ Modular r k (e.HasNull s r) (e.exact s r) t := by
  induction he with
  | field l hq hj hjk =>
    rw [lower, Expr.hasNull_field]
    exact field_modular hr hm hk hq hj hjk
  | @literal v text n l hi htext hn =>
    subst hi
    have hexact : (Expr.literal (.number v text) l).exact s r = n := by
      rw [Expr.exact, htext]
      rfl
    rw [lower, hexact]
    exact ⟨_, rfl, literal_modular htext hn (Expr.hasNull_literal _ l)⟩
  | negate l hs he ih =>
    obtain ⟨t, ht, hmod⟩ := ih
    rw [lower, ht, Expr.hasNull_unary]
    exact negate_modular hs hmod
  | operation l ho ha hb iha ihb =>
    obtain ⟨t, ht, htmod⟩ := iha
    obtain ⟨u, hu, humod⟩ := ihb
    rw [lower, ht, hu, Expr.hasNull_binary]
    exact operation_modular hk ho htmod humod

/-! ## Bounds of arithmetic trees -/

theorem field_within {path : List String} {q : Resolved} (hr : r.Built C) (hm : r.model = s.model)
    (hq : s.model.resolve s.mode path = .ok q) (hj : q.type.kind? = some j) (hi : j.isIntegral)
    (hshort : .length ∈ q.steps → r.Short) : (r.follow q.steps).Within j := by
  rw [← hm] at hq
  by_cases hlength : .length ∈ q.steps
  · exact Value.conform_within hi hj (hr.follow_conforms (hshort hlength) hq).1
  · obtain h | ⟨u, hu, hconf⟩ := hr.follow_fields hq hlength
    · exact .inl h
    · rw [hu, ValueType.kind?_orNullIf] at hj
      exact Value.conform_within hi hj hconf

/-- A length alone may be out of bounds. -/
theorem lower_within (hr : r.Built C) (hm : r.model = s.model) (hk : k.isIntegral) {e : Expr}
    (he : e.Arithmetic s k) (ht : lower s e = .ok t) (hmod : Modular r k p n t)
    (hshort : ∀ path l q, e = .field path l → s.model.resolve s.mode path = .ok q → .length ∈ q.steps → r.Short) :
    (t.node.valueOn r).Within k := by
  obtain ⟨j, hj, rfl⟩ := hmod.kind
  have hi : j.isIntegral := NumericKind.isIntegral_of_promote rfl hk
  have hgood : ∀ {e : Expr} {u : Typed}, lower s e = .ok u → u.Good r := lower_good hr.sound.2 hm
  have hwithin : (t.node.valueOn r).Within j := by
    cases he with
    | @field path q _ l hq _ _ =>
      rw [lower] at ht
      unfold field at ht
      rw [hq] at ht
      cases ht
      exact field_within hr hm hq hj hi (hshort path l q rfl hq)
    | literal l _ _ _ =>
      rw [lower] at ht
      cases ht
      exact literal_bounded _ j hj hi
    | negate l _ _ =>
      rw [lower] at ht
      obtain ⟨u, hu, ht⟩ := bind_eq_ok.mp ht
      exact unary_bounded (hgood hu) ht j hj hi
    | operation l _ _ _ =>
      obtain ⟨u, v, hu, hv, ht⟩ := lower_binary ht
      exact binary_bounded (hgood hu) (hgood hv) ht j hj hi
  obtain h | ⟨i, h, hfits⟩ := hwithin
  · exact .inl h
  · exact .inr ⟨i, h, NumericKind.fits_promote hfits⟩

end Lowering

/-- **Integral arithmetic is modular arithmetic.** A tree of sums, differences, products and, under a signed kind,
negatives of fields of an integral kind has a value on every record of the model. It is null where a field in the tree
is, and otherwise the one integer of the kind that agrees with the exact value of the tree modulo two to the width.
The texts and arrays of the record have to be short only where the whole tree is the length of one. -/
theorem Scope.arithmetic_modular {C : Catalogue} {s : Scope} {r : Record} {k : NumericKind} {e : Expr}
    (hs : C.Has s.model) (hr : r.Built C) (hm : r.model.id = s.model.id) (hk : k.isIntegral) (he : e.Arithmetic s k)
    (hshort : ∀ path l q, e = .field path l → s.model.resolve s.mode path = .ok q → .length ∈ q.steps → r.Short) :
    ∃ t, Lowering.lower s e = .ok t ∧ (t.node.valueOn r = .null ↔ e.HasNull s r) ∧
      (¬ e.HasNull s r → ∃ m, t.node.valueOn r = .int m ∧
        ∀ n, k.fits n ∧ n ≡ e.exact s r [ZMOD twoTo k.width] ↔ n = m) := by
  obtain ⟨hhas, hsound⟩ := hr.sound
  have hmodel := C.unique hhas hs hm
  obtain ⟨t, ht, hmod⟩ := Lowering.lower_modular hsound hmodel hk he
  have hwithin := Lowering.lower_within hr hmodel hk he ht hmod hshort
  refine ⟨t, ht, ?_⟩
  obtain ⟨hnull, hvalue⟩ | ⟨hnull, m, hvalue, hm⟩ := hmod.agrees
  · exact ⟨iff_of_true hvalue hnull, fun h => absurd hnull h⟩
  rw [hvalue] at hwithin ⊢
  obtain h | ⟨m', hm', hfits⟩ := hwithin
  · cases h
  cases hm'
  refine ⟨iff_of_false nofun hnull, fun _ => ⟨m, rfl, fun n => ⟨?_, ?_⟩⟩⟩
  · rintro ⟨hn, hmodEq⟩
    exact NumericKind.eq_of_fits hn hfits (hmodEq.trans hm.symm)
  · rintro rfl
    exact ⟨hfits, hm⟩

/-- The square of the greatest `u64` is 1, and the number 2 below that is the greatest again. -/
theorem Scope.arithmetic_modular_square :
    let m : Model := ⟨0, "Sizes", [⟨"A", .number .u64, none⟩, ⟨"B", .nullable (.number .u64), none⟩]⟩
    let s : Scope := ⟨m, .empty, .sensitive⟩
    let e : Expr := .binary (.operation .subtract)
      (.binary (.operation .multiply) (.field ["A"] ⟨1, 1⟩) (.field ["A"] ⟨1, 5⟩) ⟨1, 3⟩) (.field ["B"] ⟨1, 9⟩) ⟨1, 7⟩
    let r : Record := ⟨m, [.int 18446744073709551615, .int 2]⟩
    Record.ofValues m [.int 18446744073709551615, .int 2] = .ok r ∧ e.Arithmetic s .u64 ∧ ¬ e.HasNull s r ∧
      e.exact s r = 18446744073709551615 * 18446744073709551615 - 2 ∧
      ∃ t, Lowering.lower s e = .ok t ∧ t.node.valueOn r = .int 18446744073709551615 := by
  intro m s e r
  let C : Catalogue :=
    { Has := fun n => n = m
      unique := fun hm hn _ => hm.trans hn.symm
      nested := by
        intro n hn f hf k hk
        subst hn
        simp only [m, List.mem_cons, List.not_mem_nil, or_false] at hf
        obtain rfl | rfl := hf
        · cases hk
        · cases hk with
          | nullable hk => cases hk }
  have hvalues : Record.ofValues m [.int 18446744073709551615, .int 2] = .ok r := rfl
  have hbuilt : r.Built C := by
    refine .ofValues rfl (fun v hv q hq => ?_) hvalues
    simp only [List.mem_cons, List.not_mem_nil, or_false] at hv
    obtain rfl | rfl := hv <;> cases hq
  have ha : ∀ l, Expr.Arithmetic s .u64 (.field ["A"] l) := fun l => .field l rfl rfl rfl
  have he : e.Arithmetic s .u64 := .operation _ rfl (.operation _ rfl (ha _) (ha _)) (.field _ rfl rfl rfl)
  have hnull : ¬ e.HasNull s r := by
    have hA : s.read r ["A"] = .int 18446744073709551615 := rfl
    have hB : s.read r ["B"] = .int 2 := rfl
    simp [e, hA, hB]
  have hexact : e.exact s r = 18446744073709551615 * 18446744073709551615 - 2 := rfl
  obtain ⟨t, ht, -, hvalue⟩ := Scope.arithmetic_modular rfl hbuilt rfl rfl he nofun
  obtain ⟨i, hi, honly⟩ := hvalue hnull
  have hlast : 18446744073709551615 = i := by
    apply (honly _).mp
    rw [hexact]
    decide
  rw [← hlast] at hi
  exact ⟨hvalues, he, hnull, hexact, t, ht, hi⟩

end RecordLogic
