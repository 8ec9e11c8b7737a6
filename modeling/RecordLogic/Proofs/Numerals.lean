import RecordLogic.Proofs.Likeness
import RecordLogic.Proofs.Shape
import RecordLogic.Proofs.Wrapping

/-!
# Numerals and minus signs

Digits are read as the decimal of the integer that they write, with a minus sign or without one, and two signs are
refused. A numeral under minus signs keeps them in its text, while a node under as many is negated on evaluation.
-/

namespace RecordLogic

open Number Text

/-! ## Digits as decimals -/

namespace Number

def ofDigitsFrom (n : Nat) (cs : List Char) : Nat := cs.foldl (fun n c => 10 * n + (c.toNat - 48)) n

theorem ofDigitsFrom_cons (n : Nat) (c : Char) (cs : List Char) :
    ofDigitsFrom n (c :: cs) = ofDigitsFrom (10 * n + (c.toNat - 48)) cs := by
  unfold ofDigitsFrom
  rw [List.foldl_cons]

theorem le_ofDigitsFrom (n : Nat) (cs : List Char) : n ≤ ofDigitsFrom n cs := by
  induction cs generalizing n with
  | nil => exact Nat.le_refl n
  | cons c cs ih =>
    have htail := ih (10 * n + (c.toNat - 48))
    rw [ofDigitsFrom_cons]
    omega

theorem natural?_eq_some {cs : List Char} {n : Nat} (h : natural? cs = some n) :
    cs ≠ [] ∧ (∀ c ∈ cs, isDigit c) ∧ ofDigitsFrom 0 cs = n := by
  unfold natural? at h
  split at h
  · cases h
  rename_i hdigits
  simp only [Bool.or_eq_true, not_or, List.isEmpty_iff] at hdigits
  refine ⟨hdigits.1, ?_, Option.some.inj h⟩
  simpa using hdigits.2

end Number

namespace Decimal

theorem make?_whole (negative : Bool) {n : Nat} (h : n < twoTo 96) :
    make? negative n 0 = some ⟨negative && n != 0, n, 0, h, by decide⟩ := by
  unfold make?
  rw [dif_pos ⟨h, by decide⟩]

theorem exists_ofInt? {n : Int} (h : n.natAbs < twoTo 96) : ∃ d, ofInt? n = some d := by
  unfold ofInt?
  rw [make?_whole _ h]
  exact ⟨_, rfl⟩

theorem readFrom_whole (negative : Bool) {cs : List Char} (hcs : ∀ c ∈ cs, isDigit c) {n : Nat} {digit : Bool}
    (hne : digit = true ∨ cs ≠ []) (hn : n < twoTo 96) (rest : List Char) :
    readFrom negative n 0 false digit (cs ++ rest) =
      if ofDigitsFrom n cs < twoTo 96 then readFrom negative (ofDigitsFrom n cs) 0 false true rest else none := by
  induction cs generalizing n digit with
  | nil =>
    have hdigit : digit = true := by simpa using hne
    rw [hdigit]
    exact (if_pos hn).symm
  | cons c cs ih =>
    have hc : isDigit c = true := hcs c (.head _)
    rw [List.cons_append, readFrom, if_neg (by simp), if_pos hc, ofDigitsFrom_cons]
    by_cases hnext : 10 * n + (c.toNat - 48) < twoTo 96
    · simp only [hnext, ↓reduceIte, Bool.false_eq_true]
      exact ih (fun d hd => hcs d (.tail _ hd)) (.inl rfl) hnext
    · have hfull : ¬ ofDigitsFrom (10 * n + (c.toNat - 48)) cs < twoTo 96 :=
        fun h => hnext (Nat.lt_of_le_of_lt (le_ofDigitsFrom _ cs) h)
      simp [hnext, hfull]

theorem readFrom_digits (negative : Bool) {cs : List Char} (hcs : ∀ c ∈ cs, isDigit c) (hne : cs ≠ [])
    (hlt : ofDigitsFrom 0 cs < twoTo 96) :
    readFrom negative 0 0 false false cs = make? negative (ofDigitsFrom 0 cs) 0 := by
  have hwhole : readFrom negative 0 0 false false (cs ++ []) = _ :=
    readFrom_whole negative hcs (.inr hne) (by decide) []
  rw [List.append_nil, if_pos hlt] at hwhole
  rw [hwhole]
  rfl

section
variable {cs : List Char} {n : Nat} {text : String}

theorem readPlain?_natural (h : natural? cs = some n) (hn : n < twoTo 96) : readPlain? cs = make? false n 0 := by
  obtain ⟨hne, hdigits, rfl⟩ := natural?_eq_some h
  unfold readPlain?
  split
  · exact absurd (hdigits '-' (.head _)) (by decide)
  · exact absurd (hdigits '+' (.head _)) (by decide)
  · exact readFrom_digits false hdigits hne hn

theorem readPlain?_negative (h : natural? cs = some n) (hn : n < twoTo 96) :
    readPlain? ('-' :: cs) = make? true n 0 := by
  obtain ⟨hne, hdigits, rfl⟩ := natural?_eq_some h
  rw [readPlain?]
  exact readFrom_digits true hdigits hne hn

theorem read?_of_readPlain? {d : Decimal} (hmark : ∀ c ∈ text.toList, isPowerMark c = false)
    (h : readPlain? text.toList = some d) : read? text = some d := by
  have hnone : text.toList.any isPowerMark = false := by
    rw [List.any_eq_false]
    simpa using hmark
  unfold read? ofText?
  rw [hnone, h]
  rfl

theorem isPowerMark_of_isDigit {c : Char} (h : isDigit c) : isPowerMark c = false := by
  unfold isPowerMark
  rw [Bool.or_eq_false_iff, beq_eq_false_iff_ne, beq_eq_false_iff_ne]
  constructor
  · rintro rfl
    exact absurd h (by decide)
  · rintro rfl
    exact absurd h (by decide)

theorem isPowerMark_natural (h : natural? cs = some n) : ∀ c ∈ cs, isPowerMark c = false := fun c hc =>
  isPowerMark_of_isDigit ((natural?_eq_some h).2.1 c hc)

theorem read?_natural (htext : text.toList = cs) (h : natural? cs = some n) (hn : n < twoTo 96) :
    read? text = ofInt? n := by
  have hofInt : ofInt? n = make? false n 0 := by
    unfold ofInt?
    rw [Int.natAbs_natCast, decide_eq_false (by omega)]
  rw [hofInt, make?_whole _ hn]
  apply read?_of_readPlain?
  · rw [htext]
    exact isPowerMark_natural h
  · rw [htext, readPlain?_natural h hn, make?_whole _ hn]

theorem read?_negative (htext : text.toList = '-' :: cs) (h : natural? cs = some n) (hn : n < twoTo 96) :
    read? text = ofInt? (-n) := by
  have hofInt : ofInt? (-n) = make? true n 0 := by
    unfold ofInt?
    rw [Int.natAbs_neg, Int.natAbs_natCast, make?_whole _ hn, make?_whole _ hn]
    -- A zero has no sign under a minus sign either.
    by_cases hzero : n = 0
    · simp [hzero]
    · have hneg : decide (-(n : Int) < 0) = true := decide_eq_true (by omega)
      rw [hneg]
  rw [hofInt, make?_whole _ hn]
  apply read?_of_readPlain?
  · rw [htext]
    exact List.forall_mem_cons.mpr ⟨rfl, isPowerMark_natural h⟩
  · rw [htext, readPlain?_negative h hn, make?_whole _ hn]

theorem read?_twice_negative (htext : text.toList = '-' :: '-' :: cs) : read? text = none := by
  have hplain : ∀ rest, readPlain? ('-' :: '-' :: rest) = none := by
    intro rest
    rw [readPlain?, readFrom]
    simp [isDigit]
  have hscientific : readScientific? ('-' :: '-' :: cs) = none := by
    unfold readScientific?
    rw [List.takeWhile_cons_of_pos rfl, List.takeWhile_cons_of_pos rfl, hplain]
    rfl
  unfold read? ofText?
  rw [htext, hplain, hscientific]
  split <;> rfl

end

end Decimal

/-! ## Under minus signs -/

def underSigns (n : Int) : Nat → Int
  | 0 => n
  | k + 1 => -underSigns n k

theorem natAbs_underSigns (n : Int) (k : Nat) : (underSigns n k).natAbs = n.natAbs := by
  induction k with
  | zero => rfl
  | succ k ih => rw [underSigns, Int.natAbs_neg, ih]

theorem NumericKind.ofLiteral?_small {n : Int} (h : n.natAbs < twoTo 31) : ofLiteral? n = some .i32 := by
  unfold ofLiteral?
  exact List.find?_cons_of_pos (fits_i32 h)

/-- Up to one sign a text is that of the decimal of its value. -/
theorem Decimal.read?_underSigns {digits : List Char} {n k : Nat} {text : String}
    (htext : text.toList = List.replicate k '-' ++ digits) (hk : k ≤ 1) (hdigits : natural? digits = some n)
    (hn : n < twoTo 96) : read? text = ofInt? (underSigns n k) := by
  rcases Nat.le_one_iff_eq_zero_or_eq_one.mp hk with rfl | rfl
  · exact read?_natural htext hdigits hn
  · exact read?_negative htext hdigits hn

/-! ## Numerals and nodes of 32 bits -/

namespace Lowering

variable {location : Location}

theorem coerce_of_integral {t : Typed} {j k : NumericKind} (ht : t.type.kind? = some j) (hj : j.isIntegral)
    (hk : k.isIntegral) : coerce t k = .ok t.node := by
  unfold coerce
  rw [ht]
  exact if_pos (.inr ⟨hj, hk⟩)

theorem coerce_whole {text : String} {m : Int} {kind : NumericKind} (h : ¬ kind.isIntegral) (hd : kind ≠ .decimal) :
    coerce (.numeral ⟨text, location, .whole m .i32⟩) kind = .ok (.const ((Value.int m).convert kind)) := by
  cases kind with
  | f32 => rfl
  | f64 => rfl
  | decimal => exact absurd rfl hd
  | _ => exact absurd rfl h

theorem coerce_of_not_integral {node : Node} {kind : NumericKind} (h : ¬ kind.isIntegral) :
    coerce (.part node (.number .i32)) kind = .ok (.convert kind node) := by
  cases kind with
  | f32 => rfl
  | f64 => rfl
  | decimal => rfl
  | _ => exact absurd rfl h

theorem coerce_decimal {text : String} {m : Int} :
    coerce (.numeral ⟨text, location, .whole m .i32⟩) .decimal =
      match Decimal.read? text with
      | some d => .ok (.const (.decimal d))
      | none => .error ⟨.literalRange text (.number .decimal), location⟩ := rfl

theorem literal_natural (location : Location) {v : Float} {text : String} {n : Nat} {k : NumericKind}
    (htext : natural? text.toList = some n) (hk : NumericKind.ofLiteral? (n : Int) = some k) :
    literal (.number v text) location = .numeral ⟨text, location, .whole n k⟩ := by
  simp [literal, Numeral.ofLiteral, htext, hk]

theorem negate_numeral (location : Location) {text : String} {m : Int} {l : Location} {j k : NumericKind}
    (hk : NumericKind.ofLiteral? (-m) = some k) :
    negate (.numeral ⟨text, l, .whole m j⟩) location = .ok (.numeral ⟨"-" ++ text, l, .whole (-m) k⟩) := by
  simp [negate, Typed.type, Numeral.kind, ValueType.underlying, Numeral.negated?, hk]

end Lowering

inductive SignedPair (S : Record → Prop) (digits : List Char) (n : Int) (k : Nat) : Typed → Typed → Prop where
  | intro {text : String} {node : Node} (location : Location) (htext : text.toList = List.replicate k '-' ++ digits)
      (hnode : ∀ r, S r → node.eval r = pure (.int (underSigns n k))) :
      SignedPair S digits n k (.numeral ⟨text, location, .whole (underSigns n k) .i32⟩) (.part node (.number .i32))

namespace SignedPair

open Lowering

variable {S : Record → Prop} {digits : List Char} {n k : Nat} {a b : Typed} {location : Location}

theorem negate (h : SignedPair S digits n k a b) (hn : n < twoTo 31) :
    Parallel (SignedPair S digits n (k + 1)) (unary .negate a location) (unary .negate b location) := by
  cases h with
  | @intro text node l htext hnode =>
    have habs : (-underSigns n k).natAbs < twoTo 31 := by
      rw [Int.natAbs_neg, natAbs_underSigns, Int.natAbs_natCast]
      exact hn
    have hnumeral : unary .negate (.numeral ⟨text, l, .whole (underSigns n k) .i32⟩) location =
        .ok (.numeral ⟨"-" ++ text, l, .whole (-underSigns n k) .i32⟩) :=
      negate_numeral location (NumericKind.ofLiteral?_small habs)
    have hpart : unary .negate (.part node (.number .i32)) location =
        .ok (.part (.negate (some .i32) node) (.number .i32)) := rfl
    rw [hnumeral, hpart]
    refine .ok (.intro l ?_ fun r hr => ?_)
    · rw [String.toList_append, htext]
      rfl
    · rw [Node.eval, hnode r hr]
      show (pure ((Value.int (underSigns n k)).negate (some .i32)) : Traced Value) = _
      rw [Value.negate_int (NumericKind.fits_i32 habs) (Int.ModEq.refl _)]
      rfl

theorem alike (h : SignedPair S digits n k a b) (hdigits : natural? digits = some n) (hn : n < twoTo 31) :
    a.Alike S (k ≤ 1) b := by
  cases h with
  | @intro text node l htext hnode =>
    have hlike : Node.Like S (.const (.int (underSigns n k))) node := by
      intro r hr
      rw [hnode r hr, Node.eval]
    have hconvert : ∀ kind, Node.Like S (.const ((Value.int (underSigns n k)).convert kind)) (.convert kind node) := by
      intro kind r hr
      rw [Node.eval, Node.eval, hnode r hr]
      rfl
    refine ⟨rfl, hlike, fun h => (nomatch h), fun kind hkind => ?_⟩
    by_cases hint : kind.isIntegral
    · rw [coerce_of_integral rfl rfl hint, coerce_of_integral rfl rfl hint]
      exact .ok hlike
    rw [coerce_of_not_integral hint]
    by_cases hd : kind = .decimal
    · subst hd
      have hroom : n < twoTo 96 := Nat.lt_trans hn (by decide)
      obtain ⟨d, hd⟩ := Decimal.exists_ofInt? (n := underSigns n k) (by simpa [natAbs_underSigns] using hroom)
      rw [coerce_decimal, Decimal.read?_underSigns htext (hkind rfl) hdigits hroom, hd]
      have hvalue : (Value.int (underSigns n k)).convert .decimal = .decimal d := by
        simp [Value.convert, Value.isNull, Value.asDecimal?, hd]
      exact .ok (hvalue ▸ hconvert .decimal)
    · rw [coerce_whole hint hd]
      exact .ok (hconvert kind)

theorem coerce_decimal_ne_ok (h : SignedPair S digits n k a b) (hk : 2 ≤ k) (m : Node) : coerce a .decimal ≠ .ok m := by
  cases h with
  | @intro text node l htext hnode =>
    obtain ⟨i, rfl⟩ := Nat.exists_eq_add_of_le' hk
    rw [List.replicate_succ, List.replicate_succ, List.cons_append, List.cons_append] at htext
    rw [coerce_decimal, Decimal.read?_twice_negative htext]
    exact fun h => (nomatch h)

end SignedPair

end RecordLogic
