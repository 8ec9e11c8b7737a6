import RecordLogic.Proofs.DecimalShifts
import RecordLogic.Proofs.Lexemes
import RecordLogic.Proofs.Numerals

/-!
# Decimals read from numerals

A numeral writes digits, places behind a point and a power of ten. Digits and places that a decimal has room for are
taken over, and where the room ends the places are rounded. The power shifts what comes out of that.
-/

namespace RecordLogic

open Number Text

namespace Number

theorem natural?_digits {cs : List Char} (h : IsDigits cs) : natural? cs = some (ofDigits cs) := by
  unfold natural?
  have hall : cs.all isDigit = true := List.all_eq_true.mpr h.2
  simp [h.1, hall]

theorem unsigned?_digits {cs : List Char} (h : IsDigits cs) : unsigned? cs = some (ofDigits cs) := by
  unfold unsigned?
  split
  · exact absurd (h.2 '+' (.head _)) (by decide)
  · exact natural?_digits h

theorem ofDigitsFrom_append (n : Nat) (cs ds : List Char) :
    ofDigitsFrom n (cs ++ ds) = ofDigitsFrom (ofDigitsFrom n cs) ds := List.foldl_append

theorem ofDigitsFrom_eq (n : Nat) (cs : List Char) :
    ofDigitsFrom n cs = n * 10 ^ cs.length + ofDigitsFrom 0 cs := by
  induction cs generalizing n with
  | nil => simp [ofDigitsFrom]
  | cons c cs ih =>
    rw [ofDigitsFrom_cons, ofDigitsFrom_cons, ih, ih (10 * 0 + _), List.length_cons, Nat.pow_succ]
    ring

theorem digit_lt {c : Char} (h : isDigit c) : c.toNat - 48 < 10 := of_isDigit (fun c => c.toNat - 48 < 10) (by decide) h

theorem five_le_digit {c : Char} (h : isDigit c) : '5' ≤ c ↔ 5 ≤ c.toNat - 48 :=
  of_isDigit (fun c => '5' ≤ c ↔ 5 ≤ c.toNat - 48) (by decide) h

theorem ofDigitsFrom_lt {cs : List Char} (h : ∀ c ∈ cs, isDigit c) : ofDigitsFrom 0 cs < 10 ^ cs.length := by
  induction cs with
  | nil => decide
  | cons c cs ih =>
    have hc := digit_lt (h c (.head _))
    have hcs := ih fun d hd => h d (.tail _ hd)
    rw [ofDigitsFrom_cons, ofDigitsFrom_eq, Nat.mul_zero, Nat.zero_add, List.length_cons, Nat.pow_succ']
    calc (c.toNat - 48) * 10 ^ cs.length + ofDigitsFrom 0 cs
      _ < (c.toNat - 48 + 1) * 10 ^ cs.length := by rw [Nat.add_one_mul]; omega
      _ ≤ 10 * 10 ^ cs.length := Nat.mul_le_mul_right _ hc

end Number

/-! ## Figures -/

structure Figures where
  whole : List Char
  places : List Char
  power : Int

namespace Figures

def ofNumeral (cs : List Char) : Figures :=
  let fraction := Scanner.fraction (cs.dropWhile isDigit)
  let power := Scanner.power fraction.rest
  ⟨cs.takeWhile isDigit, fraction.taken.drop 1, (integer? (power.taken.drop 1)).getD 0⟩

theorem ofNumeral_eq {whole fraction power : List Char} (hwhole : IsDigits whole) (hfraction : IsFraction fraction)
    (hpower : IsPower power) :
    ofNumeral (whole ++ fraction ++ power) = ⟨whole, fraction.drop 1, (integer? (power.drop 1)).getD 0⟩ := by
  have hend : AtGap [] := nofun
  obtain ⟨htake, hfraction, hpower⟩ := Scanner.numeral_parts hwhole hfraction hpower hend
  rw [List.append_nil] at htake hfraction
  unfold ofNumeral
  dsimp only
  rw [htake, hfraction, hpower]

variable (f : Figures)

def coefficient : Nat := ofDigits (f.whole ++ f.places)

def significand : ℚ := f.coefficient / 10 ^ f.places.length

def toRat : ℚ := f.significand * 10 ^ f.power

def Fits : Prop := f.coefficient < twoTo 96 ∧ f.places.length ≤ 28

instance : Decidable f.Fits := inferInstanceAs (Decidable (_ ∧ _))

structure StopsAt (kept : List Char) (c : Char) (lost : List Char) : Prop where
  places : f.places = kept ++ c :: lost
  digits : ∀ d ∈ c :: lost, isDigit d
  room : ofDigits (f.whole ++ kept) < twoTo 96
  scale : kept.length ≤ 28
  full : kept.length = 28 ∨ twoTo 96 ≤ 10 * ofDigits (f.whole ++ kept) + (c.toNat - 48)

/-- What becomes of figures before the power is applied: no number of 96 bits before the point, or a decimal that is
taken over, or one that is rounded. -/
inductive ReadAs : Option Decimal → Prop where
  | overflow (h : twoTo 96 ≤ ofDigits f.whole) : ReadAs none
  | exact {base : Decimal} (h : f.Fits) (hbase : base.toRat = f.significand) : ReadAs (some base)
  | rounded {kept lost : List Char} {c : Char} (h : f.StopsAt kept c lost) :
      ReadAs (Decimal.roundAt false (ofDigits (f.whole ++ kept)) kept.length c)

end Figures

namespace Decimal

variable {negative : Bool} {whole places fraction power cs : List Char} {n k : Nat}

/-! ## From the characters -/

theorem stopAt_digits {c : Char} (h : ∀ d ∈ c :: cs, isDigit d) : stopAt negative n k c cs = roundAt negative n k c := by
  unfold stopAt
  apply if_pos
  rw [List.all_eq_true]
  intro d hd
  simp [isPlace, h d hd]

/-- Behind the point digits are taken over as long as there is room for them. -/
theorem readFrom_places (negative : Bool) (hcs : ∀ c ∈ cs, isDigit c) (hn : n < twoTo 96) (hk : k ≤ 28) :
    (ofDigitsFrom n cs < twoTo 96 ∧ k + cs.length ≤ 28 ∧
      readFrom negative n k true true cs = make? negative (ofDigitsFrom n cs) (k + cs.length)) ∨
    ∃ kept c lost, cs = kept ++ c :: lost ∧ ofDigitsFrom n kept < twoTo 96 ∧ k + kept.length ≤ 28 ∧
      (k + kept.length = 28 ∨ twoTo 96 ≤ 10 * ofDigitsFrom n kept + (c.toNat - 48)) ∧
        readFrom negative n k true true cs = roundAt negative (ofDigitsFrom n kept) (k + kept.length) c := by
  induction cs generalizing n k with
  | nil => exact .inl ⟨hn, hk, rfl⟩
  | cons c cs ih =>
    have hc : isDigit c = true := hcs c (.head _)
    by_cases hfull : k = 28
    · refine .inr ⟨[], c, cs, rfl, hn, hk, .inl hfull, ?_⟩
      rw [readFrom, if_pos ⟨rfl, hfull⟩, stopAt_digits hcs]
      rfl
    by_cases hnext : 10 * n + (c.toNat - 48) < twoTo 96
    · have hstep : readFrom negative n k true true (c :: cs) =
          readFrom negative (10 * n + (c.toNat - 48)) (k + 1) true true cs := by
        rw [readFrom]
        simp [hfull, hc, hnext]
      rw [hstep]
      obtain ⟨hroom, hscale, hread⟩ | ⟨kept, d, lost, rfl, hroom, hscale, hstop, hread⟩ :=
        ih (fun d hd => hcs d (.tail _ hd)) hnext (by omega : k + 1 ≤ 28)
      · rw [List.length_cons, Nat.add_comm cs.length, ← Nat.add_assoc]
        exact .inl ⟨hroom, hscale, hread⟩
      · refine .inr ⟨c :: kept, d, lost, rfl, hroom, ?_⟩
        rw [List.length_cons, Nat.add_comm kept.length, ← Nat.add_assoc]
        exact ⟨hscale, hstop, hread⟩
    · refine .inr ⟨[], c, cs, rfl, hn, hk, .inr (Nat.le_of_not_lt hnext), ?_⟩
      rw [readFrom]
      simp [hfull, hc, hnext, ofDigitsFrom, stopAt_digits hcs]

theorem readPlain?_whole (hwhole : IsDigits whole) (rest : List Char) :
    readPlain? (whole ++ rest) =
      if ofDigits whole < twoTo 96 then readFrom false (ofDigits whole) 0 false true rest else none := by
  have hread : readFrom false 0 0 false false (whole ++ rest) = _ :=
    readFrom_whole false hwhole.2 (.inr hwhole.1) (by decide) rest
  obtain ⟨c, cs, rfl⟩ := List.exists_cons_of_ne_nil hwhole.1
  have hc : c ≠ '-' ∧ c ≠ '+' :=
    of_isDigit (fun c => c ≠ '-' ∧ c ≠ '+') (by decide) (hwhole.2 c (.head _))
  rw [List.cons_append] at hread ⊢
  rw [readPlain?.eq_3 _ (by simp [hc.1]) (by simp [hc.2])]
  exact hread

theorem readPlain?_readAs (hwhole : IsDigits whole) (hfraction : IsFraction fraction) (e : Int) :
    Figures.ReadAs ⟨whole, fraction.drop 1, e⟩ (readPlain? (whole ++ fraction)) := by
  rw [readPlain?_whole hwhole fraction]
  by_cases hlarge : twoTo 96 ≤ ofDigits whole
  · rw [if_neg (Nat.not_lt.mpr hlarge)]
    exact .overflow hlarge
  have hroom : ofDigits whole < twoTo 96 := Nat.lt_of_not_le hlarge
  rw [if_pos hroom]
  have hexact : ∀ places, Figures.Fits ⟨whole, places, e⟩ → Figures.ReadAs ⟨whole, places, e⟩
      (make? false (ofDigits (whole ++ places)) places.length) := by
    intro places hfits
    obtain ⟨base, hbase⟩ := exists_make? false hfits.1 hfits.2
    exact hbase ▸ .exact hfits (toRat_of_make?_false hbase)
  obtain rfl | ⟨ds, rfl, -, hds⟩ := hfraction
  · have hfits : Figures.Fits ⟨whole, [], e⟩ := ⟨by simpa [Figures.coefficient] using hroom, Nat.zero_le 28⟩
    simpa [readFrom] using hexact [] hfits
  have hpoint : readFrom false (ofDigits whole) 0 false true ('.' :: ds) =
      readFrom false (ofDigits whole) 0 true true ds := by
    rw [readFrom]
    simp [isDigit]
  have happend : ∀ cs, ofDigits (whole ++ cs) = ofDigitsFrom (ofDigits whole) cs := ofDigitsFrom_append 0 whole
  rw [hpoint]
  obtain ⟨hfits, hscale, hread⟩ | ⟨kept, c, lost, rfl, hkept, hscale, hfull, hread⟩ :=
    readFrom_places false hds hroom (Nat.zero_le 28)
  · rw [hread, Nat.zero_add, ← happend]
    rw [← happend] at hfits
    rw [Nat.zero_add] at hscale
    exact hexact ds ⟨hfits, hscale⟩
  · rw [Nat.zero_add] at hscale hfull hread
    rw [← happend] at hkept hfull hread
    rw [hread]
    exact .rounded ⟨rfl, fun d hd => hds d (List.mem_append_right _ hd), hkept, hscale, hfull⟩

theorem isPowerMark_numeral (hwhole : IsDigits whole) (hfraction : IsFraction fraction) :
    ∀ c ∈ whole ++ fraction, isPowerMark c = false := by
  rw [List.forall_mem_append]
  refine ⟨fun c hc => isPowerMark_of_isDigit (hwhole.2 c hc), ?_⟩
  obtain rfl | ⟨ds, rfl, hds⟩ := hfraction
  · simp
  · exact List.forall_mem_cons.mpr ⟨rfl, fun c hc => isPowerMark_of_isDigit (hds.2 c hc)⟩

theorem readScientific?_eq (hwhole : IsDigits whole) (hfraction : IsFraction fraction) (hpower : IsPower power) :
    readScientific? (whole ++ fraction ++ power) =
      (readPlain? (whole ++ fraction)).bind fun base =>
        if power = [] then none else base.shift ((integer? (power.drop 1)).getD 0) := by
  have hbefore : ∀ c ∈ whole ++ fraction, (!isPowerMark c) = true := by
    intro c hc
    rw [isPowerMark_numeral hwhole hfraction c hc]
    rfl
  have hmark : ∀ c ∈ power.head?, (!isPowerMark c) = false := by
    obtain rfl | ⟨mark, sign, ds, rfl, hmark, -, -⟩ := hpower
    · exact nofun
    · rintro c ⟨⟩
      rcases hmark with rfl | rfl <;> rfl
  obtain ⟨htake, hdrop⟩ := takeWhile_stop hbefore hmark
  unfold readScientific?
  rw [htake, hdrop]
  congr 1
  funext base
  obtain rfl | ⟨mark, sign, ds, rfl, -, hsign, hds⟩ := hpower
  · rfl
  rw [if_neg (List.cons_ne_nil _ _), List.drop_one, List.tail_cons]
  rcases hsign with rfl | rfl | rfl
  · rw [List.nil_append]
    obtain ⟨c, cs, rfl⟩ := List.exists_cons_of_ne_nil hds.1
    have hminus : c ≠ '-' := of_isDigit (· ≠ '-') (by decide) (hds.2 c (.head _))
    simp [hminus, integer?, unsigned?_digits hds, shift_natCast]
  · simp [integer?, unsigned?, natural?_digits hds, shift_natCast]
  · simp [integer?, unsigned?_digits hds, natural?_digits hds, shift_neg]

/-- A numeral is read without its power, and that shifts what was read. -/
theorem read?_numeral {text : String} (htext : text.toList = whole ++ fraction ++ power) (hwhole : IsDigits whole)
    (hfraction : IsFraction fraction) (hpower : IsPower power) :
    read? text = (readPlain? (whole ++ fraction)).bind fun base => base.shift ((integer? (power.drop 1)).getD 0) := by
  have hscientific := readScientific?_eq hwhole hfraction hpower
  have hplain := isPowerMark_numeral hwhole hfraction
  unfold read? ofText?
  rw [htext, hscientific]
  obtain rfl | ⟨mark, sign, ds, rfl, hmark, -, -⟩ := hpower
  · have hnone : ((whole ++ fraction ++ []).any isPowerMark) = false := by
      rw [List.append_nil, List.any_eq_false]
      simpa using hplain
    rw [hnone, List.append_nil]
    cases readPlain? (whole ++ fraction) with
    | none => rfl
    | some base => exact base.shift_zero.symm
  · have hsome : ((whole ++ fraction ++ mark :: (sign ++ ds)).any isPowerMark) = true := by
      rw [List.any_eq_true]
      refine ⟨mark, by simp, ?_⟩
      rcases hmark with rfl | rfl <;> rfl
    rw [if_pos hsome, Option.or_self]
    simp

end Decimal

namespace Figures

/-! ## From the figures -/

/-- A numeral is read by its figures. -/
theorem readAs {text : String} (h : IsNumeral text.toList) : ∃ base, (ofNumeral text.toList).ReadAs base ∧
    Decimal.read? text = base.bind (·.shift (ofNumeral text.toList).power) := by
  obtain ⟨whole, fraction, power, htext, hwhole, hfraction, hpower⟩ := h
  rw [htext, ofNumeral_eq hwhole hfraction hpower]
  exact ⟨_, Decimal.readPlain?_readAs hwhole hfraction _, Decimal.read?_numeral htext hwhole hfraction hpower⟩

end Figures

end RecordLogic
