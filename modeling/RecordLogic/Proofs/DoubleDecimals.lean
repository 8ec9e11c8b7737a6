import Mathlib.Algebra.Order.Ring.Pow
import Mathlib.Tactic.Linarith
import RecordLogic.Decimal.Double
import RecordLogic.Proofs.Doubles

/-!
# Decimals of doubles

A double becomes a decimal just where its number is below `2 ^ 96`. The decimal equals it if it is an integer or has at
most 28 places and digits that 52 bits hold, and is near it otherwise.
-/

namespace RecordLogic

open Number

namespace Decimal

variable {a k m n s t fuel : Nat}

/-! ## Fives taken in -/

theorem le_of_odd (h : n * 10 ^ t = a * 10 ^ s) (hn : n % 2 = 1) : s ≤ t ∧ n ≤ a := by
  have hst : s ≤ t := by
    by_contra hlt
    obtain ⟨i, rfl⟩ := Nat.exists_eq_add_of_lt (Nat.lt_of_not_le hlt)
    have hten : n = a * 10 ^ i * 10 := by
      refine Nat.eq_of_mul_eq_mul_right (by positivity : 0 < 10 ^ t) (h.trans ?_)
      ring
    omega
  obtain ⟨i, rfl⟩ := Nat.exists_eq_add_of_le hst
  have hten : n * 10 ^ i = a := by
    refine Nat.eq_of_mul_eq_mul_right (by positivity : 0 < 10 ^ s) (Eq.trans ?_ h)
    ring
  exact ⟨hst, hten ▸ Nat.le_mul_of_pos_right n (by positivity)⟩

/-- Until a five is taken in only twos are dropped, and after that the coefficient stays odd while it has room. -/
theorem takeFives_exact (ha : a < twoTo 96) (hks : k ≤ s) (hodd : s = k ∨ n % 2 = 1)
    (h : n * 5 ^ k * 10 ^ t = a * 10 ^ s) : (takeFives k n s).1 * 10 ^ t = a * 10 ^ (takeFives k n s).2 ∧
      ((takeFives k n s).2 = 0 ∨ (takeFives k n s).1 % 2 = 1) := by
  induction k generalizing n s with
  | zero => exact ⟨by simpa [takeFives] using h, hodd⟩
  | succ k ih =>
    rw [takeFives]
    by_cases hn : n % 2 = 1
    · have hroom : 5 * n < twoTo 96 := by
        have hmul : n * 5 ^ (k + 1) % 2 = 1 := by
          rw [Nat.mul_mod, hn, Nat.pow_mod]
          simp
        have hle := (le_of_odd h hmul).2
        have hfive : 5 * n ≤ n * 5 ^ (k + 1) := by
          rw [Nat.pow_succ', Nat.mul_comm 5 n, ← Nat.mul_assoc]
          exact Nat.le_mul_of_pos_right _ (by positivity)
        omega
      rw [if_pos ⟨hn, hroom⟩]
      exact ih (by omega) (.inr (by omega)) (by rw [← h]; ring)
    · obtain rfl := hodd.resolve_right hn
      obtain ⟨j, rfl⟩ : ∃ j, n = 2 * j := ⟨n / 2, by omega⟩
      rw [if_neg fun h => hn h.1, Nat.mul_div_cancel_left j (by decide), Nat.add_sub_cancel]
      refine ih le_rfl (.inl rfl) (Nat.eq_of_mul_eq_mul_right (by decide : 0 < 10) ?_)
      calc j * 5 ^ k * 10 ^ t * 10 = 2 * j * 5 ^ (k + 1) * 10 ^ t := by ring
        _ = a * 10 ^ k * 10 := by rw [h]; ring

theorem takeFives_lt (hn : n < twoTo 96) : (takeFives k n s).1 < twoTo 96 := by
  induction k generalizing n s with
  | zero => exact hn
  | succ k ih =>
    rw [takeFives]
    split
    · rename_i hroom
      exact ih hroom.2
    · exact ih (by omega)

def pending (k n s : Nat) : ℚ := n * 5 ^ k / 10 ^ s

theorem pending_five (k n s : Nat) : pending k (5 * n) s = pending (k + 1) n s := by
  unfold pending
  push_cast
  ring

theorem pending_half (hn : ¬ (n % 2 = 1 ∧ 5 * n < twoTo 96)) : pending (k + 1) n (s + 1) * (1 - 5 / 2 ^ 96) ≤
    pending k (n / 2) s ∧ pending k (n / 2) s ≤ pending (k + 1) n (s + 1) := by
  have hunit : (0 : ℚ) < 5 ^ k / 10 ^ s := by positivity
  have hwhole : pending (k + 1) n (s + 1) = n / 2 * (5 ^ k / 10 ^ s) := by
    unfold pending
    field_simp
    ring
  have hhalf : pending k (n / 2) s = ((n / 2 : Nat) : ℚ) * (5 ^ k / 10 ^ s) := mul_div_assoc ..
  have hlost : (n : ℚ) / 2 * (1 - 5 / 2 ^ 96) ≤ ((n / 2 : Nat) : ℚ) ∧ ((n / 2 : Nat) : ℚ) ≤ n / 2 := by
    have htwo : twoTo 96 = 2 ^ 96 := rfl
    obtain heven | ⟨hodd, hroom⟩ : n = 2 * (n / 2) ∨ n = 2 * (n / 2) + 1 ∧ 2 ^ 96 ≤ 5 * n := by omega
    · have hcast : (n : ℚ) = 2 * (n / 2 : Nat) := by exact_mod_cast heven
      constructor <;> linarith
    · have hcast : (n : ℚ) = 2 * (n / 2 : Nat) + 1 := by exact_mod_cast hodd
      have hroom : (2 ^ 96 : ℚ) ≤ 5 * n := by exact_mod_cast hroom
      constructor <;> linarith
  rw [hwhole, hhalf]
  constructor
  · calc n / 2 * (5 ^ k / 10 ^ s) * (1 - 5 / 2 ^ 96) = (n : ℚ) / 2 * (1 - 5 / 2 ^ 96) * (5 ^ k / 10 ^ s) := by ring
      _ ≤ ((n / 2 : Nat) : ℚ) * (5 ^ k / 10 ^ s) := mul_le_mul_of_nonneg_right hlost.1 hunit.le
  · exact mul_le_mul_of_nonneg_right hlost.2 hunit.le

theorem takeFives_near (n : Nat) (hks : k ≤ s) : pending k n s * (1 - 5 / 2 ^ 96) ^ k ≤
    pending 0 (takeFives k n s).1 (takeFives k n s).2 ∧
      pending 0 (takeFives k n s).1 (takeFives k n s).2 ≤ pending k n s := by
  induction k generalizing n s with
  | zero => simp [takeFives]
  | succ k ih =>
    obtain ⟨s, rfl⟩ : ∃ j, s = j + 1 := ⟨s - 1, by omega⟩
    have hr : (0 : ℚ) ≤ 1 - 5 / 2 ^ 96 := by norm_num
    rw [takeFives]
    split
    · obtain ⟨hlo, hhi⟩ := ih (5 * n) (s := s + 1) (by omega)
      rw [pending_five] at hlo hhi
      refine ⟨le_trans ?_ hlo, hhi⟩
      have hpending : 0 ≤ pending (k + 1) n (s + 1) := by
        unfold pending
        positivity
      exact mul_le_mul_of_nonneg_left (pow_le_pow_of_le_one hr (by norm_num) k.le_succ) hpending
    · rename_i hn
      obtain ⟨hlo, hhi⟩ := ih (n / 2) (s := s) (by omega)
      obtain ⟨hlost, hle⟩ := pending_half (k := k) (s := s) hn
      refine ⟨?_, hhi.trans hle⟩
      calc pending (k + 1) n (s + 1) * (1 - 5 / 2 ^ 96) ^ (k + 1)
          = pending (k + 1) n (s + 1) * (1 - 5 / 2 ^ 96) * (1 - 5 / 2 ^ 96) ^ k := by ring
        _ ≤ pending k (n / 2) s * (1 - 5 / 2 ^ 96) ^ k := mul_le_mul_of_nonneg_right hlost (by positivity)
        _ ≤ _ := hlo

/-! ## Digits dropped -/

def scaled (p : Nat × Nat) : ℚ := p.1 / 10 ^ p.2

theorem dropDigit_near (n s : Nat) : |scaled (dropDigit n, s) - scaled (n, s + 1)| ≤ 1 / 10 ^ s - 1 / 10 ^ (s + 1) := by
  have hround : 10 * dropDigit n ≤ n + 5 ∧ n ≤ 10 * dropDigit n + 5 := by
    unfold dropDigit
    split <;> omega
  have hlo : (10 * dropDigit n : ℚ) ≤ n + 5 := by exact_mod_cast hround.1
  have hhi : (n : ℚ) ≤ 10 * dropDigit n + 5 := by exact_mod_cast hround.2
  have hunit : (0 : ℚ) < 1 / 10 ^ (s + 1) := by positivity
  have hdiff : scaled (dropDigit n, s) - scaled (n, s + 1) = (10 * dropDigit n - n) * (1 / 10 ^ (s + 1)) := by
    unfold scaled
    field_simp
    ring
  have hnine : (1 : ℚ) / 10 ^ s - 1 / 10 ^ (s + 1) = 9 * (1 / 10 ^ (s + 1)) := by
    field_simp
    ring
  rw [hdiff, hnine, abs_mul, abs_of_pos hunit]
  exact mul_le_mul_of_nonneg_right (abs_le.mpr ⟨by linarith, by linarith⟩) hunit.le

theorem dropDigit_le (hn : n / 10 ≠ 0) : dropDigit n ≤ n := by
  have hten := Nat.pos_of_ne_zero hn
  unfold dropDigit
  split <;> omega

theorem dropToScale_of_le (hs : s ≤ 28) : dropToScale fuel n s = (n, s) := by
  cases fuel with
  | zero => rfl
  | succ fuel => rw [dropToScale, if_pos hs]

theorem dropToScale_bounds (n : Nat) (hs : s ≤ fuel + 28) :
    (dropToScale fuel n s).2 ≤ 28 ∧ (dropToScale fuel n s).1 ≤ n := by
  induction fuel generalizing n s with
  | zero => exact ⟨by simpa [dropToScale] using hs, le_rfl⟩
  | succ fuel ih =>
    rw [dropToScale]
    split
    · exact ⟨by assumption, le_rfl⟩
    · split
      · exact ⟨Nat.zero_le _, Nat.zero_le _⟩
      · rename_i hn
        obtain ⟨hscale, hle⟩ := ih (dropDigit n) (s := s - 1) (by omega)
        exact ⟨hscale, hle.trans (dropDigit_le hn)⟩

/-- Each digit that is dropped costs no more than the nine units of its place. -/
theorem dropToScale_near (n : Nat) (hs : s ≤ fuel + 28) (hlarge : 28 ≤ s) :
    |scaled (dropToScale fuel n s) - scaled (n, s)| ≤ 1 / 10 ^ 28 - 1 / 10 ^ s := by
  induction fuel generalizing n s with
  | zero =>
    obtain rfl : s = 28 := by omega
    simp [dropToScale]
  | succ fuel ih =>
    rw [dropToScale]
    split
    · rename_i hle
      obtain rfl : s = 28 := by omega
      simp
    · obtain ⟨s, rfl⟩ : ∃ j, s = j + 1 := ⟨s - 1, by omega⟩
      split
      · rename_i hn
        have hnine : (n : ℚ) ≤ 9 := by exact_mod_cast (by omega : n ≤ 9)
        have hunit : (0 : ℚ) < 1 / 10 ^ (s + 1) := by positivity
        have hplace : (1 : ℚ) / 10 ^ s ≤ 1 / 10 ^ 28 :=
          one_div_le_one_div_of_le (by positivity) (pow_le_pow_right₀ (by norm_num) (by omega))
        have hten : (1 : ℚ) / 10 ^ s = 10 * (1 / 10 ^ (s + 1)) := by
          field_simp
          ring
        have hvalue : scaled (0, 0) - scaled (n, s + 1) = -(n * (1 / 10 ^ (s + 1))) := by
          unfold scaled
          ring
        rw [hvalue, abs_neg, abs_of_nonneg (by positivity)]
        have hsmall : (n : ℚ) * (1 / 10 ^ (s + 1)) ≤ 9 * (1 / 10 ^ (s + 1)) := mul_le_mul_of_nonneg_right hnine hunit.le
        linarith
      · rw [Nat.add_sub_cancel]
        have hrest := ih (dropDigit n) (s := s) (by omega) (by omega)
        have hfirst := dropDigit_near n s
        have htriangle := abs_sub_le (scaled (dropToScale fuel (dropDigit n) s)) (scaled (dropDigit n, s))
          (scaled (n, s + 1))
        linarith

theorem dropToPrecision_of_lt (hn : s = 0 ∨ n < twoTo 52) : dropToPrecision n s = (n, s) := by
  cases s with
  | zero => rfl
  | succ s => rw [dropToPrecision, if_pos (hn.resolve_left s.succ_ne_zero)]

theorem dropToPrecision_bounds (n s : Nat) : (dropToPrecision n s).1 ≤ n ∧ (dropToPrecision n s).2 ≤ s ∧
    ((dropToPrecision n s).2 = 0 ∨ (dropToPrecision n s).1 < twoTo 52) := by
  induction s generalizing n with
  | zero => exact ⟨le_rfl, le_rfl, .inl rfl⟩
  | succ s ih =>
    rw [dropToPrecision]
    split
    · rename_i hn
      exact ⟨le_rfl, le_rfl, .inr hn⟩
    · rename_i hn
      obtain ⟨hle, hscale, hshort⟩ := ih (dropDigit n)
      have htwo : twoTo 52 = 2 ^ 52 := rfl
      exact ⟨hle.trans (dropDigit_le (by omega)), by omega, hshort⟩

/-- The digits that are left are as many as 48 bits hold, and what is dropped is no more than a unit of the last. -/
theorem dropToPrecision_near (n s : Nat) : dropToPrecision n s = (n, s) ∨
    2 ^ 52 ≤ 10 * (dropToPrecision n s).1 + 5 ∧ |scaled (dropToPrecision n s) - scaled (n, s)| ≤
      1 / 10 ^ (dropToPrecision n s).2 - 1 / 10 ^ s := by
  induction s generalizing n with
  | zero => exact .inl rfl
  | succ s ih =>
    rw [dropToPrecision]
    split
    · exact .inl rfl
    · rename_i hn
      have hfirst := dropDigit_near n s
      right
      obtain hrest | ⟨hlarge, hrest⟩ := ih (dropDigit n)
      · rw [hrest]
        refine ⟨?_, hfirst⟩
        have htwo : twoTo 52 = 2 ^ 52 := rfl
        unfold dropDigit
        split <;> omega
      · refine ⟨hlarge, ?_⟩
        have htriangle := abs_sub_le (scaled (dropToPrecision (dropDigit n) s)) (scaled (dropDigit n, s))
          (scaled (n, s + 1))
        linarith

/-! ## Quotients by powers of two -/

def rounded (m k : Nat) : Nat × Nat :=
  let p := takeFives k m k
  let q := dropToScale p.2 p.1 p.2
  dropToPrecision q.1 q.2

theorem scaled_ofBinary (m k : Nat) : scaled (ofBinary m k) = scaled (rounded m k) := toRat_of_stripped _ _

theorem pending_self (m k : Nat) : pending k m k = m / 2 ^ k := by
  unfold pending
  have hten : (10 : ℚ) ^ k = 2 ^ k * 5 ^ k := by
    rw [← mul_pow]
    norm_num
  rw [hten, mul_div_mul_right _ _ (by positivity)]

theorem div_two_pow_le (m k : Nat) : (m : ℚ) / 2 ^ k ≤ m := div_le_self (by positivity) (one_le_pow₀ (by norm_num))

theorem rounded_bounds (hm : m < twoTo 96) : (rounded m k).1 < twoTo 96 ∧ (rounded m k).2 ≤ 28 ∧
    ((rounded m k).2 = 0 ∨ (rounded m k).1 < twoTo 52) := by
  unfold rounded
  have hfives := takeFives_lt (k := k) (s := k) hm
  generalize takeFives k m k = p at *
  obtain ⟨hscale, hle⟩ := dropToScale_bounds p.1 (Nat.le_add_right p.2 28)
  dsimp only
  generalize dropToScale p.2 p.1 p.2 = q at *
  obtain ⟨hq, hs, hshort⟩ := dropToPrecision_bounds q.1 q.2
  exact ⟨by omega, by omega, hshort⟩

theorem ofBinary_bounds (hm : m < twoTo 96) : (ofBinary m k).1 < twoTo 96 ∧ (ofBinary m k).2 ≤ 28 := by
  obtain ⟨hcoefficient, hscale, -⟩ := rounded_bounds (k := k) hm
  obtain ⟨hn, hs⟩ := stripped_le (rounded m k).1 (rounded m k).2
  exact ⟨hn.trans_lt hcoefficient, hs.trans hscale⟩

/-- A number of few enough places is found with all its digits. -/
theorem rounded_exact (ha : a < twoTo 96) (ht : t ≤ 28) (hshort : t = 0 ∨ a < twoTo 52)
    (h : (m : ℚ) / 2 ^ k = a / 10 ^ t) : scaled (rounded m k) = m / 2 ^ k := by
  have heq : m * 5 ^ k * 10 ^ t = a * 10 ^ k := by
    rw [← pending_self, pending, div_eq_div_iff (by positivity) (by positivity)] at h
    exact_mod_cast h
  unfold rounded
  obtain ⟨hvalue, hodd⟩ := takeFives_exact ha le_rfl (.inl rfl) heq
  generalize takeFives k m k = p at *
  have hsmall : p.2 ≤ t ∧ p.1 ≤ a := by
    obtain hp | hp := hodd
    · rw [hp, Nat.pow_zero, Nat.mul_one] at hvalue
      exact ⟨by omega, hvalue ▸ Nat.le_mul_of_pos_right _ (by positivity)⟩
    · exact le_of_odd hvalue hp
  dsimp only
  rw [dropToScale_of_le (hsmall.1.trans ht), dropToPrecision_of_lt (by omega), h]
  unfold scaled
  rw [div_eq_div_iff (by positivity) (by positivity)]
  exact_mod_cast hvalue

theorem takeFives_close (m : Nat) (hk : k ≤ 1074) : |scaled (takeFives k m k) - m / 2 ^ k| ≤ m / 2 ^ k / 2 ^ 83 := by
  obtain ⟨hlo, hhi⟩ := takeFives_near m (le_refl k)
  rw [pending_self] at hlo hhi
  have hvalue : pending 0 (takeFives k m k).1 (takeFives k m k).2 = scaled (takeFives k m k) := by
    simp [pending, scaled]
  rw [hvalue] at hlo hhi
  have hpower : (1 : ℚ) - 1 / 2 ^ 83 ≤ (1 - 5 / 2 ^ 96) ^ k := by
    have hbernoulli := one_add_mul_le_pow (a := (-(5 / 2 ^ 96) : ℚ)) (by norm_num) k
    have hk : (k : ℚ) ≤ 1074 := by exact_mod_cast hk
    rw [← sub_eq_add_neg] at hbernoulli
    linarith
  have hx : (0 : ℚ) ≤ m / 2 ^ k := by positivity
  have hloss := mul_le_mul_of_nonneg_left hpower hx
  rw [abs_le]
  constructor <;> linarith

theorem dropToScale_close (n s : Nat) : |scaled (dropToScale s n s) - scaled (n, s)| ≤ 1 / 10 ^ 28 := by
  by_cases hs : 28 ≤ s
  · have hunit : (0 : ℚ) < 1 / 10 ^ s := by positivity
    have hnear := dropToScale_near n (Nat.le_add_right s 28) hs
    linarith
  · rw [dropToScale_of_le (by omega), sub_self, abs_zero]
    positivity

/-- Either nothing is dropped, or 48 bits are left and what is dropped is no more than a unit of the last place. -/
theorem dropToPrecision_close (n : Nat) (hs : s ≤ 28) : scaled (dropToPrecision n s) = scaled (n, s) ∨
    |scaled (dropToPrecision n s) - scaled (n, s)| ≤ scaled (dropToPrecision n s) / 450359962737049 ∧
      450359962737049 / 10 ^ 28 ≤ scaled (dropToPrecision n s) := by
  obtain ⟨-, hscale, -⟩ := dropToPrecision_bounds n s
  obtain hsame | ⟨hlarge, hnear⟩ := dropToPrecision_near n s
  · exact .inl (by rw [hsame])
  · right
    generalize dropToPrecision n s = p at *
    have hp : (450359962737049 : ℚ) ≤ p.1 := by exact_mod_cast (by omega : 450359962737049 ≤ p.1)
    have hunit : (0 : ℚ) < 1 / 10 ^ p.2 := by positivity
    have hlast : (0 : ℚ) < 1 / 10 ^ s := by positivity
    have hplace : (1 : ℚ) / 10 ^ 28 ≤ 1 / 10 ^ p.2 :=
      one_div_le_one_div_of_le (by positivity) (pow_le_pow_right₀ (by norm_num) (by omega))
    have hvalue : scaled p = p.1 * (1 / 10 ^ p.2) := div_eq_mul_one_div ..
    have hmany : 450359962737049 * (1 / 10 ^ p.2) ≤ scaled p := hvalue ▸ mul_le_mul_of_nonneg_right hp hunit.le
    constructor <;> linarith

theorem rounded_near (hk : k ≤ 1074) :
    |scaled (rounded m k) - m / 2 ^ k| ≤ m / 2 ^ k / 2 ^ 48 + 1 / 10 ^ 28 := by
  unfold rounded
  have hx : (0 : ℚ) ≤ m / 2 ^ k := by positivity
  have hfives := takeFives_close m hk
  generalize takeFives k m k = p at *
  dsimp only
  have hscale := dropToScale_close p.1 p.2
  obtain ⟨hs, -⟩ := dropToScale_bounds p.1 (Nat.le_add_right p.2 28)
  generalize dropToScale p.2 p.1 p.2 = q at *
  obtain hsame | ⟨hprecision, hlarge⟩ := dropToPrecision_close q.1 hs
  · rw [hsame]
    rw [abs_le] at *
    constructor <;> linarith
  · generalize scaled (dropToPrecision q.1 q.2) = r at *
    rw [abs_le] at *
    constructor <;> linarith

end Decimal

theorem Number.Reading.of_bounds {f : Float} {negative : Bool} {m : Nat} {e : Int}
    (h : Reading.of f = .finite negative m e) : m < twoTo 53 ∧ -1074 ≤ e := by
  have hfraction : f.toBits.toNat % twoTo 52 < twoTo 52 := Nat.mod_lt _ (by decide)
  have htwo : twoTo 53 = twoTo 52 + twoTo 52 := by decide
  unfold Reading.of at h
  dsimp only at h
  split at h
  · split at h <;> cases h
  · split at h
    · cases h
      omega
    · cases h
      omega

theorem Number.finite_of_toRat? {f : Float} {x : ℚ} (h : Number.toRat? f = some x) : ∃ negative m e,
    Reading.of f = .finite negative m e ∧ x = Decimal.signOf negative * (m * 2 ^ e) := by
  unfold Number.toRat? at h
  cases hf : Reading.of f with
  | nan | infinite _ => simp [hf, Reading.toRat?] at h
  | finite negative m e =>
    rw [hf] at h
    exact ⟨negative, m, e, rfl, (Option.some.inj h).symm⟩

/-- An integer, or a number of at most 28 places whose digits 52 bits hold. -/
def IsShort (x : ℚ) : Prop := ∃ n s : Nat, s ≤ 28 ∧ (s = 0 ∨ n < 2 ^ 52) ∧ |x| = n / 10 ^ s

namespace Decimal

/-! ## Doubles -/

variable {f : Float} {d : Decimal} {negative : Bool} {e : Int} {x : ℚ}

def places (m : Nat) (e : Int) : Nat × Nat := if 0 ≤ e then (m * twoTo e.toNat, 0) else ofBinary m (-e).toNat

theorem places_of_nonneg (he : 0 ≤ e) :
    places m e = (m * 2 ^ e.toNat, 0) ∧ (m : ℚ) * 2 ^ e = (m * 2 ^ e.toNat : Nat) := by
  obtain ⟨k, rfl⟩ := Int.eq_ofNat_of_zero_le he
  constructor
  · rw [places, if_pos he]
    rfl
  · simp

theorem places_of_neg (he : ¬ 0 ≤ e) : places m e = ofBinary m (-e).toNat ∧ (m : ℚ) * 2 ^ e = m / 2 ^ (-e).toNat := by
  obtain ⟨k, rfl⟩ : ∃ k : Nat, e = -k := ⟨(-e).toNat, by omega⟩
  constructor
  · rw [places, if_neg he]
  · simp [zpow_neg, div_eq_mul_inv]

theorem places_bounds (hm : m < twoTo 53) :
    ((places m e).1 < twoTo 96 ∧ (places m e).2 ≤ 28) ↔ (m : ℚ) * 2 ^ e < 2 ^ 96 := by
  by_cases he : 0 ≤ e
  · rw [(places_of_nonneg he).1, (places_of_nonneg he).2]
    have htwo : twoTo 96 = 2 ^ 96 := rfl
    simp only [htwo, Nat.zero_le, and_true]
    exact_mod_cast Iff.rfl
  · rw [(places_of_neg he).1, (places_of_neg he).2]
    have hlt : m < twoTo 96 := hm.trans (by decide)
    refine iff_of_true (ofBinary_bounds hlt) ?_
    exact (div_two_pow_le m _).trans_lt (by exact_mod_cast hlt)

theorem places_near (he : -1074 ≤ e) :
    |scaled (places m e) - m * 2 ^ e| ≤ m * 2 ^ e / 2 ^ 48 + 1 / 10 ^ 28 := by
  by_cases hnonneg : 0 ≤ e
  · have hsame : scaled (places m e) = m * 2 ^ e := by
      rw [(places_of_nonneg hnonneg).1, (places_of_nonneg hnonneg).2]
      simp [scaled]
    rw [hsame, sub_self, abs_zero]
    positivity
  · rw [(places_of_neg hnonneg).1, (places_of_neg hnonneg).2, scaled_ofBinary]
    exact rounded_near (by omega)

theorem places_exact (hm : m < twoTo 53) : scaled (places m e) = m * 2 ^ e ↔ IsShort (m * 2 ^ e) := by
  have hx : (0 : ℚ) ≤ m * 2 ^ e := by positivity
  unfold IsShort
  rw [abs_of_nonneg hx]
  by_cases he : 0 ≤ e
  · rw [(places_of_nonneg he).1, (places_of_nonneg he).2]
    exact iff_of_true (by simp [scaled]) ⟨m * 2 ^ e.toNat, 0, Nat.zero_le _, .inl rfl, by simp⟩
  · rw [(places_of_neg he).1, (places_of_neg he).2, scaled_ofBinary]
    have hlt : m < twoTo 96 := hm.trans (by decide)
    constructor
    · intro h
      obtain ⟨-, hscale, hshort⟩ := rounded_bounds (k := (-e).toNat) hlt
      exact ⟨_, _, hscale, hshort, h.symm⟩
    · rintro ⟨a, t, ht, hshort, h⟩
      refine rounded_exact ?_ ht hshort h
      obtain rfl | ha := hshort
      · have hle := div_two_pow_le m (-e).toNat
        rw [h, pow_zero, div_one] at hle
        exact lt_of_le_of_lt (by exact_mod_cast hle) hlt
      · exact ha.trans (by decide)

theorem ofDouble?_of_finite (h : Reading.of f = .finite negative m e) : ofDouble? f =
    (make? false (places m e).1 (places m e).2).map fun d => { d with negative := negative } := by
  unfold ofDouble?
  rw [h]
  rfl

theorem abs_signOf_mul (negative : Bool) (q : ℚ) : |signOf negative * q| = |q| := by
  rw [abs_mul, abs_signOf, one_mul]

theorem exists_ofDouble? (h : Number.toRat? f = some x) : (∃ d, ofDouble? f = some d) ↔ |x| < 2 ^ 96 := by
  obtain ⟨negative, m, e, hf, rfl⟩ := Number.finite_of_toRat? h
  have hx : (0 : ℚ) ≤ m * 2 ^ e := by positivity
  rw [abs_signOf_mul, abs_of_nonneg hx, ← places_bounds (Reading.of_bounds hf).1, ofDouble?_of_finite hf]
  constructor
  · rintro ⟨d, hd⟩
    obtain ⟨c, hc, -⟩ := Option.map_eq_some_iff.mp hd
    exact ⟨(make?_eq_some hc).1, (make?_eq_some hc).2.1⟩
  · rintro ⟨hn, hs⟩
    obtain ⟨c, hc⟩ := exists_make? false hn hs
    exact ⟨_, Option.map_eq_some_iff.mpr ⟨c, hc, rfl⟩⟩

/-- **Decimals of doubles.** The decimal of a double is near its number, and equal to it just where that is short. -/
theorem toRat_of_ofDouble? (h : Number.toRat? f = some x) (hd : ofDouble? f = some d) :
    |d.toRat - x| ≤ |x| / 2 ^ 48 + 1 / 10 ^ 28 ∧ (d.toRat = x ↔ IsShort x) := by
  obtain ⟨negative, m, e, hf, rfl⟩ := Number.finite_of_toRat? h
  obtain ⟨hm, he⟩ := Reading.of_bounds hf
  have hx : (0 : ℚ) ≤ m * 2 ^ e := by positivity
  rw [ofDouble?_of_finite hf] at hd
  obtain ⟨c, hc, rfl⟩ := Option.map_eq_some_iff.mp hd
  have hvalue : toRat { c with negative := negative } = signOf negative * scaled (places m e) := by
    obtain ⟨-, -, -, hcoefficient, hscale⟩ := make?_eq_some hc
    rw [scaled, ← hcoefficient, ← hscale]
    exact toRat_eq _
  have hsign : signOf negative ≠ 0 := by cases negative <;> simp [signOf]
  rw [hvalue, ← mul_sub, abs_signOf_mul, abs_signOf_mul, abs_of_nonneg hx]
  refine ⟨places_near he, ?_⟩
  rw [mul_right_inj' hsign, places_exact hm, IsShort, IsShort, abs_signOf_mul]

end Decimal

end RecordLogic
