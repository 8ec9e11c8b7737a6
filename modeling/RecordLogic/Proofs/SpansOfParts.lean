import RecordLogic.Proofs.Clashes
import RecordLogic.Proofs.Doubles
import RecordLogic.Proofs.SpanTexts

/-!
# Time spans of their parts

A span of four whole numbers is exactly their total, and there is none where 64 bits do not hold a number on the way.
A double beyond 64 bits counts as the last integer within them, but only seconds can do so unnoticed: the others are
multiplied before they are added.
-/

namespace RecordLogic

open Number

/-! ## Numbers as arguments -/

namespace Library

variable {v : Value} {n k : Int}

theorem clamp_of_isInt64 (h : IsInt64 k) : clamp k = k := by
  obtain ⟨hlo, hhi⟩ := h
  unfold clamp
  omega

/-- A double beyond 64 bits is taken for the last integer within them. -/
theorem whole?_eq_some : whole? v = some n ↔
    ∃ k : Int, v.quantity? = some (k : ℚ) ∧ n = clamp k ∧ (IsInt64 k ∨ ∃ f, v = .float f) := by
  have hexact : ∀ m : Int, int64? m = some n ↔ IsInt64 m ∧ n = clamp m := by
    intro m
    rw [int64?_eq_some]
    exact and_congr_right fun hm => by rw [clamp_of_isInt64 hm]
  cases v with
  | int m => simp [whole?, Value.quantity?, hexact, and_comm]
  | float f =>
    simp only [whole?, Value.quantity?, Option.map_eq_some_iff, Number.whole?_eq_some]
    constructor
    · rintro ⟨k, hk, rfl⟩
      exact ⟨k, hk, rfl, .inr ⟨f, rfl⟩⟩
    · rintro ⟨k, hk, rfl, -⟩
      exact ⟨k, hk, rfl⟩
  | decimal d =>
    simp only [whole?, Value.quantity?, Option.bind_eq_some_iff, Decimal.whole?_eq_some, hexact, Option.some.injEq]
    simp [and_comm]
  | _ => simp [whole?, Value.quantity?]

end Library

def Value.Overruns (v : Value) : Prop :=
  ∃ (f : Float) (k : Int), v = .float f ∧ Number.toRat? f = some (k : ℚ) ∧ ¬ IsInt64 k

namespace TimeSpan

variable {d h m s : Int} {t : TimeSpan}

/-- The span of days, hours, minutes and seconds, where 64 bits hold every number on the way to the total. -/
structure Totals (d h m s : Int) (t : TimeSpan) : Prop where
  days : IsInt64 (d * 86400)
  hours : IsInt64 (h * 3600)
  minutes : IsInt64 (m * 60)
  seconds : IsInt64 s
  toHours : IsInt64 (d * 86400 + h * 3600)
  toMinutes : IsInt64 (d * 86400 + h * 3600 + m * 60)
  toSeconds : IsInt64 (d * 86400 + h * 3600 + m * 60 + s)
  range : -limit ≤ (d * 86400 + h * 3600 + m * 60 + s) * perSecond ∧
    (d * 86400 + h * 3600 + m * 60 + s) * perSecond ≤ limit
  exact : t.nanoseconds = (d * 86400 + h * 3600 + m * 60 + s) * perSecond

theorem totals_iff (hs : IsInt64 s) : ((total? d h m s).bind ofSeconds?) = some t ↔ Totals d h m s t := by
  simp only [Option.bind_eq_some_iff, total?_eq_some, ofSeconds?_eq_some]
  constructor
  · rintro ⟨_, ⟨hd, hh, hm, hdh, hdhm, hn, rfl⟩, hrange, hexact⟩
    exact ⟨hd, hh, hm, hs, hdh, hdhm, hn, hrange, hexact⟩
  · rintro ⟨hd, hh, hm, -, hdh, hdhm, hn, hrange, hexact⟩
    exact ⟨_, ⟨hd, hh, hm, hdh, hdhm, hn, rfl⟩, hrange, hexact⟩

end TimeSpan

namespace Library

open TimeSpan

variable {d h m s : Value} {t : TimeSpan}

theorem isInt64_clamp (k : Int) : IsInt64 (clamp k) := by
  have htwo : twoTo 63 = 9223372036854775808 := by decide
  rw [isInt64_iff, clamp, htwo]
  omega

/-- A product by two or more tells whether an integer was clamped. -/
theorem clamp_of_product {k u : Int} (hu : u = 86400 ∨ u = 3600 ∨ u = 60) (h : IsInt64 (clamp k * u)) :
    clamp k = k := by
  have htwo : twoTo 63 = 9223372036854775808 := by decide
  rw [isInt64_iff] at h
  unfold clamp at h ⊢
  rw [htwo] at h ⊢
  obtain rfl | rfl | rfl := hu <;> omega

theorem isInt64_of_product {k u : Int} (hu : u = 86400 ∨ u = 3600 ∨ u = 60) (h : IsInt64 (k * u)) : IsInt64 k := by
  rw [isInt64_iff] at h ⊢
  obtain rfl | rfl | rfl := hu <;> omega

theorem whole?_of_isInt64 {v : Value} {k : Int} (hv : v.quantity? = some (k : ℚ)) (hk : IsInt64 k) :
    whole? v = some k := whole?_eq_some.mpr ⟨k, hv, (clamp_of_isInt64 hk).symm, .inl hk⟩

theorem timeSpan?_eq_some : timeSpan? [d, h, m, s] = some t ↔ ∃ D H M S : Int, whole? d = some D ∧ whole? h = some H ∧
    whole? m = some M ∧ whole? s = some S ∧ (total? D H M S).bind ofSeconds? = some t := by
  have hdef : timeSpan? [d, h, m, s] = (whole? d).bind fun D => (whole? h).bind fun H => (whole? m).bind fun M =>
      (whole? s).bind fun S => (total? D H M S).bind ofSeconds? := rfl
  simp only [hdef, Option.bind_eq_some_iff]
  constructor
  · rintro ⟨D, hD, H, hH, M, hM, S, hS, ht⟩
    exact ⟨D, H, M, S, hD, hH, hM, hS, ht⟩
  · rintro ⟨D, H, M, S, hD, hH, hM, hS, ht⟩
    exact ⟨D, hD, H, hH, M, hM, S, hS, ht⟩

theorem timeSpan?_exact (hrange : ¬ s.Overruns) : timeSpan? [d, h, m, s] = some t ↔ ∃ D H M S : Int,
    d.quantity? = some (D : ℚ) ∧ h.quantity? = some (H : ℚ) ∧ m.quantity? = some (M : ℚ) ∧ s.quantity? = some (S : ℚ) ∧
      Totals D H M S t := by
  rw [timeSpan?_eq_some]
  constructor
  · rintro ⟨_, _, _, _, hwd, hwh, hwm, hws, ht⟩
    obtain ⟨D, hD, rfl, -⟩ := whole?_eq_some.mp hwd
    obtain ⟨H, hH, rfl, -⟩ := whole?_eq_some.mp hwh
    obtain ⟨M, hM, rfl, -⟩ := whole?_eq_some.mp hwm
    obtain ⟨S, hS, rfl, hkind⟩ := whole?_eq_some.mp hws
    have htotals := (totals_iff (isInt64_clamp S)).mp ht
    have hsmall : IsInt64 S := by
      obtain hsmall | ⟨f, rfl⟩ := hkind
      · exact hsmall
      · by_contra hlarge
        exact hrange ⟨f, S, rfl, hS, hlarge⟩
    rw [clamp_of_product (.inl rfl) htotals.days, clamp_of_product (.inr (.inl rfl)) htotals.hours,
      clamp_of_product (.inr (.inr rfl)) htotals.minutes, clamp_of_isInt64 hsmall] at htotals
    exact ⟨D, H, M, S, hD, hH, hM, hS, htotals⟩
  · rintro ⟨D, H, M, S, hD, hH, hM, hS, ht⟩
    exact ⟨D, H, M, S, whole?_of_isInt64 hD (isInt64_of_product (.inl rfl) ht.days),
      whole?_of_isInt64 hH (isInt64_of_product (.inr (.inl rfl)) ht.hours),
      whole?_of_isInt64 hM (isInt64_of_product (.inr (.inr rfl)) ht.minutes), whole?_of_isInt64 hS ht.seconds,
      (totals_iff ht.seconds).mpr ht⟩

end Library

namespace Registry

variable {d h m s : Value}

theorem call?_timeSpan (now : DateTime) (hd : d.coarse? = some .number) (hh : h.coarse? = some .number)
    (hm : m.coarse? = some .number) (hs : s.coarse? = some .number) : (standard now).call? "TimeSpan" [d, h, m, s] =
      some (((Library.timeSpan? [d, h, m, s]).map Value.timeSpan).getD .null) := by
  have hmem : (⟨"TimeSpan", [.number, .number, .number, .number], .nullable .timeSpan, fun args =>
      ((Library.timeSpan? args).map Value.timeSpan).getD .null⟩ : Signature) ∈ (standard now).signatures := by
    simp [standard, Library.timeFunctions]
  exact call?_of_mem (apart_standard now) hmem (by simp [hd, hh, hm, hs])

/-- **Spans of four numbers.** What four numbers give is null or a span, whatever their representations, and a span just
where they are integers whose total it is and no number on the way is beyond its bounds. Seconds must not be a double
beyond 64 bits. -/
theorem timeSpan_of_numbers (now : DateTime) (hd : d.coarse? = some .number) (hh : h.coarse? = some .number)
    (hm : m.coarse? = some .number) (hs : s.coarse? = some .number) (hrange : ¬ s.Overruns) :
    ∃ v, (standard now).call? "TimeSpan" [d, h, m, s] = some v ∧ (v = .null ∨ ∃ t, v = .timeSpan t) ∧
      ∀ t, v = .timeSpan t ↔ ∃ D H M S : Int, d.quantity? = some (D : ℚ) ∧ h.quantity? = some (H : ℚ) ∧
        m.quantity? = some (M : ℚ) ∧ s.quantity? = some (S : ℚ) ∧ TimeSpan.Totals D H M S t := by
  refine ⟨_, call?_timeSpan now hd hh hm hs, ?_⟩
  simp only [← Library.timeSpan?_exact hrange]
  cases Library.timeSpan? [d, h, m, s] with
  | none => exact ⟨.inl rfl, fun t => by simp⟩
  | some u => exact ⟨.inr ⟨u, rfl⟩, fun t => by simp⟩

theorem timeSpan_of_numbers_small :
    ¬ (Value.float 4).Overruns ∧ (standard ⟨0, 0, 0⟩).call? "TimeSpan"
      [.int 1, .float 2, .decimal ⟨false, 30, 1, by decide, by decide⟩, .float 4] =
        some (.timeSpan ⟨93784 * TimeSpan.perSecond⟩) := by
  have hfour : Number.toRat? 4 = some ((4 : Int) : ℚ) := Number.whole?_eq_some.mp (by decide +kernel)
  have hseconds : ¬ (Value.float 4).Overruns := by
    rintro ⟨f, k, hf, hk, hlarge⟩
    obtain rfl := Value.float.inj hf
    rw [hfour, Option.some.injEq, Int.cast_inj] at hk
    exact hlarge (by rw [← hk, isInt64_iff]; omega)
  obtain ⟨v, hv, -, hspan⟩ := timeSpan_of_numbers ⟨0, 0, 0⟩ (d := .int 1) (h := .float 2)
    (m := .decimal ⟨false, 30, 1, by decide, by decide⟩) (s := .float 4) rfl rfl rfl rfl hseconds
  refine ⟨hseconds, ?_⟩
  rw [hv, (hspan ⟨93784 * TimeSpan.perSecond⟩).mpr
    ⟨1, 2, 3, 4, rfl, Number.whole?_eq_some.mp (by decide +kernel), ?_, hfour, ?_⟩]
  · exact congrArg some (Decimal.whole?_eq_some.mp (by decide +kernel))
  · constructor <;> first | (rw [isInt64_iff]; omega) | decide

/-- A double beyond 64 bits counts as 9223372036854775807 seconds, and days before the epoch may bring them back. -/
theorem timeSpan_of_large_seconds :
    (Value.float 1e30).quantity? = some ((1000000000000000019884624838656 : Int) : ℚ) ∧
      (standard ⟨0, 0, 0⟩).call? "TimeSpan" [.int (-106751991167300), .int 0, .int 0, .float 1e30] =
        some (.timeSpan ⟨55807 * TimeSpan.perSecond⟩) := by
  refine ⟨Number.whole?_eq_some.mp (by decide +kernel), ?_⟩
  rw [call?_timeSpan ⟨0, 0, 0⟩ rfl rfl rfl rfl]
  have hspan : Library.timeSpan? [.int (-106751991167300), .int 0, .int 0, .float 1e30] =
      some ⟨55807 * TimeSpan.perSecond⟩ := by decide +kernel
  rw [hspan]
  rfl

end Registry

end RecordLogic
