import RecordLogic.Proofs.DecimalReading
import RecordLogic.Proofs.LetterCase

/-!
# Time spans and their texts

A text is read as a span just when it writes days, hours, minutes and seconds in their places and 64 bits hold their
total on the way. Every place takes an integer, with or without a sign. Without signs but a first one the text has the
form `[-][d.]h:m:s`, and the span is its total.
-/

namespace RecordLogic

open Number Text

namespace Number

variable {n k : Int}

def IsInt64 (n : Int) : Prop := -(twoTo 63 : Int) ≤ n ∧ n ≤ (twoTo 63 : Int) - 1

theorem isInt64_iff : IsInt64 n ↔ -9223372036854775808 ≤ n ∧ n ≤ 9223372036854775807 := by
  have htwo : twoTo 63 = 9223372036854775808 := by decide
  unfold IsInt64
  rw [htwo]
  omega

theorem within?_eq_some {lo hi : Int} : within? lo hi n = some k ↔ (lo ≤ n ∧ n ≤ hi) ∧ k = n := by
  unfold within?
  by_cases h : lo ≤ n ∧ n ≤ hi
  · simp [h, eq_comm]
  · simp [h]

theorem int64?_eq_some : int64? n = some k ↔ IsInt64 n ∧ k = n := within?_eq_some

end Number

namespace TimeSpan

variable {d h m s n : Int} {t : TimeSpan} {cs rest : List Char}

theorem total?_eq_some : total? d h m s = some n ↔
    IsInt64 (d * 86400) ∧ IsInt64 (h * 3600) ∧ IsInt64 (m * 60) ∧ IsInt64 (d * 86400 + h * 3600) ∧
      IsInt64 (d * 86400 + h * 3600 + m * 60) ∧ IsInt64 n ∧ n = d * 86400 + h * 3600 + m * 60 + s := by
  unfold total?
  simp only [Option.bind_eq_bind, Option.bind_eq_some_iff, int64?_eq_some]
  constructor
  · rintro ⟨_, ⟨hd, rfl⟩, _, ⟨hh, rfl⟩, _, ⟨hm, rfl⟩, _, ⟨hdh, rfl⟩, _, ⟨hdhm, rfl⟩, hn, rfl⟩
    exact ⟨hd, hh, hm, hdh, hdhm, hn, rfl⟩
  · rintro ⟨hd, hh, hm, hdh, hdhm, hn, rfl⟩
    exact ⟨_, ⟨hd, rfl⟩, _, ⟨hh, rfl⟩, _, ⟨hm, rfl⟩, _, ⟨hdh, rfl⟩, _, ⟨hdhm, rfl⟩, hn, rfl⟩

theorem ofSeconds?_eq_some : ofSeconds? n = some t ↔
    (-limit ≤ n * perSecond ∧ n * perSecond ≤ limit) ∧ t.nanoseconds = n * perSecond := by
  unfold ofSeconds? ofNanoseconds?
  rw [Option.map_eq_some_iff]
  simp only [within?_eq_some]
  constructor
  · rintro ⟨k, ⟨hrange, rfl⟩, rfl⟩
    exact ⟨hrange, rfl⟩
  · rintro ⟨hrange, hvalue⟩
    exact ⟨t.nanoseconds, ⟨hrange, hvalue⟩, rfl⟩

/-! ## What a text writes -/

structure Part where
  sign : List Char
  digits : List Char

namespace Part

def chars (p : Part) : List Char := p.sign ++ p.digits

def value (p : Part) : Int := if p.sign = ['-'] then -(ofDigits p.digits : Int) else ofDigits p.digits

def IsInteger (p : Part) : Prop := (p.sign = [] ∨ p.sign = ['+'] ∨ p.sign = ['-']) ∧ IsDigits p.digits

def Valid (p : Part) : Prop := p.IsInteger ∧ IsInt64 p.value

variable {p : Part}

theorem integer?_chars (hp : p.IsInteger) : integer? p.chars = some p.value := by
  obtain ⟨sign, ds⟩ := p
  obtain ⟨rfl | rfl | rfl, hds⟩ := hp
  · show integer? ds = some (ofDigits ds : Int)
    obtain ⟨c, rest, rfl⟩ := List.exists_cons_of_ne_nil hds.1
    have hc : c ≠ '-' := of_isDigit (· ≠ '-') (by decide) (hds.2 c (.head _))
    rw [integer?.eq_2 _ (by simp [hc]), unsigned?_digits hds]
    rfl
  · show integer? ('+' :: ds) = some (ofDigits ds : Int)
    simp [integer?, unsigned?, natural?_digits hds]
  · show integer? ('-' :: ds) = some (-(ofDigits ds : Int))
    simp [integer?, natural?_digits hds]

theorem digits_of_natural? {k : Nat} (h : natural? cs = some k) : IsDigits cs ∧ ofDigits cs = k := by
  obtain ⟨hne, hall, hvalue⟩ := natural?_eq_some h
  exact ⟨⟨hne, hall⟩, hvalue⟩

theorem exists_of_integer? (h : integer? cs = some n) : ∃ p : Part, p.IsInteger ∧ p.chars = cs ∧ p.value = n := by
  unfold integer? at h
  split at h
  · obtain ⟨_, hk, rfl⟩ := Option.map_eq_some_iff.mp h
    obtain ⟨k, hread, ⟨⟩⟩ := Option.bind_eq_some_iff.mp hk
    obtain ⟨hds, rfl⟩ := digits_of_natural? hread
    exact ⟨⟨['-'], _⟩, ⟨.inr (.inr rfl), hds⟩, rfl, rfl⟩
  · obtain ⟨_, hk, rfl⟩ := Option.map_eq_some_iff.mp h
    obtain ⟨k, hread, ⟨⟩⟩ := Option.bind_eq_some_iff.mp hk
    unfold unsigned? at hread
    split at hread
    · obtain ⟨hds, rfl⟩ := digits_of_natural? hread
      exact ⟨⟨['+'], _⟩, ⟨.inr (.inl rfl), hds⟩, rfl, rfl⟩
    · obtain ⟨hds, rfl⟩ := digits_of_natural? hread
      exact ⟨⟨[], cs⟩, ⟨.inl rfl, hds⟩, rfl, rfl⟩

theorem cases_of_mem (hp : p.IsInteger) {c : Char} (hc : c ∈ p.chars) : c = '+' ∨ c = '-' ∨ isDigit c := by
  obtain ⟨hsign, hdigits⟩ := hp
  obtain hc | hc := List.mem_append.mp hc
  · rcases hsign with h | h | h <;> simp [h] at hc <;> simp [hc]
  · exact .inr (.inr (hdigits.2 c hc))

theorem not_mem_chars (hp : p.IsInteger) {c : Char} (hc : ¬ (c = '+' ∨ c = '-' ∨ isDigit c)) : c ∉ p.chars :=
  fun hmem => hc (cases_of_mem hp hmem)

theorem no_colon (hp : p.IsInteger) : ':' ∉ p.chars := not_mem_chars hp (by decide)

theorem no_point (hp : p.IsInteger) : '.' ∉ p.chars := not_mem_chars hp (by decide)

theorem Valid.read (hp : p.Valid) : (integer? p.chars).bind int64? = some p.value := by
  rw [integer?_chars hp.1, Option.bind_some]
  exact int64?_eq_some.mpr ⟨hp.2, rfl⟩

theorem exists_valid (h : (integer? cs).bind int64? = some n) : ∃ p : Part, p.Valid ∧ p.chars = cs ∧ p.value = n := by
  obtain ⟨k, hk, h⟩ := Option.bind_eq_some_iff.mp h
  obtain ⟨hrange, rfl⟩ := int64?_eq_some.mp h
  obtain ⟨p, hp, hchars, rfl⟩ := exists_of_integer? hk
  exact ⟨p, ⟨hp, hrange⟩, hchars, rfl⟩

end Part

def withDays : Option Part → List Char → List Char
  | none, clock => clock
  | some p, clock => p.chars ++ '.' :: clock

structure Written where
  negative : Bool
  days : Option Part
  hours : Part
  minutes : Part
  seconds : Part

namespace Written

variable (w : Written)

def clock : List Char := w.hours.chars ++ ':' :: (w.minutes.chars ++ ':' :: w.seconds.chars)

def unsigned : List Char := withDays w.days w.clock

def chars : List Char := signed w.negative w.unsigned

def parts : List Part := w.days.toList ++ [w.hours, w.minutes, w.seconds]

def dayCount : Int := (w.days.map Part.value).getD 0

def magnitude : Int := w.dayCount * 86400 + w.hours.value * 3600 + w.minutes.value * 60 + w.seconds.value

def total : Int := if w.negative then -w.magnitude else w.magnitude

/-- Every part is an integer of 64 bits. A minus sign in front is that of the whole. -/
structure Valid : Prop where
  parts : ∀ p ∈ w.parts, p.Valid
  leading : w.negative = false → w.unsigned.head? ≠ some '-'

def Plain : Prop := ∀ p ∈ w.parts, p.sign = []

/-- 64 bits hold every number on the way to the total. -/
structure Fits : Prop where
  days : IsInt64 (w.dayCount * 86400)
  hours : IsInt64 (w.hours.value * 3600)
  minutes : IsInt64 (w.minutes.value * 60)
  toHours : IsInt64 (w.dayCount * 86400 + w.hours.value * 3600)
  toMinutes : IsInt64 (w.dayCount * 86400 + w.hours.value * 3600 + w.minutes.value * 60)
  toSeconds : IsInt64 w.magnitude

structure Means (t : TimeSpan) : Prop where
  total : IsInt64 w.total
  range : -limit ≤ w.total * perSecond ∧ w.total * perSecond ≤ limit
  exact : t.nanoseconds = w.total * perSecond

end Written

/-! ## Reading -/

theorem clock?_of_pieces {a b c : List Char} (hpieces : pieces ':' cs = [a, b, c]) :
    clock? cs = some (h, m, s) ↔
      (integer? a).bind int64? = some h ∧ (integer? b).bind int64? = some m ∧ (integer? c).bind int64? = some s := by
  unfold clock?
  rw [hpieces]
  simp only [Option.bind_eq_bind, Option.bind_eq_some_iff, Option.pure_def, Option.some.injEq, Prod.mk.injEq]
  constructor
  · rintro ⟨i, ha, _, hi, j, hb, _, hj, k, hc, _, hk, rfl, rfl, rfl⟩
    exact ⟨⟨i, ha, hi⟩, ⟨j, hb, hj⟩, k, hc, hk⟩
  · rintro ⟨⟨i, ha, hi⟩, ⟨j, hb, hj⟩, k, hc, hk⟩
    exact ⟨i, ha, _, hi, j, hb, _, hj, k, hc, _, hk, rfl, rfl, rfl⟩

theorem exists_pieces_of_clock? (hclock : clock? cs = some (h, m, s)) : ∃ a b c, pieces ':' cs = [a, b, c] := by
  unfold clock? at hclock
  split at hclock
  · rename_i a b c hpieces
    exact ⟨a, b, c, hpieces⟩
  · cases hclock

theorem clock?_eq_some : clock? cs = some (h, m, s) ↔
    ∃ H M S : Part, (H.Valid ∧ M.Valid ∧ S.Valid) ∧ H.value = h ∧ M.value = m ∧ S.value = s ∧
      cs = H.chars ++ ':' :: (M.chars ++ ':' :: S.chars) := by
  constructor
  · intro hclock
    obtain ⟨a, b, c, hpieces⟩ := exists_pieces_of_clock? hclock
    obtain ⟨ha, hb, hc⟩ := (clock?_of_pieces hpieces).mp hclock
    obtain ⟨H, hH, rfl, rfl⟩ := Part.exists_valid ha
    obtain ⟨M, hM, rfl, rfl⟩ := Part.exists_valid hb
    obtain ⟨S, hS, rfl, rfl⟩ := Part.exists_valid hc
    refine ⟨H, M, S, ⟨hH, hM, hS⟩, rfl, rfl, rfl, ?_⟩
    rw [← joined_pieces ':' cs, hpieces]
    rfl
  · rintro ⟨H, M, S, ⟨hH, hM, hS⟩, rfl, rfl, rfl, rfl⟩
    have hnone : ∀ cs ∈ [H.chars, M.chars, S.chars], ':' ∉ cs := by
      simp [Part.no_colon hH.1, Part.no_colon hM.1, Part.no_colon hS.1]
    have hpieces := pieces_joined (List.cons_ne_nil _ _) hnone
    exact (clock?_of_pieces hpieces).mpr ⟨hH.read, hM.read, hS.read⟩

def days? (cs : List Char) : Option (Int × List Char) :=
  match cs.span (· != '.') with
  | (days, _ :: clock) => if clock.contains ':' then ((integer? days).bind int64?).map (·, clock) else some (0, cs)
  | (_, []) => some (0, cs)

theorem span_point (hcs : '.' ∉ cs) (hrest : ∀ c ∈ rest.head?, c = '.') :
    (cs ++ rest).span (· != '.') = (cs, rest) := by
  have hall : ∀ c ∈ cs, (c != '.') = true := by
    intro c hc
    rw [bne_iff_ne]
    rintro rfl
    exact hcs hc
  have hstop : ∀ c ∈ rest.head?, (c != '.') = false := by
    intro c hc
    simp [hrest c hc]
  obtain ⟨htake, hdrop⟩ := takeWhile_stop hall hstop
  rw [List.span_eq_takeWhile_dropWhile, htake, hdrop]

theorem days?_of_no_point (hcs : '.' ∉ cs) : days? cs = some (0, cs) := by
  have hspan : (cs ++ []).span (· != '.') = (cs, []) := span_point hcs (by simp)
  rw [List.append_nil] at hspan
  unfold days?
  rw [hspan]

theorem days?_of_point {p : Part} (hp : p.Valid) (hrest : ':' ∈ rest) :
    days? (p.chars ++ '.' :: rest) = some (p.value, rest) := by
  have hcolon : rest.contains ':' = true := by simpa using hrest
  unfold days?
  rw [span_point (Part.no_point hp.1) (by simp)]
  dsimp only
  rw [if_pos hcolon, hp.read]
  rfl

theorem exists_of_days? (h : days? cs = some (d, rest)) :
    ∃ days : Option Part, (∀ p ∈ days, p.Valid) ∧ (days.map Part.value).getD 0 = d ∧ withDays days rest = cs := by
  unfold days? at h
  rw [List.span_eq_takeWhile_dropWhile] at h
  have hcs := List.takeWhile_append_dropWhile (p := (· != '.')) (l := cs)
  cases hdrop : cs.dropWhile (· != '.') with
  | nil =>
    rw [hdrop] at h
    cases h
    exact ⟨none, nofun, rfl, rfl⟩
  | cons c clock =>
    obtain rfl : c = '.' := by
      have hhead := List.head?_dropWhile_not (· != '.') cs
      simpa [hdrop] using hhead
    rw [hdrop] at h hcs
    dsimp only at h
    split at h
    · obtain ⟨n, hn, heq⟩ := Option.map_eq_some_iff.mp h
      cases heq
      obtain ⟨p, hp, hchars, rfl⟩ := Part.exists_valid hn
      refine ⟨some p, ?_, rfl, ?_⟩
      · rintro _ ⟨⟩
        exact hp
      · rw [withDays, hchars, hcs]
    · cases h
      exact ⟨none, nofun, rfl, rfl⟩

def splitSign : List Char → Bool × List Char
  | '-' :: cs => (true, cs)
  | cs => (false, cs)

def answer? (negative : Bool) (d h m s : Int) : Option TimeSpan := do
  let total ← total? d h m s
  ofSeconds? (← int64? (if negative then -total else total))

theorem read?_eq (text : String) :
    read? text = (do
      let (days, clock) ← days? (splitSign (trim text.toList)).2
      let (h, m, s) ← clock? clock
      answer? (splitSign (trim text.toList)).1 days h m s) := by
  have hunsigned : ∀ (negative : Bool) (cs : List Char), (do
      let (days, clock) ← match cs.span (· != '.') with
        | (days, _ :: clock) =>
          if clock.contains ':' then pure ((← int64? (← integer? days)), clock) else pure (0, cs)
        | (_, []) => pure (0, cs)
      let (h, m, s) ← clock? clock
      answer? negative days h m s) = (do
        let (days, clock) ← days? cs
        let (h, m, s) ← clock? clock
        answer? negative days h m s) := by
    intro negative cs
    unfold days?
    cases cs.span (· != '.') with
    | mk days rest =>
      cases rest with
      | nil => rfl
      | cons c clock =>
        dsimp only
        split
        · cases integer? days with
          | none => rfl
          | some n => cases h : int64? n <;> simp [h]
        · rfl
  exact hunsigned (splitSign (trim text.toList)).1 (splitSign (trim text.toList)).2

/-! ## Both ways -/

theorem splitSign_signed {negative : Bool} (h : negative = false → cs.head? ≠ some '-') :
    splitSign (signed negative cs) = (negative, cs) := by
  cases negative with
  | true => rfl
  | false =>
    show splitSign cs = (false, cs)
    unfold splitSign
    split
    · exact absurd rfl (h rfl)
    · rfl

theorem signed_splitSign (cs : List Char) : signed (splitSign cs).1 (splitSign cs).2 = cs ∧
    ((splitSign cs).1 = false → (splitSign cs).2.head? ≠ some '-') := by
  unfold splitSign
  split
  · exact ⟨rfl, nofun⟩
  · rename_i hcs
    refine ⟨rfl, fun _ hhead => ?_⟩
    obtain ⟨rest, rfl⟩ := List.head?_eq_some_iff.mp hhead
    exact hcs rest rfl

namespace Written

variable {w : Written}

theorem mem_parts {p : Part} : p ∈ w.parts ↔ w.days = some p ∨ p = w.hours ∨ p = w.minutes ∨ p = w.seconds := by
  simp [parts]

theorem answer?_eq_some (w : Written) :
    answer? w.negative w.dayCount w.hours.value w.minutes.value w.seconds.value = some t ↔ w.Fits ∧ w.Means t := by
  unfold answer?
  simp only [Option.bind_eq_bind, Option.bind_eq_some_iff, total?_eq_some, int64?_eq_some, ofSeconds?_eq_some]
  constructor
  · rintro ⟨_, ⟨hd, hh, hm, hdh, hdhm, hn, rfl⟩, _, ⟨htotal, rfl⟩, hrange, hexact⟩
    exact ⟨⟨hd, hh, hm, hdh, hdhm, hn⟩, ⟨htotal, hrange, hexact⟩⟩
  · rintro ⟨⟨hd, hh, hm, hdh, hdhm, hn⟩, ⟨htotal, hrange, hexact⟩⟩
    exact ⟨w.magnitude, ⟨hd, hh, hm, hdh, hdhm, hn, rfl⟩, w.total, ⟨htotal, rfl⟩, hrange, hexact⟩

theorem colon_mem_clock (w : Written) : ':' ∈ w.clock := by simp [clock]

namespace Valid

variable (hw : w.Valid)
include hw

theorem clock_valid : w.hours.Valid ∧ w.minutes.Valid ∧ w.seconds.Valid :=
  ⟨hw.parts _ (mem_parts.mpr (by simp)), hw.parts _ (mem_parts.mpr (by simp)), hw.parts _ (mem_parts.mpr (by simp))⟩

theorem read_clock : clock? w.clock = some (w.hours.value, w.minutes.value, w.seconds.value) :=
  clock?_eq_some.mpr ⟨w.hours, w.minutes, w.seconds, hw.clock_valid, rfl, rfl, rfl, rfl⟩

theorem point_not_mem_clock : '.' ∉ w.clock := by
  obtain ⟨hh, hm, hs⟩ := hw.clock_valid
  simp [clock, Part.no_point hh.1, Part.no_point hm.1, Part.no_point hs.1]

theorem read_days : days? w.unsigned = some (w.dayCount, w.clock) := by
  unfold unsigned dayCount
  cases hdays : w.days with
  | none => exact days?_of_no_point hw.point_not_mem_clock
  | some p => exact days?_of_point (hw.parts p (mem_parts.mpr (.inl hdays))) w.colon_mem_clock

end Valid

end Written

theorem read?_eq_some (text : String) : read? text = some t ↔
    ∃ w : Written, w.chars = trim text.toList ∧ w.Valid ∧ w.Fits ∧ w.Means t := by
  rw [read?_eq]
  generalize trim text.toList = cs
  constructor
  · intro ht
    obtain ⟨⟨d, rest⟩, hdays, ht⟩ := Option.bind_eq_some_iff.mp ht
    obtain ⟨⟨h, m, s⟩, hclock, ht⟩ := Option.bind_eq_some_iff.mp ht
    obtain ⟨H, M, S, ⟨hH, hM, hS⟩, rfl, rfl, rfl, hrest⟩ := clock?_eq_some.mp hclock
    obtain ⟨hsigned, hleading⟩ := signed_splitSign cs
    obtain ⟨days, hvalid, rfl, hbody⟩ := exists_of_days? hdays
    refine ⟨⟨(splitSign cs).1, days, H, M, S⟩, ?_, ⟨?_, ?_⟩, (Written.answer?_eq_some _).mp ht⟩
    · rw [Written.chars, Written.unsigned, Written.clock, ← hrest, hbody, hsigned]
    · intro p hp
      obtain hp | rfl | rfl | rfl := Written.mem_parts.mp hp
      · exact hvalid p hp
      · exact hH
      · exact hM
      · exact hS
    · rw [Written.unsigned, Written.clock, ← hrest, hbody]
      exact hleading
  · rintro ⟨w, rfl, hw, ht⟩
    have hsplit : splitSign w.chars = (w.negative, w.unsigned) := splitSign_signed hw.leading
    rw [hsplit]
    dsimp only
    rw [hw.read_days]
    dsimp only [Option.bind_eq_bind, Option.bind_some]
    rw [hw.read_clock]
    exact (Written.answer?_eq_some w).mpr ht

/-! ## Without signs -/

theorem limit_eq : limit = 9223372036854775807000000 := by decide

namespace Written

variable {w : Written}

theorem value_nonneg (hplain : w.Plain) {p : Part} (hp : p ∈ w.parts) : 0 ≤ p.value := by
  have hsign : p.sign ≠ ['-'] := by simp [hplain p hp]
  rw [Part.value, if_neg hsign]
  exact Int.natCast_nonneg _

theorem dayCount_nonneg (hplain : w.Plain) : 0 ≤ w.dayCount := by
  unfold dayCount
  cases hdays : w.days with
  | none => exact Int.le_refl 0
  | some p => exact value_nonneg hplain (mem_parts.mpr (.inl hdays))

/-- Nothing on the way is larger than the total. -/
theorem fits_of_plain (hplain : w.Plain) (hmeans : w.Means t) : w.Fits := by
  have hd := dayCount_nonneg hplain
  have hh := value_nonneg hplain (mem_parts.mpr (.inr (.inl rfl)))
  have hm := value_nonneg hplain (mem_parts.mpr (.inr (.inr (.inl rfl))))
  have hs := value_nonneg hplain (mem_parts.mpr (.inr (.inr (.inr rfl))))
  have hmagnitude : w.magnitude ≤ 9223372036854775807 := by
    have hper : (perSecond : Int) = 1000000000 := rfl
    have hrange := hmeans.range
    rw [total, limit_eq, hper] at hrange
    split at hrange <;> omega
  unfold magnitude at hmagnitude
  constructor <;> simp only [isInt64_iff, magnitude] <;> omega

theorem mem_unsigned {p : Part} (hp : p ∈ w.parts) {c : Char} (hc : c ∈ p.chars) : c ∈ w.unsigned := by
  unfold unsigned clock
  obtain hdays | rfl | rfl | rfl := mem_parts.mp hp
  · rw [hdays]
    exact List.mem_append_left _ hc
  all_goals
    cases w.days with
    | none => simp [withDays, hc]
    | some q => simp [withDays, hc]

theorem of_mem_unsigned {c : Char} (hc : c ∈ w.unsigned) : c = '.' ∨ c = ':' ∨ ∃ p ∈ w.parts, c ∈ p.chars := by
  have hclock : c ∈ w.clock → c = ':' ∨ ∃ p ∈ w.parts, c ∈ p.chars := by
    intro hc
    simp only [clock, List.mem_append, List.mem_cons] at hc
    obtain hc | rfl | hc | rfl | hc := hc
    · exact .inr ⟨w.hours, by simp [mem_parts], hc⟩
    · exact .inl rfl
    · exact .inr ⟨w.minutes, by simp [mem_parts], hc⟩
    · exact .inl rfl
    · exact .inr ⟨w.seconds, by simp [mem_parts], hc⟩
  unfold unsigned at hc
  cases hdays : w.days with
  | none =>
    rw [hdays] at hc
    exact .inr (hclock hc)
  | some p =>
    rw [hdays, withDays, List.mem_append, List.mem_cons] at hc
    obtain hc | rfl | hc := hc
    · exact .inr (.inr ⟨p, mem_parts.mpr (.inl hdays), hc⟩)
    · exact .inl rfl
    · exact .inr (hclock hc)

theorem plain_iff (hw : w.Valid) : w.Plain ↔ '+' ∉ w.unsigned ∧ '-' ∉ w.unsigned := by
  constructor
  · intro hplain
    have hnot : ∀ c : Char, c ∈ w.unsigned → c = '.' ∨ c = ':' ∨ isDigit c := by
      intro c hc
      obtain rfl | rfl | ⟨p, hp, hc⟩ := of_mem_unsigned hc
      · exact .inl rfl
      · exact .inr (.inl rfl)
      · rw [Part.chars, hplain p hp, List.nil_append] at hc
        exact .inr (.inr ((hw.parts p hp).1.2.2 c hc))
    constructor
    · intro hplus
      exact absurd (hnot '+' hplus) (by decide)
    · intro hminus
      exact absurd (hnot '-' hminus) (by decide)
  · rintro ⟨hplus, hminus⟩ p hp
    have hsub : ∀ c ∈ p.sign, c ∈ w.unsigned := fun c hc => mem_unsigned hp (List.mem_append_left _ hc)
    obtain hsign | hsign | hsign := (hw.parts p hp).1.1
    · exact hsign
    · exact absurd (hsub '+' (by simp [hsign])) hplus
    · exact absurd (hsub '-' (by simp [hsign])) hminus

end Written

/-- **Texts of time spans.** The texts of a span are those of parts whose total it is, where 64 bits hold the numbers
on the way. Parts without signs need only the total in range, and where no sign stands behind the first place they are
the only ones. -/
theorem read?_exact (text : String) (t : TimeSpan) :
    (read? text = some t ↔ ∃ w : Written, w.chars = trim text.toList ∧ w.Valid ∧ w.Fits ∧ w.Means t) ∧
    ((∃ w : Written, w.chars = trim text.toList ∧ w.Plain ∧ w.Valid ∧ w.Means t) → read? text = some t) ∧
    ('+' ∉ (splitSign (trim text.toList)).2 → '-' ∉ (splitSign (trim text.toList)).2 → read? text = some t →
      ∃ w : Written, w.chars = trim text.toList ∧ w.Plain ∧ w.Valid ∧ w.Means t) := by
  refine ⟨read?_eq_some text, ?_, ?_⟩
  · rintro ⟨w, hchars, hplain, hw, hmeans⟩
    exact (read?_eq_some text).mpr ⟨w, hchars, hw, Written.fits_of_plain hplain hmeans, hmeans⟩
  · intro hplus hminus ht
    obtain ⟨w, hchars, hw, -, hmeans⟩ := (read?_eq_some text).mp ht
    have hsplit : splitSign w.chars = (w.negative, w.unsigned) := splitSign_signed hw.leading
    rw [← hchars, hsplit] at hplus hminus
    exact ⟨w, hchars, (Written.plain_iff hw).mpr ⟨hplus, hminus⟩, hw, hmeans⟩

theorem read?_exact_day :
    read? "-1.2:3:4" = some ⟨-93784000000000⟩ ∧
      ∃ w : Written, w.chars = trim "-1.2:3:4".toList ∧ w.Plain ∧ w.Valid ∧ w.Means ⟨-93784000000000⟩ := by
  have hread : read? "-1.2:3:4" = some ⟨-93784000000000⟩ := by decide +kernel
  exact ⟨hread, (read?_exact _ _).2.2 (by decide +kernel) (by decide +kernel) hread⟩

/-- The minus sign is that of the seconds. -/
theorem read?_signed_seconds :
    read? "0:0:-5" = some ⟨-5000000000⟩ ∧
      ¬ ∃ w : Written, w.chars = trim "0:0:-5".toList ∧ w.Plain ∧ w.Valid := by
  constructor
  · decide +kernel
  · rintro ⟨w, hchars, hplain, hw⟩
    have htrim : trim "0:0:-5".toList = ['0', ':', '0', ':', '-', '5'] := by decide +kernel
    have hsplit : splitSign w.chars = (w.negative, w.unsigned) := splitSign_signed hw.leading
    rw [hchars, htrim] at hsplit
    have hunsigned : ['0', ':', '0', ':', '-', '5'] = w.unsigned := congrArg Prod.snd hsplit
    obtain ⟨-, hminus⟩ := (Written.plain_iff hw).mp hplain
    rw [← hunsigned] at hminus
    exact hminus (by decide)

end TimeSpan
end RecordLogic
