import RecordLogic.Proofs.DecimalReading
import RecordLogic.Proofs.DoubleRange
import RecordLogic.Proofs.Patterns
import RecordLogic.Proofs.TextTests

/-!
# Texts of numbers

A text that a number is tested for may have a sign and lack digits before its point. Without these it is a numeral, and
that is the one token of the text unless the number is out of the range of doubles.
-/

namespace RecordLogic

open Text Number

/-! ## Sets of characters -/

namespace CharSet

variable {c : Char}

theorem mem_char (d : Char) : (char d).mem c.toNat ↔ c = d := by
  rw [char, mem, Bool.and_eq_true, decide_eq_true_iff, decide_eq_true_iff, ← Char.toNat_inj]
  omega

theorem mem_asciiDigit : asciiDigit.mem c.toNat = isDigit c := rfl

theorem mem_unionOf (sets : List CharSet) (n : Nat) : (unionOf sets).mem n ↔ ∃ s ∈ sets, s.mem n := by
  fun_induction unionOf sets with
  | case1 => simp [none, mem, inRuns]
  | case2 s => simp
  | case3 s ss h ih => simp [mem, ih]

theorem mem_ofText (s : String) : (ofText s).mem c.toNat ↔ c ∈ s.toList := by
  simp [ofText, mem_unionOf, mem_char]

end CharSet

/-! ## What the parts of the pattern take -/

namespace Pattern

variable {before cs after : List Char} {p : Pattern}

theorem times_set {s : CharSet} {n : Nat} :
    (Pattern.set s).Takes.times n before cs after ↔ cs.length = n ∧ ∀ c ∈ cs, s.mem c.toNat := by
  induction n generalizing before cs with
  | zero =>
    rw [List.length_eq_zero_iff]
    exact ⟨fun h => ⟨h, by simp [show cs = [] from h]⟩, And.left⟩
  | succ n ih =>
    constructor
    · rintro ⟨_, y, rfl, ⟨c, rfl, hc⟩, hy⟩
      obtain ⟨hlength, hall⟩ := ih.mp hy
      exact ⟨by simp [hlength], List.forall_mem_cons.mpr ⟨hc, hall⟩⟩
    · rintro ⟨hlength, hall⟩
      obtain ⟨c, y, rfl, hy⟩ := List.length_eq_succ_iff.mp hlength
      obtain ⟨hc, hall⟩ := List.forall_mem_cons.mp hall
      exact ⟨[c], y, rfl, ⟨c, rfl, hc⟩, ih.mpr ⟨hy, hall⟩⟩

theorem takes_times_set {s : CharSet} {least : Nat} :
    (Pattern.times (.set s) least none).Takes before cs after ↔ least ≤ cs.length ∧ ∀ c ∈ cs, s.mem c.toNat := by
  constructor
  · rintro ⟨n, hn, -, h⟩
    obtain ⟨rfl, hall⟩ := times_set.mp h
    exact ⟨hn, hall⟩
  · rintro ⟨hleast, hall⟩
    exact ⟨cs.length, hleast, nofun, times_set.mpr ⟨rfl, hall⟩⟩

theorem takes_digits : digits.Takes before cs after ↔ IsDigits cs := by
  rw [digits, Pattern.some, takes_times_set, IsDigits, Nat.one_le_iff_ne_zero, ne_eq, List.length_eq_zero_iff]
  simp only [CharSet.mem_asciiDigit]

theorem takes_many_digit : (many (.set .asciiDigit)).Takes before cs after ↔ ∀ c ∈ cs, isDigit c := by
  rw [many, takes_times_set, and_iff_right (Nat.zero_le _)]
  simp only [CharSet.mem_asciiDigit]

theorem takes_char {c : Char} : (char c).Takes before cs after ↔ cs = [c] := by
  simp [char, Takes, CharSet.mem_char]

theorem takes_optional : (optional p).Takes before cs after ↔ cs = [] ∨ p.Takes before cs after := by
  constructor
  · rintro ⟨n, -, hn, h⟩
    have hle : n ≤ 1 := by simpa using hn
    obtain rfl | rfl := Nat.le_one_iff_eq_zero_or_eq_one.mp hle
    · exact .inl h
    · exact .inr (Taking.times_one.mp h)
  · rintro (rfl | h)
    · exact ⟨0, Nat.zero_le _, by simp, rfl⟩
    · exact ⟨1, Nat.zero_le _, by simp, Taking.times_one.mpr h⟩

theorem isMatch_whole {s : String} : (whole p).isMatch s ↔ p.Takes [] s.toList [] := by
  rw [isMatch_iff]
  constructor
  · rintro ⟨before, _, after, htext, _, _, rfl, ⟨rfl, rfl⟩, x, _, rfl, hx, rfl, rfl⟩
    simpa [htext] using hx
  · intro h
    exact ⟨[], s.toList, [], by simp, [], s.toList, rfl, ⟨rfl, rfl⟩, s.toList, [], by simp, by simpa using h, rfl, rfl⟩

theorem takes_sign : (optional (.set (.ofText "+-"))).Takes before cs after ↔ cs = [] ∨ cs = ['+'] ∨ cs = ['-'] := by
  rw [takes_optional]
  refine or_congr_right ⟨?_, ?_⟩
  · rintro ⟨c, rfl, hc⟩
    simpa using (CharSet.mem_ofText "+-").mp hc
  · rintro (rfl | rfl)
    · exact ⟨'+', rfl, (CharSet.mem_ofText "+-").mpr (by simp)⟩
    · exact ⟨'-', rfl, (CharSet.mem_ofText "+-").mpr (by simp)⟩

theorem takes_powerOfTen : powerOfTen.Takes before cs after ↔ cs ≠ [] ∧ IsPower cs := by
  constructor
  · rintro ⟨_, _, rfl, ⟨mark, rfl, hmark⟩, sign, ds, rfl, hsign, hds⟩
    refine ⟨by simp, .inr ⟨mark, sign, ds, rfl, ?_, takes_sign.mp hsign, takes_digits.mp hds⟩⟩
    simpa using (CharSet.mem_ofText "eE").mp hmark
  · rintro ⟨hne, rfl | ⟨mark, sign, ds, rfl, hmark, hsign, hds⟩⟩
    · exact absurd rfl hne
    · refine ⟨[mark], sign ++ ds, rfl, ⟨mark, rfl, ?_⟩, sign, ds, rfl, takes_sign.mpr hsign, takes_digits.mpr hds⟩
      exact (CharSet.mem_ofText "eE").mpr (by simpa using hmark)

def IsPointed (cs : List Char) : Prop := ∃ ds power, cs = '.' :: ds ++ power ∧ IsDigits ds ∧ IsPower power

theorem isPower_iff : IsPower cs ↔ cs = [] ∨ cs ≠ [] ∧ IsPower cs := by
  by_cases h : cs = []
  · subst h
    exact iff_of_true (.inl rfl) (.inl rfl)
  · simp [h]

theorem takes_pointed : (all [char '.', digits, optional powerOfTen]).Takes before cs after ↔ IsPointed cs := by
  constructor
  · rintro ⟨_, _, rfl, hpoint, ds, power, rfl, hds, hpower⟩
    obtain rfl := takes_char.mp hpoint
    refine ⟨ds, power, rfl, takes_digits.mp hds, isPower_iff.mpr ?_⟩
    exact (takes_optional.mp hpower).imp id takes_powerOfTen.mp
  · rintro ⟨ds, power, rfl, hds, hpower⟩
    refine ⟨['.'], ds ++ power, rfl, takes_char.mpr rfl, ds, power, rfl, takes_digits.mpr hds, takes_optional.mpr ?_⟩
    exact (isPower_iff.mp hpower).imp id takes_powerOfTen.mpr

theorem takes_unsigned : (either [digits, all [digits, powerOfTen],
    all [many (.set .asciiDigit), char '.', digits, optional powerOfTen]]).Takes before cs after ↔
      IsNumeral cs ∨ IsPointed cs := by
  constructor
  · rintro (h | ⟨whole, power, rfl, hwhole, hpower⟩ | ⟨whole, pointed, rfl, hwhole, hpointed⟩)
    · exact .inl ⟨cs, [], [], by simp, takes_digits.mp h, .inl rfl, .inl rfl⟩
    · exact .inl ⟨whole, [], power, by simp, takes_digits.mp hwhole, .inl rfl, (takes_powerOfTen.mp hpower).2⟩
    · obtain ⟨ds, power, rfl, hds, hpower⟩ := takes_pointed.mp hpointed
      by_cases hempty : whole = []
      · subst hempty
        exact .inr ⟨ds, power, rfl, hds, hpower⟩
      · exact .inl ⟨whole, '.' :: ds, power, by simp, ⟨hempty, takes_many_digit.mp hwhole⟩, .inr ⟨ds, rfl, hds⟩, hpower⟩
  · rintro (⟨whole, _, power, rfl, hwhole, rfl | ⟨ds, rfl, hds⟩, hpower⟩ | hpointed)
    · rw [List.append_nil]
      obtain rfl | hpower := isPower_iff.mp hpower
      · exact .inl (by simpa using takes_digits.mpr hwhole)
      · exact .inr (.inl ⟨whole, power, rfl, takes_digits.mpr hwhole, takes_powerOfTen.mpr hpower⟩)
    · rw [List.append_assoc]
      refine .inr (.inr ⟨whole, '.' :: ds ++ power, rfl, takes_many_digit.mpr hwhole.2, ?_⟩)
      exact takes_pointed.mpr ⟨ds, power, rfl, hds, hpower⟩
    · exact .inr (.inr ⟨[], cs, rfl, takes_many_digit.mpr (by simp), takes_pointed.mpr hpointed⟩)

theorem isMatch_number {s : String} : number.isMatch s ↔ ∃ sign cs, s.toList = sign ++ cs ∧
    (sign = [] ∨ sign = ['+'] ∨ sign = ['-']) ∧ (IsNumeral cs ∨ IsPointed cs) := by
  rw [number, isMatch_whole]
  constructor
  · rintro ⟨sign, cs, htext, hsign, hcs⟩
    exact ⟨sign, cs, htext, takes_sign.mp hsign, takes_unsigned.mp hcs⟩
  · rintro ⟨sign, cs, htext, hsign, hcs⟩
    exact ⟨sign, cs, htext, takes_sign.mpr hsign, takes_unsigned.mpr hcs⟩

theorem isMatch_number_digit {s : String} :
    number.isMatch s ∧ s.toList.head?.any isDigit ↔ IsNumeral s.toList := by
  rw [isMatch_number]
  constructor
  · rintro ⟨⟨sign, cs, htext, hsign, hcs⟩, hdigit⟩
    rw [htext] at hdigit ⊢
    rcases hsign with rfl | rfl | rfl
    · obtain hcs | ⟨ds, power, rfl, -, -⟩ := hcs
      · exact hcs
      · exact absurd (show isDigit '.' from hdigit) (by decide)
    · exact absurd (show isDigit '+' from hdigit) (by decide)
    · exact absurd (show isDigit '-' from hdigit) (by decide)
  · intro h
    obtain ⟨c, ds, htext, hc⟩ := h.head
    exact ⟨⟨[], s.toList, rfl, .inl rfl, .inl h⟩, by simpa [htext] using hc⟩

end Pattern

/-! ## What the scanner takes for a number -/

namespace Scanner

variable {c : Char} {cs mark raw rest : List Char} {kind : Token.Kind} {literal : Option Literal} {s s' : Scanner}
  {t : Token}

theorem digitsAfter_complete (h : (digitsAfter mark cs).complete) :
    ∃ ds, (digitsAfter mark cs).taken = mark ++ ds ∧ IsDigits ds := by
  refine ⟨cs.takeWhile isDigit, rfl, ?_, fun c hc => List.mem_takeWhile_imp hc⟩
  simpa [digitsAfter] using h

theorem fraction_complete (h : (fraction cs).complete) : IsFraction (fraction cs).taken := by
  unfold fraction at h ⊢
  split at h
  · exact .inr (digitsAfter_complete h)
  · exact .inl rfl

theorem power_complete (h : (power cs).complete) : IsPower (power cs).taken := by
  cases cs with
  | nil => exact .inl rfl
  | cons c cs =>
    by_cases hmark : c = 'e' ∨ c = 'E'
    · have hpower : power (c :: cs) = digitsAfter [c] cs ∨
          ∃ sign rest, power (c :: cs) = digitsAfter [c, sign] rest ∧ isSign sign := by
        cases cs with
        | nil => exact .inl (if_pos hmark)
        | cons sign rest =>
          rw [power, if_pos hmark]
          split
          · rename_i hsign
            exact .inr ⟨sign, rest, rfl, hsign⟩
          · exact .inl rfl
      obtain heq | ⟨sign, rest, heq, hsign⟩ := hpower
      · rw [heq] at h ⊢
        obtain ⟨ds, htaken, hds⟩ := digitsAfter_complete h
        exact .inr ⟨c, [], ds, htaken, hmark, .inl rfl, hds⟩
      · rw [heq] at h ⊢
        obtain ⟨ds, htaken, hds⟩ := digitsAfter_complete h
        exact .inr ⟨c, [sign], ds, htaken, hmark, .inr (by simpa [isSign] using hsign), hds⟩
    · have hnone : power (c :: cs) = ⟨[], c :: cs, true⟩ := if_neg hmark
      exact .inl (by rw [hnone])

theorem numeral_complete (hc : isDigit c) (h : (numeral (c :: cs)).complete) : IsNumeral (numeral (c :: cs)).taken := by
  have hwhole : IsDigits ((c :: cs).takeWhile isDigit) :=
    ⟨by simp [hc], fun d hd => List.mem_takeWhile_imp hd⟩
  unfold numeral at h ⊢
  dsimp only at h ⊢
  split_ifs at h ⊢ with hfraction
  exact ⟨_, _, _, rfl, hwhole, fraction_complete hfraction, power_complete h⟩

theorem number_eq_token (hc : isDigit c) (h : number (c :: cs) = .token kind literal raw rest) :
    IsNumeral raw ∧ (numeralValue raw).isFinite := by
  unfold number at h
  dsimp only at h
  split at h
  · rename_i hcomplete
    split at h
    · cases h
    · split at h <;> cases h
      rename_i hfinite
      exact ⟨numeral_complete hc hcomplete, hfinite⟩
  · cases h

theorem symbol?_ne_number : symbol? cs ≠ some (.number, raw, rest) := by
  unfold symbol?
  split <;> exact nofun

theorem word_ne_number {left : List Char} : word raw rest ≠ .token .number literal cs left := by
  unfold word
  split_ifs <;> exact nofun

theorem string_ne_number : string cs ≠ .token .number literal raw rest := by
  unfold string
  dsimp only
  split <;> exact nofun

theorem munch_number (h : munch c cs = .token .number literal raw rest) :
    IsNumeral raw ∧ (numeralValue raw).isFinite := by
  unfold munch at h
  split at h
  · rename_i hsymbol
    cases h
    exact absurd hsymbol symbol?_ne_number
  split_ifs at h with _ hdigit
  · exact absurd h string_ne_number
  · exact number_eq_token hdigit h
  · exact absurd h word_ne_number

theorem next_number (h : s.next = (.ok t, s')) (ht : t.kind = .number) :
    IsNumeral t.raw.toList ∧ (numeralValue t.raw.toList).isFinite := by
  unfold next at h
  dsimp only at h
  split at h
  · cases h
    cases ht
  · split at h
    · rename_i hmunch
      cases h
      obtain rfl : _ = Token.Kind.number := ht
      simpa using munch_number hmunch
    · cases h

theorem tokensWithin_number {fuel : Nat} {tokens : List Token} (h : s.tokensWithin fuel = .ok tokens)
    (hmem : t ∈ tokens) (ht : t.kind = .number) : IsNumeral t.raw.toList ∧ (numeralValue t.raw.toList).isFinite := by
  induction fuel generalizing s tokens with
  | zero =>
    cases h
    cases hmem
  | succ fuel ih =>
    rw [tokensWithin] at h
    split at h
    · cases h
    rename_i first s' hnext
    split at h
    · cases h
      obtain rfl := List.mem_singleton.mp hmem
      exact next_number hnext ht
    · split at h <;> cases h
      rename_i ts hts
      obtain rfl | hmem := List.mem_cons.mp hmem
      · exact next_number hnext ht
      · exact ih hts hmem

/-- A text is one number just where it is a numeral whose double is finite. -/
theorem tokenize_eq_number {source : String} : (∃ tokens, tokenize source = .ok tokens ∧
      tokens.map (fun t => (t.kind, t.raw)) = [(.number, source), (.stop, "")]) ↔
    IsNumeral source.toList ∧ (numeralValue source.toList).isFinite := by
  constructor
  · rintro ⟨tokens, htokens, hmap⟩
    obtain ⟨t, ht, heq⟩ : ∃ t ∈ tokens, (t.kind, t.raw) = (.number, source) :=
      List.mem_map.mp (hmap ▸ List.mem_cons_self)
    obtain ⟨hkind, rfl⟩ := Prod.mk.inj heq
    exact tokensWithin_number htokens ht hkind
  · rintro ⟨hnumeral, hfinite⟩
    have hsource : (ofText source).rest = Lexeme.spaced [([], .numeral source.toList hnumeral hfinite)] ++ [] := by
      simp [ofText, Lexeme.spaced, Lexeme.raw]
    obtain ⟨tokens, htokens, hmap⟩ :=
      tokensWithin_spaced (by simp) (by simp) (by simp) hsource (Nat.lt_succ_self _)
    exact ⟨tokens, htokens, by simpa [Lexeme.tokens, Lexeme.kind, Lexeme.raw] using hmap⟩

end Scanner

/-! ## Numbers and their doubles -/

theorem Scanner.exponent_eq {power : List Char} (h : IsPower power) : (match power.drop 1 with
      | '-' :: ds => -(ofDigits ds : Int)
      | '+' :: ds => ofDigits ds
      | ds => ofDigits ds) = (integer? (power.drop 1)).getD 0 := by
  obtain rfl | ⟨mark, sign, ds, rfl, -, hsign, hds⟩ := h
  · rfl
  rw [List.drop_one, List.tail_cons]
  rcases hsign with rfl | rfl | rfl
  · obtain ⟨c, cs, rfl⟩ := List.exists_cons_of_ne_nil hds.1
    have hc : c ≠ '-' ∧ c ≠ '+' := of_isDigit (fun c => c ≠ '-' ∧ c ≠ '+') (by decide) (hds.2 c (.head _))
    simp [hc, integer?, unsigned?_digits hds]
  · simp [integer?, unsigned?, natural?_digits hds]
  · simp [integer?, natural?_digits hds]

/-- The double of a numeral is the one nearest to the number that its figures write. -/
theorem Scanner.numeralValue_eq {cs : List Char} (h : IsNumeral cs) : numeralValue cs =
    ofDecimal false (Figures.ofNumeral cs).coefficient
      ((Figures.ofNumeral cs).power - (Figures.ofNumeral cs).places.length) := by
  obtain ⟨whole, fraction, power, rfl, hwhole, hfraction, hpower⟩ := h
  have hend : AtGap [] := nofun
  obtain ⟨htake, hfraction', hpower'⟩ := Scanner.numeral_parts hwhole hfraction hpower hend
  rw [List.append_nil] at htake hfraction'
  rw [Figures.ofNumeral_eq hwhole hfraction hpower, numeralValue, htake, hfraction']
  dsimp only
  rw [hpower', ← exponent_eq hpower]
  rfl

theorem Figures.toRat_eq (f : Figures) : f.toRat = f.coefficient * 10 ^ (f.power - f.places.length) := by
  rw [toRat, significand, zpow_sub₀ (by norm_num), zpow_natCast]
  ring

/-- The double of a numeral is finite just where the number that its figures write is below the overflow. -/
theorem Scanner.isFinite_numeralValue {cs : List Char} (h : IsNumeral cs) :
    (numeralValue cs).isFinite ↔ (Figures.ofNumeral cs).toRat < overflow := by
  rw [numeralValue_eq h, isFinite_ofDecimal, Figures.toRat_eq]

theorem Registry.isNumber_iff {now : DateTime} {s : String} :
    (standard now).call? "IsNumber" [.string s] = some (.bool true) ↔ Pattern.number.isMatch s := by
  rw [call?_of_mem (apart_standard now) (s := ⟨"IsNumber", [.string], .bool, Library.meets .number⟩)
    (by simp [standard, Library.textFunctions]) rfl]
  simp [Library.meets, Library.text?, Value.asString?]

/-- **Numbers of the scanner and numbers of texts.** A text is tokenized to one number with that text just where it is
tested to be a number, begins with a digit and has a finite double. It has one where the number that its figures write
is below the middle between the greatest double and the power of two that comes next. -/
theorem tokenize_number_iff (now : DateTime) (s : String) :
    let isNumber := (Registry.standard now).call? "IsNumber" [.string s] = some (.bool true)
    let beginsWithDigit : Prop := s.toList.head?.any isDigit
    ((∃ tokens, tokenize s = .ok tokens ∧ tokens.map (fun t => (t.kind, t.raw)) = [(.number, s), (.stop, "")]) ↔
      isNumber ∧ beginsWithDigit ∧ (Scanner.numeralValue s.toList).isFinite) ∧
    (isNumber → beginsWithDigit →
      ((Scanner.numeralValue s.toList).isFinite ↔ (Figures.ofNumeral s.toList).toRat < overflow)) := by
  intro isNumber beginsWithDigit
  have hnumeral : isNumber ∧ beginsWithDigit ↔ IsNumeral s.toList := by
    rw [← Pattern.isMatch_number_digit]
    exact and_congr_left' Registry.isNumber_iff
  refine ⟨?_, fun hnumber hdigit => Scanner.isFinite_numeralValue (hnumeral.mp ⟨hnumber, hdigit⟩)⟩
  rw [Scanner.tokenize_eq_number, ← hnumeral, and_assoc]

/-- On either side of the overflow. -/
example : (Scanner.numeralValue "1.7976931348623158e308".toList).isFinite ∧
    ¬ (Scanner.numeralValue "1.7976931348623159e308".toList).isFinite := by
  decide +kernel

end RecordLogic
