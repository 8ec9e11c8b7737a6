import Mathlib.Data.List.TakeWhile
import RecordLogic.Proofs.ScannerSteps

/-!
# Words are read back

Operators, numbers, strings and paths with blanks between them are taken one by one, as they were written, whatever
the blanks are. A word ends at a blank or at the end of the text, so every rule of the scanner has to go on up to
there and no further.
-/

namespace RecordLogic

open Text

/-! ## Blanks, digits and marks -/

namespace Text

def blankCodes : List Nat :=
  [9, 10, 11, 12, 13, 32, 133, 160, 5760, 8192, 8193, 8194, 8195, 8196, 8197, 8198, 8199, 8200, 8201, 8202, 8232, 8233,
    8239, 8287, 12288]

def digitCodes : List Nat := [48, 49, 50, 51, 52, 53, 54, 55, 56, 57]

theorem of_isBlank (P : Char → Prop) (hall : ∀ n ∈ blankCodes, P (Char.ofNat n)) {c : Char} (h : isBlank c) : P c := by
  simp only [isBlank, inRuns, Bool.and_eq_true, Bool.not_eq_true', Bool.not_eq_false', Bool.and_eq_false_iff,
    decide_eq_true_eq, decide_eq_false_iff_not, Bool.false_eq_true, or_false] at h
  have hmem : c.toNat ∈ blankCodes := by
    simp only [blankCodes, List.mem_cons, List.not_mem_nil, or_false]
    omega
  have hc := hall _ hmem
  rwa [Char.ofNat_toNat] at hc

theorem of_isDigit (P : Char → Prop) (hall : ∀ n ∈ digitCodes, P (Char.ofNat n)) {c : Char} (h : isDigit c) : P c := by
  simp only [isDigit, Bool.and_eq_true, decide_eq_true_eq, Char.le_def, UInt32.le_iff_toNat_le] at h
  have hlow : 48 ≤ c.toNat := h.1
  have hhigh : c.toNat ≤ 57 := h.2
  have hmem : c.toNat ∈ digitCodes := by
    simp only [digitCodes, List.mem_cons, List.not_mem_nil, or_false]
    omega
  have hc := hall _ hmem
  rwa [Char.ofNat_toNat] at hc

theorem isBlank_of_isDigit {c : Char} (h : isDigit c) : isBlank c = false :=
  of_isDigit (isBlank · = false) (by decide) h

theorem isDigit_of_isBlank {c : Char} (h : isBlank c) : isDigit c = false :=
  of_isBlank (isDigit · = false) (by decide) h

theorem ne_of_isBlank {c d : Char} (h : isBlank c) (hd : isBlank d = false) : c ≠ d := by
  rintro rfl
  rw [h] at hd
  cases hd

theorem takeWhile_stop {p : Char → Bool} {cs rest : List Char} (h : ∀ c ∈ cs, p c)
    (hrest : ∀ c ∈ rest.head?, p c = false) :
    (cs ++ rest).takeWhile p = cs ∧ (cs ++ rest).dropWhile p = rest := by
  have hnone : rest.takeWhile p = [] ∧ rest.dropWhile p = rest := by
    cases rest with
    | nil => exact ⟨rfl, rfl⟩
    | cons c rest => simp [hrest c rfl]
  rw [List.takeWhile_append_of_pos h, List.dropWhile_append_of_pos h, hnone.1, hnone.2]
  exact ⟨List.append_nil cs, rfl⟩

def AtGap (cs : List Char) : Prop := ∀ c ∈ cs.head?, isBlank c

theorem atGap_of_blanks {cs : List Char} (h : ∀ c ∈ cs, isBlank c) : AtGap cs :=
  fun c hc => h c (List.mem_of_mem_head? hc)

theorem AtGap.append {cs ds : List Char} (h : AtGap cs) (hne : cs ≠ []) : AtGap (cs ++ ds) := by
  cases cs with
  | nil => exact absurd rfl hne
  | cons c cs => exact h

theorem AtGap.head?_ne {cs : List Char} (h : AtGap cs) {d : Char} (hd : isBlank d = false) : cs.head? ≠ some d :=
  fun hhead => ne_of_isBlank (h d hhead) hd rfl

end Text

namespace Scanner

theorem continuesName_of_isBlank {c : Char} (h : isBlank c) : continuesName c = false :=
  of_isBlank (continuesName · = false) (by decide +kernel) h

theorem isBlank_of_startsName {c : Char} (h : startsName c) : isBlank c = false := by
  by_contra hblank
  have hcontinues := continuesName_of_startsName h
  rw [continuesName_of_isBlank (by simpa using hblank)] at hcontinues
  cases hcontinues

def marks : List Char := ['&', '|', '=', '!', '<', '>', '+', '-', '*', '/', '%', '?', ':', '(', ')', ',']

theorem symbol?_eq_none {c : Char} (h : c ∉ marks) (cs : List Char) : symbol? (c :: cs) = none := by
  unfold symbol?
  split <;> simp_all [marks]

theorem munch_digit {c : Char} (h : isDigit c) (cs : List Char) : munch c cs = number (c :: cs) := by
  have hmarks : c ∉ marks := of_isDigit (· ∉ marks) (by decide) h
  have hquote : c ≠ '\'' := of_isDigit (· ≠ '\'') (by decide) h
  rw [munch, symbol?_eq_none hmarks]
  simp only [hquote, h, ↓reduceIte]

theorem munch_name {c : Char} (h : startsName c) (cs : List Char) :
    munch c cs = word (name (c :: cs)).1 (name (c :: cs)).2 := by
  have hall : ('\'' :: marks).all (!startsName ·) = true := by decide +kernel
  have hmarks : c ∉ '\'' :: marks := by
    intro hc
    have hstart := List.all_eq_true.mp hall c hc
    simp [h] at hstart
  have hdigit : ¬ isDigit c := by
    intro hc
    have hstart : startsName c = false := of_isDigit (startsName · = false) (by decide +kernel) hc
    rw [h] at hstart
    cases hstart
  simp only [List.mem_cons, not_or] at hmarks
  rw [munch, symbol?_eq_none hmarks.2]
  simp only [hmarks.1, hdigit, h, ↓reduceIte, Bool.false_eq_true]

end Scanner

/-! ## Words -/

theorem IsSegment.continuesName {cs : List Char} (h : IsSegment cs) : ∀ c ∈ cs, Scanner.continuesName c := by
  obtain ⟨c, ds, rfl, hc, hds⟩ := h
  exact List.forall_mem_cons.mpr ⟨Scanner.continuesName_of_startsName hc, hds⟩

inductive IsSymbol : Token.Kind → List Char → Prop
  | and : IsSymbol .and ['&', '&']
  | or : IsSymbol .or ['|', '|']
  | equal : IsSymbol .equal ['=', '=']
  | notEqual : IsSymbol .notEqual ['!', '=']
  | lessEqual : IsSymbol .lessEqual ['<', '=']
  | greaterEqual : IsSymbol .greaterEqual ['>', '=']
  | less : IsSymbol .less ['<']
  | greater : IsSymbol .greater ['>']
  | not : IsSymbol .not ['!']
  | plus : IsSymbol .plus ['+']
  | minus : IsSymbol .minus ['-']
  | star : IsSymbol .star ['*']
  | slash : IsSymbol .slash ['/']
  | percent : IsSymbol .percent ['%']
  | question : IsSymbol .question ['?']
  | colon : IsSymbol .colon [':']
  | openParen : IsSymbol .openParen ['(']
  | closeParen : IsSymbol .closeParen [')']
  | comma : IsSymbol .comma [',']

def IsDigits (cs : List Char) : Prop := cs ≠ [] ∧ ∀ c ∈ cs, isDigit c

def IsFraction (cs : List Char) : Prop := cs = [] ∨ ∃ ds, cs = '.' :: ds ∧ IsDigits ds

def IsPower (cs : List Char) : Prop :=
  cs = [] ∨ ∃ mark sign ds, cs = mark :: (sign ++ ds) ∧ (mark = 'e' ∨ mark = 'E') ∧
    (sign = [] ∨ sign = ['+'] ∨ sign = ['-']) ∧ IsDigits ds

def IsNumeral (cs : List Char) : Prop :=
  ∃ whole fraction power, cs = whole ++ fraction ++ power ∧ IsDigits whole ∧ IsFraction fraction ∧ IsPower power

def IsPath (cs : List Char) : Prop :=
  ∃ first others, cs = joined '.' (first :: others) ∧ ∀ segment ∈ first :: others, IsSegment segment

theorem IsNumeral.head {cs : List Char} (h : IsNumeral cs) : ∃ c ds, cs = c :: ds ∧ isDigit c := by
  obtain ⟨whole, fraction, power, rfl, ⟨hne, hdigits⟩, -, -⟩ := h
  cases whole with
  | nil => exact absurd rfl hne
  | cons c whole => exact ⟨c, _, rfl, hdigits c (.head _)⟩

theorem IsPath.head {cs : List Char} (h : IsPath cs) : ∃ c ds, cs = c :: ds ∧ Scanner.startsName c := by
  obtain ⟨first, others, rfl, h⟩ := h
  obtain ⟨c, ds, rfl, hc, -⟩ := h first (.head _)
  cases others with
  | nil => exact ⟨c, ds, rfl, hc⟩
  | cons second others => exact ⟨c, _, rfl, hc⟩

inductive Lexeme where
  | symbol (kind : Token.Kind) (cs : List Char) (form : IsSymbol kind cs)
  | numeral (cs : List Char) (form : IsNumeral cs) (finite : (Scanner.numeralValue cs).isFinite)
  | quoted (content : List Char) (free : '\'' ∉ content)
  | path (cs : List Char) (form : IsPath cs)

namespace Lexeme

def raw : Lexeme → List Char
  | symbol _ cs _ => cs
  | numeral cs _ _ => cs
  | quoted content _ => '\'' :: content ++ ['\'']
  | path cs _ => cs

def opens : Lexeme → Bool
  | symbol kind _ _ => kind = .openParen
  | _ => false

/-- The kind of a path; three are literals, and one before a parenthesis is a function. -/
def pathKind (cs : List Char) (call : Bool) : Token.Kind :=
  if cs = "true".toList ∨ cs = "false".toList then .bool
  else if cs = "null".toList then .null
  else if call then .function
  else .name

def kind : Lexeme → Bool → Token.Kind
  | symbol kind _ _, _ => kind
  | numeral _ _ _, _ => .number
  | quoted _ _, _ => .string
  | path cs _, call => pathKind cs call

theorem kind_ne_stop (l : Lexeme) (call : Bool) : l.kind call ≠ .stop := by
  cases l with
  | symbol kind cs form => cases form <;> exact nofun
  | numeral cs form finite => exact nofun
  | quoted content free => exact nofun
  | path cs form =>
    show pathKind cs call ≠ .stop
    unfold pathKind
    split_ifs <;> exact nofun

def spaced (parts : List (List Char × Lexeme)) : List Char := parts.flatMap fun p => p.1 ++ p.2.raw

def tokens : List Lexeme → List (Token.Kind × String)
  | [] => [(.stop, "")]
  | l :: ls => (l.kind (ls.head?.any opens), String.ofList l.raw) :: tokens ls

/-- A word begins with no blank, and only the opening parenthesis with one. -/
theorem raw_eq_cons (l : Lexeme) : ∃ c cs, l.raw = c :: cs ∧ isBlank c = false ∧ l.opens = (c == '(') := by
  cases l with
  | symbol kind cs form => cases form <;> exact ⟨_, _, rfl, by decide, by decide⟩
  | numeral cs form finite =>
    obtain ⟨c, ds, rfl, hc⟩ := form.head
    have hopens : c ≠ '(' := fun h => by simp [h, isDigit] at hc
    exact ⟨c, ds, rfl, isBlank_of_isDigit hc, (beq_eq_false_iff_ne.mpr hopens).symm⟩
  | quoted content free => exact ⟨'\'', content ++ ['\''], rfl, by decide, rfl⟩
  | path cs form =>
    obtain ⟨c, ds, rfl, hc⟩ := form.head
    have hopens : c ≠ '(' := by
      rintro rfl
      have hnone : Scanner.startsName '(' = false := by decide
      rw [hnone] at hc
      cases hc
    exact ⟨c, ds, rfl, Scanner.isBlank_of_startsName hc, (beq_eq_false_iff_ne.mpr hopens).symm⟩

theorem spaced_cons (p : List Char × Lexeme) (parts : List (List Char × Lexeme)) :
    spaced (p :: parts) = p.1 ++ p.2.raw ++ spaced parts := by
  simp [spaced]

end Lexeme

/-! ## Each rule stops at the gap -/

namespace Scanner

variable {cs rest : List Char} {kind : Token.Kind}

theorem symbol?_append (h : IsSymbol kind cs) (hrest : AtGap rest) :
    symbol? (cs ++ rest) = some (kind, cs, rest) := by
  have hequal : rest.head? ≠ some '=' := hrest.head?_ne (by decide)
  cases h with
  | less | greater | not => cases rest <;> simp_all [symbol?]
  | _ => rfl

/-! ### Names -/

theorem name_continues (h : ∀ c ∈ cs, continuesName c) (rest : List Char) :
    name (cs ++ rest) = (cs ++ (name rest).1, (name rest).2) := by
  induction cs with
  | nil => rfl
  | cons c cs ih =>
    rw [List.cons_append, name, if_pos (by simp [h c (.head _)]), ih fun d hd => h d (.tail _ hd)]
    rfl

theorem name_gap (h : AtGap rest) : name rest = ([], rest) := by
  cases rest with
  | nil => rfl
  | cons c cs =>
    have hc : isBlank c := h c rfl
    have hdot : c ≠ '.' := ne_of_isBlank hc (by decide)
    rw [name, if_neg (by simp [continuesName_of_isBlank hc, hdot])]

theorem name_segment (h : IsSegment cs) (rest : List Char) :
    name (cs ++ rest) = (cs ++ (name rest).1, (name rest).2) := name_continues h.continuesName rest

theorem name_dot (h : cs.head?.any startsName) : name ('.' :: cs) = ('.' :: (name cs).1, (name cs).2) := by
  rw [name, if_pos (by simp [h])]

theorem name_path {first : List Char} {others : List (List Char)}
    (h : ∀ segment ∈ first :: others, IsSegment segment) (hrest : AtGap rest) :
    name (joined '.' (first :: others) ++ rest) = (joined '.' (first :: others), rest) := by
  induction others generalizing first with
  | nil =>
    rw [joined, name_segment (h first (.head _)), name_gap hrest]
    simp
  | cons second others ih =>
    have hothers : ∀ segment ∈ second :: others, IsSegment segment := fun s hs => h s (.tail _ hs)
    have hdot : (joined '.' (second :: others) ++ rest).head?.any startsName := by
      obtain ⟨c, ds, hjoined, hc⟩ := IsPath.head ⟨second, others, rfl, hothers⟩
      simpa [hjoined] using hc
    rw [joined, List.append_assoc, name_segment (h first (.head _)), List.cons_append, name_dot hdot, ih hothers]
    exact List.cons_ne_nil second others

/-! ### Numerals -/

theorem digitsAfter_digits (h : IsDigits cs) (hrest : ∀ c ∈ rest.head?, isDigit c = false) (mark : List Char) :
    digitsAfter mark (cs ++ rest) = ⟨mark ++ cs, rest, true⟩ := by
  obtain ⟨htake, hdrop⟩ := takeWhile_stop h.2 hrest
  simp [digitsAfter, htake, hdrop, h.1]

theorem fraction_whole (h : IsFraction cs) (hdot : rest.head? ≠ some '.')
    (hrest : ∀ c ∈ rest.head?, isDigit c = false) : fraction (cs ++ rest) = ⟨cs, rest, true⟩ := by
  obtain rfl | ⟨ds, rfl, hds⟩ := h
  · cases rest with
    | nil => rfl
    | cons c rest => simp_all [fraction]
  · exact digitsAfter_digits hds hrest ['.']

theorem power_whole (h : IsPower cs) (hrest : AtGap rest) : power (cs ++ rest) = ⟨cs, rest, true⟩ := by
  have hdigit : ∀ c ∈ rest.head?, isDigit c = false := fun c hc => isDigit_of_isBlank (hrest c hc)
  obtain rfl | ⟨mark, sign, ds, rfl, hmark, hsign, hds⟩ := h
  · cases rest with
    | nil => rfl
    | cons c rest =>
      have hc : isBlank c := hrest c rfl
      have hmark : ¬ (c = 'e' ∨ c = 'E') :=
        not_or.mpr ⟨ne_of_isBlank hc (by decide), ne_of_isBlank hc (by decide)⟩
      exact if_neg hmark
  · obtain ⟨d, ds', hcons⟩ := List.exists_cons_of_ne_nil hds.1
    have hd : isSign d = false := by
      have hd : isDigit d := hds.2 d (by simp [hcons])
      by_contra hsign
      simp only [isSign, Bool.not_eq_false, Bool.or_eq_true, beq_iff_eq] at hsign
      obtain rfl | rfl := hsign <;> cases hd
    have hpower : ∀ s r, power (mark :: s :: r) =
        if isSign s then digitsAfter [mark, s] r else digitsAfter [mark] (s :: r) := fun s r => if_pos hmark
    rw [List.cons_append]
    rcases hsign with rfl | rfl | rfl
    · have hplain := digitsAfter_digits hds hdigit [mark]
      simpa [hcons, hpower, hd] using hplain
    · exact (hpower '+' (ds ++ rest)).trans (digitsAfter_digits hds hdigit [mark, '+'])
    · exact (hpower '-' (ds ++ rest)).trans (digitsAfter_digits hds hdigit [mark, '-'])

theorem numeral_parts {whole fraction power : List Char} (hwhole : IsDigits whole) (hfraction : IsFraction fraction)
    (hpower : IsPower power) (hrest : AtGap rest) :
    (whole ++ fraction ++ power ++ rest).takeWhile isDigit = whole ∧
      Scanner.fraction ((whole ++ fraction ++ power ++ rest).dropWhile isDigit) = ⟨fraction, power ++ rest, true⟩ ∧
      Scanner.power (power ++ rest) = ⟨power, rest, true⟩ := by
  have hdot : (power ++ rest).head? ≠ some '.' := by
    obtain rfl | ⟨mark, sign, ds, rfl, hmark, -, -⟩ := hpower
    · exact hrest.head?_ne (by decide)
    · rcases hmark with rfl | rfl <;> exact nofun
  have hpowerDigit : ∀ c ∈ (power ++ rest).head?, isDigit c = false := by
    obtain rfl | ⟨mark, sign, ds, rfl, hmark, -, -⟩ := hpower
    · exact fun c hc => isDigit_of_isBlank (hrest c hc)
    · rcases hmark with rfl | rfl <;> (rintro c ⟨⟩; decide)
  have hfractionDigit : ∀ c ∈ (fraction ++ (power ++ rest)).head?, isDigit c = false := by
    obtain rfl | ⟨ds, rfl, -⟩ := hfraction
    · exact hpowerDigit
    · rintro c ⟨⟩
      decide
  obtain ⟨htake, hdrop⟩ := takeWhile_stop hwhole.2 hfractionDigit
  rw [List.append_assoc, List.append_assoc, htake, hdrop]
  exact ⟨rfl, fraction_whole hfraction hdot hpowerDigit, power_whole hpower hrest⟩

theorem numeral_whole (h : IsNumeral cs) (hrest : AtGap rest) : numeral (cs ++ rest) = ⟨cs, rest, true⟩ := by
  obtain ⟨whole, fraction, power, rfl, hwhole, hfraction, hpower⟩ := h
  obtain ⟨htake, hfraction, hpower⟩ := numeral_parts hwhole hfraction hpower hrest
  rw [numeral, htake, hfraction]
  simp [hpower]

theorem number_whole (h : IsNumeral cs) (hfinite : (numeralValue cs).isFinite) (hrest : AtGap rest) :
    number (cs ++ rest) = .token .number (some (.number (numeralValue cs) (String.ofList cs))) cs rest := by
  have hnone : rest.head?.filter (fun c => continuesName c || c == '.') = none := by
    cases rest with
    | nil => rfl
    | cons c rest =>
      have hc : isBlank c := hrest c rfl
      have hdot : c ≠ '.' := ne_of_isBlank hc (by decide)
      simp [continuesName_of_isBlank hc, hdot]
  rw [number, numeral_whole h hrest]
  simp [hnone, hfinite]

/-! ### Words -/

theorem string_whole (h : '\'' ∉ cs) (rest : List Char) :
    string (cs ++ '\'' :: rest) = .token .string (some (.string (String.ofList cs))) ('\'' :: cs ++ ['\'']) rest := by
  have hcs : ∀ c ∈ cs, (c != '\'') = true := fun c hc => by simpa using fun heq : c = '\'' => h (heq ▸ hc)
  rw [string, List.takeWhile_append_of_pos hcs, List.dropWhile_append_of_pos hcs]
  simp

theorem word_whole (cs rest : List Char) :
    ∃ literal, word cs rest = .token (Lexeme.pathKind cs (opensCall rest)) literal cs rest := by
  unfold word Lexeme.pathKind
  by_cases htrue : cs = "true".toList
  · exact ⟨_, by rw [if_pos htrue, if_pos (.inl htrue)]⟩
  by_cases hfalse : cs = "false".toList
  · exact ⟨_, by rw [if_neg htrue, if_pos hfalse, if_pos (.inr hfalse)]⟩
  rw [if_neg htrue, if_neg hfalse, if_neg (not_or.mpr ⟨htrue, hfalse⟩)]
  split
  · exact ⟨_, rfl⟩
  · split <;> exact ⟨_, rfl⟩

/-- A word before a gap is one token, with its text, and a path looks beyond the gap. -/
theorem munch_lexeme {l : Lexeme} {c : Char} (hraw : l.raw = c :: cs) (hrest : AtGap rest) :
    ∃ literal, munch c (cs ++ rest) = .token (l.kind (opensCall rest)) literal l.raw rest := by
  cases l with
  | symbol kind ds form =>
    obtain rfl : ds = c :: cs := hraw
    have hsymbol := symbol?_append form hrest
    rw [List.cons_append] at hsymbol
    rw [munch, hsymbol]
    exact ⟨none, rfl⟩
  | numeral ds form finite =>
    obtain rfl : ds = c :: cs := hraw
    obtain ⟨d, ds, hcons, hd⟩ := form.head
    cases hcons
    rw [munch_digit hd, ← List.cons_append, number_whole form finite hrest]
    exact ⟨_, rfl⟩
  | quoted content free =>
    cases hraw
    have hstring := string_whole free rest
    rw [← List.singleton_append, ← List.append_assoc] at hstring
    exact ⟨_, hstring⟩
  | path ds form =>
    obtain rfl : ds = c :: cs := hraw
    obtain ⟨d, ds, hcons, hd⟩ := form.head
    cases hcons
    have hname : name (c :: (cs ++ rest)) = (c :: cs, rest) := by
      obtain ⟨first, others, hjoined, h⟩ := form
      rw [← List.cons_append, hjoined, name_path h hrest]
    rw [munch_name hd, hname]
    exact word_whole _ rest

/-! ## Words one behind the other -/

variable {s : Scanner} {blanks : List Char} {l : Lexeme}

theorem skipBlanks_append (hblanks : ∀ c ∈ blanks, isBlank c) (hs : s.rest = blanks ++ rest)
    (hrest : ∀ c ∈ rest.head?, isBlank c = false) : s.skipBlanks = ⟨rest, s.location.past blanks⟩ := by
  obtain ⟨htake, hdrop⟩ := takeWhile_stop hblanks hrest
  rw [skipBlanks, hs, htake, hdrop]

theorem next_lexeme (hblanks : ∀ c ∈ blanks, isBlank c) (hs : s.rest = blanks ++ l.raw ++ rest) (hrest : AtGap rest) :
    ∃ t s', s.next = (.ok t, s') ∧ t.kind = l.kind (opensCall rest) ∧ t.raw = String.ofList l.raw ∧ s'.rest = rest := by
  obtain ⟨c, cs, hraw, hc, -⟩ := l.raw_eq_cons
  have hskip : s.skipBlanks = ⟨c :: (cs ++ rest), s.location.past blanks⟩ := by
    refine skipBlanks_append hblanks (by simp [hs, hraw]) ?_
    rintro c ⟨⟩
    exact hc
  obtain ⟨literal, hmunch⟩ := munch_lexeme hraw hrest
  refine ⟨⟨l.kind (opensCall rest), literal, String.ofList l.raw, s.location.past blanks⟩,
    ⟨rest, (s.location.past blanks).past l.raw⟩, ?_, rfl, rfl, rfl⟩
  rw [next, hskip]
  simp only [hmunch]

theorem next_end (h : ∀ c ∈ s.rest, isBlank c) : ∃ t s', s.next = (.ok t, s') ∧ t.kind = .stop ∧ t.raw = "" := by
  have hskip : s.skipBlanks = ⟨[], s.location.past s.rest⟩ :=
    skipBlanks_append h (List.append_nil _).symm (by simp)
  refine ⟨⟨.stop, none, "", s.location.past s.rest⟩, ⟨[], s.location.past s.rest⟩, ?_, rfl, rfl⟩
  rw [next, hskip]

theorem opensCall_spaced {parts : List (List Char × Lexeme)} {last : List Char}
    (hblanks : ∀ p ∈ parts, ∀ c ∈ p.1, isBlank c) (hlast : ∀ c ∈ last, isBlank c) :
    opensCall (Lexeme.spaced parts ++ last) = (parts.map (·.2)).head?.any Lexeme.opens := by
  cases parts with
  | nil =>
    have hnone : last.dropWhile isBlank = [] := List.dropWhile_eq_nil_iff.mpr hlast
    simp [opensCall, Lexeme.spaced, hnone]
  | cons p parts =>
    obtain ⟨c, cs, hraw, hc, hopens⟩ := p.2.raw_eq_cons
    rw [Lexeme.spaced_cons, opensCall, hraw, List.append_assoc, List.append_assoc,
      List.dropWhile_append_of_pos (hblanks p (.head _)), List.cons_append, List.dropWhile_cons_of_neg (by simp [hc])]
    simpa using hopens.symm

theorem atGap_spaced {parts : List (List Char × Lexeme)} {last : List Char}
    (hblanks : ∀ p ∈ parts, ∀ c ∈ p.1, isBlank c) (hlast : ∀ c ∈ last, isBlank c) (hapart : ∀ p ∈ parts, p.1 ≠ []) :
    AtGap (Lexeme.spaced parts ++ last) := by
  cases parts with
  | nil => exact atGap_of_blanks hlast
  | cons p parts =>
    rw [Lexeme.spaced_cons, List.append_assoc, List.append_assoc]
    exact (atGap_of_blanks (hblanks p (.head _))).append (hapart p (.head _))

/-- As many steps as there are characters, and one more, take all the words. -/
theorem tokensWithin_spaced {parts : List (List Char × Lexeme)} {last : List Char} {fuel : Nat}
    (hblanks : ∀ p ∈ parts, ∀ c ∈ p.1, isBlank c) (hlast : ∀ c ∈ last, isBlank c)
    (hapart : ∀ p ∈ parts.tail, p.1 ≠ []) (hs : s.rest = Lexeme.spaced parts ++ last) (hfuel : s.rest.length < fuel) :
    ∃ ts, s.tokensWithin fuel = .ok ts ∧ ts.map (fun t => (t.kind, t.raw)) = Lexeme.tokens (parts.map (·.2)) := by
  induction parts generalizing s fuel with
  | nil =>
    obtain ⟨fuel, rfl⟩ := Nat.exists_eq_add_of_lt hfuel
    obtain ⟨t, s', hnext, hkind, hraw⟩ := next_end (s := s) (by simpa [hs, Lexeme.spaced] using hlast)
    refine ⟨[t], ?_, by simp [Lexeme.tokens, hkind, hraw]⟩
    rw [tokensWithin, hnext]
    exact if_pos hkind
  | cons p parts ih =>
    have hblanks' : ∀ q ∈ parts, ∀ c ∈ q.1, isBlank c := fun q hq => hblanks q (.tail _ hq)
    have hrest : AtGap (Lexeme.spaced parts ++ last) := atGap_spaced hblanks' hlast hapart
    rw [Lexeme.spaced_cons, List.append_assoc] at hs
    obtain ⟨t, s', hnext, hkind, hraw, hs'⟩ := next_lexeme (hblanks p (.head _)) hs hrest
    -- The word took at least one character, so the fuel left covers what is left.
    have hlength : s'.rest.length < s.rest.length := by
      obtain ⟨c, cs, hcons, -, -⟩ := p.2.raw_eq_cons
      rw [hs, hs', hcons]
      simp only [List.length_append, List.length_cons]
      omega
    obtain ⟨fuel, rfl⟩ := Nat.exists_eq_add_of_lt hfuel
    have hfuel' : s'.rest.length < s.rest.length + fuel := by omega
    obtain ⟨ts, hts, hmap⟩ := ih hblanks' (fun q hq => hapart q (List.mem_of_mem_tail hq)) hs' hfuel'
    have hstop : t.kind ≠ .stop := hkind ▸ p.2.kind_ne_stop _
    refine ⟨t :: ts, ?_, ?_⟩
    · rw [tokensWithin, hnext]
      simp only [hstop, ↓reduceIte, hts]
    · rw [List.map_cons, hmap, hkind, hraw, opensCall_spaced hblanks' hlast]
      rfl

end Scanner

/-- **Words are read back.** Words with blanks between them and any blanks at the ends are tokenized to as many
tokens, each with its text, and the mark of the end. A path is a literal, a function when a parenthesis opens next,
or a name. -/
theorem tokenize_complete {source : String} {parts : List (List Char × Lexeme)} {last : List Char}
    (hblanks : ∀ p ∈ parts, ∀ c ∈ p.1, isBlank c) (hlast : ∀ c ∈ last, isBlank c)
    (hapart : ∀ p ∈ parts.tail, p.1 ≠ []) (hsource : source.toList = Lexeme.spaced parts ++ last) :
    ∃ tokens, tokenize source = .ok tokens ∧
      tokens.map (fun t => (t.kind, t.raw)) = Lexeme.tokens (parts.map (·.2)) :=
  Scanner.tokensWithin_spaced hblanks hlast hapart hsource (Nat.lt_succ_self _)

/-- A line break before the parenthesis makes the path no less a function. -/
theorem tokenize_complete_call :
    let source := " Size\n( 'a b' ) >= 1.5e3"
    ∃ tokens, tokenize source = .ok tokens ∧ tokens.map (fun t => (t.kind, t.raw)) =
      [(.function, "Size"), (.openParen, "("), (.string, "'a b'"), (.closeParen, ")"), (.greaterEqual, ">="),
        (.number, "1.5e3"), (.stop, "")] := by
  intro source
  have hpath : IsPath ['S', 'i', 'z', 'e'] := by
    refine ⟨['S', 'i', 'z', 'e'], [], rfl, ?_⟩
    rintro segment (_ | ⟨_, ⟨⟩⟩)
    exact ⟨'S', ['i', 'z', 'e'], rfl, by decide, List.all_eq_true.mp (by decide)⟩
  have hdigits : ∀ c, isDigit c → IsDigits [c] := fun c hc => ⟨nofun, by simpa using hc⟩
  have hnumeral : IsNumeral ['1', '.', '5', 'e', '3'] :=
    ⟨['1'], ['.', '5'], ['e', '3'], rfl, hdigits '1' (by decide), .inr ⟨['5'], rfl, hdigits '5' (by decide)⟩,
      .inr ⟨'e', [], ['3'], rfl, .inl rfl, .inl rfl, hdigits '3' (by decide)⟩⟩
  have hfinite : (Scanner.numeralValue ['1', '.', '5', 'e', '3']).isFinite := by decide +kernel
  let parts : List (List Char × Lexeme) := [([' '], .path _ hpath), (['\n'], .symbol .openParen ['('] .openParen),
    ([' '], .quoted ['a', ' ', 'b'] (by decide)), ([' '], .symbol .closeParen [')'] .closeParen),
    ([' '], .symbol .greaterEqual ['>', '='] .greaterEqual), ([' '], .numeral _ hnumeral hfinite)]
  have hblank : isBlank ' ' = true ∧ isBlank '\n' = true := by decide
  have hblanks : ∀ p ∈ parts, ∀ c ∈ p.1, isBlank c := by simp [parts, hblank]
  have hapart : ∀ p ∈ parts.tail, p.1 ≠ [] := by simp [parts]
  have hsource : source.toList = Lexeme.spaced parts ++ [] := by
    simp [source, parts, Lexeme.spaced, Lexeme.raw]
  have hlast : ∀ c ∈ ([] : List Char), isBlank c := by simp
  obtain ⟨tokens, htokens, hmap⟩ := tokenize_complete hblanks hlast hapart hsource
  exact ⟨tokens, htokens, hmap⟩

end RecordLogic
