import RecordLogic.Proofs.Clashes

/-!
# Tests of texts with and without case

A text in small letters is put together from its parts, each in small letters among its neighbours. Only a capital sigma
depends on them, so a test that holds with case holds without it just where every sigma takes the form that it takes in
the part alone.
-/

namespace RecordLogic

namespace Text

variable {a b p r cs before after before' after' : List Char} {c : Char}

/-! ## Parts in small letters -/

/-- The small letters of a part between the characters `before` it (nearest first) and `after` it. -/
def lowerWithin (before after : List Char) : List Char → List Char
  | [] => []
  | c :: cs => lowerChar before c (cs ++ after) ++ lowerWithin (c :: before) after cs

theorem lowerWithin_append (before after a b : List Char) : lowerWithin before after (a ++ b) =
    lowerWithin before (b ++ after) a ++ lowerWithin (a.reverse ++ before) after b := by
  induction a generalizing before with
  | nil => rfl
  | cons c a ih => simp [lowerWithin, ih, List.append_assoc]

theorem lowerFrom_eq (before cs : List Char) : lowerFrom before cs = lowerWithin before [] cs := by
  induction cs generalizing before with
  | nil => rfl
  | cons c cs ih => rw [lowerFrom, lowerWithin, ih, List.append_nil]

theorem lower_eq (cs : List Char) : lower cs = lowerWithin [] [] cs := lowerFrom_eq [] cs

theorem lower_infix (p b r : List Char) : lower (p ++ b ++ r) =
    lowerWithin [] (b ++ r) p ++ lowerWithin p.reverse r b ++ lowerWithin (p ++ b).reverse [] r := by
  simp only [lower_eq, lowerWithin_append, List.append_nil]

def isFinal (before after : List Char) : Bool := meetsCased before && !meetsCased after

theorem sigma_iff : c.toNat = 0x3A3 ↔ c = 'Σ' :=
  ⟨fun h => Char.toNat_inj.mp h, fun h => h ▸ rfl⟩

theorem length_lowerChar (before before' after after' : List Char) (c : Char) :
    (lowerChar before c after).length = (lowerChar before' c after').length := by
  unfold lowerChar
  split
  · rfl
  · split <;> rfl

theorem length_lowerWithin (before before' after after' cs : List Char) :
    (lowerWithin before after cs).length = (lowerWithin before' after' cs).length := by
  induction cs generalizing before before' with
  | nil => rfl
  | cons c cs ih =>
    simp only [lowerWithin, List.length_append]
    rw [length_lowerChar before before' (cs ++ after) (cs ++ after') c, ih (c :: before) (c :: before')]

theorem lowerChar_eq_iff : lowerChar before c after = lowerChar before' c after' ↔
    (c = 'Σ' → isFinal before after = isFinal before' after') := by
  unfold lowerChar
  by_cases hc : c = 'Σ'
  · rw [if_pos (sigma_iff.mpr hc), if_pos (sigma_iff.mpr hc)]
    unfold isFinal
    cases meetsCased before && !meetsCased after <;> cases meetsCased before' && !meetsCased after' <;> simp [hc]
  · rw [if_neg (mt sigma_iff.mp hc), if_neg (mt sigma_iff.mp hc)]
    simp [hc]

/-- Each capital sigma of the part takes the form among these neighbours that it takes among the others. -/
theorem lowerWithin_eq_iff : lowerWithin before after cs = lowerWithin before' after' cs ↔
    ∀ u v, cs = u ++ 'Σ' :: v →
      isFinal (u.reverse ++ before) (v ++ after) = isFinal (u.reverse ++ before') (v ++ after') := by
  induction cs generalizing before before' with
  | nil => simp [lowerWithin]
  | cons c cs ih =>
    have hparts : lowerWithin before after (c :: cs) = lowerWithin before' after' (c :: cs) ↔
        lowerChar before c (cs ++ after) = lowerChar before' c (cs ++ after') ∧
          lowerWithin (c :: before) after cs = lowerWithin (c :: before') after' cs :=
      ⟨fun h => List.append_inj h (length_lowerChar ..), fun ⟨hc, hcs⟩ => by rw [lowerWithin, lowerWithin, hc, hcs]⟩
    rw [hparts, lowerChar_eq_iff, ih]
    constructor
    · rintro ⟨hc, hcs⟩ u v h
      cases u with
      | nil =>
        obtain ⟨hsigma, rfl⟩ := List.cons.inj h
        exact hc hsigma
      | cons x u =>
        obtain ⟨rfl, rfl⟩ := List.cons.inj h
        simpa using hcs u v rfl
    · intro h
      refine ⟨fun hc => h [] cs (by rw [hc]; rfl), fun u v hcs => ?_⟩
      simpa using h (c :: u) v (by rw [hcs]; rfl)

/-- Each capital sigma of the part takes the form between `before` and `after` that it takes in the part alone. -/
def KeepsSigmas (before part after : List Char) : Prop :=
  ∀ u v, part = u ++ 'Σ' :: v → isFinal (before ++ u).reverse (v ++ after) = isFinal u.reverse v

theorem keepsSigmas_iff : KeepsSigmas p b r ↔ lowerWithin p.reverse r b = lower b := by
  rw [lower_eq, lowerWithin_eq_iff]
  simp [KeepsSigmas]

theorem keepsSigmas_of_not_mem (h : 'Σ' ∉ b) : KeepsSigmas p b r := by
  rintro u v rfl
  exact absurd (by simp) h

/-! ## Places in a text -/

theorem isPart_eq_true : isPart b a ↔ ∃ p r, a = p ++ b ++ r := by
  have hpart : isPart b a ↔ b <:+: a := by
    induction a with
    | nil => simp [isPart]
    | cons c a ih => simp [isPart, ih, List.infix_cons_iff]
  rw [hpart]
  exact ⟨fun ⟨p, r, h⟩ => ⟨p, r, h.symm⟩, fun ⟨p, r, h⟩ => ⟨p, r, h.symm⟩⟩

theorem order_eq_eq : order a b = .eq ↔ a = b := by
  induction a generalizing b with
  | nil => cases b <;> simp [order]
  | cons c a ih =>
    cases b with
    | nil => simp [order]
    | cons d b => simp [order, Ordering.then_eq_eq, ih, Char.toNat_inj]

end Text

namespace Library

open Text

variable {a b p r : List Char}

theorem startsWith_eq_true : startsWith a b ↔ ∃ r, a = b ++ r := by
  rw [startsWith, List.isPrefixOf_iff_prefix]
  exact ⟨fun ⟨r, h⟩ => ⟨r, h.symm⟩, fun ⟨r, h⟩ => ⟨r, h.symm⟩⟩

theorem endsWith_eq_true : endsWith a b ↔ ∃ p, a = p ++ b := by
  rw [endsWith, isEnd, List.isPrefixOf_iff_prefix, List.reverse_prefix]
  exact ⟨fun ⟨p, h⟩ => ⟨p, h.symm⟩, fun ⟨p, h⟩ => ⟨p, h.symm⟩⟩

theorem contains_eq_true : contains a b ↔ ∃ p r, a = p ++ b ++ r := isPart_eq_true

theorem startsWith_lowered : lowered startsWith (b ++ r) b ↔ KeepsSigmas [] b r := by
  have hwhole : lower (b ++ r) = lowerWithin [] r b ++ lowerWithin b.reverse [] r := by
    simpa [lowerWithin] using lower_infix [] b r
  rw [lowered, startsWith_eq_true, hwhole, keepsSigmas_iff]
  constructor
  · rintro ⟨q, hq⟩
    rw [lower_eq] at hq ⊢
    exact List.append_inj_left hq (length_lowerWithin ..)
  · intro h
    exact ⟨_, congrArg (· ++ _) h⟩

theorem endsWith_lowered : lowered endsWith (p ++ b) b ↔ KeepsSigmas p b [] := by
  have hwhole : lower (p ++ b) = lowerWithin [] b p ++ lowerWithin p.reverse [] b := by
    simpa [lowerWithin] using lower_infix p b []
  rw [lowered, endsWith_eq_true, hwhole, keepsSigmas_iff]
  constructor
  · rintro ⟨q, hq⟩
    rw [lower_eq] at hq ⊢
    exact List.append_inj_right' hq (length_lowerWithin ..)
  · intro h
    exact ⟨_, congrArg (_ ++ ·) h⟩

theorem contains_lowered (h : KeepsSigmas p b r) : lowered contains (p ++ b ++ r) b := by
  rw [lowered, contains_eq_true, lower_infix, keepsSigmas_iff.mp h]
  exact ⟨_, _, rfl⟩

theorem ordinal_eq_zero {o : Ordering} : ordinal o = .int 0 ↔ o = .eq := by
  cases o <;> simp [ordinal]

end Library

namespace Registry

open Text Library

def ofTwo (now : DateTime) (name a b : String) : Option Value := (standard now).call? name [.string a, .string b]

variable {now : DateTime} {a b : String}

theorem ofTwo_of_mem {f : List Value → Value} {name : String} {t : ValueType}
    (h : ⟨name, [.string, .string], t, f⟩ ∈ textFunctions) : ofTwo now name a b = some (f [.string a, .string b]) :=
  call?_of_mem (apart_standard now) (s := ⟨name, [.string, .string], t, f⟩) (by simp [standard, h]) rfl

theorem ofTwo_test {p : List Char → List Char → Bool} {name : String}
    (h : ⟨name, [.string, .string], .bool, test p⟩ ∈ textFunctions) {t : Bool} :
    ofTwo now name a b = some (.bool t) ↔ p a.toList b.toList = t := by
  rw [ofTwo_of_mem h]
  simp [test, text?, Value.asString?]

theorem compareOrdinal_iff : ofTwo now "CompareOrdinal" a b = some (.int 0) ↔ a = b := by
  rw [ofTwo_of_mem (f := compareOrdinal) (t := .number .i32) (by simp [textFunctions])]
  simp [compareOrdinal, text?, Value.asString?, orderOrNull, ordinal_eq_zero, order_eq_eq, String.toList_inj]

theorem compareOrdinalIgnoreCase_self : ofTwo now "CompareOrdinalIgnoreCase" a a = some (.int 0) := by
  rw [ofTwo_of_mem (f := compareIgnoringCase) (t := .number .i32) (by simp [textFunctions])]
  simp [compareIgnoringCase, text?, Value.asString?, orderOrNull, ordinal_eq_zero, order_eq_eq]

theorem startsWith_iff : ofTwo now "StartsWith" a b = some (.bool true) ↔ ∃ r, a.toList = b.toList ++ r := by
  rw [ofTwo_test (p := startsWith) (by simp [textFunctions]), startsWith_eq_true]

theorem startsWithIgnoreCase_iff {r : List Char} (h : a.toList = b.toList ++ r) :
    ofTwo now "StartsWithIgnoreCase" a b = some (.bool true) ↔ KeepsSigmas [] b.toList r := by
  rw [ofTwo_test (p := lowered startsWith) (by simp [textFunctions]), h, startsWith_lowered]

theorem endsWith_iff : ofTwo now "EndsWith" a b = some (.bool true) ↔ ∃ p, a.toList = p ++ b.toList := by
  rw [ofTwo_test (p := endsWith) (by simp [textFunctions]), endsWith_eq_true]

theorem endsWithIgnoreCase_iff {p : List Char} (h : a.toList = p ++ b.toList) :
    ofTwo now "EndsWithIgnoreCase" a b = some (.bool true) ↔ KeepsSigmas p b.toList [] := by
  rw [ofTwo_test (p := lowered endsWith) (by simp [textFunctions]), h, endsWith_lowered]

theorem contains_iff : ofTwo now "Contains" a b = some (.bool true) ↔ ∃ p r, a.toList = p ++ b.toList ++ r := by
  rw [ofTwo_test (p := contains) (by simp [textFunctions]), contains_eq_true]

theorem containsIgnoreCase_of_place {p r : List Char} (h : a.toList = p ++ b.toList ++ r)
    (hkeeps : KeepsSigmas p b.toList r) : ofTwo now "ContainsIgnoreCase" a b = some (.bool true) := by
  rw [ofTwo_test (p := lowered contains) (by simp [textFunctions]), h]
  exact contains_lowered hkeeps

/-- **Tests without case.** Equal texts are equal without case. A text that a part begins or ends does so without case
just where every capital sigma of the part takes the form there that it takes alone, and a text that contains the part
does so without case if they do at one of its places. -/
theorem tests_ignoring_case (now : DateTime) (a b : String) :
    (ofTwo now "CompareOrdinal" a b = some (.int 0) → ofTwo now "CompareOrdinalIgnoreCase" a b = some (.int 0)) ∧
    (ofTwo now "StartsWith" a b = some (.bool true) → (ofTwo now "StartsWithIgnoreCase" a b = some (.bool true) ↔
      ∃ r, a.toList = b.toList ++ r ∧ KeepsSigmas [] b.toList r)) ∧
    (ofTwo now "EndsWith" a b = some (.bool true) → (ofTwo now "EndsWithIgnoreCase" a b = some (.bool true) ↔
      ∃ p, a.toList = p ++ b.toList ∧ KeepsSigmas p b.toList [])) ∧
    (ofTwo now "Contains" a b = some (.bool true) → (∃ p r, a.toList = p ++ b.toList ++ r ∧ KeepsSigmas p b.toList r) →
      ofTwo now "ContainsIgnoreCase" a b = some (.bool true)) := by
  refine ⟨fun h => ?_, fun h => ?_, fun h => ?_, fun _ ⟨p, r, hplace, hkeeps⟩ => ?_⟩
  · obtain rfl := compareOrdinal_iff.mp h
    exact compareOrdinalIgnoreCase_self
  · obtain ⟨r, hr⟩ := startsWith_iff.mp h
    exact ⟨fun h => ⟨r, hr, (startsWithIgnoreCase_iff hr).mp h⟩,
      fun ⟨_, hplace, hkeeps⟩ => (startsWithIgnoreCase_iff hplace).mpr hkeeps⟩
  · obtain ⟨p, hp⟩ := endsWith_iff.mp h
    exact ⟨fun h => ⟨p, hp, (endsWithIgnoreCase_iff hp).mp h⟩,
      fun ⟨_, hplace, hkeeps⟩ => (endsWithIgnoreCase_iff hplace).mpr hkeeps⟩
  · exact containsIgnoreCase_of_place hplace hkeeps

/-- The sigma ends a word in the one text and is no end of one in the other. -/
theorem tests_ignoring_case_sigma : let run := ofTwo ⟨0, 0, 0⟩
    run "StartsWith" "ΑΣΑ" "ΑΣ" = some (.bool true) ∧ run "StartsWithIgnoreCase" "ΑΣΑ" "ΑΣ" = some (.bool false) ∧
    run "EndsWith" "ΑΣ" "Σ" = some (.bool true) ∧ run "EndsWithIgnoreCase" "ΑΣ" "Σ" = some (.bool false) ∧
    run "Contains" "ΑΣ" "Σ" = some (.bool true) ∧ run "ContainsIgnoreCase" "ΑΣ" "Σ" = some (.bool false) := by
  refine ⟨startsWith_iff.mpr ⟨['Α'], rfl⟩, ?_, endsWith_iff.mpr ⟨['Α'], rfl⟩, ?_, contains_iff.mpr ⟨['Α'], [], rfl⟩, ?_⟩
  · exact (ofTwo_test (p := lowered startsWith) (by simp [textFunctions])).mpr (by decide +kernel)
  · exact (ofTwo_test (p := lowered endsWith) (by simp [textFunctions])).mpr (by decide +kernel)
  · exact (ofTwo_test (p := lowered contains) (by simp [textFunctions])).mpr (by decide +kernel)

/-- A part without a capital sigma is found without case wherever it is found with case. -/
theorem ignoring_case_of_not_mem (hb : 'Σ' ∉ b.toList) :
    (ofTwo now "StartsWith" a b = some (.bool true) → ofTwo now "StartsWithIgnoreCase" a b = some (.bool true)) ∧
    (ofTwo now "EndsWith" a b = some (.bool true) → ofTwo now "EndsWithIgnoreCase" a b = some (.bool true)) ∧
    (ofTwo now "Contains" a b = some (.bool true) → ofTwo now "ContainsIgnoreCase" a b = some (.bool true)) := by
  refine ⟨fun h => ?_, fun h => ?_, fun h => ?_⟩
  · obtain ⟨r, hr⟩ := startsWith_iff.mp h
    exact (startsWithIgnoreCase_iff hr).mpr (keepsSigmas_of_not_mem hb)
  · obtain ⟨p, hp⟩ := endsWith_iff.mp h
    exact (endsWithIgnoreCase_iff hp).mpr (keepsSigmas_of_not_mem hb)
  · obtain ⟨p, r, hplace⟩ := contains_iff.mp h
    exact containsIgnoreCase_of_place hplace (keepsSigmas_of_not_mem hb)

end Registry

end RecordLogic
