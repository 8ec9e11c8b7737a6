import RecordLogic.Expr.Scanner

/-!
# What the scanner takes

Every part of the scanner takes characters and leaves the others. Nothing is lost on the way, and what a token
carries is what its characters say.
-/

namespace RecordLogic

open Text

def IsSegment (cs : List Char) : Prop :=
  ∃ c ds, cs = c :: ds ∧ Scanner.startsName c ∧ ∀ d ∈ ds, Scanner.continuesName d

/-- A token carries what its text says: a string what stands between its quotes, a number the text itself, and a
name consists of segments. -/
def Token.Faithful (t : Token) : Prop :=
  match t.kind with
  | .string => ∃ content, t.raw.toList = '\'' :: content ++ ['\''] ∧ t.literal = some (.string (String.ofList content))
  | .number => ∃ value, t.literal = some (.number value t.raw)
  | .name | .function => ∀ segment ∈ segments t.raw, IsSegment segment.toList
  | _ => True

namespace Scanner

/-! ## Names -/

theorem continuesName_of_startsName {c : Char} (h : startsName c) : continuesName c := by
  unfold startsName at h
  unfold continuesName isAlphanumeric
  cases hl : isLetter c <;> simp_all

theorem not_continuesName_dot : continuesName '.' = false := by
  decide

theorem name_append (cs : List Char) : (name cs).1 ++ (name cs).2 = cs := by
  induction cs with
  | nil => rfl
  | cons c cs ih =>
    rw [name]
    split
    · simp [ih]
    · rfl

/-- Only the first piece of what is taken may begin like the middle of a segment. -/
theorem pieces_name (cs : List Char) : ∃ p ps, pieces '.' (name cs).1 = p :: ps ∧ (∀ d ∈ p, continuesName d) ∧
    (∀ q ∈ ps, IsSegment q) ∧ (cs.head?.any startsName → IsSegment p) := by
  induction cs with
  | nil => exact ⟨[], [], rfl, by simp, by simp, by simp⟩
  | cons c cs ih =>
    obtain ⟨p, ps, hpieces, hp, hps, hhead⟩ := ih
    rw [name]
    by_cases hc : continuesName c
    · have hdot : c ≠ '.' := by
        intro h
        rw [h, not_continuesName_dot] at hc
        cases hc
      refine ⟨c :: p, ps, ?_, ?_, hps, fun h => ⟨c, p, rfl, by simpa using h, hp⟩⟩
      · simp [hc, pieces, hdot, hpieces]
      · intro d hd
        rcases List.mem_cons.mp hd with rfl | hd
        · exact hc
        · exact hp d hd
    · have hstart : ¬ startsName c := fun h => hc (continuesName_of_startsName h)
      by_cases hnext : (c == '.' && cs.head?.any startsName) = true
      · obtain ⟨hdot, hnext⟩ := Bool.and_eq_true_iff.mp hnext
        refine ⟨[], p :: ps, ?_, by simp, ?_, fun h => absurd (by simpa using h) hstart⟩
        · simp [hnext, beq_iff_eq.mp hdot, pieces, hpieces]
        · intro q hq
          rcases List.mem_cons.mp hq with rfl | hq
          · exact hhead hnext
          · exact hps q hq
      · refine ⟨[], [], ?_, by simp, by simp, fun h => absurd (by simpa using h) hstart⟩
        simp [hc, hnext, pieces]

theorem segments_name {c : Char} (h : startsName c) (cs : List Char) :
    ∀ segment ∈ segments (String.ofList (name (c :: cs)).1), IsSegment segment.toList := by
  obtain ⟨p, ps, hpieces, -, hps, hp⟩ := pieces_name (c :: cs)
  intro segment hsegment
  unfold segments split at hsegment
  rw [String.toList_ofList, hpieces] at hsegment
  obtain ⟨q, hq, rfl⟩ := List.mem_map.mp hsegment
  rw [String.toList_ofList]
  rcases List.mem_cons.mp hq with rfl | hq
  · exact hp (by simpa using h)
  · exact hps q hq

theorem name_ne_nil {c : Char} (h : startsName c) (cs : List Char) : (name (c :: cs)).1 ≠ [] := by
  rw [name, if_pos (by simp [continuesName_of_startsName h])]
  simp

/-! ## Numerals -/

theorem digitsAfter_append (mark cs : List Char) :
    (digitsAfter mark cs).taken ++ (digitsAfter mark cs).rest = mark ++ cs := by
  simp [digitsAfter]

theorem fraction_append (cs : List Char) : (fraction cs).taken ++ (fraction cs).rest = cs := by
  unfold fraction
  split
  · exact digitsAfter_append _ _
  · rfl

theorem power_append (cs : List Char) : (power cs).taken ++ (power cs).rest = cs := by
  unfold power
  split
  · split
    · split
      · split <;> exact digitsAfter_append _ _
      · exact digitsAfter_append _ _
    · rfl
  · rfl

theorem numeral_append (cs : List Char) : (numeral cs).taken ++ (numeral cs).rest = cs := by
  have hwhole : cs.takeWhile isDigit ++ cs.dropWhile isDigit = cs := List.takeWhile_append_dropWhile
  have hfraction := fraction_append (cs.dropWhile isDigit)
  unfold numeral
  dsimp only
  split
  · have hpower := power_append (fraction (cs.dropWhile isDigit)).rest
    simp [hpower, hfraction, hwhole]
  · simp [hfraction, hwhole]

theorem numeral_ne_nil {c : Char} (h : isDigit c) (cs : List Char) : (numeral (c :: cs)).taken ≠ [] := by
  unfold numeral
  dsimp only
  split <;> simp [h]

/-! ## Tokens -/

variable {c : Char} {cs raw rest : List Char} {kind : Token.Kind} {literal : Option Literal}

structure Takes (cs : List Char) (kind : Token.Kind) (literal : Option Literal) (raw rest : List Char) : Prop where
  append_eq : cs = raw ++ rest
  ne_nil : raw ≠ []
  not_stop : kind ≠ .stop
  faithful : ∀ location, Token.Faithful ⟨kind, literal, String.ofList raw, location⟩

theorem symbol?_takes (h : symbol? cs = some (kind, raw, rest)) : Takes cs kind none raw rest := by
  unfold symbol? at h
  split at h <;> cases h <;> exact ⟨rfl, nofun, nofun, fun _ => trivial⟩

theorem word_takes (hcs : cs = raw ++ rest) (hraw : raw ≠ [])
    (hsegments : ∀ segment ∈ segments (String.ofList raw), IsSegment segment.toList) {taken left : List Char}
    (h : word raw rest = .token kind literal taken left) : Takes cs kind literal taken left := by
  unfold word at h
  -- The three literals among the names carry nothing of their text.
  split at h
  · cases h
    exact ⟨hcs, hraw, nofun, fun _ => trivial⟩
  split at h
  · cases h
    exact ⟨hcs, hraw, nofun, fun _ => trivial⟩
  split at h
  · cases h
    exact ⟨hcs, hraw, nofun, fun _ => trivial⟩
  split at h <;> cases h <;> exact ⟨hcs, hraw, nofun, fun _ => hsegments⟩

theorem string_takes (h : string cs = .token kind literal raw rest) :
    Takes ('\'' :: cs) kind literal raw rest := by
  have hall : cs.takeWhile (· != '\'') ++ cs.dropWhile (· != '\'') = cs := List.takeWhile_append_dropWhile
  unfold string at h
  dsimp only at h
  split at h
  · rename_i q tail hdrop
    cases h
    have hq : q = '\'' := by
      have hhead := List.head?_dropWhile_not (fun c => c != '\'') cs
      rw [hdrop] at hhead
      simpa using hhead
    subst hq
    refine ⟨?_, by simp, nofun, fun _ => ⟨_, by simp, rfl⟩⟩
    rw [hdrop] at hall
    simp [hall]
  · cases h

theorem number_takes (hc : isDigit c) (h : number (c :: cs) = .token kind literal raw rest) :
    Takes (c :: cs) kind literal raw rest := by
  unfold number at h
  dsimp only at h
  split at h
  · split at h
    · cases h
    · split at h <;> cases h
      exact ⟨(numeral_append _).symm, numeral_ne_nil hc cs, nofun, fun _ => ⟨_, rfl⟩⟩
  · cases h

theorem munch_takes (h : munch c cs = .token kind literal raw rest) : Takes (c :: cs) kind literal raw rest := by
  unfold munch at h
  split at h
  · rename_i hsymbol
    cases h
    exact symbol?_takes hsymbol
  split at h
  · rename_i hquote
    subst hquote
    exact string_takes h
  split at h
  · rename_i hdigit
    exact number_takes hdigit h
  split at h
  · rename_i hstart
    exact word_takes (name_append _).symm (name_ne_nil hstart cs) (segments_name hstart cs) h
  split at h <;> cases h

end Scanner

end RecordLogic
